import CallTree.Proofs.Placement
import CallTree.Proofs.Preorder
import CallTree.Workspace.Scope

/-!
# The names of parameters

A parameter is written as an identifier, with or without a default value and with or without an
annotation, or it is starred. The names that a function's parameters have are read off these forms
(`Source.mem_parametersOf_iff`): without stars, the name is the identifier, and with them it is what
is written, stars and all. A starred parameter that is annotated has no name at all.

Two things follow for the code that asks for the names. Inside the body, an identifier that is the
name of a parameter does not mean what it means in the module, and one that is neither that nor
assigned to means just that (`parameters_hide_names`); so parameters without stars hide what their
names mean outside, and starred ones do not. And the names are the same without the annotations,
unless a starred parameter is annotated (`names_without_hints_iff`).
-/

namespace CallTree

namespace Syntax

/-! ## The forms of parameters -/

/-- The nodes of the parameter list of a function. -/
def Node.parameterItems (n : Node) : List Node :=
  ((n.child? .parameters).map Node.namedChildren).getD []

/-- **The child with the name of a parameter**, in one of two shapes. -/
inductive Node.NamedBy (item id : Node) : Prop
  /-- Where there is a default value, a child has the part of the name. -/
  | inPart {before after : List Node} (hchildren : item.children = before ++ id :: after)
    (hpart : id.role = some .name) (hbefore : ∀ n ∈ before, n.role ≠ some .name)
  /-- Where there is only an annotation, none has that part, and the name is the first
  identifier. -/
  | first {before after : List Node} (hparts : ∀ n ∈ item.children, n.role ≠ some .name)
    (hchildren : item.children = before ++ id :: after) (hname : id.isName = true)
    (hbefore : ∀ n ∈ before, n.isName = false)

section NamedBy

variable {item id : Node}

/-- It is a child, and can be told by its part or by being an identifier. -/
theorem Node.NamedBy.mem (h : item.NamedBy id) :
    id ∈ item.children ∧ (id.role = some .name ∨ id.isName = true) := by
  cases h with
  | inPart hchildren hpart _ => exact ⟨by simp [hchildren], .inl hpart⟩
  | first _ hchildren hname _ => exact ⟨by simp [hchildren], .inr hname⟩

/-- Identifiers are no marks, so the first is the same with or without the marks. -/
theorem Node.find?_isName_namedChildren (item : Node) :
    item.namedChildren.find? isName = item.children.find? isName := by
  rw [namedChildren, List.find?_filter]
  congr
  funext n
  unfold isName isMark
  cases n.label <;> rfl

/-- **The child that a search finds** has one of the shapes. -/
theorem Node.namedBy_iff : item.NamedBy id
    ↔ ((item.child? .name).orElse fun _ => item.namedChildren.find? isName) = some id := by
  rw [find?_isName_namedChildren]
  constructor
  · rintro (⟨hchildren, hpart, hbefore⟩ | ⟨hparts, hchildren, hname, hbefore⟩)
    · have hfound : item.child? .name = some id :=
        List.find?_eq_some_iff_append.mpr ⟨by simp [hpart], _, _, hchildren, by simpa using hbefore⟩
      rw [hfound]
      rfl
    · have hnone : item.child? .name = none := List.find?_eq_none.mpr (by simpa using hparts)
      rw [hnone]
      exact List.find?_eq_some_iff_append.mpr ⟨hname, _, _, hchildren, by simpa using hbefore⟩
  · intro h
    cases hpart : item.child? .name with
    | some found =>
      rw [hpart] at h
      cases h
      obtain ⟨hrole, _, _, hchildren, hbefore⟩ := List.find?_eq_some_iff_append.mp hpart
      exact .inPart hchildren (by simpa using hrole) (by simpa using hbefore)
    | none =>
      rw [hpart] at h
      obtain ⟨hname, _, _, hchildren, hbefore⟩ := List.find?_eq_some_iff_append.mp h
      exact .first (by simpa using List.find?_eq_none.mp hpart) hchildren hname
        (by simpa using hbefore)

end NamedBy

/-- A parameter that has more than a name: a default value, an annotation, or both. -/
def Node.HasMore (item : Node) : Prop :=
  item.label = .construct .typedParameter ∨ item.label = .construct .typedDefaultParameter
    ∨ item.label = .construct .defaultParameter

namespace Source

variable (src : Source) (item : Node)

/-- **A parameter without stars**, by its name. -/
inductive Names : String → Prop
  | plain {x : String} (h : item.label = .name x) : Names x
  | withMore {x : String} {id : Node} (h : item.HasMore) (hid : item.NamedBy id)
    (htext : src.text id = .ok x) : Names x

/-- **A starred parameter**, as it is written. -/
structure Stars (x : String) : Prop where
  kind : item.label = .construct .listSplatPattern ∨ item.label = .construct .dictionarySplatPattern
  text : src.text item = .ok x

instance decidableNames (x : String) : Decidable (src.Names item x) :=
  decidable_of_iff (item.label = .name x ∨ (item.label = .construct .typedParameter
    ∨ item.label = .construct .typedDefaultParameter ∨ item.label = .construct .defaultParameter)
      ∧ ((item.child? .name).orElse fun _ => item.namedChildren.find? Node.isName).any
        (fun id => src.text id = .ok x) = true) <| by
    simp only [Option.any_eq_true, decide_eq_true_eq, ← Node.namedBy_iff]
    constructor
    · rintro (h | ⟨h, id, hid, htext⟩)
      · exact .plain h
      · exact .withMore h hid htext
    · rintro (h | ⟨h, hid, htext⟩)
      · exact .inl h
      · exact .inr ⟨h, _, hid, htext⟩

instance decidableStars (x : String) : Decidable (src.Stars item x) :=
  decidable_of_iff ((item.label = .construct .listSplatPattern
    ∨ item.label = .construct .dictionarySplatPattern) ∧ src.text item = .ok x)
    ⟨fun h => ⟨h.1, h.2⟩, fun h => ⟨h.kind, h.text⟩⟩

variable {src item} {x : String}

/-- The child with the name gives the parameter its name, and the annotation comes along. -/
theorem parameter?_of_namedBy {id : Node} (h : item.HasMore) (hid : item.NamedBy id) :
    src.parameter? item = (src.text id).map fun text => some ⟨text, item.child? .type⟩ := by
  unfold parameter?
  rcases h with h | h | h <;> rw [h, Node.namedBy_iff.mp hid]

/-- Where no child has the name, there is no parameter. -/
theorem parameter?_of_nameless (h : item.HasMore) (hid : ∀ id, ¬ item.NamedBy id) :
    src.parameter? item = .ok none := by
  have hnone : ((item.child? .name).orElse fun _ => item.namedChildren.find? Node.isName) = none :=
    Option.eq_none_iff_forall_ne_some.mpr fun id => mt Node.namedBy_iff.mpr (hid id)
  unfold parameter?
  rcases h with h | h | h <;> rw [h, hnone]

/-- **A parameter without stars** has the name that it is written with. -/
theorem parameter?_of_names (h : src.Names item x) :
    ∃ hint, src.parameter? item = .ok (some ⟨x, hint⟩) := by
  cases h with
  | plain h => exact ⟨none, by rw [parameter?, h]⟩
  | withMore h hid htext =>
    refine ⟨item.child? .type, ?_⟩
    rw [parameter?_of_namedBy h hid, htext]
    rfl

/-- A starred one has its stars in the name, and no annotation. -/
theorem parameter?_of_stars (h : src.Stars item x) :
    src.parameter? item = .ok (some ⟨x, none⟩) := by
  unfold parameter?
  rcases h.kind with hkind | hkind <;> rw [hkind] <;> dsimp only <;> rw [h.text] <;> rfl

/-- **What has a name as a parameter** has one of these forms. -/
theorem names_or_stars {p : Parameter} (h : src.parameter? item = .ok (some p)) :
    src.Names item p.name ∨ src.Stars item p.name := by
  by_cases hmore : item.HasMore
  · by_cases hid : ∃ id, item.NamedBy id
    · obtain ⟨id, hid⟩ := hid
      rw [parameter?_of_namedBy hmore hid] at h
      obtain ⟨text, htext, hp⟩ := ok_of_map h
      cases hp
      exact .inl (.withMore hmore hid htext)
    · rw [parameter?_of_nameless hmore (not_exists.mp hid)] at h
      cases h
  · have hstars (hkind : item.label = .construct .listSplatPattern
        ∨ item.label = .construct .dictionarySplatPattern)
        (h : (src.text item).map (fun text => some (Parameter.mk text none)) = .ok (some p)) :
        src.Stars item p.name := by
      obtain ⟨text, htext, hp⟩ := ok_of_map h
      cases hp
      exact ⟨hkind, htext⟩
    unfold parameter? at h
    split at h
    · rename_i text hlabel
      cases h
      exact .inl (.plain hlabel)
    · exact absurd (.inl ‹_›) hmore
    · exact absurd (.inr (.inl ‹_›)) hmore
    · exact absurd (.inr (.inr ‹_›)) hmore
    · exact .inr (hstars (.inl ‹_›) h)
    · exact .inr (hstars (.inr ‹_›) h)
    · cases h

theorem parametersOf_eq (src : Source) (n : Node) :
    src.parametersOf n = (n.parameterItems.mapM src.parameter?).map (·.filterMap id) := by
  unfold parametersOf Node.parameterItems
  cases n.child? .parameters with
  | none => rfl
  | some list =>
    show (list.namedChildren.mapM src.parameter? >>= fun found => pure (found.filterMap id)) = _
    rw [bind_pure_comp]
    rfl

/-- **The names of the parameters of a function** are those of its items, of one form or the
other. -/
theorem mem_parametersOf_iff {n : Node} {ps : List Parameter} (h : src.parametersOf n = .ok ps) :
    x ∈ ps.map (·.name) ↔ ∃ item ∈ n.parameterItems, src.Names item x ∨ src.Stars item x := by
  rw [parametersOf_eq] at h
  obtain ⟨found, hfound, rfl⟩ := ok_of_map h
  have hitem (item : Node) : (∃ p, src.parameter? item = .ok (some p) ∧ p.name = x)
      ↔ src.Names item x ∨ src.Stars item x := by
    constructor
    · rintro ⟨p, hp, rfl⟩
      exact names_or_stars hp
    · rintro (hnames | hstars)
      · obtain ⟨hint, hp⟩ := parameter?_of_names hnames
        exact ⟨_, hp, rfl⟩
      · exact ⟨_, parameter?_of_stars hstars, rfl⟩
  simp only [List.mem_map, List.mem_filterMap, id, exists_eq_right, mem_mapM_iff hfound, ← hitem]
  grind

end Source

end Syntax

namespace Workspace

open CallTree.Data (Table)
open CallTree.Syntax (Source Node Site)

/-! ## Names in a body -/

/-- The names that the body of a definition assigns to. -/
def Definition.assignedNames (d : Definition) : List String :=
  ((d.body?.map (·.descendantsOf .assignment)).getD []).filterMap fun a =>
    (a.node.child? .left).bind Node.identifier?

namespace Scope

/-- A name that is the receiver or a local name. -/
def Binds (scope : Scope) (x : String) : Prop :=
  scope.receiver = some x ∨ scope.locals.has x = true

/-- **A scope with more local names**, and otherwise the same. -/
structure Extends (scope : Scope) (names : List String) (scope' : Scope) : Prop where
  moduleName : scope'.moduleName = scope.moduleName
  enclosing : scope'.enclosing = scope.enclosing
  isClassMethod : scope'.isClassMethod = scope.isClassMethod
  receiver : scope'.receiver = scope.receiver
  locals : ∀ x, scope'.locals.has x = true ↔ scope.locals.has x = true ∨ x ∈ names

namespace Extends

theorem refl (scope : Scope) : scope.Extends [] scope := ⟨rfl, rfl, rfl, rfl, by simp⟩

variable {scope scope' scope'' : Scope} {names names' : List String}

theorem trans (h : scope.Extends names scope') (h' : scope'.Extends names' scope'') :
    scope.Extends (names ++ names') scope'' where
  moduleName := h'.moduleName.trans h.moduleName
  enclosing := h'.enclosing.trans h.enclosing
  isClassMethod := h'.isClassMethod.trans h.isClassMethod
  receiver := h'.receiver.trans h.receiver
  locals x := by rw [h'.locals, h.locals, List.mem_append, or_assoc]

/-- What is bound after one step after the other. -/
theorem foldlM {α : Type} {step : Scope → α → Except Fault Scope} {names : α → List String}
    (hstep : ∀ scope a, Gives (step scope a) (scope.Extends (names a))) (l : List α)
    (scope : Scope) : Gives (l.foldlM step scope) (scope.Extends (l.flatMap names)) := by
  induction l generalizing scope with
  | nil => exact .ok (refl scope)
  | cons a l ih =>
    exact (hstep scope a).bind fun next hnext => (ih next).imp fun _ h => hnext.trans h

end Extends

theorem extends_put (scope : Scope) (x : String) (found : Option TypeSymbol) :
    scope.Extends [x] { scope with locals := scope.locals.put x found } where
  moduleName := rfl
  enclosing := rfl
  isClassMethod := rfl
  receiver := rfl
  locals y := by
    rw [Table.has_eq_true_iff, Table.has_eq_true_iff, Table.mem_names_put, List.mem_singleton,
      or_comm]

variable {ws : Workspace}

/-- A parameter is bound under its name, whether or not its type is known. -/
theorem extends_bindParameter (src : Source) (scope : Scope) (p : Syntax.Parameter) :
    Gives (scope.bindParameter ws src p) (scope.Extends [p.name]) := by
  intro scope' h
  unfold bindParameter at h
  dsimp only at h
  split at h
  all_goals
    obtain ⟨typeName, -, h⟩ := ok_of_bind h
    obtain ⟨found, -, h⟩ := ok_of_bind h
    cases h
    exact scope.extends_put _ _

/-- An assignment binds the identifier on its left, if there is one. -/
theorem extends_bindAssignment (src : Source) (scope : Scope) (n : Node) :
    Gives (scope.bindAssignment ws src n)
      (scope.Extends ((n.child? .left).bind Node.identifier?).toList) := by
  intro scope' h
  unfold bindAssignment at h
  split at h
  · rename_i hname
    cases h
    rw [hname]
    exact .refl scope
  · rename_i name hname
    rw [hname]
    obtain ⟨found, -, h⟩ := ok_of_bind h
    split at h
    · -- the name has a type already, so it is bound
      rename_i t hbound
      cases h
      refine ⟨rfl, rfl, rfl, rfl, fun y => (or_iff_left_of_imp fun hy => ?_).symm⟩
      rw [List.mem_singleton.mp hy, Table.has_eq_isSome, hbound]
      rfl
    · cases h
      exact scope.extends_put _ _

end Scope

theorem ok_of_readable {α : Type} {r : Except Text.Utf8.Defect α} {a : α}
    (h : Scope.readable r = .ok a) : r = .ok a := by
  cases r with
  | error defect => cases h
  | ok b =>
    cases h
    rfl

/-- **A name that a definition hides**: it is the name of a parameter without stars, a starred
parameter is written like this, or the body assigns to it. -/
inductive Definition.Hides (d : Definition) (x : String) : Prop
  | parameter {item : Node} (hitem : item ∈ d.site.node.parameterItems)
    (h : d.file.source.Names item x)
  | starred {item : Node} (hitem : item ∈ d.site.node.parameterItems)
    (h : d.file.source.Stars item x)
  | assigned (h : x ∈ d.assignedNames)

/-- What a definition hides, by the parameters that are read off it. -/
theorem Definition.hides_iff {d : Definition} {ps : List Syntax.Parameter}
    (h : d.file.source.parametersOf d.site.node = .ok ps) {x : String} :
    d.Hides x ↔ x ∈ ps.map (·.name) ∨ x ∈ d.assignedNames := by
  rw [Source.mem_parametersOf_iff h]
  constructor
  · rintro (⟨hitem, hx⟩ | ⟨hitem, hx⟩ | hx)
    · exact .inl ⟨_, hitem, .inl hx⟩
    · exact .inl ⟨_, hitem, .inr hx⟩
    · exact .inr hx
  · rintro (⟨item, hitem, hx | hx⟩ | hx)
    · exact .parameter hitem hx
    · exact .starred hitem hx
    · exact .assigned hx

/-- What the scope of a definition is before anything is bound. -/
structure Definition.StartsAs (d : Definition) (bare : Scope × List Syntax.Parameter) : Prop where
  moduleName : bare.1.moduleName = d.file.moduleName
  enclosing : bare.1.enclosing = d.enclosing
  isClassMethod : bare.1.isClassMethod = decoratedAs d.symbol.decorators "classmethod"
  locals : bare.1.locals = .empty
  names : ∀ x, d.Hides x
    ↔ bare.1.receiver = some x ∨ x ∈ bare.2.map (·.name) ∨ x ∈ d.assignedNames

/-- **The bare scope of a definition**: what the definition hides is the receiver, the other
parameters and what it assigns to. -/
theorem Definition.startsAs_bareScope (d : Definition) : Gives d.bareScope d.StartsAs := by
  intro bare h
  unfold Definition.bareScope at h
  obtain ⟨parameters, hparameters, h⟩ := ok_of_bind h
  obtain ⟨decorators, -, h⟩ := ok_of_bind h
  have hhides := fun x => d.hides_iff (x := x) (ok_of_readable hparameters)
  split at h
  · rename_i first others
    split at h
    · cases h
      exact ⟨rfl, rfl, rfl, rfl, fun x => by rw [hhides]; simp [eq_comm, or_assoc]⟩
    · cases h
      exact ⟨rfl, rfl, rfl, rfl, fun x => by rw [hhides]; simp⟩
  · cases h
    exact ⟨rfl, rfl, rfl, rfl, fun x => by rw [hhides]; simp⟩

/-- **The scope of a definition**: it binds the names that the definition hides. -/
structure Scope.IsOf (scope : Scope) (d : Definition) : Prop where
  moduleName : scope.moduleName = d.file.moduleName
  enclosing : scope.enclosing = d.enclosing
  isClassMethod : scope.isClassMethod = decoratedAs d.symbol.decorators "classmethod"
  binds : ∀ x, scope.Binds x ↔ d.Hides x

/-- The scope of a definition is the bare one with the parameters and the assignments bound. -/
theorem extends_scopeFor (ws : Workspace) (d : Definition) :
    Gives (scopeFor ws d) fun scope => ∃ bare parameters, d.bareScope = .ok (bare, parameters)
      ∧ bare.Extends (parameters.map (·.name) ++ d.assignedNames) scope := by
  intro scope h
  unfold scopeFor at h
  obtain ⟨⟨bare, parameters⟩, hbare, h⟩ := ok_of_bind h
  obtain ⟨bound, hbound, h⟩ := ok_of_bind h
  have hparameters :=
    Scope.Extends.foldlM (Scope.extends_bindParameter _) parameters bare bound hbound
  have hflat : parameters.flatMap (fun p => [p.name]) = parameters.map (·.name) :=
    List.flatMap_pure_eq_map _ _
  rw [hflat] at hparameters
  refine ⟨bare, parameters, hbare, hparameters.trans ?_⟩
  unfold Definition.assignedNames
  split at h
  · rename_i hbody
    cases h
    rw [hbody]
    exact .refl _
  · rename_i body hbody
    rw [hbody, List.filterMap_eq_flatMap_toList]
    exact Scope.Extends.foldlM (fun scope (site : Site) =>
      Scope.extends_bindAssignment d.file.source scope site.node) _ bound scope h

/-- **A scope binds what its definition hides**, as receiver or as local name. -/
theorem isOf_scopeFor (ws : Workspace) (d : Definition) : Gives (scopeFor ws d) (·.IsOf d) := by
  intro scope h
  obtain ⟨bare, parameters, hbare, hextends⟩ := extends_scopeFor ws d scope h
  have hstarts := d.startsAs_bareScope _ hbare
  refine ⟨hextends.moduleName.trans hstarts.moduleName,
    hextends.enclosing.trans hstarts.enclosing,
    hextends.isClassMethod.trans hstarts.isClassMethod, fun x => ?_⟩
  have hempty : bare.locals.has x = false := by
    rw [hstarts.locals]
    rfl
  rw [Scope.Binds, hextends.locals, hextends.receiver, hempty, hstarts.names, List.mem_append]
  simp

/-! ## What identifiers mean -/

/-- A call of an identifier. -/
def CallsName (x : String) (site : Site) : Prop :=
  site.node.label = .construct .call
    ∧ ∃ callee, site.node.child? .function = some callee ∧ callee.label = .name x

instance decidableCallsName (x : String) (site : Site) : Decidable (CallsName x site) :=
  decidable_of_iff (site.node.label = .construct .call
    ∧ (site.node.child? .function).any (·.label = .name x) = true) <| by
    unfold CallsName
    simp only [Option.any_eq_true, decide_eq_true_eq]

/-- What a call of something stands for: the method, or the constructor of the class. -/
def Referent.called? (ws : Workspace) : Referent → Option Symbol
  | .symbol (.type t) => some (.method (ws.constructorOf t))
  | .symbol (.method m) => some (.method m)
  | _ => none

theorem Expr.ofNode_of_name {n : Node} {x : String} (h : n.label = .name x) :
    Expr.ofNode n = .name x := by
  unfold Expr.ofNode
  rw [h]

/-- A call of an identifier is understood as that. -/
theorem CallsName.ofNode_eq {x : String} {site : Site} (h : CallsName x site) :
    Expr.ofNode site.node = .call (.name x) := by
  obtain ⟨hcall, callee, hcallee, hname⟩ := h
  unfold Expr.ofNode
  rw [hcall]
  dsimp only
  split
  · rename_i child hchild
    cases hchild.symm.trans hcallee
    rw [Expr.ofNode_of_name hname]
  · rename_i hchild
    cases hchild.symm.trans hcallee

section Meaning

variable {ws : Workspace} {scope : Scope} {x : String}

/-- A bound name stands for nothing: it hides what the name means in the module. -/
theorem Scope.resolve_of_binds (h : scope.Binds x) {site : Site}
    (hsite : site.node.label = .name x) : scope.resolve ws site = .ok none := by
  have hnamed : scope.named ws x = .ok none := by
    rcases h with h | h <;> simp [named, h]
  unfold resolve
  rw [Expr.ofNode_of_name hsite]
  dsimp only
  split
  · rfl
  · rw [hnamed]
    rfl

/-- A name that is not bound means what it means in the module. -/
theorem Scope.resolve_of_not_binds (h : ¬ scope.Binds x) {site : Site}
    (hsite : site.node.label = .name x) (hlabel : Scope.isLabel site = false) :
    scope.resolve ws site
      = (ws.global scope.moduleName x).map (·.bind Referent.symbol?) := by
  have hnamed : scope.named ws x = ws.global scope.moduleName x := by
    obtain ⟨hreceiver, hlocals⟩ := not_or.mp h
    simp [named, hreceiver, hlocals]
  unfold resolve
  rw [Expr.ofNode_of_name hsite]
  dsimp only
  rw [hlabel, if_neg Bool.false_ne_true, hnamed]
  cases ws.global scope.moduleName x <;> rfl

/-- A call of an identifier stands for what is called. -/
theorem CallsName.resolve_eq {site : Site} (h : CallsName x site) :
    scope.resolve ws site
      = (scope.calleeOf ws (.name x)).map (·.bind (Referent.called? ws)) := by
  unfold Scope.resolve Scope.called
  rw [h.ofNode_eq]
  dsimp only
  cases scope.calleeOf ws (.name x) with
  | error fault => rfl
  | ok found =>
    rcases found with _ | ⟨_ | _ | _ | _⟩ | _ <;> rfl

/-- Calling a bound name leads nowhere, unless it is the class itself. -/
theorem Scope.resolve_call_of_binds (h : scope.Binds x) {site : Site} (hsite : CallsName x site) :
    scope.resolve ws site = .ok none
      ∨ scope.receiver = some x ∧ scope.isClassMethod = true
        ∧ ∃ t, scope.enclosing = some t
          ∧ scope.resolve ws site = .ok (some (.method (ws.constructorOf t))) := by
  rw [hsite.resolve_eq, calleeOf]
  by_cases hreceiver : scope.receiver = some x
  · rw [if_pos hreceiver]
    cases hclass : scope.isClassMethod with
    | false => exact .inl rfl
    | true =>
      cases henclosing : scope.enclosing with
      | none => exact .inl rfl
      | some t => exact .inr ⟨hreceiver, rfl, t, rfl, rfl⟩
  · rw [if_neg hreceiver, if_pos (h.resolve_left hreceiver)]
    exact .inl rfl

/-- Calling any other name leads where the name leads in the module. -/
theorem Scope.resolve_call_of_not_binds (h : ¬ scope.Binds x) {site : Site}
    (hsite : CallsName x site) :
    scope.resolve ws site
      = (ws.global scope.moduleName x).map (·.bind (Referent.called? ws)) := by
  obtain ⟨hreceiver, hlocals⟩ := not_or.mp h
  rw [hsite.resolve_eq, calleeOf, if_neg hreceiver, if_neg hlocals]

end Meaning

/-- **Parameters hide the meaning that their names have in the module, unless they are starred.** In
the body of a definition, an identifier that the definition hides stands for nothing, and so does a
call of it; but the receiver of a class method, which is the class, can be called. All other
identifiers mean what they mean in the module, and among them are the identifiers of starred
parameters: what such a parameter hides is spelled with the stars, and if it is annotated it hides
nothing. -/
theorem parameters_hide_names (ws : Workspace) (d : Definition) (scope : Scope)
    (hscope : scopeFor ws d = .ok scope) (x : String) :
    (d.Hides x →
      (∀ site : Site, site.node.label = .name x → scope.resolve ws site = .ok none)
        ∧ ∀ site, CallsName x site → scope.resolve ws site = .ok none
          ∨ scope.receiver = some x ∧ decoratedAs d.symbol.decorators "classmethod" = true
            ∧ ∃ t, d.enclosing = some t
              ∧ scope.resolve ws site = .ok (some (.method (ws.constructorOf t))))
      ∧ (¬ d.Hides x →
        (∀ site : Site, site.node.label = .name x → Scope.isLabel site = false →
          scope.resolve ws site
            = (ws.global d.file.moduleName x).map (·.bind Referent.symbol?))
        ∧ ∀ site, CallsName x site → scope.resolve ws site
          = (ws.global d.file.moduleName x).map (·.bind (Referent.called? ws))) := by
  obtain ⟨hmodule, henclosing, hclass, hbinds⟩ := isOf_scopeFor ws d scope hscope
  rw [← hbinds, ← hmodule, ← henclosing, ← hclass]
  exact ⟨fun h => ⟨fun _ => Scope.resolve_of_binds h, fun _ => Scope.resolve_call_of_binds h⟩,
    fun h => ⟨fun _ => Scope.resolve_of_not_binds h, fun _ => Scope.resolve_call_of_not_binds h⟩⟩

/-- A function with parameters of all forms, whose names all mean something in the module. -/
def formsSources : List (String × String) :=
  [("m.py", "from q import a, b, c, d, rest, more\n\n\n"
    ++ "def f(a, b=1, /, c: int = 2, *rest, d: int, **more: int):\n"
    ++ "    a(b, c, d)\n    rest(more)\n")]

/-- The four names without stars stand for nothing, and the other two for what is imported. -/
theorem parameters_hide_names_forms :
    ∃ ws d scope, ws = ofSources formsSources ∧ scopeFor ws d = .ok scope
      ∧ (∀ x ∈ ["a", "b", "c", "d"], d.Hides x
        ∧ ∀ site : Site, site.node.label = .name x → scope.resolve ws site = .ok none)
      ∧ (∀ x ∈ ["rest", "more"], ¬ d.Hides x ∧ ∃ m : MethodSymbol, m.qualifiedName = "q." ++ x
        ∧ ∀ site, CallsName x site → scope.resolve ws site = .ok (some (.method m))) := by
  have hfacts : ∃ ws ∈ [ofSources formsSources], ∃ d ∈ ws.definitions.get? "m.f",
      ∃ scope ∈ (scopeFor ws d).toOption,
      ∃ ps ∈ (d.file.source.parametersOf d.site.node).toOption,
        ps.map (·.name) = ["a", "b", "c", "*rest", "d"] ∧ d.assignedNames = []
        ∧ ∀ x ∈ ["rest", "more"], ∃ found ∈ (ws.global d.file.moduleName x).toOption,
          ∃ s ∈ found.bind (Referent.called? ws), ∃ m ∈ s.method?,
            m.qualifiedName = "q." ++ x := by
    decide +kernel
  obtain ⟨ws, hws, d, -, scope, hscope, ps, hps, hnames, hassigned, hmeaning⟩ := hfacts
  have hscope := ok_of_toOption hscope
  have hlaw := parameters_hide_names ws d scope hscope
  have hhides (x : String) : d.Hides x ↔ x ∈ ["a", "b", "c", "*rest", "d"] := by
    rw [d.hides_iff (ok_of_toOption hps), hnames, hassigned]
    simp
  have hplain : ∀ x ∈ ["a", "b", "c", "d"], x ∈ ["a", "b", "c", "*rest", "d"] := by decide
  have hstarred : ∀ x ∈ ["rest", "more"], x ∉ ["a", "b", "c", "*rest", "d"] := by decide
  refine ⟨ws, d, scope, List.mem_singleton.mp hws, hscope, fun x hx => ?_, fun x hx => ?_⟩
  · have hx := (hhides x).mpr (hplain x hx)
    exact ⟨hx, ((hlaw x).1 hx).1⟩
  · obtain ⟨found, hfound, s, hs, m, hm, hname⟩ := hmeaning x hx
    have hx := mt (hhides x).mp (hstarred x hx)
    refine ⟨hx, m, hname, fun site hsite => ?_⟩
    rw [((hlaw x).2 hx).2 site hsite, ok_of_toOption hfound]
    refine congrArg Except.ok (hs.trans ?_)
    cases s with
    | method m' => exact congrArg (some ∘ Symbol.method) (Option.some.inj hm)
    | type _ => cases hm
    | field _ => cases hm
    | property _ => cases hm

/-- A function that calls its starred parameter, which has the name of another function. -/
def starredSources : List (String × String) :=
  [("m.py", "def args():\n    pass\n\n\ndef f(*args):\n    args()\n    return args\n")]

/-- **A starred parameter does not hide its name**: both the call and the identifier stand for the
function of the module. -/
theorem starred_parameter_stays_open :
    ∃ ws d scope m, ws = ofSources starredSources ∧ d ∈ ws.definitions.values
      ∧ (∃ item ∈ d.site.node.parameterItems, item.label = .construct .listSplatPattern
        ∧ ∃ id ∈ item.namedChildren, id.label = .name "args")
      ∧ scopeFor ws d = .ok scope ∧ m.qualifiedName = "m.args" ∧ m.kind = .function
      ∧ ∃ body, d.body? = some body
        ∧ (∃ site ∈ body.descendantsOf .call, CallsName "args" site
          ∧ scope.resolve ws site = .ok (some (.method m)))
        ∧ ∃ site ∈ body.identifiers, site.node.label = .name "args"
          ∧ scope.resolve ws site = .ok (some (.method m)) := by
  have hfacts : ∃ ws ∈ [ofSources starredSources], ∃ d ∈ ws.definitions.get? "m.f",
      ∃ scope ∈ (scopeFor ws d).toOption, ∃ body ∈ d.body?,
      ∃ m ∈ (ws.definitions.get? "m.args").map (·.symbol),
        (∃ item ∈ d.site.node.parameterItems, item.label = .construct .listSplatPattern
          ∧ ∃ id ∈ item.namedChildren, id.label = .name "args")
        ∧ m.qualifiedName = "m.args" ∧ m.kind = .function
        ∧ (∃ site ∈ body.descendantsOf .call, CallsName "args" site
          ∧ scope.resolve ws site = .ok (some (.method m)))
        ∧ ∃ site ∈ body.identifiers, site.node.label = .name "args"
          ∧ scope.resolve ws site = .ok (some (.method m)) := by
    decide +kernel
  obtain ⟨ws, hws, d, hd, scope, hscope, body, hbody, m, -, hitem, hname, hkind, hmeaning⟩ := hfacts
  exact ⟨ws, d, scope, m, List.mem_singleton.mp hws, Table.mem_values_of_get? hd, hitem,
    ok_of_toOption hscope, hname, hkind, body, hbody, hmeaning⟩

end Workspace

/-! ## Without the annotations -/

namespace Syntax

/-- A starred parameter that is annotated: none of its children is an identifier or has the part of
a name. -/
def Node.isHintedStarred (item : Node) : Bool :=
  item.isKind .typedParameter && item.children.all fun n => n.role ≠ some .name && !n.isName

/-- An annotated starred parameter has no name of its own. -/
theorem Node.not_namedBy_of_isHintedStarred {item : Node} (h : item.isHintedStarred) (id : Node) :
    ¬ item.NamedBy id := by
  intro hid
  obtain ⟨hmem, hshape⟩ := hid.mem
  have hall := List.all_eq_true.mp (Bool.and_eq_true_iff.mp h).2 id hmem
  rcases hshape with hpart | hname
  · simp [hpart] at hall
  · simp [hname] at hall

/-- The phrases that parameters are. -/
def parameterKinds : List Kind :=
  [.typedParameter, .typedDefaultParameter, .defaultParameter, .listSplatPattern,
    .dictionarySplatPattern]

/-- What stands between parameters. -/
def Node.isNoParameter (item : Node) : Bool :=
  !item.isName && !item.isMark && parameterKinds.all fun kind => !item.isKind kind

/-- **A parameter, and the same without the annotation**, perhaps in another source. The name is
kept, and so are the default value and the stars. -/
inductive Drops (src src' : Source) (item item' : Node) : Prop
  | plain {x : String} (h : item.label = .name x) (h' : item'.label = .name x)
  | hinted {x : String} (h : item.label = .construct .typedParameter) (hx : src.Names item x)
    (h' : item'.label = .name x)
  | default {x : String} (h : item.label = .construct .defaultParameter) (hx : src.Names item x)
    (h' : item'.label = .construct .defaultParameter) (hx' : src'.Names item' x)
  | hintedDefault {x : String} (h : item.label = .construct .typedDefaultParameter)
    (hx : src.Names item x) (h' : item'.label = .construct .defaultParameter)
    (hx' : src'.Names item' x)
  | starred {x : String} (hx : src.Stars item x) (h' : item'.label = item.label)
    (hx' : src'.Stars item' x)
  | hintedStarred {splat : Node} {x : String} (h : item.isHintedStarred)
    (hsplat : splat ∈ item.namedChildren) (hx : src.Stars splat x)
    (h' : item'.label = splat.label) (hx' : src'.Stars item' x)
  | other (h : item.isNoParameter) (h' : item'.label = item.label)

/-- **Parameters with as many more among them**, which otherwise have the same names. -/
structure Adds (more : Nat) (ps ps' : List Parameter) : Prop where
  names : (ps.map (·.name)).Sublist (ps'.map (·.name))
  length : ps'.length = ps.length + more

namespace Adds

variable {m n : Nat} {ps ps' qs qs' : List Parameter}

theorem same (h : ps.map (·.name) = ps'.map (·.name)) : Adds 0 ps ps' where
  names := h ▸ .refl _
  length := by simpa using (congrArg List.length h).symm

theorem append (h : Adds m ps ps') (h' : Adds n qs qs') :
    Adds (m + n) (ps ++ qs) (ps' ++ qs') where
  names := by
    rw [List.map_append, List.map_append]
    exact h.names.append h'.names
  length := by
    rw [List.length_append, List.length_append, h.length, h'.length]
    omega

/-- The names are the same exactly if there are no more of them. -/
theorem names_eq_iff (h : Adds n ps ps') : ps'.map (·.name) = ps.map (·.name) ↔ n = 0 := by
  have hlength := h.length
  constructor
  · intro heq
    have : ps'.length = ps.length := by simpa using congrArg List.length heq
    omega
  · intro hnone
    refine (h.names.eq_of_length ?_).symm
    rw [List.length_map, List.length_map]
    omega

end Adds

namespace Drops

variable {src src' : Source} {item item' : Node}

theorem parameter?_of_isNoParameter (h : item.isNoParameter) : src.parameter? item = .ok none := by
  simp only [Node.isNoParameter, parameterKinds, Node.isKind, Node.isName, List.all_cons,
    List.all_nil, Bool.and_eq_true, Bool.not_eq_true', decide_eq_false_iff_not] at h
  unfold Source.parameter?
  split <;> simp_all

/-- A parameter without stars has a name of its own. -/
theorem isHintedStarred_of_names {x : String} (h : src.Names item x) :
    item.isHintedStarred = false := by
  cases h with
  | plain h => simp [Node.isHintedStarred, Node.isKind, h]
  | withMore _ hid _ =>
    exact Bool.eq_false_iff.mpr fun hstarred => Node.not_namedBy_of_isHintedStarred hstarred _ hid

/-- **One parameter without the annotation** has the same name, unless it is starred and was
annotated. -/
theorem parameter? (h : Drops src src' item item') :
    ∃ p p', src.parameter? item = .ok p ∧ src'.parameter? item' = .ok p'
      ∧ Adds (if item.isHintedStarred then 1 else 0) p.toList p'.toList := by
  have hnamed {x : String} (hx : src.Names item x) (hx' : src'.Names item' x) :
      ∃ p p', src.parameter? item = .ok p ∧ src'.parameter? item' = .ok p'
        ∧ Adds (if item.isHintedStarred then 1 else 0) p.toList p'.toList := by
    obtain ⟨hint, hp⟩ := Source.parameter?_of_names hx
    obtain ⟨hint', hp'⟩ := Source.parameter?_of_names hx'
    refine ⟨_, _, hp, hp', ?_⟩
    rw [isHintedStarred_of_names hx]
    exact .same rfl
  cases h with
  | plain h h' => exact hnamed (.plain h) (.plain h')
  | hinted _ hx h' => exact hnamed hx (.plain h')
  | default _ hx _ hx' => exact hnamed hx hx'
  | hintedDefault _ hx _ hx' => exact hnamed hx hx'
  | starred hx _ hx' =>
    have hstarred : item.isHintedStarred = false := by
      rcases hx.kind with hkind | hkind <;> simp [Node.isHintedStarred, Node.isKind, hkind]
    refine ⟨_, _, Source.parameter?_of_stars hx, Source.parameter?_of_stars hx', ?_⟩
    rw [hstarred]
    exact .same rfl
  | hintedStarred h _ _ _ hx' =>
    have hmore : item.HasMore := .inl (of_decide_eq_true (Bool.and_eq_true_iff.mp h).1)
    refine ⟨none, _, ?_, Source.parameter?_of_stars hx', ?_⟩
    · exact Source.parameter?_of_nameless hmore (Node.not_namedBy_of_isHintedStarred h)
    · rw [if_pos h]
      exact ⟨List.nil_sublist _, rfl⟩
  | other h h' =>
    have hother : item'.isNoParameter := by
      simpa [Node.isNoParameter, Node.isName, Node.isMark, Node.isKind, h'] using h
    have hstarred : item.isHintedStarred = false := by
      simp_all [Node.isNoParameter, parameterKinds, Node.isHintedStarred]
    refine ⟨none, none, parameter?_of_isNoParameter h, parameter?_of_isNoParameter hother, ?_⟩
    rw [hstarred]
    exact .same rfl

/-- **All items of a list**, by induction: each starred one that was annotated brings one more. -/
theorem mapM_parameter? {items items' : List Node}
    (h : List.Forall₂ (Drops src src') items items') :
    ∃ found found', items.mapM src.parameter? = .ok found ∧ items'.mapM src'.parameter? = .ok found'
      ∧ Adds (items.countP Node.isHintedStarred) (found.filterMap id) (found'.filterMap id) := by
  induction h with
  | nil => exact ⟨[], [], rfl, rfl, .same rfl⟩
  | cons hitem _ ih =>
    obtain ⟨p, p', hp, hp', hadds⟩ := hitem.parameter?
    obtain ⟨found, found', hfound, hfound', hrest⟩ := ih
    refine ⟨p :: found, p' :: found', ?_, ?_, ?_⟩
    · rw [List.mapM_cons, hp, hfound]
      rfl
    · rw [List.mapM_cons, hp', hfound']
      rfl
    · rw [filterMap_cons_toList, filterMap_cons_toList, List.countP_cons, Nat.add_comm]
      exact hadds.append hrest

/-- **All parameters without their annotations**: starred ones that were annotated come in. -/
theorem parametersOf {n n' : Node}
    (h : List.Forall₂ (Drops src src') n.parameterItems n'.parameterItems) :
    ∃ ps ps', src.parametersOf n = .ok ps ∧ src'.parametersOf n' = .ok ps'
      ∧ Adds (n.parameterItems.countP Node.isHintedStarred) ps ps' := by
  obtain ⟨found, found', hfound, hfound', hadds⟩ := mapM_parameter? h
  refine ⟨found.filterMap id, found'.filterMap id, ?_, ?_, hadds⟩
  · rw [Source.parametersOf_eq, hfound]
    rfl
  · rw [Source.parametersOf_eq, hfound']
    rfl

/-- The name that a parameter has without its annotation says which parameter it is. -/
instance decidable (src src' : Source) (item item' : Node) :
    Decidable (Drops src src' item item') :=
  decidable_of_iff (item.isNoParameter ∧ item'.label = item.label
    ∨ ((src'.parameter? item').toOption.join.map (·.name)).any (fun x =>
        item.label = .name x ∧ item'.label = .name x
        ∨ item.label = .construct .typedParameter ∧ src.Names item x ∧ item'.label = .name x
        ∨ (item.label = .construct .defaultParameter
            ∨ item.label = .construct .typedDefaultParameter) ∧ src.Names item x
          ∧ item'.label = .construct .defaultParameter ∧ src'.Names item' x
        ∨ src.Stars item x ∧ item'.label = item.label ∧ src'.Stars item' x
        ∨ item.isHintedStarred ∧ (∃ splat ∈ item.namedChildren, src.Stars splat x
          ∧ item'.label = splat.label) ∧ src'.Stars item' x) = true) <| by
    have hname {x : String} (h : src'.Names item' x ∨ src'.Stars item' x) :
        (src'.parameter? item').toOption.join.map (·.name) = some x := by
      rcases h with h | h
      · obtain ⟨hint, hp⟩ := Source.parameter?_of_names h
        rw [hp]
        rfl
      · rw [Source.parameter?_of_stars h]
        rfl
    simp only [Option.any_eq_true, decide_eq_true_eq]
    constructor
    · rintro (⟨h, h'⟩ | ⟨x, -, ⟨h, h'⟩ | ⟨h, hx, h'⟩ | ⟨h | h, hx, h', hx'⟩ | ⟨hx, h', hx'⟩
        | ⟨h, ⟨splat, hsplat, hx, h'⟩, hx'⟩⟩)
      · exact .other h h'
      · exact .plain h h'
      · exact .hinted h hx h'
      · exact .default h hx h' hx'
      · exact .hintedDefault h hx h' hx'
      · exact .starred hx h' hx'
      · exact .hintedStarred h hsplat hx h' hx'
    · rintro (⟨h, h'⟩ | ⟨h, hx, h'⟩ | ⟨h, hx, h', hx'⟩ | ⟨h, hx, h', hx'⟩ | ⟨hx, h', hx'⟩
        | ⟨h, hsplat, hx, h', hx'⟩ | ⟨h, h'⟩)
      · exact .inr ⟨_, hname (.inl (.plain h')), .inl ⟨h, h'⟩⟩
      · exact .inr ⟨_, hname (.inl (.plain h')), .inr (.inl ⟨h, hx, h'⟩)⟩
      · exact .inr ⟨_, hname (.inl hx'), .inr (.inr (.inl ⟨.inl h, hx, h', hx'⟩))⟩
      · exact .inr ⟨_, hname (.inl hx'), .inr (.inr (.inl ⟨.inr h, hx, h', hx'⟩))⟩
      · exact .inr ⟨_, hname (.inr hx'), .inr (.inr (.inr (.inl ⟨hx, h', hx'⟩)))⟩
      · exact .inr ⟨_, hname (.inr hx'), .inr (.inr (.inr (.inr ⟨h, ⟨_, hsplat, hx, h'⟩, hx'⟩)))⟩
      · exact .inl ⟨h, h'⟩

end Drops

end Syntax

namespace Workspace

open CallTree.Syntax (Source Node Site Drops)
open CallTree.Text.Utf8 (Defect)

/-- **A function, and the same without annotations of parameters**, perhaps in another file. -/
structure Respelled (file : CodeFile) (site : Site) (file' : CodeFile) (site' : Site) : Prop where
  moduleName : file'.moduleName = file.moduleName
  definedName : site'.node.definedName = site.node.definedName
  decorators : file'.source.decorators site' = file.source.decorators site
  returnType : file'.source.returnTypeOf site'.node = file.source.returnTypeOf site.node
  parameters : List.Forall₂ (Drops file.source file'.source) site.node.parameterItems
    site'.node.parameterItems

instance decidableRespelled (file : CodeFile) (site : Site) (file' : CodeFile) (site' : Site) :
    Decidable (Respelled file site file' site') :=
  decidable_of_iff (file'.moduleName = file.moduleName
    ∧ site'.node.definedName = site.node.definedName
    ∧ file'.source.decorators site' = file.source.decorators site
    ∧ file'.source.returnTypeOf site'.node = file.source.returnTypeOf site.node
    ∧ List.Forall₂ (Drops file.source file'.source) site.node.parameterItems
      site'.node.parameterItems)
    ⟨fun h => ⟨h.1, h.2.1, h.2.2.1, h.2.2.2.1, h.2.2.2.2⟩,
      fun h => ⟨h.moduleName, h.definedName, h.decorators, h.returnType, h.parameters⟩⟩

/-- The names of the parameters of a function. -/
def CodeFile.parameterNames (file : CodeFile) (site : Site) : Except Defect (List String) :=
  (file.source.parametersOf site.node).map (List.map (·.name))

/-- What is seen of the parameters of a method: their names, and the key that tells methods of one
name apart. -/
def signatureOf (m : MethodSymbol) : List String × String := (m.parameters, m.key true)

theorem signatureOf_eq {m m' : MethodSymbol} (howner : m'.owner = m.owner)
    (hhome : m'.homeModule = m.homeModule) (hname : m'.name = m.name)
    (hparameters : m'.parameters = m.parameters) : signatureOf m' = signatureOf m := by
  unfold signatureOf MethodSymbol.key MethodSymbol.ownerLabel MethodSymbol.ownerLabel.moduleLabel
  rw [howner, hhome, hname, hparameters]

/-- The signature of the method that a declaration declares. -/
def Declaration.signature? : Declaration → Option (List String × String)
  | method m _ _ => some (signatureOf m)
  | _ => none

namespace Respelled

variable {file file' : CodeFile} {site site' : Site} (h : Respelled file site file' site')
  {ps ps' : List Syntax.Parameter} (hps : file.source.parametersOf site.node = .ok ps)
  (hps' : file'.source.parametersOf site'.node = .ok ps')
  (hnames : ps'.map (·.name) = ps.map (·.name))

include h hps hps' hnames

/-- The signature of a function has the names of the parameters and not their annotations. -/
theorem functionSymbol :
    (file'.functionSymbol site').map signatureOf = (file.functionSymbol site).map signatureOf := by
  unfold CodeFile.functionSymbol
  rw [h.definedName, h.decorators, h.returnType, h.moduleName, hps, hps']
  cases file.source.returnTypeOf site.node with
  | error defect => rfl
  | ok returnType =>
    cases file.source.decorators site with
    | error defect => rfl
    | ok decorators =>
      exact congrArg Except.ok (signatureOf_eq rfl rfl rfl hnames)

/-- The same for a method, which may also turn out to be a property. -/
theorem methodDeclaration (owner : TypeSymbol) :
    (file'.methodDeclaration owner site').map Declaration.signature?
      = (file.methodDeclaration owner site).map Declaration.signature? := by
  unfold CodeFile.methodDeclaration
  rw [h.definedName, h.decorators, h.returnType, hps, hps']
  cases file.source.decorators site with
  | error defect => rfl
  | ok decorators =>
    dsimp only [bind, Except.bind, pure, Except.pure]
    split
    · rfl
    · cases file.source.returnTypeOf site.node with
      | error defect => rfl
      | ok returnType =>
        dsimp only
        split
        · rfl
        · refine congrArg (Except.ok ∘ some) (signatureOf_eq rfl rfl rfl ?_)
          dsimp only
          rw [hnames]

/-- The receiver is the first parameter, by its name. -/
theorem receiver (m m' : MethodSymbol) (owner : Option TypeSymbol) :
    (Definition.bareScope ⟨m', site', file', owner⟩).map (·.1.receiver)
      = (Definition.bareScope ⟨m, site, file, owner⟩).map (·.1.receiver) := by
  unfold Definition.bareScope
  rw [h.decorators, hps, hps']
  cases file.source.decorators site with
  | error defect => rfl
  | ok decorators =>
    dsimp only [Scope.readable, Except.mapError, bind, Except.bind, pure, Except.pure]
    cases ps with
    | nil =>
      obtain rfl := List.map_eq_nil_iff.mp hnames
      rfl
    | cons first others =>
      cases ps' with
      | nil => cases hnames
      | cons first' others' =>
        have hfirst : first'.name = first.name := (List.cons.inj hnames).1
        dsimp only
        rw [hfirst]
        split <;> rfl

end Respelled

/-- **Annotations make no difference to a signature, unless a starred parameter has one.** The
parameters of a function have the same names, in the same order, without their annotations exactly
if no starred parameter is annotated; otherwise the names are among those without the annotations,
which are more by the starred parameters that were annotated. If the names are the same, then so are
the parameters of the function and of the method that is indexed, the key that counts in the
parameters, and the receiver of the body. -/
theorem names_without_hints_iff (file : CodeFile) (site : Site) (file' : CodeFile) (site' : Site)
    (h : Respelled file site file' site') :
    (∃ names names', file.parameterNames site = .ok names ∧ file'.parameterNames site' = .ok names'
        ∧ names.Sublist names'
        ∧ names'.length = names.length + site.node.parameterItems.countP Node.isHintedStarred)
      ∧ (file'.parameterNames site' = file.parameterNames site
        ↔ ∀ item ∈ site.node.parameterItems, item.isHintedStarred = false)
      ∧ (file'.parameterNames site' = file.parameterNames site →
        (file'.functionSymbol site').map signatureOf = (file.functionSymbol site).map signatureOf
        ∧ (∀ owner, (file'.methodDeclaration owner site').map Declaration.signature?
          = (file.methodDeclaration owner site).map Declaration.signature?)
        ∧ ∀ ws ws' m m' owner scope scope',
          scopeFor ws ⟨m, site, file, owner⟩ = .ok scope →
          scopeFor ws' ⟨m', site', file', owner⟩ = .ok scope' →
          scope'.receiver = scope.receiver) := by
  obtain ⟨ps, ps', hps, hps', hadds⟩ := Drops.parametersOf h.parameters
  have hread : file.parameterNames site = .ok (ps.map (·.name)) := by
    rw [CodeFile.parameterNames, hps]
    rfl
  have hread' : file'.parameterNames site' = .ok (ps'.map (·.name)) := by
    rw [CodeFile.parameterNames, hps']
    rfl
  rw [hread, hread', Except.ok.injEq]
  refine ⟨⟨_, _, rfl, rfl, hadds.names, ?_⟩, ?_, fun hnames =>
    ⟨h.functionSymbol hps hps' hnames, h.methodDeclaration hps hps' hnames, ?_⟩⟩
  · rw [List.length_map, List.length_map, hadds.length]
  · rw [hadds.names_eq_iff, List.countP_eq_zero]
    simp only [Bool.not_eq_true]
  · intro ws ws' m m' owner scope scope' hscope hscope'
    obtain ⟨bare, _, hbare, hextends⟩ := extends_scopeFor ws _ scope hscope
    obtain ⟨bare', _, hbare', hextends'⟩ := extends_scopeFor ws' _ scope' hscope'
    have hreceiver := h.receiver hps hps' hnames m m' owner
    rw [hbare, hbare'] at hreceiver
    rw [hextends.receiver, hextends'.receiver]
    exact Except.ok.inj hreceiver

/-- A function whose parameters keep their names, and the same without annotations. -/
def hintedText : String := "def f(a: int, b: int = 1, *rest, c: int, **more):\n    pass\n"

def unhintedText : String := "def f(a, b=1, *rest, c, **more):\n    pass\n"

/-- Both have one signature. -/
theorem names_without_hints_iff_function :
    ∃ d ∈ (ofSources [("m.py", hintedText)]).definitions.values,
      ∃ d' ∈ (ofSources [("m.py", unhintedText)]).definitions.values,
        Respelled d.file d.site d'.file d'.site
        ∧ d'.file.parameterNames d'.site = d.file.parameterNames d.site
        ∧ (d'.file.functionSymbol d'.site).map signatureOf
          = .ok (["a", "b", "*rest", "c", "**more"], "m.f(a, b, *rest, c, **more)") := by
  have hfacts : ∃ d ∈ (ofSources [("m.py", hintedText)]).definitions.values,
      ∃ d' ∈ (ofSources [("m.py", unhintedText)]).definitions.values,
        Respelled d.file d.site d'.file d'.site
        ∧ (∀ item ∈ d.site.node.parameterItems, item.isHintedStarred = false)
        ∧ (d.file.functionSymbol d.site).map signatureOf
          = .ok (["a", "b", "*rest", "c", "**more"], "m.f(a, b, *rest, c, **more)") := by
    decide +kernel
  obtain ⟨d, hd, d', hd', hrespelled, hitems, hsignature⟩ := hfacts
  obtain ⟨-, hiff, hsame⟩ := names_without_hints_iff d.file d.site d'.file d'.site hrespelled
  have hnames := hiff.mpr hitems
  exact ⟨d, hd, d', hd', hrespelled, hnames, (hsame hnames).1.trans hsignature⟩

/-- **A starred parameter is lost when it is annotated**, and the key with it. -/
theorem hinted_starred_parameter_lost :
    ∃ d ∈ (ofSources [("m.py", "def f(a, *rest: int):\n    pass\n")]).definitions.values,
      ∃ d' ∈ (ofSources [("m.py", "def f(a, *rest):\n    pass\n")]).definitions.values,
        Respelled d.file d.site d'.file d'.site
        ∧ (d.file.functionSymbol d.site).map signatureOf = .ok (["a"], "m.f(a)")
        ∧ (d'.file.functionSymbol d'.site).map signatureOf
          = .ok (["a", "*rest"], "m.f(a, *rest)") := by
  decide +kernel

end Workspace

end CallTree
