import CallTree.Proofs.Dependencies
import CallTree.Proofs.FirstFields
import CallTree.Proofs.Lists
import CallTree.Proofs.Preorder
import CallTree.Proofs.ReadableText
import Mathlib.Data.List.Nodup

/-!
# Calls through fields

The search for dependencies starts from the member accesses of a body: an access that is what a
call calls leads up to the call, and what it takes the member of leads down to the field. It makes
one list for each field, and a field that nothing refers to is passed over without a look at the
accesses.

Nothing is lost that way, and nothing is found twice (`field_calls_found_once`). What an access
takes a member of stands in the body as well, so a field that is called through is referred to. The
fields of a class have different names, so a call through one of them is on one list. And a call
calls one thing, which holds of every tree that is read from a text (`Node.On.roles`): going up from
the accesses comes upon the same calls as going through the calls of the body
(`Node.perm_filterMap_preorder`).
-/

namespace CallTree

/-! ## Grouping -/

namespace Cut

variable {α β γ : Type}

/-- **What each item gives**, if every item gives something. -/
theorem each_of_ok {f : α → Except Fault (List β)} {view : β → Option γ} {gives : α → List γ}
    {l : List α} (h : ∀ a ∈ l, ∃ items, f a = .ok items ∧ items.filterMap view = gives a) :
    ∃ items, each f l = .done items ∧ items.filterMap view = l.flatMap gives := by
  induction l with
  | nil => exact ⟨[], rfl, rfl⟩
  | cons a l ih =>
    obtain ⟨⟨items, hitems, hview⟩, hl⟩ := List.forall_mem_cons.mp h
    obtain ⟨rest, hrest, hviews⟩ := ih hl
    refine ⟨items ++ rest, ?_, ?_⟩
    · rw [each, hitems, hrest]
      rfl
    · rw [List.filterMap_append, hview, hviews, List.flatMap_cons]

end Cut

namespace Workspace

open CallTree.Data (Table)
open CallTree.Dependency (Usage Finding)
open CallTree.Syntax (Node Site)

/-! ## Calls through members -/

/-- **Everything that stands in the body of a definition**, in the order of the source. -/
def Definition.nodes (d : Definition) : List Site := (d.body?.map Node.preorder).getD []

/-- The fields that a class declares, in the order in which it declares them. -/
def fieldsOf (ws : Workspace) (t : TypeSymbol) : List StateSymbol :=
  (ws.membersOf t).filterMap Symbol.field?

/-- The properties of a class that bind to an instance. -/
def propertiesOf (ws : Workspace) (t : TypeSymbol) : List StateSymbol :=
  ((ws.membersOf t).filterMap Symbol.property?).filter (!·.isStatic)

/-- **A call of a member**, by what the member is taken of. -/
structure MemberCall where
  through : Symbol
  call : Node
  method : MethodSymbol

namespace Scope

variable (scope : Scope) (ws : Workspace)

/-- The symbol that an expression stands for. -/
def symbolAt? (site : Site) : Option Symbol := (scope.resolve ws site).toOption.join

/-- The call of a member that a call is, with what it calls: the expression before the dot stands
for some symbol, and the call for a method. -/
def memberCall? (call callee : Node) : Option MemberCall :=
  if call.isKind .call && callee.isKind .attributeAccess then
    (callee.child? .object).bind fun object =>
      (scope.symbolAt? ws ⟨object, some callee⟩).bind fun through =>
        ((scope.symbolAt? ws ⟨call, none⟩).bind Symbol.method?).map fun method =>
          ⟨through, call, method⟩
  else none

/-- The call of a member, found at the member access that it calls. -/
def callAbove? (access : Site) : Option MemberCall :=
  if access.node.role = some .function then
    access.parent.bind fun call => scope.memberCall? ws call access.node
  else none

/-- The call of a member, found at the call. -/
def callAt? (call : Site) : Option MemberCall :=
  (call.node.child? .function).bind (scope.memberCall? ws call.node)

/-- **The calls through what a symbol stands for**, in the order of the accesses. -/
def callsThrough (nodes : List Site) (s : Symbol) : List MemberCall :=
  (nodes.filterMap (scope.callAbove? ws)).filter (·.through = s)

/-- Whether an identifier or a member access stands for a symbol. -/
def refersTo (s : Symbol) (site : Site) : Bool :=
  (site.node.isName || site.node.isKind .attributeAccess) && scope.symbolAt? ws site = some s

/-- **How a member is used**: not at all if nothing refers to it, and else it is used and then
called through, if calls through it count. -/
def usagesOf (nodes : List Site) (through : Bool) (member : Member) : List Usage :=
  if nodes.any (scope.refersTo ws member.symbol) then
    ⟨member, none⟩ ::
      if through then
        (scope.callsThrough ws nodes member.symbol).map fun c => ⟨member, some c.method⟩
      else []
  else []

end Scope

/-! ## The fields of a class -/

/-- What holds of every class that indexing a class brings. -/
theorem CodeFile.types_harvest_induction {file : CodeFile} {I : TypeIndex → Prop}
    (start : ∀ symbol, I { symbol := symbol })
    (declare : ∀ index d, I index → I (index.declare d).1) (symbol : TypeSymbol) (n : Node) :
    ∀ index ∈ (file.harvest symbol n).types, I index := by
  refine CodeFile.harvest_induction (Q := fun _ _ h => ∀ index ∈ h.types, I index) ?_ ?_ ?_ symbol n
  · exact fun symbol _ => List.forall_mem_singleton.mpr (start symbol)
  · exact fun _ _ _ _ h => h
  · intro symbol n o _ ho statement _ d _ below hnested hother
    obtain ⟨index, hindex, htypes, -⟩ := o.harvest_declare file d below
    obtain ⟨hfirst, hinner⟩ := List.forall_mem_cons.mp ho
    rw [htypes]
    refine List.forall_mem_cons.mpr ⟨?_, List.forall_mem_append.mpr ⟨hinner, ?_⟩⟩
    · rcases hindex with rfl | rfl
      · exact hfirst
      · exact declare _ d hfirst
    · by_cases hd : ∃ inner site, d = .nested inner site
      · obtain ⟨inner, site, rfl⟩ := hd
        exact hnested inner site rfl
      · rw [hother fun inner site heq => hd ⟨inner, site, heq⟩]
        exact List.forall_mem_nil _

/-- **What holds of every class of a workspace**: it holds of a class before its first declaration,
and each declaration keeps it. -/
theorem Loaded.types_induction {I : TypeIndex → Prop} (start : ∀ symbol, I { symbol := symbol })
    (declare : ∀ index d, I index → I (index.declare d).1) {ws : Workspace} (h : Loaded ws) :
    ∀ index ∈ ws.types.values, I index := by
  refine h.induction (P := fun ws => ∀ index ∈ ws.types.values, I index) (List.forall_mem_nil _)
    (fun ws file isPackage _ h => ?_) fun _ h => h
  refine index_induction (P := fun ws => ∀ index ∈ ws.types.values, I index)
    (R := fun i => ∀ index ∈ i.workspace.types.values, I index) h ?_ ?_ ?_ fun _ hi => hi
  · intro i n hi
    unfold Indexing.addImport
    split
    · exact hi
    · split <;> exact hi
  · intro i site _ _ hi
    unfold Indexing.addClass
    split
    · exact hi
    · rename_i symbol _
      have hput : ∀ index ∈ (addHarvest i.workspace
          (file.harvest symbol site.node)).types.values, I index := by
        intro index hindex
        rcases mem_of_mem_values_putAll hindex with hindex | hindex
        · exact hi index hindex
        · exact CodeFile.types_harvest_induction start declare symbol site.node index hindex
      dsimp only
      split <;> exact hput
  · intro i site _ _ hi
    unfold Indexing.addFunction
    split <;> exact hi

/-- **The fields of a class** have different names and bind to an instance. -/
structure TypeIndex.BindsFields (index : TypeIndex) : Prop where
  agrees : index.Agrees
  bound : ∀ f ∈ index.fieldMembers, f.isStatic = false

namespace TypeIndex.BindsFields

variable {index : TypeIndex} (h : index.BindsFields)

include h

theorem declareField (name typeName : String) :
    (index.declareField name typeName).BindsFields := by
  refine ⟨h.agrees.declareField name typeName, ?_⟩
  rw [fieldMembers_declareField h.agrees]
  split
  · exact h.bound
  · exact List.forall_mem_append.mpr ⟨h.bound, List.forall_mem_singleton.mpr rfl⟩

theorem declare (d : Declaration) : (index.declare d).1.BindsFields := by
  cases d with
  | method m site assigned =>
    have hmethod : (index.withMethod m).BindsFields :=
      ⟨h.agrees.withMethod m, by rw [fieldMembers_withMethod]; exact h.bound⟩
    show (TypeIndex.declareAssigned (index.withMethod m) assigned).1.BindsFields
    unfold TypeIndex.declareAssigned
    split
    · exact hmethod
    · exact List.foldlRecOn (motive := BindsFields) _ _ hmethod
        fun index' h' field _ => h'.declareField _ _
  | property p =>
    refine ⟨h.agrees.declare (.property p), ?_⟩
    rw [fieldMembers_declare_property]
    exact h.bound
  | field name typeName => exact h.declareField name typeName
  | nested t site => exact ⟨h.agrees.declare (.nested t site), h.bound⟩
  | nothing => exact h

end TypeIndex.BindsFields

theorem Loaded.bindsFields {ws : Workspace} (h : Loaded ws) :
    ∀ index ∈ ws.types.values, index.BindsFields :=
  h.types_induction (fun symbol => ⟨TypeIndex.agrees_start symbol, List.forall_mem_nil _⟩)
    fun _ d h => h.declare d

variable {ws : Workspace}

/-- The class that a type names, or none. -/
theorem fieldsOf_cases (ws : Workspace) (t : TypeSymbol) :
    ws.fieldsOf t = [] ∨ ∃ index ∈ ws.types.values, ws.fieldsOf t = index.fieldMembers := by
  unfold fieldsOf membersOf
  cases hindex : ws.types.get? t.qualifiedName with
  | none => exact .inl rfl
  | some index => exact .inr ⟨index, Table.mem_values_of_get? hindex, rfl⟩

theorem Loaded.nodup_fieldsOf (h : Loaded ws) (t : TypeSymbol) : (ws.fieldsOf t).Nodup := by
  obtain hnil | ⟨index, hindex, heq⟩ := ws.fieldsOf_cases t
  · rw [hnil]
    exact List.nodup_nil
  · rw [heq]
    exact List.Nodup.of_map _ (h.bindsFields index hindex).agrees.nodup

theorem Loaded.isStatic_of_mem_fieldsOf (h : Loaded ws) {t : TypeSymbol} {f : StateSymbol}
    (hf : f ∈ ws.fieldsOf t) : f.isStatic = false := by
  obtain hnil | ⟨index, hindex, heq⟩ := ws.fieldsOf_cases t
  · rw [hnil] at hf
    exact absurd hf List.not_mem_nil
  · exact (h.bindsFields index hindex).bound f (heq ▸ hf)

/-! ## One callee -/

theorem filterMap_of_count_le_one {β : Type} {role : Syntax.Role} {ns : List Node}
    (h : (ns.map Node.role).count (some role) ≤ 1) (f : Node → Option β) :
    ns.filterMap (fun n => if n.role = some role then f n else none)
      = ((ns.find? (·.role = some role)).bind f).toList := by
  induction ns with
  | nil => rfl
  | cons n ns ih =>
    rw [List.map_cons, List.count_cons] at h
    rw [filterMap_cons_toList, List.find?_cons]
    by_cases hn : n.role = some role
    · have hnone : ∀ m ∈ ns, m.role ≠ some role := by
        have hcount : (ns.map Node.role).count (some role) = 0 := by
          simp only [hn, beq_self_eq_true, if_true] at h
          omega
        intro m hm hrole
        exact List.count_eq_zero.mp hcount (List.mem_map.mpr ⟨m, hm, hrole⟩)
      have hrest : ns.filterMap (fun n => if n.role = some role then f n else none) = [] :=
        List.filterMap_eq_nil_iff.mpr fun m hm => if_neg (hnone m hm)
      rw [hrest, if_pos hn, List.append_nil]
      simp [hn]
    · rw [if_neg hn, ih (by omega)]
      simp [hn]

/-- **The member call of a node** is found at one of its children, or at the node. -/
theorem Scope.filterMap_callAbove? (scope : Scope) (ws : Workspace) {site : Site}
    (h : site.node.label.Admits (site.node.children.map Node.role)) :
    site.node.sites.filterMap (scope.callAbove? ws) = (scope.callAt? ws site).toList := by
  have hsites : site.node.sites.filterMap (scope.callAbove? ws)
      = site.node.children.filterMap fun n =>
        if n.role = some .function then scope.memberCall? ws site.node n else none := by
    rw [Node.sites, List.filterMap_map]
    rfl
  rw [hsites]
  by_cases hcall : site.node.label = .construct .call
  · exact filterMap_of_count_le_one (h hcall) _
  · -- only a call has a member call
    have hnone (n : Node) : scope.memberCall? ws site.node n = none := by
      simp [Scope.memberCall?, Node.isKind, hcall]
    rw [List.filterMap_eq_nil_iff.mpr fun n _ => by rw [hnone, ite_self], Scope.callAt?]
    cases site.node.child? .function with
    | none => rfl
    | some n => exact (congrArg Option.toList (hnone n)).symm

/-- A definition that was read from a text. -/
def Definition.On (d : Definition) : Prop := d.site.node.On d.file.source.bytes.toList

theorem on_ofSources (sources : List (String × String)) :
    ∀ d ∈ (ofSources sources).definitions.values, d.On := by
  refine definitions_openSources (Q := fun file n => n.On file.source.bytes.toList) ?_ ?_
    (fun _ h _ => h) (List.forall_mem_nil _) sources
  · rintro file ⟨text, htext⟩ htree site hsite
    have htree' : file.tree.On file.source.bytes.toList := by
      rw [htree]
      exact file.source.on_tree (htext ▸ Syntax.Source.isText_ofText text)
    exact (htree'.statements site hsite).node
  · exact fun _ _ hn _ site hsite => (hn.bodyStatements site hsite).node

/-! ## What is found -/

/-- **A body whose expressions all have an answer** in a scope. -/
def Definition.Resolves (ws : Workspace) (scope : Scope) (d : Definition) : Prop :=
  ∀ site ∈ d.nodes, ∃ found, scope.resolve ws site = .ok found

section Findings

variable {scope : Scope} {d : Definition}

theorem Definition.nodes_of_body {body : Node} (h : d.body? = some body) :
    d.nodes = body.preorder := by
  rw [nodes, h]
  rfl

theorem occurrencesIn_identifier (ws : Workspace) (d : Definition) :
    ws.occurrencesIn d .identifier = .ok (d.nodes.filter (·.node.isName)) := by
  unfold occurrencesIn Definition.nodes
  cases d.body? with
  | none => rfl
  | some body => exact congrArg Except.ok (body.descendants_eq _)

theorem occurrencesIn_memberAccess (ws : Workspace) (d : Definition) :
    ws.occurrencesIn d .memberAccess = .ok (d.nodes.filter (·.node.isKind .attributeAccess)) := by
  unfold occurrencesIn Definition.nodes
  cases d.body? with
  | none => rfl
  | some body => exact congrArg Except.ok (body.descendants_eq _)

theorem Scope.resolve_eq {site : Site} (h : ∃ found, scope.resolve ws site = .ok found) :
    scope.resolve ws site = .ok (scope.symbolAt? ws site) := by
  obtain ⟨found, hfound⟩ := h
  rw [symbolAt?, hfound]
  rfl

theorem symbolsOf_eq {sites : List Site}
    (h : ∀ site ∈ sites, ∃ found, scope.resolve ws site = .ok found) :
    Dependency.symbolsOf ws.model scope sites = .ok (sites.filterMap (scope.symbolAt? ws)) := by
  have hmapM : sites.mapM (ws.model.resolve scope)
      = .ok (sites.map (scope.symbolAt? ws)) := by
    induction sites with
    | nil => rfl
    | cons site sites ih =>
      obtain ⟨hsite, hsites⟩ := List.forall_mem_cons.mp h
      have hfirst : ws.model.resolve scope site = .ok (scope.symbolAt? ws site) :=
        Scope.resolve_eq hsite
      rw [List.mapM_cons, hfirst, ih hsites]
      rfl
  rw [Dependency.symbolsOf, hmapM]
  show Except.ok _ = Except.ok _
  rw [List.filterMap_map]
  rfl

/-- **What a body refers to.** -/
theorem references_eq (h : d.Resolves ws scope) :
    ∃ refs, Dependency.references ws.model d scope = .ok refs
      ∧ ∀ s, refs.contains s = d.nodes.any (scope.refersTo ws s) := by
  have hidentifiers : ws.model.occurrences d .identifier = .ok (d.nodes.filter (·.node.isName)) :=
    ws.occurrencesIn_identifier d
  have haccesses : ws.model.occurrences d .memberAccess
      = .ok (d.nodes.filter (·.node.isKind .attributeAccess)) := ws.occurrencesIn_memberAccess d
  have hsymbols (p : Site → Bool) :=
    symbolsOf_eq fun site (hsite : site ∈ d.nodes.filter p) => h site (List.mem_filter.mp hsite).1
  have hrefs : Dependency.references ws.model d scope
      = .ok ((d.nodes.filter (·.node.isName)).filterMap (scope.symbolAt? ws)
        ++ (d.nodes.filter (·.node.isKind .attributeAccess)).filterMap (scope.symbolAt? ws)) := by
    rw [Dependency.references, hidentifiers, haccesses]
    dsimp only [bind, Except.bind]
    rw [hsymbols, hsymbols]
    rfl
  refine ⟨_, hrefs, fun s => Bool.eq_iff_iff.mpr ?_⟩
  simp only [List.contains_iff_mem, List.mem_append, List.mem_filterMap, List.mem_filter,
    List.any_eq_true, Scope.refersTo, Bool.and_eq_true, Bool.or_eq_true, decide_eq_true_eq]
  grind

theorem Definition.exists_body {site : Site} (h : site ∈ d.nodes) :
    ∃ body, d.body? = some body ∧ site ∈ body.preorder := by
  unfold nodes at h
  cases hbody : d.body? with
  | none =>
    rw [hbody] at h
    exact absurd h List.not_mem_nil
  | some body =>
    rw [hbody] at h
    exact ⟨body, rfl, h⟩

/-- What an access takes a member of stands in the body. -/
theorem Definition.object_mem_nodes {access : Site} {object : Node} (haccess : access ∈ d.nodes)
    (hobject : access.node.child? .object = some object) :
    (⟨object, some access.node⟩ : Site) ∈ d.nodes := by
  obtain ⟨body, hbody, haccess⟩ := d.exists_body haccess
  rw [d.nodes_of_body hbody]
  refine Node.mem_preorder_of_mem_sites haccess ?_
  exact List.mem_map.mpr ⟨object, Node.mem_of_child? hobject, rfl⟩

/-- What calls an access stands in the body, and has an answer. -/
theorem Definition.Resolves.invocation (h : d.Resolves ws scope) (hd : d.HasBlock)
    {access call : Site} (haccess : access ∈ d.nodes)
    (hkind : access.node.isKind .attributeAccess) (hcall : invocationSite? access = some call) :
    ∃ found, scope.resolve ws call = .ok found := by
  obtain ⟨body, hbody, haccess⟩ := d.exists_body haccess
  have hdescendant : access ∈ body.descendantsOf .attributeAccess := by
    rw [Node.descendantsOf, Node.descendants_eq]
    exact List.mem_filter.mpr ⟨haccess, hkind⟩
  obtain ⟨site, hsite, hnode⟩ := mem_calls_of_invocationSite? (hd body hbody) hdescendant hcall
  rw [Node.descendantsOf, Node.descendants_eq] at hsite
  obtain ⟨hsite, hlabel⟩ := List.mem_filter.mp hsite
  rw [← Scope.resolve_of_call hnode (of_decide_eq_true hlabel)]
  exact h site (d.nodes_of_body hbody ▸ hsite)

theorem Scope.callAbove?_eq (scope : Scope) (ws : Workspace) {access : Site}
    (hkind : access.node.isKind .attributeAccess) :
    scope.callAbove? ws access = (invocationSite? access).bind fun call =>
      (receiverSite? access).bind fun receiver =>
        (scope.symbolAt? ws receiver).bind fun through =>
          ((scope.symbolAt? ws call).bind Symbol.method?).map fun method =>
            ⟨through, call.node, method⟩ := by
  unfold callAbove? invocationSite? receiverSite? memberCall?
  rw [if_pos hkind]
  cases access.parent with
  | none => exact ite_self _
  | some parent =>
    by_cases hrole : access.node.role = some .function
    · cases hcall : parent.isKind .call with
      | false => simp [hrole, hcall]
      | true =>
        cases access.node.child? .object with
        | none => simp [hrole, hcall]
        | some object => simp [hrole, hcall, hkind]
    · simp [hrole]

/-- **The calls through a member**, as one access gives them. -/
theorem callThrough_eq (h : d.Resolves ws scope) (hd : d.HasBlock) (member : Member) {access : Site}
    (haccess : access ∈ d.nodes.filter (·.node.isKind .attributeAccess)) :
    ∃ found, Dependency.callThrough ws.model scope member access = .ok found
      ∧ found.filterMap Finding.usage?
        = (((scope.callAbove? ws access).toList).filter (·.through = member.symbol)).map
          fun c => ⟨member, some c.method⟩ := by
  obtain ⟨haccess, hkind⟩ := List.mem_filter.mp haccess
  rw [scope.callAbove?_eq ws hkind]
  have hreceiver : ws.model.receiver access = .ok (receiverSite? access) := rfl
  have hinvocation : ws.model.invocation access = .ok (invocationSite? access) := rfl
  rw [Dependency.callThrough, hreceiver, hinvocation]
  dsimp only [bind, Except.bind]
  cases hobject : receiverSite? access with
  | none => exact ⟨[], rfl, by cases invocationSite? access <;> rfl⟩
  | some receiver =>
    obtain ⟨object, hchild, rfl⟩ : ∃ object, access.node.child? .object = some object
        ∧ ⟨object, some access.node⟩ = receiver := by
      rwa [receiverSite?, if_pos hkind, Option.map_eq_some_iff] at hobject
    have hresolve : ws.model.resolve scope ⟨object, some access.node⟩
        = .ok (scope.symbolAt? ws ⟨object, some access.node⟩) :=
      Scope.resolve_eq (h _ (d.object_mem_nodes haccess hchild))
    dsimp only
    rw [hresolve]
    cases hcall : invocationSite? access with
    | none => exact ⟨[], by dsimp only; split <;> rfl, rfl⟩
    | some call =>
      have hanswer : ws.model.resolve scope call = .ok (scope.symbolAt? ws call) :=
        Scope.resolve_eq (h.invocation hd haccess hkind hcall)
      simp only [Option.bind_some, hanswer]
      generalize scope.symbolAt? ws ⟨object, some access.node⟩ = through
      generalize scope.symbolAt? ws call = answer
      by_cases hthrough : through = some member.symbol
      · subst hthrough
        rw [if_neg (not_not.mpr rfl)]
        cases answer with
        | none => exact ⟨[.unresolved member], rfl, rfl⟩
        | some s =>
          cases s with
          | method m =>
            exact ⟨[.usage ⟨member, some m⟩], rfl, by simp [Finding.usage?, Symbol.method?]⟩
          | field _ => exact ⟨[.unresolved member], rfl, rfl⟩
          | property _ => exact ⟨[.unresolved member], rfl, rfl⟩
          | type _ => exact ⟨[.unresolved member], rfl, rfl⟩
      · refine ⟨[], if_pos hthrough, ?_⟩
        cases through with
        | none => rfl
        | some s =>
          have hne : s ≠ member.symbol := fun heq => hthrough (congrArg some heq)
          cases answer.bind Symbol.method? with
          | none => rfl
          | some m => simp [hne]

/-- The calls through what a symbol stands for, access by access. -/
theorem Scope.callsThrough_eq (scope : Scope) (ws : Workspace) (nodes : List Site) (s : Symbol) :
    scope.callsThrough ws nodes s
      = (nodes.filter (·.node.isKind .attributeAccess)).flatMap fun access =>
        (scope.callAbove? ws access).toList.filter (·.through = s) := by
  have hfound : nodes.filterMap (scope.callAbove? ws)
      = (nodes.filter (·.node.isKind .attributeAccess)).filterMap (scope.callAbove? ws) := by
    rw [List.filterMap_filter]
    refine List.filterMap_congr fun access _ => ?_
    cases hkind : access.node.isKind .attributeAccess with
    | true => rfl
    | false => simp [callAbove?, memberCall?, hkind]
  rw [callsThrough, hfound, List.filterMap_eq_flatMap_toList, List.filter_flatMap]

/-- **All that is found about a member.** -/
theorem findingsOf_eq (h : d.Resolves ws scope) (hd : d.HasBlock) {refs : List Symbol}
    (hrefs : ∀ s, refs.contains s = d.nodes.any (scope.refersTo ws s)) (through : Bool)
    (member : Member) :
    ∃ found, Dependency.findingsOf ws.model scope refs
        (d.nodes.filter (·.node.isKind .attributeAccess)) through member = .done found
      ∧ found.filterMap Finding.usage? = scope.usagesOf ws d.nodes through member := by
  unfold Dependency.findingsOf Scope.usagesOf
  rw [hrefs]
  split
  · cases through with
    | false => exact ⟨[.usage ⟨member, none⟩], rfl, rfl⟩
    | true =>
      obtain ⟨found, hfound, hview⟩ := Cut.each_of_ok fun access haccess =>
        callThrough_eq h hd member haccess
      refine ⟨.usage ⟨member, none⟩ :: found, ?_, ?_⟩
      · rw [if_pos rfl, hfound]
        rfl
      · rw [filterMap_cons_toList, hview, if_pos rfl]
        rw [Scope.callsThrough_eq, List.map_flatMap]
        rfl
  · exact ⟨[], rfl, rfl⟩

/-- One member after the other. -/
theorem findingsOfAll_eq (h : d.Resolves ws scope) (hd : d.HasBlock) {refs : List Symbol}
    (hrefs : ∀ s, refs.contains s = d.nodes.any (scope.refersTo ws s)) (through : Bool)
    (members : List Member) :
    ∃ found, Dependency.findingsOfAll ws.model scope refs
        (d.nodes.filter (·.node.isKind .attributeAccess)) through members = .done found
      ∧ found.filterMap Finding.usage?
        = members.flatMap (scope.usagesOf ws d.nodes through) := by
  induction members with
  | nil => exact ⟨[], rfl, rfl⟩
  | cons member members ih =>
    obtain ⟨first, hfirst, hview⟩ := findingsOf_eq h hd hrefs through member
    obtain ⟨rest, hrest, hviews⟩ := ih
    refine ⟨first ++ rest, ?_, ?_⟩
    · rw [Dependency.findingsOfAll, hfirst, hrest]
      rfl
    · rw [List.filterMap_append, hview, hviews, List.flatMap_cons]

/-- **The members of a class**, fields and properties apart. -/
theorem filterMap_ofSymbol? (symbols : List Symbol)
    (h : ∀ f ∈ symbols.filterMap Symbol.field?, f.isStatic = false) :
    (symbols.filterMap Member.ofSymbol?).filter (·.kind = .field)
        = (symbols.filterMap Symbol.field?).map (⟨.field, ·⟩)
      ∧ (symbols.filterMap Member.ofSymbol?).filter (·.kind = .property)
        = ((symbols.filterMap Symbol.property?).filter (!·.isStatic)).map (⟨.property, ·⟩) := by
  rw [List.filter_filterMap, List.filter_filterMap, List.filter_filterMap, List.map_filterMap,
    List.map_filterMap]
  refine ⟨List.filterMap_congr fun s hs => ?_, List.filterMap_congr fun s _ => ?_⟩
  · cases s with
    | type t => rfl
    | method m => rfl
    | field f =>
      have hf := h f (List.mem_filterMap.mpr ⟨_, hs, rfl⟩)
      simp [Member.ofSymbol?, Symbol.field?, hf]
    | property p => cases hp : p.isStatic <;> simp [Member.ofSymbol?, Symbol.field?, hp]
  · cases s with
    | type t => rfl
    | method m => rfl
    | field f => cases hf : f.isStatic <;> simp [Member.ofSymbol?, Symbol.property?, hf]
    | property p =>
      cases hp : p.isStatic <;> simp [Member.ofSymbol?, Symbol.property?, Option.filter, hp]

/-- **What the search finds**: how each field is used, and then how each property is. -/
theorem usages_findings (hws : Loaded ws) (h : d.Resolves ws scope) (hd : d.HasBlock)
    {owner : TypeSymbol} (howner : d.enclosing = some owner) (unify : Bool) :
    Dependency.usages (Dependency.findings ws.model unify d scope)
      = .ok ((ws.fieldsOf owner).flatMap (fun f => scope.usagesOf ws d.nodes true ⟨.field, f⟩)
        ++ (ws.propertiesOf owner).flatMap
          fun p => scope.usagesOf ws d.nodes unify ⟨.property, p⟩) := by
  obtain ⟨hfields, hproperties⟩ := filterMap_ofSymbol? (ws.membersOf owner)
    fun f hf => hws.isStatic_of_mem_fieldsOf hf
  have hempty : (ws.membersOf owner).filterMap Member.ofSymbol? = [] →
      ws.fieldsOf owner = [] ∧ ws.propertiesOf owner = [] := by
    intro hnil
    rw [hnil] at hfields hproperties
    exact ⟨List.map_eq_nil_iff.mp hfields.symm, List.map_eq_nil_iff.mp hproperties.symm⟩
  have hmembers : ws.model.members owner = .ok (ws.membersOf owner) := rfl
  have henclosing : ws.model.enclosing d = some owner := howner
  have haccesses : ws.model.occurrences d .memberAccess
      = .ok (d.nodes.filter (·.node.isKind .attributeAccess)) := ws.occurrencesIn_memberAccess d
  obtain ⟨refs, href, hrefs⟩ := references_eq h
  rw [Dependency.findings, henclosing]
  dsimp only
  rw [hmembers, href, haccesses]
  dsimp only [Cut.after]
  rw [hfields, hproperties]
  split
  · rename_i hnil
    obtain ⟨hnof, hnop⟩ := hempty (List.isEmpty_iff.mp hnil)
    rw [hnof, hnop]
    rfl
  · obtain ⟨first, hfirst, hview⟩ := findingsOfAll_eq h hd hrefs true
      ((ws.fieldsOf owner).map (⟨.field, ·⟩))
    obtain ⟨rest, hrest, hviews⟩ := findingsOfAll_eq h hd hrefs unify
      ((ws.propertiesOf owner).map (⟨.property, ·⟩))
    have hfound : (Dependency.findingsOfAll ws.model scope refs
          (d.nodes.filter (·.node.isKind .attributeAccess)) true
          ((ws.fieldsOf owner).map (⟨.field, ·⟩))).append
        (Dependency.findingsOfAll ws.model scope refs
          (d.nodes.filter (·.node.isKind .attributeAccess)) unify
          ((ws.propertiesOf owner).map (⟨.property, ·⟩))) = .done (first ++ rest) := by
      rw [hfirst, hrest]
      rfl
    rw [List.flatMap_map] at hview hviews
    refine (congrArg Dependency.usages hfound).trans ?_
    rw [← hview, ← hviews, ← List.filterMap_append]
    rfl

end Findings

/-! ## No call is lost, and none is found twice -/

/-- **What a node is as an expression**, if it is neither an identifier nor a member access. -/
theorem Expr.ofNode_cases (n : Node) :
    n.isName ∨ n.isKind .attributeAccess ∨ (∃ callee, Expr.ofNode n = .call callee)
      ∨ (∃ inner, Expr.ofNode n = .group inner) ∨ Expr.ofNode n = .other := by
  unfold Expr.ofNode
  split
  · rename_i hlabel
    exact .inl (by simp [Node.isName, hlabel])
  · rename_i hlabel
    exact .inr (.inl (decide_eq_true hlabel))
  · refine .inr (.inr (.inl ?_))
    split <;> exact ⟨_, rfl⟩
  · refine .inr (.inr (.inr ?_))
    split
    · exact .inl ⟨_, rfl⟩
    · exact .inr rfl
  · exact .inr (.inr (.inr (.inr rfl)))

section Once

variable {scope : Scope} {d : Definition}

/-- **What stands for a field** is an identifier or a member access. -/
theorem Scope.refersTo_of_symbolAt? {site : Site} {f : StateSymbol}
    (h : scope.symbolAt? ws site = some (.field f)) : scope.refersTo ws (.field f) site := by
  have hresolve : scope.resolve ws site = .ok (some (.field f)) := by
    unfold symbolAt? at h
    cases hresolve : scope.resolve ws site with
    | error fault =>
      rw [hresolve] at h
      cases h
    | ok found =>
      rw [hresolve] at h
      exact congrArg Except.ok h
  have hkind : site.node.isName ∨ site.node.isKind .attributeAccess := by
    unfold resolve at hresolve
    obtain hname | haccess | ⟨callee, hexpr⟩ | ⟨inner, hexpr⟩ | hexpr := Expr.ofNode_cases site.node
    · exact .inl hname
    · exact .inr haccess
    · -- a call stands for a method, if for anything
      rw [hexpr] at hresolve
      obtain ⟨found, -, hcalled⟩ := ok_of_bind hresolve
      split at hcalled <;> cases hcalled
    · rw [hexpr] at hresolve
      cases hresolve
    · rw [hexpr] at hresolve
      cases hresolve
  unfold refersTo
  rw [h]
  simpa using hkind

/-- What a member call goes through stands before the dot. -/
theorem Scope.symbolAt?_of_callAbove? {access : Site} {c : MemberCall}
    (h : scope.callAbove? ws access = some c) :
    ∃ object, access.node.child? .object = some object
      ∧ scope.symbolAt? ws ⟨object, some access.node⟩ = some c.through := by
  unfold callAbove? at h
  split at h
  · obtain ⟨call, -, hcall⟩ := Option.bind_eq_some_iff.mp h
    unfold memberCall? at hcall
    split at hcall
    · obtain ⟨object, hobject, hcall⟩ := Option.bind_eq_some_iff.mp hcall
      obtain ⟨through, hthrough, hcall⟩ := Option.bind_eq_some_iff.mp hcall
      obtain ⟨method, -, rfl⟩ := Option.map_eq_some_iff.mp hcall
      exact ⟨object, hobject, hthrough⟩
    · cases hcall
  · cases h

/-- A field that is called through is referred to. -/
theorem Scope.any_refersTo {f : StateSymbol} {c : MemberCall}
    (h : c ∈ scope.callsThrough ws d.nodes (.field f)) :
    d.nodes.any (scope.refersTo ws (.field f)) := by
  obtain ⟨hc, hthrough⟩ := List.mem_filter.mp h
  obtain ⟨access, haccess, hcall⟩ := List.mem_filterMap.mp hc
  obtain ⟨object, hobject, hsymbol⟩ := scope.symbolAt?_of_callAbove? hcall
  rw [of_decide_eq_true hthrough] at hsymbol
  exact List.any_eq_true.mpr
    ⟨_, d.object_mem_nodes haccess hobject, scope.refersTo_of_symbolAt? hsymbol⟩

/-- **Every call through a field has its entry**: no field is passed over that is called
through. -/
theorem Scope.filter_usagesOf (scope : Scope) (ws : Workspace) (d : Definition) (f : StateSymbol) :
    (scope.usagesOf ws d.nodes true ⟨.field, f⟩).filter (·.invoked.isSome)
      = (scope.callsThrough ws d.nodes (.field f)).map fun c => ⟨⟨.field, f⟩, some c.method⟩ := by
  unfold usagesOf
  split
  · rw [List.filter_cons_of_neg (by simp), if_pos rfl, List.filter_map]
    refine congrArg (List.map _) (List.filter_eq_self.mpr fun c _ => rfl)
  · rename_i hany
    cases hcalls : scope.callsThrough ws d.nodes (.field f) with
    | nil => rfl
    | cons c calls => exact absurd (scope.any_refersTo (hcalls ▸ List.mem_cons_self)) hany

/-- **Going up from the accesses comes upon the calls of the body**, each as often as it is
there. -/
theorem Scope.perm_callAt? (scope : Scope) (ws : Workspace) (hon : d.On) (hd : d.HasBlock) :
    (d.nodes.filterMap (scope.callAbove? ws)).Perm (d.nodes.filterMap (scope.callAt? ws)) := by
  cases hbody : d.body? with
  | none =>
    rw [Definition.nodes, hbody]
    exact .nil
  | some body =>
    rw [d.nodes_of_body hbody]
    have hnodes : ∀ site ∈ body.preorder, site.node.On d.file.source.bytes.toList :=
      (hon.child? hbody).preorder
    have hperm : (body.preorder.filterMap (scope.callAbove? ws)).Perm
        (body.sites.filterMap (scope.callAbove? ws)
          ++ body.preorder.filterMap (scope.callAt? ws)) :=
      Node.perm_filterMap_preorder fun site hsite =>
        scope.filterMap_callAbove? ws (hnodes site hsite).roles
    -- the body itself is a block, and no call
    have hnone : body.sites.filterMap (scope.callAbove? ws) = [] := by
      have hcall : body.isKind .call = false := by
        have hblock : body.label = .construct .block := of_decide_eq_true (hd body hbody)
        simp [Node.isKind, hblock]
      refine List.filterMap_eq_nil_iff.mpr (List.forall_mem_map.mpr fun child _ => ?_)
      simp [callAbove?, memberCall?, hcall]
    rwa [hnone] at hperm

/-- **Calls through fields are found, each once.** In a method of a class, when all its expressions
have an answer, the search finds for each field of the class, in the order in which they are
declared, nothing if no identifier and no access stands for the field, and else that it is used and
then the calls through it, in the order of the source. The entries for calls are those of all
accesses that a call calls and that take their member of a field; and as it is found out from the
calls of the body, these are the same calls, each as often as it is there. The entries for
properties come after all entries for fields, and none is for a call unless calls through properties
are asked for. -/
theorem field_calls_found_once (sources : List (String × String)) (ws : Workspace)
    (hws : ws = ofSources sources) (d : Definition) (hd : d ∈ ws.definitions.values)
    (owner : TypeSymbol) (howner : d.enclosing = some owner) (scope : Scope)
    (hresolves : d.Resolves ws scope) (unify : Bool) :
    Dependency.usages (Dependency.findings ws.model unify d scope)
        = .ok ((ws.fieldsOf owner).flatMap (fun f => scope.usagesOf ws d.nodes true ⟨.field, f⟩)
          ++ (ws.propertiesOf owner).flatMap
            fun p => scope.usagesOf ws d.nodes unify ⟨.property, p⟩)
      ∧ ((ws.fieldsOf owner).flatMap fun f =>
            scope.usagesOf ws d.nodes true ⟨.field, f⟩).filter (·.invoked.isSome)
        = (ws.fieldsOf owner).flatMap (fun f =>
            (scope.callsThrough ws d.nodes (.field f)).map fun c => ⟨⟨.field, f⟩, some c.method⟩)
      ∧ ((ws.fieldsOf owner).flatMap fun f => scope.callsThrough ws d.nodes (.field f)).Perm
          ((d.nodes.filterMap (scope.callAt? ws)).filter
            (·.through ∈ (ws.fieldsOf owner).map Symbol.field))
      ∧ ∀ u ∈ (ws.propertiesOf owner).flatMap
            (fun p => scope.usagesOf ws d.nodes unify ⟨.property, p⟩),
          u.invoked.isSome → unify = true := by
  have hloaded : Loaded ws := hws ▸ loaded_ofSources sources
  have hblock : d.HasBlock := by
    subst hws
    exact hasBlock_openSources (List.forall_mem_nil _) sources d hd
  have hon : d.On := by
    subst hws
    exact on_ofSources sources d hd
  refine ⟨usages_findings hloaded hresolves hblock howner unify, ?_, ?_, ?_⟩
  · rw [List.filter_flatMap]
    exact congrArg (List.flatMap · _) (funext fun f => scope.filter_usagesOf ws d f)
  · have hnodup : ((ws.fieldsOf owner).map Symbol.field).Nodup :=
      (hloaded.nodup_fieldsOf owner).map fun f g heq => Symbol.field.inj heq
    have hgroups := perm_flatMap_filter MemberCall.through (d.nodes.filterMap (scope.callAbove? ws))
      hnodup
    rw [List.flatMap_map] at hgroups
    exact hgroups.trans ((scope.perm_callAt? ws hon hblock).filter _)
  · intro u hu hinvoked
    obtain ⟨p, -, hu⟩ := List.mem_flatMap.mp hu
    unfold Scope.usagesOf at hu
    cases unify with
    | true => rfl
    | false =>
      split at hu
      · rw [List.mem_singleton.mp hu] at hinvoked
        cases hinvoked
      · exact absurd hu List.not_mem_nil

end Once

/-- Two fields that are called through in another order than they are declared in, and a property
that is called through as well. -/
def crateSources : List (String × String) :=
  [("m.py", "class B:\n    def run(self, last=None):\n        pass\n"
    ++ "class A:\n    b: B\n    c: B\n    @property\n    def top(self) -> B:\n        pass\n"
    ++ "    def go(self):\n        self.c.run(self.b.run())\n        self.c.run()\n"
    ++ "        self.top.run()\n")]

/-- What is shown of a use: the name of the member, and of the method that is called. -/
def shownUsage (u : Usage) : String × Option String :=
  (u.member.state.name, u.invoked.map (·.name))

/-- The calls are grouped by the fields, and calls through the property are found on request. -/
theorem field_calls_found_once_crate :
    ∃ ws d owner scope, ws = ofSources crateSources ∧ d ∈ ws.definitions.values
      ∧ d.enclosing = some owner ∧ ws.scopeOf d = .ok scope ∧ d.Resolves ws scope
      ∧ (∀ unify, (Dependency.usages (Dependency.findings ws.model unify d scope)).map
          (List.map shownUsage)
        = .ok ([("b", none), ("b", some "run"), ("c", none), ("c", some "run"), ("c", some "run")]
          ++ ("top", none) :: if unify then [("top", some "run")] else []))
      ∧ ((d.nodes.filterMap (scope.callAt? ws)).filter
          (·.through ∈ (ws.fieldsOf owner).map Symbol.field)).length = 3 := by
  have hfacts : ∃ ws ∈ [ofSources crateSources], ∃ d ∈ ws.definitions.get? "m.A.go",
      ∃ owner ∈ d.enclosing, ∃ scope ∈ (ws.scopeOf d).toOption,
        (∀ site ∈ d.nodes, (scope.resolve ws site).toOption.isSome = true)
        ∧ ((ws.fieldsOf owner).flatMap fun f =>
            scope.usagesOf ws d.nodes true ⟨.field, f⟩).map shownUsage
          = [("b", none), ("b", some "run"), ("c", none), ("c", some "run"), ("c", some "run")]
        ∧ (∀ unify, ((ws.propertiesOf owner).flatMap fun p =>
            scope.usagesOf ws d.nodes unify ⟨.property, p⟩).map shownUsage
          = ("top", none) :: if unify then [("top", some "run")] else [])
        ∧ ((ws.fieldsOf owner).flatMap fun f =>
            scope.callsThrough ws d.nodes (.field f)).length = 3 := by
    decide +kernel
  obtain ⟨ws, hws, d, hd, owner, howner, scope, hscope, hanswers, hfields, hproperties, hcalls⟩ :=
    hfacts
  have hws : ws = ofSources crateSources := List.mem_singleton.mp hws
  have hd : d ∈ ws.definitions.values := Table.mem_values_of_get? hd
  have hresolves : d.Resolves ws scope := by
    intro site hsite
    obtain ⟨found, hfound⟩ := Option.isSome_iff_exists.mp (hanswers site hsite)
    exact ⟨found, ok_of_toOption hfound⟩
  have hlaw := field_calls_found_once crateSources ws hws d hd owner howner scope hresolves
  refine ⟨ws, d, owner, scope, hws, hd, howner, ok_of_toOption hscope, hresolves, fun unify => ?_,
    (hlaw true).2.2.1.length_eq.symm.trans hcalls⟩
  rw [(hlaw unify).1]
  refine congrArg Except.ok ?_
  rw [List.map_append, hfields, hproperties]

end Workspace

end CallTree
