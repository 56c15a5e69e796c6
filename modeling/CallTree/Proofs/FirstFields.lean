import CallTree.Proofs.ClassSites
import CallTree.Proofs.Lists
import Mathlib.Data.List.Forall2

/-!
# Fields by their first declaration

The fields of a class come from two places, the annotated names of its body and the assignments of
its constructors to attributes of their first parameter. The statements of a class may stand in any
order, a name may be declared any number of times, and there may be several constructors. Here all
declarations are listed as they are written (`CodeFile.fieldDeclarations`), each with the type that
it gives (`FieldDeclaration.HasType`), without regard to how a class is indexed.

The fields of an indexed class are the first declarations of their names, in this order
(`fields_by_first_declaration`). A class that cannot be read to its end is indexed up to the
statement that could not be read, and its fields are those that were declared up to there. The
tables of the class say the same as the list of its members, in which a field stands once, while of
methods and properties the last one of a name counts (`TypeIndex.Agrees`).
-/

namespace CallTree

open CallTree.Data (Table)

/-- The field, if it is one. -/
def Symbol.field? : Symbol → Option StateSymbol
  | field s => some s
  | _ => none

/-- The property, if it is one. -/
def Symbol.property? : Symbol → Option StateSymbol
  | property s => some s
  | _ => none

namespace Data.Table

/-- The last entry of a name is the first one from behind. -/
theorem get?_reverse {α : Type} (table : Table α) (name : String) :
    Table.get? table.reverse name = ((table.filter (·.1 = name)).map (·.2)).getLast? := by
  rw [get?, ← List.head?_filter, List.filter_reverse, List.head?_reverse, List.getLast?_map]

theorem get?_eq_none {α : Type} {table : Table α} {name : String} (h : name ∉ table.names) :
    table.get? name = none := by
  refine Option.map_eq_none_iff.mpr (List.find?_eq_none.mpr fun entry hentry hname => h ?_)
  exact List.mem_map.mpr ⟨entry, hentry, of_decide_eq_true hname⟩

/-- Leaving out the entries without a value leaves the others under their names. -/
theorem get?_filterMap {α : Type} {table : Table (Option α)} (h : table.names.Nodup)
    (name : String) :
    Table.get? (table.filterMap fun (n, v) => v.map fun a => (n, a)) name
      = (table.get? name).join := by
  induction table with
  | nil => rfl
  | cons entry rest ih =>
    obtain ⟨n, v⟩ := entry
    obtain ⟨hn, hrest⟩ := List.nodup_cons.mp h
    have ih := ih hrest
    by_cases hname : n = name
    · subst hname
      have hnone : Table.get? rest n = none := get?_eq_none hn
      rw [hnone] at ih
      cases v <;> simp_all [get?]
    · cases v <;> simpa [get?, hname] using ih

end Data.Table

namespace Workspace

open CallTree.Data (Table)
open CallTree.Syntax (Source Node Site)
open CallTree.Text (lastSegment endsWith isCapitalised)
open CallTree.Text.Utf8 (Defect)

/-! ## Declarations of fields -/

/-- **A declaration of a field**: an annotated name of the class, or an assignment of a constructor
to an attribute of its first parameter, along with the other parameters. -/
inductive FieldDeclaration where
  | annotated (name : String) (hint : Node)
  | assigned (name : String) (others : List Syntax.Parameter) (assignment : Node)

namespace FieldDeclaration

/-- The name of the field. -/
def name : FieldDeclaration → String
  | annotated name _ => name
  | assigned name _ _ => name

/-- The annotation of the last annotated parameter of a name. -/
def hintOf? (parameters : List Syntax.Parameter) (name : String) : Option Node :=
  ((parameters.filter (·.name = name)).filterMap (·.typeHint)).getLast?

variable (src : Source)

/-- An annotation gives its principal name for a type, and `Any` if it has none. -/
def Annotates (hint : Node) (t : String) : Prop :=
  ∃ principal, src.typeName hint = .ok principal ∧ t = principal.getD "Any"

/-- The value is a parameter with an annotation that names the type. -/
def IsParameter (others : List Syntax.Parameter) (value : Node) (t : String) : Prop :=
  ∃ x hint, value.label = .name x ∧ hintOf? others x = some hint ∧ src.typeName hint = .ok (some t)

/-- The value is a call of something with a capitalised name. -/
def IsCreated (value : Node) (t : String) : Prop :=
  value.isKind .call = true ∧ ∃ callee, value.child? .function = some callee
    ∧ (callee.isName = true ∨ callee.isKind .attributeAccess = true)
    ∧ src.text callee = .ok t ∧ isCapitalised (lastSegment t) = true

/-- What a value tells of its type: that of the parameter, or the class that is called. -/
def Tells (others : List Syntax.Parameter) (value : Node) (t : String) : Prop :=
  IsParameter src others value t ∨ IsCreated src value t

/-- **The type that an assignment gives**: the annotation, else what the value tells, else
`Any`. -/
inductive Assigns (others : List Syntax.Parameter) (assignment : Node) : String → Prop
  | hinted {hint : Node} {t : String} (htype : assignment.child? .type = some hint)
      (h : Annotates src hint t) : Assigns others assignment t
  | value {value : Node} {t : String} (htype : assignment.child? .type = none)
      (hvalue : assignment.child? .right = some value) (h : Tells src others value t) :
      Assigns others assignment t
  | any (htype : assignment.child? .type = none)
      (h : ∀ value, assignment.child? .right = some value → ∀ t, ¬ Tells src others value t) :
      Assigns others assignment "Any"

/-- **The type that a declaration gives.** -/
def HasType : FieldDeclaration → String → Prop
  | annotated _ hint, t => Annotates src hint t
  | assigned _ others assignment, t => Assigns src others assignment t

/-- The first of the declarations of each name. -/
def firsts : List FieldDeclaration → List FieldDeclaration
  | [] => []
  | d :: rest => d :: (firsts rest).filter (·.name ≠ d.name)

end FieldDeclaration

/-- The attribute of a name that an expression stands for. -/
def attributeOfName? (receiver : String) (target : Node) : Option String :=
  if target.isKind .attributeAccess ∧ (target.child? .object).map Node.label = some (.name receiver)
  then (target.child? .attributeName).bind Node.identifier?
  else none

/-- The name and the annotation of an annotated name. -/
def annotatedName? (statement : Node) : Option (String × Node) :=
  (statement.namedChildren.head?.filter (·.isKind .assignment)).bind fun assignment =>
    ((assignment.child? .left).bind Node.identifier?).bind fun name =>
      (assignment.child? .type).map fun hint => (name, hint)

namespace CodeFile

variable (file : CodeFile)

/-- Whether an annotation is that of a variable of the class. -/
def isClassVariable (hint : Node) : Bool :=
  match file.source.typeName hint with
  | .ok (some t) => lastSegment t = "ClassVar"
  | _ => false

/-- Whether a function of a class is a method, going by its decorators: neither a property nor the
setter or deleter of one. -/
def isMethod (s : Site) : Bool :=
  match file.source.decorators s with
  | .ok decorators => decorators.all fun d =>
      !endsWith ".setter" d && !endsWith ".deleter" d
        && lastSegment d ≠ "property" && lastSegment d ≠ "cached_property"
  | .error _ => false

/-- The assignments of a function to attributes of its first parameter, in the order of the
source. -/
def assignedFields (n : Node) : List FieldDeclaration :=
  match file.source.parametersOf n, n.child? .body with
  | .ok (receiver :: others), some body =>
    (body.descendantsOf .assignment).filterMap fun s =>
      ((s.node.child? .left).bind (attributeOfName? receiver.name)).map (.assigned · others s.node)
  | _, _ => []

/-- **The fields that a statement of a class declares.** -/
def fieldDeclarations (s : Site) : List FieldDeclaration :=
  if s.node.isKind .expressionStatement then
    ((annotatedName? s.node).filter fun d => !file.isClassVariable d.2).toList.map
      fun d => .annotated d.1 d.2
  else if s.node.isKind .functionDefinition && s.node.definedName = "__init__" && file.isMethod s
  then file.assignedFields s.node
  else []

end CodeFile

/-! ## The first declarations -/

namespace FieldDeclaration

/-- Of later declarations those are first whose names are new. -/
theorem firsts_append (a b : List FieldDeclaration) :
    firsts (a ++ b) = firsts a ++ (firsts b).filter (·.name ∉ a.map name) := by
  induction a with
  | nil => simp [firsts]
  | cons d a ih =>
    rw [List.cons_append, firsts, firsts, ih, List.filter_append, List.filter_filter,
      List.cons_append]
    congr 3
    funext e
    simp

/-- Every name has a first declaration. -/
theorem mem_names_firsts {n : String} (ds : List FieldDeclaration) :
    n ∈ (firsts ds).map name ↔ n ∈ ds.map name := by
  induction ds with
  | nil => rfl
  | cons d ds ih =>
    rw [firsts, List.map_cons, List.map_cons, List.mem_cons, List.mem_cons, ← ih]
    refine or_congr_right' fun hne => ?_
    simp only [List.mem_map, List.mem_filter, decide_eq_true_eq]
    constructor
    · rintro ⟨e, ⟨he, -⟩, rfl⟩
      exact ⟨e, he, rfl⟩
    · rintro ⟨e, he, rfl⟩
      exact ⟨e, ⟨he, hne⟩, rfl⟩

end FieldDeclaration

/-! ## The type that a declaration gives -/

namespace FieldDeclaration

theorem forall₂_parameterType? {src : Source} {parameters : List Syntax.Parameter}
    {found : List (Option (String × Option String))}
    (h : List.Forall₂ (fun p entry => parameterType? src p = .ok entry) parameters found)
    (x : String) :
    List.Forall₂ (fun hint principal => src.typeName hint = .ok principal)
      ((parameters.filter (·.name = x)).filterMap (·.typeHint))
      (((found.filterMap id).filter (·.1 = x)).map (·.2)) := by
  induction h with
  | nil => exact .nil
  | @cons p entry parameters found hp _ ih =>
    unfold parameterType? at hp
    cases hhint : p.typeHint with
    | none =>
      rw [hhint] at hp
      cases hp
      by_cases hx : p.name = x <;> simpa [hx, hhint] using ih
    | some hint =>
      rw [hhint] at hp
      dsimp only at hp
      cases hprincipal : src.typeName hint with
      | error e => rw [hprincipal] at hp; cases hp
      | ok principal =>
        rw [hprincipal] at hp
        cases hp
        by_cases hx : p.name = x
        · simpa [hx, hhint, hprincipal] using ih
        · simpa [hx] using ih

/-- **The type that a parameter is known to have** is the principal name of its annotation. -/
theorem get?_parameterTypes {src : Source} {parameters : List Syntax.Parameter}
    {types : Table String} (h : parameterTypes src parameters = .ok types) (x t : String) :
    types.get? x = some t ↔ ∃ hint, hintOf? parameters x = some hint
      ∧ src.typeName hint = .ok (some t) := by
  obtain ⟨found, hfound, h⟩ := ok_of_bind h
  cases h
  have hempty : (Table.empty : Table (Option String)).names.Nodup := List.nodup_nil
  have hlast := forall₂_getLast? (forall₂_parameterType? (forall₂_of_mapM hfound) x)
  rw [Table.get?_filterMap (Table.nodup_names_putAll hempty _), Table.get?_putAll,
    Table.get?_reverse]
  unfold hintOf?
  generalize List.getLast? (List.filterMap _ _) = hint at hlast ⊢
  generalize List.getLast? (List.map _ _) = principal at hlast ⊢
  cases hlast with
  | none => simp [Table.get?, Table.empty]
  | some h => simp [h]

theorem identifier?_eq_some_iff {n : Node} {x : String} :
    n.identifier? = some x ↔ n.label = .name x := by
  unfold Node.identifier?
  cases n.label <;> simp

/-- An annotation gives one type. -/
theorem annotates_iff {src : Source} {hint : Node} {t : String}
    (h : typeNameOrAny src hint = .ok t) (t' : String) : Annotates src hint t' ↔ t' = t := by
  unfold typeNameOrAny at h
  unfold Annotates
  cases hname : src.typeName hint with
  | error e => rw [hname] at h; cases h
  | ok principal =>
    rw [hname] at h
    cases h
    simp

/-- What a call creates is what is read off its callee. -/
theorem isCreated_iff {src : Source} {call : Node} (hcall : call.isKind .call = true)
    {found : Option String} (h : createdClass? src call = .ok found) (t : String) :
    IsCreated src call t ↔ found = some t := by
  unfold createdClass? at h
  unfold IsCreated
  cases hcallee : call.child? .function with
  | none =>
    rw [hcallee] at h
    cases h
    simp
  | some callee =>
    rw [hcallee] at h
    dsimp only at h
    split at h
    · rename_i hkind
      cases htext : src.text callee with
      | error e => rw [htext] at h; cases h
      | ok text =>
        rw [htext] at h
        cases h
        have hkind := Bool.or_eq_true .. ▸ hkind
        simp only [hcall, true_and, Option.some.injEq, exists_eq_left', hkind, htext,
          Except.ok.injEq, Option.ite_none_right_eq_some]
        constructor
        · rintro ⟨rfl, hcap⟩
          exact ⟨hcap, rfl⟩
        · rintro ⟨hcap, rfl⟩
          exact ⟨rfl, hcap⟩
    · rename_i hkind
      cases h
      simp_all

/-- A value that is a parameter has the type of the parameter. -/
theorem isParameter_iff {src : Source} {others : List Syntax.Parameter}
    {types : Table String} (htypes : parameterTypes src others = .ok types) (value : Node)
    (t : String) :
    IsParameter src others value t ↔ value.identifier?.bind types.get? = some t := by
  unfold IsParameter
  simp only [Option.bind_eq_some_iff, identifier?_eq_some_iff, get?_parameterTypes htypes]
  constructor
  · rintro ⟨x, hint, hlabel, hhint, hname⟩
    exact ⟨x, hlabel, hint, hhint, hname⟩
  · rintro ⟨x, hlabel, hint, hhint, hname⟩
    exact ⟨x, hint, hlabel, hhint, hname⟩

/-- What is read off the value of an assignment is what the value tells, or `Any`. -/
theorem tells_iff {src : Source} {others : List Syntax.Parameter} {types : Table String}
    (htypes : parameterTypes src others = .ok types) {assignment value : Node} {t : String}
    (htype : assignment.child? .type = none) (hvalue : assignment.child? .right = some value)
    (h : assignedType src types assignment = .ok t) :
    (∀ t', Tells src others value t' ↔ t' = t)
      ∨ t = "Any" ∧ ∀ t', ¬ Tells src others value t' := by
  have hother : value.isKind .call = false → ∀ t', ¬ IsCreated src value t' :=
    fun hcall t' h' => Bool.false_ne_true (hcall.symm.trans h'.1)
  simp only [assignedType, htype, hvalue] at h
  simp only [Tells, isParameter_iff htypes]
  cases hfound : value.identifier?.bind types.get? with
  | some typeName =>
    rw [hfound] at h
    cases h
    obtain ⟨x, hx, -⟩ := Option.bind_eq_some_iff.mp hfound
    have hcall : value.isKind .call = false := by
      rw [Node.isKind, identifier?_eq_some_iff.mp hx]
      rfl
    exact .inl fun t' => by simp [hother hcall, eq_comm]
  | none =>
    rw [hfound] at h
    dsimp only at h
    split at h
    · rename_i hcall
      cases hclass : createdClass? src value with
      | error e => rw [hclass] at h; cases h
      | ok found =>
        rw [hclass] at h
        cases h
        cases found with
        | none => exact .inr ⟨rfl, fun t' => by simp [isCreated_iff hcall hclass]⟩
        | some text => exact .inl fun t' => by simp [isCreated_iff hcall hclass, eq_comm]
    · rename_i hcall
      cases h
      exact .inr ⟨rfl, fun t' => by simp [hother (Bool.eq_false_iff.mpr hcall)]⟩

/-- **The type that is read off an assignment** is the one that it gives. -/
theorem assigns_iff {src : Source} {others : List Syntax.Parameter} {types : Table String}
    (htypes : parameterTypes src others = .ok types) {assignment : Node} {t : String}
    (h : assignedType src types assignment = .ok t) (t' : String) :
    Assigns src others assignment t' ↔ t' = t := by
  cases htype : assignment.child? .type with
  | some hint =>
    simp only [assignedType, htype] at h
    rw [← annotates_iff h]
    constructor
    · rintro (⟨hhint, h'⟩ | ⟨hnone, -, -⟩ | ⟨hnone, -⟩)
      · cases htype.symm.trans hhint
        exact h'
      all_goals cases htype.symm.trans hnone
    · exact .hinted htype
  | none =>
    cases hvalue : assignment.child? .right with
    | none =>
      simp only [assignedType, htype, hvalue] at h
      cases h
      constructor
      · rintro (⟨hhint, -⟩ | ⟨-, hsome, -⟩ | ⟨-, -⟩)
        · cases htype.symm.trans hhint
        · cases hvalue.symm.trans hsome
        · rfl
      · rintro rfl
        exact .any htype fun value hsome => by cases hvalue.symm.trans hsome
    | some value =>
      have htold := tells_iff htypes htype hvalue h
      constructor
      · rintro (⟨hhint, -⟩ | ⟨-, hvalue', h'⟩ | ⟨-, h'⟩)
        · cases htype.symm.trans hhint
        · cases hvalue.symm.trans hvalue'
          exact htold.elim (fun htold => (htold t').mp h') fun hnone => absurd h' (hnone.2 t')
        · exact htold.elim (fun htold => absurd ((htold t).mpr rfl) (h' value hvalue t))
            fun hnone => hnone.1.symm
      · rintro rfl
        rcases htold with htold | ⟨rfl, htold⟩
        · exact .value htype hvalue ((htold t').mpr rfl)
        · refine .any htype fun value' hvalue' => ?_
          cases hvalue.symm.trans hvalue'
          exact htold

end FieldDeclaration

theorem assignedAttribute?_eq (receiver : String) (assignment : Node) :
    assignedAttribute? receiver assignment
      = (assignment.child? .left).bind (attributeOfName? receiver) := by
  unfold assignedAttribute? attributeOfName?
  cases assignment.child? .left with
  | none => rfl
  | some left =>
    cases hobject : left.child? .object with
    | none => by_cases hkind : left.isKind .attributeAccess <;> simp [hobject, hkind, guard]
    | some object =>
      by_cases hkind : left.isKind .attributeAccess
      · by_cases hname : object.label = .name receiver
        · simp [hobject, hkind, FieldDeclaration.identifier?_eq_some_iff.mpr hname, hname, guard]
        · have hne : object.identifier? ≠ some receiver :=
            mt FieldDeclaration.identifier?_eq_some_iff.mp hname
          simp [hobject, hkind, hne, hname, guard]
      · simp [hkind, guard]

/-! ## The tables of a class -/

namespace TypeIndex

/-- The fields among the members. -/
def fieldMembers (index : TypeIndex) : List StateSymbol := index.members.filterMap Symbol.field?

/-- **The tables of a class say the same as its members**: each field is there once, and of the
methods and the properties of one name the last one counts. -/
structure Agrees (index : TypeIndex) : Prop where
  fields : index.fields = index.fieldMembers.map fun f => (f.name, f)
  nodup : (index.fieldMembers.map (·.name)).Nodup
  methods : index.methods
    = Table.putAll .empty ((index.members.filterMap Symbol.method?).map fun m => (m.name, m))
  properties : index.properties
    = Table.putAll .empty ((index.members.filterMap Symbol.property?).map fun p => (p.name, p))

theorem agrees_start (symbol : TypeSymbol) : Agrees { symbol := symbol } :=
  ⟨rfl, List.nodup_nil, rfl, rfl⟩

variable {index : TypeIndex}

theorem Agrees.names (h : index.Agrees) : index.fields.names = index.fieldMembers.map (·.name) := by
  rw [h.fields, Table.names, List.map_map]
  rfl

/-- One more field that is declared for the first time. -/
theorem fieldMembers_declareField (h : index.Agrees) (name typeName : String) :
    (index.declareField name typeName).fieldMembers
      = if name ∈ index.fieldMembers.map (·.name) then index.fieldMembers
        else index.fieldMembers ++ [fieldSymbol index.symbol name typeName] := by
  unfold declareField
  rw [← h.names]
  by_cases hname : name ∈ index.fields.names
  · rw [if_pos hname, if_pos (Table.has_eq_true_iff.mpr hname)]
  · rw [if_neg hname, if_neg (mt Table.has_eq_true_iff.mp hname)]
    exact List.filterMap_append

/-- A field that is new comes last in both tables, and any other changes neither. -/
theorem Agrees.declareField (h : index.Agrees) (name typeName : String) :
    (index.declareField name typeName).Agrees := by
  unfold TypeIndex.declareField
  split
  · exact h
  · rename_i hname
    have hnew : name ∉ index.fields.names := mt Table.has_eq_true_iff.mpr hname
    have hfields : ∀ f : StateSymbol, (index.members ++ [Symbol.field f]).filterMap Symbol.field?
        = index.fieldMembers ++ [f] := fun f => List.filterMap_append
    refine ⟨?_, ?_, ?_, ?_⟩
    · show index.fields.put name _ = List.map _ (List.filterMap _ _)
      rw [Table.put_of_not_mem hnew, hfields, List.map_append, ← h.fields]
      rfl
    · show (List.map _ (List.filterMap _ _)).Nodup
      rw [hfields, List.map_append]
      refine List.nodup_append.mpr ⟨h.nodup, List.pairwise_singleton _ _, fun n hn m hm => ?_⟩
      rw [List.mem_singleton.mp hm]
      exact ne_of_mem_of_not_mem (h.names ▸ hn) hnew
    · simpa [List.filterMap_cons, Symbol.method?] using h.methods
    · simpa [List.filterMap_cons, Symbol.property?] using h.properties

/-- The class with one more method. -/
def withMethod (index : TypeIndex) (m : MethodSymbol) : TypeIndex :=
  { index with
    methods := index.methods.put m.name m
    members := index.members ++ [Symbol.method m] }

theorem fieldMembers_withMethod (index : TypeIndex) (m : MethodSymbol) :
    (index.withMethod m).fieldMembers = index.fieldMembers := by
  simp [withMethod, fieldMembers, List.filterMap_cons, Symbol.field?]

theorem fieldMembers_declare_property (index : TypeIndex) (p : StateSymbol) :
    (index.declare (.property p)).1.fieldMembers = index.fieldMembers := by
  simp [TypeIndex.declare, fieldMembers, List.filterMap_cons, Symbol.field?]

theorem Agrees.withMethod (h : index.Agrees) (m : MethodSymbol) : (index.withMethod m).Agrees := by
  refine ⟨?_, ?_, ?_, ?_⟩
  · rw [fieldMembers_withMethod]
    exact h.fields
  · rw [fieldMembers_withMethod]
    exact h.nodup
  · simp [TypeIndex.withMethod, Symbol.method?, Table.putAll_append, ← h.methods]
    rfl
  · simpa [TypeIndex.withMethod, List.filterMap_cons, Symbol.property?] using h.properties

theorem Agrees.declareAssigned (h : index.Agrees) (assigned : Except Defect (List Assigned)) :
    (index.declareAssigned assigned).1.Agrees := by
  unfold TypeIndex.declareAssigned
  split
  · exact h
  · exact List.foldlRecOn (motive := Agrees) _ _ h fun index' h' field _ => h'.declareField _ _

/-- **One more declaration** keeps the tables in line with the members. -/
theorem Agrees.declare (h : index.Agrees) (d : Declaration) : (index.declare d).1.Agrees := by
  cases d with
  | method m site assigned => exact (h.withMethod m).declareAssigned assigned
  | property p =>
    refine ⟨?_, ?_, ?_, ?_⟩
    · rw [fieldMembers_declare_property]
      exact h.fields
    · rw [fieldMembers_declare_property]
      exact h.nodup
    · simpa [TypeIndex.declare, List.filterMap_cons, Symbol.method?] using h.methods
    · simp [TypeIndex.declare, Symbol.property?, Table.putAll_append, ← h.properties]
      rfl
  | field name typeName => exact h.declareField name typeName
  | nested t site => exact ⟨h.fields, h.nodup, h.methods, h.properties⟩
  | nothing => exact h

end TypeIndex

/-! ## What a statement declares -/

namespace FieldDeclaration

/-- A field that a class has by a declaration. -/
def Declares (src : Source) (owner : TypeSymbol) (d : FieldDeclaration) (f : StateSymbol) : Prop :=
  f = fieldSymbol owner d.name f.typeName ∧ ∀ t, d.HasType src t ↔ t = f.typeName

/-- What was read off a declaration: its name, and its type if that can be read. -/
def IsRead (src : Source) (d : FieldDeclaration) (a : Assigned) : Prop :=
  a.name = d.name ∧ ∀ t, a.typeName = .ok t → ∀ t', d.HasType src t' ↔ t' = t

end FieldDeclaration

open FieldDeclaration (firsts Declares IsRead)

/-- The fields that a declaration brings are those of a list. -/
def Declaration.Brings (src : Source) (ds : List FieldDeclaration) : Declaration → Prop
  | .method _ _ assigned => ∀ read, assigned = .ok read → List.Forall₂ (IsRead src) ds read
  | .field name typeName =>
    ∃ hint, ds = [.annotated name hint] ∧ typeNameOrAny src hint = .ok typeName
  | _ => ds = []

/-- The assignments of a constructor are read off as they are written. -/
theorem CodeFile.isRead_assignments {file : CodeFile} {n : Node} {read : List Assigned}
    (h : file.assignments n = .ok read) :
    List.Forall₂ (IsRead file.source) (file.assignedFields n) read := by
  unfold assignments at h
  obtain ⟨parameters, hparameters, h⟩ := ok_of_bind h
  unfold assignedFields
  rw [hparameters]
  split at h
  · rename_i receiver others body hbody
    obtain ⟨types, htypes, h⟩ := ok_of_bind h
    cases h
    rw [hbody]
    dsimp only
    generalize body.descendantsOf .assignment = sites
    simp only [assignedAttribute?_eq]
    induction sites with
    | nil => exact .nil
    | cons s sites ih =>
      rw [List.filterMap_cons, List.filterMap_cons]
      cases (s.node.child? .left).bind (attributeOfName? receiver.name) with
      | none => exact ih
      | some name =>
        exact .cons ⟨rfl, fun t ht t' => FieldDeclaration.assigns_iff htypes ht t'⟩ ih
  · rename_i hother
    cases h
    split
    · rename_i receiver others body heq hbody
      cases heq
      exact absurd hbody (hother receiver others body rfl)
    · exact .nil

/-- **A method brings the fields that its body assigns to.** -/
theorem CodeFile.brings_methodDeclaration {file : CodeFile} {owner : TypeSymbol} {s : Site}
    {d : Declaration} (hkind : s.node.isKind .functionDefinition = true)
    (h : file.methodDeclaration owner s = .ok d) :
    d.Brings file.source (file.fieldDeclarations s) := by
  have hother : s.node.isKind .expressionStatement = false := by
    rw [Node.isKind, of_decide_eq_true hkind]
    rfl
  unfold methodDeclaration at h
  obtain ⟨decorators, hdecorators, h⟩ := ok_of_bind h
  have hmethod : file.isMethod s
      = (!(decorators.any fun d => endsWith ".setter" d || endsWith ".deleter" d)
        && !(decoratedAs decorators "property" || decoratedAs decorators "cached_property")) := by
    unfold isMethod
    rw [hdecorators]
    simp only [decoratedAs]
    rw [Bool.eq_iff_iff]
    simp only [List.all_eq_true, Bool.and_eq_true, Bool.not_eq_eq_eq_not, Bool.not_true,
      decide_eq_true_eq, List.any_eq_false, Bool.or_eq_true, not_or, Bool.not_eq_true,
      Bool.or_eq_false_iff, List.contains_eq_mem, decide_eq_false_iff_not, List.mem_map, not_exists,
      not_and, ne_eq]
    exact ⟨fun h => ⟨fun d hd => (h d hd).1.1, fun d hd => (h d hd).1.2, fun d hd => (h d hd).2⟩,
      fun h d hd => ⟨⟨h.1 d hd, h.2.1 d hd⟩, h.2.2 d hd⟩⟩
  simp only [fieldDeclarations, hother, hkind, Bool.false_eq_true, if_false, Bool.true_and]
  dsimp only at h
  split at h
  · rename_i haccessor
    cases h
    simp [Declaration.Brings, hmethod, haccessor]
  · rename_i haccessor
    obtain ⟨returnType, -, h⟩ := ok_of_bind h
    split at h
    · rename_i hproperty
      cases h
      simp [Declaration.Brings, hmethod, hproperty]
    · rename_i hproperty
      obtain ⟨parameters, -, h⟩ := ok_of_bind h
      cases h
      rw [Bool.not_eq_true] at haccessor hproperty
      rw [hmethod, haccessor, hproperty]
      intro read hread
      by_cases hname : s.node.definedName = "__init__"
      · rw [if_pos hname] at hread
        rw [if_pos (by simp [hname])]
        exact isRead_assignments hread
      · rw [if_neg hname] at hread
        cases hread
        rw [if_neg (by simp [hname])]
        exact .nil

theorem annotatedName?_eq_some_iff {statement assignment : Node} {rest : List Node}
    (h : statement.namedChildren = assignment :: rest) (d : String × Node) :
    annotatedName? statement = some d ↔ assignment.isKind .assignment = true
      ∧ (assignment.child? .left).bind Node.identifier? = some d.1
      ∧ assignment.child? .type = some d.2 := by
  obtain ⟨name, hint⟩ := d
  unfold annotatedName?
  rw [h, List.head?_cons, Option.filter_some]
  split
  · rename_i hkind
    simp only [Option.bind_some, Option.bind_eq_some_iff, Option.map_eq_some_iff, Prod.mk.injEq,
      hkind, true_and]
    constructor
    · rintro ⟨name, hname, hint, hhint, rfl, rfl⟩
      exact ⟨hname, hhint⟩
    · rintro ⟨hname, hhint⟩
      exact ⟨name, hname, hint, hhint, rfl, rfl⟩
  · rename_i hkind
    simp [hkind]

/-- An annotation marks a class variable by its last name. -/
theorem CodeFile.isClassVariable_eq {file : CodeFile} {hint : Node} {typeName : String}
    (h : typeNameOrAny file.source hint = .ok typeName) :
    file.isClassVariable hint = decide (lastSegment typeName = "ClassVar") := by
  unfold typeNameOrAny at h
  unfold isClassVariable
  cases hname : file.source.typeName hint with
  | error e => rw [hname] at h; cases h
  | ok principal =>
    rw [hname] at h
    cases h
    cases principal with
    | none => decide
    | some t => rfl

/-- **An annotated name brings a field**, unless it is a class variable. -/
theorem CodeFile.brings_fieldDeclaration {file : CodeFile} {s : Site} {d : Declaration}
    (hkind : s.node.isKind .expressionStatement = true) (h : file.fieldDeclaration s.node = .ok d) :
    d.Brings file.source (file.fieldDeclarations s) := by
  simp only [fieldDeclarations, hkind, if_true]
  unfold fieldDeclaration at h
  split at h
  · rename_i assignment rest hchildren
    have hnamed := annotatedName?_eq_some_iff hchildren
    split at h
    · rename_i hassignment
      cases h
      have hnone : annotatedName? s.node = none := by
        refine Option.eq_none_iff_forall_ne_some.mpr fun d hd => ?_
        simp [((hnamed d).mp hd).1] at hassignment
      rw [hnone]
      rfl
    · rename_i hassignment
      split at h
      · rename_i name hint hname hhint
        rw [(hnamed (name, hint)).mpr ⟨by simpa using hassignment, hname, hhint⟩]
        obtain ⟨typeName, htype, h⟩ := ok_of_bind h
        cases h
        rw [Option.filter_some, isClassVariable_eq htype]
        by_cases hclass : lastSegment typeName = "ClassVar"
        · simp [Declaration.Brings, hclass]
        · rw [if_neg hclass, if_pos (by simp [hclass])]
          exact ⟨hint, rfl, htype⟩
      · rename_i hother
        cases h
        have hnone : annotatedName? s.node = none := by
          refine Option.eq_none_iff_forall_ne_some.mpr fun d hd => ?_
          obtain ⟨-, hname, hhint⟩ := (hnamed d).mp hd
          exact hother d.1 d.2 hname hhint
        rw [hnone]
        rfl
  · rename_i hchildren
    cases h
    rw [annotatedName?, hchildren]
    rfl

/-- **What a statement declares** are the fields that are written there. -/
theorem CodeFile.brings_declaration {file : CodeFile} {owner : TypeSymbol} {s : Site}
    {d : Declaration} (h : file.declaration owner s = .ok d) :
    d.Brings file.source (file.fieldDeclarations s) := by
  unfold declaration at h
  split at h
  · rename_i hkind
    exact brings_methodDeclaration hkind h
  · split at h
    · rename_i hfunction hclass
      have hother : s.node.isKind .expressionStatement = false := by
        rw [Node.isKind, of_decide_eq_true hclass]
        rfl
      cases hsymbol : file.classSymbol (some owner) s with
      | error defect => rw [hsymbol] at h; cases h
      | ok t =>
        rw [hsymbol] at h
        cases h
        simp [Declaration.Brings, fieldDeclarations, hother, hfunction]
    · split at h
      · rename_i hkind
        exact brings_fieldDeclaration hkind h
      · rename_i hfunction _ hexpression
        cases h
        simp [Declaration.Brings, fieldDeclarations, hexpression, hfunction]

/-! ## The fields of a class -/

/-- The fields that are new are the first declarations of names that are not known. -/
theorem forall₂_newFields {src : Source} {ds : List FieldDeclaration} {read : List Assigned}
    (h : List.Forall₂ (IsRead src) ds read) {known : List String} {new : List (String × String)}
    (hnew : newFields known read = .ok new) :
    List.Forall₂ (fun d e => e.1 = d.name ∧ ∀ t, d.HasType src t ↔ t = e.2)
      ((firsts ds).filter (·.name ∉ known)) new := by
  induction h generalizing known new with
  | nil =>
    cases hnew
    exact .nil
  | @cons d a ds read hread _ ih =>
    obtain ⟨hname, htype⟩ := hread
    rw [newFields] at hnew
    rw [firsts]
    by_cases hknown : a.name ∈ known
    · rw [if_pos (List.contains_iff_mem.mpr hknown)] at hnew
      rw [List.filter_cons_of_neg (by simpa [← hname] using hknown), List.filter_filter]
      have hsame : ∀ e : FieldDeclaration,
          (decide (e.name ∉ known) && decide (e.name ≠ d.name)) = decide (e.name ∉ known) := by
        intro e
        rw [← hname]
        by_cases he : e.name ∈ known
        · simp [he]
        · have hne : e.name ≠ a.name := fun heq => he (heq ▸ hknown)
          simp [he, hne]
      simpa only [hsame] using ih hnew
    · rw [if_neg (mt List.contains_iff_mem.mp hknown)] at hnew
      obtain ⟨t, ht, hnew⟩ := ok_of_bind hnew
      obtain ⟨others, hothers, hnew⟩ := ok_of_bind hnew
      cases hnew
      rw [List.filter_cons_of_pos (by simpa [← hname] using hknown), List.filter_filter]
      have hsame : ∀ e : FieldDeclaration, (decide (e.name ∉ known) && decide (e.name ≠ d.name))
          = decide (e.name ∉ a.name :: known) := by
        intro e
        rw [← hname]
        simp [Bool.and_comm]
      simp only [hsame]
      exact .cons ⟨hname, htype t ht⟩ (ih hothers)

/-- No name is declared first twice. -/
theorem FieldDeclaration.nodup_firsts (ds : List FieldDeclaration) :
    ((firsts ds).map FieldDeclaration.name).Nodup := by
  induction ds with
  | nil => exact List.nodup_nil
  | cons d ds ih =>
    rw [firsts, List.map_cons, List.nodup_cons]
    refine ⟨fun hmem => ?_, ih.sublist (List.filter_sublist.map _)⟩
    obtain ⟨e, he, hname⟩ := List.mem_map.mp hmem
    exact of_decide_eq_true (List.mem_filter.mp he).2 hname

namespace TypeIndex

/-- Fields that are new, one after the other. -/
theorem fieldMembers_foldl {new : List (String × String)} {index : TypeIndex} (h : index.Agrees)
    (hnodup : (new.map (·.1)).Nodup)
    (hnew : ∀ e ∈ new, e.1 ∉ index.fieldMembers.map (·.name)) :
    (new.foldl (fun i e => i.declareField e.1 e.2) index).fieldMembers
      = index.fieldMembers ++ new.map fun e => fieldSymbol index.symbol e.1 e.2 := by
  induction new generalizing index with
  | nil => simp
  | cons e new ih =>
    obtain ⟨he, hnodup⟩ := List.nodup_cons.mp hnodup
    have hfirst := fieldMembers_declareField h e.1 e.2
    rw [if_neg (hnew e List.mem_cons_self)] at hfirst
    rw [List.foldl_cons, ih (h.declareField e.1 e.2) hnodup, hfirst, (index.declareField_eq _ _).1,
      List.append_assoc]
    · rfl
    · intro e' he' hmem
      rw [hfirst, List.map_append, List.mem_append] at hmem
      rcases hmem with hmem | hmem
      · exact hnew e' (List.mem_cons_of_mem _ he') hmem
      · exact he (List.mem_map.mpr ⟨e', he', List.mem_singleton.mp hmem⟩)

/-- The assignments of a constructor are all taken, or none of them. -/
theorem declareAssigned_cases (index : TypeIndex) (assigned : Except Defect (List Assigned)) :
    (∃ read new, assigned = .ok read ∧ newFields index.fields.names read = .ok new
      ∧ index.declareAssigned assigned
        = (new.foldl (fun i e => i.declareField e.1 e.2) index, none))
    ∨ ∃ defect, index.declareAssigned assigned = (index, some defect) := by
  unfold declareAssigned
  cases assigned with
  | error defect => exact .inr ⟨defect, rfl⟩
  | ok read =>
    cases hnew : newFields index.fields.names read with
    | error defect => exact .inr ⟨defect, by rw [Except.bind, hnew]⟩
    | ok new => exact .inl ⟨read, new, rfl, hnew, by rw [Except.bind, hnew]⟩

/-- **The fields of a class are the first declarations** in a list. -/
def Lists (src : Source) (ds : List FieldDeclaration) (index : TypeIndex) : Prop :=
  List.Forall₂ (Declares src index.symbol) (firsts ds) index.fieldMembers

variable {src : Source} {ds : List FieldDeclaration} {index : TypeIndex}

theorem Lists.mem_names (h : index.Lists src ds) (n : String) :
    n ∈ index.fieldMembers.map (·.name) ↔ n ∈ ds.map FieldDeclaration.name := by
  rw [← FieldDeclaration.mem_names_firsts]
  rw [← map_eq_map_of_forall₂ (f := FieldDeclaration.name) h
    fun d f hf => (congrArg (·.name) hf.1).symm]

/-- Fields that are put behind those of the class. -/
theorem Lists.append {index' : TypeIndex} (h : index.Lists src ds)
    (hsymbol : index'.symbol = index.symbol) {more : List FieldDeclaration}
    {l : List StateSymbol} (hmembers : index'.fieldMembers = index.fieldMembers ++ l)
    (hnew : List.Forall₂ (Declares src index.symbol)
      ((firsts more).filter (·.name ∉ index.fieldMembers.map (·.name))) l) :
    index'.Lists src (ds ++ more) := by
  unfold Lists
  rw [hsymbol, hmembers, FieldDeclaration.firsts_append]
  refine List.rel_append h ?_
  simpa only [h.mem_names] using hnew

/-- **One more declaration** that can be read to its end adds the fields that it brings. -/
theorem Lists.declare (h : index.Lists src ds) (hagrees : index.Agrees) {d : Declaration}
    {more : List FieldDeclaration} (hbrings : d.Brings src more)
    (hread : (index.declare d).2 = none) : (index.declare d).1.Lists src (ds ++ more) := by
  have hsame : ∀ {index' : TypeIndex}, more = [] → index'.symbol = index.symbol →
      index'.fieldMembers = index.fieldMembers → index'.Lists src (ds ++ more) := by
    rintro index' rfl hsymbol hmembers
    exact h.append hsymbol (hmembers.trans (List.append_nil _).symm) .nil
  cases d with
  | method m site assigned =>
    have hmembers := fieldMembers_withMethod index m
    rcases declareAssigned_cases (index.withMethod m) assigned with
      ⟨read, new, hassigned, hnew, hdeclare⟩ | ⟨defect, hdeclare⟩
    · have hfields := forall₂_newFields (hbrings read hassigned) hnew
      rw [(hagrees.withMethod m).names, hmembers] at hfields
      have hnames : new.map (·.1)
          = ((firsts more).filter (·.name ∉ index.fieldMembers.map (·.name))).map
            FieldDeclaration.name :=
        (map_eq_map_of_forall₂ hfields fun d e he => he.1.symm).symm
      refine h.append (index.symbol_declare (.method m site assigned))
        (l := new.map fun e => fieldSymbol index.symbol e.1 e.2) ?_ ?_
      · show (declareAssigned (index.withMethod m) assigned).1.fieldMembers = _
        rw [hdeclare, ← hmembers]
        refine fieldMembers_foldl (hagrees.withMethod m) ?_ ?_
        · rw [hnames]
          exact (FieldDeclaration.nodup_firsts more).sublist (List.filter_sublist.map _)
        · intro e he
          have hmem := hnames ▸ List.mem_map_of_mem (f := Prod.fst) he
          obtain ⟨d, hd, hname⟩ := List.mem_map.mp hmem
          rw [hmembers, ← hname]
          exact of_decide_eq_true (List.mem_filter.mp hd).2
      · rw [List.forall₂_map_right_iff]
        refine hfields.imp fun d e ⟨hname, htype⟩ => ⟨?_, htype⟩
        rw [hname]
        rfl
    · have hdefect : (declareAssigned (index.withMethod m) assigned).2 = none := hread
      rw [hdeclare] at hdefect
      cases hdefect
  | property p => exact hsame hbrings rfl (index.fieldMembers_declare_property p)
  | field name typeName =>
    obtain ⟨hint, rfl, htype⟩ := hbrings
    refine h.append (index.declareField_eq name typeName).1
      (l := if name ∈ index.fieldMembers.map (·.name) then []
        else [fieldSymbol index.symbol name typeName]) ?_ ?_
    · refine (fieldMembers_declareField hagrees name typeName).trans ?_
      split <;> simp
    · rw [firsts, firsts, List.filter_nil]
      by_cases hname : name ∈ index.fieldMembers.map (·.name)
      · rw [if_pos hname, List.filter_cons_of_neg (by simpa [FieldDeclaration.name] using hname)]
        exact .nil
      · rw [if_neg hname, List.filter_cons_of_pos (by simpa [FieldDeclaration.name] using hname)]
        exact .cons ⟨rfl, FieldDeclaration.annotates_iff htype⟩ .nil
  | nested t site => exact hsame hbrings rfl rfl
  | nothing => exact hsame hbrings rfl rfl

/-- A declaration that cannot be read to its end brings no fields. -/
theorem Lists.declare_of_defect (h : index.Lists src ds) {d : Declaration}
    (hread : (index.declare d).2 ≠ none) : (index.declare d).1.Lists src ds := by
  cases d with
  | method m site assigned =>
    rcases declareAssigned_cases (index.withMethod m) assigned with
      ⟨read, new, -, -, hdeclare⟩ | ⟨defect, hdeclare⟩
    · exact absurd (congrArg Prod.snd hdeclare) hread
    · show (declareAssigned (index.withMethod m) assigned).1.Lists src ds
      rw [hdeclare]
      unfold Lists
      rw [fieldMembers_withMethod]
      exact h
  | property p => exact absurd rfl hread
  | field name typeName => exact absurd rfl hread
  | nested t site => exact absurd rfl hread
  | nothing => exact absurd rfl hread

end TypeIndex

/-- **A class as far as it was read**: its tables agree with its members, and its fields are the
first declarations of the statements that were read. -/
structure TypeIndex.Covers (file : CodeFile) (symbol : TypeSymbol) (read : List Site)
    (index : TypeIndex) : Prop where
  symbol_eq : index.symbol = symbol
  agrees : index.Agrees
  lists : index.Lists file.source (read.flatMap file.fieldDeclarations)

namespace CodeFile

variable {file : CodeFile} {symbol : TypeSymbol} {read : List Site} {o : Opened}

/-- **One more statement** is read, or a defect ends the class. -/
theorem covers_step (h : o.index.Covers file symbol read) (s : Site) :
    (file.step symbol o s).inner.defect = none
        ∧ (file.step symbol o s).index.Covers file symbol (read ++ [s])
      ∨ (file.step symbol o s).inner.defect ≠ none
        ∧ (file.step symbol o s).index.Covers file symbol read := by
  unfold step
  split
  · rename_i hdefect
    exact .inr ⟨Option.isSome_iff_ne_none.mp hdefect, h⟩
  · cases hd : file.declaration symbol s with
    | error defect => exact .inr ⟨Option.some_ne_none defect, h⟩
    | ok d =>
      dsimp only
      have hsymbol := (o.index.symbol_declare d).trans h.symbol_eq
      unfold Opened.declare
      dsimp only
      split
      · rename_i hbelow
        exact .inr ⟨Option.isSome_iff_ne_none.mp hbelow, h⟩
      · by_cases hread : (o.index.declare d).2 = none
        · refine .inl ⟨hread, hsymbol, h.agrees.declare d, ?_⟩
          rw [List.flatMap_append, List.flatMap_singleton]
          exact h.lists.declare h.agrees (brings_declaration hd) hread
        · exact .inr ⟨hread, hsymbol, h.agrees.declare d, h.lists.declare_of_defect hread⟩

/-- After a defect nothing more is read. -/
theorem foldl_step_of_defect (h : o.inner.defect ≠ none) (l : List Site) :
    l.foldl (file.step symbol) o = o := by
  induction l with
  | nil => rfl
  | cons s l ih =>
    rw [List.foldl_cons, step, if_pos (Option.isSome_iff_ne_none.mpr h)]
    exact ih

/-- **The statements of a class, one after the other**, up to a defect. -/
theorem covers_foldl (h : o.index.Covers file symbol read) (l : List Site) :
    ∃ more, more <+: l ∧ (l.foldl (file.step symbol) o).index.Covers file symbol (read ++ more)
      ∧ ((l.foldl (file.step symbol) o).inner.defect = none → more = l) := by
  induction l generalizing read o with
  | nil => exact ⟨[], List.prefix_rfl, by rwa [List.append_nil], fun _ => rfl⟩
  | cons s l ih =>
    rw [List.foldl_cons]
    rcases covers_step h s with ⟨-, hstep⟩ | ⟨hdefect, hstep⟩
    · obtain ⟨more, hmore, hcovers, hall⟩ := ih hstep
      refine ⟨s :: more, (List.prefix_cons_inj s).mpr hmore, ?_, fun hnone => ?_⟩
      · rwa [List.append_assoc] at hcovers
      · rw [hall hnone]
    · rw [foldl_step_of_defect hdefect]
      exact ⟨[], List.nil_prefix, by rwa [List.append_nil], fun hnone => absurd hnone hdefect⟩

/-- **Fields are indexed by their first declaration.** The members of a class that are fields are
the first declarations of their names among the statements that were read, in the order of the
source and with the types that they give, and the tables of the class say the same as its members.
All statements are read, unless one has a defect. -/
theorem fields_by_first_declaration (file : CodeFile) (symbol : TypeSymbol) (n : Node) :
    ∃ index inner read, (file.harvest symbol n).types = index :: inner ∧ index.symbol = symbol
      ∧ read <+: n.bodyStatements
      ∧ ((file.harvest symbol n).defect = none → read = n.bodyStatements)
      ∧ List.Forall₂
          (fun d f => f = fieldSymbol symbol d.name f.typeName
            ∧ ∀ t, d.HasType file.source t ↔ t = f.typeName)
          (firsts (read.flatMap file.fieldDeclarations)) (index.members.filterMap Symbol.field?)
      ∧ ((index.members.filterMap Symbol.field?).map (·.name)).Nodup
      ∧ index.fields = (index.members.filterMap Symbol.field?).map (fun f => (f.name, f))
      ∧ (∀ name, index.methods.get? name
          = (index.members.filterMap Symbol.method?).reverse.find? (·.name = name))
      ∧ ∀ name, index.properties.get? name
          = (index.members.filterMap Symbol.property?).reverse.find? (·.name = name) := by
  have hstart : TypeIndex.Covers file symbol [] { symbol := symbol } :=
    ⟨rfl, TypeIndex.agrees_start symbol, .nil⟩
  rw [harvest_eq]
  obtain ⟨read, hread, hcovers, hall⟩ :=
    covers_foldl (o := ⟨{ symbol := symbol }, {}⟩) hstart n.bodyStatements
  rw [List.nil_append] at hcovers
  generalize n.bodyStatements.foldl (file.step symbol) ⟨{ symbol := symbol }, {}⟩ = o at *
  obtain ⟨hsymbol, hagrees, hlists⟩ := hcovers
  refine ⟨o.index, o.inner.types, read, rfl, hsymbol, hread, hall, ?_, hagrees.nodup,
    hagrees.fields, fun name => ?_, fun name => ?_⟩
  · exact hsymbol ▸ hlists
  · rw [hagrees.methods, Table.get?_putAll_map, Option.map_id']
  · rw [hagrees.properties, Table.get?_putAll_map, Option.map_id']

end CodeFile

/-- A class whose constructor assigns its receiver, which is annotated. -/
def selfAnnotated : List (String × String) :=
  [("m.py", "class Node:\n    def __init__(self: \"Node\"):\n        self.me = self\n")]

instance decidableIsParameter (src : Source) (others : List Syntax.Parameter) (value : Node)
    (t : String) : Decidable (FieldDeclaration.IsParameter src others value t) :=
  decidable_of_iff (∃ hint ∈ value.identifier?.bind (FieldDeclaration.hintOf? others),
    src.typeName hint = .ok (some t)) <| by
    unfold FieldDeclaration.IsParameter
    simp only [Option.mem_def, Option.bind_eq_some_iff,
      FieldDeclaration.identifier?_eq_some_iff]
    constructor
    · rintro ⟨hint, ⟨x, hx, hhint⟩, hname⟩
      exact ⟨x, hint, hx, hhint, hname⟩
    · rintro ⟨x, hint, hx, hhint, hname⟩
      exact ⟨hint, ⟨x, hx, hhint⟩, hname⟩

/-- **The annotation of the receiver gives no type.** It is among the parameters, and by its
annotation the field would be a `Node`. -/
theorem receiver_annotation_unused :
    ∃ ws, ws = ofSources selfAnnotated ∧ ∃ d ∈ ws.definitions.values, ∃ parameters,
      d.file.source.parametersOf d.site.node = .ok parameters
      ∧ (∃ a ∈ (d.body?.map (·.descendantsOf .assignment)).getD [],
          (a.node.child? .left).bind (attributeOfName? "self") = some "me"
          ∧ FieldDeclaration.Assigns d.file.source parameters a.node "Node")
      ∧ (ws.types.get? "m.Node").map (fun index =>
          (index.members.filterMap Symbol.field?).map fun f => (f.name, f.typeName))
        = some [("me", "Any")] := by
  have hfacts : ∃ ws ∈ [ofSources selfAnnotated], ∃ d ∈ ws.definitions.values,
      ∃ parameters ∈ (d.file.source.parametersOf d.site.node).toOption,
      (∃ a ∈ (d.body?.map (·.descendantsOf .assignment)).getD [],
          (a.node.child? .left).bind (attributeOfName? "self") = some "me"
          ∧ (a.node.child? .type).isNone = true ∧ ∃ value ∈ a.node.child? .right,
            FieldDeclaration.IsParameter d.file.source parameters value "Node")
      ∧ (ws.types.get? "m.Node").map (fun index =>
          (index.members.filterMap Symbol.field?).map fun f => (f.name, f.typeName))
        = some [("me", "Any")] := by
    decide +kernel
  obtain ⟨ws, hws, d, hd, parameters, hparameters, ⟨a, ha, hleft, htype, value, hvalue, h⟩,
    hfields⟩ := hfacts
  exact ⟨ws, List.mem_singleton.mp hws, d, hd, parameters, ok_of_toOption hparameters,
    ⟨a, ha, hleft, .value (Option.isNone_iff_eq_none.mp htype) hvalue (.inl h)⟩, hfields⟩

end Workspace

end CallTree
