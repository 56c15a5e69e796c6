import CallTree.Proofs.Resolution
import CallTree.Proofs.Gives
import CallTree.Workspace.Scope
import Mathlib.Data.List.Induction

/-!
# A dotted name in a body and in an annotation

A dotted name is read in two ways. Where it names a type – in an annotation, in a list of
bases – each segment is an attribute of what the segments before it stand for. Where it is an
expression of a body, each segment is taken of what the expression before it *leads to*: a
field or a property leads to its type, and a function outside the workspace is taken for a
module.

The two ways go together as long as what is met is a module or a type, since these lead to
themselves, and they go together where neither leads anywhere. They part at a field, at a
property and at what is taken for a module (`Referent.isDetour`). From there on the type name
names nothing, so the two never name different types; and with no such thing on the way they
name the same (`foldlM_attributeOf_path`).
-/

namespace CallTree.Workspace

open CallTree.Syntax (Site)
open CallTree.Text (segments)

/-! ## Detours -/

/-- Whether it is a field or a property, of which members are taken by way of its type. -/
def Referent.isState : Referent → Bool
  | .symbol (.field _) | .symbol (.property _) => true
  | _ => false

/-- Whether it is a function outside the workspace, of which members are taken as if it were a
module. -/
def Referent.passesForModule : Referent → Bool
  | .symbol (.method m) => (Scope.asModule (.method m)).isSome
  | _ => false

/-- **Whether the two ways of reading part at it.** -/
def Referent.isDetour (r : Referent) : Bool := r.isState || r.passesForModule

variable (ws : Workspace) {r : Referent} (name : String)

/-- In a type name, nothing is an attribute of a detour. -/
theorem attributeOf_of_isDetour (h : r.isDetour = true) :
    ws.attributeOf (some r) name = .ok none := by
  cases r with
  | module' ref => cases h
  | symbol s =>
    cases s with
    | type t => cases h
    | method m => rfl
    | field s => rfl
    | property s => rfl

theorem asModule_of_not_isDetour {m : MethodSymbol}
    (h : (Referent.symbol (.method m)).isDetour = false) : Scope.asModule (.method m) = none := by
  simpa [Referent.isDetour, Referent.isState, Referent.passesForModule] using h

/-- **Anything else leads to itself or to nothing**, which has the same attributes. -/
theorem attributeOf_typeOf (h : r.isDetour = false) :
    ∃ led, Scope.typeOf ws (some r) = .ok led
      ∧ ws.attributeOf led name = ws.attributeOf (some r) name := by
  cases r with
  | module' ref => exact ⟨_, rfl, rfl⟩
  | symbol s =>
    cases s with
    | type t => exact ⟨_, rfl, rfl⟩
    | method m => exact ⟨none, congrArg Except.ok (asModule_of_not_isDetour h), rfl⟩
    | field s => cases h
    | property s => cases h

/-- The first segment leads where any other would, except that a field or a property which is
imported leads nowhere. -/
theorem attributeOf_globalReceiver {scope : Scope} {head : String}
    (hhead : ws.global scope.moduleName head = .ok (some r)) (h : r.isDetour = false) :
    ∃ led, scope.globalReceiver ws head = .ok led
      ∧ ws.attributeOf led name = ws.attributeOf (some r) name := by
  unfold Scope.globalReceiver
  rw [hhead]
  cases r with
  | module' ref => exact ⟨_, rfl, rfl⟩
  | symbol s =>
    cases s with
    | type t => exact ⟨_, rfl, rfl⟩
    | method m => exact ⟨none, congrArg Except.ok (asModule_of_not_isDetour h), rfl⟩
    | field s => exact ⟨none, rfl, rfl⟩
    | property s => exact ⟨none, rfl, rfl⟩

/-! ## Expressions that are dotted names -/

/-- **The expression that a dotted name is**: a name, and one access for each further
segment. -/
def Expr.path (head : String) (rest : List String) : Expr := rest.foldl .access (.name head)

theorem Expr.path_concat (head : String) (rest : List String) (name : String) :
    Expr.path head (rest ++ [name]) = .access (Expr.path head rest) name := by
  unfold Expr.path
  rw [List.foldl_append]
  rfl

/-- A name with several segments is an access. -/
theorem Expr.path_eq_access (head : String) {rest : List String} (h : rest ≠ []) :
    ∃ object member, Expr.path head rest = .access object member :=
  ⟨Expr.path head rest.dropLast, rest.getLast h, by
    rw [← Expr.path_concat, List.dropLast_concat_getLast]⟩

/-- A name that belongs to the module: neither the receiver nor a local name. -/
structure Scope.Leaves (scope : Scope) (head : String) : Prop where
  receiver : scope.receiver ≠ some head
  locals : scope.locals.get? head = none

instance (scope : Scope) (head : String) : Decidable (scope.Leaves head) :=
  decidable_of_iff (scope.receiver ≠ some head ∧ scope.locals.get? head = none)
    ⟨fun h => ⟨h.1, h.2⟩, fun h => ⟨h.receiver, h.locals⟩⟩

/-- What an expression stands for, if that is known. -/
def Scope.standsFor? (scope : Scope) (e : Expr) : Option Referent :=
  (scope.calleeOf ws e).toOption.bind id

/-- **The way along a dotted name meets something** of some sort before its end. -/
def Scope.Meets (scope : Scope) (sort : Referent → Bool) (head : String) (rest : List String) :
    Prop :=
  ∃ k < rest.length, (scope.standsFor? ws (Expr.path head (rest.take k))).any sort = true

instance (scope : Scope) (sort : Referent → Bool) (head : String) (rest : List String) :
    Decidable (scope.Meets ws sort head rest) :=
  inferInstanceAs (Decidable (∃ k < rest.length, _ = true))

section Along

variable {ws} {scope : Scope} {head : String}

/-- Who meets a field or a property meets a detour. -/
theorem Scope.Meets.isDetour {rest : List String} (h : scope.Meets ws Referent.isState head rest) :
    scope.Meets ws Referent.isDetour head rest := by
  obtain ⟨k, hk, hmet⟩ := h
  refine ⟨k, hk, ?_⟩
  cases hr : scope.standsFor? ws (Expr.path head (rest.take k)) with
  | none => rw [hr] at hmet; cases hmet
  | some r =>
    rw [hr] at hmet
    show (r.isState || r.passesForModule) = true
    rw [show r.isState = true from hmet, Bool.true_or]

/-- One more segment: what is met before the end was met already, or is the last thing that was
found. -/
theorem Scope.meets_concat {sort : Referent → Bool} {rest : List String} {name : String} :
    scope.Meets ws sort head (rest ++ [name])
      ↔ scope.Meets ws sort head rest
        ∨ (scope.standsFor? ws (Expr.path head rest)).any sort = true := by
  refine ⟨?_, ?_⟩
  · rintro ⟨k, hk, hmet⟩
    rw [List.length_append, List.length_singleton] at hk
    rw [List.take_append_of_le_length (Nat.lt_succ_iff.mp hk)] at hmet
    rcases Nat.lt_succ_iff_lt_or_eq.mp hk with hk | rfl
    · exact Or.inl ⟨k, hk, hmet⟩
    · rw [List.take_length] at hmet
      exact Or.inr hmet
  · rintro (⟨k, hk, hmet⟩ | hmet)
    · refine ⟨k, ?_, ?_⟩
      · rw [List.length_append]
        exact Nat.lt_add_right _ hk
      · rw [List.take_append_of_le_length (Nat.le_of_lt hk)]
        exact hmet
    · refine ⟨rest.length, ?_, ?_⟩
      · rw [List.length_append]
        exact Nat.lt_succ_self _
      · rw [List.take_left]
        exact hmet

variable (hhead : scope.Leaves head)
include hhead

/-- The first segment stands for what it means in the module. -/
theorem Scope.calleeOf_name : scope.calleeOf ws (.name head) = ws.global scope.moduleName head := by
  have hlocal : scope.locals.has head = false := by
    have hget := hhead.locals
    unfold Data.Table.get? at hget
    rw [Option.map_eq_none_iff] at hget
    unfold Data.Table.has
    rw [List.any_eq_false]
    exact List.find?_eq_none.mp hget
  rw [Scope.calleeOf, if_neg hhead.receiver, hlocal]
  rfl

theorem Scope.receiverOf_name :
    scope.receiverOf ws (.name head) = scope.globalReceiver ws head := by
  rw [Scope.receiverOf, if_neg hhead.receiver, hhead.locals]

/-- **What an expression leads to comes from what it stands for**, and has the attributes of
that unless it is a detour. -/
theorem Scope.receiverOf_path {rest : List String} {led : Option Referent}
    (h : scope.receiverOf ws (Expr.path head rest) = .ok led) :
    ∃ found, scope.calleeOf ws (Expr.path head rest) = .ok found
      ∧ ∀ name, found.any Referent.isDetour = false →
        ws.attributeOf led name = ws.attributeOf found name := by
  induction rest using List.reverseRecOn with
  | nil =>
    show ∃ found, scope.calleeOf ws (.name head) = .ok found ∧ _
    replace h : scope.receiverOf ws (.name head) = .ok led := h
    rw [Scope.receiverOf_name hhead] at h
    rw [Scope.calleeOf_name hhead]
    cases hglobal : ws.global scope.moduleName head with
    | error e => rw [Scope.globalReceiver, hglobal] at h; cases h
    | ok found =>
      refine ⟨found, rfl, fun name hfound => ?_⟩
      cases found with
      | none => rw [Scope.globalReceiver, hglobal] at h; cases h; rfl
      | some r =>
        obtain ⟨led', hled', heq⟩ := attributeOf_globalReceiver ws name hglobal
          hfound
        cases h.symm.trans hled'
        exact heq
  | append_singleton rest last _ =>
    rw [Expr.path_concat] at h ⊢
    rw [Scope.receiverOf] at h
    rw [Scope.calleeOf]
    obtain ⟨led₀, hled₀, h⟩ := ok_of_bind h
    obtain ⟨found, hfound, h⟩ := ok_of_bind h
    refine ⟨found, ?_, fun name hdetour => ?_⟩
    · rw [hled₀]
      exact hfound
    · cases found with
      | none => cases h; rfl
      | some r =>
        obtain ⟨led', hled', heq⟩ := attributeOf_typeOf ws name hdetour
        cases h.symm.trans hled'
        exact heq

/-- **The two ways along a dotted name**: with no detour before the end they find the same, and
with one the type name finds nothing. -/
theorem foldlM_attributeOf_path {rest : List String} {found : Option Referent}
    (h : scope.calleeOf ws (Expr.path head rest) = .ok found) :
    (¬ scope.Meets ws Referent.isDetour head rest
        ∧ (ws.global scope.moduleName head >>= fun first => rest.foldlM ws.attributeOf first)
          = .ok found)
      ∨ (scope.Meets ws Referent.isDetour head rest
        ∧ (ws.global scope.moduleName head >>= fun first => rest.foldlM ws.attributeOf first)
          = .ok none) := by
  induction rest using List.reverseRecOn generalizing found with
  | nil =>
    refine Or.inl ⟨fun ⟨k, hk, _⟩ => absurd hk (Nat.not_lt_zero k), ?_⟩
    rw [← Scope.calleeOf_name hhead]
    exact (bind_pure _).trans h
  | append_singleton rest name ih =>
    rw [Expr.path_concat, Scope.calleeOf] at h
    obtain ⟨led, hled, h⟩ := ok_of_bind h
    obtain ⟨before, hbefore, hattribute⟩ := Scope.receiverOf_path hhead hled
    have hfold : (ws.global scope.moduleName head
          >>= fun first => (rest ++ [name]).foldlM ws.attributeOf first)
        = (ws.global scope.moduleName head >>= fun first => rest.foldlM ws.attributeOf first)
          >>= fun current => ws.attributeOf current name := by
      rw [bind_assoc]
      refine congrArg _ (funext fun first => ?_)
      rw [List.foldlM_append]
      exact congrArg _ (funext fun current => List.foldlM_cons.trans (bind_pure _))
    rw [hfold, Scope.meets_concat]
    have hstands : scope.standsFor? ws (Expr.path head rest) = before := by
      unfold Scope.standsFor?
      rw [hbefore]
      rfl
    rw [hstands]
    rcases ih hbefore with ⟨hnone, heq⟩ | ⟨hmet, heq⟩
    · rw [heq]
      cases hlast : before.any Referent.isDetour with
      | false =>
        refine Or.inl ⟨not_or.mpr ⟨hnone, Bool.false_ne_true⟩, ?_⟩
        rw [← h]
        exact (hattribute name hlast).symm
      | true =>
        cases before with
        | none => cases hlast
        | some r => exact Or.inr ⟨Or.inr rfl, attributeOf_of_isDetour ws name hlast⟩
    · rw [heq]
      exact Or.inr ⟨Or.inl hmet, rfl⟩

end Along

/-! ## Type names -/

/-- The type that a name with several segments means. -/
theorem typeNamed_of_segments {moduleName name head : String} {rest : List String}
    (hsegments : segments name = head :: rest) (hrest : rest ≠ []) :
    ws.typeNamed moduleName (some name)
      = (ws.global moduleName head >>= fun first => rest.foldlM ws.attributeOf first)
          >>= fun found => .ok (found.bind Referent.type?) := by
  have hname : (name.isEmpty || name = "Any") = false := by
    by_contra h
    rw [Bool.not_eq_false, Bool.or_eq_true, decide_eq_true_eq, String.isEmpty_iff] at h
    rcases h with rfl | rfl
    · have hempty : segments "" = [""] := rfl
      rw [hempty] at hsegments
      exact hrest (List.cons.inj hsegments).2.symm
    · have hany : segments "Any" = ["Any"] := by decide
      rw [hany] at hsegments
      exact hrest (List.cons.inj hsegments).2.symm
  unfold typeNamed typeNamedWith
  dsimp only
  rw [hname, hsegments, bind_assoc]
  rfl

/-- An access in a body is resolved to what it stands for. -/
theorem Scope.resolve_path {scope : Scope} {site : Site} {head : String} {rest : List String}
    (hrest : rest ≠ []) (hsite : Expr.ofNode site.node = Expr.path head rest) :
    scope.resolve ws site
      = scope.calleeOf ws (Expr.path head rest) >>= fun found =>
          .ok (found.bind Referent.symbol?) := by
  obtain ⟨object, member, hpath⟩ := Expr.path_eq_access head hrest
  unfold Scope.resolve
  rw [hsite, hpath, Scope.calleeOf]
  rfl

/-- **A dotted name that stands for a type in a body**, when it begins with a name of the
module. If no beginning of it stands for a field, for a property or for something that passes
for a module, it names the same type in the module; if one stands for a field or a property, it
names no type there; and in no case does it name another type. -/
theorem typeNamed_of_resolve (scope : Scope) (site : Site) (name head : String)
    (rest : List String) (t : TypeSymbol) (hsegments : segments name = head :: rest)
    (hrest : rest ≠ []) (hsite : Expr.ofNode site.node = Expr.path head rest)
    (hhead : scope.Leaves head) (ht : scope.resolve ws site = .ok (some (.type t))) :
    (¬ scope.Meets ws Referent.isDetour head rest →
        ws.typeNamed scope.moduleName (some name) = .ok (some t))
      ∧ (scope.Meets ws Referent.isState head rest →
        ws.typeNamed scope.moduleName (some name) = .ok none)
      ∧ (ws.typeNamed scope.moduleName (some name) = .ok (some t)
        ∨ ws.typeNamed scope.moduleName (some name) = .ok none) := by
  rw [Scope.resolve_path ws hrest hsite] at ht
  obtain ⟨found, hfound, ht⟩ := ok_of_bind ht
  have htype : found.bind Referent.type? = some t := by
    cases found with
    | none => cases ht
    | some r =>
      cases r with
      | symbol s => cases ht; rfl
      | module' ref => cases ht
  rw [typeNamed_of_segments ws hsegments hrest]
  rcases foldlM_attributeOf_path hhead hfound with ⟨hnone, heq⟩ | ⟨hmet, heq⟩
  · have hnamed := congrArg (fun r => r >>= fun found => .ok (found.bind Referent.type?)) heq
    refine ⟨fun _ => ?_, fun hstate => absurd hstate.isDetour hnone, Or.inl ?_⟩
    all_goals exact hnamed.trans (congrArg Except.ok htype)
  · have hnamed := congrArg (fun r => r >>= fun found => .ok (found.bind Referent.type?)) heq
    exact ⟨fun hnone => absurd hmet hnone, fun _ => hnamed, Or.inr hnamed⟩

/-! ## Names that go together, and names that part -/

/-- The scope of the definition under a qualified name. -/
def scopeAt? (ws : Workspace) (qualifiedName : String) : Option Scope :=
  (ws.definitions.get? qualifiedName).bind fun d => (scopeFor ws d).toOption

/-- The accesses in the definition under a qualified name that are a given dotted name. -/
def pathsAt (ws : Workspace) (qualifiedName head : String) (rest : List String) : List Site :=
  match (ws.definitions.get? qualifiedName).bind (·.body?) with
  | some body =>
    (body.descendantsOf .attributeAccess).filter fun site =>
      Expr.ofNode site.node = Expr.path head rest
  | none => []

/-- A class inside a class, used by its full name by way of the package, which has no module of
its own. -/
def warehouse : Workspace :=
  ofSources [("shop/orders.py", "import shop.orders\nclass Order:\n    class Line:\n        pass\n"
    ++ "def f():\n    shop.orders.Order.Line\n")]

/-- The segments of the name that is used. -/
def orderLine : List String := ["orders", "Order", "Line"]

theorem typeNamed_of_resolve_warehouse :
    ∃ scope ∈ warehouse.scopeAt? "shop.orders.f",
      ∃ site ∈ warehouse.pathsAt "shop.orders.f" "shop" orderLine,
        ¬ scope.Meets warehouse Referent.isDetour "shop" orderLine
          ∧ scope.resolve warehouse site
            = .ok (some (.type (classNamed warehouse "shop.orders.Order.Line")))
          ∧ warehouse.typeNamed scope.moduleName (some "shop.orders.Order.Line")
            = .ok (some (classNamed warehouse "shop.orders.Order.Line")) := by
  have hfacts : ∃ scope ∈ warehouse.scopeAt? "shop.orders.f",
      ∃ site ∈ warehouse.pathsAt "shop.orders.f" "shop" orderLine,
        scope.Leaves "shop" ∧ Expr.ofNode site.node = Expr.path "shop" orderLine
          ∧ ¬ scope.Meets warehouse Referent.isDetour "shop" orderLine
          ∧ scope.resolve warehouse site
            = .ok (some (.type (classNamed warehouse "shop.orders.Order.Line"))) := by
    decide +kernel
  obtain ⟨scope, hscope, site, hsite, hhead, hpath, hmeets, ht⟩ := hfacts
  have hlaw := typeNamed_of_resolve warehouse scope site "shop.orders.Order.Line" "shop"
    orderLine _ (by decide) (by decide) hpath hhead ht
  exact ⟨scope, hscope, site, hsite, hmeets, ht, hlaw.1 hmeets⟩

/-- A class inside the class of a field, and a name below a module of another library. -/
def shelves : Workspace :=
  ofSources [("m.py", "import os\nclass Box:\n    class Part:\n        pass\n"
    ++ "class Shelf:\n    box: Box\ndef f():\n    Shelf.box.Part\n    os.path.Walker\n")]

/-- The class of the other library. -/
def walker : TypeSymbol where
  name := "Walker"
  qualifiedName := "os.path.Walker"
  homeModule := "os.path"
  isExternal := true

/-- **Where the two ways of reading part**: both expressions stand for a type, and as type names
both name nothing. -/
theorem typeNamed_ne_resolve :
    ∃ scope ∈ shelves.scopeAt? "m.f",
      (scope.Leaves "Shelf" ∧ ∃ site ∈ shelves.pathsAt "m.f" "Shelf" ["box", "Part"],
        scope.resolve shelves site = .ok (some (.type (classNamed shelves "m.Box.Part")))
          ∧ shelves.typeNamed scope.moduleName (some "Shelf.box.Part") = .ok none)
      ∧ (scope.Leaves "os" ∧ ∃ site ∈ shelves.pathsAt "m.f" "os" ["path", "Walker"],
        scope.resolve shelves site = .ok (some (.type walker))
          ∧ shelves.typeNamed scope.moduleName (some "os.path.Walker") = .ok none) := by
  decide +kernel

end CallTree.Workspace
