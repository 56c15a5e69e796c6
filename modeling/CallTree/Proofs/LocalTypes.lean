import CallTree.Proofs.Parameters

/-!
# The types of local names

The local names of a body are its parameters, the receiver aside, and the names that it assigns to.
Their types are found one after the other. A parameter has the type that it is annotated with, and
an assignment offers the type of its annotation or else that of the call on its right. What is
called there may itself be a local name or belong to one, so what an assignment offers depends on
what was bound before it (`Definition.scopeAfter`).

A name has the first type that is offered to it, if there is one at all, and no assignment takes it
away again (`first_typed_binding_stays`). What carries the proof is that one more offer does to the
table (`Scope.get?_offer`) what one more item does to the first known type of a list
(`settle_concat`), so that the table says at every moment what the offers so far come to
(`Definition.settles_scopeAfter`).
-/

namespace CallTree.Workspace

open CallTree.Data (Table)
open CallTree.Syntax (Source Node Site)

/-! ## The first type that is known -/

/-- A name with the type that was found for it, if one was. -/
abbrev Binding := String × Option TypeSymbol

/-- The types that bindings find for a name, one after the other. -/
def typesFor (x : String) (bindings : List Binding) : List (Option TypeSymbol) :=
  (bindings.filter (·.1 = x)).map (·.2)

/-- **What is offered to a name**: first the type of its parameter, which is the last one should
several parameters have the name, and then those of its assignments. -/
def offers (hinted assigned : List Binding) (x : String) : List (Option TypeSymbol) :=
  (typesFor x hinted).getLast?.toList ++ typesFor x assigned

/-- **What is known of a name** after some offers: nothing if there were none, or else the first
type among them. -/
def settle (offered : List (Option TypeSymbol)) : Option (Option TypeSymbol) :=
  if offered.isEmpty then none else some (offered.findSome? id)

theorem settle_toList (known : Option (Option TypeSymbol)) : settle known.toList = known := by
  rcases known with _ | _ | t <;> rfl

theorem join_settle (offered : List (Option TypeSymbol)) :
    (settle offered).join = offered.findSome? id := by
  cases offered <;> rfl

/-- One more offer counts if no type was known before. -/
theorem settle_concat (offered : List (Option TypeSymbol)) (found : Option TypeSymbol) :
    settle (offered ++ [found]) = some ((settle offered).join.or found) := by
  rw [join_settle, settle, if_neg (by simp), List.findSome?_append]
  cases found <;> rfl

theorem settle_of_isSome {offered : List (Option TypeSymbol)}
    (h : (settle offered).isSome = true) : settle offered = some (offered.findSome? id) := by
  cases offered with
  | nil => cases h
  | cons first others => rfl

theorem typesFor_append (x : String) (bindings more : List Binding) :
    typesFor x (bindings ++ more) = typesFor x bindings ++ typesFor x more := by
  rw [typesFor, List.filter_append, List.map_append]
  rfl

theorem offers_nil (hinted : List Binding) (x : String) :
    offers hinted [] x = (typesFor x hinted).getLast?.toList :=
  List.append_nil _

theorem offers_concat (hinted assigned : List Binding) (x : String) (b : Binding) :
    offers hinted (assigned ++ [b]) x
      = if x = b.1 then offers hinted assigned x ++ [b.2] else offers hinted assigned x := by
  unfold offers
  rw [typesFor_append]
  by_cases hx : x = b.1
  · rw [if_pos hx, List.append_assoc]
    simp [typesFor, hx]
  · rw [if_neg hx]
    simp [typesFor, Ne.symm hx]

/-! ## One binding -/

namespace Scope

variable {ws : Workspace} {scope : Scope}

/-- The scope after a type was offered to a name: if none is known, it has that type. -/
def offer (scope : Scope) (x : String) (found : Option TypeSymbol) : Scope :=
  if (scope.locals.get? x).join.isSome then scope
  else { scope with locals := scope.locals.put x found }

/-- **One offer.** -/
theorem get?_offer (scope : Scope) (x y : String) (found : Option TypeSymbol) :
    (scope.offer x found).locals.get? y
      = if y = x then some ((scope.locals.get? y).join.or found) else scope.locals.get? y := by
  unfold offer
  by_cases hx : y = x
  · rw [if_pos hx, hx]
    rcases hknown : scope.locals.get? x with _ | _ | t
    · exact Table.get?_put_self _ _ _
    · exact Table.get?_put_self _ _ _
    · exact hknown
  · rw [if_neg hx]
    split
    · rfl
    · exact Table.get?_put_of_ne _ _ hx

theorem bindAssignment_eq_map_offer (src : Source) {n : Node} {x : String}
    (hx : (n.child? .left).bind Node.identifier? = some x) :
    scope.bindAssignment ws src n
      = (scope.assignedType ws src n).map fun found => scope.offer x found := by
  unfold bindAssignment offer
  rw [hx]
  dsimp only
  cases scope.assignedType ws src n with
  | error fault => rfl
  | ok found =>
    rcases scope.locals.get? x with _ | _ | t <;> rfl

end Scope

namespace Definition

variable (ws : Workspace) (d : Definition)

/-! ## One binding after the other -/

/-- The parameters of a definition without the receiver, which a method has unless it is static. -/
def freeParameters : Except Fault (List Syntax.Parameter) := do
  let parameters ← Scope.readable (d.file.source.parametersOf d.site.node)
  let decorators ← Scope.readable (d.file.source.decorators d.site)
  return if d.enclosing.isSome && !decoratedAs decorators "staticmethod" then parameters.tail
    else parameters

/-- The type that a parameter is annotated with. -/
def hintedType (p : Syntax.Parameter) : Except Fault (Option TypeSymbol) := do
  let typeName ← p.typeHint.elim (pure none) fun hint =>
    Scope.readable (d.file.source.typeName hint)
  ws.typeNamed d.file.moduleName typeName

/-- The assignments of the body that assign to a plain name, with these names, in the order of the
source. -/
def assignments : List (String × Node) :=
  ((d.body?.map (·.descendantsOf .assignment)).getD []).filterMap fun a =>
    ((a.node.child? .left).bind Node.identifier?).map fun x => (x, a.node)

/-- The scope in which the parameters are bound. -/
def parameterScope : Except Fault Scope := do
  let start ← d.bareScope
  start.2.foldlM (fun scope p => scope.bindParameter ws d.file.source p) start.1

/-- **The scope after some assignments**: the parameters are bound, and the first `n` names that are
assigned to. -/
def scopeAfter (n : Nat) : Except Fault Scope := do
  let start ← d.parameterScope ws
  (d.assignments.take n).foldlM (fun scope a => scope.bindAssignment ws d.file.source a.2) start

/-- The binding that a parameter makes. -/
def Hints (p : Syntax.Parameter) (b : Binding) : Prop :=
  b.1 = p.name ∧ d.hintedType ws p = .ok b.2

/-- **The binding that an assignment makes**, given with its number: what it offers depends on the
scope after those before it. -/
def Assigns (a : (String × Node) × Nat) (b : Binding) : Prop :=
  b.1 = a.1.1 ∧ ∃ before, d.scopeAfter ws a.2 = .ok before
    ∧ before.assignedType ws d.file.source a.1.2 = .ok b.2

/-- **A look-up that fails** while the names of a definition are bound. -/
inductive LookupFails (fault : Fault) : Prop
  | parameters (h : d.freeParameters = .error fault)
  | hint {ps : List Syntax.Parameter} (hps : d.freeParameters = .ok ps) {p : Syntax.Parameter}
    (hp : p ∈ ps) (h : d.hintedType ws p = .error fault)
  | assignment {n : Nat} {a : String × Node} (ha : d.assignments[n]? = some a) {before : Scope}
    (hbefore : d.scopeAfter ws n = .ok before)
    (h : before.assignedType ws d.file.source a.2 = .error fault)

variable {ws d}

/-- The parameters that are left to be bound are all but the receiver. -/
theorem freeParameters_eq : d.freeParameters = d.bareScope.map (·.2) := by
  unfold freeParameters bareScope
  cases Scope.readable (d.file.source.parametersOf d.site.node) with
  | error fault => rfl
  | ok parameters =>
    cases Scope.readable (d.file.source.decorators d.site) with
    | error fault => rfl
    | ok decorators =>
      cases parameters with
      | nil => exact congrArg Except.ok (ite_self _)
      | cons first others =>
        by_cases hreceiver : (d.enclosing.isSome && !decoratedAs decorators "staticmethod") = true
        · simp [bind, Except.bind, pure, Except.pure, Except.map, hreceiver]
        · simp [bind, Except.bind, pure, Except.pure, Except.map, hreceiver]

theorem freeParameters_of_bareScope {bare : Scope × List Syntax.Parameter}
    (h : d.bareScope = .ok bare) : d.freeParameters = .ok bare.2 := by
  rw [freeParameters_eq, h]
  rfl

/-- Assignments to anything but a plain name bind nothing. -/
theorem foldlM_bindAssignment (src : Source) (sites : List Site) (scope : Scope) :
    sites.foldlM (fun scope site => scope.bindAssignment ws src site.node) scope
      = (sites.filterMap fun a => ((a.node.child? .left).bind Node.identifier?).map
          fun x => (x, a.node)).foldlM (fun scope a => scope.bindAssignment ws src a.2) scope := by
  induction sites generalizing scope with
  | nil => rfl
  | cons site sites ih =>
    rw [List.foldlM_cons]
    cases hx : (site.node.child? .left).bind Node.identifier? with
    | none =>
      have hnone : scope.bindAssignment ws src site.node = .ok scope := by
        unfold Scope.bindAssignment
        rw [hx]
      rw [List.filterMap_cons_none (by rw [hx]; rfl), hnone]
      exact ih scope
    | some x =>
      rw [List.filterMap_cons_some (by rw [hx]; rfl), List.foldlM_cons]
      exact bind_congr ih

/-- **The scope of a definition** is the one after all of its assignments. -/
theorem scopeAfter_length : d.scopeAfter ws d.assignments.length = scopeFor ws d := by
  unfold scopeFor scopeAfter parameterScope
  rw [List.take_length]
  cases d.bareScope with
  | error fault => rfl
  | ok start =>
    show start.2.foldlM (fun scope p => scope.bindParameter ws d.file.source p) start.1 >>= _
      = start.2.foldlM (fun scope p => scope.bindParameter ws d.file.source p) start.1 >>= _
    refine bind_congr fun scope => ?_
    unfold assignments
    cases d.body? with
    | none => rfl
    | some body => exact (foldlM_bindAssignment _ _ scope).symm

theorem name_of_mem_assignments {a : String × Node} (h : a ∈ d.assignments) :
    (a.2.child? .left).bind Node.identifier? = some a.1 := by
  obtain ⟨site, -, hsite⟩ := List.mem_filterMap.mp h
  obtain ⟨x, hx, rfl⟩ := Option.map_eq_some_iff.mp hsite
  exact hx

/-- **One more assignment**, if there is one: its type is found in the scope before it, and offered
to its name. -/
theorem scopeAfter_succ_cases {n : Nat} {now : Scope} (h : d.scopeAfter ws (n + 1) = .ok now) :
    (d.assignments[n]? = none ∧ d.scopeAfter ws n = .ok now)
      ∨ ∃ a before found, d.assignments[n]? = some a ∧ d.scopeAfter ws n = .ok before
        ∧ before.assignedType ws d.file.source a.2 = .ok found ∧ now = before.offer a.1 found := by
  unfold scopeAfter at h ⊢
  obtain ⟨start, hstart, h⟩ := ok_of_bind h
  rw [hstart]
  rw [List.take_add_one, List.foldlM_append] at h
  obtain ⟨before, hbefore, h⟩ := ok_of_bind h
  cases ha : d.assignments[n]? with
  | none =>
    rw [ha] at h
    cases h
    exact .inl ⟨rfl, hbefore⟩
  | some a =>
    rw [ha] at h
    obtain ⟨next, hnext, h⟩ := ok_of_bind h
    cases h
    have hname := name_of_mem_assignments (List.mem_of_getElem? ha)
    dsimp only at hnext
    rw [Scope.bindAssignment_eq_map_offer _ hname] at hnext
    obtain ⟨found, hfound, rfl⟩ := ok_of_map hnext
    exact .inr ⟨a, before, found, rfl, hbefore, hfound, rfl⟩

/-! ## What is bound -/

theorem bindParameter_eq_map_put {scope : Scope} (hmodule : scope.moduleName = d.file.moduleName)
    (p : Syntax.Parameter) :
    scope.bindParameter ws d.file.source p = (d.hintedType ws p).map fun found =>
      { scope with locals := scope.locals.put p.name found } := by
  unfold Scope.bindParameter hintedType
  rw [hmodule]
  cases p.typeHint with
  | none =>
    simp only [Option.elim_none, pure_bind]
    cases ws.typeNamed d.file.moduleName none <;> rfl
  | some hint =>
    simp only [Option.elim_some]
    cases Scope.readable (d.file.source.typeName hint) with
    | error fault => rfl
    | ok typeName =>
      show ws.typeNamed d.file.moduleName typeName >>= _
        = (ws.typeNamed d.file.moduleName typeName).map _
      cases ws.typeNamed d.file.moduleName typeName <;> rfl

theorem getLast?_typesFor_cons (x : String) (b : Binding) (bindings : List Binding) :
    (typesFor x (b :: bindings)).getLast?
      = (typesFor x bindings).getLast?.or (if x = b.1 then some b.2 else none) := by
  have happend := typesFor_append x [b] bindings
  rw [List.singleton_append] at happend
  rw [happend, List.getLast?_append]
  by_cases hx : x = b.1
  · simp [typesFor, hx]
  · simp [typesFor, hx, Ne.symm hx]

/-- The parameters are bound one after the other, and the last one of a name counts. -/
theorem hints_of_foldlM {ps : List Syntax.Parameter} {scope bound : Scope}
    (h : ps.foldlM (fun scope p => scope.bindParameter ws d.file.source p) scope = .ok bound)
    (hmodule : scope.moduleName = d.file.moduleName) :
    ∃ hinted, List.Forall₂ (d.Hints ws) ps hinted ∧ ∀ x,
      bound.locals.get? x = (typesFor x hinted).getLast?.or (scope.locals.get? x) := by
  induction ps generalizing scope with
  | nil =>
    cases h
    exact ⟨[], .nil, fun x => rfl⟩
  | cons p ps ih =>
    rw [List.foldlM_cons, bindParameter_eq_map_put hmodule] at h
    obtain ⟨next, hnext, h⟩ := ok_of_bind h
    obtain ⟨found, hfound, rfl⟩ := ok_of_map hnext
    obtain ⟨hinted, hhinted, hbound⟩ := ih h hmodule
    refine ⟨(p.name, found) :: hinted, .cons ⟨rfl, hfound⟩ hhinted, fun x => ?_⟩
    rw [hbound, getLast?_typesFor_cons, Option.or_assoc]
    refine congrArg _ ?_
    by_cases hx : x = p.name
    · rw [if_pos hx, hx]
      exact Table.get?_put_self _ _ _
    · rw [if_neg hx]
      exact Table.get?_put_of_ne _ _ hx

/-- **The parameters of a definition** have the types that they are annotated with. -/
theorem hints_of_parameterScope {start : Scope} (h : d.parameterScope ws = .ok start) :
    ∃ ps hinted, d.freeParameters = .ok ps ∧ List.Forall₂ (d.Hints ws) ps hinted
      ∧ ∀ x, start.locals.get? x = (typesFor x hinted).getLast? := by
  obtain ⟨bare, hbare, h⟩ := ok_of_bind h
  have hstarts := d.startsAs_bareScope _ hbare
  obtain ⟨hinted, hhinted, hlocals⟩ := hints_of_foldlM h hstarts.moduleName
  refine ⟨bare.2, hinted, freeParameters_of_bareScope hbare, hhinted, fun x => ?_⟩
  rw [hlocals, hstarts.locals]
  exact Option.or_none

/-- **What is known after some assignments**, by the bindings that were made. -/
theorem settles_scopeAfter {hinted : List Binding} {start : Scope}
    (hstart : d.parameterScope ws = .ok start)
    (hhinted : ∀ x, start.locals.get? x = (typesFor x hinted).getLast?) (n : Nat) {now : Scope}
    (h : d.scopeAfter ws n = .ok now) :
    ∃ assigned, List.Forall₂ (d.Assigns ws) (d.assignments.zipIdx.take n) assigned
      ∧ ∀ x, now.locals.get? x = settle (offers hinted assigned x) := by
  induction n generalizing now with
  | zero =>
    refine ⟨[], .nil, fun x => ?_⟩
    unfold scopeAfter at h
    rw [hstart] at h
    cases h
    rw [hhinted, offers_nil, settle_toList]
  | succ n ih =>
    rcases scopeAfter_succ_cases h with ⟨ha, h⟩ | ⟨a, before, found, ha, hbefore, hfound, rfl⟩
    · -- there is no assignment left
      obtain ⟨assigned, hassigned, hnow⟩ := ih h
      refine ⟨assigned, ?_, hnow⟩
      rw [List.take_add_one, List.getElem?_zipIdx, ha]
      simpa using hassigned
    · -- the offer is the last one so far, and it is made to one name only
      obtain ⟨assigned, hassigned, hknown⟩ := ih hbefore
      refine ⟨assigned ++ [(a.1, found)], ?_, fun x => ?_⟩
      · rw [List.take_add_one, List.getElem?_zipIdx, ha, Nat.zero_add]
        exact List.rel_append hassigned (.cons ⟨rfl, before, hbefore, hfound⟩ .nil)
      · rw [Scope.get?_offer, offers_concat, hknown]
        by_cases hx : x = a.1
        · rw [if_pos hx, if_pos hx, settle_concat]
        · rw [if_neg hx, if_neg hx]

/-- **A type that is known stays** through the assignments that follow. -/
theorem get?_scopeAfter_of_le {n m : Nat} (hle : n ≤ m) {before after : Scope}
    (hbefore : d.scopeAfter ws n = .ok before) (hafter : d.scopeAfter ws m = .ok after)
    {x : String} {t : TypeSymbol} (hx : before.locals.get? x = some (some t)) :
    after.locals.get? x = some (some t) := by
  induction hle generalizing after with
  | refl =>
    cases hbefore.symm.trans hafter
    exact hx
  | step _ ih =>
    rcases scopeAfter_succ_cases hafter with ⟨-, hafter⟩ | ⟨a, mid, found, -, hmid, -, rfl⟩
    · exact ih hafter
    · rw [Scope.get?_offer, ih hmid]
      exact ite_self _

/-- **The names that are bound** are those of the parameters and of the assignments. -/
theorem has_scopeFor_iff {scope : Scope} (h : scopeFor ws d = .ok scope)
    {ps : List Syntax.Parameter} (hps : d.freeParameters = .ok ps) {x : String} :
    scope.locals.has x = true ↔ x ∈ ps.map (·.name) ∨ x ∈ d.assignedNames := by
  obtain ⟨bare, parameters, hbare, hextends⟩ := extends_scopeFor ws d scope h
  obtain rfl : ps = parameters :=
    Except.ok.inj (hps.symm.trans (freeParameters_of_bareScope hbare))
  have hempty : bare.locals.has x = false := by
    rw [(d.startsAs_bareScope _ hbare).locals]
    rfl
  rw [hextends.locals, hempty, List.mem_append]
  simp

/-- Where the names of a definition cannot be bound, a look-up has failed. -/
theorem lookupFails_of_error {fault : Fault} (h : scopeFor ws d = .error fault) :
    d.LookupFails ws fault := by
  rw [← scopeAfter_length] at h
  rcases error_of_bind h with h | ⟨start, hstart, h⟩
  · rcases error_of_bind h with hbare | ⟨bare, hbare, h⟩
    · refine .parameters ?_
      rw [freeParameters_eq, hbare]
      rfl
    · obtain ⟨n, p, before, hp, hbefore, h⟩ := error_of_foldlM h
      -- what is bound before a parameter does not matter for the look-up of its type
      have hmodule : before.moduleName = d.file.moduleName :=
        (Scope.Extends.foldlM (Scope.extends_bindParameter _) _ _ _ hbefore).moduleName.trans
          (d.startsAs_bareScope _ hbare).moduleName
      rw [bindParameter_eq_map_put hmodule] at h
      exact .hint (freeParameters_of_bareScope hbare) (List.mem_of_getElem? hp) (error_of_map h)
  · rw [List.take_length] at h
    obtain ⟨n, a, before, ha, hbefore, h⟩ := error_of_foldlM h
    have hname := name_of_mem_assignments (List.mem_of_getElem? ha)
    rw [Scope.bindAssignment_eq_map_offer _ hname] at h
    refine .assignment ha ?_ (error_of_map h)
    rw [scopeAfter, hstart]
    exact hbefore

end Definition

/-- **The first type that is found for a local name stays.** Unless a look-up fails, the local names
of a definition are its parameters, the receiver aside, and the names that its body assigns to, and
the type of each is the first one that is known among those that are offered to it: that of its
parameter, and then those of its assignments, each of them found with what was bound before. Once
a name has a type, no assignment that follows changes it. -/
theorem first_typed_binding_stays (ws : Workspace) (d : Definition) :
    ((∃ scope ps hinted assigned, scopeFor ws d = .ok scope
          ∧ d.freeParameters = .ok ps ∧ List.Forall₂ (d.Hints ws) ps hinted
          ∧ List.Forall₂ (d.Assigns ws) d.assignments.zipIdx assigned
          ∧ (∀ x, scope.locals.has x = true
            ↔ x ∈ ps.map (·.name) ∨ x ∈ d.assignedNames)
          ∧ ∀ x, scope.locals.has x = true →
            scope.locals.get? x = some ((offers hinted assigned x).findSome? id))
        ∨ ∃ fault, scopeFor ws d = .error fault ∧ d.LookupFails ws fault)
      ∧ (∀ n m before after x t, n ≤ m → d.scopeAfter ws n = .ok before →
        d.scopeAfter ws m = .ok after → before.locals.get? x = some (some t) →
        after.locals.get? x = some (some t))
      ∧ d.scopeAfter ws d.assignments.length = scopeFor ws d := by
  refine ⟨?_, fun n m before after x t hle hbefore hafter hx =>
    Definition.get?_scopeAfter_of_le hle hbefore hafter hx, Definition.scopeAfter_length⟩
  cases hscope : scopeFor ws d with
  | error fault => exact .inr ⟨fault, rfl, Definition.lookupFails_of_error hscope⟩
  | ok scope =>
    have hafter := Definition.scopeAfter_length.trans hscope
    obtain ⟨start, hstart, -⟩ := ok_of_bind hafter
    obtain ⟨ps, hinted, hps, hhinted, hlocals⟩ := Definition.hints_of_parameterScope hstart
    obtain ⟨assigned, hassigned, hknown⟩ := Definition.settles_scopeAfter hstart hlocals _ hafter
    rw [List.take_of_length_le (by simp)] at hassigned
    refine .inl ⟨scope, ps, hinted, assigned, rfl, hps, hhinted, hassigned, fun x => ?_,
      fun x hx => ?_⟩
    · rw [Definition.has_scopeFor_iff hscope hps]
    · rw [Table.has_eq_isSome, hknown] at hx
      rw [hknown, settle_of_isSome hx]

/-- A body in which the order of the assignments matters: a name without a type gets one later, a
parameter is assigned to, and a class is called before and after a local name hides it. -/
def hidingSources : List (String × String) :=
  [("m.py", "from q import A, B\n\n\ndef f(x, y: A):\n    x = y\n    x = B()\n    y = B()\n"
    ++ "    A = A()\n    z = A()\n")]

/-- The names have the types that they are offered first, and nothing is known of the last one. -/
theorem first_typed_binding_stays_hiding :
    ∃ ws d scope hinted assigned, ws = ofSources hidingSources ∧ scopeFor ws d = .ok scope
      ∧ List.Forall₂ (d.Assigns ws) d.assignments.zipIdx assigned
      ∧ (∀ x ∈ ["x", "y", "A", "z"],
        scope.locals.get? x = some ((offers hinted assigned x).findSome? id))
      ∧ ["x", "y", "A", "z"].map
          (fun x => ((offers hinted assigned x).findSome? id).map (·.qualifiedName))
        = [some "q.B", some "q.A", some "q.A", none] := by
  have hfacts : ∃ ws ∈ [ofSources hidingSources], ∃ d ∈ ws.definitions.get? "m.f",
      ∃ scope ∈ (scopeFor ws d).toOption,
        (∀ x ∈ ["x", "y", "A", "z"], scope.locals.has x = true)
        ∧ ["x", "y", "A", "z"].map
            (fun x => (scope.locals.get? x).join.map (·.qualifiedName))
          = [some "q.B", some "q.A", some "q.A", none] := by
    decide +kernel
  obtain ⟨ws, hws, d, -, scope, hscope, hhas, htypes⟩ := hfacts
  have hscope := ok_of_toOption hscope
  obtain ⟨scope', ps, hinted, assigned, hscope', -, -, hassigned, -, hget⟩ | ⟨fault, hfault, -⟩ :=
    (first_typed_binding_stays ws d).1
  · obtain rfl := Except.ok.inj (hscope.symm.trans hscope')
    have hget x hx := hget x (hhas x hx)
    refine ⟨ws, d, scope, hinted, assigned, List.mem_singleton.mp hws, hscope, hassigned, hget, ?_⟩
    rw [← htypes]
    refine List.map_congr_left fun x hx => ?_
    rw [hget x hx]
    rfl
  · cases hscope.symm.trans hfault

end CallTree.Workspace
