import CallTree.Proofs.Gives
import CallTree.Proofs.NoiseExclusion

/-!
# Where the targets in a body come from

A body has three sorts of targets: of its invocations, of the objects it creates, and of the
calls through members of its type. However the lists of them are put together, cut short and
left out, every one of them is what some expression of the body resolves to. For the third sort
the expression is the call of an access to a member (`mem_targetsThrough`).
-/

namespace CallTree

open CallTree.Script (Step)

/-! ## Lists that may be cut -/

namespace Cut

variable {α β : Type}

theorem mem_append {a b : Cut α} {x : α} (h : x ∈ (a.append b).items) :
    x ∈ a.items ∨ x ∈ b.items := by
  cases hfault : a.fault with
  | none =>
    rw [items_append_of_none hfault] at h
    exact List.mem_append.mp h
  | some fault =>
    rw [items_append_of_fault (by rw [hfault]; rfl)] at h
    exact Or.inl h

/-- What comes of a list comes of one of its items. -/
theorem mem_each {f : α → Except Fault (List β)} {l : List α} {x : β}
    (h : x ∈ (each f l).items) : ∃ a ∈ l, ∃ items, f a = .ok items ∧ x ∈ items := by
  induction l with
  | nil => cases h
  | cons a l ih =>
    rw [each] at h
    split at h
    · cases h
    · rename_i items hitems
      rcases mem_append h with h | h
      · exact ⟨a, List.mem_cons_self, items, hitems, h⟩
      · obtain ⟨a', ha', found⟩ := ih h
        exact ⟨a', List.mem_cons_of_mem _ ha', found⟩

theorem mem_after {answer : Except Fault α} {f : α → Cut β} {x : β}
    (h : x ∈ (after answer f).items) : ∃ a, answer = .ok a ∧ x ∈ (f a).items := by
  cases answer with
  | error fault => cases h
  | ok a => exact ⟨a, rfl, h⟩

end Cut

variable {Body Scope Expr : Type} {model : CodeModel Body Scope Expr} {body : Body} {scope : Scope}

/-! ## Calls through members -/

namespace Dependency

/-- **A call through a member**: an access in the body, the call of it, and the method that the
call is resolved to. -/
def CalledThrough (model : CodeModel Body Scope Expr) (body : Body) (scope : Scope)
    (m : MethodSymbol) : Prop :=
  ∃ accesses, model.occurrences body .memberAccess = .ok accesses ∧ ∃ access ∈ accesses,
    ∃ call, model.invocation access = .ok (some call)
      ∧ model.resolve scope call = .ok (some (.method m))

/-- One access says of a call through it what the call is resolved to. -/
theorem resolve_of_mem_callThrough {member : Member} {access : Expr} {found : List Finding}
    (h : callThrough model scope member access = .ok found) {u : Usage} (hu : .usage u ∈ found)
    {m : MethodSymbol} (hm : u.invoked = some m) :
    ∃ call, model.invocation access = .ok (some call)
      ∧ model.resolve scope call = .ok (some (.method m)) := by
  unfold callThrough at h
  obtain ⟨receiver, -, h⟩ := ok_of_bind h
  split at h
  · obtain ⟨resolved, -, h⟩ := ok_of_bind h
    split at h
    · cases h
      cases hu
    · obtain ⟨call, hcall, h⟩ := ok_of_bind h
      split at h
      · obtain ⟨target, htarget, h⟩ := ok_of_bind h
        split at h
        · cases h
          cases List.mem_singleton.mp hu
          cases hm
          exact ⟨_, hcall, htarget⟩
        · cases h
          cases List.mem_singleton.mp hu
      · cases h
        cases hu
  · cases h
    cases hu

theorem mem_findingsOf {refs : List Symbol} {accesses : List Expr} {through : Bool}
    {member : Member} {u : Usage}
    (hu : .usage u ∈ (findingsOf model scope refs accesses through member).items)
    {m : MethodSymbol} (hm : u.invoked = some m) :
    ∃ access ∈ accesses, ∃ call, model.invocation access = .ok (some call)
      ∧ model.resolve scope call = .ok (some (.method m)) := by
  unfold findingsOf at hu
  split at hu
  · rcases Cut.mem_append hu with hu | hu
    · cases List.mem_singleton.mp hu
      cases hm
    · split at hu
      · obtain ⟨access, haccess, found, hfound, hu⟩ := Cut.mem_each hu
        exact ⟨access, haccess, resolve_of_mem_callThrough hfound hu hm⟩
      · cases hu
  · cases hu

theorem mem_findingsOfAll {refs : List Symbol} {accesses : List Expr} {through : Bool}
    {members : List Member} {u : Usage}
    (hu : .usage u ∈ (findingsOfAll model scope refs accesses through members).items)
    {m : MethodSymbol} (hm : u.invoked = some m) :
    ∃ access ∈ accesses, ∃ call, model.invocation access = .ok (some call)
      ∧ model.resolve scope call = .ok (some (.method m)) := by
  induction members with
  | nil => cases hu
  | cons member members ih =>
    rw [findingsOfAll] at hu
    rcases Cut.mem_append hu with hu | hu
    · exact mem_findingsOf hu hm
    · exact ih hu

/-- **What is found to be called through a member is so called.** -/
theorem calledThrough_of_mem_findings {throughProperties : Bool} {u : Usage}
    (hu : .usage u ∈ (findings model throughProperties body scope).items) {m : MethodSymbol}
    (hm : u.invoked = some m) : CalledThrough model body scope m := by
  unfold findings at hu
  split at hu
  · cases hu
  · obtain ⟨symbols, -, hu⟩ := Cut.mem_after hu
    dsimp only at hu
    split at hu
    · cases hu
    · obtain ⟨refs, -, hu⟩ := Cut.mem_after hu
      obtain ⟨accesses, haccesses, hu⟩ := Cut.mem_after hu
      refine ⟨accesses, haccesses, ?_⟩
      rcases Cut.mem_append hu with hu | hu
      · exact mem_findingsOfAll hu hm
      · exact mem_findingsOfAll hu hm

end Dependency

/-! ## Targets -/

namespace CodeModel

/-- The targets of expressions of a kind are what these are resolved to. -/
theorem mem_targetsAmong {kind : SyntaxKind} {found : EdgeKind} {t : Target}
    (h : t ∈ (model.targetsAmong kind found body scope).items) :
    t.1 = found ∧ ∃ es, model.occurrences body kind = .ok es
      ∧ ∃ e ∈ es, model.resolve scope e = .ok (some (.method t.2)) := by
  unfold targetsAmong at h
  obtain ⟨es, hes, h⟩ := Cut.mem_after h
  obtain ⟨e, he, items, hitems, h⟩ := Cut.mem_each h
  cases hresolved : model.resolve scope e with
  | error fault => rw [hresolved] at hitems; cases hitems
  | ok s =>
    rw [hresolved] at hitems
    cases hitems
    obtain ⟨m, hm, rfl⟩ := List.mem_map.mp h
    obtain ⟨s', rfl, hs'⟩ := Option.bind_eq_some_iff.mp (Option.mem_toList.mp hm)
    cases s' with
    | method m' =>
      cases hs'
      exact ⟨rfl, es, hes, e, he, hresolved⟩
    | type _ => cases hs'
    | field _ => cases hs'
    | property _ => cases hs'

/-- The targets of calls through members. -/
theorem mem_targetsThrough {throughProperties : Bool} {t : Target}
    (h : t ∈ (model.targetsThrough throughProperties body scope).items) :
    t.1 = .dependencyInvocation ∧ Dependency.CalledThrough model body scope t.2 := by
  unfold targetsThrough Dependency.usages at h
  split at h
  · cases h
  · rename_i usages husages
    split at husages
    · cases husages
    · cases husages
      obtain ⟨m, hm, rfl⟩ := List.mem_map.mp h
      obtain ⟨u, hu, hinvoked⟩ := List.mem_filterMap.mp hm
      obtain ⟨finding, hfinding, hfound⟩ := List.mem_filterMap.mp hu
      cases finding with
      | usage u' =>
        cases hfound
        exact ⟨rfl, Dependency.calledThrough_of_mem_findings hfinding hinvoked⟩
      | unresolved member => cases hfound

/-- **Every target is what some expression is resolved to**, in the body of the method. -/
theorem mem_targets {throughProperties : Bool} {m : MethodSymbol} {t : Target}
    (h : t ∈ model.targets throughProperties m) :
    ∃ body scope, model.definition m = .ok (some body) ∧ model.scope body = .ok (some scope)
      ∧ ∃ e, model.resolve scope e = .ok (some (.method t.2)) := by
  unfold targets at h
  split at h
  · rename_i body hbody
    split at h
    · rename_i scope hscope
      refine ⟨body, scope, hbody, hscope, ?_⟩
      rcases Cut.mem_append h with h | h
      · obtain ⟨-, es, -, e, -, he⟩ := mem_targetsAmong h
        exact ⟨e, he⟩
      · rcases Cut.mem_append h with h | h
        · obtain ⟨-, es, -, e, -, he⟩ := mem_targetsAmong h
          exact ⟨e, he⟩
        · obtain ⟨-, accesses, -, access, -, call, -, hcall⟩ := mem_targetsThrough h
          exact ⟨call, hcall⟩
    · cases h
  · cases h

end CodeModel

/-! ## Calls -/

/-- The methods that some steps follow are those of their calls. -/
theorem Script.calleesOf_eq (steps : List Step) :
    Script.calleesOf steps = (Script.callsOf steps).map (·.2) := by
  unfold Script.calleesOf Script.callsOf
  rw [List.map_filterMap]
  refine congrFun (congrArg List.filterMap (funext fun step => ?_)) steps
  cases step <;> rfl

/-- **What a walk follows was resolved**: a method leads to what expressions of its body are
resolved to. -/
theorem Walk.Plan.Follows.resolved {noise : Noise} {options : Walk.Options} {calledOff : Nat → Bool}
    {m callee : MethodSymbol}
    (h : (Walk.Plan.ofModel model noise options calledOff).Follows m callee) :
    ∃ body scope, model.definition m = .ok (some body) ∧ model.scope body = .ok (some scope)
      ∧ ∃ e, model.resolve scope e = .ok (some (.method callee)) := by
  have hcallee : callee ∈ Script.calleesOf
      (Script.ofMethod model noise options.unifyPropertyDependencies m).steps := h
  rw [Script.calleesOf_eq] at hcallee
  obtain ⟨t, ht, rfl⟩ := List.mem_map.mp hcallee
  have hcalls := Script.calls_ofMethod model noise options.unifyPropertyDependencies m
  have hkept : t ∈ noise.kept (model.targets options.unifyPropertyDependencies m) := hcalls ▸ ht
  exact CodeModel.mem_targets (List.mem_filter.mp hkept).1

end CallTree
