import CallTree.Walk.Outcome
import Mathlib.Logic.Relation

/-!
# How a tree grows

A visit ends in one of four ways: the walk is called off, the key is guarded, the
method lies at the cap, or its script is gone through. A step of a script is a
remark or a call, and a call is the last thing that happens when the walk is
called off below it. That is all that a walk can do, and it is said here once:
`grow` and `growBranches` have one equation for each way, and `Plan.Invariant`
collects what a property owes for each of them so as to hold of every visit.

The two recursions are nested – a visit goes through steps, and a step makes a
visit with less room – so the property comes in two parts, one for trees and one
for branches. `Plan.Invariant.grow` does the induction, on the room that is left
and then on the steps, and every fact about whole walks is an instance of it.
-/

namespace CallTree

open CallTree.Script (Step)

/-- The method that a step follows. -/
def Script.Step.callee? : Step → Option MethodSymbol
  | .remark _ => none
  | .follow _ callee => some callee

/-- The methods that some steps follow, in order. -/
def Script.calleesOf (steps : List Step) : List MethodSymbol :=
  steps.filterMap Step.callee?

/-- **The methods that a script follows**, in order. -/
def Script.callees (s : Script) : List MethodSymbol :=
  Script.calleesOf s.steps

@[simp] theorem Script.calleesOf_nil : Script.calleesOf [] = [] := rfl

namespace Walk

/-- **What a walk follows**: a method leads to the methods of its script. -/
def Plan.Follows (plan : Plan) (m callee : MethodSymbol) : Prop :=
  callee ∈ (plan.script m).callees

/-- The keys that a method leads to, in order. -/
def Plan.calleeKeys (plan : Plan) (m : MethodSymbol) : List String :=
  (plan.script m).callees.map plan.key

/-- The key of a method that is followed is among the keys that its caller leads
to. -/
theorem Plan.Follows.mem_calleeKeys {plan : Plan} {m callee : MethodSymbol}
    (h : plan.Follows m callee) : plan.key callee ∈ plan.calleeKeys m :=
  List.mem_map_of_mem h

/-! ## Progress -/

namespace Progress

@[simp] theorem polled_visited (p : Progress) : p.polled.visited = p.visited := rfl

@[simp] theorem polled_halted (p : Progress) : p.polled.halted = p.halted := rfl

@[simp] theorem polled_polls (p : Progress) : p.polled.polls = p.polls + 1 := rfl

@[simp] theorem mark_halted (key : String) (p : Progress) : (p.mark key).halted = p.halted := by
  unfold mark
  split <;> rfl

@[simp] theorem mark_polls (key : String) (p : Progress) : (p.mark key).polls = p.polls := by
  unfold mark
  split <;> rfl

/-- Marking a key adds it to those that were visited. -/
theorem mem_visited_mark {k key : String} {p : Progress} :
    k ∈ (p.mark key).visited ↔ k ∈ p.visited ∨ k = key := by
  unfold mark
  split
  case isTrue h =>
    refine ⟨Or.inl, fun hk => hk.elim id ?_⟩
    rintro rfl
    exact List.contains_iff_mem.mp h
  case isFalse => simp

end Progress

/-- With repeated paths, the guard looks at the path and at nothing else. -/
theorem Plan.guards_of_repeats {plan : Plan} (hrepeats : plan.repeats = true)
    (path : List String) (p : Progress) (key : String) :
    plan.guards path p key = path.contains key := by
  unfold Plan.guards
  exact if_pos hrepeats

/-! ## The ways in which a visit ends -/

section Equations

variable {plan : Plan} {room : Nat} {path : List String} {m : MethodSymbol} {p : Progress}

/-- The visit at which the walk is called off. -/
theorem grow_calledOff (h : plan.calledOff p.polls = true) :
    grow plan room path m p = (.calledOff (plan.key m), { p.polled with halted := true }) := by
  unfold grow
  rw [if_pos h]

/-- The visit of a key that is guarded. -/
theorem grow_met (h : plan.calledOff p.polls = false)
    (hg : plan.guards path p (plan.key m) = true) :
    grow plan room path m p = (.met (plan.key m), p.polled) := by
  unfold grow
  simp only [h, Bool.false_eq_true, if_false]
  exact if_pos hg

/-- The visit of a method at the cap. -/
theorem grow_capped (h : plan.calledOff p.polls = false)
    (hg : plan.guards path p (plan.key m) = false) :
    grow plan 0 path m p = (.capped (plan.key m), p.polled) := by
  have hg' : plan.guards path p.polled (plan.key m) = false := hg
  unfold grow
  simp only [h, hg', Bool.false_eq_true, if_false]

/-- The visit of a method whose script is gone through. -/
theorem grow_expanded (h : plan.calledOff p.polls = false)
    (hg : plan.guards path p (plan.key m) = false) {bs : Branches} {q : Progress}
    (hbs : growBranches (grow plan room (plan.key m :: path)) (plan.script m).steps
      (p.polled.mark (plan.key m)) = (bs, q)) :
    grow plan (room + 1) path m p
      = (.expanded (plan.key m) m bs (if q.halted then none else some (plan.script m).ending),
        q) := by
  have hg' : plan.guards path p.polled (plan.key m) = false := hg
  rw [grow]
  simp only [h, hg', Bool.false_eq_true, if_false, hbs]

variable {visit : MethodSymbol → Progress → Tree × Progress} {steps : List Step}
  {kind : EdgeKind} {callee : MethodSymbol} {t : Tree} {q : Progress}

/-- A remark grows a remark, whatever comes after it. -/
theorem growBranches_remark (r : Remark) (steps : List Step) (p : Progress) :
    growBranches visit (.remark r :: steps) p
      = (.remark r (growBranches visit steps p).1, (growBranches visit steps p).2) := rfl

/-- A call below which the walk is called off is the last thing to grow. -/
theorem growBranches_stopped (h : visit callee p = (t, q)) (hq : q.halted = true) :
    growBranches visit (.follow kind callee :: steps) p = (.call kind t .none, q) := by
  rw [growBranches, h]
  exact if_pos hq

/-- After any other call the steps that are left grow. -/
theorem growBranches_followed (h : visit callee p = (t, q)) (hq : q.halted = false) :
    growBranches visit (.follow kind callee :: steps) p
      = (.call kind t (growBranches visit steps q).1, (growBranches visit steps q).2) := by
  rw [growBranches, h]
  simp only [hq, Bool.false_eq_true, if_false]

end Equations

/-! ## What holds of every visit -/

/-- **What a property owes** so as to hold of every visit: one case for each way in
which a visit ends, and one for each way in which a step is taken. `V` speaks of
the tree of a method and `B` of the branches of some steps; both see the progress
before and after. -/
structure Plan.Invariant (plan : Plan)
    (V : Nat → List String → MethodSymbol → Progress → Tree → Progress → Prop)
    (B : Nat → List String → List Step → Progress → Branches → Progress → Prop) : Prop where
  calledOff : ∀ {room path m p}, plan.calledOff p.polls = true →
    V room path m p (.calledOff (plan.key m)) { p.polled with halted := true }
  met : ∀ {room path m p}, plan.calledOff p.polls = false →
    plan.guards path p (plan.key m) = true →
    V room path m p (.met (plan.key m)) p.polled
  capped : ∀ {path m p}, plan.calledOff p.polls = false →
    plan.guards path p (plan.key m) = false →
    V 0 path m p (.capped (plan.key m)) p.polled
  expanded : ∀ {room path m p bs q}, plan.calledOff p.polls = false →
    plan.guards path p (plan.key m) = false →
    growBranches (grow plan room (plan.key m :: path)) (plan.script m).steps
      (p.polled.mark (plan.key m)) = (bs, q) →
    B room (plan.key m :: path) (plan.script m).steps (p.polled.mark (plan.key m)) bs q →
    V (room + 1) path m p
      (.expanded (plan.key m) m bs (if q.halted then none else some (plan.script m).ending)) q
  done : ∀ {room path p}, B room path [] p .none p
  remark : ∀ {room path r steps p bs q}, B room path steps p bs q →
    B room path (.remark r :: steps) p (.remark r bs) q
  stopped : ∀ {room path kind callee steps p t q}, grow plan room path callee p = (t, q) →
    V room path callee p t q → q.halted = true →
    B room path (.follow kind callee :: steps) p (.call kind t .none) q
  followed : ∀ {room path kind callee steps p t q bs q'},
    grow plan room path callee p = (t, q) → V room path callee p t q → q.halted = false →
    growBranches (grow plan room path) steps q = (bs, q') → B room path steps q bs q' →
    B room path (.follow kind callee :: steps) p (.call kind t bs) q'

namespace Plan.Invariant

variable {plan : Plan} {V : Nat → List String → MethodSymbol → Progress → Tree → Progress → Prop}
  {B : Nat → List String → List Step → Progress → Branches → Progress → Prop}

/-- The steps of a script, once the visits below them are known. -/
theorem branches_of_visits (inv : plan.Invariant V B) (room : Nat) (path : List String)
    (hV : ∀ m p, V room path m p (grow plan room path m p).1 (grow plan room path m p).2)
    (steps : List Step) (p : Progress) :
    B room path steps p (growBranches (grow plan room path) steps p).1
      (growBranches (grow plan room path) steps p).2 := by
  induction steps generalizing p with
  | nil => exact inv.done
  | cons step steps ih =>
    cases step with
    | remark r => exact inv.remark (ih p)
    | follow kind callee =>
      cases hq : (grow plan room path callee p).2.halted with
      | true =>
        rw [growBranches_stopped rfl hq]
        exact inv.stopped rfl (hV callee p) hq
      | false =>
        rw [growBranches_followed rfl hq]
        exact inv.followed rfl (hV callee p) hq rfl (ih _)

/-- **An invariant holds of every visit.** -/
theorem grow (inv : plan.Invariant V B) (room : Nat) (path : List String) (m : MethodSymbol)
    (p : Progress) :
    V room path m p (Walk.grow plan room path m p).1 (Walk.grow plan room path m p).2 := by
  induction room generalizing path m p with
  | zero =>
    -- without room there are no visits below
    cases hc : plan.calledOff p.polls with
    | true => rw [grow_calledOff hc]; exact inv.calledOff hc
    | false =>
      cases hg : plan.guards path p (plan.key m) with
      | true => rw [grow_met hc hg]; exact inv.met hc hg
      | false => rw [grow_capped hc hg]; exact inv.capped hc hg
  | succ room ih =>
    cases hc : plan.calledOff p.polls with
    | true => rw [grow_calledOff hc]; exact inv.calledOff hc
    | false =>
      cases hg : plan.guards path p (plan.key m) with
      | true => rw [grow_met hc hg]; exact inv.met hc hg
      | false =>
        -- the visits below have less room, and the hypothesis holds of them on any path
        rw [grow_expanded hc hg rfl]
        exact inv.expanded hc hg rfl (inv.branches_of_visits room _ (ih _) _ _)

/-- **An invariant holds of the branches of any steps.** -/
theorem growBranches (inv : plan.Invariant V B) (room : Nat) (path : List String)
    (steps : List Step) (p : Progress) :
    B room path steps p (Walk.growBranches (Walk.grow plan room path) steps p).1
      (Walk.growBranches (Walk.grow plan room path) steps p).2 :=
  inv.branches_of_visits room path (inv.grow room path) steps p

end Plan.Invariant

/-! ## Every visit asks once -/

/-- A visit asks whether to go on, and nothing takes a question back. -/
theorem polls_invariant (plan : Plan) :
    plan.Invariant (fun _ _ _ p _ q => p.polls < q.polls)
      (fun _ _ _ p _ q => p.polls ≤ q.polls) where
  calledOff _ := Nat.lt_succ_self _
  met _ _ := Nat.lt_succ_self _
  capped _ _ := Nat.lt_succ_self _
  expanded _ _ _ hB := by
    rw [Progress.mark_polls, Progress.polled_polls] at hB
    exact hB
  done := Nat.le_refl _
  remark hB := hB
  stopped _ hV _ := Nat.le_of_lt hV
  followed _ hV _ _ hB := Nat.le_trans (Nat.le_of_lt hV) hB

/-- Going through some steps takes no question back. -/
theorem polls_le_of_growBranches {plan : Plan} {room : Nat} {path : List String}
    {steps : List Step} {p q : Progress} {bs : Branches}
    (h : growBranches (grow plan room path) steps p = (bs, q)) : p.polls ≤ q.polls := by
  have hle := (polls_invariant plan).growBranches room path steps p
  rwa [h] at hle

/-- A visit that goes through a script has asked before the script begins. -/
theorem polls_lt_of_growBranches {plan : Plan} {room : Nat} {path : List String}
    {steps : List Step} {key : String} {p q : Progress} {bs : Branches}
    (h : growBranches (grow plan room path) steps (p.polled.mark key) = (bs, q)) :
    p.polls < q.polls := by
  have hle := polls_le_of_growBranches h
  rwa [Progress.mark_polls] at hle

/-- **A walk that is not called off was told to go on**, each time that it asked. -/
theorem told_invariant (plan : Plan) :
    plan.Invariant
      (fun _ _ _ p _ q => q.halted = false →
        ∀ n, p.polls ≤ n → n < q.polls → plan.calledOff n = false)
      (fun _ _ _ p _ q => q.halted = false →
        ∀ n, p.polls ≤ n → n < q.polls → plan.calledOff n = false) where
  calledOff _ hq := by simp at hq
  met hon _ _ n hle hlt := Nat.le_antisymm (Nat.le_of_lt_succ hlt) hle ▸ hon
  capped hon _ _ n hle hlt := Nat.le_antisymm (Nat.le_of_lt_succ hlt) hle ▸ hon
  expanded {_ _ _ p _ _} hon _ _ hB hq n hle hlt := by
    rcases Nat.lt_or_eq_of_le hle with hlt' | rfl
    · refine hB hq n ?_ hlt
      rw [Progress.mark_polls, Progress.polled_polls]
      exact hlt'
    · exact hon
  done _ n hle hlt := absurd hlt (Nat.not_lt.mpr hle)
  remark hB := hB
  stopped _ _ hq hq' := by simp [hq] at hq'
  followed {_ _ _ _ _ _ _ q _ _} _ hV hq _ hB hq' n hle hlt := by
    rcases Nat.lt_or_ge n q.polls with hn | hn
    · exact hV hq n hle hn
    · exact hB hq' n hn hlt

/-! ## One walk behind another -/

/-- **A walk is behind another** when it was not called off and has asked no more often. -/
structure Progress.Behind (p' p : Progress) : Prop where
  on : p'.halted = false
  polls_le : p'.polls ≤ p.polls

namespace Progress.Behind

variable {p p' : Progress}

theorem polled (h : p'.Behind p) : p'.polled.Behind p.polled :=
  ⟨h.on, Nat.succ_le_succ h.polls_le⟩

theorem mark (h : p'.Behind p) (key : String) : (p'.mark key).Behind (p.mark key) := by
  refine ⟨?_, ?_⟩
  · rw [mark_halted, h.on]
  · rw [mark_polls, mark_polls]
    exact h.polls_le

theorem of_polls_le {q : Progress} (h : p'.Behind p) (hpq : p.polls ≤ q.polls) : p'.Behind q :=
  ⟨h.on, Nat.le_trans h.polls_le hpq⟩

end Progress.Behind

/-- **A walk that was never interrupted**: it was not called off, and was told to go on
each time that it asked. -/
structure Plan.Uninterrupted (plan : Plan) (q : Progress) : Prop where
  on : q.halted = false
  told : ∀ n < q.polls, plan.calledOff n = false

namespace Plan.Uninterrupted

variable {plan : Plan} {p p' q q' : Progress}

/-- A walk that ends without being called off was never interrupted. -/
theorem of_grow {room : Nat} {path : List String} {m : MethodSymbol}
    (h : (grow plan room path m {}).2.halted = false) :
    plan.Uninterrupted (grow plan room path m {}).2 :=
  ⟨h, fun n hn => (told_invariant plan).grow room path m {} h n (Nat.zero_le n) hn⟩

/-- What was not interrupted in the end was not interrupted before. -/
theorem before (h : plan.Uninterrupted q') (hq : q.halted = false) (hle : q.polls ≤ q'.polls) :
    plan.Uninterrupted q :=
  ⟨hq, fun n hn => h.told n (Nat.lt_of_lt_of_le hn hle)⟩

/-- **A walk that is behind one that goes on** is told to go on as well. -/
theorem goes_on (h : plan.Uninterrupted q) (hp : p'.Behind p) (hlt : p.polls < q.polls) :
    plan.calledOff p'.polls = false :=
  h.told p'.polls (Nat.lt_of_le_of_lt hp.polls_le hlt)

end Plan.Uninterrupted

/-! ## What is visited is what is expanded -/

/-- A visit adds to the visited keys those of the methods that it expands, and no
others. -/
theorem visited_invariant (plan : Plan) :
    plan.Invariant
      (fun _ _ _ p t q => ∀ k, k ∈ q.visited ↔ k ∈ p.visited ∨ k ∈ t.expansions.map (·.1))
      (fun _ _ _ p bs q => ∀ k, k ∈ q.visited ↔ k ∈ p.visited ∨ k ∈ bs.expansions.map (·.1)) where
  calledOff _ k := by simp [Tree.expansions]
  met _ _ k := by simp [Tree.expansions]
  capped _ _ k := by simp [Tree.expansions]
  expanded _ _ _ hB k := by
    rw [hB k, Progress.mem_visited_mark, Tree.expansions, List.map_cons, List.mem_cons,
      Progress.polled_visited, or_assoc]
  done k := by simp [Branches.expansions]
  remark hB k := by rw [hB k, Branches.expansions]
  stopped _ hV _ k := by
    rw [hV k, Branches.expansions, Branches.expansions, List.append_nil]
  followed _ hV _ _ hB k := by
    rw [hB k, hV k, Branches.expansions, List.map_append, List.mem_append, or_assoc]

/-- **The keys visited after a visit** are those visited before it and those that it
expands. -/
theorem mem_visited_grow {plan : Plan} {room : Nat} {path : List String} {m : MethodSymbol}
    {p : Progress} {k : String} :
    k ∈ (grow plan room path m p).2.visited
      ↔ k ∈ p.visited ∨ k ∈ (grow plan room path m p).1.expansions.map (·.1) :=
  (visited_invariant plan).grow room path m p k

/-- What was visited before a visit is visited after it. -/
theorem visited_subset_of_grow {plan : Plan} {room : Nat} {path : List String}
    {m : MethodSymbol} {p q : Progress} {t : Tree} (h : grow plan room path m p = (t, q)) :
    p.visited ⊆ q.visited := by
  intro k hk
  have hmem := ((visited_invariant plan).grow room path m p k).mpr (Or.inl hk)
  rwa [h] at hmem

/-- What was visited before some steps is visited after them. -/
theorem visited_subset_of_growBranches {plan : Plan} {room : Nat} {path : List String}
    {steps : List Step} {p q : Progress} {bs : Branches}
    (h : growBranches (grow plan room path) steps p = (bs, q)) : p.visited ⊆ q.visited := by
  intro k hk
  have hmem := ((visited_invariant plan).growBranches room path steps p k).mpr (Or.inl hk)
  rwa [h] at hmem

/-- An expansion is listed under the key of its method. -/
theorem expansions_invariant (plan : Plan) :
    plan.Invariant (fun _ _ _ _ t _ => ∀ e ∈ t.expansions, e.1 = plan.key e.2)
      (fun _ _ _ _ bs _ => ∀ e ∈ bs.expansions, e.1 = plan.key e.2) where
  calledOff _ := by simp [Tree.expansions]
  met _ _ := by simp [Tree.expansions]
  capped _ _ := by simp [Tree.expansions]
  expanded _ _ _ hB := by
    rw [Tree.expansions]
    exact List.forall_mem_cons.mpr ⟨rfl, hB⟩
  done := by simp [Branches.expansions]
  remark hB := by rwa [Branches.expansions]
  stopped _ hV _ := by
    rw [Branches.expansions, Branches.expansions, List.append_nil]
    exact hV
  followed _ hV _ _ hB := by
    rw [Branches.expansions]
    exact List.forall_mem_append.mpr ⟨hV, hB⟩

/-- The key of an expansion is that of its method. -/
theorem key_of_mem_expansions {plan : Plan} {room : Nat} {path : List String}
    {m : MethodSymbol} {p : Progress} {e : String × MethodSymbol}
    (h : e ∈ (grow plan room path m p).1.expansions) : e.1 = plan.key e.2 :=
  (expansions_invariant plan).grow room path m p e h

/-! ## From trees to outcomes -/

/-- The outcome of a walk is read off its tree. -/
theorem walk_of_treeFrom {Body Scope Expr : Type} {model : CodeModel Body Scope Expr}
    {noise : Noise} {options : Options} {calledOff : Nat → Bool} {entry : MethodSymbol} {t : Tree}
    {q : Progress} (h : treeFrom model noise options calledOff entry = (t, q)) :
    walk model noise options calledOff entry = .ofTree entry t q := by
  unfold walk
  rw [h]

end Walk

end CallTree
