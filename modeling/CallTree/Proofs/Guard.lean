import CallTree.Proofs.Growth
import CallTree.Workspace.Loading
import CallTree.Workspace.Model

/-!
# What the guard takes for the same

The guard of a walk goes by keys, and the key of a method is made of two simple
names: that of the type or module it belongs to, and its own. Two methods that
are called the same in types that are called the same therefore count as one,
wherever in the workspace they are declared, and the second of them to be reached
is passed over although nobody has looked into it (`guard_confuses_namesakes`).

What can be relied on is that a method is passed over only after a method with
its key was expanded. The walk carries the expanded keys along, so the question is
where a key in that list comes from. To be able to say "earlier in the same walk",
a visit is described by what it starts from – the method, the room, the path and
the progress – and `Visit.Makes` says which visits a visit makes. Each visit asks
once whether to go on, so the number of questions asked before it tells which of
two visits came first.
-/

namespace CallTree.Walk

open CallTree.Script (Step)

/-! ## Visits -/

/-- **A visit**: the method, with the room that is left, the keys on the path to it
and the progress when it is made. -/
structure Visit where
  method : MethodSymbol
  room : Nat
  path : List String
  before : Progress

namespace Visit

/-- The visit that a walk begins with. -/
def first (options : Options) (entry : MethodSymbol) : Visit :=
  ⟨entry, options.maxDepth, [], {}⟩

variable (plan : Plan) (v : Visit)

/-- What comes of a visit. -/
def result : Tree × Progress := grow plan v.room v.path v.method v.before

/-- The distance from the entry: there is one key on the path for each caller. -/
def depth : Nat := v.path.length

/-- What a visit adds to the log. -/
def events : List Event := (v.result plan).1.events v.depth

/-- The number of the visit in the walk, as each visit asks once. -/
def number : Nat := v.before.polls

/-- The progress with which a visit begins to go through the script. -/
def opened : Progress := v.before.polled.mark (plan.key v.method)

/-- The visit of a callee, made at some point of the script. -/
def below (callee : MethodSymbol) (p : Progress) : Visit :=
  ⟨callee, v.room - 1, plan.key v.method :: v.path, p⟩

/-- **A visit that goes through the script** of its method: the walk is not called
off, the key is not guarded, and there is room. -/
structure Expands : Prop where
  on : plan.calledOff v.number = false
  free : plan.guards v.path v.before (plan.key v.method) = false
  room : 0 < v.room

/-- **How far a visit has got**: the steps that are left, and the progress. -/
inductive At (plan : Plan) (v : Visit) : List Step → Progress → Prop
  | start (h : v.Expands plan) : At plan v (plan.script v.method).steps (v.opened plan)
  | remark {r : Remark} {steps : List Step} {p : Progress}
      (h : At plan v (.remark r :: steps) p) : At plan v steps p
  | call {kind : EdgeKind} {callee : MethodSymbol} {steps : List Step} {p : Progress}
      (h : At plan v (.follow kind callee :: steps) p)
      (hon : ((v.below plan callee p).result plan).2.halted = false) :
      At plan v steps ((v.below plan callee p).result plan).2

/-- **A visit makes another** when it has got to a call: that of the callee. -/
inductive Makes (plan : Plan) : Visit → Visit → Prop
  | call {v : Visit} {kind : EdgeKind} {callee : MethodSymbol} {steps : List Step}
      {p : Progress} (h : v.At plan (.follow kind callee :: steps) p) :
      Makes plan v (v.below plan callee p)

end Visit

/-- **The visits of a walk**, directly and indirectly made by the first. -/
def Plan.Visits (plan : Plan) : Visit → Visit → Prop :=
  Relation.ReflTransGen (Visit.Makes plan)

namespace Visit

variable {plan : Plan} {v w : Visit} {steps : List Step} {p : Progress}

/-- A visit that goes through the script makes an expanded tree. -/
theorem Expands.result_eq (h : v.Expands plan) :
    v.result plan
      = (.expanded (plan.key v.method) v.method
          (growBranches (grow plan (v.room - 1) (plan.key v.method :: v.path))
            (plan.script v.method).steps (v.opened plan)).1
          (if (growBranches (grow plan (v.room - 1) (plan.key v.method :: v.path))
              (plan.script v.method).steps (v.opened plan)).2.halted then none
            else some (plan.script v.method).ending),
        (growBranches (grow plan (v.room - 1) (plan.key v.method :: v.path))
          (plan.script v.method).steps (v.opened plan)).2) := by
  obtain ⟨method, room, path, before⟩ := v
  obtain ⟨room, rfl⟩ := Nat.exists_eq_add_of_lt h.room
  rw [Nat.zero_add]
  exact grow_expanded h.on h.free rfl

/-- A visit that does not go through the script marks nothing. -/
theorem visited_of_not_expands (h : ¬ v.Expands plan) :
    (v.result plan).2.visited = v.before.visited := by
  unfold result
  cases hc : plan.calledOff v.before.polls with
  | true => rw [grow_calledOff hc]; rfl
  | false =>
    cases hg : plan.guards v.path v.before (plan.key v.method) with
    | true => rw [grow_met hc hg]; rfl
    | false =>
      have hroom : v.room = 0 := Nat.eq_zero_of_not_pos fun hroom => h ⟨hc, hg, hroom⟩
      rw [hroom, grow_capped hc hg]
      rfl

/-! ## Earlier and later visits -/

/-- When the visit of a callee is over it has asked. -/
theorem polls_lt_below (plan : Plan) (v : Visit) (callee : MethodSymbol) (p : Progress) :
    p.polls < ((v.below plan callee p).result plan).2.polls :=
  (polls_invariant plan).grow (v.room - 1) (plan.key v.method :: v.path) callee p

/-- Wherever a visit has got to, it has asked for itself. -/
theorem At.number_lt (h : v.At plan steps p) : v.number < p.polls := by
  induction h with
  | start h =>
    rw [opened, Progress.mark_polls, Progress.polled_polls]
    exact Nat.lt_succ_self _
  | remark _ ih => exact ih
  | call _ _ ih => exact Nat.lt_trans ih (polls_lt_below plan v _ _)

/-- A visit comes before those that it makes. -/
theorem Makes.number_lt (h : Makes plan v w) : v.number < w.number := by
  obtain ⟨h⟩ := h
  exact h.number_lt

/-- What a visit has got to when it is over: the end of the script, or a call below
which the walk was called off. -/
theorem At.over (h : v.At plan steps p) :
    v.At plan [] (growBranches (grow plan (v.room - 1) (plan.key v.method :: v.path)) steps p).2
      ∨ ∃ kind callee rest p', v.At plan (.follow kind callee :: rest) p'
        ∧ ((v.below plan callee p').result plan).2
          = (growBranches (grow plan (v.room - 1) (plan.key v.method :: v.path)) steps p).2 := by
  induction steps generalizing p with
  | nil => exact Or.inl h
  | cons step steps ih =>
    cases step with
    | remark r =>
      rw [growBranches_remark]
      exact ih h.remark
    | follow kind callee =>
      cases hon : ((v.below plan callee p).result plan).2.halted with
      | true =>
        rw [growBranches_stopped rfl hon]
        exact Or.inr ⟨kind, callee, steps, p, h, rfl⟩
      | false =>
        rw [growBranches_followed rfl hon]
        exact ih (h.call hon)

/-! ## Where a visited key comes from -/

/-- A key was expanded by a visit that `v` makes or by `v` itself, before as many
visits were made as is said. -/
def Marks (plan : Plan) (v : Visit) (k : String) (number : Nat) : Prop :=
  ∃ u, plan.Visits v u ∧ u.Expands plan ∧ plan.key u.method = k ∧ u.number < number

theorem Marks.mono {k : String} {n n' : Nat} (h : Marks plan v k n) (hn : n ≤ n') :
    Marks plan v k n' := by
  obtain ⟨u, hvisit, hexpands, hkey, hlt⟩ := h
  exact ⟨u, hvisit, hexpands, hkey, Nat.lt_of_lt_of_le hlt hn⟩

theorem Marks.of_visits {k : String} {n : Nat} (hvw : plan.Visits v w) (h : Marks plan w k n) :
    Marks plan v k n := by
  obtain ⟨u, hvisit, hrest⟩ := h
  exact ⟨u, hvw.trans hvisit, hrest⟩

/-- What holds of the visited keys when a visit gets to a call holds of them after the
call, if it holds of the call. -/
theorem At.marks_call {kind : EdgeKind} {callee : MethodSymbol}
    (h : v.At plan (.follow kind callee :: steps) p)
    (hp : ∀ k ∈ p.visited, k ∈ v.before.visited ∨ v.Marks plan k p.polls)
    (hcall : ∀ k ∈ ((v.below plan callee p).result plan).2.visited, k ∈ p.visited
      ∨ (v.below plan callee p).Marks plan k ((v.below plan callee p).result plan).2.polls) :
    ∀ k ∈ ((v.below plan callee p).result plan).2.visited, k ∈ v.before.visited
      ∨ v.Marks plan k ((v.below plan callee p).result plan).2.polls := by
  intro k hk
  rcases hcall k hk with hk | hk
  · exact (hp k hk).imp id fun hmarks => hmarks.mono (Nat.le_of_lt (polls_lt_below plan v _ _))
  · exact Or.inr (hk.of_visits (.single (.call h)))

/-- **A key that is visited was visited before, or put there by a visit.** While a visit
is under way, this is so if it is so of the visits that it makes. -/
theorem At.marks
    (hbelow : ∀ w, Makes plan v w → ∀ k ∈ (w.result plan).2.visited,
      k ∈ w.before.visited ∨ w.Marks plan k (w.result plan).2.polls)
    (h : v.At plan steps p) : ∀ k ∈ p.visited, k ∈ v.before.visited ∨ v.Marks plan k p.polls := by
  induction h with
  | start hexpands =>
    intro k hk
    rw [opened, Progress.mem_visited_mark] at hk
    refine hk.imp id ?_
    rintro rfl
    exact ⟨v, .refl, hexpands, rfl, (At.start hexpands).number_lt⟩
  | remark _ ih => exact ih
  | call h _ ih => exact h.marks_call ih (hbelow _ (.call h))

/-- **A key that is visited after a visit** was visited before it, or put there by a
visit that came of it. -/
theorem marks_of_mem_visited (v : Visit) : ∀ k ∈ (v.result plan).2.visited,
    k ∈ v.before.visited ∨ v.Marks plan k (v.result plan).2.polls := by
  -- on the room, since the visits that a visit makes have less of it
  induction hroom : v.room using Nat.strongRecOn generalizing v with
  | _ room ih =>
    intro k hk
    by_cases hexpands : v.Expands plan
    · have hbelow : ∀ w, Makes plan v w → ∀ k ∈ (w.result plan).2.visited,
          k ∈ w.before.visited ∨ w.Marks plan k (w.result plan).2.polls := by
        rintro w ⟨-⟩
        exact ih (v.room - 1) (by have := hexpands.room; omega) _ rfl
      rw [hexpands.result_eq] at hk ⊢
      -- the progress at the end is that at the end of the script, or after the call that
      -- the walk was called off in
      rcases (At.start hexpands).over with hend | ⟨kind, callee, rest, p, hstop, hq⟩
      · exact hend.marks hbelow k hk
      · rw [← hq] at hk ⊢
        exact hstop.marks_call (hstop.marks hbelow) (hbelow _ (.call hstop)) k hk
    · rw [visited_of_not_expands hexpands] at hk
      exact Or.inl hk

/-- **What is visited when a visit is made** was visited at the start, or was expanded by
a visit that came before it. -/
theorem earlier_of_mem_visited (h : plan.Visits v w) :
    ∀ k ∈ w.before.visited, k ∈ v.before.visited ∨ v.Marks plan k w.number := by
  induction h with
  | refl => exact fun k hk => Or.inl hk
  | @tail u w hvu huw ih =>
    intro k hk
    have hlt := huw.number_lt
    obtain ⟨hat⟩ := huw
    rcases hat.marks (fun w _ => marks_of_mem_visited w) k hk with hk | hk
    · exact (ih k hk).imp id fun hmarks => hmarks.mono (Nat.le_of_lt hlt)
    · exact Or.inr (hk.of_visits hvu)

/-! ## Visits and the log -/

/-- What is still to come of a visit stands in what it adds to the log. -/
theorem At.events_infix (h : v.At plan steps p) :
    (growBranches (grow plan (v.room - 1) (plan.key v.method :: v.path)) steps p).1.events v.depth
      <:+: v.events plan := by
  induction h with
  | start h =>
    unfold events
    rw [h.result_eq]
    exact ⟨[_], _, rfl⟩
  | remark _ ih =>
    rw [growBranches_remark] at ih
    exact (List.suffix_append _ _).isInfix.trans ih
  | call _ hon ih =>
    rw [growBranches_followed rfl hon] at ih
    exact (List.suffix_append _ _).isInfix.trans ih

/-- What a visit adds to the log stands in what its maker adds. -/
theorem Makes.events_infix (h : Makes plan v w) : w.events plan <:+: v.events plan := by
  cases h with
  | @call kind callee steps p hat =>
    have hinfix := hat.events_infix
    cases hon : ((v.below plan callee p).result plan).2.halted with
    | true =>
      rw [growBranches_stopped rfl hon] at hinfix
      exact (List.prefix_append _ _).isInfix.trans hinfix
    | false =>
      rw [growBranches_followed rfl hon] at hinfix
      exact (List.prefix_append _ _).isInfix.trans hinfix

/-- **What a visit of a walk adds to the log** stands in the log of the walk. -/
theorem events_infix_of_visits (h : plan.Visits v w) : w.events plan <:+: v.events plan := by
  induction h with
  | refl => exact List.infix_rfl
  | tail _ huw ih => exact huw.events_infix.trans ih

/-- **A visit that finds its method met before** has found its key guarded. -/
theorem guards_of_cycle {k : String} {d : Int} (h : v.events plan = [.cycle k d]) :
    plan.guards v.path v.before (plan.key v.method) = true := by
  unfold events result at h
  cases hc : plan.calledOff v.before.polls with
  | true => rw [grow_calledOff hc] at h; cases h
  | false =>
    cases hg : plan.guards v.path v.before (plan.key v.method) with
    | true => rfl
    | false =>
      cases hroom : v.room with
      | zero => rw [hroom, grow_capped hc hg] at h; cases h
      | succ room => rw [hroom, grow_expanded hc hg rfl] at h; cases h

end Visit

/-! ## A method is passed over only for its key -/

/-- With a guard on everything that was expanded, a guarded key is one that an earlier
visit of the walk has expanded. -/
theorem marks_of_guards {plan : Plan} (honce : plan.repeats = false) {options : Options}
    {entry : MethodSymbol} {w : Visit} (hw : plan.Visits (.first options entry) w)
    (hg : plan.guards w.path w.before (plan.key w.method) = true) :
    (Visit.first options entry).Marks plan (plan.key w.method) w.number := by
  unfold Plan.guards at hg
  rw [honce] at hg
  refine (Visit.earlier_of_mem_visited hw _ (List.contains_iff_mem.mp hg)).resolve_left ?_
  exact List.not_mem_nil

/-- **A method is passed over only after one with its key was expanded.** In a workspace
that was opened from sources, with the usual guard and keys, a visit that ends with
the method having been met before comes after the expansion of a method with the
same key; so a visit below the cap is of a method with a key under which the walk
expands a method, then or before. What the visits add to the log is part of it. -/
theorem cycle_only_after_same_key (sources : List (String × String)) (noise : Noise)
    (options : Options) (calledOff : Nat → Bool) (entry : MethodSymbol)
    (honce : options.expandRepeatedPaths = false) (hplain : options.overloadAwareKeys = false) :
    let model := (Workspace.openSources {} sources).workspace.model
    let plan := Plan.ofModel model noise options calledOff
    ∀ w, plan.Visits (.first options entry) w →
      w.events plan <:+: (walk model noise options calledOff entry).events
        ∧ (w.events plan = [.cycle (w.method.key false) w.depth] →
          ∃ v, plan.Visits (.first options entry) v ∧ v.Expands plan
            ∧ v.method.key false = w.method.key false ∧ v.number < w.number)
        ∧ (plan.calledOff w.number = false → 0 < w.room →
          ∃ v, plan.Visits (.first options entry) v ∧ v.Expands plan
            ∧ v.method.key false = w.method.key false ∧ v.number ≤ w.number) := by
  intro model plan w hw
  have hkey : ∀ m, plan.key m = m.key false := fun m => congrArg (MethodSymbol.key · m) hplain
  have hearlier : plan.guards w.path w.before (plan.key w.method) = true →
      ∃ v, plan.Visits (.first options entry) v ∧ v.Expands plan
        ∧ v.method.key false = w.method.key false ∧ v.number < w.number := by
    intro hg
    obtain ⟨v, hv, hexpands, hsame, hlt⟩ := marks_of_guards honce hw hg
    rw [hkey, hkey] at hsame
    exact ⟨v, hv, hexpands, hsame, hlt⟩
  refine ⟨Visit.events_infix_of_visits hw, fun h => hearlier (Visit.guards_of_cycle h), ?_⟩
  intro hon hroom
  cases hg : plan.guards w.path w.before (plan.key w.method) with
  | true =>
    obtain ⟨v, hv, hexpands, hsame, hlt⟩ := hearlier hg
    exact ⟨v, hv, hexpands, hsame, Nat.le_of_lt hlt⟩
  | false => exact ⟨w, hw, ⟨hon, hg, hroom⟩, rfl, Nat.le_refl _⟩

/-! ## Two methods under one key -/

/-- A class `Job`, and another one inside the class `Night`, each with a method `run`;
the former calls the latter. -/
def namesakeSources : List (String × String) :=
  [("m.py", "class Job:\n    def run(self):\n        Night.Job().run()\n"
    ++ "class Night:\n    class Job:\n        def run(self):\n            pass\n")]

/-- The workspace with the two classes. -/
def namesakes : Workspace := (Workspace.openSources {} namesakeSources).workspace

/-- The method `run` of one of the classes. -/
def jobRun (typeName : String) : MethodSymbol :=
  ((namesakes.types.get? typeName).bind (·.methods.get? "run")).getD default

/-- How to walk from one of them, with the usual options. -/
def namesakePlan : Plan := Plan.ofModel namesakes.model {} {} fun _ => false

/-- The visit of the first `run`, and the one that it makes of the second. -/
def outerVisit : Visit := .first {} (jobRun "m.Job")

def innerVisit : Visit :=
  outerVisit.below namesakePlan (jobRun "m.Night.Job") (outerVisit.opened namesakePlan)

/-- What the two visits come to. -/
theorem namesake_visits :
    (namesakePlan.script outerVisit.method).steps.take 2
        = [.remark .opened, .follow .directInvocation (jobRun "m.Night.Job")]
      ∧ innerVisit.events namesakePlan = [.cycle "Job.run" 1]
      ∧ innerVisit.method.key false = "Job.run"
      ∧ innerVisit.method.qualifiedName = "m.Night.Job.run"
      ∧ ∀ e ∈ (outerVisit.result namesakePlan).1.expansions,
        e.2.qualifiedName ≠ "m.Night.Job.run" := by
  decide +kernel

theorem visits_innerVisit : namesakePlan.Visits outerVisit innerVisit := by
  have hexpands : outerVisit.Expands namesakePlan := ⟨rfl, rfl, by decide⟩
  have hat := Visit.At.start hexpands
  rw [← List.take_append_drop 2 (namesakePlan.script outerVisit.method).steps,
    namesake_visits.1, List.cons_append, List.cons_append, List.nil_append] at hat
  exact .single (.call hat.remark)

/-- **The guard takes two methods for one.** The `run` of the class inside `Night` is
visited and counts as met before, though no method of its qualified name is ever
expanded. -/
theorem guard_confuses_namesakes :
    ∃ w, namesakePlan.Visits outerVisit w ∧ w.events namesakePlan = [.cycle "Job.run" 1]
      ∧ w.method.qualifiedName = "m.Night.Job.run"
      ∧ ∀ e ∈ (treeFrom namesakes.model {} {} (fun _ => false) (jobRun "m.Job")).1.expansions,
        e.2.qualifiedName ≠ "m.Night.Job.run" :=
  ⟨innerVisit, visits_innerVisit, namesake_visits.2.1, namesake_visits.2.2.2.1,
    namesake_visits.2.2.2.2⟩

/-- It is passed over for the `run` of the other class, whose key is the same. -/
theorem cycle_only_after_same_key_namesakes :
    innerVisit.events namesakePlan = [.cycle "Job.run" 1]
      ∧ ∃ v, namesakePlan.Visits outerVisit v ∧ v.Expands namesakePlan
        ∧ v.method.key false = innerVisit.method.key false ∧ v.number < innerVisit.number := by
  refine ⟨namesake_visits.2.1, ?_⟩
  refine (cycle_only_after_same_key namesakeSources {} {} (fun _ => false) (jobRun "m.Job")
    rfl rfl innerVisit visits_innerVisit).2.1 ?_
  rw [namesake_visits.2.2.1]
  exact namesake_visits.2.1

end CallTree.Walk
