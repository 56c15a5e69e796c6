import CallTree.Proofs.CallingOff
import CallTree.Proofs.Discovery
import CallTree.Proofs.NoiseExclusion

/-!
# Calls that lead nowhere

When each key is expanded once, a call that a script makes for the second time leads nowhere:
by then the key of the callee was expanded, and it is passed over, unless there was no room to
expand it, and then there is none the second time either. So steps at the end of a script that
follow only what the script has followed before can be added or left out, and the walk expands
the same methods in the same order.

`growBranches_of_idle` is about such steps within one walk, and `retraced_invariant` compares
the walk that takes them with the one that does not.
-/

namespace CallTree.Walk

open CallTree.Script (Step)

/-! ## Steps after steps -/

section Appending

variable {before : List Step} {p : Progress}

/-- **What the later steps grow** they grow from where the earlier ones end. -/
theorem growBranches_append {visit : MethodSymbol → Progress → Tree × Progress}
    (h : (growBranches visit before p).2.halted = false) (after : List Step) :
    (growBranches visit (before ++ after) p).1.expansions
        = (growBranches visit before p).1.expansions
          ++ (growBranches visit after (growBranches visit before p).2).1.expansions
      ∧ (growBranches visit (before ++ after) p).2
        = (growBranches visit after (growBranches visit before p).2).2 := by
  induction before generalizing p with
  | nil => exact ⟨rfl, rfl⟩
  | cons step before ih =>
    cases step with
    | remark r => exact ih h
    | follow kind callee =>
      cases hon : (visit callee p).2.halted with
      | true =>
        rw [growBranches_stopped rfl hon] at h
        exact absurd (hon.symm.trans h) (by decide)
      | false =>
        rw [growBranches_followed rfl hon] at h
        obtain ⟨hexpansions, hprogress⟩ := ih h
        rw [List.cons_append, growBranches_followed rfl hon, growBranches_followed rfl hon]
        refine ⟨?_, hprogress⟩
        rw [Branches.expansions, Branches.expansions, hexpansions, List.append_assoc]

/-- The visits for the later steps. -/
theorem Visit.madeFor_append {plan : Plan} {v : Visit}
    (h : (growBranches (grow plan (v.room - 1) (plan.key v.method :: v.path)) before
      p).2.halted = false) (after : List Step) :
    v.madeFor plan (before ++ after) p = v.madeFor plan before p ++ v.madeFor plan after
      (growBranches (grow plan (v.room - 1) (plan.key v.method :: v.path)) before p).2 := by
  induction before generalizing p with
  | nil => rfl
  | cons step before ih =>
    cases step with
    | remark r => exact ih h
    | follow kind callee =>
      cases hon : ((v.below plan callee p).result plan).2.halted with
      | true =>
        rw [growBranches_stopped rfl hon] at h
        exact absurd (hon.symm.trans h) (by decide)
      | false =>
        rw [growBranches_followed rfl hon] at h
        rw [List.cons_append, madeFor_followed hon, madeFor_followed hon, ih h,
          growBranches_followed rfl hon, List.cons_append]

end Appending

/-! ## Idle calls -/

/-- **A call is idle** when the key of the callee was expanded, or there is no room. -/
def Plan.Idle (plan : Plan) (room : Nat) (p : Progress) (callee : MethodSymbol) : Prop :=
  plan.key callee ∈ p.visited ∨ room = 0

/-- **A visit that leads nowhere**: the key is passed over, or listed for want of room. -/
def Visit.LeadsNowhere (plan : Plan) (w : Visit) : Prop :=
  (w.result plan).1 = .met (plan.key w.method)
    ∨ w.room = 0 ∧ (w.result plan).1 = .capped (plan.key w.method)

theorem Visit.LeadsNowhere.expansions {plan : Plan} {w : Visit} (h : w.LeadsNowhere plan) :
    (w.result plan).1.expansions = [] := by
  obtain hmet | ⟨-, hcapped⟩ := h
  · rw [hmet]
    rfl
  · rw [hcapped]
    rfl

section Once

variable {plan : Plan} (honce : plan.repeats = false)
include honce

theorem Plan.guards_of_once (path : List String) (p : Progress) (key : String) :
    plan.guards path p key = p.visited.contains key := by
  unfold Plan.guards
  rw [honce]
  rfl

/-- **What has been followed is idle from then on.** -/
theorem idle_invariant :
    plan.Invariant (fun room _ m _ _ q => q.halted = false → plan.Idle room q m)
      (fun room _ steps _ _ q => q.halted = false →
        ∀ callee ∈ Script.calleesOf steps, plan.Idle room q callee) where
  calledOff _ hq := by cases hq
  met _ hg _ := by
    rw [Plan.guards_of_once honce] at hg
    exact Or.inl (List.contains_iff_mem.mp hg)
  capped _ _ _ := Or.inr rfl
  expanded _ _ hbs _ _ :=
    Or.inl (visited_subset_of_growBranches hbs (Progress.mem_visited_mark.mpr (Or.inr rfl)))
  done _ _ h := absurd h List.not_mem_nil
  remark hB := hB
  stopped _ _ hq hq' := absurd (hq.symm.trans hq') (by decide)
  followed _ hV hq hbs hB hq' := by
    refine List.forall_mem_cons.mpr ⟨?_, hB hq'⟩
    exact (hV hq).imp (fun hkey => visited_subset_of_growBranches hbs hkey) id

variable (hon : ∀ n, plan.calledOff n = false)
include hon

/-- **The visit of an idle call leads nowhere**, and is over when it has asked. -/
theorem Visit.leadsNowhere_of_idle {w : Visit} (h : plan.Idle w.room w.before w.method) :
    w.LeadsNowhere plan ∧ (w.result plan).2 = w.before.polled := by
  unfold LeadsNowhere result
  cases hg : plan.guards w.path w.before (plan.key w.method) with
  | true =>
    rw [grow_met (hon _) hg]
    exact ⟨Or.inl rfl, rfl⟩
  | false =>
    have hnew : plan.key w.method ∉ w.before.visited := by
      rw [Plan.guards_of_once honce] at hg
      exact fun hkey => absurd (List.contains_iff_mem.mpr hkey) (Bool.eq_false_iff.mp hg)
    have hroom : w.room = 0 := h.resolve_left hnew
    rw [hroom, grow_capped (hon _) hg]
    exact ⟨Or.inr ⟨rfl, rfl⟩, rfl⟩

/-- **Idle steps** expand nothing and mark nothing. -/
theorem growBranches_of_idle (path : List String) {room : Nat} {steps : List Step} {p : Progress}
    (h : ∀ callee ∈ Script.calleesOf steps, plan.Idle room p callee) :
    (growBranches (grow plan room path) steps p).1.expansions = []
      ∧ (growBranches (grow plan room path) steps p).2.visited = p.visited := by
  induction steps generalizing p with
  | nil => exact ⟨rfl, rfl⟩
  | cons step steps ih =>
    cases step with
    | remark r => exact ih h
    | follow kind callee =>
      obtain ⟨hcallee, hrest⟩ := List.forall_mem_cons.mp h
      obtain ⟨hnowhere, hpolled⟩ :=
        Visit.leadsNowhere_of_idle honce hon (w := ⟨callee, room, path, p⟩) hcallee
      have hexpansions : (grow plan room path callee p).1.expansions = [] := hnowhere.expansions
      have hprogress : (grow plan room path callee p).2 = p.polled := hpolled
      cases hhalted : (grow plan room path callee p).2.halted with
      | true =>
        rw [growBranches_stopped rfl hhalted, Branches.expansions, hexpansions, hprogress]
        exact ⟨rfl, rfl⟩
      | false =>
        rw [growBranches_followed rfl hhalted, Branches.expansions, hexpansions, hprogress]
        exact ih hrest

/-- The visits for idle steps lead nowhere. -/
theorem Visit.leadsNowhere_of_mem_madeFor {v : Visit} {steps : List Step} {p : Progress}
    (h : ∀ callee ∈ Script.calleesOf steps, plan.Idle (v.room - 1) p callee)
    {c : EdgeKind × Visit} (hc : c ∈ v.madeFor plan steps p) : c.2.LeadsNowhere plan := by
  induction steps generalizing p with
  | nil => cases hc
  | cons step steps ih =>
    cases step with
    | remark r => exact ih h hc
    | follow kind callee =>
      obtain ⟨hcallee, hrest⟩ := List.forall_mem_cons.mp h
      obtain ⟨hnowhere, hpolled⟩ :=
        leadsNowhere_of_idle honce hon (w := v.below plan callee p) hcallee
      cases hhalted : ((v.below plan callee p).result plan).2.halted with
      | true =>
        rw [madeFor_stopped hhalted, List.mem_singleton] at hc
        exact hc ▸ hnowhere
      | false =>
        rw [madeFor_followed hhalted, hpolled] at hc
        rcases List.mem_cons.mp hc with rfl | hc
        · exact hnowhere
        · exact ih (p := p.polled) hrest hc

end Once

/-! ## Scripts that retrace their steps -/

/-- **A plan retraces some scripts**: its own go on after them, and follow only methods that
were followed before. -/
def Plan.Retraces (plan : Plan) (script : MethodSymbol → Script) : Prop :=
  ∀ m, ∃ added, (plan.script m).steps = (script m).steps ++ added
    ∧ Script.calleesOf added ⊆ (script m).callees

/-- The plan that goes by other scripts. -/
def Plan.withScript (plan : Plan) (script : MethodSymbol → Script) : Plan :=
  { plan with script := script }

section Retracing

variable {plan : Plan} (honce : plan.repeats = false) (hon : ∀ n, plan.calledOff n = false)
include honce hon

/-- **Steps that retrace others are idle** once these have been gone through. -/
theorem idle_of_retraced (room : Nat) (path : List String) {steps added : List Step}
    {p : Progress} (hp : p.halted = false)
    (hadded : Script.calleesOf added ⊆ Script.calleesOf steps) :
    (growBranches (grow plan room path) steps p).2.halted = false
      ∧ ∀ callee ∈ Script.calleesOf added,
        plan.Idle room (growBranches (grow plan room path) steps p).2 callee := by
  have hend : (growBranches (grow plan room path) steps p).2.halted = false :=
    (on_invariant plan hon).growBranches room path steps p hp
  refine ⟨hend, fun callee hcallee => ?_⟩
  exact (idle_invariant honce).growBranches room path steps p hend callee (hadded hcallee)

/-- **It makes no difference whether they are there**: the same is expanded and marked. -/
theorem growBranches_of_retraced (room : Nat) (path : List String) {steps added : List Step}
    {p : Progress} (hp : p.halted = false)
    (hadded : Script.calleesOf added ⊆ Script.calleesOf steps) :
    (growBranches (grow plan room path) steps p).1.expansions
        = (growBranches (grow plan room path) (steps ++ added) p).1.expansions
      ∧ (growBranches (grow plan room path) steps p).2.Alongside
        (growBranches (grow plan room path) (steps ++ added) p).2 := by
  obtain ⟨hend, hidle⟩ := idle_of_retraced honce hon room path hp hadded
  obtain ⟨hexpansions, hprogress⟩ := growBranches_append hend added
  obtain ⟨hnone, hvisited⟩ := growBranches_of_idle honce hon path hidle
  rw [hexpansions, hprogress, hnone, List.append_nil]
  exact ⟨rfl, ⟨hend, polls_le_of_growBranches rfl⟩, hvisited.symm⟩

/-- **Two walks side by side**: one that goes by scripts and one that retraces them expand the
same methods and mark the same keys. -/
theorem retraced_invariant {script : MethodSymbol → Script} (hscript : plan.Retraces script) :
    plan.Invariant
      (fun room path m p t q => p.halted = false → ∀ p', p'.Alongside p →
        (grow (plan.withScript script) room path m p').1.expansions = t.expansions
          ∧ (grow (plan.withScript script) room path m p').2.Alongside q)
      (fun room path steps p bs q => p.halted = false → ∀ p', p'.Alongside p →
        (growBranches (grow (plan.withScript script) room path) steps p').1.expansions
            = bs.expansions
          ∧ (growBranches (grow (plan.withScript script) room path) steps p').2.Alongside q) := by
  let bare := plan.withScript script
  have hon' : ∀ n, bare.calledOff n = false := hon
  have honce' : bare.repeats = false := honce
  have hguards {p p' : Progress} (hp : p'.Alongside p) (path : List String) (m : MethodSymbol) :
      bare.guards path p' (bare.key m) = plan.guards path p (plan.key m) := by
    rw [Plan.guards_of_once honce, Plan.guards_of_once honce', hp.visited_eq]
    rfl
  constructor
  case calledOff => exact fun h => absurd (h.symm.trans (hon _)) (by decide)
  case met =>
    intro room path m p _ hg _ p' h
    rw [grow_met (hon' _) ((hguards h path m).trans hg)]
    exact ⟨rfl, h.polled⟩
  case capped =>
    intro path m p _ hg _ p' h
    rw [grow_capped (hon' _) ((hguards h path m).trans hg)]
    exact ⟨rfl, h.polled⟩
  case expanded =>
    intro room path m p bs q _ hg hbs hB hp p' h
    obtain ⟨added, hsteps, hadded⟩ := hscript m
    have hmark := h.polled.mark (plan.key m)
    have hopened : (p.polled.mark (plan.key m)).halted = false := by
      rw [Progress.mark_halted, Progress.polled_halted, hp]
    obtain ⟨hexpansions, hq⟩ := hB hopened _ hmark
    rw [hsteps] at hexpansions hq
    -- the other walk does without the steps that are added here
    obtain ⟨hsame, hbare⟩ :=
      growBranches_of_retraced honce' hon' room (plan.key m :: path) hmark.on hadded
    rw [grow_expanded (hon' _) ((hguards h path m).trans hg) rfl]
    refine ⟨congrArg ((plan.key m, m) :: ·) (hsame.trans hexpansions), ?_⟩
    exact ⟨hbare.toBehind.of_polls_le hq.polls_le, hbare.visited_eq.trans hq.visited_eq⟩
  case done => exact fun _ p' h => ⟨rfl, h⟩
  case remark => exact fun hB => hB
  case stopped =>
    intro room path kind callee steps p t q hgrow _ hq hp
    have hend := (on_invariant plan hon).grow room path callee p hp
    rw [hgrow] at hend
    exact absurd (hq.symm.trans hend) (by decide)
  case followed =>
    intro room path kind callee steps p t q bs q' _ hV hq _ hB hp p' h
    obtain ⟨hcallee, h⟩ := hV hp p' h
    obtain ⟨hrest, h'⟩ := hB hq _ h
    rw [growBranches_followed rfl h.on, Branches.expansions, Branches.expansions, hcallee, hrest]
    exact ⟨rfl, h'⟩

/-- **The visits along added calls lead nowhere**, if none but these are of some kind. -/
theorem Visit.leadsNowhere_of_mem_made {script : MethodSymbol → Script}
    (hscript : plan.Retraces script) {kind : EdgeKind}
    (hkind : ∀ m, ∀ c ∈ (script m).calls, c.1 ≠ kind) {v w : Visit} (hv : v.before.halted = false)
    (hw : (kind, w) ∈ v.made plan) : w.LeadsNowhere plan := by
  obtain ⟨added, hsteps, hadded⟩ := hscript v.method
  have hopened : (v.opened plan).halted = false := by
    rw [opened, Progress.mark_halted, Progress.polled_halted, hv]
  obtain ⟨hend, hidle⟩ := idle_of_retraced honce hon (v.room - 1) (plan.key v.method :: v.path)
    hopened hadded
  unfold made at hw
  split at hw
  · rw [hsteps, madeFor_append hend] at hw
    rcases List.mem_append.mp hw with hw | hw
    · have hcall := (callOf_madeFor _ _).1.subset (List.mem_map_of_mem hw)
      exact absurd rfl (hkind v.method _ hcall)
    · exact leadsNowhere_of_mem_madeFor honce hon hidle hw
  · cases hw

end Retracing

/-! ## Where visits are made -/

namespace Visit

variable {plan : Plan} {v w : Visit} {steps : List Step} {p : Progress}

theorem At.expands (h : v.At plan steps p) : v.Expands plan := by
  induction h with
  | start h => exact h
  | remark _ ih => exact ih
  | call _ _ ih => exact ih

/-- A visit makes those that are listed for the steps that it has got to. -/
theorem At.makes_of_mem_madeFor (h : v.At plan steps p) {c : EdgeKind × Visit}
    (hc : c ∈ v.madeFor plan steps p) : Makes plan v c.2 := by
  induction steps generalizing p with
  | nil => cases hc
  | cons step steps ih =>
    cases step with
    | remark r => exact ih h.remark hc
    | follow kind callee =>
      cases hon : ((v.below plan callee p).result plan).2.halted with
      | true =>
        rw [madeFor_stopped hon, List.mem_singleton] at hc
        exact hc ▸ .call h
      | false =>
        rw [madeFor_followed hon] at hc
        rcases List.mem_cons.mp hc with rfl | hc
        · exact .call h
        · exact ih (h.call hon) hc

/-- **What is listed is made.** -/
theorem makes_of_mem_made {c : EdgeKind × Visit} (hc : c ∈ v.made plan) : Makes plan v c.2 := by
  unfold made at hc
  split at hc
  · rename_i hexpands
    exact (At.start hexpands).makes_of_mem_madeFor hc
  · cases hc

/-- A walk that is called off makes no more visits. -/
theorem At.on (h : v.At plan steps p) (hv : v.before.halted = false) : p.halted = false := by
  induction h with
  | start _ => rw [opened, Progress.mark_halted, Progress.polled_halted, hv]
  | remark _ ih => exact ih
  | call _ hon _ => exact hon

theorem on_of_visits (h : plan.Visits v w) (hv : v.before.halted = false) :
    w.before.halted = false := by
  induction h with
  | refl => exact hv
  | tail _ huw ih =>
    obtain ⟨hat⟩ := huw
    exact hat.on ih

/-- **Depth and room add up** to the same in all visits of a walk. -/
theorem depth_add_room (h : plan.Visits v w) : w.depth + w.room = v.depth + v.room := by
  induction h with
  | refl => rfl
  | @tail u _ _ huw ih =>
    obtain ⟨hat⟩ := huw
    have hroom := hat.expands.room
    show u.path.length + 1 + (u.room - 1) = _
    rw [← ih, depth]
    omega

/-- What a visit that leads nowhere adds to the log. -/
theorem LeadsNowhere.events_eq (h : w.LeadsNowhere plan) :
    w.events plan = [.cycle (plan.key w.method) w.depth]
      ∨ w.room = 0 ∧ w.events plan = [.enter (plan.key w.method) w.depth,
        .terminal (plan.key w.method) w.depth .depthLimit none] := by
  unfold events
  obtain hmet | ⟨hroom, hcapped⟩ := h
  · rw [hmet]
    exact Or.inl rfl
  · rw [hcapped]
    exact Or.inr ⟨hroom, rfl⟩

end Visit

end CallTree.Walk
