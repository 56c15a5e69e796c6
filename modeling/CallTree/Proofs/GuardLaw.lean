import CallTree.Proofs.Bookkeeping
import CallTree.Proofs.Lists
import CallTree.Proofs.Reachability
import Mathlib.Data.List.Induction

/-!
# What the guard goes by

Whether a method is expanded or passed over depends on what the walk has kept in mind:
the path to the method, or the keys that it has visited. Nobody sees either of them, but
both can be read off the log as it stands at that moment. The path is the chain of
callers, found by going back through the log one level at a time, and the visited keys
are those that were entered above the cap.

`InStep` is this correspondence. Entering a method puts it on the path and marks it, a
visit that is over leaves the path as it was, however it ended, and a method at the cap
is entered and neither put on the path nor marked (`InStep.enter`, `InStep.grow`). With it
the guard becomes a law about logs, and that no key is expanded twice, or no branch
contains a key twice, follows from the law alone.
-/

namespace CallTree.Walk

open CallTree.Script (Step)

/-! ## Callers -/

/-- The callers of a visit at some depth, from the log backwards. -/
def callersBack (depth : Int) : List Event → List String
  | [] => []
  | e :: earlier =>
    match e.enteredAt? (depth - 1) with
    | some s => s :: callersBack (depth - 1) earlier
    | none => callersBack depth earlier

/-- **The callers of a visit** at some depth, the nearest first: the method that was last
entered one level up, and then the callers of that one. -/
def callers (depth : Int) (log : List Event) : List String := callersBack depth log.reverse

/-- Who the callers are after one more event. -/
theorem callers_concat (d : Int) (log : List Event) (e : Event) :
    callers d (log ++ [e]) = match e.enteredAt? (d - 1) with
      | some s => s :: callers (d - 1) log
      | none => callers d log := by
  unfold callers
  rw [List.reverse_append, List.reverse_singleton, List.singleton_append, callersBack]

/-- A method that was just entered is the caller of what is visited below it. -/
theorem callers_append_enter (log : List Event) (key : String) (d : Int) :
    callers (d + 1) (log ++ [.enter key d]) = key :: callers d log := by
  rw [callers_concat, Int.add_sub_cancel, Event.enteredAt?_self]

/-- The callers stay the same while nothing is entered one level up. -/
theorem callers_append_of_none {d : Int} {u : List Event} (log : List Event)
    (hu : ∀ e ∈ u, e.enteredAt? (d - 1) = none) : callers d (log ++ u) = callers d log := by
  induction u generalizing log with
  | nil => rw [List.append_nil]
  | cons e u ih =>
    obtain ⟨he, hu⟩ := List.forall_mem_cons.mp hu
    rw [List.append_cons, ih _ hu, callers_concat, he]

/-! ## Moments -/

/-- What happens at a moment of a log is an event of the log. -/
theorem mem_of_mem_moments {before log : List Event} {x : List Event × Event}
    (h : x ∈ moments before log) : x.2 ∈ log := by
  induction log generalizing before with
  | nil => cases h
  | cons e log ih =>
    rcases List.mem_cons.mp h with rfl | h
    · exact List.mem_cons_self
    · exact List.mem_cons_of_mem _ (ih h)

/-- Wherever a log is split, there is a moment. -/
theorem mem_moments (before u v : List Event) (e : Event) :
    (before ++ u, e) ∈ moments before (u ++ e :: v) := by
  rw [moments_append]
  exact List.mem_append_right _ List.mem_cons_self

/-- **What happens for the first time each time happens once.** -/
theorem nodup_filterMap_of_moments {f : Event → Option String} (before : List Event)
    {log : List Event} (hbefore : (before.filterMap f).Nodup)
    (hnew : ∀ x ∈ moments before log, ∀ k, f x.2 = some k → k ∉ x.1.filterMap f) :
    ((before ++ log).filterMap f).Nodup := by
  induction log generalizing before with
  | nil => rwa [List.append_nil]
  | cons e log ih =>
    obtain ⟨hfirst, hrest⟩ := List.forall_mem_cons.mp hnew
    rw [List.append_cons]
    refine ih _ ?_ hrest
    rw [List.filterMap_append]
    cases hk : f e with
    | none => rwa [List.filterMap_cons_none hk, List.filterMap_nil, List.append_nil]
    | some k =>
      rw [List.filterMap_cons_some hk, List.filterMap_nil]
      exact List.nodup_append.mpr ⟨hbefore, List.pairwise_singleton _ k, by
        rintro a ha b hb rfl
        rw [List.mem_singleton.mp hb] at ha
        exact hfirst k hk ha⟩

/-- **Where no method is entered below itself**, no branch contains a key twice. -/
theorem nodup_callers {log : List Event}
    (hnew : ∀ x ∈ moments [] log, ∀ k d, x.2 = .enter k d → k ∉ callers d x.1) (d : Int) :
    (callers d log).Nodup := by
  -- back through the log, since that is how callers are found
  induction log using List.reverseRecOn generalizing d with
  | nil => exact List.nodup_nil
  | append_singleton log e ih =>
    rw [moments_append, List.nil_append] at hnew
    obtain ⟨hlog, hlast⟩ := List.forall_mem_append.mp hnew
    rw [callers_concat]
    cases hk : e.enteredAt? (d - 1) with
    | none => exact ih hlog d
    | some k =>
      refine List.nodup_cons.mpr ⟨?_, ih hlog (d - 1)⟩
      exact hlast (log, e) List.mem_cons_self k (d - 1) (Event.eq_enter_of_enteredAt? hk)

/-! ## A log in step with a walk -/

/-- **A log is in step with a walk** when the path consists of the callers of a visit at
this depth, and what was visited is what was entered above the cap. -/
structure InStep (cap : Nat) (log : List Event) (d : Nat) (path : List String) (p : Progress) :
    Prop where
  callers_eq : callers d log = path
  length_eq : path.length = d
  mem_visited : ∀ k, k ∈ p.visited ↔ k ∈ log.filterMap (Event.enteredAbove? cap)

namespace InStep

variable {cap d : Nat} {log : List Event} {path : List String} {p : Progress}

/-- A walk begins with nothing. -/
theorem start (cap : Nat) : InStep cap [] 0 [] {} :=
  ⟨rfl, rfl, fun _ => Iff.rfl⟩

/-- **Entering a method above the cap** puts it on the path and marks it. -/
theorem enter (h : InStep cap log d path p) (hd : d < cap) (key : String) :
    InStep cap (log ++ [.enter key d]) (d + 1) (key :: path) (p.polled.mark key) where
  callers_eq := by
    rw [Int.natCast_add, Int.cast_ofNat_Int, callers_append_enter, h.callers_eq]
  length_eq := by rw [List.length_cons, h.length_eq]
  mem_visited k := by
    have hcap : (d : Int) < cap := Int.ofNat_lt.mpr hd
    rw [Progress.mem_visited_mark, Progress.polled_visited, h.mem_visited, List.filterMap_append,
      List.filterMap_cons_some (Event.enteredAbove?_of_lt hcap key), List.mem_append,
      List.filterMap_nil, List.mem_singleton]

/-- A remark changes nothing. -/
theorem remark (h : InStep cap log d path p) (d' : Nat) (r : Remark) :
    InStep cap (log ++ (remarkEvent? d' r).toList) d path p where
  callers_eq := by
    have hsilent : ∀ e ∈ (remarkEvent? d' r).toList, e.enteredAt? ((d : Int) - 1) = none := by
      cases r <;> simp [remarkEvent?, Event.enteredAt?]
    rw [callers_append_of_none log hsilent, h.callers_eq]
  length_eq := h.length_eq
  mem_visited k := by
    rw [h.mem_visited, List.filterMap_append, enteredAbove?_remarkEvent, List.append_nil]

/-- **A visit that is over leaves the path as it was**, however it ended. -/
theorem grow {plan : Plan} {room : Nat} {m : MethodSymbol} {t : Tree} {q : Progress}
    (h : InStep cap log d path p) (hd : d + room = cap)
    (hgrow : grow plan room path m p = (t, q)) : InStep cap (log ++ t.events d) d path q where
  callers_eq := by
    have hbelow : ∀ e ∈ t.events d, e.enteredAt? ((d : Int) - 1) = none := fun e he => by
      have hdepth := Tree.le_depth d t e he
      exact Event.enteredAt?_of_lt (by omega)
    rw [callers_append_of_none log hbelow, h.callers_eq]
  length_eq := h.length_eq
  mem_visited k := by
    have hentered := (enteredAbove_invariant plan cap).grow room path m p d hd
    have hvisited := (visited_invariant plan).grow room path m p k
    rw [hgrow] at hentered hvisited
    rw [hvisited, h.mem_visited, List.filterMap_append, List.mem_append, hentered]

end InStep

/-! ## The law -/

/-- **What the log says of a guard**: with repeated paths, that the key is among the
callers; otherwise, that it was entered above the cap. -/
def Plan.GuardedIn (plan : Plan) (cap : Nat) (log : List Event) (k : String) (d : Int) : Prop :=
  if plan.repeats then k ∈ callers d log else ∃ i < (cap : Int), Event.enter k i ∈ log

theorem Plan.guardedIn_once {plan : Plan} (h : plan.repeats = false) {cap : Nat}
    {log : List Event} {k : String} {d : Int} :
    plan.GuardedIn cap log k d ↔ ∃ i < (cap : Int), Event.enter k i ∈ log := by
  unfold Plan.GuardedIn
  rw [h, if_neg Bool.false_ne_true]

theorem Plan.guardedIn_repeats {plan : Plan} (h : plan.repeats = true) {cap : Nat}
    {log : List Event} {k : String} {d : Int} :
    plan.GuardedIn cap log k d ↔ k ∈ callers d log := by
  unfold Plan.GuardedIn
  rw [h, if_pos rfl]

/-- What was entered above the cap, in the log. -/
theorem mem_enteredAbove {cap : Int} {log : List Event} {k : String} :
    k ∈ log.filterMap (Event.enteredAbove? cap) ↔ ∃ i < cap, Event.enter k i ∈ log := by
  rw [List.mem_filterMap]
  constructor
  · rintro ⟨e, he, hk⟩
    obtain ⟨i, hi, rfl⟩ := Event.eq_enter_of_enteredAbove? hk
    exact ⟨i, hi, he⟩
  · rintro ⟨i, hi, he⟩
    exact ⟨_, he, Event.enteredAbove?_of_lt hi k⟩

/-- **The guard sees what the log says.** -/
theorem InStep.guards_iff {cap d : Nat} {log : List Event} {path : List String} {p : Progress}
    (h : InStep cap log d path p) (plan : Plan) (k : String) :
    plan.guards path p k = true ↔ plan.GuardedIn cap log k d := by
  unfold Plan.guards Plan.GuardedIn
  split
  · rw [List.contains_iff_mem, h.callers_eq]
  · rw [List.contains_iff_mem, h.mem_visited, mem_enteredAbove]

/-- **The law at one moment**: a visit that is not called off has a caller on each level
above it, and finds its method met before exactly when the key is guarded. -/
def Plan.Heeds (plan : Plan) (cap : Nat) (moment : List Event × Event) : Prop :=
  ∀ k d, moment.2 = .enter k d ∨ moment.2 = .cycle k d →
    (callers d moment.1).length = d
      ∧ (moment.2 = .cycle k d ↔ plan.GuardedIn cap moment.1 k d)

namespace Plan.Heeds

variable {plan : Plan} {cap d : Nat} {log : List Event} {path : List String} {p : Progress}
  {key : String}

/-- Events that are not visits are no concern of the law. -/
theorem of_silent {u : List Event} (hu : ∀ e ∈ u, ∀ k d, e ≠ .enter k d ∧ e ≠ .cycle k d) :
    ∀ x ∈ moments log u, plan.Heeds cap x := by
  rintro x hx k d (h | h)
  · exact absurd h (hu _ (mem_of_mem_moments hx) k d).1
  · exact absurd h (hu _ (mem_of_mem_moments hx) k d).2

theorem cycle (h : InStep cap log d path p) (hg : plan.guards path p key = true) :
    plan.Heeds cap (log, .cycle key d) := by
  rintro k i (heq | heq) <;> cases heq
  refine ⟨by rw [h.callers_eq, h.length_eq], iff_of_true rfl ?_⟩
  exact (h.guards_iff plan key).mp hg

theorem enter (h : InStep cap log d path p) (hg : plan.guards path p key = false) :
    plan.Heeds cap (log, .enter key d) := by
  rintro k i (heq | heq) <;> cases heq
  refine ⟨by rw [h.callers_eq, h.length_eq], iff_of_false nofun fun hguarded => ?_⟩
  rw [(h.guards_iff plan key).mpr hguarded] at hg
  cases hg

/-- A method that is entered is not guarded. -/
theorem not_guarded {x : List Event × Event} {k : String} {i : Int} (h : plan.Heeds cap x)
    (henter : x.2 = .enter k i) : ¬ plan.GuardedIn cap x.1 k i := by
  intro hguarded
  have hmet := (h k i (.inl henter)).2.mpr hguarded
  rw [henter] at hmet
  cases hmet

end Plan.Heeds

/-- **Every visit heeds the guard**, if the log is in step when it begins. -/
theorem heeds_invariant (plan : Plan) (cap : Nat) :
    plan.Invariant
      (fun room path _ p t _ => ∀ log d, d + room = cap → InStep cap log d path p →
        ∀ x ∈ moments log (t.events d), plan.Heeds cap x)
      (fun room path _ p bs _ => ∀ log d, d + (room + 1) = cap → InStep cap log (d + 1) path p →
        ∀ x ∈ moments log (bs.events d), plan.Heeds cap x) where
  calledOff _ log d _ _ := Plan.Heeds.of_silent (by simp [Tree.events])
  met _ hg log d _ hlog := List.forall_mem_singleton.mpr (.cycle hlog hg)
  capped _ hg log d _ hlog :=
    List.forall_mem_cons.mpr ⟨.enter hlog hg, Plan.Heeds.of_silent (by simp)⟩
  expanded {room path m p bs q} _ hg _ hB log d hd hlog := by
    have hending : ∀ ending, ∀ e ∈ endingEvents (plan.key m) d ending,
        ∀ k i, e ≠ .enter k i ∧ e ≠ .cycle k i := by
      rintro (_ | (_ | _ | _ | _)) <;> simp [endingEvents]
    rw [Tree.events, moments]
    refine List.forall_mem_cons.mpr ⟨.enter hlog hg, ?_⟩
    rw [moments_append]
    refine List.forall_mem_append.mpr ⟨?_, Plan.Heeds.of_silent (hending _)⟩
    exact hB _ d hd (hlog.enter (by omega) (plan.key m))
  done _ _ _ _ := by simp [Branches.events, moments]
  remark {_ _ r _ _ _ _} hB log d hd hlog := by
    have hremark : ∀ e ∈ (remarkEvent? d r).toList, ∀ k i, e ≠ .enter k i ∧ e ≠ .cycle k i := by
      cases r <;> simp [remarkEvent?]
    rw [Branches.events, moments_append]
    exact List.forall_mem_append.mpr
      ⟨Plan.Heeds.of_silent hremark, hB _ d hd (hlog.remark d r)⟩
  stopped _ hV _ log d hd hlog := by
    rw [Branches.events, Branches.events, List.append_nil]
    exact hV log (d + 1) (by omega) hlog
  followed hgrow hV _ _ hB log d hd hlog := by
    rw [Branches.events, moments_append]
    exact List.forall_mem_append.mpr ⟨hV log (d + 1) (by omega) hlog,
      hB _ d hd (hlog.grow (by omega) hgrow)⟩

/-- At every moment of a walk the guard is heeded. -/
theorem heeds_walk {Body Scope Expr : Type} (model : CodeModel Body Scope Expr) (noise : Noise)
    (options : Options) (calledOff : Nat → Bool) (entry : MethodSymbol) :
    ∀ x ∈ moments [] (walk model noise options calledOff entry).events,
      (Plan.ofModel model noise options calledOff).Heeds options.maxDepth x :=
  (heeds_invariant (Plan.ofModel model noise options calledOff) options.maxDepth).grow
    options.maxDepth [] entry {} [] 0 (Nat.zero_add _) (InStep.start _)

/-- **The law of the guard.** Without repeated paths, a visit that is not called off finds
its method met before exactly when the log has an earlier entry of its key above the cap;
so no key is expanded twice, and what is expanded is what is visited. With repeated paths,
it does so exactly when the key is among its callers; so no branch of the tree, from the
entry down to a method that is entered, contains a key twice. -/
theorem guard_law {Body Scope Expr : Type} (model : CodeModel Body Scope Expr)
    (noise : Noise) (options : Options) (calledOff : Nat → Bool) (entry : MethodSymbol) :
    let o := walk model noise options calledOff entry
    (options.expandRepeatedPaths = false →
      (∀ before e after k d, o.events = before ++ e :: after → (e = .enter k d ∨ e = .cycle k d) →
        (e = .cycle k d ↔ ∃ i < (options.maxDepth : Int), Event.enter k i ∈ before))
      ∧ o.expanded.Nodup ∧ o.expanded = o.visited)
    ∧ (options.expandRepeatedPaths = true →
      (∀ before e after k d, o.events = before ++ e :: after → (e = .enter k d ∨ e = .cycle k d) →
        (e = .cycle k d ↔ k ∈ callers d before))
      ∧ ∀ before after k d, o.events = before ++ .enter k d :: after →
        (k :: callers d before).Nodup ∧ (callers d before).length = d) := by
  intro o
  have hheeds := heeds_walk model noise options calledOff entry
  have hsplit : ∀ before e after, o.events = before ++ e :: after →
      (Plan.ofModel model noise options calledOff).Heeds options.maxDepth (before, e) := by
    intro before e after heq
    refine hheeds (before, e) ?_
    have hmem := mem_moments [] before after e
    rwa [← heq] at hmem
  constructor
  · intro honce
    have hnodup : o.expanded.Nodup := by
      rw [expanded_eq_enteredAbove]
      refine nodup_filterMap_of_moments [] List.nodup_nil fun x hx k hk hmem => ?_
      obtain ⟨i, hi, henter⟩ := Event.eq_enter_of_enteredAbove? hk
      exact (hheeds x hx).not_guarded henter
        ((Plan.guardedIn_once honce).mpr (mem_enteredAbove.mp hmem))
    refine ⟨fun before e after k d heq hvisit => ?_, hnodup, ?_⟩
    · exact (hsplit before e after heq k d hvisit).2.trans (Plan.guardedIn_once honce)
    · rw [visited_eq_eraseDups, eraseDups_of_nodup hnodup]
  · intro hrepeats
    have hlaw : ∀ before e after k d, o.events = before ++ e :: after →
        (e = .enter k d ∨ e = .cycle k d) → (e = .cycle k d ↔ k ∈ callers d before) :=
      fun before e after k d heq hvisit =>
        (hsplit before e after heq k d hvisit).2.trans (Plan.guardedIn_repeats hrepeats)
    refine ⟨hlaw, fun before after k d heq => ⟨?_, (hsplit _ _ _ heq k d (.inl rfl)).1⟩⟩
    rw [← callers_append_enter]
    refine nodup_callers (fun x hx k' d' henter hmem => ?_) (d + 1)
    -- the moments up to this one are moments of the whole log
    have hx' : x ∈ moments [] o.events := by
      rw [heq, List.append_cons, moments_append]
      exact List.mem_append_left _ hx
    exact (hheeds x hx').not_guarded henter ((Plan.guardedIn_repeats hrepeats).mpr hmem)

/-- Two ways lead from `e` to `c`, and `c` leads back to `e`. -/
def diamond : Tabular.Program :=
  .ofCalls [("e", ["a", "b"]), ("a", ["c"]), ("b", ["c"]), ("c", ["e"])]

/-- The walk through the diamond, with or without repeated paths. -/
def walkDiamond (repeats : Bool) : Outcome :=
  walk diamond.model {} { expandRepeatedPaths := repeats } (fun _ => false) (.called "e")

/-- When `c` is reached by the second way it has been entered, so it is passed over; with
repeated paths it is not among its callers, which are `b` and `e`, and is entered again. -/
theorem guard_law_diamond :
    let before := (walkDiamond false).events.take 5
    ((walkDiamond false).events = before ++ [.cycle "<module>.c" 2]
      ∧ (∃ i < (64 : Int), Event.enter "<module>.c" i ∈ before)
      ∧ (walkDiamond false).expanded = (walkDiamond false).visited)
    ∧ (walkDiamond true).events = before ++ [.enter "<module>.c" 2, .cycle "<module>.e" 3]
      ∧ callers 2 before = ["<module>.b", "<module>.e"]
      ∧ "<module>.c" ∉ callers 2 before
      ∧ ("<module>.c" :: callers 2 before).Nodup := by
  intro before
  have honce : (walkDiamond false).events = before ++ [.cycle "<module>.c" 2] := by decide +kernel
  have hrepeats : (walkDiamond true).events
      = before ++ [.enter "<module>.c" 2, .cycle "<module>.e" 3] := by decide +kernel
  obtain ⟨hmet, -, hvisited⟩ := (guard_law diamond.model {} { expandRepeatedPaths := false }
    (fun _ => false) (.called "e")).1 rfl
  obtain ⟨hcallers, hbranch⟩ := (guard_law diamond.model {} { expandRepeatedPaths := true }
    (fun _ => false) (.called "e")).2 rfl
  refine ⟨⟨honce, (hmet _ _ _ _ _ honce (.inr rfl)).mp rfl, hvisited⟩, hrepeats,
    by decide +kernel, fun hmem => ?_, (hbranch _ _ _ _ hrepeats).1⟩
  cases (hcallers _ _ _ _ _ hrepeats (.inl rfl)).mpr hmem

end CallTree.Walk
