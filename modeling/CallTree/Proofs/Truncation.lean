import CallTree.Proofs.Bookkeeping
import CallTree.Proofs.Reachability

/-!
# The cap cuts off, and does nothing else

With the usual guard a walk with more depth may go quite another way, since a key that is
expanded once is passed over ever after. With repeated paths nothing of the kind happens.
Whether a method is passed over depends on the path to it and on nothing that was explored
before, so what a walk does down to some depth is the same however far it may go beyond:
its tree is that of a deeper walk, pruned (`prune_invariant`).

What pruning a tree does to its log and its edges is a matter of trees alone. Below the cap
nothing is left; at the cap an entry is left, followed by the terminal that says so, and a
method that was met before; above it everything is left as it was.
-/

namespace CallTree

open CallTree.Script (Step)

/-! ## Cutting a log off -/

/-- **Whether an event stays** when a log is cut off: what lies below the cap goes, and so
do the annotations and terminals at the cap. -/
def Event.stays (cap : Int) : Event → Bool
  | .enter _ d => d ≤ cap
  | .cycle _ d => d ≤ cap
  | .terminal _ d _ _ => d < cap
  | .creation _ d => d < cap
  | .dependency _ d _ _ => d < cap

/-- An event that stays, with a terminal after it if it is an entry at the cap. -/
def Event.closed (cap : Int) : Event → List Event
  | .enter k d =>
    if d = cap then [.enter k d, .terminal k cap .depthLimit none] else [.enter k d]
  | e => [e]

namespace Event

variable {cap : Int} {e : Event}

theorem stays_of_lt (h : e.depth < cap) : e.stays cap = true := by
  cases e with
  | enter => exact decide_eq_true (Int.le_of_lt h)
  | cycle => exact decide_eq_true (Int.le_of_lt h)
  | terminal => exact decide_eq_true h
  | creation => exact decide_eq_true h
  | dependency => exact decide_eq_true h

theorem stays_of_gt (h : cap < e.depth) : e.stays cap = false := by
  cases e with
  | enter => exact decide_eq_false (Int.not_le.mpr h)
  | cycle => exact decide_eq_false (Int.not_le.mpr h)
  | terminal => exact decide_eq_false (Int.not_lt.mpr (Int.le_of_lt h))
  | creation => exact decide_eq_false (Int.not_lt.mpr (Int.le_of_lt h))
  | dependency => exact decide_eq_false (Int.not_lt.mpr (Int.le_of_lt h))

theorem closed_of_lt (h : e.depth < cap) : e.closed cap = [e] := by
  cases e with
  | enter => exact if_neg (Int.ne_of_lt h)
  | _ => rfl

end Event

namespace Walk

/-- **A log that is cut off at a depth.** -/
def truncateLog (cap : Int) (log : List Event) : List Event :=
  (log.filter (Event.stays cap)).flatMap (Event.closed cap)

theorem truncateLog_append (cap : Int) (u v : List Event) :
    truncateLog cap (u ++ v) = truncateLog cap u ++ truncateLog cap v := by
  unfold truncateLog
  rw [List.filter_append, List.flatMap_append]

theorem truncateLog_cons_of_stays {cap : Int} {e : Event} (h : e.stays cap = true)
    (log : List Event) : truncateLog cap (e :: log) = e.closed cap ++ truncateLog cap log := by
  unfold truncateLog
  rw [List.filter_cons_of_pos h, List.flatMap_cons]

/-- What is above the cap is left as it is. -/
theorem truncateLog_cons_of_above {cap : Int} {e : Event} (h : e.depth < cap)
    (log : List Event) : truncateLog cap (e :: log) = e :: truncateLog cap log := by
  rw [truncateLog_cons_of_stays (Event.stays_of_lt h), Event.closed_of_lt h]
  rfl

theorem truncateLog_of_above {cap : Int} {log : List Event} (h : ∀ e ∈ log, e.depth < cap) :
    truncateLog cap log = log := by
  induction log with
  | nil => rfl
  | cons e log ih =>
    obtain ⟨he, hlog⟩ := List.forall_mem_cons.mp h
    rw [truncateLog_cons_of_above he, ih hlog]

/-- What is below the cap goes. -/
theorem truncateLog_of_below {cap : Int} {log : List Event} (h : ∀ e ∈ log, cap < e.depth) :
    truncateLog cap log = [] := by
  have hnone : log.filter (Event.stays cap) = [] :=
    List.filter_eq_nil_iff.mpr fun e he => Bool.eq_false_iff.mp (Event.stays_of_gt (h e he))
  unfold truncateLog
  rw [hnone, List.flatMap_nil]

/-- An entry at the cap is followed by a terminal. -/
theorem truncateLog_enter (key : String) (cap : Int) (log : List Event) :
    truncateLog cap (.enter key cap :: log)
      = .enter key cap :: .terminal key cap .depthLimit none :: truncateLog cap log := by
  have hclosed : (Event.enter key cap).closed cap
      = [.enter key cap, .terminal key cap .depthLimit none] := if_pos rfl
  have hstays : (Event.enter key cap).stays cap = true := decide_eq_true (Int.le_refl cap)
  rw [truncateLog_cons_of_stays hstays, hclosed]
  rfl

/-- A method at the cap that was met before is left. -/
theorem truncateLog_cycle {key : String} {d cap : Int} (h : d ≤ cap) :
    truncateLog cap [.cycle key d] = [.cycle key d] := by
  have hstays : (Event.cycle key d).stays cap = true := decide_eq_true h
  rw [truncateLog_cons_of_stays hstays]
  rfl

/-- Terminals and annotations at the cap go. -/
theorem truncateLog_terminal (key : String) (cap : Int) (reason : TerminalReason)
    (detail : Option String) : truncateLog cap [.terminal key cap reason detail] = [] := by
  have hgone : (Event.terminal key cap reason detail).stays cap = false :=
    decide_eq_false (Int.lt_irrefl cap)
  unfold truncateLog
  rw [List.filter_cons_of_neg (Bool.eq_false_iff.mp hgone)]
  rfl

theorem truncateLog_endingEvents (key : String) (d : Nat) (ending : Option Ending) :
    truncateLog d (endingEvents key d ending) = [] := by
  rcases ending with _ | (_ | _ | _ | _)
  · rfl
  · rfl
  · exact truncateLog_terminal ..
  · exact truncateLog_terminal ..
  · exact truncateLog_terminal ..

theorem truncateLog_remarkEvent (d : Nat) (r : Remark) :
    truncateLog d (remarkEvent? d r).toList = [] := by
  cases r <;> simp [remarkEvent?, truncateLog, Event.stays]

/-- **Of what is below a method at the cap, nothing is left.** -/
theorem Branches.truncateLog_events :
    ∀ (bs : Branches) (d : Nat), truncateLog d (bs.events d) = []
  | .none, _ => rfl
  | .remark r rest, d => by
    rw [Branches.events, truncateLog_append, truncateLog_remarkEvent, rest.truncateLog_events d]
    rfl
  | .call _ callee rest, d => by
    rw [Branches.events, truncateLog_append, truncateLog_of_below (callee.lt_depth d),
      rest.truncateLog_events d]
    rfl

/-! ## Pruning a tree -/

mutual

/-- **A tree with only so much room** below its root. -/
def Tree.prune : Nat → Tree → Tree
  | _, .calledOff key => .calledOff key
  | _, .met key => .met key
  | _, .capped key => .capped key
  | 0, .expanded key _ _ _ => .capped key
  | room + 1, .expanded key m branches ending => .expanded key m (branches.prune room) ending

/-- Branches with only so much room below the methods that are called. -/
def Branches.prune : Nat → Branches → Branches
  | _, .none => .none
  | room, .remark r rest => .remark r (rest.prune room)
  | room, .call kind callee rest => .call kind (callee.prune room) (rest.prune room)

end

/-- Pruning leaves the root. -/
theorem Tree.key_prune (room : Nat) (t : Tree) : (t.prune room).key = t.key := by
  cases t with
  | expanded => cases room <;> rfl
  | _ => cases room <;> rfl

/-! ## What pruning does to the log -/

mutual

/-- **The log of a pruned tree is cut off**, provided that the walk was not called off. -/
theorem Tree.events_prune (cap : Nat) :
    ∀ (t : Tree) (room d : Nat), d + room = cap →
      (∀ e ∈ t.events d, Event.reason? e ≠ some .cancelled) →
      (t.prune room).events d = truncateLog cap (t.events d)
  | .calledOff _, _, _, _, hrun => absurd rfl (hrun _ List.mem_cons_self)
  | .met key, room, d, hd, _ => by
    have hle : (d : Int) ≤ cap := by omega
    rw [Tree.prune, Tree.events, truncateLog_cycle hle]
  | .capped key, 0, d, hd, _ => by
    obtain rfl : d = cap := hd
    rw [Tree.prune, Tree.events, truncateLog_enter, truncateLog_terminal]
  | .capped key, room + 1, d, hd, _ => by
    have hlt : (d : Int) < cap := by omega
    rw [Tree.prune, Tree.events, truncateLog_of_above]
    exact List.forall_mem_cons.mpr ⟨hlt, List.forall_mem_singleton.mpr hlt⟩
  | .expanded key m branches ending, 0, d, hd, _ => by
    obtain rfl : d = cap := hd
    rw [Tree.prune, Tree.events, Tree.events, truncateLog_enter, truncateLog_append,
      Branches.truncateLog_events, truncateLog_endingEvents]
    rfl
  | .expanded key m branches ending, room + 1, d, hd, hrun => by
    have hlt : (d : Int) < cap := by omega
    have hending : ∀ e ∈ endingEvents key d ending, e.depth < (cap : Int) := fun e he => by
      rwa [depth_of_mem_endingEvents he]
    have hbranches := Branches.events_prune cap branches room d (by omega)
      fun e he => hrun e (List.mem_cons_of_mem _ (List.mem_append_left _ he))
    rw [Tree.prune, Tree.events, Tree.events, truncateLog_cons_of_above hlt, truncateLog_append,
      hbranches, truncateLog_of_above hending]

theorem Branches.events_prune (cap : Nat) :
    ∀ (bs : Branches) (room d : Nat), d + (room + 1) = cap →
      (∀ e ∈ bs.events d, Event.reason? e ≠ some .cancelled) →
      (bs.prune room).events d = truncateLog cap (bs.events d)
  | .none, _, _, _, _ => rfl
  | .remark r rest, room, d, hd, hrun => by
    have hlt : (d : Int) < cap := by omega
    have hremark : ∀ e ∈ (remarkEvent? d r).toList, e.depth < (cap : Int) := fun e he => by
      rwa [depth_of_mem_remarkEvent he]
    have hrest := Branches.events_prune cap rest room d hd
      fun e he => hrun e (List.mem_append_right _ he)
    rw [Branches.prune, Branches.events, Branches.events, truncateLog_append, hrest,
      truncateLog_of_above hremark]
  | .call kind callee rest, room, d, hd, hrun => by
    have hcallee := Tree.events_prune cap callee room (d + 1) (by omega)
      fun e he => hrun e (List.mem_append_left _ he)
    have hrest := Branches.events_prune cap rest room d hd
      fun e he => hrun e (List.mem_append_right _ he)
    rw [Branches.prune, Branches.events, Branches.events, truncateLog_append, hcallee, hrest]

end

/-! ## What pruning does to the edges -/

mutual

/-- The edges of a tree lie below its root. -/
theorem Tree.lt_depth_edges (d : Nat) : ∀ t : Tree, ∀ e ∈ t.edges d, (d : Int) < e.depth
  | .calledOff _ => List.forall_mem_nil _
  | .met _ => List.forall_mem_nil _
  | .capped _ => List.forall_mem_nil _
  | .expanded key _ branches _ => Branches.lt_depth_edges key d branches

theorem Branches.lt_depth_edges (caller : String) (d : Nat) :
    ∀ bs : Branches, ∀ e ∈ bs.edges caller d, (d : Int) < e.depth
  | .none => List.forall_mem_nil _
  | .remark _ rest => Branches.lt_depth_edges caller d rest
  | .call _ callee rest => by
    have hlt : (d : Int) < (d + 1 : Nat) := Int.ofNat_lt.mpr (Nat.lt_succ_self d)
    rw [Branches.edges]
    refine List.forall_mem_cons.mpr ⟨hlt, List.forall_mem_append.mpr
      ⟨fun e he => ?_, Branches.lt_depth_edges caller d rest⟩⟩
    exact Int.lt_trans hlt (Tree.lt_depth_edges (d + 1) callee e he)

end

mutual

/-- **The edges of a pruned tree** are those down to the cap. -/
theorem Tree.edges_prune (cap : Nat) :
    ∀ (t : Tree) (room d : Nat), d + room = cap →
      (t.prune room).edges d = (t.edges d).filter (·.depth ≤ (cap : Int))
  | .calledOff _, _, _, _ => rfl
  | .met _, _, _, _ => rfl
  | .capped _, _, _, _ => rfl
  | .expanded key m branches ending, 0, d, hd => by
    obtain rfl : d = cap := hd
    refine (List.filter_eq_nil_iff.mpr fun e he hle => ?_).symm
    exact Int.not_le.mpr (Branches.lt_depth_edges key d branches e he) (of_decide_eq_true hle)
  | .expanded key m branches ending, room + 1, d, hd =>
    Branches.edges_prune cap branches key room d (by omega)

theorem Branches.edges_prune (cap : Nat) :
    ∀ (bs : Branches) (caller : String) (room d : Nat), d + (room + 1) = cap →
      (bs.prune room).edges caller d = (bs.edges caller d).filter (·.depth ≤ (cap : Int))
  | .none, _, _, _, _ => rfl
  | .remark _ rest, caller, room, d, hd => Branches.edges_prune cap rest caller room d hd
  | .call kind callee rest, caller, room, d, hd => by
    have hle : ((d + 1 : Nat) : Int) ≤ cap := by omega
    rw [Branches.prune, Branches.edges, Branches.edges, Tree.key_prune,
      Tree.edges_prune cap callee room (d + 1) (by omega),
      Branches.edges_prune cap rest caller room d hd, List.filter_cons,
      if_pos (decide_eq_true hle), List.filter_append]

end

/-! ## A walk with less room -/

/-- **A walk with less room grows the pruned tree.** Whenever a walk with repeated paths gets
through a visit, or through some steps, so does one that is behind it and may not go as
deep. -/
theorem prune_invariant (plan : Plan) (hrepeats : plan.repeats = true) :
    plan.Invariant
      (fun room path m p t q => plan.Uninterrupted q → ∀ less ≤ room, ∀ p', p'.Behind p →
        ∃ q', grow plan less path m p' = (t.prune less, q') ∧ q'.Behind q)
      (fun room path steps p bs q => plan.Uninterrupted q → ∀ less ≤ room, ∀ p', p'.Behind p →
        ∃ q', growBranches (grow plan less path) steps p' = (bs.prune less, q')
          ∧ q'.Behind q) where
  calledOff _ hq := by cases hq.on
  met {_ path m p} _ hg hq less _ p' h := by
    rw [plan.guards_of_repeats hrepeats, ← plan.guards_of_repeats hrepeats path p'] at hg
    refine ⟨p'.polled, ?_, h.polled⟩
    rw [grow_met (hq.goes_on h (Nat.lt_succ_self _)) hg, Tree.prune]
  capped {path m p} _ hg hq less hless p' h := by
    rw [plan.guards_of_repeats hrepeats, ← plan.guards_of_repeats hrepeats path p'] at hg
    obtain rfl := Nat.le_zero.mp hless
    refine ⟨p'.polled, ?_, h.polled⟩
    rw [grow_capped (hq.goes_on h (Nat.lt_succ_self _)) hg, Tree.prune]
  expanded {room path m p bs q} _ hg hbs hB hq less hless p' h := by
    have hlt : p.polls < q.polls := polls_lt_of_growBranches hbs
    have hon' := hq.goes_on h hlt
    rw [plan.guards_of_repeats hrepeats, ← plan.guards_of_repeats hrepeats path p'] at hg
    cases less with
    | zero =>
      -- the walk with less room stops here, and falls behind
      refine ⟨p'.polled, ?_, h.polled.of_polls_le hlt⟩
      rw [grow_capped hon' hg, Tree.prune]
    | succ less =>
      obtain ⟨q', hgrow, hbehind⟩ := hB hq less (Nat.le_of_succ_le_succ hless) _ (h.polled.mark _)
      refine ⟨q', ?_, hbehind⟩
      rw [grow_expanded hon' hg hgrow, Tree.prune, hbehind.on, hq.on]
  done _ _ _ p' h := ⟨p', rfl, h⟩
  remark hB hq less hless p' h := by
    obtain ⟨q', hgrow, hbehind⟩ := hB hq less hless p' h
    refine ⟨q', ?_, hbehind⟩
    rw [growBranches_remark, hgrow, Branches.prune]
  stopped _ _ hstop hq := by
    rw [hq.on] at hstop
    cases hstop
  followed _ hV hon hbs hB hq less hless p' h := by
    have hq₁ := hq.before hon (polls_le_of_growBranches hbs)
    obtain ⟨q₁, hcallee, hbehind₁⟩ := hV hq₁ less hless p' h
    obtain ⟨q₂, hrest, hbehind₂⟩ := hB hq less hless q₁ hbehind₁
    refine ⟨q₂, ?_, hbehind₂⟩
    rw [growBranches_followed hcallee hbehind₁.on, hrest, Branches.prune]

section Walks

variable {Body Scope Expr : Type} (model : CodeModel Body Scope Expr) (noise : Noise)
  (options : Options) (calledOff : Nat → Bool) (entry : MethodSymbol)

/-- **With repeated paths, the cap cuts off and does nothing else.** When a walk is not
called off, neither is one with a lower cap, and the log and the edges of the latter are
those of the former, cut off at the lower cap. -/
theorem cap_only_truncates {n n' : Nat} (hn : n ≤ n')
    (hrun : (walk model noise { options with maxDepth := n', expandRepeatedPaths := true }
      calledOff entry).cancelled = false) :
    let outcome (cap : Nat) :=
      walk model noise { options with maxDepth := cap, expandRepeatedPaths := true } calledOff entry
    (outcome n).cancelled = false
      ∧ (outcome n).events = truncateLog n (outcome n').events
      ∧ (outcome n).edges = (outcome n').edges.filter (·.depth ≤ (n : Int)) := by
  intro outcome
  let plan := Plan.ofModel model noise { options with maxDepth := n', expandRepeatedPaths := true }
    calledOff
  obtain ⟨q, hgrow, hbehind⟩ := (prune_invariant plan rfl).grow n' [] entry {} (.of_grow hrun) n hn
    {} ⟨rfl, Nat.le_refl _⟩
  have houtcome : outcome n = .ofTree entry ((grow plan n' [] entry {}).1.prune n) q := by
    show Outcome.ofTree entry (grow plan n [] entry {}).1 (grow plan n [] entry {}).2 = _
    rw [hgrow]
  rw [houtcome]
  exact ⟨hbehind.on, Tree.events_prune n _ n 0 (Nat.zero_add n) (reason_ne_cancelled hrun),
    Tree.edges_prune n _ n 0 (Nat.zero_add n)⟩

end Walks

/-- Two ways lead to `c`, and from there one leads back to `e` and one to `d`, which has no
source. -/
def shortAndLong : Tabular.Program :=
  .ofCalls [("e", ["c", "a"]), ("a", ["b"]), ("b", ["c"]), ("c", ["e", "d"])]

/-- The walk from `e` with repeated paths and this cap. -/
def walkShortAndLong (cap : Nat) : Outcome :=
  walk shortAndLong.model {} { maxDepth := cap, expandRepeatedPaths := true } (fun _ => false)
    (.called "e")

/-- With the lower cap the second `c` is not seen, and `d` is listed for another reason. -/
theorem cap_only_truncates_shortAndLong :
    (walkShortAndLong 5).events
        = [.enter "<module>.e" 0, .enter "<module>.c" 1, .cycle "<module>.e" 2,
          .enter "<module>.d" 2, .terminal "<module>.d" 2 .unavailable none,
          .enter "<module>.a" 1, .enter "<module>.b" 2, .enter "<module>.c" 3,
          .cycle "<module>.e" 4, .enter "<module>.d" 4,
          .terminal "<module>.d" 4 .unavailable none]
      ∧ (walkShortAndLong 2).events = truncateLog 2 (walkShortAndLong 5).events
      ∧ (walkShortAndLong 2).edges = (walkShortAndLong 5).edges.filter (·.depth ≤ 2)
      ∧ truncateLog 2 (walkShortAndLong 5).events
        = [.enter "<module>.e" 0, .enter "<module>.c" 1, .cycle "<module>.e" 2,
          .enter "<module>.d" 2, .terminal "<module>.d" 2 .depthLimit none,
          .enter "<module>.a" 1, .enter "<module>.b" 2,
          .terminal "<module>.b" 2 .depthLimit none] := by
  obtain ⟨_, hevents, hedges⟩ := cap_only_truncates shortAndLong.model {} {} (fun _ => false)
    (.called "e") (show 2 ≤ 5 by decide) (by decide +kernel)
  exact ⟨by decide +kernel, hevents, hedges, by decide +kernel⟩

end Walk

end CallTree
