import CallTree.Proofs.Reachability

/-!
# What a greater depth may lose

One would think that a walk which may go deeper lists all that a shallower one
lists. It need not. A method at the cap is listed and not marked, so the shallower
walk can come back to it by a shorter way and look into it. The deeper walk has
room for it on the long way, marks it there with too little room left for what is
below, and passes it over when it comes by the short way (`deeper_walk_loses`).

What is lost lies beyond such a method, or beyond one in whose place another
method with its key was expanded. `entered_or_missed` says so of any two depths:
whatever the one walk lists the other lists too, unless the one walk has reached
it through a method that it expands and whose callees the other misses.
-/

namespace CallTree.Walk

open CallTree.Script (Step)

/-! ## What the log says of a tree -/

/-- Neither a remark nor an ending enters a method. -/
theorem entered?_remarkEvent (d : Nat) (r : Remark) :
    (remarkEvent? d r).toList.filterMap Event.entered? = [] := by
  cases r <;> rfl

theorem entered?_endingEvents (key : String) (d : Nat) (ending : Option Ending) :
    (endingEvents key d ending).filterMap Event.entered? = [] := by
  rcases ending with _ | (_ | _ | _ | _) <;> rfl

mutual

/-- **What is entered is what is listed**: the methods that are expanded and those at
the cap. -/
theorem Tree.mem_entered (d : Nat) (k : String) :
    ∀ t : Tree, k ∈ (t.events d).filterMap Event.entered? ↔ t.Lists k
  | .calledOff _ => by simp [Tree.events, Tree.Lists, Tree.expansions, Tree.truncated,
      Event.entered?]
  | .met _ => by simp [Tree.events, Tree.Lists, Tree.expansions, Tree.truncated,
      Event.entered?]
  | .capped _ => by simp [Tree.events, Tree.Lists, Tree.expansions, Tree.truncated,
      Event.entered?]
  | .expanded key m branches ending => by
    rw [Tree.events,
      List.filterMap_cons_some (show (Event.enter key d).entered? = some key from rfl),
      List.filterMap_append, entered?_endingEvents, List.append_nil, List.mem_cons,
      Branches.mem_entered d k branches]
    unfold Tree.Lists
    rw [Tree.expansions, Tree.truncated, List.map_cons, List.mem_cons, or_assoc]

theorem Branches.mem_entered (d : Nat) (k : String) :
    ∀ bs : Branches, k ∈ (bs.events d).filterMap Event.entered?
      ↔ k ∈ bs.expansions.map (·.1) ∨ k ∈ bs.truncated
  | .none => by simp [Branches.events, Branches.expansions, Branches.truncated]
  | .remark r rest => by
    rw [Branches.events, List.filterMap_append, entered?_remarkEvent, List.nil_append,
      Branches.mem_entered d k rest]
    rfl
  | .call _ callee rest => by
    rw [Branches.events, List.filterMap_append, List.mem_append,
      Tree.mem_entered (d + 1) k callee, Branches.mem_entered d k rest]
    unfold Tree.Lists
    rw [Branches.expansions, Branches.truncated, List.map_append, List.mem_append,
      List.mem_append]
    exact or_or_or_comm

end

/-- What is listed at the cap stands at the depth of the cap in the log. -/
theorem capped_depth_invariant (plan : Plan) :
    plan.Invariant
      (fun room _ _ _ t _ => ∀ d, ∀ k ∈ t.truncated,
        Event.terminal k ((d + room : Nat) : Int) .depthLimit none ∈ t.events d)
      (fun room _ _ _ bs _ => ∀ d, ∀ k ∈ bs.truncated,
        Event.terminal k ((d + 1 + room : Nat) : Int) .depthLimit none ∈ bs.events d) where
  calledOff _ := by simp [Tree.truncated]
  met _ _ := by simp [Tree.truncated]
  capped _ _ d k hk := by
    rw [Tree.truncated, List.mem_singleton] at hk
    rw [hk]
    exact List.mem_cons_of_mem _ List.mem_cons_self
  expanded {room _ _ _ _ _} _ _ _ hB d k hk := by
    -- one level down there is one more of depth and one less of room
    rw [Nat.add_comm room 1, ← Nat.add_assoc]
    exact List.mem_cons_of_mem _ (List.mem_append_left _ (hB d k hk))
  done := by simp [Branches.truncated]
  remark hB d k hk := List.mem_append_right _ (hB d k hk)
  stopped _ hV _ d k hk := by
    rw [Branches.truncated, Branches.truncated, List.append_nil] at hk
    exact List.mem_append_left _ (hV (d + 1) k hk)
  followed _ hV _ _ hB d k hk := by
    rcases List.mem_append.mp hk with hk | hk
    · exact List.mem_append_left _ (hV (d + 1) k hk)
    · exact List.mem_append_right _ (hB d k hk)

/-- What is expanded is entered above the cap. -/
theorem expanded_depth_invariant (plan : Plan) :
    plan.Invariant
      (fun room _ _ _ t _ => ∀ d, ∀ e ∈ t.expansions,
        ∃ i < d + room, Event.enter e.1 (i : Int) ∈ t.events d)
      (fun room _ _ _ bs _ => ∀ d, ∀ e ∈ bs.expansions,
        ∃ i < d + 1 + room, Event.enter e.1 (i : Int) ∈ bs.events d) where
  calledOff _ := by simp [Tree.expansions]
  met _ _ := by simp [Tree.expansions]
  capped _ _ := by simp [Tree.expansions]
  expanded {room _ _ _ _ _} _ _ _ hB d := by
    refine List.forall_mem_cons.mpr ⟨⟨d, by omega, List.mem_cons_self⟩, fun e he => ?_⟩
    obtain ⟨i, hi, hmem⟩ := hB d e he
    exact ⟨i, by omega, List.mem_cons_of_mem _ (List.mem_append_left _ hmem)⟩
  done := by simp [Branches.expansions]
  remark hB d e he := by
    obtain ⟨i, hi, hmem⟩ := hB d e he
    exact ⟨i, hi, List.mem_append_right _ hmem⟩
  stopped _ hV _ d e he := by
    rw [Branches.expansions, Branches.expansions, List.append_nil] at he
    obtain ⟨i, hi, hmem⟩ := hV (d + 1) e he
    exact ⟨i, hi, List.mem_append_left _ hmem⟩
  followed _ hV _ _ hB d e he := by
    rcases List.mem_append.mp he with he | he
    · obtain ⟨i, hi, hmem⟩ := hV (d + 1) e he
      exact ⟨i, hi, List.mem_append_left _ hmem⟩
    · obtain ⟨i, hi, hmem⟩ := hB d e he
      exact ⟨i, hi, List.mem_append_right _ hmem⟩

/-! ## A deeper walk may lose a method -/

/-- A long way leads to `x` by `a` and `b`, and after it a short one. -/
def twoWays : Tabular.Program :=
  .ofCalls [("e", ["a", "x"]), ("a", ["b"]), ("b", ["x"]), ("x", ["c"]), ("c", ["g"]), ("g", [])]

/-- `p.k` and `q.k` share a key, and only the latter calls anything. -/
def sharedKey : Tabular.Program :=
  .ofCalls [("e", ["a", "q.k"]), ("a", ["p.k"]), ("p.k", []), ("q.k", ["g"]), ("g", [])]

/-- The walk from `e` with some depth and the usual options otherwise. -/
def walkToDepth (program : Tabular.Program) (n : Nat) : Outcome :=
  walk program.model {} { maxDepth := n } (fun _ => false) (.called "e")

/-- **Going deeper loses methods**, in two ways. With a depth of three `x` is at the cap
the first time, so the second time leads on to `c` and `g`; with a depth of four it
is expanded the first time, `c` is at the cap, and `g` never comes up. With two
methods under one key the deeper walk need not have anything at the cap: it
expands `p.k` and passes over `q.k`. -/
theorem deeper_walk_loses :
    ("<module>.g" ∈ (walkToDepth twoWays 3).signatures
      ∧ "<module>.g" ∉ (walkToDepth twoWays 4).signatures)
    ∧ "<module>.g" ∈ (walkToDepth sharedKey 2).signatures
      ∧ "<module>.g" ∉ (walkToDepth sharedKey 3).signatures := by
  decide +kernel

/-! ## Nothing else is lost -/

section Depths

variable {Body Scope Expr : Type} (model : CodeModel Body Scope Expr) (noise : Noise)
  (options : Options) (calledOff : Nat → Bool) (entry : MethodSymbol)

/-- **What one walk lists another lists as well, unless it misses it.** A signature that
is entered in the walk with depth `n` is entered in the walk with depth `n'`, or
else the former walk reaches it through a method `u` that it expands, at a depth
below `n`, and of the latter one of two things is true: it has `u` at its cap, at
depth `n'`, and expands the key of `u` nowhere; or it has expanded, under the key of
`u`, a method that follows other keys. -/
theorem entered_or_missed (n n' : Nat)
    (hrun : (walk model noise { options with maxDepth := n' } calledOff entry).cancelled = false)
    {s : String}
    (hs : s ∈ (walk model noise { options with maxDepth := n } calledOff entry).signatures) :
    let plan := Plan.ofModel model noise options calledOff
    let outcome (n : Nat) := walk model noise { options with maxDepth := n } calledOff entry
    let expansions (n : Nat) :=
      (treeFrom model noise { options with maxDepth := n } calledOff entry).1.expansions
    s ∈ (outcome n').signatures
      ∨ ∃ u m, Relation.TransGen (plan.FollowsIn (expansions n)) u m ∧ plan.key m = s
        ∧ (∃ d < n, Event.enter (plan.key u) (d : Nat) ∈ (outcome n).events)
        ∧ ((Event.terminal (plan.key u) n' .depthLimit none ∈ (outcome n').events
              ∧ plan.key u ∉ (outcome n').expanded)
          ∨ ∃ e ∈ expansions n',
              e.1 = plan.key u ∧ plan.calleeKeys e.2 ≠ plan.calleeKeys u) := by
  intro plan outcome expansions
  -- the signature is that of a method which the first walk reaches through what it expands
  obtain ⟨m, hm, rfl⟩ : ∃ m,
      Relation.ReflTransGen (plan.FollowsIn (expansions n)) entry m ∧ plan.key m = s := by
    have hreached := (reached_invariant plan).grow n [] entry {}
    rcases (Tree.mem_entered 0 s _).mp hs with hs | hs
    · obtain ⟨e, he, rfl⟩ := List.mem_map.mp hs
      obtain ⟨start, hstart, hreach⟩ := hreached.expansion e he
      rw [List.mem_singleton.mp hstart] at hreach
      exact ⟨e.2, hreach, (key_of_mem_expansions he).symm⟩
    · obtain ⟨start, hstart, m, hreach, hm⟩ := hreached.truncation s hs
      rw [List.mem_singleton.mp hstart] at hreach
      exact ⟨m, hreach, hm⟩
  have hrun' : (grow plan n' [] entry {}).2.halted = false := hrun
  rcases lists_or_misses hrun' (fun _ _ h => h.2) hm with hlisted | ⟨u, -, hum, hmiss⟩
  · exact Or.inl ((Tree.mem_entered 0 _ _).mpr hlisted)
  · refine Or.inr ⟨u, m, hum, rfl, ?_, hmiss.imp_left fun h => ⟨?_, h.2⟩⟩
    · obtain ⟨_, hu, -⟩ := Relation.TransGen.head'_iff.mp hum
      obtain ⟨e, he, rfl⟩ := List.mem_map.mp hu.1
      obtain ⟨d, hd, hmem⟩ := (expanded_depth_invariant plan).grow n [] entry {} 0 e he
      rw [key_of_mem_expansions he] at hmem
      exact ⟨d, by omega, hmem⟩
    · have hmem := (capped_depth_invariant plan).grow n' [] entry {} 0 _ h.1
      rwa [Nat.zero_add] at hmem

end Depths

/-- Where the long way and the short way meet, `g` is reached with a depth of three
through a method that is at the cap with a depth of four. -/
theorem entered_or_missed_twoWays :
    let plan := Plan.ofModel twoWays.model {} {} fun _ => false
    let expansions (n : Nat) :=
      (treeFrom twoWays.model {} { maxDepth := n } (fun _ => false) (.called "e")).1.expansions
    (walkToDepth twoWays 4).cancelled = false
      ∧ "<module>.g" ∈ (walkToDepth twoWays 3).signatures
      ∧ ∃ u m, Relation.TransGen (plan.FollowsIn (expansions 3)) u m
        ∧ plan.key m = "<module>.g"
        ∧ (∃ d < 3, Event.enter (plan.key u) (d : Nat) ∈ (walkToDepth twoWays 3).events)
        ∧ ((Event.terminal (plan.key u) 4 .depthLimit none ∈ (walkToDepth twoWays 4).events
              ∧ plan.key u ∉ (walkToDepth twoWays 4).expanded)
          ∨ ∃ e ∈ expansions 4,
              e.1 = plan.key u ∧ plan.calleeKeys e.2 ≠ plan.calleeKeys u) :=
  ⟨by decide +kernel, by decide +kernel,
    (entered_or_missed twoWays.model {} {} (fun _ => false) (.called "e") 3 4
      (by decide +kernel) (by decide +kernel)).resolve_left (by decide +kernel)⟩

end CallTree.Walk
