import CallTree.Proofs.EventGrammar

/-!
# The log says it all

A walk reports its events, the edges that it followed, the keys that it expanded and
those that it visited, and whether it was called off. Only the events are needed: the
rest can be worked out from them.

Every visit begins with one event, for the method is entered, or was met before, or the
walk is called off. All visits but the first are made along an edge, so there are as
many edges as further visits, in the same order. Who the caller is shows in the depths
alone: it is the method that was last entered one level up, since whatever is logged
between a method and its callees lies below it (`Tree.le_depth`). What is entered above
the cap is expanded, and what was visited are the expanded keys without repetitions.
-/

namespace CallTree

open CallTree.Script (Step)

/-! ## Reading a log -/

/-- **The visit that an event begins**, as a signature and a depth: the method is entered,
or was met before, or the walk is called off. -/
def Event.visit? : Event → Option (String × Int)
  | .enter s d => some (s, d)
  | .cycle s d => some (s, d)
  | .terminal s d .cancelled _ => some (s, d)
  | _ => none

/-- The signature of a method that is entered at this depth. -/
def Event.enteredAt? (depth : Int) : Event → Option String
  | .enter s d => if d = depth then some s else none
  | _ => none

/-- The signature of a method that is entered above the cap. -/
def Event.enteredAbove? (cap : Int) : Event → Option String
  | .enter s d => if d < cap then some s else none
  | _ => none

namespace Event

theorem enteredAt?_self (s : String) (d : Int) : (enter s d).enteredAt? d = some s := if_pos rfl

theorem eq_enter_of_enteredAt? {e : Event} {d : Int} {s : String} (h : e.enteredAt? d = some s) :
    e = enter s d := by
  unfold enteredAt? at h
  split at h
  · obtain ⟨rfl, hs⟩ := Option.ite_none_right_eq_some.mp h
    rw [Option.some.inj hs]
  · cases h

/-- An event that lies deeper enters nothing at this depth. -/
theorem enteredAt?_of_lt {e : Event} {d : Int} (h : d < e.depth) : e.enteredAt? d = none := by
  unfold enteredAt?
  split
  · exact if_neg (Int.ne_of_gt h)
  · rfl

theorem enteredAbove?_of_lt {cap d : Int} (h : d < cap) (s : String) :
    (enter s d).enteredAbove? cap = some s := if_pos h

theorem eq_enter_of_enteredAbove? {e : Event} {cap : Int} {s : String}
    (h : e.enteredAbove? cap = some s) : ∃ d < cap, e = enter s d := by
  unfold enteredAbove? at h
  split at h
  case h_1 d =>
    obtain ⟨hd, hs⟩ := Option.ite_none_right_eq_some.mp h
    exact ⟨d, hd, by rw [Option.some.inj hs]⟩
  case h_2 => cases h

theorem enteredAbove?_of_not_lt {cap d : Int} (h : ¬ d < cap) (s : String) :
    (enter s d).enteredAbove? cap = none := if_neg h

end Event

namespace Walk

/-- **The moments of a log** that goes on from `before`: each event, with all that was
logged before it. -/
def moments (before : List Event) : List Event → List (List Event × Event)
  | [] => []
  | e :: rest => (before, e) :: moments (before ++ [e]) rest

theorem moments_append (before u v : List Event) :
    moments before (u ++ v) = moments before u ++ moments (before ++ u) v := by
  induction u generalizing before with
  | nil => rw [List.nil_append, List.append_nil, moments, List.nil_append]
  | cons e u ih =>
    rw [List.cons_append, moments, moments, ih, List.cons_append, List.append_assoc]
    rfl

/-- The method that was last entered at some depth. -/
def lastEntered (depth : Int) (log : List Event) : Option String :=
  (log.filterMap (Event.enteredAt? depth)).getLast?

/-- **A call as the log shows it.** The entry is visited without a caller. -/
structure Call where
  caller : Option String
  callee : String
  depth : Int
deriving DecidableEq, Repr

/-- What the log can show of an edge. -/
def Call.ofEdge (e : Edge) : Call := ⟨some e.caller, e.callee, e.depth⟩

/-- The call that is made at a moment, when a visit begins: the caller is the method that
was last entered one level up. -/
def Call.at? (moment : List Event × Event) : Option Call :=
  moment.2.visit?.map fun (s, d) => ⟨lastEntered (d - 1) moment.1, s, d⟩

/-- **The calls of a log** that goes on from `before`, in order. -/
def callsAfter (before log : List Event) : List Call :=
  (moments before log).filterMap Call.at?

theorem callsAfter_append (before u v : List Event) :
    callsAfter before (u ++ v) = callsAfter before u ++ callsAfter (before ++ u) v := by
  unfold callsAfter
  rw [moments_append, List.filterMap_append]

/-- A method that is entered is called by the one last entered above it. -/
theorem callsAfter_enter (before log : List Event) (key : String) (d : Int) :
    callsAfter before (.enter key d :: log)
      = ⟨lastEntered (d - 1) before, key, d⟩ :: callsAfter (before ++ [.enter key d]) log := rfl

/-- Neither a remark nor an ending is a call. -/
theorem callsAfter_remarkEvent (before : List Event) (d : Nat) (r : Remark) :
    callsAfter before (remarkEvent? d r).toList = [] := by
  cases r <;> rfl

theorem callsAfter_endingEvents (before : List Event) (key : String) (d : Nat)
    (ending : Option Ending) : callsAfter before (endingEvents key d ending) = [] := by
  rcases ending with _ | (_ | _ | _ | _) <;> rfl

/-! ## What lies below a method -/

theorem depth_of_mem_remarkEvent {d : Nat} {r : Remark} {e : Event}
    (h : e ∈ (remarkEvent? d r).toList) : e.depth = d := by
  cases r <;> simp_all [remarkEvent?, Event.depth]

theorem depth_of_mem_endingEvents {key : String} {d : Nat} {ending : Option Ending} {e : Event}
    (h : e ∈ endingEvents key d ending) : e.depth = d := by
  rcases ending with _ | (_ | _ | _ | _) <;> simp_all [endingEvents, Event.depth]

mutual

/-- **Nothing in the log of a tree lies above its root.** -/
theorem Tree.le_depth (d : Nat) : ∀ t : Tree, ∀ e ∈ t.events d, (d : Int) ≤ e.depth
  | .calledOff _ => List.forall_mem_singleton.mpr (Int.le_refl _)
  | .met _ => List.forall_mem_singleton.mpr (Int.le_refl _)
  | .capped _ =>
    List.forall_mem_cons.mpr ⟨Int.le_refl _, List.forall_mem_singleton.mpr (Int.le_refl _)⟩
  | .expanded key _ branches ending => by
    have hending : ∀ e ∈ endingEvents key d ending, (d : Int) ≤ e.depth := fun e he =>
      Int.le_of_eq (depth_of_mem_endingEvents he).symm
    rw [Tree.events]
    refine List.forall_mem_cons.mpr ⟨Int.le_refl _, ?_⟩
    exact List.forall_mem_append.mpr ⟨Branches.le_depth d branches, hending⟩

theorem Branches.le_depth (d : Nat) : ∀ bs : Branches, ∀ e ∈ bs.events d, (d : Int) ≤ e.depth
  | .none => by simp [Branches.events]
  | .remark r rest => by
    have hremark : ∀ e ∈ (remarkEvent? d r).toList, (d : Int) ≤ e.depth := fun e he =>
      Int.le_of_eq (depth_of_mem_remarkEvent he).symm
    rw [Branches.events]
    exact List.forall_mem_append.mpr ⟨hremark, Branches.le_depth d rest⟩
  | .call _ callee rest => by
    rw [Branches.events]
    refine List.forall_mem_append.mpr ⟨fun e he => ?_, Branches.le_depth d rest⟩
    have hcallee := Tree.le_depth (d + 1) callee e he
    omega

end

/-- What the visit of a callee logs lies below the caller. -/
theorem Tree.lt_depth (d : Nat) (t : Tree) : ∀ e ∈ t.events (d + 1), (d : Int) < e.depth :=
  fun e he => Int.lt_of_lt_of_le (Int.ofNat_lt.mpr (Nat.lt_succ_self d)) (t.le_depth (d + 1) e he)

/-- Who was last entered is not changed by what lies deeper. -/
theorem lastEntered_append_of_deeper {d : Int} {u : List Event} (log : List Event)
    (hu : ∀ e ∈ u, d < e.depth) : lastEntered d (log ++ u) = lastEntered d log := by
  have hnone : u.filterMap (Event.enteredAt? d) = [] :=
    List.filterMap_eq_nil_iff.mpr fun e he => Event.enteredAt?_of_lt (hu e he)
  unfold lastEntered
  rw [List.filterMap_append, hnone, List.append_nil]

/-- A remark enters nothing. -/
theorem lastEntered_append_remarkEvent (i : Int) (log : List Event) (d : Nat) (r : Remark) :
    lastEntered i (log ++ (remarkEvent? d r).toList) = lastEntered i log := by
  unfold lastEntered
  rw [List.filterMap_append]
  cases r <;> exact congrArg List.getLast? (List.append_nil _)

/-- The method that was just entered was last entered at its depth. -/
theorem lastEntered_append_enter (d : Int) (log : List Event) (key : String) :
    lastEntered d (log ++ [.enter key d]) = some key := by
  have hlast : [Event.enter key d].filterMap (Event.enteredAt? d) = [key] := by
    rw [List.filterMap_cons_some (Event.enteredAt?_self key d), List.filterMap_nil]
  unfold lastEntered
  rw [List.filterMap_append, hlast, List.getLast?_append]
  rfl

/-! ## Edges -/

mutual

/-- **The calls in the log of a tree** are that of its root and its edges. -/
theorem Tree.callsAfter_events (before : List Event) (d : Nat) :
    ∀ t : Tree, callsAfter before (t.events d)
      = ⟨lastEntered (d - 1) before, t.key, d⟩ :: (t.edges d).map Call.ofEdge
  | .calledOff _ => rfl
  | .met _ => rfl
  | .capped _ => rfl
  | .expanded key _ branches ending => by
    have hbranches := Branches.callsAfter_events (before ++ [.enter key d]) key d
      (lastEntered_append_enter d before key) branches
    rw [Tree.events, callsAfter_enter, callsAfter_append, hbranches, callsAfter_endingEvents,
      List.append_nil]
    rfl

/-- Below a method that was last entered at its depth, the calls are the edges. -/
theorem Branches.callsAfter_events (before : List Event) (caller : String) (d : Nat)
    (hcaller : lastEntered d before = some caller) :
    ∀ bs : Branches, callsAfter before (bs.events d) = (bs.edges caller d).map Call.ofEdge
  | .none => rfl
  | .remark r rest => by
    have hrest := Branches.callsAfter_events (before ++ (remarkEvent? d r).toList) caller d
      ((lastEntered_append_remarkEvent d before d r).trans hcaller) rest
    rw [Branches.events, callsAfter_append, callsAfter_remarkEvent, List.nil_append, hrest]
    rfl
  | .call kind callee rest => by
    -- what the callee adds to the log lies below the caller, who is still the last one entered
    have hrest := Branches.callsAfter_events (before ++ callee.events (d + 1)) caller d
      ((lastEntered_append_of_deeper before (callee.lt_depth d)).trans hcaller) rest
    have hdepth : ((d + 1 : Nat) : Int) - 1 = d := by omega
    rw [Branches.events, callsAfter_append, Tree.callsAfter_events before (d + 1) callee, hrest,
      hdepth, hcaller, Branches.edges, List.map_cons, List.map_append]
    rfl

end

/-! ## Expanded and visited keys -/

theorem enteredAbove?_remarkEvent (cap : Int) (d : Nat) (r : Remark) :
    (remarkEvent? d r).toList.filterMap (Event.enteredAbove? cap) = [] := by
  cases r <;> rfl

theorem enteredAbove?_endingEvents (cap : Int) (key : String) (d : Nat) (ending : Option Ending) :
    (endingEvents key d ending).filterMap (Event.enteredAbove? cap) = [] := by
  rcases ending with _ | (_ | _ | _ | _) <;> rfl

/-- **What is entered above the cap is expanded**, in the same order. -/
theorem enteredAbove_invariant (plan : Plan) (cap : Nat) :
    plan.Invariant
      (fun room _ _ _ t _ => ∀ d, d + room = cap →
        (t.events d).filterMap (Event.enteredAbove? cap) = t.expansions.map (·.1))
      (fun room _ _ _ bs _ => ∀ d, d + (room + 1) = cap →
        (bs.events d).filterMap (Event.enteredAbove? cap) = bs.expansions.map (·.1)) where
  calledOff _ _ _ := rfl
  met _ _ _ _ := rfl
  capped _ _ d hd := by
    have hcap : ¬ (d : Int) < cap := by omega
    rw [Tree.events, List.filterMap_cons_none (Event.enteredAbove?_of_not_lt hcap _)]
    rfl
  expanded {room path m p bs q} _ _ _ hB d hd := by
    have hcap : (d : Int) < cap := by omega
    rw [Tree.events, List.filterMap_cons_some (Event.enteredAbove?_of_lt hcap _),
      List.filterMap_append, hB d hd, enteredAbove?_endingEvents, List.append_nil]
    rfl
  done _ _ := rfl
  remark hB d hd := by
    rw [Branches.events, List.filterMap_append, enteredAbove?_remarkEvent, hB d hd]
    rfl
  stopped _ hV _ d hd := by
    rw [Branches.events, Branches.events, List.append_nil, hV (d + 1) (by omega),
      Branches.expansions, Branches.expansions, List.append_nil]
  followed _ hV _ _ hB d hd := by
    rw [Branches.events, List.filterMap_append, hV (d + 1) (by omega), hB d hd,
      Branches.expansions, List.map_append]

/-- Marking a key adds it at the end, unless it is there. -/
theorem Progress.visited_mark {p : Progress} {keys : List String} (key : String)
    (h : p.visited = keys.eraseDups) : (p.mark key).visited = (keys ++ [key]).eraseDups := by
  have hmem : key ∈ p.visited ↔ key ∈ keys := by rw [h, List.mem_eraseDups]
  rw [List.eraseDups_append, ← h]
  unfold Progress.mark
  by_cases hkey : key ∈ keys
  · rw [if_pos (List.contains_iff_mem.mpr (hmem.mpr hkey))]
    simp [List.removeAll, hkey]
  · rw [if_neg (fun hc => hkey (hmem.mp (List.contains_iff_mem.mp hc)))]
    simp [List.removeAll, hkey, List.eraseDups_cons]

/-- **The visited keys are the expanded ones without repetitions**, in the order of their
first expansion. -/
theorem visited_order_invariant (plan : Plan) :
    plan.Invariant
      (fun _ _ _ p t q => ∀ keys, p.visited = keys.eraseDups →
        q.visited = (keys ++ t.expansions.map (·.1)).eraseDups)
      (fun _ _ _ p bs q => ∀ keys, p.visited = keys.eraseDups →
        q.visited = (keys ++ bs.expansions.map (·.1)).eraseDups) where
  calledOff _ keys hp := by rwa [Tree.expansions, List.map_nil, List.append_nil]
  met _ _ keys hp := by rwa [Tree.expansions, List.map_nil, List.append_nil]
  capped _ _ keys hp := by rwa [Tree.expansions, List.map_nil, List.append_nil]
  expanded {_ _ m p _ _} _ _ _ hB keys hp := by
    rw [hB _ (Progress.visited_mark (p := p.polled) (plan.key m) hp), Tree.expansions,
      List.map_cons, List.append_assoc, List.singleton_append]
  done keys hp := by rwa [Branches.expansions, List.map_nil, List.append_nil]
  remark hB keys hp := hB keys hp
  stopped _ hV _ keys hp := by
    rw [Branches.expansions, Branches.expansions, List.append_nil]
    exact hV keys hp
  followed _ hV _ _ hB keys hp := by
    rw [hB _ (hV keys hp), Branches.expansions, List.map_append, List.append_assoc]

/-- The root of a tree is the method that the visit is of. -/
theorem key_invariant (plan : Plan) :
    plan.Invariant (fun _ _ m _ t _ => t.key = plan.key m) (fun _ _ _ _ _ _ => True) where
  calledOff _ := rfl
  met _ _ := rfl
  capped _ _ := rfl
  expanded _ _ _ _ := rfl
  done := trivial
  remark _ := trivial
  stopped _ _ _ := trivial
  followed _ _ _ _ _ := trivial

/-! ## The whole walk -/

section Walks

variable {Body Scope Expr : Type} (model : CodeModel Body Scope Expr) (noise : Noise)
  (options : Options) (calledOff : Nat → Bool) (entry : MethodSymbol)

/-- The expanded keys of a walk are those that were entered above the cap. -/
theorem expanded_eq_enteredAbove :
    (walk model noise options calledOff entry).expanded
      = (walk model noise options calledOff entry).events.filterMap
        (Event.enteredAbove? options.maxDepth) :=
  ((enteredAbove_invariant (Plan.ofModel model noise options calledOff)
    options.maxDepth).grow options.maxDepth [] entry {} 0 (Nat.zero_add _)).symm

/-- The visited keys of a walk are the expanded ones without repetitions. -/
theorem visited_eq_eraseDups :
    (walk model noise options calledOff entry).visited
      = (walk model noise options calledOff entry).expanded.eraseDups :=
  (visited_order_invariant (Plan.ofModel model noise options calledOff)).grow
    options.maxDepth [] entry {} [] rfl

/-- The log of a walk is a word of the grammar, or breaks off in one. -/
theorem logs_walk :
    Logs options.maxDepth
      (Derives options.maxDepth (.node (entry.key options.overloadAwareKeys)) 0)
      (walk model noise options calledOff entry).events
      (walk model noise options calledOff entry).cancelled :=
  (logs_invariant options.maxDepth options calledOff).grow options.maxDepth [] entry {} rfl 0
    (Nat.zero_add _)

variable {model noise options calledOff entry}

/-- The log of a walk that was not called off does not say that it was. -/
theorem reason_ne_cancelled (hrun : (walk model noise options calledOff entry).cancelled = false) :
    ∀ e ∈ (walk model noise options calledOff entry).events,
      Event.reason? e ≠ some .cancelled := by
  intro e he
  have hword := (logs_walk model noise options calledOff entry).word hrun
  exact (hword.forall_mem (Nat.zero_le _) e he).2

/-- **A walk was called off exactly when its log ends with saying so.** -/
theorem cancelled_iff_getLast? :
    (walk model noise options calledOff entry).cancelled = true
      ↔ ∃ k d detail, (walk model noise options calledOff entry).events.getLast?
        = some (.terminal k d .cancelled detail) := by
  constructor
  · intro hcancelled
    have hlogs := logs_walk model noise options calledOff entry
    rw [hcancelled] at hlogs
    generalize (walk model noise options calledOff entry).events = events at hlogs
    cases hlogs with
    | cut before k d _ => exact ⟨k, d, none, List.getLast?_concat ..⟩
  · rintro ⟨k, d, detail, hlast⟩
    cases hrun : (walk model noise options calledOff entry).cancelled with
    | true => rfl
    | false => exact absurd rfl (reason_ne_cancelled hrun _ (List.mem_of_getLast? hlast))

end Walks

/-- **What a walk reports besides its log can be read off the log.** The calls that the log
shows are the visit of the entry, at depth zero and from nowhere, and then the edges, one
for each further visit and with the caller that was last entered one level up. The
expanded keys are those entered above the cap, the visited ones are these without
repetitions, and the walk was called off exactly when the last event says so. -/
theorem bookkeeping_from_log {Body Scope Expr : Type} (model : CodeModel Body Scope Expr)
    (noise : Noise) (options : Options) (calledOff : Nat → Bool) (entry : MethodSymbol) :
    let o := walk model noise options calledOff entry
    o.entry = entry.key options.overloadAwareKeys
      ∧ callsAfter [] o.events = ⟨none, o.entry, 0⟩ :: o.edges.map Call.ofEdge
      ∧ o.expanded = o.events.filterMap (Event.enteredAbove? options.maxDepth)
      ∧ o.visited = o.expanded.eraseDups
      ∧ (o.cancelled = true
        ↔ ∃ k d detail, o.events.getLast? = some (.terminal k d .cancelled detail)) := by
  intro o
  refine ⟨?_, Tree.callsAfter_events [] 0 _, expanded_eq_enteredAbove .., visited_eq_eraseDups ..,
    cancelled_iff_getLast?⟩
  exact (key_invariant (Plan.ofModel model noise options calledOff)).grow options.maxDepth []
    entry {}

end Walk

end CallTree
