import CallTree.CodeModel.Tabular
import CallTree.Proofs.Growth
import Mathlib.Tactic.Set

/-!
# A walk visits what can be reached

The keys that a walk visits are those of the methods that can be reached from its
entry. One half is plain: a visit is only made of the entry and of methods that
an expanded method follows (`reached_invariant`). The other half is the usual one
for a search in depth. When a visit is over, whatever the methods expanded in it
follow has been dealt with (`settled_invariant`): it was expanded, it was listed
at the cap, or it was guarded, and a guarded key has been expanded before – also
when the guard looks at the path alone, since what is on the path was expanded to
get there. Nothing has to be said about methods that are still being expanded.

Keys stand between the walk and the methods. A method that is guarded is not
looked into, so what it follows is known only through the method that was
expanded in its place; the two have to follow the same keys. That is the one
thing asked of a program, and only of what can be reached.
-/

namespace CallTree

open CallTree.Script (Step)

namespace Walk

/-! ## Methods listed at the cap -/

mutual

/-- **The keys of the methods that were listed at the cap.** -/
def Tree.truncated : Tree → List String
  | .capped key => [key]
  | .expanded _ _ branches _ => branches.truncated
  | .calledOff _ => []
  | .met _ => []

/-- The keys of the methods that were listed at the cap below a method. -/
def Branches.truncated : Branches → List String
  | .none => []
  | .remark _ rest => rest.truncated
  | .call _ callee rest => callee.truncated ++ rest.truncated

end

/-- The signature of a method that was listed at the cap. -/
def Event.truncated? : Event → Option String
  | .terminal s _ .depthLimit _ => some s
  | _ => none

theorem truncated?_eq_some {e : Event} {k : String} :
    Event.truncated? e = some k ↔ ∃ d detail, e = .terminal k d .depthLimit detail := by
  constructor
  · intro h
    unfold Event.truncated? at h
    split at h
    · cases h
      exact ⟨_, _, rfl⟩
    · cases h
  · rintro ⟨d, detail, rfl⟩
    rfl

/-- A log that names no method at the cap has no event of one. -/
theorem depthLimit_notMem {events : List Event}
    (h : events.filterMap Event.truncated? = []) (k : String) (d : Int)
    (detail : Option String) : Event.terminal k d .depthLimit detail ∉ events := fun hmem =>
  Option.some_ne_none k (List.filterMap_eq_nil_iff.mp h _ hmem)

/-- Neither a remark nor an ending says that a method was listed at the cap. -/
theorem truncated?_remarkEvent (d : Nat) (r : Remark) :
    (remarkEvent? d r).toList.filterMap Event.truncated? = [] := by
  cases r <;> rfl

theorem truncated?_endingEvents (key : String) (d : Nat) (ending : Option Ending) :
    (endingEvents key d ending).filterMap Event.truncated? = [] := by
  rcases ending with _ | (_ | _ | _ | _) <;> rfl

mutual

/-- **The log says which methods were listed at the cap**, in order. -/
theorem Tree.filterMap_truncated? (d : Nat) :
    ∀ t : Tree, (t.events d).filterMap Event.truncated? = t.truncated
  | .calledOff _ => rfl
  | .met _ => rfl
  | .capped _ => rfl
  | .expanded key _ branches ending => by
    rw [Tree.events, List.filterMap_cons_none rfl, List.filterMap_append,
      Branches.filterMap_truncated? d branches, truncated?_endingEvents, List.append_nil]
    rfl

theorem Branches.filterMap_truncated? (d : Nat) :
    ∀ bs : Branches, (bs.events d).filterMap Event.truncated? = bs.truncated
  | .none => rfl
  | .remark r rest => by
    rw [Branches.events, List.filterMap_append, truncated?_remarkEvent,
      Branches.filterMap_truncated? d rest]
    rfl
  | .call _ callee rest => by
    rw [Branches.events, List.filterMap_append, Tree.filterMap_truncated? (d + 1) callee,
      Branches.filterMap_truncated? d rest]
    rfl

end

/-- A key was listed at the cap exactly when the log says so. -/
theorem Tree.mem_truncated {t : Tree} {d : Nat} {k : String} :
    k ∈ t.truncated ↔ ∃ e detail, Event.terminal k e .depthLimit detail ∈ t.events d := by
  rw [← Tree.filterMap_truncated? d t, List.mem_filterMap]
  constructor
  · rintro ⟨event, hmem, hevent⟩
    obtain ⟨e, detail, rfl⟩ := truncated?_eq_some.mp hevent
    exact ⟨e, detail, hmem⟩
  · rintro ⟨e, detail, hmem⟩
    exact ⟨_, hmem, rfl⟩

/-! ## Everything that is listed can be reached -/

/-- One method follows another, and is itself among the expanded ones. -/
def Plan.FollowsIn (plan : Plan) (expanded : List (String × MethodSymbol))
    (m callee : MethodSymbol) : Prop :=
  m ∈ expanded.map (·.2) ∧ plan.Follows m callee

/-- Reaching a method by way of some expanded methods is reaching it by way of
more. -/
theorem Plan.FollowsIn.mono {plan : Plan} {es es' : List (String × MethodSymbol)} (h : es ⊆ es')
    {m m' : MethodSymbol} (hreach : Relation.ReflTransGen (plan.FollowsIn es) m m') :
    Relation.ReflTransGen (plan.FollowsIn es') m m' := by
  refine Relation.ReflTransGen.mono ?_ m m' hreach
  exact fun _ _ hab => ⟨List.map_subset _ h hab.1, hab.2⟩

/-- **What is listed is reached from somewhere.** Each expanded method can be reached
from one of the starts by way of expanded methods, and each key that was listed at
the cap is the key of a method that can. -/
structure Plan.Reached (plan : Plan) (starts : List MethodSymbol)
    (expanded : List (String × MethodSymbol)) (truncated : List String) : Prop where
  expansion : ∀ e ∈ expanded, ∃ s ∈ starts,
    Relation.ReflTransGen (plan.FollowsIn expanded) s e.2
  truncation : ∀ k ∈ truncated, ∃ s ∈ starts, ∃ m,
    Relation.ReflTransGen (plan.FollowsIn expanded) s m ∧ plan.key m = k

namespace Plan.Reached

variable {plan : Plan} {starts starts' : List MethodSymbol}
  {expanded expanded' : List (String × MethodSymbol)} {truncated truncated' : List String}

theorem nil (starts : List MethodSymbol) : plan.Reached starts [] [] :=
  ⟨by simp, by simp⟩

/-- What two parts of a walk list is reached from the starts of either. -/
theorem append (h : plan.Reached starts expanded truncated)
    (h' : plan.Reached starts' expanded' truncated') :
    plan.Reached (starts ++ starts') (expanded ++ expanded') (truncated ++ truncated') where
  expansion e he := by
    rcases List.mem_append.mp he with he | he
    · obtain ⟨s, hs, hreach⟩ := h.expansion e he
      exact ⟨s, List.mem_append_left _ hs,
        Plan.FollowsIn.mono (List.subset_append_left _ _) hreach⟩
    · obtain ⟨s, hs, hreach⟩ := h'.expansion e he
      exact ⟨s, List.mem_append_right _ hs,
        Plan.FollowsIn.mono (List.subset_append_right _ _) hreach⟩
  truncation k hk := by
    rcases List.mem_append.mp hk with hk | hk
    · obtain ⟨s, hs, m, hreach, hm⟩ := h.truncation k hk
      exact ⟨s, List.mem_append_left _ hs, m,
        Plan.FollowsIn.mono (List.subset_append_left _ _) hreach, hm⟩
    · obtain ⟨s, hs, m, hreach, hm⟩ := h'.truncation k hk
      exact ⟨s, List.mem_append_right _ hs, m,
        Plan.FollowsIn.mono (List.subset_append_right _ _) hreach, hm⟩

/-- What is reached from the callees of a method is reached from the method, once
it is expanded. -/
theorem expand {m : MethodSymbol}
    (h : plan.Reached (plan.script m).callees expanded truncated) :
    plan.Reached [m] ((plan.key m, m) :: expanded) truncated := by
  have hbelow : ∀ s ∈ (plan.script m).callees, ∀ m',
      Relation.ReflTransGen (plan.FollowsIn expanded) s m' →
      Relation.ReflTransGen (plan.FollowsIn ((plan.key m, m) :: expanded)) m m' :=
    -- the method itself counts as expanded now, so the way may begin with it
    fun s hs m' hm' =>
      (Plan.FollowsIn.mono (List.subset_cons_self _ _) hm').head ⟨List.mem_cons_self, hs⟩
  refine ⟨List.forall_mem_cons.mpr ⟨⟨m, List.mem_cons_self, .refl⟩, fun e he => ?_⟩,
    fun k hk => ?_⟩
  · obtain ⟨s, hs, hreach⟩ := h.expansion e he
    exact ⟨m, List.mem_cons_self, hbelow s hs _ hreach⟩
  · obtain ⟨s, hs, m', hreach, hm'⟩ := h.truncation k hk
    exact ⟨m, List.mem_cons_self, m', hbelow s hs m' hreach, hm'⟩

end Plan.Reached

/-- A visit lists only what can be reached from its method. -/
theorem reached_invariant (plan : Plan) :
    plan.Invariant (fun _ _ m _ t _ => plan.Reached [m] t.expansions t.truncated)
      (fun _ _ steps _ bs _ =>
        plan.Reached (Script.calleesOf steps) bs.expansions bs.truncated) where
  calledOff _ := .nil _
  met _ _ := .nil _
  capped _ _ := by
    refine ⟨by simp [Tree.expansions], fun k hk => ?_⟩
    rw [Tree.truncated, List.mem_singleton] at hk
    exact ⟨_, List.mem_cons_self, _, .refl, hk.symm⟩
  expanded _ _ _ hB := hB.expand
  done := .nil _
  remark hB := hB
  stopped _ hV _ := hV.append (.nil _)
  followed _ hV _ _ hB := hV.append hB

/-! ## Everything that is followed is dealt with -/

/-- A key has been dealt with: it was expanded, or it was listed at the cap. -/
def Settled (p : Progress) (truncated : List String) (k : String) : Prop :=
  k ∈ p.visited ∨ k ∈ truncated

theorem Settled.mono {p q : Progress} {ks ks' : List String} {k : String}
    (h : Settled p ks k) (hvisited : p.visited ⊆ q.visited) (hks : ks ⊆ ks') :
    Settled q ks' k :=
  h.imp (fun hk => hvisited hk) (fun hk => hks hk)

/-- **What is begun is brought to an end.** The starts are dealt with, and so is
everything that an expanded method follows. -/
structure Plan.Closed (plan : Plan) (starts : List MethodSymbol)
    (expanded : List (String × MethodSymbol)) (p : Progress) (truncated : List String) :
    Prop where
  start : ∀ s ∈ starts, Settled p truncated (plan.key s)
  callee : ∀ e ∈ expanded, ∀ k ∈ plan.calleeKeys e.2, Settled p truncated k

namespace Plan.Closed

variable {plan : Plan} {starts starts' : List MethodSymbol}
  {expanded expanded' : List (String × MethodSymbol)} {truncated truncated' : List String}
  {p q : Progress}

/-- What was dealt with in two parts of a walk is dealt with after the second. -/
theorem append (h : plan.Closed starts expanded p truncated)
    (h' : plan.Closed starts' expanded' q truncated') (hpq : p.visited ⊆ q.visited) :
    plan.Closed (starts ++ starts') (expanded ++ expanded') q (truncated ++ truncated') where
  start := List.forall_mem_append.mpr
    ⟨fun s hs => (h.start s hs).mono hpq (List.subset_append_left _ _),
      fun s hs => (h'.start s hs).mono (List.Subset.refl _) (List.subset_append_right _ _)⟩
  callee := List.forall_mem_append.mpr
    ⟨fun e he k hk => (h.callee e he k hk).mono hpq (List.subset_append_left _ _),
      fun e he k hk =>
        (h'.callee e he k hk).mono (List.Subset.refl _) (List.subset_append_right _ _)⟩

/-- Once its callees are dealt with, a method can be added to the expanded ones. -/
theorem expand {m : MethodSymbol} (h : plan.Closed (plan.script m).callees expanded p truncated)
    (hm : plan.key m ∈ p.visited) :
    plan.Closed [m] ((plan.key m, m) :: expanded) p truncated where
  start s hs := by
    rw [List.mem_singleton.mp hs]
    exact Or.inl hm
  callee := by
    refine List.forall_mem_cons.mpr ⟨fun k hk => ?_, h.callee⟩
    obtain ⟨callee, hcallee, rfl⟩ := List.mem_map.mp hk
    exact h.start callee hcallee

end Plan.Closed

/-- **A guarded key has been expanded**, if what is on the path has. -/
theorem Plan.mem_visited_of_guards {plan : Plan} {path : List String} {p : Progress}
    {key : String} (hpath : path ⊆ p.visited) (h : plan.guards path p key = true) :
    key ∈ p.visited := by
  unfold Plan.guards at h
  split at h
  · exact hpath (List.contains_iff_mem.mp h)
  · exact List.contains_iff_mem.mp h

/-- A visit that is not called off deals with its method and with everything that
the methods expanded in it follow. -/
theorem settled_invariant (plan : Plan) :
    plan.Invariant
      (fun _ path m p t q => path ⊆ p.visited → q.halted = false →
        plan.Closed [m] t.expansions q t.truncated)
      (fun _ path steps p bs q => path ⊆ p.visited → q.halted = false →
        plan.Closed (Script.calleesOf steps) bs.expansions q bs.truncated) where
  calledOff _ _ hq := by simp at hq
  met _ hg hpath _ := by
    refine ⟨fun s hs => ?_, by simp [Tree.expansions]⟩
    rw [List.mem_singleton.mp hs]
    exact Or.inl (Plan.mem_visited_of_guards hpath hg)
  capped _ _ _ _ := by
    refine ⟨fun s hs => ?_, by simp [Tree.expansions]⟩
    rw [List.mem_singleton.mp hs]
    exact Or.inr List.mem_cons_self
  expanded {room path m p bs q} _ _ hbs hB hpath hq := by
    -- the key is marked before anything below is visited, so the path stays within what
    -- was visited
    have hmarked : plan.key m :: path ⊆ (p.polled.mark (plan.key m)).visited := by
      intro k hk
      rw [Progress.mem_visited_mark]
      exact (List.mem_cons.mp hk).symm.imp_left fun h => hpath h
    have hm : plan.key m ∈ q.visited :=
      visited_subset_of_growBranches hbs (hmarked List.mem_cons_self)
    exact (hB hmarked hq).expand hm
  done _ _ := ⟨by simp, by simp [Branches.expansions]⟩
  remark hB := hB
  stopped _ _ hq _ hq' := by simp [hq] at hq'
  followed ht hV hq hbs hB hpath hq' :=
    (hV hpath hq).append (hB (List.Subset.trans hpath (visited_subset_of_grow ht)) hq')
      (visited_subset_of_growBranches hbs)

/-! ## What can be reached is visited -/

/-- **Reaching a method** by following calls. -/
def Plan.Reaches (plan : Plan) : MethodSymbol → MethodSymbol → Prop :=
  Relation.ReflTransGen plan.Follows

/-- What can be reached from within a set of methods that is closed under calls is
in the set. -/
theorem Plan.Reaches.mem_of_closed {plan : Plan} {ms : List MethodSymbol}
    (hclosed : ∀ m ∈ ms, ∀ callee ∈ (plan.script m).callees, callee ∈ ms)
    {entry m : MethodSymbol} (hentry : entry ∈ ms) (h : plan.Reaches entry m) : m ∈ ms := by
  induction h with
  | refl => exact hentry
  | tail _ hfollows ih => exact hclosed _ ih _ hfollows

/-- What a visit expands can be reached from its method. -/
theorem reaches_of_mem_expansions {plan : Plan} {room : Nat} {path : List String}
    {m : MethodSymbol} {p : Progress} {e : String × MethodSymbol}
    (he : e ∈ (grow plan room path m p).1.expansions) : plan.Reaches m e.2 := by
  obtain ⟨s, hs, hreach⟩ := ((reached_invariant plan).grow room path m p).expansion e he
  rw [List.mem_singleton.mp hs] at hreach
  exact Relation.ReflTransGen.mono (fun _ _ h => h.2) _ _ hreach

/-- A tree lists a key: it expands a method with the key, or has one at the cap. -/
def Tree.Lists (t : Tree) (k : String) : Prop :=
  k ∈ t.expansions.map (·.1) ∨ k ∈ t.truncated

/-- **A tree misses what a method follows**: the key of the method is listed at the
cap and expanded nowhere, or what was expanded under the key is a method that
follows other keys. -/
def Plan.Misses (plan : Plan) (t : Tree) (m : MethodSymbol) : Prop :=
  (plan.key m ∈ t.truncated ∧ plan.key m ∉ t.expansions.map (·.1))
    ∨ ∃ e ∈ t.expansions, e.1 = plan.key m ∧ plan.calleeKeys e.2 ≠ plan.calleeKeys m

section FromTheStart

variable {plan : Plan} {room : Nat} {entry : MethodSymbol}

/-- At the end of a walk what has been dealt with is what the tree lists. -/
theorem settled_iff_lists {k : String} :
    Settled (grow plan room [] entry {}).2 (grow plan room [] entry {}).1.truncated k
      ↔ (grow plan room [] entry {}).1.Lists k :=
  or_congr_left (mem_visited_grow.trans (or_iff_right List.not_mem_nil))

/-- **A walk lists what can be reached, as far as it looks.** Every method that can be
reached from the entry is listed, or else lies beyond a method that is reached on
the way to it and whose callees the walk misses. -/
theorem lists_or_misses (hrun : (grow plan room [] entry {}).2.halted = false)
    {r : MethodSymbol → MethodSymbol → Prop} (hr : ∀ m m', r m m' → plan.Follows m m')
    {m : MethodSymbol} (hm : Relation.ReflTransGen r entry m) :
    (grow plan room [] entry {}).1.Lists (plan.key m)
      ∨ ∃ u, Relation.ReflTransGen r entry u ∧ Relation.TransGen r u m
        ∧ plan.Misses (grow plan room [] entry {}).1 u := by
  have hclosed := (settled_invariant plan).grow room [] entry {} (List.nil_subset _) hrun
  induction hm with
  | refl => exact Or.inl (settled_iff_lists.mp (hclosed.start entry List.mem_cons_self))
  | @tail m callee hm hcall ih =>
    rcases ih with hlisted | ⟨u, hu, hum, hmiss⟩
    · by_cases hexpanded : plan.key m ∈ (grow plan room [] entry {}).1.expansions.map (·.1)
      · -- a method with the key of `m` was expanded; it stands for `m` if it follows the same
        obtain ⟨e, he, hkey⟩ := List.mem_map.mp hexpanded
        by_cases hsame : plan.calleeKeys e.2 = plan.calleeKeys m
        · have hcallee : plan.key callee ∈ plan.calleeKeys e.2 := by
            rw [hsame]
            exact (hr m callee hcall).mem_calleeKeys
          exact Or.inl (settled_iff_lists.mp (hclosed.callee e he _ hcallee))
        · exact Or.inr ⟨m, hm, .single hcall, Or.inr ⟨e, he, hkey, hsame⟩⟩
      · exact Or.inr ⟨m, hm, .single hcall, Or.inl ⟨hlisted.resolve_left hexpanded, hexpanded⟩⟩
    · exact Or.inr ⟨u, hu, hum.tail hcall, hmiss⟩

end FromTheStart

/-- **Keys stand for what methods follow**: methods that can be reached and have the
same key follow the same keys in the same order. -/
def Plan.KeysAgree (plan : Plan) (entry : MethodSymbol) : Prop :=
  ∀ m m', plan.Reaches entry m → plan.Reaches entry m' → plan.key m = plan.key m' →
    plan.calleeKeys m = plan.calleeKeys m'

section Walks

variable {Body Scope Expr : Type} (model : CodeModel Body Scope Expr) (noise : Noise)
  (options : Options) (calledOff : Nat → Bool) (entry : MethodSymbol)

/-- **A walk visits exactly what can be reached.** When methods with the same key
follow the same keys, and the walk is neither called off nor stopped by the cap,
its visited keys are those of the methods that can be reached from the entry. The
guard may be either of the two. -/
theorem mem_visited_iff_reachable
    (hkeys : (Plan.ofModel model noise options calledOff).KeysAgree entry)
    (hrun : (walk model noise options calledOff entry).cancelled = false)
    (hroom : ∀ k d detail,
      Event.terminal k d .depthLimit detail ∉ (walk model noise options calledOff entry).events)
    (k : String) :
    k ∈ (walk model noise options calledOff entry).visited
      ↔ ∃ m, (Plan.ofModel model noise options calledOff).Reaches entry m
        ∧ m.key options.overloadAwareKeys = k := by
  set plan := Plan.ofModel model noise options calledOff
  set t := (grow plan options.maxDepth [] entry {}).1
  have hvisited : k ∈ (walk model noise options calledOff entry).visited
      ↔ k ∈ t.expansions.map (·.1) :=
    mem_visited_grow.trans (or_iff_right List.not_mem_nil)
  have huncut : ∀ k, k ∉ t.truncated := fun k hk => by
    obtain ⟨d, detail, hmem⟩ := Tree.mem_truncated.mp hk
    exact hroom k d detail hmem
  rw [hvisited]
  constructor
  · intro hk
    obtain ⟨e, he, rfl⟩ := List.mem_map.mp hk
    exact ⟨e.2, reaches_of_mem_expansions he, (key_of_mem_expansions he).symm⟩
  · rintro ⟨m, hm, rfl⟩
    rcases lists_or_misses hrun (fun _ _ h => h) hm with hlisted | ⟨u, hu, -, hmiss⟩
    · exact hlisted.resolve_right (huncut _)
    · -- nothing is missed: nothing is cut off, and keys stand for what methods follow
      rcases hmiss with ⟨hcut, -⟩ | ⟨e, he, hkey, hdiffer⟩
      · exact absurd hcut (huncut _)
      · refine absurd (hkeys e.2 u (reaches_of_mem_expansions he) hu ?_) hdiffer
        rw [← key_of_mem_expansions he, hkey]

end Walks

end Walk

/-- A method that is known by its qualified name. Its key is made of the last
segment only, so `p.run` and `q.run` share a key. -/
def MethodSymbol.called (name : String) : MethodSymbol :=
  { name := Text.lastSegment name, qualifiedName := name }

/-- **A program in which methods do nothing but call each other**, given by the
qualified names that each of them calls, in order. -/
def Tabular.Program.ofCalls (calls : List (String × List String)) : Tabular.Program where
  symbols := .empty
  members := .empty
  bodies := calls.map fun (name, callees) =>
    (name, { occurrences := fun
      | .invocation => callees.map fun callee => .mk (some (.method (.called callee))) none none
      | _ => [] })

namespace Walk

/-- In a program with a circle, two ways to `c` and a method `d` that nobody calls,
everything but `d` is visited. -/
theorem mem_visited_iff_reachable_circle :
    let program := Tabular.Program.ofCalls
      [("a", ["b", "c"]), ("b", ["c", "b"]), ("c", ["a"]), ("d", ["a"])]
    let outcome := walk program.model {} {} (fun _ => false) (.called "a")
    outcome.visited = ["<module>.a", "<module>.b", "<module>.c"]
      ∧ ∀ k, k ∈ outcome.visited ↔ ∃ m,
        (Plan.ofModel program.model {} {} fun _ => false).Reaches (.called "a") m
          ∧ m.key false = k := by
  intro program outcome
  have hclosed : ∀ m ∈ [MethodSymbol.called "a", .called "b", .called "c"],
      ∀ callee ∈ ((Plan.ofModel program.model {} {} fun _ => false).script m).callees,
        callee ∈ [MethodSymbol.called "a", .called "b", .called "c"] := by
    decide +kernel
  have hagree : ∀ m ∈ [MethodSymbol.called "a", .called "b", .called "c"],
      ∀ m' ∈ [MethodSymbol.called "a", .called "b", .called "c"],
        (Plan.ofModel program.model {} {} fun _ => false).key m
          = (Plan.ofModel program.model {} {} fun _ => false).key m' →
        (Plan.ofModel program.model {} {} fun _ => false).calleeKeys m
          = (Plan.ofModel program.model {} {} fun _ => false).calleeKeys m' := by
    decide +kernel
  refine ⟨by decide +kernel, mem_visited_iff_reachable program.model {} {} (fun _ => false)
    (.called "a") ?_ (by decide +kernel) (depthLimit_notMem (by decide +kernel))⟩
  intro m m' hm hm'
  exact hagree m (hm.mem_of_closed hclosed List.mem_cons_self) m'
    (hm'.mem_of_closed hclosed List.mem_cons_self)

end Walk

end CallTree
