import CallTree.Proofs.Bookkeeping
import CallTree.Proofs.Lists
import CallTree.Proofs.Reachability

/-!
# A walk that is called off has done a part of the walk

A walk asks once at each visit whether to go on, and nowhere else. So the visit at which it
is called off is known from the signal alone: when the signal first says so at question
number `k`, it is visit number `k`, counted from zero, of the walk that nobody calls off.
Up to there the two walks do the same, and what is under way then is left as it is.

`Tree.stopAt` is the tree that is left. Its root is the method that was about to be visited
when nothing was done, and otherwise the branches are left in the one call that the visit
lies below; what comes after that call has not grown. That a walk which is called off grows
this tree is `stop_invariant`. What it does to the log and to the edges is a matter of trees
alone, and the expanded and visited keys can be read off the log.
-/

namespace CallTree

open CallTree.Script (Step)

/-- **Whether an event is a visit** that was made: the method is entered, or was met
before. -/
def Event.isVisit : Event → Bool
  | .enter _ _ => true
  | .cycle _ _ => true
  | _ => false

/-- Whether an event begins a visit, be it made or called off. -/
def Event.beginsVisit (e : Event) : Bool := e.visit?.isSome

/-- A visit that begins and is not called off is made. -/
theorem Event.eq_of_visit? {e : Event} {s : String} {d : Int} (h : e.visit? = some (s, d))
    (hon : Walk.Event.reason? e ≠ some .cancelled) : e = .enter s d ∨ e = .cycle s d := by
  unfold Event.visit? at h
  split at h
  · cases h
    exact .inl rfl
  · cases h
    exact .inr rfl
  · exact absurd rfl hon
  · cases h

/-- Where the walk is not called off, the visits that are made are those that begin. -/
theorem Event.isVisit_eq {e : Event} (hon : Walk.Event.reason? e ≠ some .cancelled) :
    e.isVisit = e.beginsVisit := by
  cases e with
  | terminal s d reason detail =>
    cases reason with
    | cancelled => exact absurd rfl hon
    | _ => rfl
  | _ => rfl

namespace Walk

/-! ## Counting visits -/

mutual

/-- **The number of visits in a tree**, one of which may be called off. -/
def Tree.visits : Tree → Nat
  | .calledOff _ => 1
  | .met _ => 1
  | .capped _ => 1
  | .expanded _ _ branches _ => branches.visits + 1

/-- The number of visits below a method. -/
def Branches.visits : Branches → Nat
  | .none => 0
  | .remark _ rest => rest.visits
  | .call _ callee rest => callee.visits + rest.visits

end

/-- **A visit asks once**, so the questions count the visits. -/
theorem visits_invariant (plan : Plan) :
    plan.Invariant (fun _ _ _ p t q => q.polls = p.polls + t.visits)
      (fun _ _ _ p bs q => q.polls = p.polls + bs.visits) where
  calledOff _ := rfl
  met _ _ := rfl
  capped _ _ := rfl
  expanded _ _ _ hB := by
    rw [hB, Progress.mark_polls, Progress.polled_polls, Tree.visits]
    omega
  done := rfl
  remark hB := hB
  stopped _ hV _ := hV
  followed _ hV _ _ hB := by
    rw [hB, hV, Branches.visits, Nat.add_assoc]

/-- Without a signal a walk is never called off. -/
theorem on_invariant (plan : Plan) (hfree : ∀ n, plan.calledOff n = false) :
    plan.Invariant (fun _ _ _ p _ q => p.halted = false → q.halted = false)
      (fun _ _ _ p _ q => p.halted = false → q.halted = false) where
  calledOff h := by
    rw [hfree] at h
    cases h
  met _ _ hp := hp
  capped _ _ hp := hp
  expanded _ _ _ hB hp := hB (by rw [Progress.mark_halted, Progress.polled_halted, hp])
  done hp := hp
  remark hB hp := hB hp
  stopped _ hV _ hp := hV hp
  followed _ _ hq _ hB _ := hB hq

/-! ## Leaving a tree -/

mutual

/-- **A tree that is left at a visit**, after so many visits. -/
def Tree.stopAt : Nat → Tree → Tree
  | 0, t => .calledOff t.key
  | n + 1, .expanded key m branches _ => .expanded key m (branches.stopAt n) none
  | _ + 1, .calledOff key => .calledOff key
  | _ + 1, .met key => .met key
  | _ + 1, .capped key => .capped key

/-- Branches that are left at a visit below them. Nothing grows after the call that the
visit is made in. -/
def Branches.stopAt : Nat → Branches → Branches
  | _, .none => .none
  | n, .remark r rest => .remark r (rest.stopAt n)
  | n, .call kind callee rest =>
    if n < callee.visits then .call kind (callee.stopAt n) .none
    else .call kind callee (rest.stopAt (n - callee.visits))

end

theorem Branches.stopAt_call_of_lt {n : Nat} {callee : Tree} (h : n < callee.visits)
    (kind : EdgeKind) (rest : Branches) :
    (Branches.call kind callee rest).stopAt n = .call kind (callee.stopAt n) .none := by
  rw [Branches.stopAt]
  exact if_pos h

theorem Branches.stopAt_call_of_le {n : Nat} {callee : Tree} (h : callee.visits ≤ n)
    (kind : EdgeKind) (rest : Branches) :
    (Branches.call kind callee rest).stopAt n
      = .call kind callee (rest.stopAt (n - callee.visits)) := by
  rw [Branches.stopAt]
  exact if_neg (Nat.not_lt.mpr h)

/-- Wherever a tree is left, its root is the same. -/
theorem Tree.key_stopAt (n : Nat) (t : Tree) : (t.stopAt n).key = t.key := by
  cases n with
  | zero => rw [Tree.stopAt, Tree.key]
  | succ n =>
    cases t with
    | expanded key m branches ending => rw [Tree.stopAt]; rfl
    | calledOff key => rfl
    | met key => rfl
    | capped key => rfl

/-- **What remains of a visit, or of some steps**, that began after `n` questions, when the
signal is given at question number `k`: all of it, if it is over by then, and otherwise what
came before, after which the walk has been called off. -/
inductive Remains {α : Type} (stopAt : Nat → α → α) (k n : Nat) :
    α × Progress → α × Progress → Prop
  | whole {x : α} {q : Progress} (h : q.polls ≤ k) : Remains stopAt k n (x, q) (x, q)
  | part {x : α} {q q' : Progress} (h : k < q.polls) (hq' : q'.halted = true) :
    Remains stopAt k n (x, q) (stopAt (k - n) x, q')

section Signal

variable {plan : Plan} {signal : Nat → Bool} {k : Nat}

/-- The visit at which the signal is given is left before anything is done. -/
theorem Remains.of_signal (hk : signal k = true) {room : Nat} {path : List String}
    {m : MethodSymbol} {p q : Progress} {t : Tree} (hp : p.polls = k) (hq : k < q.polls)
    (hkey : t.key = plan.key m) :
    Remains Tree.stopAt k p.polls (t, q)
      (grow { plan with calledOff := signal } room path m p) := by
  have hcalled : ({ plan with calledOff := signal } : Plan).calledOff p.polls = true := by
    rw [hp]
    exact hk
  have hroot : t.stopAt (k - p.polls) = .calledOff (plan.key m) := by
    rw [hp, Nat.sub_self, Tree.stopAt, hkey]
  rw [grow_calledOff hcalled]
  show Remains _ _ _ _ (Tree.calledOff (plan.key m), _)
  rw [← hroot]
  exact .part hq rfl

/-- **A walk that is called off leaves the tree** of the one that is not, at the visit with
the number of the question that the signal is first given at. -/
theorem stop_invariant (plan : Plan) (hfree : ∀ n, plan.calledOff n = false)
    (hk : signal k = true) (hfirst : ∀ j < k, signal j = false) :
    plan.Invariant
      (fun room path m p t q => p.halted = false → p.polls ≤ k →
        Remains Tree.stopAt k p.polls (t, q)
          (grow { plan with calledOff := signal } room path m p))
      (fun room path steps p bs q => p.halted = false → p.polls ≤ k →
        Remains Branches.stopAt k p.polls (bs, q)
          (growBranches (grow { plan with calledOff := signal } room path) steps p)) := by
  let called : Plan := { plan with calledOff := signal }
  constructor
  case calledOff =>
    intro _ _ _ p h
    rw [hfree] at h
    cases h
  case met =>
    intro _ path m p _ hg _ hle
    rcases Nat.lt_or_eq_of_le hle with hbefore | hnow
    · have hon : called.calledOff p.polls = false := hfirst _ hbefore
      have hmet : called.guards path p (called.key m) = true := hg
      rw [grow_met hon hmet]
      exact .whole hbefore
    · exact .of_signal hk hnow (hnow ▸ Nat.lt_succ_self _) rfl
  case capped =>
    intro path m p _ hg _ hle
    rcases Nat.lt_or_eq_of_le hle with hbefore | hnow
    · have hon : called.calledOff p.polls = false := hfirst _ hbefore
      have hnew : called.guards path p (called.key m) = false := hg
      rw [grow_capped hon hnew]
      exact .whole hbefore
    · exact .of_signal hk hnow (hnow ▸ Nat.lt_succ_self _) rfl
  case expanded =>
    intro room path m p bs q _ hg hbs hB hp hle
    have hopened : (p.polled.mark (plan.key m)).polls = p.polls + 1 := by
      rw [Progress.mark_polls, Progress.polled_polls]
    rcases Nat.lt_or_eq_of_le hle with hbefore | hnow
    · have hon : called.calledOff p.polls = false := hfirst _ hbefore
      have hnew : called.guards path p (called.key m) = false := hg
      have hremains := hB (by rw [Progress.mark_halted]; exact hp) (hopened ▸ hbefore)
      generalize hgrow : growBranches (grow called room (plan.key m :: path)) (plan.script m).steps
        (p.polled.mark (plan.key m)) = r at hremains
      cases hremains with
      | whole hqk =>
        rw [grow_expanded hon hnew hgrow]
        exact .whole hqk
      | part hkq hq' =>
        -- the method stays unfinished, with the branches that are left of it
        have hnumber : k - p.polls = k - (p.polls + 1) + 1 := by omega
        have hleft : ∀ ending, (Tree.expanded (plan.key m) m bs ending).stopAt (k - p.polls)
            = .expanded (plan.key m) m (bs.stopAt (k - (p.polls + 1))) none := fun ending => by
          rw [hnumber, Tree.stopAt]
        rw [hopened] at hgrow
        rw [grow_expanded hon hnew hgrow, hq', if_pos rfl]
        show Remains _ _ _ _ (Tree.expanded (plan.key m) m _ none, _)
        rw [← hleft]
        exact .part hkq hq'
    · exact .of_signal hk hnow (hnow ▸ polls_lt_of_growBranches hbs) rfl
  case done =>
    intro _ _ p _ hle
    exact .whole hle
  case remark =>
    intro room path r steps p bs q hB hp hle
    have hremains := hB hp hle
    rw [growBranches_remark]
    generalize growBranches (grow called room path) steps p = rest at hremains ⊢
    cases hremains with
    | whole hqk => exact .whole hqk
    | part hkq hq' => exact .part hkq hq'
  case stopped =>
    intro room path kind callee steps p t q hgrow _ hq hp
    have hon := (on_invariant plan hfree).grow room path callee p hp
    rw [hgrow, hq] at hon
    cases hon
  case followed =>
    intro room path kind callee steps p t q bs q' hgrow hV hq hbs hB hp hle
    have hvisits : q.polls = p.polls + t.visits := by
      have hcount := (visits_invariant plan).grow room path callee p
      rwa [hgrow] at hcount
    have hcallee := hV hp hle
    generalize hcalled : grow called room path callee p = r at hcallee
    cases hcallee with
    | part hkq hr =>
      -- the signal is given below this call, which is then the last one
      have hleft : (Branches.call kind t bs).stopAt (k - p.polls)
          = .call kind (t.stopAt (k - p.polls)) .none :=
        Branches.stopAt_call_of_lt (by omega) kind bs
      rw [growBranches_stopped hcalled hr, ← hleft]
      exact .part (Nat.lt_of_lt_of_le hkq (polls_le_of_growBranches hbs)) hr
    | whole hqk =>
      have hrest := hB hq hqk
      rw [growBranches_followed hcalled hq]
      generalize growBranches (grow called room path) steps q = rest at hrest ⊢
      cases hrest with
      | whole hq'k => exact .whole hq'k
      | part hkq' hr =>
        have hnumber : k - q.polls = k - p.polls - t.visits := by omega
        rw [hnumber, ← Branches.stopAt_call_of_le (by omega) kind bs]
        exact .part hkq' hr

end Signal

/-! ## What leaving does to the log -/

/-- **Where a log is left**: before the visit with this number, which is of a method with
this key at this depth. -/
structure VisitAt (log : List Event) (n : Nat) (before : List Event) (s : String) (d : Int) :
    Prop where
  number : before.countP Event.beginsVisit = n
  splits : ∃ e after, log = before ++ e :: after ∧ e.visit? = some (s, d)

namespace VisitAt

variable {log before : List Event} {n : Nat} {s : String} {d : Int}

/-- The visit that a log begins with. -/
theorem head {e : Event} (h : e.visit? = some (s, d)) (rest : List Event) :
    VisitAt (e :: rest) 0 [] s d :=
  ⟨rfl, e, rest, rfl, h⟩

theorem prepend (h : VisitAt log n before s d) (u : List Event) :
    VisitAt (u ++ log) (u.countP Event.beginsVisit + n) (u ++ before) s d := by
  obtain ⟨hn, e, after, rfl, he⟩ := h
  refine ⟨?_, e, after, (List.append_assoc u before _).symm, he⟩
  rw [List.countP_append, hn]

theorem append (h : VisitAt log n before s d) (v : List Event) :
    VisitAt (log ++ v) n before s d := by
  obtain ⟨hn, e, after, rfl, he⟩ := h
  refine ⟨hn, e, after ++ v, ?_, he⟩
  rw [List.append_assoc, List.cons_append]

end VisitAt

/-- **A log is that of another, left** before its visit with this number, and says that the
walk was called off there. -/
def LeftAt (n : Nat) (log left : List Event) : Prop :=
  ∃ before s d, VisitAt log n before s d ∧ left = before ++ [.terminal s d .cancelled none]

namespace LeftAt

variable {log left : List Event} {n : Nat}

theorem prepend (h : LeftAt n log left) (u : List Event) :
    LeftAt (u.countP Event.beginsVisit + n) (u ++ log) (u ++ left) := by
  obtain ⟨before, s, d, hvisit, rfl⟩ := h
  exact ⟨u ++ before, s, d, hvisit.prepend u, (List.append_assoc u before _).symm⟩

theorem append (h : LeftAt n log left) (v : List Event) : LeftAt n (log ++ v) left := by
  obtain ⟨before, s, d, hvisit, rfl⟩ := h
  exact ⟨before, s, d, hvisit.append v, rfl⟩

end LeftAt

/-- Neither a remark nor an ending is a visit. -/
theorem countP_remarkEvent (d : Nat) (r : Remark) :
    (remarkEvent? d r).toList.countP Event.beginsVisit = 0 := by
  cases r <;> rfl

theorem countP_endingEvents (key : String) (d : Nat) (ending : Option Ending) :
    (endingEvents key d ending).countP Event.beginsVisit = 0 := by
  rcases ending with _ | (_ | _ | _ | _) <;> rfl

mutual

/-- The log of a tree shows each visit once. -/
theorem Tree.countP_events (d : Nat) :
    ∀ t : Tree, (t.events d).countP Event.beginsVisit = t.visits
  | .calledOff _ => rfl
  | .met _ => rfl
  | .capped _ => rfl
  | .expanded key _ branches ending => by
    have henter : (Event.enter key d).beginsVisit = true := rfl
    rw [Tree.events, List.countP_cons_of_pos henter, List.countP_append,
      Branches.countP_events d branches, countP_endingEvents, Tree.visits, Nat.add_zero]

theorem Branches.countP_events (d : Nat) :
    ∀ bs : Branches, (bs.events d).countP Event.beginsVisit = bs.visits
  | .none => rfl
  | .remark r rest => by
    rw [Branches.events, List.countP_append, countP_remarkEvent, Branches.countP_events d rest,
      Branches.visits, Nat.zero_add]
  | .call _ callee rest => by
    rw [Branches.events, List.countP_append, Tree.countP_events (d + 1) callee,
      Branches.countP_events d rest, Branches.visits]

end

/-- The log of a tree that is left before anything was done. -/
theorem Tree.leftAt_zero (d : Nat) (t : Tree) :
    LeftAt 0 (t.events d) [.terminal t.key d .cancelled none] := by
  refine ⟨[], t.key, d, ?_, rfl⟩
  cases t <;> exact .head rfl _

mutual

/-- **The log of a tree that is left** is left at the visit with the same number. -/
theorem Tree.events_stopAt (d : Nat) :
    ∀ (t : Tree) (n : Nat), n < t.visits → LeftAt n (t.events d) ((t.stopAt n).events d)
  | t, 0, _ => by
    rw [Tree.stopAt]
    exact t.leftAt_zero d
  | .expanded key m branches ending, n + 1, hn => by
    have hbranches := Branches.events_stopAt d branches n (Nat.lt_of_succ_lt_succ hn)
    have hleft := (hbranches.append (endingEvents key d ending)).prepend [.enter key d]
    have hnumber : [Event.enter key d].countP Event.beginsVisit + n = n + 1 := Nat.add_comm 1 n
    rw [hnumber] at hleft
    rw [Tree.stopAt, Tree.events, Tree.events, endingEvents, List.append_nil]
    exact hleft
  | .calledOff _, n + 1, hn => absurd (Nat.lt_of_succ_lt_succ hn) (Nat.not_lt_zero n)
  | .met _, n + 1, hn => absurd (Nat.lt_of_succ_lt_succ hn) (Nat.not_lt_zero n)
  | .capped _, n + 1, hn => absurd (Nat.lt_of_succ_lt_succ hn) (Nat.not_lt_zero n)

theorem Branches.events_stopAt (d : Nat) :
    ∀ (bs : Branches) (n : Nat), n < bs.visits → LeftAt n (bs.events d) ((bs.stopAt n).events d)
  | .none, n, hn => absurd hn (Nat.not_lt_zero n)
  | .remark r rest, n, hn => by
    have hrest := (Branches.events_stopAt d rest n hn).prepend (remarkEvent? d r).toList
    rw [countP_remarkEvent, Nat.zero_add] at hrest
    exact hrest
  | .call kind callee rest, n, hn => by
    rcases Nat.lt_or_ge n callee.visits with hlt | hge
    · have hcallee := Tree.events_stopAt (d + 1) callee n hlt
      rw [Branches.stopAt_call_of_lt hlt, Branches.events, Branches.events, Branches.events,
        List.append_nil]
      exact hcallee.append (rest.events d)
    · have hlt : n - callee.visits < rest.visits := by
        rw [Branches.visits] at hn
        omega
      have hrest := (Branches.events_stopAt d rest _ hlt).prepend (callee.events (d + 1))
      rw [Tree.countP_events, Nat.add_sub_cancel' hge] at hrest
      rw [Branches.stopAt_call_of_le hge]
      exact hrest

end

/-! ## What leaving does to the edges -/

mutual

/-- All visits but the first are made along an edge. -/
theorem Tree.length_edges (d : Nat) : ∀ t : Tree, (t.edges d).length + 1 = t.visits
  | .calledOff _ => rfl
  | .met _ => rfl
  | .capped _ => rfl
  | .expanded key _ branches _ => by
    rw [Tree.edges, Branches.length_edges key d branches, Tree.visits]

theorem Branches.length_edges (caller : String) (d : Nat) :
    ∀ bs : Branches, (bs.edges caller d).length = bs.visits
  | .none => rfl
  | .remark _ rest => Branches.length_edges caller d rest
  | .call _ callee rest => by
    rw [Branches.edges, List.length_cons, List.length_append, Branches.length_edges caller d rest,
      Branches.visits, ← Tree.length_edges (d + 1) callee]
    omega

end

mutual

/-- **The edges of a tree that is left** after so many visits are as many, the last one to
the method that was about to be visited. -/
theorem Tree.edges_stopAt (d : Nat) :
    ∀ (t : Tree) (n : Nat), n < t.visits → (t.stopAt n).edges d = (t.edges d).take n
  | t, 0, _ => by rw [Tree.stopAt, Tree.edges, List.take_zero]
  | .expanded key m branches ending, n + 1, hn =>
    Branches.edges_stopAt key d branches n (Nat.lt_of_succ_lt_succ hn)
  | .calledOff _, n + 1, hn => absurd (Nat.lt_of_succ_lt_succ hn) (Nat.not_lt_zero n)
  | .met _, n + 1, hn => absurd (Nat.lt_of_succ_lt_succ hn) (Nat.not_lt_zero n)
  | .capped _, n + 1, hn => absurd (Nat.lt_of_succ_lt_succ hn) (Nat.not_lt_zero n)

theorem Branches.edges_stopAt (caller : String) (d : Nat) :
    ∀ (bs : Branches) (n : Nat), n < bs.visits →
      (bs.stopAt n).edges caller d = (bs.edges caller d).take (n + 1)
  | .none, n, hn => absurd hn (Nat.not_lt_zero n)
  | .remark _ rest, n, hn => Branches.edges_stopAt caller d rest n hn
  | .call kind callee rest, n, hn => by
    have hlength := callee.length_edges (d + 1)
    rcases Nat.lt_or_ge n callee.visits with hlt | hge
    · rw [Branches.stopAt_call_of_lt hlt, Branches.edges, Branches.edges, Branches.edges,
        List.append_nil, Tree.key_stopAt, Tree.edges_stopAt (d + 1) callee n hlt,
        List.take_succ_cons, List.take_append_of_le_length (by omega)]
    · have hlt : n - callee.visits < rest.visits := by
        rw [Branches.visits] at hn
        omega
      have hall : (callee.edges (d + 1)).take n = callee.edges (d + 1) :=
        List.take_of_length_le (by omega)
      have hnumber : n - (callee.edges (d + 1)).length = n - callee.visits + 1 := by omega
      rw [Branches.stopAt_call_of_le hge, Branches.edges, Branches.edges,
        Branches.edges_stopAt caller d rest _ hlt, List.take_succ_cons, List.take_append, hall,
        hnumber]

end

/-! ## The whole walk -/

/-- **A walk that is called off has done the first part of the walk.** Let the signal say so
first at question number `k`. When the walk that nobody calls off makes no more than `k`
visits, the outcome is the same. Otherwise its log is the same up to visit number `k`, and
ends with a terminal in the place of that visit; its edges are the first `k`; and the
expanded and visited keys are those of the log up to there, an initial part of what they
would have been. -/
theorem calling_off_leaves_first_part {Body Scope Expr : Type}
    (model : CodeModel Body Scope Expr) (noise : Noise) (options : Options) (signal : Nat → Bool)
    (entry : MethodSymbol) {k : Nat} (hk : signal k = true) (hfirst : ∀ j < k, signal j = false) :
    let free := walk model noise options (fun _ => false) entry
    let o := walk model noise options signal entry
    (free.events.countP Event.isVisit ≤ k → o = free)
    ∧ (k < free.events.countP Event.isVisit →
      o.entry = free.entry ∧ o.cancelled = true ∧ o.edges = free.edges.take k
      ∧ ∃ before e after s d,
        free.events = before ++ e :: after ∧ (e = .enter s d ∨ e = .cycle s d)
        ∧ before.countP Event.isVisit = k
        ∧ o.events = before ++ [.terminal s d .cancelled none]
        ∧ o.expanded = before.filterMap (Event.enteredAbove? options.maxDepth)
        ∧ o.expanded <+: free.expanded
        ∧ o.visited = o.expanded.eraseDups ∧ o.visited <+: free.visited) := by
  intro free o
  let plan := Plan.ofModel model noise options fun _ => false
  let t := (grow plan options.maxDepth [] entry {}).1
  let q := (grow plan options.maxDepth [] entry {}).2
  have hrun : free.cancelled = false :=
    (on_invariant plan fun _ => rfl).grow options.maxDepth [] entry {} rfl
  have hon : ∀ e ∈ free.events, Event.reason? e ≠ some .cancelled := reason_ne_cancelled hrun
  have hcount : ∀ u : List Event, (∀ e ∈ u, Event.reason? e ≠ some .cancelled) →
      u.countP Event.isVisit = u.countP Event.beginsVisit := fun u hu =>
    List.countP_congr fun e he => by rw [Event.isVisit_eq (hu e he)]
  have hvisits : free.events.countP Event.isVisit = t.visits :=
    (hcount _ hon).trans (t.countP_events 0)
  have hpolls : q.polls = t.visits :=
    ((visits_invariant plan).grow options.maxDepth [] entry {}).trans (Nat.zero_add _)
  have hremains : Remains Tree.stopAt k 0 (t, q) (treeFrom model noise options signal entry) :=
    (stop_invariant plan (fun _ => rfl) hk hfirst).grow options.maxDepth [] entry {} rfl
      (Nat.zero_le k)
  generalize htree : treeFrom model noise options signal entry = r at hremains
  rw [hvisits, ← hpolls]
  cases hremains with
  | whole hle =>
    exact ⟨fun _ => walk_of_treeFrom htree, fun hlt => absurd hlt (Nat.not_lt.mpr hle)⟩
  | @part _ _ q' hlt hq =>
    refine ⟨fun hle => absurd hlt (Nat.not_lt.mpr hle), fun _ => ?_⟩
    have ho : o = .ofTree entry (t.stopAt k) q' := walk_of_treeFrom htree
    rw [hpolls] at hlt
    obtain ⟨before, s, d, ⟨hnumber, e, after, hsplit, he⟩, hleft⟩ := t.events_stopAt 0 k hlt
    have hevents : free.events = before ++ e :: after := hsplit
    have hleft' : o.events = before ++ [.terminal s d .cancelled none] := by rw [ho]; exact hleft
    rw [hevents] at hon
    obtain ⟨honBefore, honRest⟩ := List.forall_mem_append.mp hon
    have hexpanded : o.expanded = before.filterMap (Event.enteredAbove? options.maxDepth) := by
      rw [expanded_eq_enteredAbove, hleft', List.filterMap_append]
      exact List.append_nil _
    have hprefix : o.expanded <+: free.expanded := by
      rw [hexpanded, expanded_eq_enteredAbove, hevents, List.filterMap_append]
      exact List.prefix_append _ _
    have hvisited : o.visited = o.expanded.eraseDups := visited_eq_eraseDups ..
    refine ⟨?_, ?_, ?_, before, e, after, s, d, hevents, ?_, ?_, hleft', hexpanded, hprefix,
      hvisited, ?_⟩
    · rw [ho]
      exact t.key_stopAt k
    · rw [ho]
      exact hq
    · rw [ho]
      exact t.edges_stopAt 0 k hlt
    · exact Event.eq_of_visit? he (honRest e List.mem_cons_self)
    · rw [hcount before honBefore, hnumber]
    · rw [hvisited, visited_eq_eraseDups]
      exact eraseDups_prefix hprefix

/-- `a` calls `b` and `c`, and from both of them the walk comes back to what it has met. -/
def rounds : Tabular.Program :=
  .ofCalls [("a", ["b", "c"]), ("b", ["c", "b"]), ("c", ["a"])]

/-- The walk from `a`, with a signal that is given at one question only. -/
def walkRounds (number : Nat) : Outcome :=
  walk rounds.model {} {} (· == number) (.called "a")

/-- There are six visits. A signal at question number four leaves four of them, though it is
not given again; a signal at question number six is never seen. -/
theorem calling_off_leaves_first_part_rounds :
    let free := walk rounds.model {} {} (fun _ => false) (.called "a")
    free.events
        = [.enter "<module>.a" 0, .enter "<module>.b" 1, .enter "<module>.c" 2,
          .cycle "<module>.a" 3, .cycle "<module>.b" 2, .cycle "<module>.c" 1]
      ∧ (walkRounds 4).events = free.events.take 4 ++ [.terminal "<module>.b" 2 .cancelled none]
      ∧ (walkRounds 4).edges = free.edges.take 4
      ∧ (walkRounds 4).visited <+: free.visited
      ∧ (walkRounds 4).cancelled = true
      ∧ walkRounds 6 = free := by
  intro free
  have hevents : free.events
      = [.enter "<module>.a" 0, .enter "<module>.b" 1, .enter "<module>.c" 2,
        .cycle "<module>.a" 3, .cycle "<module>.b" 2, .cycle "<module>.c" 1] := by decide +kernel
  have hfour := calling_off_leaves_first_part rounds.model {} {} (· == 4) (.called "a")
    (show (4 == 4) = true from rfl) (by decide)
  have hsix := calling_off_leaves_first_part rounds.model {} {} (· == 6) (.called "a")
    (show (6 == 6) = true from rfl) (by decide)
  obtain ⟨-, hcancelled, hedges, -, -, -, -, -, -, -, -, -, -, -, -, hvisited⟩ :=
    hfour.2 (by decide +kernel)
  exact ⟨hevents, by decide +kernel, hedges, hvisited, hcancelled, hsix.1 (by decide +kernel)⟩

end Walk

end CallTree
