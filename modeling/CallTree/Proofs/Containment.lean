import CallTree.Proofs.CutShort
import CallTree.Proofs.EventGrammar

/-!
# A fault stays where it came up

A fault comes up while the body of some method is being gone through. What the walk has done
by then stands. The rest of the body is left undone, a terminal says why, and the caller goes
on as if the body had come to its end there.

"As if" refers to the model in which every body is cut short before its first fault. The
walks over the two models are the same visit by visit (`containment_invariant`): they ask as
often, mark the same keys, follow the same calls, and are called off at the same point. What
the given model has beyond the other are the terminals of the faults (`Tree.eventsWith`). A
fault does not come up in a body that is left because the walk is called off, so there is no
terminal then.
-/

namespace CallTree

open CallTree.Script (Step)

variable {Body Scope Expr : Type}

namespace Walk

/-! ## Trees with faults -/

/-- **The terminal of a fault** in the body of a method that was gone through to its end. In
a body that was left because the walk was called off, no fault comes up any more. -/
def faultEvents (key : String) (depth : Nat) : Option Ending → Option Fault → List Event
  | some _, some fault => [.terminal key depth .providerError (some fault.message)]
  | some _, none => []
  | none, _ => []

mutual

/-- **The events of a tree with faults**: those of the tree, and where a method that has a
fault was gone through, a terminal after everything else. -/
def Tree.eventsWith (fault : MethodSymbol → Option Fault) (depth : Nat) : Tree → List Event
  | .calledOff key => [.terminal key depth .cancelled none]
  | .met key => [.cycle key depth]
  | .capped key => [.enter key depth, .terminal key depth .depthLimit none]
  | .expanded key m branches ending =>
    .enter key depth :: (branches.eventsWith fault depth
      ++ (endingEvents key depth ending ++ faultEvents key depth ending (fault m)))

/-- The events of branches with faults. -/
def Branches.eventsWith (fault : MethodSymbol → Option Fault) (depth : Nat) :
    Branches → List Event
  | .none => []
  | .remark r rest => (remarkEvent? depth r).toList ++ rest.eventsWith fault depth
  | .call _ callee rest => callee.eventsWith fault (depth + 1) ++ rest.eventsWith fault depth

end

/-- What closes a method that fails is what closes it where it is cut short, and the
terminal of its fault. -/
theorem endingEvents_of_failsAs {s s' : Script} {fault : Option Fault} (h : s.FailsAs s' fault)
    (key : String) (depth : Nat) (halted : Bool) :
    endingEvents key depth (if halted then none else some s.ending)
      = endingEvents key depth (if halted then none else some s'.ending)
        ++ faultEvents key depth (if halted then none else some s'.ending) fault := by
  cases halted with
  | true => rfl
  | false =>
    simp only [Bool.false_eq_true, if_false]
    cases fault with
    | none =>
      rw [h.ending_eq]
      exact (List.append_nil _).symm
    | some fault =>
      rw [h.ending_eq, h.complete rfl]
      rfl

/-! ## Branches that are heard of -/

/-- The branches without the remarks that nobody hears of. -/
def Branches.hushed : Branches → Branches
  | .none => .none
  | .remark r rest => if (Step.remark r).isAudible then .remark r rest.hushed else rest.hushed
  | .call kind callee rest => .call kind callee rest.hushed

/-- A remark that nobody hears of has no event. -/
theorem remarkEvent?_of_inaudible {r : Remark} (h : ¬ (Step.remark r).isAudible = true)
    (depth : Nat) : remarkEvent? depth r = none := by
  cases r with
  | opened => rfl
  | unresolved member => rfl
  | creates typeName => exact absurd rfl h
  | uses member => exact absurd rfl h

/-- Steps that nobody hears of grow nothing but such remarks. -/
theorem growBranches_audible (visit : MethodSymbol → Progress → Tree × Progress)
    (steps : List Step) (p : Progress) :
    growBranches visit (Script.audible steps) p
      = ((growBranches visit steps p).1.hushed, (growBranches visit steps p).2) := by
  unfold Script.audible
  induction steps generalizing p with
  | nil => rfl
  | cons step steps ih =>
    cases step with
    | remark r =>
      rw [growBranches_remark, Branches.hushed]
      by_cases hr : (Step.remark r).isAudible = true
      · rw [List.filter_cons_of_pos hr, growBranches_remark, ih p, if_pos hr]
      · rw [List.filter_cons_of_neg hr, ih p, if_neg hr]
    | follow kind callee =>
      rw [List.filter_cons_of_pos rfl]
      cases hq : (visit callee p).2.halted with
      | true =>
        rw [growBranches_stopped rfl hq, growBranches_stopped rfl hq]
        rfl
      | false =>
        rw [growBranches_followed rfl hq, growBranches_followed rfl hq, ih]
        rfl

/-- **Nothing that is reported changes** when these remarks are dropped. -/
theorem Branches.reports_hushed (fault : MethodSymbol → Option Fault) :
    ∀ (bs : Branches) (caller : String) (depth : Nat),
      bs.hushed.eventsWith fault depth = bs.eventsWith fault depth
        ∧ bs.hushed.edges caller depth = bs.edges caller depth
        ∧ bs.hushed.expansions = bs.expansions
  | .none, _, _ => ⟨rfl, rfl, rfl⟩
  | .remark r rest, caller, depth => by
    obtain ⟨hevents, hedges, hexpansions⟩ := Branches.reports_hushed fault rest caller depth
    rw [hushed]
    split
    · refine ⟨?_, hedges, hexpansions⟩
      rw [eventsWith, eventsWith, hevents]
    · rename_i hr
      refine ⟨?_, hedges, hexpansions⟩
      rw [eventsWith, remarkEvent?_of_inaudible hr, hevents]
      rfl
  | .call kind callee rest, caller, depth => by
    obtain ⟨hevents, hedges, hexpansions⟩ := Branches.reports_hushed fault rest caller depth
    refine ⟨?_, ?_, ?_⟩
    · rw [hushed, eventsWith, eventsWith, hevents]
    · rw [hushed, edges, edges, hedges]
    · rw [hushed, expansions, expansions, hexpansions]

/-! ## The two walks -/

/-- **A tree is another with faults**: what it reports is what the other reports, up to the
terminals of the faults. -/
structure Tree.FaultyFrom (fault : MethodSymbol → Option Fault) (t t' : Tree) : Prop where
  key : t.key = t'.key
  events : ∀ depth, t.events depth = t'.eventsWith fault depth
  edges : ∀ depth, t.edges depth = t'.edges depth
  expansions : t.expansions = t'.expansions

/-- The same of branches. -/
structure Branches.FaultyFrom (fault : MethodSymbol → Option Fault) (bs bs' : Branches) :
    Prop where
  events : ∀ depth, bs.events depth = bs'.eventsWith fault depth
  edges : ∀ caller depth, bs.edges caller depth = bs'.edges caller depth
  expansions : bs.expansions = bs'.expansions

namespace Branches.FaultyFrom

variable {fault : MethodSymbol → Option Fault} {bs bs' : Branches}

theorem none : Branches.none.FaultyFrom fault .none := ⟨fun _ => rfl, fun _ _ => rfl, rfl⟩

theorem remark (h : bs.FaultyFrom fault bs') (r : Remark) :
    (Branches.remark r bs).FaultyFrom fault (.remark r bs') where
  events depth := by rw [Branches.events, Branches.eventsWith, h.events]
  edges caller depth := h.edges caller depth
  expansions := h.expansions

/-- A remark that nobody hears of makes no difference. -/
theorem inaudible (h : bs.FaultyFrom fault bs') {r : Remark}
    (hr : ¬ (Step.remark r).isAudible = true) : (Branches.remark r bs).FaultyFrom fault bs' where
  events depth := by
    rw [Branches.events, remarkEvent?_of_inaudible hr, h.events]
    rfl
  edges caller depth := h.edges caller depth
  expansions := h.expansions

theorem call {t t' : Tree} (ht : t.FaultyFrom fault t') (h : bs.FaultyFrom fault bs')
    (kind : EdgeKind) : (Branches.call kind t bs).FaultyFrom fault (.call kind t' bs') where
  events depth := by rw [Branches.events, Branches.eventsWith, ht.events, h.events]
  edges caller depth := by rw [Branches.edges, Branches.edges, ht.key, ht.edges, h.edges]
  expansions := by rw [Branches.expansions, Branches.expansions, ht.expansions, h.expansions]

/-- What nobody hears of may as well be there. -/
theorem of_hushed (h : bs.FaultyFrom fault bs'.hushed) : bs.FaultyFrom fault bs' where
  events depth := (h.events depth).trans (Branches.reports_hushed fault bs' "" depth).1
  edges caller depth :=
    (h.edges caller depth).trans (Branches.reports_hushed fault bs' caller depth).2.1
  expansions := h.expansions.trans (Branches.reports_hushed fault bs' "" 0).2.2

/-- A method whose branches are others with faults, and which fails where it is cut short. -/
theorem expanded (h : bs.FaultyFrom fault bs') {m : MethodSymbol} {s s' : Script}
    (hs : s.FailsAs s' (fault m)) (key : String) (halted : Bool) :
    (Tree.expanded key m bs (if halted then .none else some s.ending)).FaultyFrom fault
      (.expanded key m bs' (if halted then .none else some s'.ending)) where
  key := rfl
  events depth := by
    rw [Tree.events, Tree.eventsWith, h.events, endingEvents_of_failsAs hs]
  edges depth := h.edges key depth
  expansions := by rw [Tree.expansions, Tree.expansions, h.expansions]

end Branches.FaultyFrom

/-- **A walk does the same where bodies fail and where they are cut short.** Whatever has
happened before a visit, both walks make the same progress in it. -/
theorem containment_invariant (plan : Plan) (script' : MethodSymbol → Script)
    (fault : MethodSymbol → Option Fault)
    (hscripts : ∀ m, (plan.script m).FailsAs (script' m) (fault m)) :
    plan.Invariant
      (fun room path m p t q =>
        ∃ t', grow { plan with script := script' } room path m p = (t', q) ∧ t.FaultyFrom fault t')
      (fun room path steps p bs q =>
        ∃ bs', growBranches (grow { plan with script := script' } room path)
          (Script.audible steps) p = (bs', q) ∧ bs.FaultyFrom fault bs') where
  calledOff h := ⟨_, grow_calledOff h, rfl, fun _ => rfl, fun _ => rfl, rfl⟩
  met hon hg := ⟨_, grow_met hon hg, rfl, fun _ => rfl, fun _ => rfl, rfl⟩
  capped hon hg := ⟨_, grow_capped hon hg, rfl, fun _ => rfl, fun _ => rfl, rfl⟩
  expanded {room path m p bs q} hon hg _ hB := by
    obtain ⟨bs', hgrown, hbs⟩ := hB
    -- both scripts have the same steps that anybody hears of
    rw [(hscripts m).audible_eq, growBranches_audible] at hgrown
    obtain ⟨rfl, rfl⟩ := Prod.mk.inj hgrown
    have hon' : ({ plan with script := script' } : Plan).calledOff p.polls = false := hon
    have hg' : ({ plan with script := script' } : Plan).guards path p (plan.key m) = false := hg
    exact ⟨_, grow_expanded hon' hg' rfl, hbs.of_hushed.expanded (hscripts m) _ _⟩
  done := ⟨.none, rfl, .none⟩
  remark {room path r steps p bs q} hB := by
    obtain ⟨bs', hgrown, hbs⟩ := hB
    unfold Script.audible at hgrown ⊢
    by_cases hr : (Step.remark r).isAudible = true
    · refine ⟨.remark r bs', ?_, hbs.remark r⟩
      rw [List.filter_cons_of_pos hr, growBranches_remark, hgrown]
    · refine ⟨bs', ?_, hbs.inaudible hr⟩
      rw [List.filter_cons_of_neg hr, hgrown]
  stopped {room path kind callee steps p t q} _ hV hq := by
    obtain ⟨t', hgrown, ht⟩ := hV
    exact ⟨_, growBranches_stopped hgrown hq, .call ht .none kind⟩
  followed _ hV hq _ hB := by
    obtain ⟨t', hgrown, ht⟩ := hV
    obtain ⟨bs', hrest, hbs⟩ := hB
    refine ⟨.call _ t' bs', ?_, .call ht hbs _⟩
    unfold Script.audible at hrest ⊢
    rw [List.filter_cons_of_pos rfl, growBranches_followed hgrown hq, hrest]

/-! ## The faults among the events -/

/-- Whether an event says that something failed. -/
def Event.isFault (e : Event) : Bool := Event.reason? e == some .providerError

/-- The events of a remark are no faults. -/
theorem filter_remarkEvent (depth : Nat) (r : Remark) :
    (remarkEvent? depth r).toList.filter (!Event.isFault ·) = (remarkEvent? depth r).toList := by
  cases r <;> rfl

/-- What closes a method that did not fail, without its fault. -/
theorem filter_endingEvents {ending : Option Ending}
    (h : ∀ message, ending ≠ some (.failed message)) (key : String) (depth : Nat)
    (fault : Option Fault) :
    (endingEvents key depth ending ++ faultEvents key depth ending fault).filter
        (!Event.isFault ·) = endingEvents key depth ending := by
  rcases ending with _ | (_ | _ | _ | message)
  · rfl
  · cases fault <;> rfl
  · cases fault <;> rfl
  · cases fault <;> rfl
  · exact absurd rfl (h message)

/-- **Without the terminals of the faults** the events of a walk over scripts that do not
fail are left. -/
theorem faults_invariant (plan : Plan) (fault : MethodSymbol → Option Fault)
    (hsound : ∀ m message, (plan.script m).ending ≠ .failed message) :
    plan.Invariant
      (fun _ _ _ _ t _ => ∀ depth,
        (t.eventsWith fault depth).filter (!Event.isFault ·) = t.events depth)
      (fun _ _ _ _ bs _ => ∀ depth,
        (bs.eventsWith fault depth).filter (!Event.isFault ·) = bs.events depth) where
  calledOff _ _ := rfl
  met _ _ _ := rfl
  capped _ _ _ := rfl
  expanded {room path m p bs q} _ _ _ hB depth := by
    have hending : ∀ message, (if q.halted then none else some (plan.script m).ending)
        ≠ some (.failed message) := by
      intro message h
      split at h
      · cases h
      · exact hsound m message (Option.some.inj h)
    rw [Tree.eventsWith, Tree.events, List.filter_cons_of_pos rfl, List.filter_append, hB,
      filter_endingEvents hending]
  done _ := rfl
  remark hB depth := by
    rw [Branches.eventsWith, Branches.events, List.filter_append, filter_remarkEvent, hB]
  stopped _ hV _ depth := by
    rw [Branches.eventsWith, Branches.events, List.filter_append, hV]
    rfl
  followed _ hV _ _ hB depth := by
    rw [Branches.eventsWith, Branches.events, List.filter_append, hV, hB]

/-! ## Walks over a model with faults -/

/-- **Faults are contained.** Whatever questions a code model leaves unanswered, the walk
over it reports what the walk over the model reports in which every body is cut short before
its first fault, and that model has no faults. It follows the same calls and visits and
expands the same methods, it is called off at the same time, and its events are the same, but
for a terminal with the text of the fault at the end of each method with a fault that was
gone through. -/
theorem faults_are_contained (model : CodeModel Body Scope Expr) (noise : Noise)
    (options : Options) (calledOff : Nat → Bool) (entry : MethodSymbol) :
    let through := options.unifyPropertyDependencies
    let cut := model.cutShort through
    let o := walk model noise options calledOff entry
    let o' := walk cut noise options calledOff entry
    (∀ m, cut.fault? through m = none)
      ∧ o.events = (treeFrom cut noise options calledOff entry).1.eventsWith
        (model.fault? through) 0
      ∧ o'.events = o.events.filter (!Event.isFault ·)
      ∧ o.entry = o'.entry ∧ o.edges = o'.edges ∧ o.visited = o'.visited
      ∧ o.expanded = o'.expanded ∧ o.cancelled = o'.cancelled := by
  intro through cut o o'
  have hscripts := Script.failsAs_cutShort model noise through
  obtain ⟨t', hgrown, hfaulty⟩ := (containment_invariant
    (Plan.ofModel model noise options calledOff) (Script.ofMethod cut noise through)
    (model.fault? through) hscripts).grow options.maxDepth [] entry {}
  have htree : treeFrom cut noise options calledOff entry
      = (t', (treeFrom model noise options calledOff entry).2) := hgrown
  have ho' : o' = .ofTree entry t' (treeFrom model noise options calledOff entry).2 :=
    walk_of_treeFrom htree
  have hevents : o.events = t'.eventsWith (model.fault? through) 0 := hfaulty.events 0
  have hsilent := (faults_invariant (Plan.ofModel cut noise options calledOff)
    (model.fault? through) fun m => (hscripts m).sound).grow options.maxDepth [] entry {} 0
  have hexpanded : o.expanded = t'.expansions.map (·.1) := by
    rw [← hfaulty.expansions]
    rfl
  refine ⟨Script.fault?_cutShort model noise through, ?_, ?_, ?_⟩
  · rw [htree, hevents]
  · change ((treeFrom cut noise options calledOff entry).1.eventsWith _ 0).filter _
      = (treeFrom cut noise options calledOff entry).1.events 0 at hsilent
    rw [htree, ← hevents] at hsilent
    rw [hsilent, ho']
    rfl
  · rw [ho']
    exact ⟨hfaulty.key, hfaulty.edges 0, rfl, hexpanded, rfl⟩

end Walk

end CallTree
