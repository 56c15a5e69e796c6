import CallTree.Proofs.Growth

/-!
# The language of event logs

The log of a walk is the preorder of its tree, and it can be read back: the visit
of a method is either one event that says it was met before, or a pair that lists
it at the cap, or, below the cap, the entry, the visits of what it calls, the
objects that it creates with the visits of their constructors, the members that it
uses with the visits of what is called through them, and perhaps a terminal that
closes it. `Derives` is that grammar, with one rule for each form.

Two things can cut a body short. A fault of the code model ends the script, and a
walk that is called off leaves it after a call. Either way what was done is an
initial part of what there was to do, so `Yields` says what a log may hold for some
steps, *up to some call*; scripts are taken apart along the order in which they are
put together (`Yields.of_ofMethod`), and it makes no difference where one was cut.

When the walk is called off, its log ends in the middle of a derivation. It stops
where a visit was to begin, and any visit of the method in question would complete
it (`Logs.cut`). That is what is handed from a visit to the one above it.
-/

namespace CallTree

namespace Walk

open CallTree.Script (Step)

/-! ## The grammar -/

/-- **The symbols of the grammar.** Each of them stands at a depth. -/
inductive Phrase where
  /-- The visit of a method with this key. -/
  | node (key : String)
  /-- Any number of visits. -/
  | nodes
  /-- What is between entering a method and closing it. -/
  | body
  /-- Objects that are created, each with or without the visit of a constructor. -/
  | creations
  /-- Members that are used, each with the visits of what is called through it. -/
  | dependencies
deriving DecidableEq, Repr

/-- **The words of a symbol** at some depth, in a walk that lists methods at depth
`cap` and no longer expands them. -/
inductive Derives (cap : Nat) : Phrase → Nat → List Event → Prop
  | cycle {k d} : Derives cap (.node k) d [.cycle k d]
  | capped {k} : Derives cap (.node k) cap [.enter k cap, .terminal k cap .depthLimit none]
  /-- A method without a body, or with one that nothing can resolve names in. -/
  | bare {k d r} (hd : d < cap) (hr : r = .unavailable ∨ r = .noSemanticModel) :
    Derives cap (.node k) d [.enter k d, .terminal k d r none]
  | expanded {k d w} (hd : d < cap) (hbody : Derives cap .body d w) :
    Derives cap (.node k) d (.enter k d :: w)
  | failed {k d w message} (hd : d < cap) (hbody : Derives cap .body d w) :
    Derives cap (.node k) d (.enter k d :: (w ++ [.terminal k d .providerError (some message)]))
  | body {d u v w} (hcalls : Derives cap .nodes (d + 1) u) (hcreations : Derives cap .creations d v)
    (hdependencies : Derives cap .dependencies d w) : Derives cap .body d (u ++ (v ++ w))
  | noNodes {d} : Derives cap .nodes d []
  | nodes {k d v w} (hfirst : Derives cap (.node k) d v) (hrest : Derives cap .nodes d w) :
    Derives cap .nodes d (v ++ w)
  | noCreations {d} : Derives cap .creations d []
  /-- An object whose constructor is not visited. -/
  | created {d typeName w} (hrest : Derives cap .creations d w) :
    Derives cap .creations d (.creation typeName d :: w)
  | constructed {k d typeName v w} (hnode : Derives cap (.node k) (d + 1) v)
    (hrest : Derives cap .creations d w) :
    Derives cap .creations d (.creation typeName d :: (v ++ w))
  | noDependencies {d} : Derives cap .dependencies d []
  | used {d memberType kind name v w} (hcalls : Derives cap .nodes (d + 1) v)
    (hrest : Derives cap .dependencies d w) :
    Derives cap .dependencies d (.dependency memberType d kind name :: (v ++ w))

/-- How far below a symbol its visits lie. -/
def Phrase.span : Phrase → Nat
  | .node _ => 0
  | .nodes => 0
  | .body => 1
  | .creations => 1
  | .dependencies => 1

/-- Why a method is not expanded, or not to the end. -/
def Event.reason? : Event → Option TerminalReason
  | .terminal _ _ r _ => some r
  | _ => none

/-- **No word goes below the cap**, and none says that the walk was called off. -/
theorem Derives.forall_mem {cap : Nat} {X : Phrase} {d : Nat} {w : List Event}
    (h : Derives cap X d w) (hcap : d + X.span ≤ cap) :
    ∀ e ∈ w, e.depth ≤ cap ∧ Event.reason? e ≠ some .cancelled := by
  -- The events of a method that is expanded stand at its own depth.
  have hshallow : ∀ {d : Nat}, d < cap → (d : Int) ≤ cap := fun hd =>
    Int.ofNat_le.mpr (Nat.le_of_lt hd)
  induction h with
  | cycle => simpa [Event.depth, Event.reason?, Phrase.span] using hcap
  | capped => simp [Event.depth, Event.reason?]
  | bare hd hr =>
    refine List.forall_mem_cons.mpr ⟨⟨hshallow hd, nofun⟩, ?_⟩
    refine List.forall_mem_singleton.mpr ⟨hshallow hd, ?_⟩
    rcases hr with rfl | rfl <;> nofun
  | expanded hd _ ih =>
    exact List.forall_mem_cons.mpr ⟨⟨hshallow hd, nofun⟩, ih hd⟩
  | failed hd _ ih =>
    refine List.forall_mem_cons.mpr ⟨⟨hshallow hd, nofun⟩, ?_⟩
    refine List.forall_mem_append.mpr ⟨ih hd, ?_⟩
    exact List.forall_mem_singleton.mpr ⟨hshallow hd, nofun⟩
  | body _ _ _ ihu ihv ihw =>
    exact List.forall_mem_append.mpr
      ⟨ihu hcap, List.forall_mem_append.mpr ⟨ihv hcap, ihw hcap⟩⟩
  | noNodes => simp
  | nodes _ _ ihv ihw => exact List.forall_mem_append.mpr ⟨ihv hcap, ihw hcap⟩
  | noCreations => simp
  | created _ ih =>
    exact List.forall_mem_cons.mpr ⟨⟨hshallow hcap, nofun⟩, ih hcap⟩
  | constructed _ _ ihv ihw =>
    refine List.forall_mem_cons.mpr ⟨⟨hshallow hcap, nofun⟩, ?_⟩
    exact List.forall_mem_append.mpr ⟨ihv hcap, ihw hcap⟩
  | noDependencies => simp
  | used _ _ ihv ihw =>
    refine List.forall_mem_cons.mpr ⟨⟨hshallow hcap, nofun⟩, ?_⟩
    exact List.forall_mem_append.mpr ⟨ihv hcap, ihw hcap⟩

/-! ## What steps yield -/

/-- **What a log may hold for some steps** of a method at depth `d`, in order and up to
some call: an event for a remark that has one, a visit for a call. -/
inductive Yields (cap d : Nat) : List Step → List Event → Prop
  | nil : Yields cap d [] []
  | remark {r steps w} (hrest : Yields cap d steps w) :
    Yields cap d (.remark r :: steps) ((remarkEvent? d r).toList ++ w)
  | follow {kind callee k steps v w} (hnode : Derives cap (.node k) (d + 1) v)
    (hrest : Yields cap d steps w) : Yields cap d (.follow kind callee :: steps) (v ++ w)
  /-- The call after which nothing more was done. -/
  | last {kind callee k steps v} (hnode : Derives cap (.node k) (d + 1) v) :
    Yields cap d (.follow kind callee :: steps) v

namespace Yields

variable {cap d : Nat} {w : List Event}

theorem eq_nil (h : Yields cap d [] w) : w = [] := by
  cases h
  rfl

/-- Remarks without an event yield nothing. -/
theorem eq_nil_of_silent {steps : List Step}
    (hsilent : ∀ s ∈ steps, ∃ r, s = .remark r ∧ remarkEvent? d r = none)
    (h : Yields cap d steps w) : w = [] := by
  induction h with
  | nil => rfl
  | remark _ ih =>
    obtain ⟨⟨r, heq, hr⟩, hrest⟩ := List.forall_mem_cons.mp hsilent
    cases heq
    rw [hr, ih hrest]
    rfl
  | follow => obtain ⟨r, heq, -⟩ := hsilent _ List.mem_cons_self; cases heq
  | last => obtain ⟨r, heq, -⟩ := hsilent _ List.mem_cons_self; cases heq

variable {L : List Event → Prop} {α : Type}

/-- Steps yield what their first part yields, and then what the rest yields or nothing. -/
theorem of_append {a b : List Step} (hnil : L []) (hb : ∀ v, Yields cap d b v → L v)
    (h : Yields cap d (a ++ b) w) : ∃ u v, w = u ++ v ∧ Yields cap d a u ∧ L v := by
  induction a generalizing w with
  | nil => exact ⟨[], w, rfl, .nil, hb w h⟩
  | cons step a ih =>
    cases h with
    | remark h =>
      obtain ⟨u, v, rfl, hu, hv⟩ := ih h
      exact ⟨_, v, (List.append_assoc _ u v).symm, .remark hu, hv⟩
    | follow hnode h =>
      obtain ⟨u, v, rfl, hu, hv⟩ := ih h
      exact ⟨_, v, (List.append_assoc _ u v).symm, .follow hnode hu, hv⟩
    | last hnode =>
      -- the first part was left at a call, so there is nothing of the rest
      exact ⟨w, [], (List.append_nil w).symm, .last hnode, hnil⟩

/-- A fault in the first part is one more reason for the rest to yield nothing. -/
theorem of_cutAppend {a b : Cut Step} (hnil : L []) (hb : ∀ v, Yields cap d b.items v → L v)
    (h : Yields cap d (a.append b).items w) :
    ∃ u v, w = u ++ v ∧ Yields cap d a.items u ∧ L v := by
  unfold Cut.append at h
  split at h
  · exact ⟨w, [], (List.append_nil w).symm, h, hnil⟩
  · exact h.of_append hnil hb

/-- An answer that is a fault yields nothing. -/
theorem of_after {answer : Except Fault α} {f : α → Cut Step} (hnil : L [])
    (hf : ∀ a, Yields cap d (f a).items w → L w)
    (h : Yields cap d (Cut.after answer f).items w) : L w := by
  cases answer with
  | error fault =>
    rw [h.eq_nil]
    exact hnil
  | ok a => exact hf a h

/-- What is put together item by item yields words of a language that what one item
yields can be put before. -/
theorem of_each {f : α → Except Fault (List Step)} (hnil : L [])
    (hcons : ∀ {a steps u v}, f a = .ok steps → Yields cap d steps u → L v → L (u ++ v))
    (l : List α) (h : Yields cap d (Cut.each f l).items w) : L w := by
  induction l generalizing w with
  | nil =>
    rw [h.eq_nil]
    exact hnil
  | cons a l ih =>
    unfold Cut.each at h
    split at h
    case h_1 =>
      rw [h.eq_nil]
      exact hnil
    case h_2 steps hsteps =>
      obtain ⟨u, v, rfl, hu, hv⟩ := h.of_cutAppend hnil fun v => ih
      exact hcons hsteps hu hv

end Yields

/-! ## Usages begin with a use -/

/-- Whether the first of some findings, if there is one, is the use of a member and not
a call through one. -/
def BeginsWithUse (found : List Dependency.Finding) : Prop :=
  found = [] ∨ ∃ member rest, found = .usage ⟨member, none⟩ :: rest

namespace BeginsWithUse

theorem append {a b : Cut Dependency.Finding} (ha : BeginsWithUse a.items)
    (hb : BeginsWithUse b.items) : BeginsWithUse (a.append b).items := by
  unfold Cut.append
  split
  · exact ha
  · show BeginsWithUse (a.items ++ b.items)
    rcases ha with ha | ⟨member, rest, ha⟩
    · rwa [ha, List.nil_append]
    · exact .inr ⟨member, rest ++ b.items, by rw [ha, List.cons_append]⟩

theorem after {α : Type} {answer : Except Fault α} {f : α → Cut Dependency.Finding}
    (hf : ∀ a, BeginsWithUse (f a).items) : BeginsWithUse (Cut.after answer f).items := by
  cases answer with
  | error fault => exact .inl rfl
  | ok a => exact hf a

variable {Body Scope Expr : Type} (model : CodeModel Body Scope Expr)

theorem findingsOf (scope : Scope) (refs : List Symbol) (accesses : List Expr) (through : Bool)
    (member : Member) :
    BeginsWithUse (Dependency.findingsOf model scope refs accesses through member).items := by
  unfold Dependency.findingsOf
  split
  · exact .inr ⟨member, _, rfl⟩
  · exact .inl rfl

theorem findingsOfAll (scope : Scope) (refs : List Symbol) (accesses : List Expr)
    (through : Bool) (members : List Member) :
    BeginsWithUse (Dependency.findingsOfAll model scope refs accesses through members).items := by
  induction members with
  | nil => exact .inl rfl
  | cons member rest ih => exact (findingsOf model scope refs accesses through member).append ih

/-- **A member is used before anything is called through it**, so the dependencies of a
body begin with a use. -/
theorem findings (throughProperties : Bool) (body : Body) (scope : Scope) :
    BeginsWithUse (Dependency.findings model throughProperties body scope).items := by
  unfold Dependency.findings
  split
  · exact .inl rfl
  · refine after fun symbols => ?_
    show BeginsWithUse (if _ then _ else _ : Cut Dependency.Finding).items
    split
    · exact .inl rfl
    · refine after fun refs => after fun accesses => ?_
      exact (findingsOfAll ..).append (findingsOfAll ..)

/-- So do the usages among them. -/
theorem head_usages {found : Cut Dependency.Finding} (hfound : BeginsWithUse found.items)
    {usages : List Dependency.Usage} (h : Dependency.usages found = .ok usages) :
    ∀ first ∈ usages.head?, first.invoked = none := by
  unfold Dependency.usages at h
  split at h
  · cases h
  · cases h
    rcases hfound with hfound | ⟨member, rest, hfound⟩
    · rw [hfound]
      simp
    · rw [hfound]
      simp [Dependency.Finding.usage?]

end BeginsWithUse

/-! ## What scripts yield -/

section Scripts

variable {Body Scope Expr : Type} {model : CodeModel Body Scope Expr} {noise : Noise}
  {cap d : Nat} {w : List Event}

/-- A target yields a visit, unless it is noise. -/
theorem Yields.of_followed {kind : EdgeKind} {target : MethodSymbol}
    (h : Yields cap d (Script.followed noise kind target) w) :
    w = [] ∨ ∃ k, Derives cap (.node k) (d + 1) w := by
  unfold Script.followed at h
  split at h
  · exact .inl h.eq_nil
  · cases h with
    | follow hnode hrest =>
      rw [hrest.eq_nil, List.append_nil]
      exact .inr ⟨_, hnode⟩
    | last hnode => exact .inr ⟨_, hnode⟩

/-- What a target yields goes before other visits. -/
theorem Yields.nodes_of_followed {kind : EdgeKind} {target : MethodSymbol} {v : List Event}
    (h : Yields cap d (Script.followed noise kind target) w) (hv : Derives cap .nodes (d + 1) v) :
    Derives cap .nodes (d + 1) (w ++ v) := by
  rcases h.of_followed with rfl | ⟨k, hnode⟩
  · exact hv
  · exact .nodes hnode hv

/-- The steps that an expression gives by way of the method it stands for. -/
theorem steps_of_target {answer : Except Fault (Option Symbol)} {f : MethodSymbol → List Step}
    {steps : List Step}
    (h : (do match ← answer with
      | some (.method target) => return f target
      | _ => return [] : Except Fault (List Step)) = .ok steps) :
    steps = [] ∨ ∃ target, steps = f target := by
  rcases answer with fault | (_ | (_ | target | _ | _)) <;> cases h
  case ok.some.method => exact .inr ⟨target, rfl⟩
  all_goals exact .inl rfl

/-- The invocations of a body yield visits. -/
theorem Yields.of_invocations {scope : Scope} {body : Body}
    (h : Yields cap d (Cut.after (model.occurrences body .invocation)
      (Cut.each (Script.invocationSteps model noise scope))).items w) :
    Derives cap .nodes (d + 1) w := by
  refine h.of_after .noNodes fun invocations h => h.of_each .noNodes ?_ invocations
  intro invocation steps u v hsteps hu hv
  rcases steps_of_target hsteps with rfl | ⟨target, rfl⟩
  · rw [hu.eq_nil]
    exact hv
  · exact hu.nodes_of_followed hv

/-- The creations of a body yield creations. -/
theorem Yields.of_creations {scope : Scope} {body : Body}
    (h : Yields cap d (Cut.after (model.occurrences body .objectCreation)
      (Cut.each (Script.creationSteps model noise scope))).items w) :
    Derives cap .creations d w := by
  refine h.of_after .noCreations fun creations h => h.of_each .noCreations ?_ creations
  intro creation steps u v hsteps hu hv
  rcases steps_of_target hsteps with rfl | ⟨target, rfl⟩
  · rw [hu.eq_nil]
    exact hv
  · cases hu with
    | remark hu =>
      rcases hu.of_followed with rfl | ⟨k, hnode⟩
      · exact .created hv
      · exact .constructed hnode hv

/-- Usages yield what is called through a member used before them, and then the members
that they use themselves. When they begin with a use there is nothing of the former. -/
theorem Yields.of_usages {usages : List Dependency.Usage}
    (h : Yields cap d (usages.flatMap (Script.usageSteps noise)) w) :
    ∃ u v, w = u ++ v ∧ Derives cap .nodes (d + 1) u ∧ Derives cap .dependencies d v
      ∧ ((∀ first ∈ usages.head?, first.invoked = none) → u = []) := by
  induction usages generalizing w with
  | nil => exact ⟨[], [], h.eq_nil, .noNodes, .noDependencies, fun _ => rfl⟩
  | cons usage usages ih =>
    rw [List.flatMap_cons] at h
    obtain ⟨first, _, rfl, hfirst, u, v, rfl, hu, hv, -⟩ :=
      h.of_append ⟨[], [], rfl, .noNodes, .noDependencies, fun _ => rfl⟩ fun rest => ih
    rcases usage with ⟨member, _ | target⟩
    case none =>
      -- the use takes the visits up to the next one as its own
      cases hfirst with
      | remark hnone =>
        cases hnone
        exact ⟨[], .dependency _ d _ _ :: (u ++ v), rfl, .noNodes, .used hu hv, fun _ => rfl⟩
    case some =>
      refine ⟨first ++ u, v, (List.append_assoc first u v).symm, hfirst.nodes_of_followed hu, hv,
        fun hhead => ?_⟩
      cases hhead _ rfl

/-- Findings that begin with a use yield members that are used, and nothing at all when
the search for them failed. -/
theorem Yields.of_found {found : Cut Dependency.Finding} (hfound : BeginsWithUse found.items)
    (h : Yields cap d (match Dependency.usages found with
      | .error fault => Cut.stop fault
      | .ok usages => .done (usages.flatMap (Script.usageSteps noise))).items w) :
    Derives cap .dependencies d w := by
  split at h
  case h_1 =>
    rw [h.eq_nil]
    exact .noDependencies
  case h_2 usages husages =>
    obtain ⟨before, v, rfl, -, hv, hbefore⟩ := h.of_usages
    rw [hbefore (hfound.head_usages husages)]
    exact hv

/-- The dependencies of a body yield members that are used. -/
theorem Yields.of_dependencies {throughProperties : Bool} {body : Body} {scope : Scope}
    (h : Yields cap d (Script.dependencySteps noise
      (Dependency.findings model throughProperties body scope)).items w) :
    Derives cap .dependencies d w := by
  obtain ⟨u, v, rfl, hu, hv⟩ := h.of_cutAppend (L := Derives cap .dependencies d)
    .noDependencies fun _ => of_found (BeginsWithUse.findings ..)
  -- what stayed unresolved goes to another log, and has no event
  have hsilent : u = [] := by
    refine hu.eq_nil_of_silent fun step hstep => ?_
    obtain ⟨finding, -, heq⟩ := List.mem_filterMap.mp hstep
    rcases finding with _ | member
    · cases heq
    · cases heq
      exact ⟨.unresolved member, rfl, rfl⟩
  rw [hsilent]
  exact hv

/-- What comes after the calls of a body yields creations, then dependencies. -/
theorem Yields.of_afterCalls {throughProperties : Bool} {body : Body} {scope : Scope}
    (h : Yields cap d ((Cut.after (model.occurrences body .objectCreation)
        (Cut.each (Script.creationSteps model noise scope))).append
      (Script.dependencySteps noise
        (Dependency.findings model throughProperties body scope))).items w) :
    ∃ u v, w = u ++ v ∧ Derives cap .creations d u ∧ Derives cap .dependencies d v := by
  obtain ⟨u, v, rfl, hu, hv⟩ := h.of_cutAppend .noDependencies fun v hv => hv.of_dependencies
  exact ⟨u, v, rfl, hu.of_creations, hv⟩

/-- The steps of a body yield a body. -/
theorem Yields.of_bodySteps {throughProperties : Bool} {body : Body} {scope : Scope}
    (h : Yields cap d (Script.bodySteps model noise throughProperties body scope).items w) :
    Derives cap .body d w := by
  have hempty : Derives cap .body d [] := .body .noNodes .noCreations .noDependencies
  obtain ⟨_, _, rfl, hopening, hbody⟩ := h.of_cutAppend hempty fun rest hrest => by
    obtain ⟨u, _, rfl, hu, v, w, rfl, hv, hw⟩ :=
      hrest.of_cutAppend ⟨[], [], rfl, .noCreations, .noDependencies⟩ fun rest hrest =>
        hrest.of_afterCalls
    exact .body hu.of_invocations hv hw
  cases hopening with
  | remark hnone =>
    cases hnone
    exact hbody

/-- **A script yields a body.** -/
theorem Yields.of_ofMethod {throughProperties : Bool} {m : MethodSymbol}
    (h : Yields cap d (Script.ofMethod model noise throughProperties m).steps w) :
    Derives cap .body d w := by
  have hempty : Derives cap .body d [] := .body .noNodes .noCreations .noDependencies
  unfold Script.ofMethod at h
  split at h
  · rw [h.eq_nil]
    exact hempty
  · rw [h.eq_nil]
    exact hempty
  · split at h
    · rw [h.eq_nil]
      exact hempty
    · rw [h.eq_nil]
      exact hempty
    · exact h.of_bodySteps

/-- A script that ends for want of a body, or of a scope for it, has no steps. -/
theorem steps_eq_nil_of_bare {throughProperties : Bool} {m : MethodSymbol}
    (h : (Script.ofMethod model noise throughProperties m).ending = .unavailable
      ∨ (Script.ofMethod model noise throughProperties m).ending = .noSemanticModel) :
    (Script.ofMethod model noise throughProperties m).steps = [] := by
  unfold Script.ofMethod at h ⊢
  split at h
  · rfl
  · rfl
  · split at h
    · rfl
    · rfl
    · dsimp only at h
      split at h <;> simp at h

end Scripts

/-! ## Logs -/

/-- **What a log is**, given what it may say in full: all of it, or, when the walk was
called off, all that comes before some visit, and then one terminal with the key and
the depth of that visit. Whatever the visit had been, it would have been right. -/
inductive Logs (cap : Nat) (L : List Event → Prop) : List Event → Bool → Prop
  | whole {events} (h : L events) : Logs cap L events false
  | cut (before : List Event) (key : String) (depth : Nat)
    (h : ∀ w, Derives cap (.node key) depth w → L (before ++ w)) :
    Logs cap L (before ++ [.terminal key depth .cancelled none]) true

/-- A log goes on from what is put before it. -/
theorem Logs.prepend {cap : Nat} {L L' : List Event → Prop} {events : List Event} {halted : Bool}
    (h : Logs cap L events halted) (u : List Event) (hL : ∀ w, L w → L' (u ++ w)) :
    Logs cap L' (u ++ events) halted := by
  cases h with
  | whole h => exact .whole (hL _ h)
  | cut before key depth h =>
    rw [← List.append_assoc]
    refine .cut (u ++ before) key depth fun w hw => ?_
    rw [List.append_assoc]
    exact hL _ (h w hw)

/-- The log of a visit that was not called off says all that it may. -/
theorem Logs.word {cap : Nat} {L : List Event → Prop} {events : List Event} {halted : Bool}
    (h : Logs cap L events halted) (hrun : halted = false) : L events := by
  cases h with
  | whole h => exact h
  | cut => cases hrun

section Walks

variable {Body Scope Expr : Type} {model : CodeModel Body Scope Expr} {noise : Noise}

/-- The log of a method that is expanded, from that of its script. -/
theorem Logs.expanded {cap d : Nat} (hd : d < cap) (key : String) {throughProperties : Bool}
    {m : MethodSymbol} {events : List Event} {halted : Bool}
    (h : Logs cap (Yields cap d (Script.ofMethod model noise throughProperties m).steps)
      events halted)
    (hbare : (Script.ofMethod model noise throughProperties m).steps = [] → events = []) :
    Logs cap (Derives cap (.node key) d)
      (.enter key d :: (events ++ endingEvents key d
        (if halted then none else some (Script.ofMethod model noise throughProperties m).ending)))
      halted := by
  cases halted with
  | true =>
    -- the method stays unfinished, which is as if it had been finished with nothing more
    rw [if_pos rfl, endingEvents, List.append_nil]
    exact h.prepend [.enter key d] fun w hw => .expanded hd hw.of_ofMethod
  | false =>
    rw [if_neg Bool.false_ne_true]
    cases h with
    | whole h =>
      refine .whole ?_
      cases hending : (Script.ofMethod model noise throughProperties m).ending with
      | complete =>
        rw [endingEvents, List.append_nil]
        exact .expanded hd h.of_ofMethod
      | unavailable =>
        rw [hbare (steps_eq_nil_of_bare (.inl hending))]
        exact .bare hd (.inl rfl)
      | noSemanticModel =>
        rw [hbare (steps_eq_nil_of_bare (.inr hending))]
        exact .bare hd (.inr rfl)
      | failed message => exact .failed hd h.of_ofMethod

/-- **Every visit logs a word of the grammar**, as far as it goes. -/
theorem logs_invariant (cap : Nat) (options : Options) (calledOff : Nat → Bool) :
    (Plan.ofModel model noise options calledOff).Invariant
      (fun room _ m p t q => p.halted = false → ∀ d, d + room = cap →
        Logs cap (Derives cap (.node (m.key options.overloadAwareKeys)) d) (t.events d) q.halted)
      (fun room _ steps p bs q => p.halted = false → ∀ d, d + (room + 1) = cap →
        Logs cap (Yields cap d steps) (bs.events d) q.halted) where
  calledOff _ _ d _ := .cut [] _ d fun _ hw => hw
  met _ _ hp d _ := by
    rw [Progress.polled_halted, hp]
    exact .whole .cycle
  capped _ _ hp d hd := by
    rw [Progress.polled_halted, hp]
    obtain rfl : d = cap := hd
    exact .whole .capped
  expanded {room path m p bs q} _ _ hgrow hB hp d hd := by
    have hbody := hB (by rw [Progress.mark_halted, Progress.polled_halted, hp]) d hd
    refine hbody.expanded (by omega) _ fun hsteps => ?_
    -- a script without steps grows nothing
    have hbs : bs = .none := by
      rw [show ((Plan.ofModel model noise options calledOff).script m).steps = [] from hsteps]
        at hgrow
      exact congrArg Prod.fst hgrow.symm
    rw [hbs, Branches.events]
  done hp d _ := by
    rw [hp]
    exact .whole .nil
  remark hB hp d hd := (hB hp d hd).prepend _ fun _ hw => .remark hw
  stopped _ hV _ hp d hd := by
    rw [Branches.events, Branches.events, List.append_nil]
    exact (hV hp (d + 1) (by omega)).prepend [] fun _ hw => .last hw
  followed _ hV hq _ hB hp d hd := by
    have hvisit := (hV hp (d + 1) (by omega)).word hq
    exact (hB hq d hd).prepend _ fun _ hw => .follow hvisit hw

variable (model noise)

/-- **The log of a walk is a preorder.** It is a visit of the entry in the grammar; when the
walk was called off, it is what comes before some visit in it, whatever that visit had
been, and then one terminal that says so, with the key and the depth of the visit. No
event lies below the cap. -/
theorem events_in_preorder (options : Options) (calledOff : Nat → Bool) (entry : MethodSymbol) :
    let o := walk model noise options calledOff entry
    let root := Phrase.node (entry.key options.overloadAwareKeys)
    (if o.cancelled then
      ∃ before k d, o.events = before ++ [.terminal k (d : Nat) .cancelled none]
        ∧ (∀ w, Derives options.maxDepth (.node k) d w →
          Derives options.maxDepth root 0 (before ++ w))
        ∧ ∀ e ∈ before, Event.reason? e ≠ some .cancelled
    else Derives options.maxDepth root 0 o.events)
      ∧ ∀ e ∈ o.events, e.depth ≤ options.maxDepth := by
  intro o root
  have hlogs : Logs options.maxDepth (Derives options.maxDepth root 0) o.events o.cancelled :=
    (logs_invariant options.maxDepth options calledOff).grow options.maxDepth [] entry {} rfl 0
      (Nat.zero_add _)
  have hroot : 0 + root.span ≤ options.maxDepth := Nat.zero_le _
  generalize o.events = events, o.cancelled = cancelled at hlogs
  cases hlogs with
  | whole h => exact ⟨h, fun e he => (h.forall_mem hroot e he).1⟩
  | cut before k d h =>
    -- A visit that meets the method again stands at the same depth as the terminal.
    have hmet := List.forall_mem_append.mp ((h _ .cycle).forall_mem hroot)
    refine ⟨⟨before, k, d, rfl, h, fun e he => (hmet.1 e he).2⟩, ?_⟩
    refine List.forall_mem_append.mpr ⟨fun e he => (hmet.1 e he).1, ?_⟩
    exact List.forall_mem_singleton.mpr (hmet.2 _ List.mem_cons_self).1

end Walks

end Walk

end CallTree
