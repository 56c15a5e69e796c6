import CallTree.Proofs.IdleCalls
import CallTree.Proofs.Occurrences
import CallTree.Proofs.Targets

/-!
# Dependencies discover nothing

The script of a method ends with the calls through members of its type. What is called through a
member is called all the same, so the call was among the invocations or the creations before, and
it was resolved there to the same method. The calls through members are in the log, and the walk
knows them for what they are, but they lead to nothing that would not be found without them.

To say so, the search for dependencies is made a parameter of the walk (`Walk.walkBy`). The walk
as it is uses `Dependency.findings`, and the one to compare it with finds nothing at all.
-/

namespace CallTree

open CallTree.Script (Step)

variable {Body Scope Expr : Type}

/-! ## Walks with another search for dependencies -/

/-- **A search for dependencies**, in a body with its scope. -/
abbrev Classifier (Body Scope : Type) := Body → Scope → Cut Dependency.Finding

/-- The search that finds nothing. -/
def Classifier.silent : Classifier Body Scope := fun _ _ => .done []

namespace Script

variable (model : CodeModel Body Scope Expr) (noise : Noise)

/-- The steps of a body before those for its dependencies. -/
def directSteps (body : Body) (scope : Scope) : Cut Step :=
  (Cut.done [.remark .opened]).append <|
    (Cut.after (model.occurrences body .invocation)
      (Cut.each (invocationSteps model noise scope))).append <|
    Cut.after (model.occurrences body .objectCreation)
      (Cut.each (creationSteps model noise scope))

/-- The steps of a body, with the dependencies that a search finds. -/
def bodyStepsBy (classify : Classifier Body Scope) (body : Body) (scope : Scope) : Cut Step :=
  (directSteps model noise body scope).append (dependencySteps noise (classify body scope))

/-- The script of a method whose body has the given steps. -/
def ofBody (steps : Body → Scope → Cut Step) (m : MethodSymbol) : Script :=
  match model.definition m with
  | .error fault => ⟨[], .failed fault.message⟩
  | .ok none => ⟨[], .unavailable⟩
  | .ok (some body) =>
    match model.scope body with
    | .error fault => ⟨[], .failed fault.message⟩
    | .ok none => ⟨[], .noSemanticModel⟩
    | .ok (some scope) =>
      ⟨(steps body scope).items,
        match (steps body scope).fault with
        | some fault => .failed fault.message
        | none => .complete⟩

/-- The script of a method, with the dependencies that a search finds. -/
def ofMethodBy (classify : Classifier Body Scope) : MethodSymbol → Script :=
  ofBody model (bodyStepsBy model noise classify)

end Script

namespace Walk

variable (model : CodeModel Body Scope Expr) (noise : Noise) (options : Options)
  (calledOff : Nat → Bool) (classify : Classifier Body Scope)

/-- The plan of a walk with a given search for dependencies. -/
def Plan.classifiedBy : Plan where
  script := Script.ofMethodBy model noise classify
  key := MethodSymbol.key options.overloadAwareKeys
  repeats := options.expandRepeatedPaths
  calledOff := calledOff

/-- **The walk with a given search for dependencies.** -/
def walkBy (entry : MethodSymbol) : Outcome :=
  let (tree, p) :=
    grow (Plan.classifiedBy model noise options calledOff classify) options.maxDepth [] entry {}
  .ofTree entry tree p

end Walk

theorem Cut.append_assoc {α : Type} (a b c : Cut α) :
    (a.append b).append c = a.append (b.append c) := by
  unfold Cut.append
  cases a.fault with
  | some fault => rfl
  | none =>
    cases b.fault with
    | some fault => rfl
    | none =>
      show Cut.mk _ _ = Cut.mk _ _
      rw [List.append_assoc]

namespace Script

variable (model : CodeModel Body Scope Expr) (noise : Noise)

theorem bodyStepsBy_findings (throughProperties : Bool) :
    bodyStepsBy model noise (Dependency.findings model throughProperties)
      = bodySteps model noise throughProperties := by
  funext body scope
  unfold bodyStepsBy directSteps bodySteps
  rw [Cut.append_assoc, Cut.append_assoc]

theorem ofMethodBy_findings (throughProperties : Bool) :
    ofMethodBy model noise (Dependency.findings model throughProperties)
      = ofMethod model noise throughProperties :=
  congrArg (ofBody model) (bodyStepsBy_findings model noise throughProperties)

end Script

/-- **The walk as it is** searches with `Dependency.findings`. -/
theorem Walk.walkBy_findings (model : CodeModel Body Scope Expr) (noise : Noise)
    (options : Options) (calledOff : Nat → Bool) (throughProperties : Bool)
    (entry : MethodSymbol) :
    walkBy model noise options calledOff (Dependency.findings model throughProperties) entry
      = walk model noise { options with unifyPropertyDependencies := throughProperties } calledOff
        entry := by
  unfold walkBy Plan.classifiedBy
  rw [Script.ofMethodBy_findings]
  rfl

/-! ## What is called through a member is called -/

namespace Cut

variable {α β : Type}

/-- Without a fault, what each item gives is there. -/
theorem subset_each {f : α → Except Fault (List β)} {l : List α} (h : (each f l).fault = none)
    {a : α} (ha : a ∈ l) {items : List β} (hitems : f a = .ok items) :
    items ⊆ (each f l).items := by
  induction l with
  | nil => cases ha
  | cons first l ih =>
    rw [each] at h ⊢
    cases hfirst : f first with
    | error fault =>
      rw [hfirst] at h
      cases h
    | ok given =>
      rw [hfirst] at h
      show items ⊆ given ++ (each f l).items
      rcases List.mem_cons.mp ha with rfl | ha
      · cases hfirst.symm.trans hitems
        exact List.subset_append_left _ _
      · exact List.subset_append_of_subset_right _ (ih h ha)

/-- Without a fault there is an answer. -/
theorem ok_of_after {answer : Except Fault α} {f : α → Cut β} (h : (after answer f).fault = none) :
    ∃ a, answer = .ok a ∧ (f a).fault = none := by
  cases answer with
  | error fault => cases h
  | ok a => exact ⟨a, rfl, h⟩

end Cut

namespace CodeModel

variable {model : CodeModel Body Scope Expr} {body : Body} {scope : Scope}

/-- **What an expression is resolved to is among the targets**, if nothing went wrong. -/
theorem mem_targetsAmong_of_resolve {kind : SyntaxKind} {found : EdgeKind} {es : List Expr}
    (hfault : (model.targetsAmong kind found body scope).fault = none)
    (hes : model.occurrences body kind = .ok es) {e : Expr} (he : e ∈ es) {m : MethodSymbol}
    (hm : model.resolve scope e = .ok (some (.method m))) :
    (found, m) ∈ (model.targetsAmong kind found body scope).items := by
  unfold targetsAmong at hfault ⊢
  rw [hes] at hfault ⊢
  have hasked : ((model.resolve scope e).map fun s =>
      (s.bind Symbol.method?).toList.map (found, ·)) = .ok [(found, m)] := by
    rw [hm]
    rfl
  exact Cut.subset_each hfault he hasked List.mem_cons_self

/-- **A body with all its calls**: what is called through a member is what some invocation or
creation stands for. -/
def ListsCalls (model : CodeModel Body Scope Expr) (body : Body) (scope : Scope) : Prop :=
  ∀ m, Dependency.CalledThrough model body scope m →
    ∀ invocations, model.occurrences body .invocation = .ok invocations →
      ∀ creations, model.occurrences body .objectCreation = .ok creations →
        ∃ e, (e ∈ invocations ∨ e ∈ creations) ∧ model.resolve scope e = .ok (some (.method m))

/-- The targets in a body besides those called through members. -/
def directTargets (model : CodeModel Body Scope Expr) (body : Body) (scope : Scope) : Cut Target :=
  (model.targetsAmong .invocation .directInvocation body scope).append
    (model.targetsAmong .objectCreation .objectCreation body scope)

theorem kind_of_mem_directTargets {t : Target} (h : t ∈ (model.directTargets body scope).items) :
    t.1 ≠ .dependencyInvocation := by
  rcases Cut.mem_append h with h | h
  · rw [(mem_targetsAmong h).1]
    decide
  · rw [(mem_targetsAmong h).1]
    decide

/-- **What is called through a member is a direct target**, if nothing went wrong. -/
theorem ListsCalls.mem_directTargets (h : model.ListsCalls body scope)
    (hfault : (model.directTargets body scope).fault = none) {m : MethodSymbol}
    (hm : Dependency.CalledThrough model body scope m) :
    ∃ kind, (kind, m) ∈ (model.directTargets body scope).items := by
  unfold directTargets at hfault ⊢
  rw [Cut.fault_append, Option.or_eq_none_iff] at hfault
  obtain ⟨hinvoked, hcreated⟩ := hfault
  obtain ⟨invocations, hinvocations, -⟩ := Cut.ok_of_after hinvoked
  obtain ⟨creations, hcreations, -⟩ := Cut.ok_of_after hcreated
  rw [Cut.items_append_of_none hinvoked]
  obtain ⟨e, he | he, hresolve⟩ := h m hm invocations hinvocations creations hcreations
  · exact ⟨_, List.mem_append_left _
      (mem_targetsAmong_of_resolve hinvoked hinvocations he hresolve)⟩
  · exact ⟨_, List.mem_append_right _
      (mem_targetsAmong_of_resolve hcreated hcreations he hresolve)⟩

end CodeModel

namespace Script

variable {model : CodeModel Body Scope Expr} (noise : Noise) {body : Body} {scope : Scope}

variable (model body scope) in
theorem callsFrom_directSteps :
    (directSteps model noise body scope).CallsFrom noise (model.directTargets body scope) := by
  have hopened : ∀ step ∈ [Step.remark .opened], step.call? = none :=
    List.forall_mem_singleton.mpr rfl
  exact ((callsFrom_invocations model noise body scope).append
    (callsFrom_creations model noise body scope)).after_remarks hopened

/-- **The steps for dependencies follow what was followed before.** -/
theorem callees_dependencySteps_subset (h : model.ListsCalls body scope)
    (hfault : (directSteps model noise body scope).fault = none) (throughProperties : Bool) :
    calleesOf (dependencySteps noise
        (Dependency.findings model throughProperties body scope)).items
      ⊆ calleesOf (directSteps model noise body scope).items := by
  have hdirect := callsFrom_directSteps model noise body scope
  rw [calleesOf_eq, calleesOf_eq, hdirect.calls,
    (callsFrom_dependencies model noise throughProperties body scope).calls]
  intro m hm
  obtain ⟨t, ht, rfl⟩ := List.mem_map.mp hm
  obtain ⟨htarget, hkept⟩ := List.mem_filter.mp ht
  obtain ⟨kind, hmem⟩ := h.mem_directTargets (hdirect.fault.symm.trans hfault)
    (CodeModel.mem_targetsThrough htarget).2
  exact List.mem_map.mpr ⟨(kind, t.2), List.mem_filter.mpr ⟨hmem, hkept⟩, rfl⟩

/-- A search that finds nothing adds nothing. -/
theorem bodyStepsBy_silent :
    (bodyStepsBy model noise .silent body scope).items
      = (directSteps model noise body scope).items := by
  show ((directSteps model noise body scope).append (.done [])).items = _
  cases hfault : (directSteps model noise body scope).fault with
  | none =>
    rw [Cut.items_append_of_none hfault]
    exact List.append_nil _
  | some fault => exact Cut.items_append_of_fault (by rw [hfault]; rfl) _

variable (model) in
/-- The steps of a script are those of a body, or there are none, whatever the search finds. -/
theorem steps_ofMethodBy (m : MethodSymbol) :
    (∀ classify, (ofMethodBy model noise classify m).steps = [])
      ∨ ∃ body scope, model.definition m = .ok (some body) ∧ ∀ classify,
        (ofMethodBy model noise classify m).steps
          = (bodyStepsBy model noise classify body scope).items := by
  unfold ofMethodBy ofBody
  rcases model.definition m with fault | (_ | body)
  · exact Or.inl fun _ => rfl
  · exact Or.inl fun _ => rfl
  · rcases hscope : model.scope body with fault | (_ | scope)
    · exact Or.inl fun _ => by simp only [hscope]
    · exact Or.inl fun _ => by simp only [hscope]
    · exact Or.inr ⟨body, scope, rfl, fun _ => by simp only [hscope]⟩

/-- **A script retraces what is left of it without dependencies.** -/
theorem ofMethod_retraces
    (h : ∀ m body, model.definition m = .ok (some body) → ∀ scope, model.ListsCalls body scope)
    (throughProperties : Bool) (m : MethodSymbol) :
    ∃ added, (ofMethod model noise throughProperties m).steps
        = (ofMethodBy model noise .silent m).steps ++ added
      ∧ calleesOf added ⊆ (ofMethodBy model noise .silent m).callees := by
  rw [← ofMethodBy_findings]
  unfold callees
  obtain hnone | ⟨body, scope, hbody, hsteps⟩ := steps_ofMethodBy model noise m
  · rw [hnone, hnone]
    exact ⟨[], rfl, List.Subset.refl _⟩
  · rw [hsteps, hsteps, bodyStepsBy_silent]
    unfold bodyStepsBy
    cases hfault : (directSteps model noise body scope).fault with
    | none =>
      rw [Cut.items_append_of_none hfault]
      exact ⟨_, rfl, callees_dependencySteps_subset noise (h m body hbody scope) hfault _⟩
    | some fault =>
      rw [Cut.items_append_of_fault (by rw [hfault]; rfl)]
      exact ⟨[], (List.append_nil _).symm, List.nil_subset _⟩

variable (model) in
/-- Without dependencies no call is made through a member. -/
theorem kind_of_mem_calls_silent (m : MethodSymbol) :
    ∀ c ∈ (ofMethodBy model noise .silent m).calls, c.1 ≠ .dependencyInvocation := by
  intro c hc
  unfold calls at hc
  obtain hnone | ⟨body, scope, -, hsteps⟩ := steps_ofMethodBy model noise m
  · rw [hnone] at hc
    cases hc
  · rw [hsteps, bodyStepsBy_silent, (callsFrom_directSteps model noise body scope).calls] at hc
    exact CodeModel.kind_of_mem_directTargets (List.mem_filter.mp hc).1

end Script

namespace Workspace

open CallTree.Data (Table)
open CallTree.Walk

/-- **A definition whose body is a block lists its calls.** -/
theorem listsCalls_of_hasBlock (ws : Workspace) {d : Definition} (hd : d.HasBlock)
    (scope : Workspace.Scope) : ws.model.ListsCalls d scope := by
  rintro m ⟨accesses, haccesses, access, haccess, call, hcall, hm⟩ invocations hinvocations
    creations hcreations
  cases hbody : d.body? with
  | none =>
    have hempty : ws.occurrencesIn d .memberAccess = .ok [] := by
      unfold occurrencesIn
      rw [hbody]
    cases hempty.symm.trans haccesses
    cases haccess
  | some body =>
    have hdescendants : ws.occurrencesIn d .memberAccess
        = .ok (body.descendantsOf .attributeAccess) := by
      unfold occurrencesIn
      rw [hbody]
    cases hdescendants.symm.trans haccesses
    obtain ⟨site, hsite, hnode⟩ :=
      mem_calls_of_invocationSite? (hd body hbody) haccess (Except.ok.inj hcall)
    refine ⟨site, mem_occurrences_of_call hbody hinvocations hcreations hsite, ?_⟩
    have hlabel : site.node.label = .construct .call :=
      of_decide_eq_true (List.mem_filter.mp hsite).2
    exact (Workspace.Scope.resolve_of_call hnode hlabel).trans hm

/-- The plan of a walk retraces the one without dependencies. -/
theorem retraces_silent {ws : Workspace} (h : ∀ d ∈ ws.definitions.values, d.HasBlock)
    (noise : Noise) (options : Options) (calledOff : Nat → Bool) :
    (Plan.ofModel ws.model noise options calledOff).Retraces
      (Script.ofMethodBy ws.model noise .silent) := by
  refine Script.ofMethod_retraces noise (fun m d hd scope => ?_) options.unifyPropertyDependencies
  obtain ⟨name, hname⟩ := exists_get?_of_definitionOf hd
  exact ws.listsCalls_of_hasBlock (h d (Table.mem_values_of_get? hname)) scope

/-- **Dependencies discover nothing.** In a workspace that is opened from sources, a walk that
expands each key once and is not called off expands the same methods and marks the same keys
whether it searches properties for calls or not, and the same as with a search that finds nothing.
The edges of a walk are those along which visits are made, and a visit that is made for a call
through a member adds to the log that the method was met before; or, at the depth of the cap, that
it was entered and not expanded. -/
theorem dependencies_discover_nothing (sources : List (String × String)) (ws : Workspace)
    (hws : ws = ofSources sources) (noise : Noise) (options : Options) (entry : MethodSymbol)
    (honce : options.expandRepeatedPaths = false) :
    (∀ unify,
      let outcome := walk ws.model noise { options with unifyPropertyDependencies := unify }
        (fun _ => false) entry
      let bare := walkBy ws.model noise options (fun _ => false) .silent entry
      walkBy ws.model noise options (fun _ => false) (Dependency.findings ws.model unify) entry
          = outcome
        ∧ outcome.expanded = bare.expanded ∧ outcome.visited = bare.visited)
      ∧ (let plan := Plan.ofModel ws.model noise options fun _ => false
        let first := Visit.first options entry
        let outcome := walk ws.model noise options (fun _ => false) entry
        outcome.edges = first.edges plan
          ∧ (∀ v : Visit, v.edges plan
            = (v.made plan).flatMap fun c => v.edgeTo plan c :: c.2.edges plan)
          ∧ ∀ v, plan.Visits first v → ∀ w, (.dependencyInvocation, w) ∈ v.made plan →
            w.events plan <:+: outcome.events
              ∧ (w.events plan = [.cycle (plan.key w.method) w.depth]
                ∨ w.depth = options.maxDepth
                  ∧ w.events plan = [.enter (plan.key w.method) w.depth,
                    .terminal (plan.key w.method) w.depth .depthLimit none])) := by
  have hblocks : ∀ d ∈ ws.definitions.values, d.HasBlock :=
    hws ▸ hasBlock_openSources (fun _ h => absurd h List.not_mem_nil) sources
  refine ⟨fun unify => ⟨walkBy_findings _ _ _ _ _ _, ?_⟩, rfl, Visit.edges_eq _,
    fun v hv w hw => ⟨?_, ?_⟩⟩
  · have hscript := retraces_silent hblocks noise
      { options with unifyPropertyDependencies := unify } fun _ => false
    obtain ⟨hexpansions, halongside⟩ := (retraced_invariant honce (fun _ => rfl) hscript).grow
      options.maxDepth [] entry {} rfl {} ⟨⟨rfl, Nat.le_refl _⟩, rfl⟩
    exact ⟨congrArg (List.map Prod.fst) hexpansions.symm, halongside.visited_eq.symm⟩
  · exact Visit.events_infix_of_visits (hv.tail (Visit.makes_of_mem_made hw))
  · have hnowhere := Visit.leadsNowhere_of_mem_made honce (fun _ => rfl)
      (retraces_silent hblocks noise options fun _ => false)
      (Script.kind_of_mem_calls_silent ws.model noise) (Visit.on_of_visits hv rfl) hw
    have hdepth := Visit.depth_add_room (hv.tail (Visit.makes_of_mem_made hw))
    refine hnowhere.events_eq.imp id fun ⟨hroom, hevents⟩ => ⟨?_, hevents⟩
    rw [hroom] at hdepth
    exact hdepth.trans (Nat.zero_add _)

/-- A class that calls a method through a field. -/
def shelfSources : List (String × String) :=
  [("m.py", "class B:\n    def run(self):\n        pass\n"
    ++ "class A:\n    b: B\n    def go(self):\n        self.b.run()\n")]

def shelf : Workspace := ofSources shelfSources

/-- The method that the walk begins with. -/
def shelfEntry : MethodSymbol := ((shelf.definitions.get? "m.A.go").map (·.symbol)).getD default

/-- The call is followed as an invocation; the second time, through the field, it leads nowhere. -/
theorem dependencies_discover_nothing_shelf :
    let plan := Plan.ofModel shelf.model {} {} fun _ => false
    (∀ unify, (walk shelf.model {} { unifyPropertyDependencies := unify } (fun _ => false)
      shelfEntry).expanded = ["A.go", "B.run"])
      ∧ (walkBy shelf.model {} {} (fun _ => false) .silent shelfEntry).expanded
        = ["A.go", "B.run"]
      ∧ ∃ w, (.dependencyInvocation, w) ∈ (Visit.first {} shelfEntry).made plan
        ∧ w.depth ≠ ({} : Options).maxDepth
        ∧ w.events plan = [.cycle (plan.key w.method) w.depth] := by
  intro plan
  have hlaw := dependencies_discover_nothing shelfSources shelf rfl {} {} shelfEntry rfl
  have hfacts : (walk shelf.model {} {} (fun _ => false) shelfEntry).expanded = ["A.go", "B.run"]
      ∧ ∃ c ∈ (Visit.first {} shelfEntry).made plan,
        c.1 = .dependencyInvocation ∧ c.2.depth ≠ ({} : Options).maxDepth := by
    decide +kernel
  obtain ⟨hexpanded, ⟨kind, w⟩, hw, rfl, hdepth⟩ := hfacts
  have hbare := (hlaw.1 false).2.1.symm.trans hexpanded
  refine ⟨fun unify => (hlaw.1 unify).2.1.trans hbare, hbare, w, hw, hdepth, ?_⟩
  exact (hlaw.2.2.2 _ .refl w hw).2.resolve_right fun hcap => hdepth hcap.1

-- with the callee at the cap it is listed both times
example : (walk shelf.model {} { maxDepth := 1 } (fun _ => false) shelfEntry).events
    = [.enter "A.go" 0, .enter "B.run" 1, .terminal "B.run" 1 .depthLimit none,
      .dependency "B" 0 .field (some "b"), .enter "B.run" 1,
      .terminal "B.run" 1 .depthLimit none] := by
  decide +kernel

end Workspace

end CallTree
