import CallTree.CodeModel.Tabular
import CallTree.Proofs.Bookkeeping
import CallTree.Proofs.CutShort
import CallTree.Proofs.Guard

/-!
# What is left out of a tree

Noise is told by names. A module is looked up under every name that its own name begins with,
segment by segment, and `mem_roots_iff` says what that comes to: a root covers the module
that bears its name and those whose names go on after it with a dot. It does not matter how
many segments the root has, whether segments are empty, or that some other module's name
begins with the same letters. So whether a method is noise can be said without segments
(`Noise.Omits`).

The rest is about what a walk does with it. The targets in a body come from three places,
and `CodeModel.targets` lists them without regard to noise. The calls of a script are the
targets that are not noise (`Script.calls_ofMethod`): the three places are gone through the
same way, so one relation between steps and targets (`Cut.CallsFrom`) is shown to be kept by
everything that scripts are put together with. A visit makes the calls of its script one
after the other, up to the one in which the walk is called off (`Visit.made`), and any visit
but the first was made by another.
-/

namespace CallTree

open CallTree.Script (Step)

/-! ## Names and their segments -/

namespace Text

/-- Put together again, the pieces of a text are the text. -/
theorem intercalate_pieces (sep : Char) (cs : List Char) :
    [sep].intercalate (pieces sep cs) = cs := by
  induction cs with
  | nil => rfl
  | cons c cs ih =>
    obtain ⟨p, ps, hpieces⟩ := List.exists_cons_of_ne_nil (pieces_ne_nil sep cs)
    rw [hpieces] at ih
    rw [pieces, hpieces]
    split
    case isTrue h => rw [List.intercalate_cons_cons, ih, h]; rfl
    case isFalse =>
      cases ps with
      | nil => rw [← ih]; rfl
      | cons p' ps =>
        rw [List.intercalate_cons_cons] at ih ⊢
        rw [← ih]
        rfl

/-- A separator ends a piece and begins another. -/
theorem pieces_append (sep : Char) (cs ds : List Char) :
    pieces sep (cs ++ sep :: ds) = pieces sep cs ++ pieces sep ds := by
  induction cs with
  | nil => exact if_pos rfl
  | cons c cs ih =>
    rw [List.cons_append, pieces, pieces, ih]
    split
    · rfl
    · obtain ⟨p, ps, hpieces⟩ := List.exists_cons_of_ne_nil (pieces_ne_nil sep cs)
      rw [hpieces]
      rfl

/-- **A name is made of its segments.** -/
theorem dotted_segments (name : String) : dotted (segments name) = name := by
  apply String.toList_injective
  rw [dotted, segments, String.toList_intercalate, List.map_map]
  have hlists : String.toList ∘ String.ofList = id := funext fun _ => String.toList_ofList
  rw [hlists, List.map_id]
  exact intercalate_pieces '.' name.toList

/-- The segments of a longer name. -/
theorem segments_append (name rest : String) :
    segments (name ++ "." ++ rest) = segments name ++ segments rest := by
  unfold segments
  rw [String.toList_append, String.toList_append, List.append_assoc, ← List.map_append,
    ← pieces_append]
  rfl

end Text

namespace Noise

open CallTree.Text (segments dotted dotted_segments segments_append segments_ne_nil)

/-- **A name lies under another** when it is the other, or goes on after it with a dot. -/
def LiesUnder (root name : String) : Prop :=
  name = root ∨ ∃ rest, name = root ++ "." ++ rest

/-- The names that a name begins with, segment by segment, are those that it lies under. -/
theorem mem_roots_iff {root name : String} : root ∈ roots name ↔ LiesUnder root name := by
  unfold roots LiesUnder
  rw [List.mem_map]
  constructor
  · rintro ⟨n, hn, rfl⟩
    have hn : n < (segments name).length := List.mem_range.mp hn
    cases hdrop : (segments name).drop (n + 1) with
    | nil =>
      have htake := List.take_append_drop (n + 1) (segments name)
      rw [hdrop, List.append_nil] at htake
      rw [htake, dotted_segments]
      exact Or.inl rfl
    | cons part parts =>
      refine Or.inr ⟨dotted (part :: parts), ?_⟩
      have htake : (segments name).take (n + 1) ≠ [] := by
        rw [Ne, List.take_eq_nil_iff, not_or]
        exact ⟨Nat.succ_ne_zero n, segments_ne_nil name⟩
      calc
        name = dotted (segments name) := (dotted_segments name).symm
        _ = dotted ((segments name).take (n + 1) ++ (part :: parts)) := by
          rw [← hdrop, List.take_append_drop]
        _ = _ := String.intercalate_append_of_ne_nil htake (List.cons_ne_nil _ _)
  · have hlength : ∀ name, (segments name).length - 1 + 1 = (segments name).length := fun name =>
      Nat.sub_add_cancel (List.length_pos_iff.mpr (segments_ne_nil name))
    rintro (rfl | ⟨rest, rfl⟩)
    · refine ⟨(segments name).length - 1, List.mem_range.mpr ?_, ?_⟩
      · exact Nat.lt_of_lt_of_eq (Nat.lt_succ_self _) (hlength name)
      · rw [hlength, List.take_length, dotted_segments]
    · refine ⟨(segments root).length - 1, List.mem_range.mpr ?_, ?_⟩
      · rw [segments_append, List.length_append, ← hlength root]
        omega
      · rw [segments_append, hlength, List.take_left, dotted_segments]

/-- **The modules under some roots.** -/
theorem isUnder_iff {given : List String} {name : String} :
    isUnder given name = true ↔ name ≠ "" ∧ ∃ root ∈ given, LiesUnder root name := by
  unfold isUnder
  rw [Bool.and_eq_true, List.any_eq_true, Bool.not_eq_true', ← Bool.not_eq_true,
    String.isEmpty_iff]
  refine and_congr_right fun _ => ⟨?_, ?_⟩
  · rintro ⟨root, hroot, hgiven⟩
    exact ⟨root, List.contains_iff_mem.mp hgiven, mem_roots_iff.mp hroot⟩
  · rintro ⟨root, hgiven, hroot⟩
    exact ⟨root, mem_roots_iff.mpr hroot, List.contains_iff_mem.mpr hgiven⟩

/-- No module of the standard library is without a name. -/
theorem ne_empty_of_mem_standardModules : "" ∉ standardModules := by decide +kernel

/-- **What is left out of a call tree**, and why. -/
inductive Omits (noise : Noise) (m : MethodSymbol) : Prop
  /-- Methods of this name are left out everywhere. -/
  | name (h : m.name ∈ noise.skippedMethods)
  /-- The method belongs to the framework. -/
  | framework {root : String} (hmem : root ∈ noise.frameworkRoots) (hne : m.homeModule ≠ "")
      (h : LiesUnder root m.homeModule)
  /-- The method is external and belongs to the standard library. -/
  | standard {root : String} (hmem : root ∈ standardModules) (hon : noise.includeStandard = true)
      (hexternal : m.isExternal = true) (h : LiesUnder root m.homeModule)

/-- **A method is skipped exactly when there is a reason to leave it out.** -/
theorem skips_iff {noise : Noise} {m : MethodSymbol} : noise.skips m = true ↔ noise.Omits m := by
  unfold skips
  rw [Bool.or_eq_true, Bool.or_eq_true, List.contains_iff_mem, Bool.and_eq_true, Bool.and_eq_true,
    isUnder_iff, isUnder_iff]
  constructor
  · rintro ((h | ⟨hne, root, hmem, h⟩) | ⟨⟨hexternal, hon⟩, -, root, hmem, h⟩)
    · exact .name h
    · exact .framework hmem hne h
    · exact .standard hmem hon hexternal h
  · rintro (h | ⟨hmem, hne, h⟩ | ⟨hmem, hon, hexternal, h⟩)
    · exact Or.inl (Or.inl h)
    · exact Or.inl (Or.inr ⟨hne, _, hmem, h⟩)
    · refine Or.inr ⟨⟨hexternal, hon⟩, ?_, _, hmem, h⟩
      -- the root has a name, and so has what lies under it
      intro hempty
      rw [hempty] at h
      rcases h with h | ⟨rest, h⟩
      · exact ne_empty_of_mem_standardModules (h ▸ hmem)
      · have hlength := congrArg String.length h
        rw [String.length_append, String.length_append, show ".".length = 1 from rfl,
          String.length_empty] at hlength
        omega

instance (noise : Noise) : DecidablePred noise.Omits := fun _ => decidable_of_iff _ skips_iff

end Noise

/-! ## The targets in a body -/

/-- A target: how it was found, and the method that it is. -/
abbrev Target := EdgeKind × MethodSymbol

variable {Body Scope Expr : Type}

namespace CodeModel

variable (model : CodeModel Body Scope Expr)

/-- The methods that the expressions of a kind stand for, in order and up to a fault. -/
def targetsAmong (kind : SyntaxKind) (found : EdgeKind) (body : Body) (scope : Scope) :
    Cut Target :=
  Cut.after (model.occurrences body kind) <| Cut.each fun e =>
    (model.resolve scope e).map fun s => (s.bind Symbol.method?).toList.map (found, ·)

/-- The methods that are called through members, unless the search for them fails. -/
def targetsThrough (throughProperties : Bool) (body : Body) (scope : Scope) : Cut Target :=
  match Dependency.usages (Dependency.findings model throughProperties body scope) with
  | .error fault => .stop fault
  | .ok usages => .done ((usages.filterMap (·.invoked)).map (.dependencyInvocation, ·))

/-- **The targets in a body**: those of invocations, those of creations, and those called
through members. -/
def targetsIn (throughProperties : Bool) (body : Body) (scope : Scope) : Cut Target :=
  (model.targetsAmong .invocation .directInvocation body scope).append <|
    (model.targetsAmong .objectCreation .objectCreation body scope).append <|
      model.targetsThrough throughProperties body scope

/-- **The targets of a method**, up to the first fault. There are none without a body or
without a scope. -/
def targets (throughProperties : Bool) (m : MethodSymbol) : List Target :=
  match model.definition m with
  | .ok (some body) =>
    match model.scope body with
    | .ok (some scope) => (model.targetsIn throughProperties body scope).items
    | _ => []
  | _ => []

end CodeModel

/-- The calls that are not left out. -/
def Noise.kept (noise : Noise) (calls : List Target) : List Target :=
  calls.filter fun c => ¬ noise.Omits c.2

theorem Noise.not_omits_of_mem_kept {noise : Noise} {calls : List Target} {c : Target}
    (h : c ∈ noise.kept calls) : ¬ noise.Omits c.2 :=
  of_decide_eq_true (List.mem_filter.mp h).2

theorem Noise.kept_append (noise : Noise) (a b : List Target) :
    noise.kept (a ++ b) = noise.kept a ++ noise.kept b := List.filter_append ..

namespace Script

/-- The call that a step is. -/
def Step.call? : Step → Option Target
  | .remark _ => none
  | .follow kind callee => some (kind, callee)

/-- The calls among some steps. -/
def callsOf (steps : List Step) : List Target := steps.filterMap Step.call?

/-- **The calls of a script.** -/
def calls (s : Script) : List Target := callsOf s.steps

theorem callsOf_append (a b : List Step) : callsOf (a ++ b) = callsOf a ++ callsOf b :=
  List.filterMap_append ..

/-- A target is followed unless it is left out. -/
theorem callsOf_followed (noise : Noise) (kind : EdgeKind) (target : MethodSymbol) :
    callsOf (followed noise kind target) = noise.kept [(kind, target)] := by
  unfold followed Noise.kept
  by_cases h : noise.skips target = true
  · rw [if_pos h, List.filter_cons_of_neg (by simpa using Noise.skips_iff.mp h)]
    rfl
  · rw [if_neg h, List.filter_cons_of_pos (by simpa using mt Noise.skips_iff.mpr h)]
    rfl

end Script

/-! ## The calls of a script -/

/-- **Steps follow targets**: they are cut by the same fault, and their calls are the targets
that are not left out. -/
structure Cut.CallsFrom (noise : Noise) (steps : Cut Step) (targets : Cut Target) : Prop where
  fault : steps.fault = targets.fault
  calls : Script.callsOf steps.items = noise.kept targets.items

namespace Cut.CallsFrom

variable {noise : Noise} {α β : Type}

theorem append {a b : Cut Step} {a' b' : Cut Target} (ha : a.CallsFrom noise a')
    (hb : b.CallsFrom noise b') : (a.append b).CallsFrom noise (a'.append b') where
  fault := by rw [fault_append, fault_append, ha.fault, hb.fault]
  calls := by
    cases hfault : a'.fault with
    | some fault =>
      have hsome : a'.fault.isSome := by rw [hfault]; rfl
      rw [items_append_of_fault hsome, items_append_of_fault (ha.fault ▸ hsome), ha.calls]
    | none =>
      rw [items_append_of_none hfault, items_append_of_none (ha.fault.trans hfault),
        Script.callsOf_append, Noise.kept_append, ha.calls, hb.calls]

/-- Remarks that come first make no difference. -/
theorem after_remarks {steps : List Step} (hsteps : ∀ step ∈ steps, step.call? = none)
    {b : Cut Step} {b' : Cut Target} (hb : b.CallsFrom noise b') :
    ((Cut.done steps).append b).CallsFrom noise b' where
  fault := hb.fault
  calls := by
    rw [items_append_of_none rfl, Script.callsOf_append, hb.calls]
    exact congrArg (· ++ noise.kept b'.items) (List.filterMap_eq_nil_iff.mpr hsteps)

theorem after {f : α → Cut Step} {g : α → Cut Target} (h : ∀ a, (f a).CallsFrom noise (g a))
    (answer : Except Fault α) : (Cut.after answer f).CallsFrom noise (Cut.after answer g) := by
  cases answer with
  | error fault => exact ⟨rfl, rfl⟩
  | ok a => exact h a

/-- What comes of the same questions. -/
theorem each {ask : α → Except Fault β} {f : α → β → List Step} {g : α → β → List Target}
    (h : ∀ a b, Script.callsOf (f a b) = noise.kept (g a b)) (l : List α) :
    (Cut.each (fun a => (ask a).map (f a)) l).CallsFrom noise
      (Cut.each (fun a => (ask a).map (g a)) l) := by
  induction l with
  | nil => exact ⟨rfl, rfl⟩
  | cons a l ih =>
    cases hask : ask a with
    | error fault =>
      rw [each_map_cons_of_error f hask, each_map_cons_of_error g hask]
      exact ⟨rfl, rfl⟩
    | ok b =>
      rw [each_map_cons_of_ok f hask, each_map_cons_of_ok g hask]
      refine ⟨ih.fault, ?_⟩
      rw [Script.callsOf_append, Noise.kept_append, h a b, ih.calls]

end Cut.CallsFrom

namespace Script

variable (model : CodeModel Body Scope Expr) (noise : Noise)

theorem callsFrom_invocations (body : Body) (scope : Scope) :
    (Cut.after (model.occurrences body .invocation)
        (Cut.each (invocationSteps model noise scope))).CallsFrom noise
      (model.targetsAmong .invocation .directInvocation body scope) := by
  rw [invocationSteps_eq]
  refine .after (.each fun _ s => ?_) _
  rcases s with _ | (_ | target | _ | _)
  · rfl
  · rfl
  · exact callsOf_followed noise .directInvocation target
  · rfl
  · rfl

/-- An object that is created is noted whether its constructor is left out or not. -/
theorem callsFrom_creations (body : Body) (scope : Scope) :
    (Cut.after (model.occurrences body .objectCreation)
        (Cut.each (creationSteps model noise scope))).CallsFrom noise
      (model.targetsAmong .objectCreation .objectCreation body scope) := by
  rw [creationSteps_eq]
  refine .after (.each fun _ s => ?_) _
  rcases s with _ | (_ | target | _ | _)
  · rfl
  · rfl
  · exact callsOf_followed noise .objectCreation target
  · rfl
  · rfl

/-- The calls for some usages are those for the methods that are called. -/
theorem callsOf_usageSteps (usages : List Dependency.Usage) :
    callsOf (usages.flatMap (usageSteps noise))
      = noise.kept ((usages.filterMap (·.invoked)).map (.dependencyInvocation, ·)) := by
  induction usages with
  | nil => rfl
  | cons usage usages ih =>
    rw [List.flatMap_cons, callsOf_append, ih]
    unfold usageSteps
    cases hinvoked : usage.invoked with
    | none =>
      rw [List.filterMap_cons_none hinvoked]
      rfl
    | some target =>
      rw [List.filterMap_cons_some hinvoked]
      show callsOf (followed noise .dependencyInvocation target) ++ _ = noise.kept ([_] ++ _)
      rw [callsOf_followed, Noise.kept_append]

theorem callsFrom_dependencies (throughProperties : Bool) (body : Body) (scope : Scope) :
    (dependencySteps noise
        (Dependency.findings model throughProperties body scope)).CallsFrom noise
      (model.targetsThrough throughProperties body scope) := by
  unfold dependencySteps CodeModel.targetsThrough
  generalize Dependency.findings model throughProperties body scope = found
  refine .after_remarks (fun step hstep => ?_) ?_
  · obtain ⟨finding, -, heq⟩ := List.mem_filterMap.mp hstep
    cases finding with
    | usage u => cases heq
    | unresolved member =>
      cases heq
      rfl
  · cases Dependency.usages found with
    | error fault => exact ⟨rfl, rfl⟩
    | ok usages => exact ⟨rfl, callsOf_usageSteps noise usages⟩

/-- **A script calls the targets that are not left out**, in order. -/
theorem calls_ofMethod (throughProperties : Bool) (m : MethodSymbol) :
    (ofMethod model noise throughProperties m).calls
      = noise.kept (model.targets throughProperties m) := by
  unfold ofMethod CodeModel.targets
  rcases model.definition m with fault | (_ | body)
  · rfl
  · rfl
  · rcases hscope : model.scope body with fault | (_ | scope)
    · simp only [hscope]; rfl
    · simp only [hscope]; rfl
    · have hbody := (callsFrom_invocations model noise body scope).append <|
        (callsFrom_creations model noise body scope).append
          (callsFrom_dependencies model noise throughProperties body scope)
      have hopened : ∀ step ∈ [Step.remark .opened], step.call? = none :=
        List.forall_mem_singleton.mpr rfl
      simp only [hscope]
      exact (hbody.after_remarks hopened).calls

end Script

/-! ## The visits that a visit makes -/

namespace Walk

namespace Visit

variable (plan : Plan) (v : Visit)

instance : Decidable (v.Expands plan) :=
  decidable_of_iff (plan.calledOff v.number = false
      ∧ plan.guards v.path v.before (plan.key v.method) = false ∧ 0 < v.room)
    ⟨fun ⟨on, free, room⟩ => ⟨on, free, room⟩, fun ⟨on, free, room⟩ => ⟨on, free, room⟩⟩

/-- The visits that are made for some steps, each with the way in which the callee was
found. The visit in which the walk is called off is the last. -/
def madeFor : List Step → Progress → List (EdgeKind × Visit)
  | [], _ => []
  | .remark _ :: steps, p => madeFor steps p
  | .follow kind callee :: steps, p =>
    let w := v.below plan callee p
    (kind, w) :: if (w.result plan).2.halted then [] else madeFor steps (w.result plan).2

/-- **The visits that a visit makes**, in order. -/
def made : List (EdgeKind × Visit) :=
  if v.Expands plan then v.madeFor plan (plan.script v.method).steps (v.opened plan) else []

/-- The call that a visit is made for. -/
def callOf (c : EdgeKind × Visit) : Target := (c.1, c.2.method)

/-- The edges that come of a visit. -/
def edges : List Edge := (v.result plan).1.edges v.depth

/-- The edge along which a visit is made. -/
def edgeTo (c : EdgeKind × Visit) : Edge :=
  ⟨plan.key v.method, plan.key c.2.method, c.1, c.2.depth⟩

variable {plan v} {steps : List Step} {p : Progress}

theorem madeFor_stopped {kind : EdgeKind} {callee : MethodSymbol}
    (h : ((v.below plan callee p).result plan).2.halted = true) :
    v.madeFor plan (.follow kind callee :: steps) p = [(kind, v.below plan callee p)] := by
  rw [madeFor]
  simp only [h, if_true]

theorem madeFor_followed {kind : EdgeKind} {callee : MethodSymbol}
    (h : ((v.below plan callee p).result plan).2.halted = false) :
    v.madeFor plan (.follow kind callee :: steps) p
      = (kind, v.below plan callee p)
        :: v.madeFor plan steps ((v.below plan callee p).result plan).2 := by
  rw [madeFor]
  simp only [h, Bool.false_eq_true, if_false]

/-- **The visits are made for the calls among the steps**, and for all of them unless the
walk is called off. -/
theorem callOf_madeFor (steps : List Step) (p : Progress) :
    (v.madeFor plan steps p).map callOf <+: Script.callsOf steps
      ∧ ((growBranches (grow plan (v.room - 1) (plan.key v.method :: v.path)) steps p).2.halted
          = false →
        (v.madeFor plan steps p).map callOf = Script.callsOf steps) := by
  induction steps generalizing p with
  | nil => exact ⟨List.prefix_rfl, fun _ => rfl⟩
  | cons step steps ih =>
    cases step with
    | remark r => exact ih p
    | follow kind callee =>
      cases hon : ((v.below plan callee p).result plan).2.halted with
      | true =>
        rw [madeFor_stopped hon, growBranches_stopped rfl hon]
        refine ⟨⟨Script.callsOf steps, rfl⟩, fun hend => ?_⟩
        exact absurd (hon.symm.trans hend) (by decide)
      | false =>
        rw [madeFor_followed hon, growBranches_followed rfl hon]
        obtain ⟨hinitial, hall⟩ := ih ((v.below plan callee p).result plan).2
        refine ⟨(List.prefix_cons_inj _).mpr hinitial, fun hend => ?_⟩
        exact congrArg ((kind, callee) :: ·) (hall hend)

/-- A visit is made for the call that the script has come to. -/
theorem At.madeFor_subset (h : v.At plan steps p) :
    v.madeFor plan steps p ⊆ v.made plan := by
  induction h with
  | start h =>
    unfold made
    rw [if_pos h]
    exact List.Subset.refl _
  | remark _ ih => exact ih
  | call _ hon ih =>
    rw [madeFor_followed hon] at ih
    exact List.Subset.trans (List.subset_cons_self _ _) ih

/-- **What a visit makes is listed.** -/
theorem Makes.mem_made {w : Visit} (h : Makes plan v w) : ∃ kind, (kind, w) ∈ v.made plan := by
  cases h with
  | @call kind callee steps p hat =>
    refine ⟨kind, hat.madeFor_subset ?_⟩
    rw [madeFor]
    exact List.mem_cons_self

/-- The edges of some steps are those along which the visits are made, each before those that
come of the visit. -/
theorem edges_growBranches (steps : List Step) (p : Progress) :
    (growBranches (grow plan (v.room - 1) (plan.key v.method :: v.path)) steps p).1.edges
        (plan.key v.method) v.depth
      = (v.madeFor plan steps p).flatMap fun c => v.edgeTo plan c :: c.2.edges plan := by
  have hkey : ∀ callee p, (grow plan (v.room - 1) (plan.key v.method :: v.path) callee p).1.key
      = plan.key callee :=
    (key_invariant plan).grow (v.room - 1) (plan.key v.method :: v.path)
  induction steps generalizing p with
  | nil => rfl
  | cons step steps ih =>
    cases step with
    | remark r => exact ih p
    | follow kind callee =>
      cases hon : ((v.below plan callee p).result plan).2.halted with
      | true =>
        rw [madeFor_stopped hon, growBranches_stopped rfl hon, Branches.edges, hkey]
        rfl
      | false =>
        rw [madeFor_followed hon, growBranches_followed rfl hon, Branches.edges, hkey, ih]
        rfl

/-- **The edges of a visit** are those to the visits that it makes, each before the edges of
that visit. -/
theorem edges_eq (plan : Plan) (v : Visit) :
    v.edges plan = (v.made plan).flatMap fun c => v.edgeTo plan c :: c.2.edges plan := by
  by_cases h : v.Expands plan
  · unfold edges made
    rw [h.result_eq, if_pos h]
    exact edges_growBranches _ _
  · unfold made
    rw [if_neg h]
    unfold edges result
    cases hc : plan.calledOff v.before.polls with
    | true => rw [grow_calledOff hc]; rfl
    | false =>
      cases hg : plan.guards v.path v.before (plan.key v.method) with
      | true => rw [grow_met hc hg]; rfl
      | false =>
        have hroom : v.room = 0 := Nat.eq_zero_of_not_pos fun hroom => h ⟨hc, hg, hroom⟩
        rw [hroom, grow_capped hc hg]
        rfl

/-- A visit that does not go through a script makes no visit. -/
theorem callOf_made (plan : Plan) (v : Visit) :
    (v.made plan).map callOf <+: (plan.script v.method).calls
      ∧ (v.Expands plan → (v.result plan).2.halted = false →
        (v.made plan).map callOf = (plan.script v.method).calls) := by
  by_cases h : v.Expands plan
  · unfold made
    rw [if_pos h, h.result_eq]
    exact ⟨(callOf_madeFor _ _).1, fun _ => (callOf_madeFor _ _).2⟩
  · unfold made
    rw [if_neg h]
    exact ⟨List.nil_prefix, fun hexpands => absurd hexpands h⟩

end Visit

/-! ## Noise along a walk -/

/-- **Noise is left out, and nothing else is.** Each visit of a walk that goes through a
script makes visits for the targets of its method that are not left out, in order, and for
all of them unless the walk is called off below it; the edges of the walk are those to the
visits that are made. So no visit but the first is of a method that is left out. -/
theorem noise_is_left_out (model : CodeModel Body Scope Expr) (noise : Noise) (options : Options)
    (calledOff : Nat → Bool) (entry : MethodSymbol) :
    let plan := Plan.ofModel model noise options calledOff
    let first := Visit.first options entry
    let targets := model.targets options.unifyPropertyDependencies
    (walk model noise options calledOff entry).edges = first.edges plan
      ∧ (∀ v : Visit, v.edges plan
          = (v.made plan).flatMap fun c => v.edgeTo plan c :: c.2.edges plan)
      ∧ (∀ v, plan.Visits first v → v.Expands plan →
        (v.made plan).map Visit.callOf <+: (targets v.method).filter (¬ noise.Omits ·.2)
          ∧ ((v.result plan).2.halted = false →
            (v.made plan).map Visit.callOf = (targets v.method).filter (¬ noise.Omits ·.2)))
      ∧ ∀ v, plan.Visits first v → v ≠ first → ¬ noise.Omits v.method := by
  intro plan first targets
  have hcalls : ∀ m, (plan.script m).calls = noise.kept (targets m) :=
    Script.calls_ofMethod model noise options.unifyPropertyDependencies
  refine ⟨rfl, Visit.edges_eq plan, fun v _ hexpands => ?_, fun v hv hne homits => ?_⟩
  · obtain ⟨hinitial, hall⟩ := Visit.callOf_made plan v
    rw [hcalls] at hinitial hall
    exact ⟨hinitial, hall hexpands⟩
  · -- a visit that is not the first was made by another, for a target that was kept
    obtain heq | ⟨u, -, hmakes⟩ := hv.cases_tail
    · exact hne heq
    · obtain ⟨kind, hmem⟩ := hmakes.mem_made
      have hcall := (Visit.callOf_made plan u).1.subset (List.mem_map_of_mem hmem)
      rw [hcalls] at hcall
      exact Noise.not_omits_of_mem_kept hcall homits

/-- A method that calls four others: one of the framework, one of the standard library, one
that everything has, and one in a module with a name that merely looks like another. -/
def till : MethodSymbol := { name := "run", qualifiedName := "shop.run", homeModule := "shop" }

def tillTargets : List MethodSymbol :=
  [{ name := "len", qualifiedName := "builtins.len", homeModule := "builtins" },
   { name := "dumps", qualifiedName := "json.encoder.dumps", homeModule := "json.encoder",
     isExternal := true },
   { name := "__str__", qualifiedName := "shop.Price.__str__", homeModule := "shop" },
   { name := "total", qualifiedName := "builtinsx.total", homeModule := "builtinsx" }]

def tillProgram : Tabular.Program where
  symbols := .empty
  members := .empty
  bodies := [("shop.run", { occurrences := fun
    | .invocation => tillTargets.map fun m => .mk (some (.method m)) none none
    | _ => [] })]

/-- Only the last of them is visited. -/
theorem noise_is_left_out_till :
    let plan := Plan.ofModel tillProgram.model {} {} fun _ => false
    let first := Visit.first {} till
    let total := first.below plan (tillTargets.getLast (by decide)) (first.opened plan)
    plan.Visits first total ∧ first.Expands plan
      ∧ (first.made plan).map Visit.callOf
        = (tillTargets.map (EdgeKind.directInvocation, ·)).filter (¬ ({} : Noise).Omits ·.2)
      ∧ ¬ ({} : Noise).Omits total.method := by
  intro plan first total
  have hlaw := noise_is_left_out tillProgram.model {} {} (fun _ => false) till
  have hexpands : first.Expands plan := ⟨rfl, rfl, by decide⟩
  have htotal : plan.Visits first total := by
    have hsteps : (plan.script till).steps
        = [.remark .opened, .follow .directInvocation (tillTargets.getLast (by decide))] := by
      decide +kernel
    have hat := Visit.At.start hexpands
    rw [show first.method = till from rfl, hsteps] at hat
    exact .single (.call hat.remark)
  refine ⟨htotal, hexpands, ?_, ?_⟩
  · exact (hlaw.2.2.1 first .refl hexpands).2 (by decide +kernel)
  · refine hlaw.2.2.2 total htotal fun heq => ?_
    exact absurd (congrArg Visit.room heq) (by decide)

end Walk

end CallTree
