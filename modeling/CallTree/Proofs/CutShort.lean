import CallTree.Walk.Script

/-!
# Bodies that are cut short by a fault

Any question to a code model may fail, and then the rest of the body that it was asked about
is left undone. To say what a walk makes of that there has to be another model to compare
with, one in which the body comes to its end where the fault was, and `CodeModel.cutShort` is
that model: it answers every question, its bodies are those of the given model up to the
first fault, and a method whose body or scope could not be had at all has an empty one.
Dependencies are searched for before any of them is acted upon, so a fault in the search
leaves none.

What is shown here is about one method. Its scripts in the two models differ in two ways
only (`Script.failsAs_cutShort`): in how they end, and in remarks that nobody hears of, such
as the calls that stayed unresolved in a search that was given up. Every answer that the
given model has is *upheld* by the other, so what is put together from answers alone is the
same in both; that is how the search for dependencies is dealt with.
-/

namespace CallTree

open CallTree.Script (Step)

/-! ## Lists that a fault may have cut short -/

namespace Cut

variable {α β γ : Type}

theorem fault_append (a b : Cut α) : (a.append b).fault = a.fault.or b.fault := by
  unfold append
  cases h : a.fault <;> rfl

/-- After a fault nothing comes. -/
theorem items_append_of_fault {a : Cut α} (h : a.fault.isSome) (b : Cut α) :
    (a.append b).items = a.items := by
  obtain ⟨fault, hfault⟩ := Option.isSome_iff_exists.mp h
  unfold append
  rw [hfault]

theorem items_append_of_none {a : Cut α} (h : a.fault = none) (b : Cut α) :
    (a.append b).items = a.items ++ b.items := by
  unfold append
  rw [h]

section Asking

variable (g : α → β → List γ) {ask : α → Except Fault β} {a : α}

theorem each_map_cons_of_error {fault : Fault} (h : ask a = .error fault) (l : List α) :
    each (fun a => (ask a).map (g a)) (a :: l) = stop fault := by
  rw [each, h]
  rfl

theorem each_map_cons_of_ok {b : β} (h : ask a = .ok b) (l : List α) :
    each (fun a => (ask a).map (g a)) (a :: l)
      = ⟨g a b ++ (each (fun a => (ask a).map (g a)) l).items,
        (each (fun a => (ask a).map (g a)) l).fault⟩ := by
  rw [each, h]
  rfl

end Asking

/-- The items that a question was answered about, up to the first fault. -/
def answered (ask : α → Except Fault β) : List α → Cut α :=
  each fun a => (ask a).map fun _ => [a]

/-- **What comes of the answers to some questions** comes of the questions that were
answered, and from these it is had without a fault. -/
theorem each_answered {ask ask' : α → Except Fault β}
    (hagree : ∀ a b, ask a = .ok b → ask' a = .ok b) (g : α → β → List γ) (l : List α) :
    each (fun a => (ask' a).map (g a)) (answered ask l).items
        = done (each (fun a => (ask a).map (g a)) l).items
      ∧ (each (fun a => (ask a).map (g a)) l).fault = (answered ask l).fault := by
  unfold answered
  induction l with
  | nil => exact ⟨rfl, rfl⟩
  | cons a l ih =>
    obtain ⟨hitems, hfault⟩ := ih
    cases hask : ask a with
    | error fault =>
      rw [each_map_cons_of_error g hask, each_map_cons_of_error (fun a _ => [a]) hask]
      exact ⟨rfl, rfl⟩
    | ok b =>
      rw [each_map_cons_of_ok g hask, each_map_cons_of_ok (fun a _ => [a]) hask,
        List.singleton_append, each_map_cons_of_ok g (hagree a b hask), hitems]
      exact ⟨rfl, hfault⟩

/-- The same when the list has to be asked for first. -/
theorem after_answered {ask ask' : α → Except Fault β}
    (hagree : ∀ a b, ask a = .ok b → ask' a = .ok b) (g : α → β → List γ)
    (list : Except Fault (List α)) :
    each (fun a => (ask' a).map (g a)) (after list (answered ask)).items
        = done (after list (each fun a => (ask a).map (g a))).items
      ∧ (after list (each fun a => (ask a).map (g a))).fault
        = (after list (answered ask)).fault := by
  cases list with
  | error fault => exact ⟨rfl, rfl⟩
  | ok l => exact each_answered hagree g l

end Cut

/-! ## The model with bodies that are cut short -/

variable {Body Scope Expr : Type}

namespace CodeModel

variable (model : CodeModel Body Scope Expr) (throughProperties : Bool)

/-- The expressions of a kind that can be resolved, up to the first fault. -/
def resolvable (body : Body) (scope : Scope) (kind : SyntaxKind) : Cut Expr :=
  Cut.after (model.occurrences body kind) (Cut.answered (model.resolve scope))

/-- **The first fault in a body.** The invocations are gone through first, then the
creations, and then the dependencies are searched for. -/
def faultIn (body : Body) (scope : Scope) : Option Fault :=
  (model.resolvable body scope .invocation).fault.or <|
  (model.resolvable body scope .objectCreation).fault.or
  (Dependency.findings model throughProperties body scope).fault

/-- **The first fault of a method**: in finding its body, in finding the scope of the body,
or in the body. -/
def fault? (m : MethodSymbol) : Option Fault :=
  match model.definition m with
  | .error fault => some fault
  | .ok none => none
  | .ok (some body) =>
    match model.scope body with
    | .error fault => some fault
    | .ok none => none
    | .ok (some scope) => model.faultIn throughProperties body scope

/-- The expressions of a kind before the first fault. Creations come after invocations; the
other kinds are looked at for the sake of dependencies only. -/
def occurrencesBefore (body : Body) (scope : Scope) : SyntaxKind → List Expr
  | .invocation => (model.resolvable body scope .invocation).items
  | .objectCreation =>
    if (model.resolvable body scope .invocation).fault.isSome then []
    else (model.resolvable body scope .objectCreation).items
  | .memberAccess => (model.occurrences body .memberAccess).toOption.getD []
  | .identifier => (model.occurrences body .identifier).toOption.getD []

/-- **The model in which every body is cut short before its first fault.** It answers every
question, and its answers are those of the given model where there are any. A body is
nothing where none could be had, and then nothing is in it; and a body with a fault belongs
to no type, as the search for its dependencies has come to nothing. -/
def cutShort : CodeModel (Option Body) (Option Scope) Expr where
  definition m :=
    match model.definition m with
    | .error _ => .ok (some none)
    | .ok body => .ok (body.map some)
  scope
    | none => .ok (some none)
    | some body =>
      match model.scope body with
      | .error _ => .ok (some none)
      | .ok scope => .ok (scope.map some)
  occurrences
    | none, _ => .ok []
    | some body, kind =>
      match model.scope body with
      | .ok (some scope) => .ok (model.occurrencesBefore body scope kind)
      | _ => .ok []
  resolve
    | none, _ => .ok none
    | some scope, e => .ok ((model.resolve scope e).toOption.getD none)
  members t := .ok ((model.members t).toOption.getD [])
  receiver e := .ok ((model.receiver e).toOption.getD none)
  invocation e := .ok ((model.invocation e).toOption.getD none)
  enclosing
    | none => none
    | some body =>
      match model.scope body with
      | .ok (some scope) =>
        if (model.faultIn throughProperties body scope).isSome then none else model.enclosing body
      | _ => none

end CodeModel

/-! ## Answers that are upheld -/

/-- **An answer is upheld by another** when the other says the same. A fault says nothing. -/
def Upholds {α : Type} (x y : Except Fault α) : Prop := ∀ a, x = .ok a → y = .ok a

namespace Upholds

variable {α β : Type}

theorem refl (x : Except Fault α) : Upholds x x := fun _ h => h

/-- What stands in for a fault upholds every answer. -/
theorem ok_getD (x : Except Fault α) (a : α) : Upholds x (.ok (x.toOption.getD a)) := by
  rintro b rfl
  rfl

theorem bind {x y : Except Fault α} {f g : α → Except Fault β} (h : Upholds x y)
    (hf : ∀ a, Upholds (f a) (g a)) : Upholds (x >>= f) (y >>= g) := by
  intro b hb
  cases x with
  | error fault => cases hb
  | ok a =>
    rw [h a rfl]
    exact hf a b hb

theorem mapM {f g : α → Except Fault β} (h : ∀ a, Upholds (f a) (g a)) (l : List α) :
    Upholds (l.mapM f) (l.mapM g) := by
  induction l with
  | nil => exact refl _
  | cons a l ih =>
    rw [List.mapM_cons, List.mapM_cons]
    exact (h a).bind fun b => ih.bind fun bs => refl _

end Upholds

/-- **A list is upheld by another** that is the same, unless a fault has cut it short. -/
def Cut.Upholds {α : Type} (c c' : Cut α) : Prop := c.fault = none → c' = c

namespace Cut.Upholds

variable {α β : Type}

theorem refl (c : Cut α) : c.Upholds c := fun _ => rfl

theorem append {a a' b b' : Cut α} (ha : a.Upholds a') (hb : b.Upholds b') :
    (a.append b).Upholds (a'.append b') := by
  intro h
  rw [fault_append, Option.or_eq_none_iff] at h
  rw [ha h.1, hb h.2]

theorem after {x y : Except Fault α} {f g : α → Cut β} (h : CallTree.Upholds x y)
    (hf : ∀ a, (f a).Upholds (g a)) : (Cut.after x f).Upholds (Cut.after y g) := by
  intro hfault
  cases x with
  | error fault => cases hfault
  | ok a =>
    rw [h a rfl]
    exact hf a hfault

theorem each {f g : α → Except Fault (List β)} (h : ∀ a, CallTree.Upholds (f a) (g a))
    (l : List α) : (Cut.each f l).Upholds (Cut.each g l) := by
  induction l with
  | nil => exact refl _
  | cons a l ih =>
    unfold Cut.each
    cases hfa : f a with
    | error fault => intro hfault; cases hfault
    | ok items =>
      rw [h a items hfa]
      exact (refl (done items)).append ih

end Cut.Upholds

/-! ## Dependencies -/

namespace Dependency

variable {Body' Scope' : Type} {model : CodeModel Body Scope Expr}
  {model' : CodeModel Body' Scope' Expr}

/-- **One model upholds the answers of another** that are needed for the dependencies of a
body. -/
structure Upheld (model : CodeModel Body Scope Expr) (model' : CodeModel Body' Scope' Expr)
    (body : Body) (scope : Scope) (body' : Body') (scope' : Scope') : Prop where
  enclosing : model'.enclosing body' = model.enclosing body
  members : ∀ t, Upholds (model.members t) (model'.members t)
  identifiers : Upholds (model.occurrences body .identifier) (model'.occurrences body' .identifier)
  accesses :
    Upholds (model.occurrences body .memberAccess) (model'.occurrences body' .memberAccess)
  resolve : ∀ e, Upholds (model.resolve scope e) (model'.resolve scope' e)
  receiver : ∀ e, Upholds (model.receiver e) (model'.receiver e)
  invocation : ∀ e, Upholds (model.invocation e) (model'.invocation e)

namespace Upheld

variable {body : Body} {scope : Scope} {body' : Body'} {scope' : Scope'}

theorem symbolsOf (h : Upheld model model' body scope body' scope') (exprs : List Expr) :
    Upholds (Dependency.symbolsOf model scope exprs)
      (Dependency.symbolsOf model' scope' exprs) :=
  (Upholds.mapM h.resolve exprs).bind fun _ => .refl _

theorem references (h : Upheld model model' body scope body' scope') :
    Upholds (Dependency.references model body scope)
      (Dependency.references model' body' scope') :=
  h.identifiers.bind fun names => (h.symbolsOf names).bind fun _ =>
    h.accesses.bind fun accesses => (h.symbolsOf accesses).bind fun _ => .refl _

theorem callThrough (h : Upheld model model' body scope body' scope') (member : Member)
    (access : Expr) :
    Upholds (Dependency.callThrough model scope member access)
      (Dependency.callThrough model' scope' member access) := by
  refine (h.receiver access).bind fun receiver => ?_
  cases receiver with
  | none => exact .refl _
  | some receiver =>
    refine (h.resolve receiver).bind fun symbol => ?_
    by_cases hsymbol : symbol ≠ some member.symbol
    · rw [if_pos hsymbol, if_pos hsymbol]
      exact .refl _
    · rw [if_neg hsymbol, if_neg hsymbol]
      refine (h.invocation access).bind fun invocation => ?_
      cases invocation with
      | none => exact .refl _
      | some invocation => exact (h.resolve invocation).bind fun _ => .refl _

theorem findingsOf (h : Upheld model model' body scope body' scope') (refs : List Symbol)
    (accesses : List Expr) (through : Bool) (member : Member) :
    (Dependency.findingsOf model scope refs accesses through member).Upholds
      (Dependency.findingsOf model' scope' refs accesses through member) := by
  unfold Dependency.findingsOf
  split
  · refine (Cut.Upholds.refl _).append ?_
    cases through with
    | false => exact .refl _
    | true => exact .each (h.callThrough member) accesses
  · exact .refl _

theorem findingsOfAll (h : Upheld model model' body scope body' scope') (refs : List Symbol)
    (accesses : List Expr) (through : Bool) (members : List Member) :
    (Dependency.findingsOfAll model scope refs accesses through members).Upholds
      (Dependency.findingsOfAll model' scope' refs accesses through members) := by
  induction members with
  | nil => exact .refl _
  | cons member rest ih => exact (h.findingsOf refs accesses through member).append ih

/-- **The dependencies that are found without a fault** are found in every model that upholds
the answers. -/
theorem findings (h : Upheld model model' body scope body' scope') (throughProperties : Bool) :
    (Dependency.findings model throughProperties body scope).Upholds
      (Dependency.findings model' throughProperties body' scope') := by
  unfold Dependency.findings
  rw [h.enclosing]
  split
  · exact .refl _
  · refine .after (h.members _) fun symbols => ?_
    dsimp only
    split
    · exact .refl _
    · refine .after h.references fun refs => .after h.accesses fun accesses => ?_
      exact (h.findingsOfAll refs accesses true _).append
        (h.findingsOfAll refs accesses throughProperties _)

end Upheld

end Dependency

/-! ## Scripts -/

namespace Script

/-- What an expression gives by way of the method that it stands for. -/
def ofTarget (f : MethodSymbol → List Step) : Option Symbol → List Step
  | some (.method target) => f target
  | _ => []

/-- What an invocation gives. -/
def ofInvoked (noise : Noise) : Option Symbol → List Step :=
  ofTarget (followed noise .directInvocation)

/-- What a creation gives. -/
def ofCreated (noise : Noise) : Option Symbol → List Step :=
  ofTarget fun target =>
    .remark (.creates (createdType target)) :: followed noise .objectCreation target

theorem invocationSteps_eq (model : CodeModel Body Scope Expr) (noise : Noise) (scope : Scope) :
    invocationSteps model noise scope
      = fun e => (model.resolve scope e).map ((fun _ => ofInvoked noise) e) := by
  funext e
  unfold invocationSteps
  rcases model.resolve scope e with fault | (_ | (_ | _ | _ | _)) <;> rfl

theorem creationSteps_eq (model : CodeModel Body Scope Expr) (noise : Noise) (scope : Scope) :
    creationSteps model noise scope
      = fun e => (model.resolve scope e).map ((fun _ => ofCreated noise) e) := by
  funext e
  unfold creationSteps
  rcases model.resolve scope e with fault | (_ | (_ | _ | _ | _)) <;> rfl

/-- **Whether anybody hears of a step**: it is a call, or a remark with an event. -/
def Step.isAudible : Step → Bool
  | .remark .opened => false
  | .remark (.unresolved _) => false
  | .remark (.creates _) => true
  | .remark (.uses _) => true
  | .follow _ _ => true

/-- The steps that somebody hears of. -/
def audible (steps : List Step) : List Step := steps.filter Step.isAudible

theorem audible_append (a b : List Step) : audible (a ++ b) = audible a ++ audible b :=
  List.filter_append ..

/-- A fault in the search for dependencies is a fault of the steps. -/
theorem fault_dependencySteps (noise : Noise) (found : Cut Dependency.Finding) :
    (dependencySteps noise found).fault = found.fault := by
  unfold dependencySteps Dependency.usages
  rw [Cut.fault_append]
  cases found.fault <;> rfl

/-- Of a search that failed nobody hears. -/
theorem audible_dependencySteps (noise : Noise) {found : Cut Dependency.Finding}
    (h : found.fault.isSome) : audible (dependencySteps noise found).items = [] := by
  obtain ⟨fault, hfault⟩ := Option.isSome_iff_exists.mp h
  have hunresolved : ∀ step ∈ (dependencySteps noise found).items, ¬ step.isAudible = true := by
    intro step hstep
    unfold dependencySteps Dependency.usages at hstep
    rw [hfault, Cut.items_append_of_none rfl] at hstep
    rcases List.mem_append.mp hstep with hstep | hstep
    · obtain ⟨finding, -, heq⟩ := List.mem_filterMap.mp hstep
      cases finding with
      | usage u => cases heq
      | unresolved member =>
        cases heq
        exact Bool.false_ne_true
    · exact absurd hstep List.not_mem_nil
  exact List.filter_eq_nil_iff.mpr hunresolved

/-- **A script fails where another is over**: they do the same as far as anybody hears, and
one ends with the fault, if there is one, where the other ends as if nothing had happened. -/
structure FailsAs (s s' : Script) (fault : Option Fault) : Prop where
  audible_eq : audible s.steps = audible s'.steps
  ending_eq : s.ending = (fault.map fun f => Ending.failed f.message).getD s'.ending
  complete : fault.isSome → s'.ending = .complete
  sound : ∀ message, s'.ending ≠ .failed message

section CutShort

variable (model : CodeModel Body Scope Expr) (noise : Noise) (throughProperties : Bool)

/-- The cut model resolves what the given one resolves. -/
theorem resolve_cutShort (scope : Scope) (e : Expr) :
    Upholds (model.resolve scope e) ((model.cutShort throughProperties).resolve (some scope) e) :=
  .ok_getD _ _

variable {body : Body} {scope : Scope} (hscope : model.scope body = .ok (some scope))
include hscope

theorem occurrences_cutShort (kind : SyntaxKind) :
    (model.cutShort throughProperties).occurrences (some body) kind
      = .ok (model.occurrencesBefore body scope kind) := by
  show (match model.scope body with | .ok (some scope) => _ | _ => _) = _
  rw [hscope]

theorem enclosing_cutShort :
    (model.cutShort throughProperties).enclosing (some body)
      = if (model.faultIn throughProperties body scope).isSome then none
        else model.enclosing body := by
  show (match model.scope body with | .ok (some scope) => _ | _ => _) = _
  rw [hscope]

/-- A body with a fault has no dependencies any more. -/
theorem findings_cutShort_of_fault (h : (model.faultIn throughProperties body scope).isSome) :
    Dependency.findings (model.cutShort throughProperties) throughProperties (some body)
      (some scope) = .done [] := by
  unfold Dependency.findings
  rw [enclosing_cutShort model throughProperties hscope, if_pos h]

/-- A body without a fault has the dependencies that it had. -/
theorem findings_cutShort_of_none (h : model.faultIn throughProperties body scope = none) :
    Dependency.findings (model.cutShort throughProperties) throughProperties (some body)
      (some scope) = Dependency.findings model throughProperties body scope := by
  have hupheld : Dependency.Upheld model (model.cutShort throughProperties) body scope (some body)
      (some scope) :=
    { enclosing := by
        rw [enclosing_cutShort model throughProperties hscope, h]
        rfl
      members := fun _ => .ok_getD _ _
      identifiers := by
        rw [occurrences_cutShort model throughProperties hscope]
        exact .ok_getD _ _
      accesses := by
        rw [occurrences_cutShort model throughProperties hscope]
        exact .ok_getD _ _
      resolve := resolve_cutShort model throughProperties scope
      receiver := fun _ => .ok_getD _ _
      invocation := fun _ => .ok_getD _ _ }
  unfold CodeModel.faultIn at h
  rw [Option.or_eq_none_iff, Option.or_eq_none_iff] at h
  exact hupheld.findings throughProperties h.2.2

/-- The invocations of a body that is cut short give what they gave, without a fault. -/
theorem invocations_cutShort :
    Cut.after ((model.cutShort throughProperties).occurrences (some body) .invocation)
        (Cut.each (invocationSteps (model.cutShort throughProperties) noise (some scope)))
      = .done (Cut.after (model.occurrences body .invocation)
        (Cut.each (invocationSteps model noise scope))).items := by
  rw [occurrences_cutShort model throughProperties hscope, invocationSteps_eq, invocationSteps_eq]
  exact (Cut.after_answered (resolve_cutShort model throughProperties scope)
    (fun _ => ofInvoked noise) (model.occurrences body .invocation)).1

/-- So do the creations, unless there was a fault before them. -/
theorem creations_cutShort :
    Cut.after ((model.cutShort throughProperties).occurrences (some body) .objectCreation)
        (Cut.each (creationSteps (model.cutShort throughProperties) noise (some scope)))
      = .done (if (model.resolvable body scope .invocation).fault.isSome then []
        else (Cut.after (model.occurrences body .objectCreation)
          (Cut.each (creationSteps model noise scope))).items) := by
  rw [occurrences_cutShort model throughProperties hscope, creationSteps_eq, creationSteps_eq,
    CodeModel.occurrencesBefore]
  split
  · rfl
  · exact (Cut.after_answered (resolve_cutShort model throughProperties scope)
      (fun _ => ofCreated noise) (model.occurrences body .objectCreation)).1

end CutShort

section Fault

variable (model : CodeModel Body Scope Expr) (noise : Noise) (throughProperties : Bool)
  (body : Body) (scope : Scope)

/-- The steps for invocations fail where the invocations cannot be resolved. -/
theorem fault_invocations :
    (Cut.after (model.occurrences body .invocation)
        (Cut.each (invocationSteps model noise scope))).fault
      = (model.resolvable body scope .invocation).fault := by
  rw [invocationSteps_eq]
  exact (Cut.after_answered (fun e => Upholds.refl (model.resolve scope e))
    (fun _ => ofInvoked noise) (model.occurrences body .invocation)).2

theorem fault_creations :
    (Cut.after (model.occurrences body .objectCreation)
        (Cut.each (creationSteps model noise scope))).fault
      = (model.resolvable body scope .objectCreation).fault := by
  rw [creationSteps_eq]
  exact (Cut.after_answered (fun e => Upholds.refl (model.resolve scope e))
    (fun _ => ofCreated noise) (model.occurrences body .objectCreation)).2

/-- What the steps of a body fail with is the first fault in it. -/
theorem fault_bodySteps :
    (bodySteps model noise throughProperties body scope).fault
      = model.faultIn throughProperties body scope := by
  unfold bodySteps CodeModel.faultIn
  rw [Cut.fault_append, Cut.fault_append, Cut.fault_append, fault_invocations, fault_creations,
    fault_dependencySteps]
  rfl

end Fault

section CutShort

variable (model : CodeModel Body Scope Expr) (noise : Noise) (throughProperties : Bool)
  {body : Body} {scope : Scope} (hscope : model.scope body = .ok (some scope))
include hscope

/-- **No fault is left in a body that is cut short.** -/
theorem fault_bodySteps_cutShort :
    (bodySteps (model.cutShort throughProperties) noise throughProperties (some body)
      (some scope)).fault = none := by
  unfold bodySteps
  rw [invocations_cutShort model noise throughProperties hscope,
    creations_cutShort model noise throughProperties hscope, Cut.fault_append, Cut.fault_append,
    Cut.fault_append, fault_dependencySteps]
  show (Dependency.findings _ _ _ _).fault = none
  cases hfault : model.faultIn throughProperties body scope with
  | some fault =>
    rw [findings_cutShort_of_fault model throughProperties hscope (by rw [hfault]; rfl)]
    rfl
  | none =>
    rw [findings_cutShort_of_none model throughProperties hscope hfault]
    unfold CodeModel.faultIn at hfault
    exact (Option.or_eq_none_iff.mp (Option.or_eq_none_iff.mp hfault).2).2

/-- The steps of a body that is cut short, part by part. -/
theorem items_bodySteps_cutShort :
    (bodySteps (model.cutShort throughProperties) noise throughProperties (some body)
        (some scope)).items
      = [.remark .opened] ++ ((Cut.after (model.occurrences body .invocation)
          (Cut.each (invocationSteps model noise scope))).items
        ++ ((if (model.resolvable body scope .invocation).fault.isSome then []
            else (Cut.after (model.occurrences body .objectCreation)
              (Cut.each (creationSteps model noise scope))).items)
          ++ (dependencySteps noise (Dependency.findings (model.cutShort throughProperties)
            throughProperties (some body) (some scope))).items)) := by
  unfold bodySteps
  rw [invocations_cutShort model noise throughProperties hscope,
    creations_cutShort model noise throughProperties hscope, Cut.items_append_of_none rfl,
    Cut.items_append_of_none rfl, Cut.items_append_of_none rfl]
  rfl

/-- **The steps of a body that is cut short** are those of the body, as far as anybody
hears. -/
theorem audible_bodySteps_cutShort :
    audible (bodySteps model noise throughProperties body scope).items
      = audible (bodySteps (model.cutShort throughProperties) noise throughProperties
        (some body) (some scope)).items := by
  have hinvoked := fault_invocations model noise body scope
  have hcreated := fault_creations model noise body scope
  have hgone := findings_cutShort_of_fault model throughProperties hscope
  have hkept := findings_cutShort_of_none model throughProperties hscope
  unfold CodeModel.faultIn at hgone hkept
  rw [items_bodySteps_cutShort model noise throughProperties hscope]
  unfold bodySteps
  rw [Cut.items_append_of_none rfl]
  cases hinvocation : (model.resolvable body scope .invocation).fault with
  | some fault =>
    rw [hinvocation] at hinvoked hgone
    rw [Cut.items_append_of_fault (by rw [hinvoked]; rfl), hgone rfl]
    show _ = audible (_ ++ (_ ++ ([] ++ [])))
    rw [List.append_nil, List.append_nil]
    rfl
  | none =>
    rw [hinvocation] at hinvoked hgone hkept
    rw [Cut.items_append_of_none hinvoked]
    cases hcreation : (model.resolvable body scope .objectCreation).fault with
    | some fault =>
      rw [hcreation] at hcreated hgone
      rw [Cut.items_append_of_fault (by rw [hcreated]; rfl), hgone rfl]
      show _ = audible (_ ++ (_ ++ (_ ++ [])))
      rw [List.append_nil]
      rfl
    | none =>
      rw [hcreation] at hcreated hgone hkept
      rw [Cut.items_append_of_none hcreated]
      cases hfound : (Dependency.findings model throughProperties body scope).fault with
      | some fault =>
        -- the search has failed, and what it leaves is heard by nobody
        have hsilent : audible (dependencySteps noise
            (Dependency.findings model throughProperties body scope)).items = [] :=
          audible_dependencySteps noise (by rw [hfound]; rfl)
        rw [hfound] at hgone
        rw [hgone rfl, audible_append, audible_append, audible_append, hsilent, audible_append,
          audible_append, audible_append]
        rfl
      | none =>
        rw [hfound] at hkept
        rw [hkept rfl]
        rfl

end CutShort

/-- Where no scope could be had there is nothing in the body. -/
theorem bodySteps_cutShort_of_error (model : CodeModel Body Scope Expr) (noise : Noise)
    (throughProperties : Bool) {body : Body} {fault : Fault}
    (hscope : model.scope body = .error fault) :
    bodySteps (model.cutShort throughProperties) noise throughProperties (some body) none
      = .done [.remark .opened] := by
  have hoccurrences : (model.cutShort throughProperties).occurrences (some body)
      = fun _ => .ok [] := by
    funext kind
    show (match model.scope body with | .ok (some scope) => _ | _ => _) = _
    rw [hscope]
  have henclosing : (model.cutShort throughProperties).enclosing (some body) = none := by
    show (match model.scope body with | .ok (some scope) => _ | _ => _) = _
    rw [hscope]
  unfold bodySteps Dependency.findings
  rw [hoccurrences, henclosing]
  rfl

/-- **A method fails where its body is cut short**, with the first fault of the method. -/
theorem failsAs_cutShort (model : CodeModel Body Scope Expr) (noise : Noise)
    (throughProperties : Bool) (m : MethodSymbol) :
    (ofMethod model noise throughProperties m).FailsAs
      (ofMethod (model.cutShort throughProperties) noise throughProperties m)
      (model.fault? throughProperties m) := by
  unfold ofMethod CodeModel.fault?
  rw [show (model.cutShort throughProperties).definition m
    = match model.definition m with
      | .error _ => .ok (some none)
      | .ok body => .ok (body.map some) from rfl]
  cases model.definition m with
  | error fault => exact ⟨rfl, rfl, fun _ => rfl, nofun⟩
  | ok body? =>
    cases body? with
    | none => exact ⟨rfl, rfl, nofun, nofun⟩
    | some body =>
      dsimp only [Option.map_some]
      rw [show (model.cutShort throughProperties).scope (some body)
        = match model.scope body with
          | .error _ => .ok (some none)
          | .ok scope => .ok (scope.map some) from rfl]
      cases hscope : model.scope body with
      | error fault =>
        dsimp only
        rw [bodySteps_cutShort_of_error model noise throughProperties hscope]
        exact ⟨rfl, rfl, fun _ => rfl, nofun⟩
      | ok scope? =>
        cases scope? with
        | none => exact ⟨rfl, rfl, nofun, nofun⟩
        | some scope =>
          dsimp only [Option.map_some]
          rw [fault_bodySteps, fault_bodySteps_cutShort model noise throughProperties hscope]
          refine ⟨audible_bodySteps_cutShort model noise throughProperties hscope, ?_,
            fun _ => rfl, nofun⟩
          cases model.faultIn throughProperties body scope <;> rfl

/-- **No method has a fault once its body is cut short.** It would show in the script. -/
theorem fault?_cutShort (model : CodeModel Body Scope Expr) (noise : Noise)
    (throughProperties : Bool) (m : MethodSymbol) :
    (model.cutShort throughProperties).fault? throughProperties m = none := by
  have hsound := (failsAs_cutShort model noise throughProperties m).sound
  have hending := (failsAs_cutShort (model.cutShort throughProperties) noise throughProperties
    m).ending_eq
  cases hfault : (model.cutShort throughProperties).fault? throughProperties m with
  | none => rfl
  | some fault =>
    rw [hfault] at hending
    exact absurd hending (hsound fault.message)

end Script

end CallTree
