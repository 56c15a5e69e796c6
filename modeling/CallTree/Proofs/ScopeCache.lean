import CallTree.Proofs.Filing
import CallTree.Proofs.KeptScopes
import CallTree.Workspace.Session

/-!
# When the scopes that are kept can be trusted

A workspace keeps the scope of a definition under the qualified name of its method and does not
build it again. A scope that is kept is therefore as good as a new one only as long as the name
still stands for the same definition, and as long as the index under it, from which the types of
its names were taken, is the one it was built from.

Opening sources changes both and drops nothing. Of two texts of one function that are opened one
after the other, the second is read with the names of the first if a scope was asked for between
the two: a parameter that is gone hides the function of the same name that is now called.

What holds is that nothing but opening does any harm, and opening only by changing a scope that
is kept. The scopes bear on two of the questions of the code model alone, and until then these
find what a workspace without kept scopes finds, for every definition that the index holds.
-/

namespace CallTree

namespace Workspace

open CallTree.Data (Table)
open CallTree.Syntax (Site)

/-! ## Coherence -/

variable (ws : Workspace)

theorem scopeOf_of_kept {d : Definition} {scope : Scope}
    (h : ws.scopes.get? d.symbol.qualifiedName = some scope) : ws.scopeOf d = .ok scope := by
  unfold scopeOf
  rw [h]

theorem scopeOf_of_not_kept {d : Definition}
    (h : ws.scopes.get? d.symbol.qualifiedName = none) : ws.scopeOf d = scopeFor ws d := by
  unfold scopeOf
  rw [h]

theorem remember_of_ok {d : Definition} {scope : Scope} (h : ws.scopeOf d = .ok scope) :
    ws.remember d = ws.withScopes (ws.scopes.put d.symbol.qualifiedName scope) := by
  unfold remember
  rw [h]
  rfl

theorem remember_of_error {d : Definition} {fault : Fault} (h : ws.scopeOf d = .error fault) :
    ws.remember d = ws := by
  unfold remember
  rw [h]

/-- The index holds a definition. -/
def Files (ws : Workspace) (d : Definition) : Prop :=
  ws.definitions.get? d.symbol.qualifiedName = some d

/-- **The kept scopes are as good as new ones**, for every definition that the index holds. -/
structure Coherent (ws : Workspace) : Prop where
  filed : ws.Filed
  scopeOf_eq : ∀ d, ws.Files d → ws.scopeOf d = scopeFor ws d

variable {ws}

theorem Filed.withScopes (h : ws.Filed) (kept : Table Scope) : (ws.withScopes kept).Filed :=
  ⟨h.typeNames, h.definitionNames, h.methods, h.functions, h.classes, h.nested, h.enclosing⟩

theorem Filed.files_of_definitionOf (h : ws.Filed) {m : MethodSymbol} {d : Definition}
    (hd : ws.definitionOf m = .ok (some d)) : ws.Files d := by
  obtain ⟨name, hname⟩ := exists_get?_of_definitionOf hd
  have hsymbol : d.symbol.qualifiedName = name := h.definitionNames _ (Table.mem_of_get? hname)
  show ws.definitions.get? d.symbol.qualifiedName = some d
  rw [hsymbol, hname]

/-- Without kept scopes there is nothing to be wrong. -/
theorem Filed.coherent (h : ws.Filed) (hscopes : ws.scopes = .empty) : ws.Coherent :=
  ⟨h, fun _ _ => scopeOf_of_not_kept ws (by rw [hscopes]; rfl)⟩

namespace Coherent

/-- **Keeping one more scope** does no harm. -/
theorem remember (h : ws.Coherent) {d : Definition} (hd : ws.Files d) :
    (ws.remember d).Coherent := by
  cases hscope : ws.scopeOf d with
  | error fault =>
    rw [remember_of_error ws hscope]
    exact h
  | ok scope =>
    rw [remember_of_ok ws hscope]
    refine ⟨h.filed.withScopes _, fun d' hd' => ?_⟩
    rw [scopeFor_withScopes, ← h.scopeOf_eq d' hd']
    by_cases hname : d'.symbol.qualifiedName = d.symbol.qualifiedName
    · -- the index holds one definition under each name
      have hsame : d' = d := by
        have hboth : ws.definitions.get? d.symbol.qualifiedName = some d' := hname ▸ hd'
        exact Option.some.inj (hboth.symm.trans hd)
      rw [hsame, hscope]
      exact scopeOf_of_kept _ (Table.get?_put_self _ _ _)
    · have hother := Table.get?_put_of_ne ws.scopes scope hname
      cases hkept : ws.scopes.get? d'.symbol.qualifiedName with
      | some scope' =>
        rw [scopeOf_of_kept ws hkept]
        exact scopeOf_of_kept _ (hother.trans hkept)
      | none =>
        rw [scopeOf_of_not_kept ws hkept, scopeOf_of_not_kept _ (hother.trans hkept),
          scopeFor_withScopes]

/-- The scopes and expressions that a code model finds in a definition. -/
theorem occurrencesIn_eq (h : ws.Coherent) {d : Definition} (hd : ws.Files d) :
    (ws.withScopes .empty).occurrencesIn d = ws.occurrencesIn d := by
  have hscope : (ws.withScopes .empty).scopeOf d = ws.scopeOf d := by
    rw [scopeOf_of_not_kept _ rfl, scopeFor_withScopes, h.scopeOf_eq d hd]
  funext kind
  unfold occurrencesIn callsOf
  simp only [hscope, Scope.isCreation_withScopes]

theorem scope_eq (h : ws.Coherent) {d : Definition} (hd : ws.Files d) :
    (ws.withScopes .empty).model.scope d = ws.model.scope d := by
  show ((ws.withScopes .empty).scopeOf d).map some = (ws.scopeOf d).map some
  rw [scopeOf_of_not_kept _ rfl, scopeFor_withScopes, h.scopeOf_eq d hd]

/-- **The script of a method** is found without the kept scopes as well. -/
theorem ofMethod_eq (h : ws.Coherent) (noise : Noise) (throughProperties : Bool) :
    Script.ofMethod (ws.withScopes .empty).model noise throughProperties
      = Script.ofMethod ws.model noise throughProperties := by
  rw [model_withScopes]
  refine Script.ofMethod_congr (fun m d hd => ?_) (fun m d hd => ?_) noise throughProperties
  · exact h.scope_eq (h.filed.files_of_definitionOf hd)
  · exact h.occurrencesIn_eq (h.filed.files_of_definitionOf hd)

end Coherent

/-! ## Sessions -/

/-- **What can be done with a workspace.** -/
inductive Operation where
  | openSources (sources : List (String × String))
  | definition (m : MethodSymbol)
  | scope (d : Definition)
  | occurrences (d : Definition) (kind : SyntaxKind)
  | resolve (scope : Scope) (site : Site)
  | classify (throughProperties : Bool) (d : Definition) (scope : Scope)
  | walk (noise : Noise) (options : Walk.Options) (calledOff : Nat → Bool) (entry : MethodSymbol)

/-- What comes of an operation. -/
inductive Answer where
  | opened (log : List Log.Record) (error : Option LoadError)
  | definition (found : Except Fault (Option Definition))
  | scope (found : Except Fault (Option Scope))
  | occurrences (found : Except Fault (List Site))
  | symbol (found : Except Fault (Option Symbol))
  | dependencies (found : Cut Dependency.Finding)
  | outcome (o : Walk.Outcome)

/-- A walk over a workspace, with the session after it. -/
def walked (ws : Workspace) (noise : Noise) (options : Walk.Options) (calledOff : Nat → Bool)
    (entry : MethodSymbol) : Walk.Outcome × Session :=
  Session.walk { workspace := ws } noise options calledOff entry

/-- **What an operation answers.** -/
def answer (ws : Workspace) : Operation → Answer
  | .openSources sources =>
    .opened (Workspace.openSources ws sources).log (Workspace.openSources ws sources).error
  | .definition m => .definition (ws.model.definition m)
  | .scope d => .scope (ws.model.scope d)
  | .occurrences d kind => .occurrences (ws.model.occurrences d kind)
  | .resolve scope site => .symbol (ws.model.resolve scope site)
  | .classify throughProperties d scope =>
    .dependencies (Dependency.findings ws.model throughProperties d scope)
  | .walk noise options calledOff entry =>
    .outcome (ws.walked noise options calledOff entry).1

/-- **The workspace after an operation.** Calls are told from creations by the scope of the body
they are in, so asking for them keeps the scope as well. -/
def after (ws : Workspace) : Operation → Workspace
  | .openSources sources => (Workspace.openSources ws sources).workspace
  | .scope d => ws.remember d
  | .occurrences d .invocation => if d.body?.isSome then ws.remember d else ws
  | .occurrences d .objectCreation => if d.body?.isSome then ws.remember d else ws
  | .walk noise options calledOff entry => (ws.walked noise options calledOff entry).2.workspace
  | _ => ws

/-- **An operation that the kept scopes allow**: opening changes none of them, and scopes are
asked for the definitions that the index holds. -/
def Allows (ws : Workspace) : Operation → Prop
  | .openSources sources =>
    let opened := (Workspace.openSources ws sources).workspace
    ∀ d, opened.Files d → ∀ scope, ws.scopes.get? d.symbol.qualifiedName = some scope →
      scopeFor opened d = .ok scope
  | .scope d => ws.Files d
  | .occurrences d _ => ws.Files d
  | _ => True

/-- A session in which every operation is allowed when its turn comes. -/
def Orderly : Workspace → List Operation → Prop
  | _, [] => True
  | ws, o :: rest => ws.Allows o ∧ Orderly (ws.after o) rest

theorem ok_of_orNothing {α : Type} {d? : Option Disturbance} {answer : Except Fault (Option α)}
    {a : α} (h : Disturbance.orNothing d? answer = .ok (some a)) : answer = .ok (some a) := by
  unfold Disturbance.orNothing at h
  split at h
  · exact h
  · split at h <;> cases h

namespace Coherent

/-- Keeping the scope of a method does no harm. -/
theorem rememberMethod {s : Session} (h : s.workspace.Coherent) (m : MethodSymbol) :
    (s.rememberMethod m).workspace.Coherent := by
  unfold Session.rememberMethod
  split
  · rename_i d hd
    split
    · exact h.remember (h.filed.files_of_definitionOf (ok_of_orNothing hd))
    · exact h
  · exact h

/-- **What one operation leaves behind** is coherent again. -/
theorem after (h : ws.Coherent) {o : Operation} (ho : ws.Allows o) : (ws.after o).Coherent := by
  cases o with
  | openSources sources =>
    refine ⟨h.filed.openSources sources, fun d hd => ?_⟩
    have hscopes := congrArg (·.get? d.symbol.qualifiedName) (scopes_openSources ws sources)
    cases hkept : ws.scopes.get? d.symbol.qualifiedName with
    | some scope => exact (scopeOf_of_kept _ (hscopes.trans hkept)).trans (ho d hd scope hkept).symm
    | none => exact scopeOf_of_not_kept _ (hscopes.trans hkept)
  | scope d => exact h.remember ho
  | occurrences d kind =>
    have hkept : (if d.body?.isSome then ws.remember d else ws).Coherent := by
      split
      · exact h.remember ho
      · exact h
    cases kind with
    | invocation => exact hkept
    | objectCreation => exact hkept
    | memberAccess => exact h
    | identifier => exact h
  | walk noise options calledOff entry =>
    exact List.foldlRecOn (motive := fun s : Session => s.workspace.Coherent) _ _ h
      fun s hs expansion _ => hs.rememberMethod expansion.2
  | definition m => exact h
  | resolve scope site => exact h
  | classify throughProperties d scope => exact h

/-- **What one operation answers** does not depend on the kept scopes. -/
theorem answer_eq (h : ws.Coherent) {o : Operation} (ho : ws.Allows o) :
    (ws.withScopes .empty).answer o = ws.answer o := by
  cases o with
  | openSources sources =>
    exact (congrArg (fun l : Loading => Answer.opened l.log l.error)
      (openSources_withScopes ws .empty sources)).trans rfl
  | definition m => exact congrArg Answer.definition (congrFun (definitionOf_withScopes ws _) m)
  | scope d => exact congrArg Answer.scope (h.scope_eq ho)
  | occurrences d kind => exact congrArg Answer.occurrences (congrFun (h.occurrencesIn_eq ho) kind)
  | resolve scope site =>
    exact congrArg Answer.symbol (congrFun (Scope.resolve_withScopes ws _ scope) site)
  | classify throughProperties d scope =>
    have hfindings : Dependency.findings (ws.withScopes .empty).model throughProperties d scope
        = Dependency.findings ws.model throughProperties d scope := by
      rw [model_withScopes]
      refine Script.findings_congr ?_ ?_ throughProperties scope
      · rfl
      · rfl
    exact congrArg Answer.dependencies hfindings
  | walk noise options calledOff entry =>
    have htree : Walk.treeFrom (ws.withScopes .empty).model noise options calledOff entry
        = Walk.treeFrom ws.model noise options calledOff entry := by
      unfold Walk.treeFrom Walk.Plan.ofModel
      rw [h.ofMethod_eq]
    exact congrArg (fun t => Answer.outcome (.ofTree entry t.1 t.2)) htree

/-- **What a session leaves behind** is coherent, up to its last operation. -/
theorem run (h : ws.Coherent) {ops : List Operation} {o : Operation}
    (hops : Orderly ws (ops ++ [o])) :
    (ops.foldl Workspace.after ws).Coherent ∧ (ops.foldl Workspace.after ws).Allows o := by
  induction ops generalizing ws with
  | nil => exact ⟨h, hops.1⟩
  | cons first rest ih => exact ih (h.after hops.1) hops.2

end Coherent

/-- **The scopes that are kept are never seen.** In a session in which opening changes no scope
that is kept, and scopes are asked for definitions that the index holds, every answer is the one
that the workspace gives without its kept scopes, and the scope of a definition is the one built
from it and the index. An opening that does change a kept scope leaves a definition of which this
is no longer true. -/
theorem scope_cache_is_transparent (ops : List Operation) (o : Operation) (ws : Workspace)
    (hws : ws = ops.foldl after {}) (hops : Orderly {} (ops ++ [o])) :
    ws.answer o = (ws.withScopes .empty).answer o
      ∧ (∀ d, ws.Files d → ws.scopeOf d = scopeFor ws d)
      ∧ ∀ sources, ¬ ws.Allows (.openSources sources) →
        ∃ d, (ws.after (.openSources sources)).Files d
          ∧ (ws.after (.openSources sources)).scopeOf d
            ≠ scopeFor (ws.after (.openSources sources)) d := by
  obtain ⟨hcoherent, ho⟩ := (filed_empty.coherent rfl).run hops
  rw [← hws] at hcoherent ho
  refine ⟨(hcoherent.answer_eq ho).symm, hcoherent.scopeOf_eq, fun sources hsources => ?_⟩
  simp only [Allows, Classical.not_forall] at hsources
  obtain ⟨d, hd, scope, hkept, hscope⟩ := hsources
  have hopened : (openSources ws sources).workspace.scopes.get? d.symbol.qualifiedName
      = some scope := by
    rw [scopes_openSources]
    exact hkept
  exact ⟨d, hd, fun heq => hscope (heq.symm.trans (scopeOf_of_kept _ hopened))⟩

/-- A function with a parameter that has the name of another function. -/
def withParameter : List (String × String) :=
  [("m.py", "def f(g):\n    g()\n\n\ndef g():\n    pass\n")]

/-- The function without its parameter. -/
def withoutParameter : List (String × String) :=
  [("m.py", "def f():\n    g()\n\n\ndef g():\n    pass\n")]

/-- The walk from the function. -/
def walkOver (sources : List (String × String)) : Operation :=
  .walk {} {} (fun _ => false)
    ((((ofSources sources).definitions.get? "m.f").map (·.symbol)).getD default)

/-- A session that opens another module when the scopes of the first are kept. -/
def growing : List Operation :=
  [.openSources withParameter, .openSources withoutParameter, walkOver withoutParameter,
    .openSources [("n.py", "from m import f\n")]]

theorem scope_cache_is_transparent_growing :
    (growing.foldl after {}).scopes.names = ["m.f", "m.g"]
      ∧ ∃ d, Orderly {} (growing ++ [.scope d])
        ∧ (growing.foldl after {}).answer (.scope d)
          = ((growing.foldl after {}).withScopes .empty).answer (.scope d)
        ∧ (growing.foldl after {}).scopeOf d = scopeFor (growing.foldl after {}) d := by
  have hfacts : (growing.foldl after {}).scopes.names = ["m.f", "m.g"]
      ∧ (∃ d ∈ (growing.foldl after {}).definitions.get? "m.f",
        d.symbol.qualifiedName = "m.f")
      ∧ ∀ d ∈ (growing.foldl after {}).definitions.values,
        ∀ scope ∈ (growing.foldl after {}).scopes.get? d.symbol.qualifiedName,
          scopeFor (growing.foldl after {}) d = .ok scope := by
    decide +kernel
  obtain ⟨hkept, ⟨d, hd, hname⟩, hright⟩ := hfacts
  have hfiles : (growing.foldl after {}).Files d := by
    unfold Files
    rw [hname]
    exact hd
  have hnone {ws : Workspace} (hws : ws.scopes = .empty) (sources : List (String × String)) :
      ws.Allows (.openSources sources) := by
    intro d _ scope hscope
    rw [hws] at hscope
    cases hscope
  have horderly : Orderly {} (growing ++ [.scope d]) := by
    refine ⟨hnone rfl _, hnone (scopes_openSources {} withParameter) _, trivial, ?_, hfiles,
      trivial⟩
    intro d hd scope hscope
    refine hright d (Table.mem_values_of_get? hd) scope ?_
    exact (congrArg (·.get? d.symbol.qualifiedName) (scopes_openSources _ _)).trans hscope
  have htransparent := scope_cache_is_transparent growing (.scope d) _ rfl horderly
  exact ⟨hkept, d, horderly, htransparent.1, htransparent.2.1 d hfiles⟩

/-- A session that opens the other text when the scopes of the first are kept. -/
def reopening : List Operation :=
  [.openSources withParameter, walkOver withParameter, .openSources withoutParameter]

/-- What a walk expanded. -/
def Answer.expanded : Answer → List String
  | .outcome o => o.expanded
  | _ => []

/-- **A kept scope outlives its definition.** The function is read with the parameter that it no
longer has: its scope is not the one built from it, and the walk does not find the function that
it calls. -/
theorem stale_scope_is_seen :
    (∃ d, (reopening.foldl after {}).Files d
        ∧ (reopening.foldl after {}).scopeOf d ≠ scopeFor (reopening.foldl after {}) d)
      ∧ (reopening.foldl after {}).answer (walkOver withoutParameter)
        ≠ ((reopening.foldl after {}).withScopes .empty).answer (walkOver withoutParameter) := by
  have hfacts : (∃ d ∈ (reopening.foldl after {}).definitions.get? "m.f",
        d.symbol.qualifiedName = "m.f"
          ∧ ((reopening.foldl after {}).scopeOf d).toOption
            ≠ (scopeFor (reopening.foldl after {}) d).toOption)
      ∧ ((reopening.foldl after {}).answer (walkOver withoutParameter)).expanded = ["m.f"]
      ∧ (((reopening.foldl after {}).withScopes .empty).answer
          (walkOver withoutParameter)).expanded = ["m.f", "m.g"] := by
    decide +kernel
  obtain ⟨⟨d, hd, hname, hscopes⟩, hstale, hfresh⟩ := hfacts
  refine ⟨⟨d, ?_, fun h => hscopes (by rw [h])⟩, fun h => ?_⟩
  · unfold Files
    rw [hname]
    exact hd
  · rw [h, hfresh] at hstale
    cases hstale

end Workspace

end CallTree
