import CallTree.CodeModel
import CallTree.Log
import CallTree.Text.Case

/-!
# Entry points

A walk begins at an action of a controller. Which types are controllers and which
of their methods are actions is a matter of convention, so both are decided by
heuristics that can be exchanged.

A controller is asked for by its name in any case, with or without the customary
ending; of several that fit, the first is taken. Without an action the search
lists the actions that it could begin with.
-/

namespace CallTree

open CallTree.Text (lower contains endsWith lastSegment)

namespace Entry

/-- **How controllers and actions are recognised.** -/
structure Heuristics where
  isController : TypeSymbol → Bool
  isAction : MethodSymbol → Bool
  /-- The customary ending of a controller's name. -/
  suffix : String

/-! ## The customary heuristics -/

/-- What names of decorators and result types give an action away. -/
structure Markers where
  /-- Parts of the name of a decorator. -/
  routes : List String := ["route", "http", "action", "api_view", "endpoint"]
  /-- Last segments of the dotted name of a decorator. -/
  verbs : List String := ["get", "post", "put", "patch", "delete", "head", "options"]
  /-- Parts of the name of a result type. -/
  returns : List String := ["Response", "ActionResult", "HttpResponse", "JSONResponse"]
deriving DecidableEq, Repr, Inhabited

/-- The customary ending of a controller's name. -/
def customarySuffix : String := "Controller"

/-- **Whether a type looks like a controller**: its name ends with the marker, or
the last segment of one of its bases contains it. -/
def looksLikeController (marker : String) (t : TypeSymbol) : Bool :=
  endsWith marker t.name || t.bases.any fun base => contains marker (lastSegment base)

/-- Whether a decorator marks a route, in any case. -/
def Markers.marksRoute (markers : Markers) (decorator : String) : Bool :=
  let name := lower decorator
  markers.routes.any (fun marker => contains (lower marker) name)
    || (contains "." name && markers.verbs.any fun verb => lower verb = lastSegment name)

/-- Whether some decorator of a method marks a route. -/
def Markers.routed (markers : Markers) (m : MethodSymbol) : Bool :=
  m.decorators.any markers.marksRoute

/-- Whether the result of a method is a response. -/
def Markers.responds (markers : Markers) (m : MethodSymbol) : Bool :=
  match m.returnType with
  | some name => !name.isEmpty && markers.returns.any (contains · name)
  | none => false

/-- **Whether a method looks like an action.** -/
def Markers.looksLikeAction (markers : Markers) (m : MethodSymbol) : Bool :=
  markers.routed m || markers.responds m

/-- The heuristics that go by markers. -/
def Heuristics.customary (marker : String := customarySuffix) (markers : Markers := {})
    (suffix : String := marker) : Heuristics where
  isController := looksLikeController marker
  isAction := markers.looksLikeAction
  suffix := suffix

/-! ## Finding the entry -/

/-- Why there is no entry. -/
inductive Refusal where
  | noType (hint : String)
  | noMethod (typeLabel action : String)
  | fault (f : Fault)

/-- What a refusal says. -/
def Refusal.message : Refusal → String
  | noType hint => s!"Controller '{hint}' not found."
  | noMethod label action => s!"Action method '{action}' not found in controller '{label}'."
  | fault f => f.message

/-- **Where a walk can begin.** -/
inductive Resolution where
  /-- At this method. -/
  | action (controller : TypeSymbol) (method : MethodSymbol)
  /-- At one of these methods. -/
  | discovery (controller : TypeSymbol) (candidates : List MethodSymbol)

/-- The controller of a resolution. -/
def Resolution.controller : Resolution → TypeSymbol
  | action t _ => t
  | discovery t _ => t

variable (h : Heuristics)

/-- Whether a type is the controller that is asked for. -/
def fits (hint : String) (t : TypeSymbol) : Bool :=
  (lower t.name = lower hint || lower t.name = lower (hint ++ h.suffix)) && h.isController t

/-- The controller that is asked for: the first type that fits. -/
def controller (types : List TypeSymbol) (hint : String) : Except Refusal TypeSymbol :=
  match types.find? (fits h hint) with
  | some t => .ok t
  | none => .error (.noType hint)

/-- What is logged about the choice of a controller, when there was one. -/
def choiceLog (types : List TypeSymbol) (hint : String) : List Log.Record :=
  match types.filter (fits h hint) with
  | first :: second :: more =>
    [⟨.info, .entry,
      s!"{(first :: second :: more).length} types match '{hint}'; using {first.qualifiedName}"⟩]
  | _ => []

/-- Whether a member can be begun with: it is a public method that binds to an
instance, no constructor, and looks like an action. -/
def isCandidate (m : MethodSymbol) : Bool :=
  m.accessibility = .published && !m.isStatic && m.kind ≠ .constructor && h.isAction m

/-- The methods of a controller that a walk could begin with. -/
def candidates (members : List Symbol) : List MethodSymbol :=
  (members.filterMap Symbol.method?).filter (isCandidate h)

/-- The first method with a name, in any case. -/
def methodNamed? (members : List Symbol) (action : String) : Option MethodSymbol :=
  (members.filterMap Symbol.method?).find? fun m => lower m.name = lower action

/-- **The entry that is asked for.** Without an action, or with an empty one, it
is a list of candidates. -/
def resolve (types : List TypeSymbol) (members : TypeSymbol → Except Fault (List Symbol))
    (hint : String) (action : Option String) : Except Refusal Resolution := do
  let t ← controller h types hint
  let known ← (members t).mapError .fault
  match action with
  | none => return .discovery t (candidates h known)
  | some name =>
    if name.isEmpty then return .discovery t (candidates h known)
    else
      match methodNamed? known name with
      | some m => return .action t m
      | none => .error (.noMethod (if hint.isEmpty then t.name else hint) name)

end Entry

end CallTree
