import CallTree.Walk.Event

/-!
# The printed tree

Every event of a walk becomes one or two lines, indented by its depth. A note
about a method stands one step further in than the method itself.
-/

namespace CallTree

namespace Report

/-- That many spaces; none for a negative number. -/
def spaces (n : Int) : String := String.ofList (List.replicate n.toNat ' ')

/-- What is said of a method that is not expanded. -/
def reasonNote : TerminalReason → String
  | .unavailable => "external or generated method - cannot analyze further"
  | .noSemanticModel => "no semantic model - cannot analyze further"
  | .providerError => "analysis failed"
  | .depthLimit => "maximum depth reached - not expanded"
  | .cancelled => "analysis cancelled"

/-- What is said of a method that is reached again. -/
def cycleNote : String := "(already analyzed - preventing cycle)"

/-- The line of a method. -/
def methodLine (indent depth : Int) (signature : String) : String :=
  spaces (depth * indent) ++ "→ " ++ signature

/-- A line below a method. -/
def noteLine (indent depth : Int) (note : String) : String :=
  spaces (depth * indent) ++ spaces indent ++ note

/-- What is said of a method that is not expanded, with the text of an error that
is to blame. -/
def terminalNote (reason : TerminalReason) (detail : Option String) : String :=
  match reason, detail with
  | .providerError, some text =>
    if text.isEmpty then reasonNote reason else reasonNote reason ++ ": " ++ text
  | _, _ => reasonNote reason

/-- **The lines of one event.** -/
def lines (indent : Int) : Event → List String
  | .enter s d => [methodLine indent d s]
  | .cycle s d => [methodLine indent d s, noteLine indent d cycleNote]
  | .terminal _ d reason detail =>
    [noteLine indent d ("(" ++ terminalNote reason detail ++ ")")]
  | .creation t d => [noteLine indent d ("[Creates " ++ t ++ "]")]
  | .dependency t d .field _ => [noteLine indent d ("[Uses dependency: " ++ t ++ "]")]
  | .dependency t d .property _ =>
    [noteLine indent d ("[Uses dependency property: " ++ t ++ "]")]

/-- **The lines of a walk.** -/
def render (indent : Int) (events : List Event) : List String :=
  events.flatMap (lines indent)

/-- How far a printed line is indented at each step. -/
def standardIndent : Int := 2

end Report

end CallTree
