import CallTree.Syntax.Grammar.Star

/-!
# Targets

What is assigned to is written like an expression, and read as one first: only
the `=` behind it tells that it was a target. Then displays become patterns of
their elements, and a starred element becomes a starred pattern.

The first element of a list of targets keeps the star where an operand has it, on
the shortest part in front, because up to there it could have been an expression
of its own; further elements have the star on the whole. The header of a loop is
known to hold targets from the start, and there the first element is no
exception, except inside brackets. A parameter that is a pattern is known to be
one throughout.

Several expressions on the right of an assignment may as well be targets of a
further one, and without an `=` behind them they are expressions, with one
exception: a display among them that holds a starred element behind its first is
read as a pattern, if all of them can be read so.
-/

namespace CallTree.Syntax.Grammar

mutual

/-- **An expression read as a target**, if it can be one. `leads` tells that the
expression is the first of its list, and `either` that what stands in brackets
could have been an expression. -/
def asTarget (either leads : Bool) : Node → Option Node
  | .mk label role span children =>
    let n : Node := .mk label role span children
    let pattern (kind : Kind) : Option Node :=
      (asTargets either either children).map (.mk (.construct kind) role span ·)
    match label with
    | .construct .tuple => pattern .tuplePattern
    | .construct .parenthesizedExpression => pattern .tuplePattern
    | .construct .parenthesizedListSplat => pattern .tuplePattern
    | .construct .list => pattern .listPattern
    | .construct .expressionList => pattern .patternList
    | _ =>
      let placed :=
        match unstarred n with
        | some (star, e) => if leads then starred .shortest star e else splat star e
        | none => n
      match placed with
      | .mk (.construct .listSplat) _ span [star, e] =>
        if isAssignable e then some (.mk (.construct .listSplatPattern) role span [star, e])
        else none
      | other => if isAssignable other then some other else none

/-- Several expressions read as targets. Marks stand between them. -/
def asTargets (either leads : Bool) : List Node → Option (List Node)
  | [] => some []
  | n :: ns => do
    if n.isMark then return n :: (← asTargets either leads ns)
    else return (← asTarget either leads n) :: (← asTargets either false ns)

end

mutual

/-- Whether a display holds a starred element behind its first, or an element that
is such a display. -/
def holdsLaterStar : Node → Bool
  | .mk label _ _ children =>
    (label = .construct .tuple || label = .construct .list
      || label = .construct .parenthesizedExpression) && laterStarAmong false children

/-- The same for elements. `later` tells that there was one before. -/
def laterStarAmong (later : Bool) : List Node → Bool
  | [] => false
  | n :: ns =>
    if n.isMark then laterStarAmong later ns
    else later && n.isKind .listSplat || holdsLaterStar n || laterStarAmong true ns

end

/-- Expressions on the right of an assignment, as patterns where they are read
so. -/
def asRightSide (n : Node) : Node :=
  if n.isKind .expressionList && n.children.any holdsLaterStar then (asTarget true true n).getD n
  else n

end CallTree.Syntax.Grammar
