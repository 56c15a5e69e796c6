import CallTree.Syntax.Grammar.Rule

/-!
# Starred expressions

A star before an expression takes some of it. As an operand it takes as little as
it can: the first part of what follows that could be assigned to, which is a
name, an attribute or a subscript. What is attached to that part, and the
operators after it, then apply to the starred part. So `*a.b()` is a call of the
attribute `b` of `*a`, and `*"s".join(a)` a call of `*"s".join`.

As an element among others in brackets, and as an argument, a star takes the
whole expression, and between the two there is a third reading in which it takes
as much of the first operand as could be assigned to. The three are readings of
one thing, a star and an expression: `unstarred` gives the two back from any of
them, and `Reach` names the reading that is wanted.
-/

namespace CallTree.Syntax.Grammar

/-- How much of the expression behind it a star takes. -/
inductive Reach where
  /-- The shortest part at the front that can be assigned to. -/
  | shortest
  /-- The longest part of the first operand that can be assigned to. -/
  | longest
  | whole
deriving DecidableEq

/-- Whether something can be assigned to the node as it stands. -/
def isAssignable (n : Node) : Bool :=
  n.isName || n.isKind .attributeAccess || n.isKind .subscript

/-- Whether the node is an operand with something attached. -/
def isAttached (n : Node) : Bool :=
  n.isKind .attributeAccess || n.isKind .subscript || n.isKind .call

/-- Whether the node begins with an operand of its own. -/
def opensWithOperand (n : Node) : Bool :=
  isAttached n || n.isKind .binaryOperator || n.isKind .comparisonOperator
    || n.isKind .booleanOperator || n.isKind .conditionalExpression || n.isKind .asPattern

/-- The node with another first child in the place of its own. -/
def withFirst (first : Node) : Node → Node
  | .mk label role span children =>
    let placed : Node :=
      match first with
      | .mk label _ span below => .mk label (children.head?.bind (·.role)) span below
    .mk label role ⟨first.span.start, span.stop, first.span.row⟩ (placed :: children.drop 1)

/-- The expression without the part it plays for its parent. -/
def withoutRole : Node → Node
  | .mk label _ span children => .mk label none span children

/-- A star that takes all of an expression. -/
def splat (star e : Node) : Node := phrase .listSplat [star, withoutRole e]

mutual

/-- The expression with the star on the shortest part at its front that can be
assigned to; nothing when no part can. -/
def starShortest (star : Node) : Node → Option Node
  | .mk label role span children =>
    let n : Node := .mk label role span children
    let further := if opensWithOperand n then starShortestFirst star children else none
    match further with
    | some first => some (withFirst first n)
    | none => if isAssignable n then some (splat star n) else none

/-- The same for the first of several nodes. -/
def starShortestFirst (star : Node) : List Node → Option Node
  | [] => none
  | first :: _ => starShortest star first

end

mutual

/-- The expression with the star on the longest part of its first operand that
can be assigned to; nothing when no part can. -/
def starLongest (star : Node) : Node → Option Node
  | .mk label role span children =>
    let n : Node := .mk label role span children
    if isAssignable n then some (splat star n)
    else if opensWithOperand n then
      (starLongestFirst star children).map fun first => withFirst first n
    else none

/-- The same for the first of several nodes. -/
def starLongestFirst (star : Node) : List Node → Option Node
  | [] => none
  | first :: _ => starLongest star first

end

mutual

/-- **The star of a starred expression and the expression without it**, whatever
the star takes. -/
def unstarred : Node → Option (Node × Node)
  | .mk label role span children =>
    let n : Node := .mk label role span children
    if label = .construct .listSplat then
      match children with
      | [star, e] => some (star, e)
      | _ => none
    else if opensWithOperand n then
      (unstarredFirst children).map fun (star, first) => (star, withFirst first n)
    else none

/-- The same for the first of several nodes. -/
def unstarredFirst : List Node → Option (Node × Node)
  | [] => none
  | first :: _ => unstarred first

end

/-- **A star before an expression.** Where nothing can be assigned to, it takes
the whole. -/
def starred (reach : Reach) (star e : Node) : Node :=
  match reach with
  | .shortest => (starShortest star e).getD (splat star e)
  | .longest => (starLongest star e).getD (splat star e)
  | .whole => splat star e

/-- A starred expression in another reading; any other node stays as it is. -/
def restarred (reach : Reach) (n : Node) : Node :=
  match unstarred n with
  | some (star, e) =>
    match starred reach star e with
    | .mk label _ span children => .mk label n.role span children
  | none => n

/-! ## Stars in brackets of their own -/

/-- Whether the node is round brackets, whatever they have been read as. -/
def isRound (n : Node) : Bool :=
  n.isKind .parenthesizedExpression || n.isKind .parenthesizedListSplat || n.isKind .tuple

mutual

/-- A starred expression, perhaps in round brackets, with the star on the whole. -/
def wholly : Node → Option Node
  | .mk label role span children =>
    let n : Node := .mk label role span children
    match unstarred n with
    | some (star, e) => some (splat star e)
    | none =>
      if isRound n then
        (whollyWithin children).map (.mk (.construct .parenthesizedExpression) role span ·)
      else none

/-- The same for what stands between two brackets. -/
def whollyWithin : List Node → Option (List Node)
  | [opening, e, closing] => (wholly e).map fun e => [opening, e, closing]
  | _ => none

end

/-- **A starred expression in round brackets of its own**, with the star on the
whole. -/
def groupedStar (n : Node) : Option Node :=
  if isRound n then wholly n else none

/-- Whether the node is a starred expression in brackets that could only be read
with the star on the whole: it was read as a tuple without a comma. -/
def isForcedGroup (n : Node) : Bool :=
  n.isKind .tuple && n.children.length = 3

/-- An element of a display whose brackets around a star are no expression. -/
def asElement (n : Node) : Node :=
  match groupedStar n with
  | some (.mk _ role span children) =>
    .mk (.construct .parenthesizedListSplat) role span children
  | none => n

end CallTree.Syntax.Grammar
