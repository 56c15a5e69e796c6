import CallTree.Syntax.Grammar.Expression

/-!
# Annotations

An annotation is a `type` with one phrase in it. As a rule that phrase is the
expression that is written. Two things are read differently when an annotation
begins with them. A bare name with square brackets after it is a generic type,
whose arguments are annotations again; any other head before the brackets, a
dotted name for one, is an expression and stays one. A name with stars before it
stands for several types.

Such an annotation can be joined to others by `|`, and a member can be taken of
what has been joined so far; an expression leaves nothing behind that could be
joined to it. At last a colon may follow, and the annotation that bounds it.
-/

namespace CallTree.Syntax.Grammar

open Rule

variable (inner : Inner)

/-- An annotation around a phrase. -/
def typed (content : Node) : Node := phrase .type [content]

/-- The words that introduce a statement or an expression in some places and are
names in others. -/
def softWords : List String := ["async", "await", "exec", "match", "print"]

/-- Whether the token is a name that is a name everywhere. -/
def isPlainName (t : Token) : Bool :=
  t.isIdentifier && !softWords.any t.isWord

/-- The arguments of a generic type, in square brackets. -/
def typeParameter : Rule Node := do
  let types : Rule (List Node) := do return (← commas beginsExpression (inner .typeHint)).1
  return phrase .typeParameter (← enclosed "[" types "]")

/-- Whether a bare name with square brackets comes next. -/
def atGeneric : Rule Bool := do
  return isPlainName (← peek) && (← peekSecond).isMark "["

/-- Whether an expression goes on with the token, other than by what joins
annotations too. -/
def continuesExpression (t : Token) : Bool :=
  match t.lexeme with
  | .mark text =>
    text = "(" || text = "[" || text = "**" || text = ":=" || comparators.contains text
      || (text ≠ "|" && (bindingStrength text).isSome)
  | .word text => ["and", "as", "if", "in", "is", "not", "or"].contains text
  | _ => false

/-- Whether a starred name comes next, with nothing behind it that makes it an
expression. -/
def atSplat : Rule Bool := fun c =>
  match c.tokens with
  | star :: n :: after :: _ =>
    let ends := !continuesExpression after || c.mode = .statement && after.isOnNewLine
    .ok (star.isMark "**" && n.isIdentifier
      || star.isMark "*" && isPlainName n && !n.isWord "type" && ends, c)
  | _ => .ok (false, c)

/-- A generic type, a starred name, or an expression, which takes all that
follows it. -/
def typeOperand : Rule Node := do
  required
  if ← atGeneric then
    let head ← name
    let _ ← peek
    return phrase .genericType [head, ← typeParameter inner]
  else if ← atSplat then return phrase .splatType [(← next).leaf, ← name]
  else expression inner

/-- An annotation without a bound: operands that are joined, and members taken of
them, from left to right. -/
def unboundedType : Rule Node := do
  let first := typed (← typeOperand inner)
  let steps : List (Node → Node) ← gather (fun t => t.isMark "|" || t.isMark ".") do
    if ← atMark "." then
      let dot ← mark "."
      let member ← anyName
      return fun held => phrase .memberType [held, dot, member]
    else
      let bar ← mark "|"
      let right := typed (← typeOperand inner)
      return fun held => phrase .unionType [held, bar, right]
  return steps.foldl (fun held step => typed (step held)) first

/-- **An annotation.** After a colon stands what bounds it. -/
def typeHint : Rule Node := do
  let first ← unboundedType inner
  if ← atMark ":" then
    return typed (phrase .constrainedType [first, ← mark ":", ← inner .typeHint])
  else return first

end CallTree.Syntax.Grammar
