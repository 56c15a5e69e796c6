import CallTree.Syntax.Grammar.Target

/-!
# Expressions

Operands are read first, with what is attached to them: attributes, calls and
subscripts. Operators are then read as a flat row of operands and operators and
grouped by how tightly they bind, the tightest first, from left to right.

A function without a name, and an expression that binds a name, take all that
their own operands can take, so either may stand where an operand of a boolean
operator is expected.
-/

namespace CallTree.Syntax.Grammar

open Rule

variable (inner : Inner)

/-! ## Strings -/

/-- The format specification of a replacement field. -/
def formatSpecifier : Rule Node := do
  let colon ← mark ":"
  let parts ← gather (fun t => t.lexeme = .formatText || t.isMark "\x7b") do
    if ← atMark "\x7b" then
      match ← inner .field with
      | .mk _ role span children => return .mk (.construct .formatExpression) role span children
    else return (← next).leaf
  return phrase .formatSpecifier (colon :: parts)

/-- One string literal. -/
def stringLiteral : Rule Node := do
  let start ← expect Token.isStringStart
  let isPart (t : Token) : Bool :=
    match t.lexeme with
    | .stringContent _ => true
    | .mark text => text = "\x7b"
    | _ => false
  let parts ← gather isPart do
    if ← atMark "\x7b" then inner .field else return (← next).leaf
  let stop ← expect (·.lexeme = .stringEnd)
  optional
  return phrase .string (start.leaf :: parts ++ [stop.leaf])

/-- String literals side by side, which are one string. -/
def strings : Rule Node := do
  let first ← stringLiteral inner
  let more ← gather Token.isStringStart (stringLiteral inner)
  if more.isEmpty then return first
  else return phrase .concatenatedString (first :: more)

/-! ## Attachments -/

/-- What is attached to an operand: the phrase that the two form, the part that
the operand plays in it, and the rest of the phrase. -/
structure Trailer where
  kind : Kind
  headRole : Role
  parts : List Node

/-- The operand with the attachment. -/
def Trailer.attach (head : Node) (t : Trailer) : Node :=
  phrase t.kind (head.withRole t.headRole :: t.parts)

/-- An argument of a call. A star takes all of it. -/
def argument : Rule Node := do
  let t ← peek
  if t.isMark "*" then return splat (← mark "*") (← inner .expression)
  else if t.isMark "**" then return phrase .dictionarySplat [← mark "**", ← inner .expression]
  else if t.isIdentifier && (← peekSecond).isMark "=" then
    return phrase .keywordArgument
      [(← name).withRole .name, ← mark "=", (← inner .expression).withRole .value]
  else
    let e ← inner .expression
    if isForcedGroup e then return (groupedStar e).getD e else return e

/-! ## Displays -/

/-- Targets with commas between them, in the header of a loop. -/
def targets : Rule Node := do
  let (parts, isList) ←
    commas (fun t => beginsExpression t && !t.isWord "in") (inner .operand)
  match asTargets true false parts with
  | some [single] => if isList then return phrase .patternList [single] else return single
  | some parts => return phrase .patternList parts
  | none => stuck

/-- Whether the token begins a clause of a comprehension. -/
def beginsClause (t : Token) : Bool := t.isWord "for" || t.isWord "async" || t.isWord "if"

/-- A clause of a comprehension. What it goes through may be several
expressions. -/
def clause : Rule Node := do
  if ← atWord "if" then return phrase .ifClause [← word "if", ← inner .unconditional]
  else
    let isAsync ← gather (·.isWord "async") (word "async")
    let head : List Node ← inHeader do
      pure [← word "for", (← targets inner).withRole .left, ← word "in"]
    let (parts, _) ←
      commas (fun t => beginsExpression t && !t.isWord "async") (inner .iterated)
    return phrase .forInClause (isAsync ++ head ++ parts.map fun part =>
      if part.isMark then part else part.withRole .right)

/-- Several expressions with commas between them, or a single one. -/
def expressions : Rule Node := do
  let (parts, isList) ← commas beginsExpression (inner .expression)
  match parts with
  | [single] => if isList then return phrase .expressionList parts else return single
  | _ => return phrase .expressionList parts

/-- A `yield`. -/
def yieldExpression : Rule Node := do
  let keyword ← word "yield"
  optional
  if ← atWord "from" then
    return phrase .yieldExpression [keyword, ← word "from", ← inner .expression]
  else if beginsExpression (← peek) then
    return phrase .yieldExpression [keyword, ← expressions inner]
  else return phrase .yieldExpression [keyword]

/-- Takes two stars that come next for one and another, where no power and no
dictionary can be meant. -/
def splitStars : Rule Unit := fun c =>
  match c.tokens with
  | t :: rest =>
    if t.isMark "**" then
      let middle : Place := ⟨t.span.start + 1, t.span.row⟩
      let first : Token := ⟨.mark "*", Place.to ⟨t.span.start, t.span.row⟩ middle, t.stopRow, t.gap⟩
      let second : Token := ⟨.mark "*", middle.to t.stop, t.stopRow, ⟨[], 0⟩⟩
      .ok ((), { c with tokens := first :: second :: rest })
    else .ok ((), c)
  | [] => .ok ((), c)

/-- An element of a display: an expression, a starred one, or a `yield`. -/
def element : Rule Node := do
  splitStars
  if ← atMark "*" then return splat (← mark "*") (← inner .expression)
  else if ← atWord "yield" then yieldExpression inner
  else inner .expression

/-- The elements of a display. A star takes all of its element, unless the
element is alone: then it is read as an operand is. In brackets of its own it is
read as an operand too, but not in front of other elements. -/
def elements (first : Node) (rest : List Node) : List Node :=
  let settled (n : Node) : Node := if isForcedGroup n then asElement n else n
  match rest with
  | [] => [restarred .shortest (settled first)]
  | _ => asElement first :: rest.map settled

/-- Whether a comprehension goes on here. -/
def atComprehension : Rule Bool := do
  return (← atWord "for") || (← atWord "async")

/-- The parts of a comprehension whose body has been read. -/
def comprehension (body : Node) : Rule (List Node) := do
  let clauses ← gather beginsClause (clause inner)
  return (restarred .shortest body).withRole .body :: clauses

/-- The rest of a display whose first element has been read. -/
def displayRest (element : Rule Node) : Rule (List Node) :=
  further beginsExpression do return [← element]

/-- A phrase in brackets, whose kind shows only when it has been read. -/
def display (opening close : String) (r : Rule (Kind × List Node)) : Rule Node := do
  let opening ← mark opening
  inMode .bracket do
    optional
    let (kind, parts) ← r
    let _ ← peek
    return phrase kind (opening :: parts ++ [← mark close])

/-- What begins with a round bracket: a tuple, a generator or an expression in
parentheses. -/
def parenthesised : Rule Node :=
  display "(" ")" do
    if ← atMark ")" then return (.tuple, [])
    else
      let first ← element inner
      if ← atComprehension then return (.generatorExpression, ← comprehension inner first)
      else
        let parts := elements first (← displayRest (element inner))
        let isTuple :=
          match parts with
          | [single] =>
            single.isKind .parenthesizedListSplat
              || single.isKind .listSplat && !(single.children.drop 1).all isAssignable
          | _ => true
        return (if isTuple then .tuple else .parenthesizedExpression, parts)

/-- What begins with a square bracket: a list. -/
def listDisplay : Rule Node :=
  display "[" "]" do
    if ← atMark "]" then return (.list, [])
    else
      let first ← element inner
      if ← atComprehension then return (.listComprehension, ← comprehension inner first)
      else return (.list, elements first (← displayRest (element inner)))

/-- An entry of a dictionary: a pair, or another dictionary to be taken over. -/
def entry : Rule Node := do
  if ← atMark "**" then return phrase .dictionarySplat [← mark "**", ← inner .expression]
  else
    return phrase .pair
      [(← inner .expression).withRole .key, ← mark ":", (← inner .expression).withRole .value]

/-- What begins with a curly bracket: a dictionary or a set. -/
def curly : Rule Node :=
  display "\x7b" "\x7d" do
    if ← atMark "\x7d" then return (.dictionary, [])
    else if ← atMark "," then return (.dictionary, [← mark ","])
    else if ← atMark "**" then
      let first ← entry inner
      return (.dictionary, first :: (← displayRest (entry inner)))
    else
      let first ← element inner
      if ← atMark ":" then
        let pair := phrase .pair
          [(restarred .shortest first).withRole .key, ← mark ":",
            (← inner .expression).withRole .value]
        if ← atComprehension then return (.dictionaryComprehension, ← comprehension inner pair)
        else return (.dictionary, pair :: (← displayRest (entry inner)))
      else if ← atComprehension then return (.setComprehension, ← comprehension inner first)
      else return (.set, elements first (← displayRest (element inner)))

/-! ## Operands -/

/-- A leaf that stands for itself. -/
def literal (kind : Kind) : Rule Node := do
  let t ← next
  return .mk (.construct kind) none t.span []

/-- An operand without anything attached. -/
def atom : Rule Node := do
  required
  let t ← peek
  match t.lexeme with
  | .word text =>
    if text = "True" then literal .trueLiteral
    else if text = "False" then literal .falseLiteral
    else if text = "None" then literal .noneLiteral
    else name
  | .integer | .float => return (← next).leaf
  | .stringStart _ => strings inner
  | .mark text =>
    if text = "(" then parenthesised inner
    else if text = "[" then listDisplay inner
    else if text = "\x7b" then curly inner
    else if text = "..." then literal .ellipsis
    else stuck
  | _ => stuck

/-- A part of a subscript: an expression or a slice. -/
def subscriptPart : Rule Node := do
  required
  let first ← if ← atMark ":" then pure [] else do pure [← inner .expression]
  if ← atMark ":" then
    let colon ← mark ":"
    let bound : Rule (List Node) := do
      optional
      if beginsExpression (← peek) then return [← inner .expression] else return []
    let stop ← bound
    let step ← if ← atMark ":" then do pure ((← mark ":") :: (← bound)) else pure []
    return phrase .slice (first ++ colon :: stop ++ step)
  else
    match first with
    | [e] => return e
    | _ => stuck

/-- The arguments of a call. A single generator needs no brackets of its own. -/
def callArguments : Rule Node :=
  display "(" ")" do
    if ← atMark ")" then return (.argumentList, [])
    else if ← atMark "," then return (.argumentList, [← mark ","])
    else
      let first ← argument inner
      if ← atComprehension then return (.generatorExpression, ← comprehension inner first)
      else return (.argumentList, first :: (← displayRest (argument inner)))

/-- Whether the token begins an attachment. -/
def beginsTrailer (t : Token) : Bool := t.isMark "." || t.isMark "(" || t.isMark "["

/-- An attachment. -/
def trailer : Rule Trailer := do
  if ← atMark "." then
    return ⟨.attributeAccess, .object, [← mark ".", (← anyName).withRole .attributeName]⟩
  else if ← atMark "(" then
    return ⟨.call, .function, [(← callArguments inner).withRole .arguments]⟩
  else
    let begins (t : Token) : Bool := beginsExpression t || t.isMark ":"
    let parts ← enclosed "[" (do return (← commas begins (subscriptPart inner)).1) "]"
    return ⟨.subscript, .value, parts⟩

/-- An operand with what is attached to it. A star takes the shortest part. -/
def operand : Rule Node := do
  required
  splitStars
  if ← atMark "*" then
    let star ← mark "*"
    match starShortest star (← inner .operand) with
    | some n => return n
    | none => stuck
  else
    let head ← atom inner
    let trailers ← gather beginsTrailer (trailer inner)
    return trailers.foldl Trailer.attach head

/-- An operation from its operands and its operator. -/
def operation (kind : Kind) (left op right : Node) : Node :=
  phrase kind [left.withRole .left, op.withRole .operator, right.withRole .right]

/-- Whether the token can begin an operand that is waited for. -/
def beginsAwaited (t : Token) : Bool :=
  beginsExpression t && !t.isMark "**" && !t.isWord "not" && !t.isWord "lambda"

/-- An operand with its signs before it and its power after it. A power binds
tighter than a sign on its left. -/
def factor : Rule Node := do
  required
  let t ← peek
  if t.isMark "-" || t.isMark "+" || t.isMark "~" then
    let sign := (← next).leaf.withRole .operator
    return phrase .unaryOperator [sign, (← inner .factor).withRole .value]
  else if t.isWord "await" && beginsAwaited (← peekSecond) then
    return phrase .awaitExpression [← word "await", ← inner .factor]
  else
    let base ← operand inner
    if ← atMark "**" then
      return operation .binaryOperator base (← mark "**") (← inner .factor)
    else return base

/-! ## Boolean, comparing and binary operators -/

/-- How tightly a binary operator binds. -/
def bindingStrength (op : String) : Option Nat :=
  if op = "|" then some 14
  else if op = "&" then some 15
  else if op = "^" then some 16
  else if op = "<<" || op = ">>" then some 17
  else if op = "+" || op = "-" then some 18
  else if ["*", "@", "/", "%", "//"].contains op then some 19
  else none

/-- The strength of an operator token. -/
def Token.strength (t : Token) : Option Nat :=
  match t.lexeme with
  | .mark text => bindingStrength text
  | _ => none

/-- A row of operands: the first one, and each further one after its operator
and the strength of that operator. -/
structure Row where
  first : Node
  rest : List (Nat × Node × Node)

/-- Groups the operands that operators of one strength join, from left to right. -/
def Row.groupAt (kind : Kind) (strength : Nat) (row : Row) : Row :=
  go row.first row.rest
where
  /-- `held` is the operand read last, which may still be joined to the next. -/
  go (held : Node) : List (Nat × Node × Node) → Row
    | [] => ⟨held, []⟩
    | (s, op, operand) :: rest =>
      if s = strength then go (operation kind held op operand) rest
      else
        let row := go operand rest
        ⟨held, (s, op, row.first) :: row.rest⟩

/-- The operation that a row stands for. -/
def Row.group (kind : Kind) (strengths : List Nat) (row : Row) : Node :=
  (strengths.foldl (fun row s => row.groupAt kind s) row).first

/-- Operands with binary operators between them. -/
def binary : Rule Node := do
  let first ← factor inner
  let rest ← gather (fun t => (Token.strength t).isSome) do
    let op ← next
    let operand ← factor inner
    return ((Token.strength op).getD 0, op.leaf, operand)
  return Row.group .binaryOperator [19, 18, 17, 16, 15, 14] ⟨first, rest⟩

/-- Whether the token begins a comparing operator. `not` does when `in`
follows. -/
def comparators : List String := ["<", "<=", "==", "!=", ">=", ">", "<>"]

/-- A comparing operator. Two words form one operator. -/
def comparator : Rule Node := do
  let t ← next
  let pair (text : String) (b : Node) : Node :=
    .mk (.mark text) none ⟨t.span.start, b.span.stop, t.span.row⟩ [t.leaf, b]
  required
  if t.isWord "not" then return pair "not in" (← word "in")
  else if t.isWord "is" && (← atWord "not") then return pair "is not" (← word "not")
  else return t.leaf

/-- Whether a comparing operator may begin with the token. -/
def beginsComparator (t : Token) : Bool :=
  match t.lexeme with
  | .mark text => comparators.contains text
  | .word text => text = "in" || text = "is" || text = "not"
  | _ => false

/-- Operands with comparing operators between them, all in one phrase. -/
def comparison : Rule Node := do
  let first ← binary inner
  let rest ← gather beginsComparator do
    return [(← comparator).withRole .operator, ← binary inner]
  if rest.isEmpty then return first
  else return phrase .comparisonOperator (first :: rest.flatten)

/-! ## Functions without a name -/

/-- A starred parameter. What can be assigned to can be starred. -/
def starredParameter (kind : Kind) (star : String) : Rule Node := do
  let star ← mark star
  let e ← operand inner
  if isAssignable e then return phrase kind [star, e] else stuck

/-- A default value, if one follows. -/
def withDefault (n : Node) : Rule Node := do
  if ← atMark "=" then
    return phrase .defaultParameter
      [n.withRole .name, ← mark "=", (← inner .expression).withRole .value]
  else return n

/-- Whether a parameter can begin with the token. -/
def beginsParameter (t : Token) : Bool :=
  t.isAnyWord || t.isMark "*" || t.isMark "**" || t.isMark "/" || t.isMark "("

/-- A parameter without an annotation. -/
def plainParameter : Rule Node := do
  let t ← peek
  if t.isMark "/" then literal .positionalSeparator
  else if t.isMark "*" then
    if (← peekSecond).isMark "," || (← peekSecond).isMark ")" || (← peekSecond).isMark ":" then
      literal .keywordSeparator
    else starredParameter inner .listSplatPattern "*"
  else if t.isMark "**" then starredParameter inner .dictionarySplatPattern "**"
  else if t.isMark "(" then
    match asTarget false false (← parenthesised inner) with
    | some n => withDefault inner n
    | none => stuck
  else withDefault inner (← anyName)

/-- **A function without a name.** Its body is a phrase for the given goal. -/
def lambda (body : Goal) : Rule Node := do
  let head : List Node ← inHeader do
    let keyword ← word "lambda"
    if beginsParameter (← peek) then
      let (parts, _) ← commas beginsParameter (plainParameter inner)
      return [keyword, (phrase .lambdaParameters parts).withRole .parameters, ← mark ":"]
    else return [keyword, ← mark ":"]
  return phrase .lambda (head ++ [(← inner body).withRole .body])

/-- A name that is bound to a value, if one comes next. -/
def atBinding : Rule Bool := do
  return (← peek).isIdentifier && (← peekSecond).isMark ":="

/-- An expression that binds a name. -/
def binding : Rule Node := do
  let n := (← name).withRole .name
  return phrase .namedExpression [n, ← mark ":=", (← inner .disjunction).withRole .value]

/-! ## Whole expressions -/

/-- A comparison with `not`s before it. -/
def inversion : Rule Node := do
  required
  let nots ← gather (·.isWord "not") do
    let keyword ← word "not"
    required
    return keyword
  let operand ←
    if ← atWord "lambda" then lambda inner .expression
    else if ← atBinding then binding inner
    else comparison inner
  return nots.foldr (fun n e => phrase .notOperator [n, e]) operand

/-- Operands with one boolean operator between them, grouped from the left. -/
def booleanRow (op : String) (operand : Rule Node) : Rule Node := do
  let first ← operand
  let rest ← gather (·.isWord op) do return (← word op, ← operand)
  return rest.foldl (fun e (op, right) => operation .booleanOperator e op right) first

/-- An expression whose operators are boolean at the top. -/
def disjunction : Rule Node :=
  booleanRow "or" (booleanRow "and" (inversion inner))

/-- **An expression without a condition at its top.** It may be given names. -/
def unconditional : Rule Node := do
  let first ← disjunction inner
  let names ← gather (·.isWord "as") do return (← word "as", ← disjunction inner)
  return names.foldl (fun e (keyword, n) =>
    phrase .asPattern [e, keyword, (phrase .asPatternTarget [n]).withRole .boundName]) first

/-- What a comprehension goes through: an expression that leaves a condition
behind it to the comprehension. -/
def iterated : Rule Node := do
  required
  if ← atWord "lambda" then lambda inner .iterated else unconditional inner

/-- **An expression**, which may depend on a condition. -/
def expression : Rule Node := do
  let first ← unconditional inner
  if ← atWord "if" then
    let condition : List Node ← inHeader do
      pure [← word "if", ← inner .expression, ← word "else"]
    return phrase .conditionalExpression (first :: condition ++ [← inner .expression])
  else return first

/-- A replacement field of a string. -/
def field : Rule Node := do
  let opening ← mark "\x7b"
  inMode .field do
    required
    let value ← if ← atWord "yield" then yieldExpression inner else expressions inner
    let equals ← gather (·.isMark "=") (mark "=")
    let conversion ← gather (·.lexeme = .conversion) do return (← next).leaf
    let specifier ← if ← atMark ":" then do pure [← formatSpecifier inner] else pure []
    return phrase .interpolation
      (opening :: value :: equals ++ conversion ++ specifier ++ [← mark "\x7d"])

end CallTree.Syntax.Grammar
