import CallTree.Syntax.Grammar.Layout

/-!
# Rules of the grammar

A rule reads tokens at a cursor and gives what it has read, or the place where it
is stuck. Rules never look back, so a rule that fails leaves its caller with the
cursor it was given, and an alternative can start from there.

The grammar is recursive, and its rules are not: a rule that needs another
phrase inside its own asks for it through a `Goal`. All rules take the function
that answers such requests as a parameter, called `inner`. A request is made
only after a token of the phrase has been read, so requests nest no deeper than
there are tokens, and `Grammar.Tree` ties the knot with that bound.

Before a rule looks at a token, the gap before the token is settled. Whoever looks
first says what could be done with it. `peek` is for places where a phrase may be
complete, `required` for places where another one must begin, and `optional` for
those where one may begin.
-/

namespace CallTree.Syntax.Grammar

/-- A rule: from a cursor to a result and the cursor behind what was read, or the
span of the token at which it is stuck. -/
abbrev Rule (α : Type) := Cursor → Except Span (α × Cursor)

namespace Rule

variable {α β : Type}

/-- The rule that reads nothing. -/
protected def pure (a : α) : Rule α := fun c => .ok (a, c)

/-- One rule after another. -/
protected def bind (r : Rule α) (f : α → Rule β) : Rule β := fun c =>
  match r c with
  | .ok (a, rest) => f a rest
  | .error span => .error span

instance : Monad Rule where
  pure := Rule.pure
  bind := Rule.bind

/-! ## Looking -/

/-- Settles the gap before the next token. -/
def look (o : Outlook) : Rule Unit := fun c => .ok ((), c.look o)

/-- Settles the gap where another phrase must begin. -/
def required : Rule Unit := fun c => .ok ((), c.look c.mode.mandatory)

/-- Settles the gap where another phrase may begin. -/
def optional : Rule Unit := fun c => .ok ((), c.look { c.mode.outlook with string := true })

/-- The token that comes next. -/
def peek : Rule Token := fun c =>
  let c := c.look c.mode.outlook
  .ok (c.head, c)

/-- The token after the one that comes next. Where a statement can end, the end of
the line does not let it be seen. -/
def peekSecond : Rule Token := fun c =>
  let t := (c.tokens.drop 1).headD (.empty .endOfFile c.last)
  .ok (if c.mode = .statement && t.isOnNewLine then .empty .newline c.last else t, c)

/-- Reads with another mode. -/
def inMode (mode : Mode) (r : Rule α) : Rule α := fun c =>
  match r { c with mode } with
  | .ok (a, rest) => .ok (a, { rest with mode := c.mode })
  | .error span => .error span

/-! ## Reading -/

/-- Stuck at the next token. -/
def stuck : Rule α := fun c =>
  .error (if c.head.lexeme = .endOfFile then c.last.to c.last else c.head.span)

/-- Reads any token. -/
def next : Rule Token := fun c =>
  let c := c.look c.mode.outlook
  .ok (c.head, c.advance)

/-- Reads a token that satisfies the condition and that must come here. -/
def expect (accepts : Token → Bool) : Rule Token := do
  required
  let t ← peek
  if accepts t then next else stuck

/-- Reads this operator or bracket. -/
def mark (text : String) : Rule Node := do
  return (← expect (·.isMark text)).leaf

/-- Reads this keyword. -/
def word (text : String) : Rule Node := do
  return (← expect (·.isWord text)).leaf

/-- Reads a name. -/
def name : Rule Node := do
  return (← expect Token.isIdentifier).nameLeaf

/-- Reads any word as a name. -/
def anyName : Rule Node := do
  return (← expect Token.isAnyWord).nameLeaf

/-- Whether this operator or bracket comes next. -/
def atMark (text : String) : Rule Bool := do
  return (← peek).isMark text

/-- Whether this keyword comes next. -/
def atWord (text : String) : Rule Bool := do
  return (← peek).isWord text

/-- Reads what ends a statement, and settles the gap before the next one. -/
def endOfLine : Rule Token := do
  let t ← peek
  if t.lexeme = .newline then
    let _ ← next
    look .statement
    return t
  else stuck

/-- Reads what stands between two brackets, where `r` reads what is inside. -/
def enclosed (opening : String) (r : Rule (List Node)) (close : String) :
    Rule (List Node) := do
  let opening ← mark opening
  inMode .bracket do
    let parts ← r
    let _ ← peek
    return opening :: parts ++ [← mark close]

/-- Reads a part after which more must come, so that no line ends a statement
there. -/
def inHeader (r : Rule α) : Rule α := fun c =>
  inMode (if c.mode = .field then .field else .header) r c

/-- Reads `body` as often as the next token satisfies the condition, at most
once for each of the given tokens. -/
def gatherAlong (continues : Token → Bool) (body : Rule α) : List Token → Rule (List α)
  | [] => Rule.pure []
  | _ :: fuel => do
    if continues (← peek) then
      let a ← body
      let rest ← gatherAlong continues body fuel
      return a :: rest
    else return []

/-- **Reads `body` as often as the next token satisfies the condition.** A body
that begins by reading that token is read at most once for each token. -/
def gather (continues : Token → Bool) (body : Rule α) : Rule (List α) :=
  fun c => gatherAlong continues body c.tokens c

/-- Reads the first rule, or the second when the first is stuck. -/
protected def orElse (first second : Rule α) : Rule α := fun c =>
  match first c with
  | .ok result => .ok result
  | .error _ => second c

/-- Reads the elements after a first one, each behind a comma, at most one for
each of the given tokens. -/
def furtherAlong (begins : Token → Bool) (element : Rule (List Node)) :
    List Token → Rule (List Node)
  | [] => Rule.pure []
  | _ :: fuel => do
    if ← atMark "," then
      let comma ← mark ","
      optional
      if begins (← peek) then
        let parts ← element
        let rest ← furtherAlong begins element fuel
        return comma :: parts ++ rest
      else return [comma]
    else return []

/-- **Reads the elements after a first one**, each behind a comma. A comma at the
end is read as well; another element follows it only if the next token can begin
one. -/
def further (begins : Token → Bool) (element : Rule (List Node)) : Rule (List Node) :=
  fun c => furtherAlong begins element c.tokens c

/-- Reads elements with commas between them and perhaps one at the end. The
result tells whether there was a comma. -/
def commas (begins : Token → Bool) (element : Rule Node) : Rule (List Node × Bool) := do
  let first ← element
  let rest ← further begins do return [← element]
  return (first :: rest, !rest.isEmpty)

/-- Reads elements with commas between them, and none at the end. -/
def listed (element : Rule Node) : Rule (List Node) := do
  let first ← element
  let rest ← gather (·.isMark ",") do return [← mark ",", ← element]
  return first :: rest.flatten

end Rule

/-- A phrase from its parts, covering them from the first to the last. -/
def phrase (kind : Kind) (parts : List Node) : Node :=
  let start := (parts.head?.map (·.span)).getD default
  let stop := (parts.getLast?.map (·.span)).getD default
  .mk (.construct kind) none ⟨start.start, stop.stop, start.row⟩ parts

/-- A phrase from its parts that extends to a given place. -/
def phraseUpTo (kind : Kind) (parts : List Node) (stop : Nat) : Node :=
  let start := (parts.head?.map (·.span)).getD default
  .mk (.construct kind) none ⟨start.start, stop, start.row⟩ parts

/-- The phrases that rules ask for inside their own. -/
inductive Goal where
  | expression
  /-- An expression without a condition at its top. -/
  | unconditional
  /-- What a comprehension goes through. -/
  | iterated
  /-- An expression whose operators are boolean at the top. -/
  | disjunction
  /-- An operand with its signs and powers. -/
  | factor
  /-- An operand with what is attached to it. -/
  | operand
  /-- What stands on the right of an assignment. -/
  | rightSide
  | typeHint
  /-- The body of a compound statement, after its colon. -/
  | suite
  /-- A pattern of a case. -/
  | casePattern
  /-- A replacement field of a string. -/
  | field
deriving DecidableEq

/-- The function that answers requests for inner phrases. -/
abbrev Inner := Goal → Rule Node

/-- The words that join expressions or go on after one. Where an expression may
follow or not, they begin none. -/
def joining : List String :=
  ["and", "as", "else", "for", "from", "if", "in", "is", "or"]

/-- Whether an expression can begin with the token. -/
def beginsExpression (t : Token) : Bool :=
  match t.lexeme with
  | .word text => !joining.contains text
  | .integer | .float | .stringStart _ => true
  | .mark text => ["(", "[", "\x7b", "-", "+", "~", "...", "*", "**"].contains text
  | _ => false

end CallTree.Syntax.Grammar
