import CallTree.Syntax.Node

/-!
# Tokens

A source is a row of tokens with gaps between them. A gap holds what means
nothing to most of the grammar: ends of lines, comments and continuations. Where
lines end a statement, and where they open and close a block, cannot be said of
the tokens alone, since the end of a line is a mere blank wherever a statement
cannot end. So the tokens keep their gaps, and the grammar looks into a gap when
it comes to it; what it finds there it puts in front of the token, as a token
that takes no room.

A string literal is several tokens, because its replacement fields hold code:
its opening quote, stretches of plain content, the braces of the fields with the
tokens between them, and the closing quote.
-/

namespace CallTree.Syntax

/-- What a token is. -/
inductive Lexeme where
  /-- A name or a keyword. -/
  | word (text : String)
  | integer
  | float
  /-- An operator or a bracket. -/
  | mark (text : String)
  /-- The beginning of a string; `bare` tells that no letter stands before the
  quote. -/
  | stringStart (bare : Bool)
  /-- Plain content of a string with the escapes in it. -/
  | stringContent (escapes : List (Kind × Span))
  | stringEnd
  /-- Plain content of a format specification. -/
  | formatText
  /-- The conversion of a replacement field. -/
  | conversion
  /-- The end of a statement. -/
  | newline
  /-- The beginning of a block. -/
  | indent
  /-- The end of a block. -/
  | dedent
  /-- A piece of the file that begins no token. -/
  | stray
  | endOfFile
deriving DecidableEq, Repr, Inhabited

/-- A place in the file. -/
structure Place where
  offset : Nat
  row : Nat
deriving DecidableEq, Repr, Inhabited

/-- The span from one place to another. -/
def Place.to (a b : Place) : Span := ⟨a.offset, b.offset, a.row⟩

/-- What may stand between two tokens, common blanks aside. -/
inductive Trivium where
  | lineEnd
  /-- A comment, with the width of the blanks before it on its line. -/
  | comment (indentation : Nat) (span : Span)
  /-- A backslash and the end of line behind it, up to a place. -/
  | continuation (span : Span) (stop : Place)
  /-- A blank that has no width, with the width of those before it. -/
  | hairline (indentation : Nat)
deriving DecidableEq, Repr, Inhabited

/-- Whether a line ends in a gap where it can be seen. A blank without width
hides the ends of lines behind it, up to a comment or continuation. -/
def Trivium.endLine (hidden : Bool) : List Trivium → Bool
  | [] => false
  | .lineEnd :: rest => !hidden || endLine hidden rest
  | .hairline _ :: rest => endLine true rest
  | .comment _ _ :: rest | .continuation _ _ :: rest => endLine false rest

/-- What stands before a token, and how far its line is indented there. -/
structure Gap where
  trivia : List Trivium
  indentation : Nat
deriving DecidableEq, Repr, Inhabited

/-- A token with its place, the row of its end, and the gap before it. -/
structure Token where
  lexeme : Lexeme
  span : Span
  stopRow : Nat
  gap : Gap
deriving DecidableEq, Repr, Inhabited

namespace Token

/-- A token that takes no room, with no gap before it. -/
def empty (lexeme : Lexeme) (place : Place) : Token :=
  ⟨lexeme, place.to place, place.row, ⟨[], 0⟩⟩

/-- Where the token ends. -/
def stop (t : Token) : Place := ⟨t.span.stop, t.stopRow⟩

/-- Whether the token is a name or keyword of this spelling. -/
def isWord (text : String) (t : Token) : Bool := t.lexeme = .word text

/-- Whether the token is this operator or bracket. -/
def isMark (text : String) (t : Token) : Bool := t.lexeme = .mark text

/-- Whether the token begins a string. -/
def isStringStart (t : Token) : Bool :=
  match t.lexeme with
  | .stringStart _ => true
  | _ => false

/-- Whether the token stands on another line than the one before it. -/
def isOnNewLine (t : Token) : Bool :=
  t.lexeme = .endOfFile || Trivium.endLine false t.gap.trivia

/-- The words that are no names where an operand is expected. Any other word is
one there, a keyword of a statement included. -/
def reserved : List String := ["False", "None", "True", "lambda", "not"]

/-- Whether the token is a word. -/
def isAnyWord (t : Token) : Bool :=
  match t.lexeme with
  | .word _ => true
  | _ => false

/-- Whether the token is a word that is free to be a name. -/
def isIdentifier (t : Token) : Bool :=
  match t.lexeme with
  | .word text => !reserved.contains text
  | _ => false

/-- The leaf that a token becomes. Words are leaves of keywords here; a rule
that reads a name asks for `nameLeaf`. -/
def leaf (t : Token) : Node :=
  let label : Label :=
    match t.lexeme with
    | .word text => .mark text
    | .mark text => .mark text
    | .integer => .construct .integer
    | .float => .construct .float
    | .stringStart _ => .construct .stringStart
    | .stringContent _ => .construct .stringContent
    | .stringEnd => .construct .stringEnd
    | .formatText => .mark ""
    | .conversion => .construct .typeConversion
    | .newline | .indent | .dedent | .stray | .endOfFile => .construct .error
  let children : List Node :=
    match t.lexeme with
    | .stringContent escapes =>
      escapes.map fun (kind, span) => .mk (.construct kind) none span []
    | _ => []
  .mk label none t.span children

/-- The identifier that a word token becomes. -/
def nameLeaf (t : Token) : Node :=
  match t.lexeme with
  | .word text => .mk (.name text) none t.span []
  | _ => t.leaf

end Token

/-- The leaf that a comment or continuation becomes. -/
def Trivium.leaf? : Trivium → Option Node
  | .comment _ span => some (.mk (.construct .comment) none span [])
  | .continuation span _ => some (.mk (.construct .lineContinuation) none span [])
  | .lineEnd | .hairline _ => none

end CallTree.Syntax
