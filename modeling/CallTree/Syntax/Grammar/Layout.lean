import CallTree.Syntax.Token

/-!
# Layout

The end of a line ends a statement only where the statement can end; anywhere
else it is a blank. In the same way a line that is indented deeper opens a block
only after a colon that calls for one, and a line that is indented less deeply
closes a block, which is an error inside a statement. So layout is found out by
the grammar as it goes: at each token it says with an `Outlook` what it could do
with the gap before that token, and `Cursor.look` settles what the gap is. What
it stands for is put in front of the token.

Comments count for layout too. Where layout is looked for, a comment behind code
is passed over first, and comments on lines of their own are seen through, up to
the line that has code; but a comment that is indented as deeply as a block keeps
the block open until the comment has been passed over. Everywhere else the first
comment of a gap is what the indentation is measured at.
-/

namespace CallTree.Syntax.Grammar

/-- What the grammar can do with the gap before a token. -/
structure Outlook where
  /-- A statement can end. -/
  newline : Bool := false
  /-- A block can open. -/
  indent : Bool := false
  /-- A block can close. -/
  dedent : Bool := false
  /-- A string can begin. -/
  string : Bool := false
  /-- A bracket can close. -/
  closing : Bool := false
deriving DecidableEq

/-- Whether layout is looked for. -/
def Outlook.seeksLayout (o : Outlook) : Bool := o.newline || o.indent || o.dedent

/-- What phrases are part of, as far as the ends of lines go. -/
inductive Mode where
  /-- A statement that may end after a phrase. -/
  | statement
  /-- A part of a statement after which more must come, like the header of a
  compound statement. -/
  | header
  /-- Something in brackets. -/
  | bracket
  /-- A replacement field of a string. -/
  | field
deriving DecidableEq

/-- The outlook after a phrase that may be complete. -/
def Mode.outlook : Mode → Outlook
  | .statement => { newline := true }
  | .header => {}
  | .bracket | .field => { closing := true }

/-- The outlook where an operand must begin. -/
def Mode.mandatory : Mode → Outlook
  | .field => { string := true, closing := true }
  | _ => { string := true }

/-- The outlook where a statement of a block can begin. -/
def Outlook.statement : Outlook := { dedent := true, string := true }

/-- The outlook after the colon of a compound statement. -/
def Outlook.suite : Outlook := { newline := true, indent := true, string := true }

/-- **Where the grammar stands**: the tokens that are left, the indentation of the
open blocks, innermost first, the end of what was read last, what was passed over
in gaps, latest first, whether the gap before the next token has been settled, and
the mode. -/
structure Cursor where
  tokens : List Token
  indents : List Nat
  last : Place
  extras : List Trivium
  settled : Bool
  mode : Mode

namespace Cursor

/-- The start of a row of tokens. -/
def start (tokens : List Token) : Cursor := ⟨tokens, [], ⟨0, 0⟩, [], false, .statement⟩

/-- The current indentation. -/
def indentation (c : Cursor) : Nat := c.indents.headD 0

/-- The next token. After the last one the end goes on. -/
def head (c : Cursor) : Token := c.tokens.headD (.empty .endOfFile c.last)

/-- What can be seen of a gap: whether a line ends in it, how deep the first
comment on a line of its own is, the indentation at which the view ends, and
whether it reaches up to the token. -/
structure Sight where
  lineEnds : Bool
  comment : Option Nat
  indentation : Nat
  isClear : Bool

/-- Looks through a gap before a token that is indented by `indentation`. Nothing
is seen when a comment comes before the line ends. -/
def sight (seeksLayout : Bool) (indentation : Nat) (lineEnds : Bool) (comment : Option Nat) :
    List Trivium → Option Sight
  | [] => some ⟨lineEnds, comment, indentation, true⟩
  | .lineEnd :: rest => sight seeksLayout indentation true comment rest
  | .continuation _ _ :: rest => sight seeksLayout indentation lineEnds comment rest
  | .hairline depth :: _ => some ⟨lineEnds, comment, depth, false⟩
  | .comment depth _ :: rest =>
    if !seeksLayout then some ⟨lineEnds, comment, depth, false⟩
    else if lineEnds then
      sight seeksLayout indentation lineEnds (comment.orElse fun _ => some depth) rest
    else none

/-- What a gap is taken for. -/
inductive Verdict where
  | newline
  | indent (depth : Nat)
  | dedent
  /-- All of it is a blank. -/
  | blank
  /-- What comes first in it is passed over. -/
  | pass
deriving DecidableEq

/-- What the gap before a token is taken for, at a current indentation. A quote
right at the front of a line does not close a block where a string can begin. -/
def verdict (o : Outlook) (current : Nat) (t : Token) (trivia : List Trivium) : Verdict :=
  let isEnd : Bool := t.lexeme = .endOfFile
  match sight o.seeksLayout (if isEnd then 0 else t.gap.indentation) false none trivia with
  | none => .pass
  | some s =>
    let isQuote : Bool := s.isClear && t.lexeme = .stringStart true
    let closes := o.dedent || !o.newline && !(o.string && isQuote) && !o.closing
    if s.lineEnds || (s.isClear && isEnd) then
      if o.indent && current < s.indentation then .indent s.indentation
      else if closes && s.indentation < current && s.comment.all (· < current) then .dedent
      else if o.newline then .newline
      else blankOrPass s
    else blankOrPass s
where
  /-- The gap before a string is a blank, where a string can begin. -/
  blankOrPass (s : Sight) : Verdict :=
    if s.isClear && s.comment.isNone && o.string && t.isStringStart then .blank else .pass

/-- Passes over what comes first in a gap. -/
def passing (trivium : Trivium) (c : Cursor) : Cursor :=
  let last :=
    match trivium with
    | .comment _ span => ⟨span.stop, span.row⟩
    | .continuation _ stop => stop
    | .lineEnd | .hairline _ => c.last
  { c with last, extras := trivium :: c.extras }

/-- The cursor with a token in front that takes no room. -/
def fronted (lexeme : Lexeme) (c : Cursor) : Cursor :=
  { c with tokens := .empty lexeme c.last :: c.tokens, settled := true }

/-- The cursor at the token `t`, before which the trivia that are left have been
taken for something. -/
def resting (v : Verdict) (t : Token) (rest : List Token) (trivia : List Trivium)
    (c : Cursor) : Cursor :=
  let at' (trivia : List Trivium) : Cursor :=
    { c with tokens := { t with gap := { t.gap with trivia } } :: rest, settled := true }
  match v with
  | .newline => (at' trivia).fronted .newline
  | .indent depth => { (at' trivia).fronted .indent with indents := depth :: c.indents }
  | .dedent => { (at' trivia).fronted .dedent with indents := c.indents.drop 1 }
  | .blank | .pass => at' []

/-- Settles the gap before the token `t`, of which some trivia are left. Only after
a comment or continuation has been passed over is there another look, and `fresh`
tells that this is so. -/
def settle (o : Outlook) (t : Token) (rest : List Token) (fresh : Bool) (c : Cursor) :
    List Trivium → Cursor
  | [] => c.resting (if fresh then verdict o c.indentation t [] else .pass) t rest []
  | trivium :: trivia =>
    match if fresh then verdict o c.indentation t (trivium :: trivia) else .pass with
    | .pass => settle o t rest trivium.leaf?.isSome (c.passing trivium) trivia
    | v => c.resting v t rest (trivium :: trivia)

/-- **Settles the gap before the next token**, if that has not been done. -/
def look (o : Outlook) (c : Cursor) : Cursor :=
  if c.settled then c
  else
    match c.tokens with
    | [] => c
    | t :: rest => settle o t rest true c t.gap.trivia

/-- The cursor behind the next token. -/
def advance (c : Cursor) : Cursor :=
  match c.tokens with
  | [] => c
  | t :: rest => { c with tokens := rest, last := t.stop, settled := false }

end Cursor

end CallTree.Syntax.Grammar
