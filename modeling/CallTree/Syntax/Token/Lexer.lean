import CallTree.Syntax.Source
import CallTree.Syntax.Token.Quote
import CallTree.Text.Blank
import CallTree.Text.Identifier

/-!
# Cutting a source into tokens

The lexer goes through the characters once. What a character means depends on
where it stands, which a stack of contexts records: inside a string everything
but its quote and its fields is content, inside a field there is code again, and
inside brackets there a colon does not end the field's expression.

Between tokens the lexer gathers the gap: comments, continuations and ends of
lines, and how far the current line is indented. A tab counts as eight blanks. A
continuation does not begin a line, so the blanks on both sides of it count as
one indentation.
-/

namespace CallTree.Syntax.Lexer

open CallTree.Text (isHairline isIdentifierStart isIdentifierPart)
open CallTree.Text.Utf8 (Glyph)

/-- Where the lexer stands. -/
inductive Context where
  | bracket
  /-- Inside a replacement field, after `seen` tokens of it, with `lambdas`
  functions whose colon has not come yet. -/
  | field (seen lambdas : Nat)
  /-- Inside the format specification of a field. -/
  | specification
  | literal (quote : Quote)
deriving DecidableEq

/-- What the lexer remembers: its contexts, innermost first, the gap since the
last token, latest first, and the last token. -/
structure State where
  contexts : List Context
  trivia : List Trivium
  indentation : Nat
  previous : Option Token

/-- The start of a file. -/
def State.initial : State := ⟨[], [], 0, none⟩

/-- The next character. -/
def nextChar? (gs : List Glyph) : Option Char := gs.head?.map (·.char)

/-- Where the characters begin, which is the end of the file when there are
none left. -/
def placeOf (fileEnd : Place) : List Glyph → Place
  | [] => fileEnd
  | g :: _ => ⟨g.offset, g.row⟩

/-- The gap since the last token. -/
def State.gap (st : State) : Gap := ⟨st.trivia.reverse, st.indentation⟩

/-- Whether a blank without width stands between here and what came last. No string
begins behind one. -/
def State.isHidden (st : State) : Bool :=
  (st.trivia.takeWhile (·.leaf?.isNone)).any fun trivium =>
    match trivium with
    | .hairline _ => true
    | _ => false

/-- The state after a token. -/
def State.after (st : State) (t : Token) : State :=
  let contexts :=
    match st.contexts with
    | .field seen lambdas :: rest =>
      let lambdas :=
        if t.isWord "lambda" then lambdas + 1
        else if t.isMark ":" then lambdas - 1
        else lambdas
      .field (seen + 1) lambdas :: rest
    | contexts => contexts
  ⟨contexts, [], 0, some t⟩

/-- The state after something in a gap. -/
def State.passing (st : State) (trivium : Trivium) (indentation : Nat) : State :=
  { st with trivia := trivium :: st.trivia, indentation }

/-- The operators, longest first. -/
def operators : List String :=
  ["**=", "//=", ">>=", "<<=", "...", "**", "//", ">>", "<<", "<=", ">=", "==", "!=", "->",
   "+=", "-=", "*=", "/=", "%=", "&=", "|=", "^=", "@=", ":=", "<>", "+", "-", "*", "/", "%",
   "@", "&", "|", "^", "~", "<", ">", "(", ")", "[", "]", "\x7b", "\x7d", ",", ":", ".", ";", "="]

/-- The operator that begins here. -/
def operatorAt (gs : List Glyph) : Option String :=
  let cs := (gs.take 3).map (·.char)
  operators.find? fun op => op.toList.isPrefixOf cs

/-! ## The scan -/

/-- What one step of the scan gives: the tokens found, the state after them and
the characters that are left. -/
structure Step where
  tokens : List Token
  state : State
  rest : List Glyph

/-- Reads one token of the characters before `rest`. -/
def takeTo (fileEnd : Place) (st : State) (lexeme : Lexeme) (gs rest : List Glyph) : Step :=
  let stop := placeOf fileEnd rest
  let t : Token := ⟨lexeme, (placeOf fileEnd gs).to stop, stop.row, st.gap⟩
  ⟨[t], st.after t, rest⟩

/-- Reads one token of `n` characters. -/
def take (fileEnd : Place) (st : State) (lexeme : Lexeme) (n : Nat) (gs : List Glyph) : Step :=
  takeTo fileEnd st lexeme gs (gs.drop n)

/-- The step with other contexts in its state. -/
def Step.within (contexts : List Context) (s : Step) : Step :=
  { s with state := { s.state with contexts } }

/-- The number of characters of a continuation: a backslash at the end of its line
or of the file. -/
def continuationLength (gs : List Glyph) : Option Nat :=
  match ((gs.drop 1).take 2).map (·.char) with
  | [] => some 1
  | ['\r', '\n'] => some 3
  | c :: _ => if c = '\n' then some 2 else none

/-- One step inside a string literal. -/
def literalStep (fileEnd : Place) (st : State) (q : Quote) (outer : List Context)
    (gs : List Glyph) : Step :=
  let (escapes, ending, rest) := q.content fileEnd.offset 0 gs
  let content : Step :=
    if placeOf fileEnd gs = placeOf fileEnd rest then ⟨[], st, gs⟩
    else takeTo fileEnd st (.stringContent escapes) gs rest
  let last : Step :=
    match ending with
    | .closing n => (take fileEnd content.state .stringEnd n rest).within outer
    | .field =>
      (take fileEnd content.state (.mark "\x7b") 1 (Quote.afterBlanks rest)).within
        (.field 0 0 :: st.contexts)
    | .broken => (take fileEnd content.state .stray 0 rest).within outer
  { last with tokens := content.tokens ++ last.tokens }

/-- One step inside a format specification. -/
def specificationStep (fileEnd : Place) (st : State) (outer : List Context)
    (g : Glyph) (gs : List Glyph) : Step :=
  if g.char = '{' then
    (take fileEnd st (.mark "\x7b") 1 (g :: gs)).within (.field 0 0 :: st.contexts)
  else if g.char = '}' then (take fileEnd st (.mark "\x7d") 1 (g :: gs)).within outer
  else if g.char = '\n' then ⟨[], st, gs⟩
  else
    let plain := (g :: gs).takeWhile fun h => h.char ≠ '{' && h.char ≠ '}' && h.char ≠ '\n'
    take fileEnd st .formatText plain.length (g :: gs)

/-- An operator or a bracket, or a character that begins nothing. -/
def operatorStep (fileEnd : Place) (st : State) (gs : List Glyph) : Step :=
  match operatorAt gs with
  | none => take fileEnd st .stray 1 gs
  | some op =>
    let s := take fileEnd st (.mark op) op.length gs
    if op = "(" || op = "[" || op = "\x7b" then s.within (.bracket :: s.state.contexts)
    else if op = ")" || op = "]" || op = "\x7d" then
      match s.state.contexts with
      | .bracket :: outer => s.within outer
      | _ => s
    else s

/-- One step at the first character of a token in code. -/
def codeStep (fileEnd : Place) (st : State) (g : Glyph) (gs : List Glyph) : Step :=
  let all := g :: gs
  let c := g.char
  match Quote.at? all with
  | some (q, letters, n) =>
    if st.isHidden then take fileEnd st .stray 1 all
    else (take fileEnd st (.stringStart (letters = 0)) n all).within (.literal q :: st.contexts)
  | none =>
    if isIdentifierStart c then
      let word := (all.takeWhile fun h => isIdentifierPart h.char).map (·.char)
      take fileEnd st (.word (String.ofList word)) word.length all
    else if c.isDigit || (c = '.' && (nextChar? gs).any Char.isDigit) then
      let isNumeric (d : Char) : Bool := d.isAlphanum || "_.+-".toList.contains d
      let (n, isFloat) :=
        Number.length ((all.takeWhile fun h => isNumeric h.char).map (·.char))
      take fileEnd st (if isFloat then .float else .integer) n all
    else
      match st.contexts with
      | .field seen lambdas :: outer =>
        if c = '}' then (take fileEnd st (.mark "\x7d") 1 all).within outer
        else if c = '!' && (nextChar? gs).any (fun d => 'a' ≤ d && d ≤ 'z') then
          take fileEnd st .conversion 2 all
        else if c = ':' && lambdas = 0
            && !(seen = 1 && st.previous.any Token.isIdentifier && nextChar? gs = some '=') then
          (take fileEnd st (.mark ":") 1 all).within (.specification :: outer)
        else operatorStep fileEnd st all
      | _ => operatorStep fileEnd st all

/-- One step of the scan, which takes at least one character, except at the end of
a string that is not closed. -/
def step (fileEnd : Place) (st : State) (g : Glyph) (gs : List Glyph) : Step :=
  match st.contexts with
  | .literal q :: outer => literalStep fileEnd st q outer (g :: gs)
  | .specification :: outer => specificationStep fileEnd st outer g gs
  | _ =>
    let c := g.char
    let here := placeOf fileEnd (g :: gs)
    if c = ' ' then ⟨[], { st with indentation := st.indentation + 1 }, gs⟩
    else if c = '\t' then ⟨[], { st with indentation := st.indentation + 8 }, gs⟩
    else if c = '\r' || c = '\x0c' then ⟨[], { st with indentation := 0 }, gs⟩
    else if c = '\n' then ⟨[], st.passing .lineEnd 0, gs⟩
    else if isHairline c && g.offset = 0 then ⟨[], st, gs⟩
    else if isHairline c then ⟨[], st.passing (.hairline st.indentation) st.indentation, gs⟩
    else if c = '#' then
      let rest := (g :: gs).dropWhile (·.char ≠ '\n')
      let span := here.to (placeOf fileEnd rest)
      ⟨[], st.passing (.comment st.indentation span) 0, rest⟩
    else if c = '\\' then
      match continuationLength (g :: gs) with
      | some n =>
        let rest := (g :: gs).drop n
        let stop := placeOf fileEnd rest
        ⟨[], st.passing (.continuation (here.to stop) stop) st.indentation, rest⟩
      | none => take fileEnd st .stray 1 (g :: gs)
    else codeStep fileEnd st g gs

/-- Scans with a bound on the number of steps. -/
def scan (fileEnd : Place) : Nat → State → List Glyph → List Token
  | 0, st, _ => [⟨.endOfFile, fileEnd.to fileEnd, fileEnd.row, st.gap⟩]
  | _ + 1, st, [] => [⟨.endOfFile, fileEnd.to fileEnd, fileEnd.row, st.gap⟩]
  | fuel + 1, st, g :: gs =>
    let s := step fileEnd st g gs
    s.tokens ++ scan fileEnd fuel s.state s.rest

end Lexer

/-- **The tokens of a source**, the end of the file last. Two steps for each
character are enough, since a step takes a character or leaves a string. -/
def Source.tokens (src : Source) : List Token :=
  let glyphs := src.glyphs
  let rows := glyphs.foldl (fun n g => if g.char = '\n' then n + 1 else n) 0
  Lexer.scan ⟨src.bytes.size, rows⟩ (2 * glyphs.length + 2) .initial glyphs

end CallTree.Syntax
