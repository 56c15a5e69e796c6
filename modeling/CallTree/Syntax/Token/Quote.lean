import CallTree.Syntax.Token
import CallTree.Syntax.Token.Number
import CallTree.Text.Utf8

/-!
# String literals

A string literal begins with letters that say what kind it is, and a quote. Its
content is read in pieces. A piece of plain content goes up to an escape, a brace
of a replacement field or the closing quote; an escape is a piece of its own. A
quote that is not closed on its line has no plain content there at all, and then
even in a literal without fields a brace is taken for the beginning of one.
-/

namespace CallTree.Syntax

open CallTree.Text.Utf8 (Glyph)

/-- How a string literal is quoted. -/
structure Quote where
  mark : Char
  triple : Bool
  raw : Bool
  format : Bool
  bytes : Bool
deriving DecidableEq

namespace Quote

/-- Whether a letter may stand before the opening quote. -/
def isPrefix (c : Char) : Bool :=
  "fFtTrRbBuU".toList.contains c

/-- The quote that begins here, the number of letters before it, and how many
characters it takes with them. -/
def at? (gs : List Glyph) : Option (Quote × Nat × Nat) :=
  let letters := (gs.takeWhile fun g => isPrefix g.char).map (·.char)
  let make (mark : Char) (triple : Bool) : Quote :=
    { mark, triple,
      raw := letters.any "rR".toList.contains,
      format := letters.any "fFtT".toList.contains,
      bytes := letters.any "bB".toList.contains }
  match ((gs.drop letters.length).take 3).map (·.char) with
  | a :: rest =>
    if a = '\x60' then some (make a false, letters.length, letters.length + 1)
    else if a = '"' || a = '\'' then
      if rest = [a, a] then some (make a true, letters.length, letters.length + 3)
      else some (make a false, letters.length, letters.length + 1)
    else none
  | [] => none

/-- The number of characters of the escape that begins with the backslash before
`gs`, the backslash included; nothing when no escape does. -/
def escapeLength (gs : List Glyph) : Option Nat :=
  let hex (n : Nat) (rest : List Glyph) : Option Nat :=
    let digits := (rest.take n).takeWhile fun g => Number.isHex g.char
    if digits.length = n then some (n + 2) else none
  match gs with
  | [] => none
  | c :: rest =>
    if c.char = 'u' then hex 4 rest
    else if c.char = 'U' then hex 8 rest
    else if c.char = 'x' then hex 2 rest
    else if c.char = 'N' then
      match rest with
      | b :: rest =>
        let name := rest.takeWhile (·.char ≠ '}')
        if b.char ≠ '{' || name.isEmpty || name.length = rest.length then none
        else some (name.length + 4)
      | [] => none
    else if c.char = '\r' then if (rest.head?.any (·.char = '\n')) then some 3 else none
    else if c.char.isDigit then
      some (1 + ((gs.take 3).takeWhile (·.char.isDigit)).length)
    else if "\n'\"abfrntv\\".toList.contains c.char then some 2
    else none

/-- How many characters a backslash takes with it in a raw literal: a quote or
another backslash, and the end of a line. -/
def rawEscape (q : Quote) (gs : List Glyph) : Nat :=
  let quoted := if gs.head?.any (fun g => g.char = q.mark || g.char = '\\') then 1 else 0
  match ((gs.drop quoted).take 2).map (·.char) with
  | ['\r', '\n'] => quoted + 2
  | c :: _ => if c = '\r' || c = '\n' then quoted + 1 else quoted
  | [] => quoted

/-- A piece of a literal: plain content, or the end of the literal, of so many
characters. -/
inductive Piece where
  | content (length : Nat)
  | closing (length : Nat)
deriving DecidableEq

/-- The piece that begins here, if one does. So far it has `length` characters,
`skip` of what follows belong to it already, and `held` tells that there is
content in it. -/
def piece? (q : Quote) (held : Bool) (length skip : Nat) : List Glyph → Option Piece
  | [] => none
  | g :: gs =>
    let soFar : Option Piece := if held then some (.content length) else none
    match skip with
    | k + 1 => q.piece? held (length + 1) k gs
    | 0 =>
      if q.format && (g.char = '{' || g.char = '}') then soFar
      else if g.char = '\\' then
        if q.raw then q.piece? held (length + 1) (q.rawEscape gs) gs
        else if q.bytes && gs.head?.any (fun h => "NuU".toList.contains h.char) then
          q.piece? true (length + 1) 2 gs
        else soFar
      else if g.char = q.mark then
        let isMark (i : Nat) : Bool := (gs.drop i).head?.any (·.char = q.mark)
        if q.triple then
          if isMark 0 && isMark 1 then if held then soFar else some (.closing (length + 3))
          else some (.content (length + if isMark 0 then 2 else 1))
        else if held then soFar
        else some (.closing (length + 1))
      else if g.char = '\n' && held && !q.triple then none
      else q.piece? true (length + 1) 0 gs

/-- How a stretch of content ends. -/
inductive ContentEnd where
  /-- With the end of the literal, of so many characters. -/
  | closing (length : Nat)
  | field
  /-- With a brace that closes nothing, the end of the line or of the file. -/
  | broken
deriving DecidableEq

/-- What follows the blanks here. -/
def afterBlanks (gs : List Glyph) : List Glyph :=
  gs.dropWhile fun g => " \t\r\n\x0c".toList.contains g.char

/-- **Reads a stretch of content**: the escapes in it, how it ends and what
follows. `skip` characters belong to a piece already read, and the file ends at `fileEnd`. -/
def content (fileEnd : Nat) (q : Quote) (skip : Nat) :
    List Glyph → List (Kind × Span) × ContentEnd × List Glyph
  | [] => ([], .broken, [])
  | g :: gs =>
    let escape (kind : Kind) (n : Nat) : Kind × Span :=
      let stop := ((gs.drop (n - 1)).head?.map (·.offset)).getD fileEnd
      (kind, ⟨g.offset, stop, g.row⟩)
    match skip with
    | k + 1 => content fileEnd q k gs
    | 0 =>
      if q.format && (g.char = '{' || g.char = '}') then
        if gs.head?.any (·.char = g.char) then
          let (escapes, ending, rest) := content fileEnd q 1 gs
          (escape .escapeInterpolation 2 :: escapes, ending, rest)
        else ([], if g.char = '{' then .field else .broken, g :: gs)
      else
        match q.piece? false 0 0 (g :: gs) with
        | some (.content n) => content fileEnd q (n - 1) gs
        | some (.closing n) => ([], .closing n, g :: gs)
        | none =>
          if g.char = '\\' then
            match escapeLength gs with
            | some n =>
              let (escapes, ending, rest) := content fileEnd q (n - 1) gs
              (escape .escapeSequence n :: escapes, ending, rest)
            | none => content fileEnd q 0 gs
          else if (afterBlanks (g :: gs)).head?.any (·.char = '{') then
            ([], .field, g :: gs)
          else ([], .broken, g :: gs)

end Quote

end CallTree.Syntax
