/-!
# A place in a document

A document is read from left to right. A cursor is a place in it: what is still to
be read, and the line and the column where that begins. Past the end there is the
character zero, which no document holds.

The text may break off where something follows that cannot be taken in. Then
nothing is known of what is past its end, and who gets there has met the problem
that lies behind.
-/

namespace CallTree.Yaml

/-- **Why a text is no document**, or not one that stands for a value. -/
inductive Problem where
  /-- It is not written as documents are. -/
  | malformed (why : String)
  /-- Something is met that was not reckoned with: a number or a date that is written
  as one and is none, or a scalar that is sought for without an end. -/
  | unusable (message : String)
  /-- A tag says that a scalar is a truth value, and it is none. -/
  | noTruthValue
  /-- A tag says that a scalar is a date, and it is not even written as one. -/
  | noDate
  /-- A tag says that a scalar is a number, and nothing is written. -/
  | noNumber
  /-- A tag says that a mapping is a date. -/
  | composedDate
  /-- An escape has a code that 31 bits do not hold. -/
  | hugeCode
deriving DecidableEq, Repr

/-- What is read, or why nothing can be. -/
abbrev Reading := Except Problem

/-- A refusal of a text. -/
def malformed {α : Type} (why : String) : Reading α := .error (.malformed why)

/-- The character past the end. -/
def pastEnd : Char := Char.ofNat 0

/-- Whether a character ends a line. -/
def isBreak (c : Char) : Bool :=
  c = '\n' || c = '\r' || c.toNat = 0x85 || c.toNat = 0x2028 || c.toNat = 0x2029

/-- Whether a character ends a line or the document. -/
def isLineEnd (c : Char) : Bool := c = pastEnd || isBreak c

/-- Whether a character separates: a blank, or the end of a line. -/
def isGap (c : Char) : Bool := c = ' ' || c = '\t' || isLineEnd c

/-- Whether a character may be part of a name. -/
def isNameChar (c : Char) : Bool := c.isAlphanum || c = '-' || c = '_'

/-- Whether a document may hold a character. -/
def isAllowed (c : Char) : Bool :=
  let n := c.toNat
  n = 0x09 || n = 0x0A || n = 0x0D || (0x20 ≤ n && n ≤ 0x7E) || n = 0x85
    || (0xA0 ≤ n && n ≤ 0xD7FF) || (0xE000 ≤ n && n ≤ 0xFFFD) || 0x10000 ≤ n

/-- **A place in a document.** -/
structure Cursor where
  rest : List Char
  index : Nat := 0
  line : Nat := 0
  column : Nat := 0
  /-- What lies behind the text, if it breaks off. -/
  behind : Option Problem := none

namespace Cursor

/-- The character some places further on. -/
def peek (c : Cursor) (n : Nat := 0) : Char := c.rest.getD n pastEnd

/-- The place after the next character. A byte-order mark takes no column. -/
def next (c : Cursor) : Cursor :=
  match c.rest with
  | [] => c
  | x :: rest =>
    let after := { c with rest := rest, index := c.index + 1 }
    if isBreak x then { after with line := c.line + 1, column := 0 }
    else if x.toNat = 0xFEFF then after
    else { after with column := c.column + 1 }

/-- The place after several characters. -/
def advance (c : Cursor) : Nat → Cursor
  | 0 => c
  | n + 1 => c.next.advance n

/-- Whether the place is still in the text, or at its end; the problem behind it if the
text breaks off here. -/
def check (c : Cursor) : Reading Unit :=
  match c.rest, c.behind with
  | [], some problem => .error problem
  | _, _ => .ok ()

/-- A refusal of the text at a place, unless it breaks off here. -/
def refuse {α : Type} (c : Cursor) (why : String) : Reading α := do
  c.check
  malformed why

/-- The characters of a class that come next, and the place after them. -/
def span (c : Cursor) (p : Char → Bool) : List Char × Cursor :=
  let taken := c.rest.takeWhile p
  (taken, c.advance taken.length)

/-- The place after the spaces that come next. -/
def skipSpaces (c : Cursor) : Cursor := (c.span (· = ' ')).2

/-- The place after a comment, if one begins here. -/
def skipComment (c : Cursor) : Cursor :=
  if c.peek = '#' then (c.span (!isBreak ·)).2 else c

/-- The line break that comes next, as it is kept, and the place after it. Nothing
if the line does not end here. -/
def lineBreak? (c : Cursor) : Option (Char × Cursor) :=
  let x := c.peek
  if isBreak x then some (if x.toNat = 0x2028 || x.toNat = 0x2029 then x else '\n', c.next)
  else none

/-- The place after the line break that comes next, if there is one. -/
def skipBreak (c : Cursor) : Cursor :=
  match c.lineBreak? with
  | some (_, after) => after
  | none => c

/-- Whether the same character comes three times, and then a gap: the mark between
two documents, if it stands at the beginning of a line. -/
def atMark (c : Cursor) (mark : Char) : Bool :=
  c.peek 0 = mark && c.peek 1 = mark && c.peek 2 = mark && isGap (c.peek 3)

/-- Whether one of the marks between two documents comes next. -/
def atDocumentMark (c : Cursor) : Bool := c.atMark '-' || c.atMark '.'

end Cursor

end CallTree.Yaml
