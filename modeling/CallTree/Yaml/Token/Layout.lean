import CallTree.Yaml.Token.Name

/-!
# The layout of a document

Blocks are not closed by brackets but by the indentation of what follows, and a
key is only known to be one when the colon behind it is reached. So the tokens of
a document come with two pieces of bookkeeping: the columns at which the open
blocks began, and, for each level of brackets, the place where a key may have
begun. When the colon comes, the token for the key is put in at that place; if
the line ends first, the place is given up.

A place at the very column of the open block *must* be a key, since nothing else
can stand there.

The tokens are handed over one by one, and each of them as soon as no token can be
put in before it any more. So a problem does not take back the tokens before it:
who stops at one of them never gets to know of the problem.
-/

namespace CallTree.Yaml

/-- A place where a key may have begun. -/
structure KeyPlace where
  /-- The number of tokens before it. -/
  position : Nat
  /-- Whether something is wrong unless it is a key. -/
  isRequired : Bool
  index : Nat
  line : Nat
  column : Nat

/-- **The reading of a document so far.** -/
structure Layout where
  cursor : Cursor
  tokens : List Token := []
  /-- The number of open brackets. -/
  brackets : Nat := 0
  /-- The column at which the innermost open block began. -/
  indent : Int := -1
  /-- The columns of the blocks around it. -/
  outer : List Int := []
  /-- Whether a key may begin here. -/
  mayBeKey : Bool := true
  /-- The places where keys may have begun, by the number of brackets around them. -/
  places : List (Nat × KeyPlace) := []

namespace Layout

/-- The layout with one more token. -/
def emit (l : Layout) (token : Token) : Layout := { l with tokens := l.tokens ++ [token] }

/-- The layout with a token put in at a place. -/
def emitAt (l : Layout) (position : Nat) (token : Token) : Layout :=
  { l with tokens := l.tokens.take position ++ token :: l.tokens.drop position }

/-- The layout some characters further on. -/
def advance (l : Layout) (n : Nat := 1) : Layout := { l with cursor := l.cursor.advance n }

/-! ## Places of keys -/

/-- A key can be no longer than this. -/
def longestKey : Nat := 1024

/-- The places are given up that cannot be keys any more: a key ends on the line
where it began. -/
def forgetStale (l : Layout) : Reading Layout :=
  let isStale (p : KeyPlace) : Bool :=
    p.line ≠ l.cursor.line || longestKey < l.cursor.index - p.index
  if l.places.any fun (_, p) => isStale p && p.isRequired then malformed "a key without a colon"
  else .ok { l with places := l.places.filter fun (_, p) => !isStale p }

/-- The place on this level of brackets is given up. -/
def forgetPlace (l : Layout) : Reading Layout :=
  if l.places.any fun (level, p) => level = l.brackets && p.isRequired then
    malformed "a key without a colon"
  else .ok { l with places := l.places.filter fun (level, _) => level ≠ l.brackets }

/-- The place where the next token begins is kept, if a key may begin there. -/
def keepPlace (l : Layout) : Reading Layout :=
  if l.mayBeKey then do
    let isRequired := l.brackets = 0 && l.indent = l.cursor.column
    let l ← l.forgetPlace
    let place : KeyPlace := ⟨l.tokens.length, isRequired, l.cursor.index, l.cursor.line,
      l.cursor.column⟩
    return { l with places := (l.brackets, place) :: l.places }
  else .ok l

/-! ## Blocks -/

/-- The blocks are closed that began further right than a column. -/
def unwind (column : Int) (l : Layout) : Layout :=
  if l.brackets ≠ 0 then l else close l.outer l
where
  /-- Closes the innermost block and those of the given columns around it. -/
  close : List Int → Layout → Layout
    | [], l => l
    | around :: outer, l =>
      if column < l.indent then
        close outer ({ l with indent := around, outer := outer }.emit .blockEnd)
      else l

/-- A block is opened at a column, unless one is open there; and whether it was. -/
def openBlock (column : Nat) (l : Layout) : Bool × Layout :=
  if l.indent < column then (true, { l with outer := l.indent :: l.outer, indent := column })
  else (false, l)

/-- A block is opened here, if there is none, with its token. -/
def beginBlock (token : Token) (l : Layout) : Layout :=
  match l.openBlock l.cursor.column with
  | (true, l) => l.emit token
  | (false, l) => l

/-! ## Tokens -/

/-- A mark of the document or a directive comes: all blocks are closed. -/
def endBlocks (l : Layout) : Reading Layout := do
  let l ← (l.unwind (-1)).forgetPlace
  return { l with mayBeKey := false }

/-- A token of brackets opens. -/
def openBracket (token : Token) (l : Layout) : Reading Layout := do
  let l ← l.keepPlace
  return ({ l with brackets := l.brackets + 1, mayBeKey := true }.emit token).advance

/-- A token of brackets closes. -/
def closeBracket (token : Token) (l : Layout) : Reading Layout := do
  if l.brackets = 0 then malformed "a closing bracket without an opening one"
  let l ← l.forgetPlace
  return ({ l with brackets := l.brackets - 1, mayBeKey := false }.emit token).advance

/-- A comma between brackets. -/
def flowEntry (l : Layout) : Reading Layout := do
  let l ← l.forgetPlace
  return ({ l with mayBeKey := true }.emit .flowEntry).advance

/-- A dash before an item. -/
def blockEntry (l : Layout) : Reading Layout := do
  if l.brackets = 0 && !l.mayBeKey then malformed "an item where none can be"
  let l := if l.brackets = 0 then l.beginBlock .blockSequenceStart else l
  let l ← { l with mayBeKey := true }.forgetPlace
  return (l.emit .blockEntry).advance

/-- A question mark before a key. -/
def explicitKey (l : Layout) : Reading Layout := do
  if l.brackets = 0 && !l.mayBeKey then malformed "a key where none can be"
  let l := if l.brackets = 0 then l.beginBlock .blockMappingStart else l
  let l ← { l with mayBeKey := l.brackets = 0 }.forgetPlace
  return (l.emit .key).advance

/-- A colon behind a key. The token for the key is put in where the key began, and
the token for its block, if that begins with it, before that. -/
def keyValue (l : Layout) : Reading Layout := do
  match l.places.find? (·.1 = l.brackets) with
  | some (_, place) =>
    let l := { l with places := l.places.filter (·.1 ≠ l.brackets), mayBeKey := false }
    let l := l.emitAt place.position .key
    let l :=
      if l.brackets = 0 then
        match l.openBlock place.column with
        | (true, l) => l.emitAt place.position .blockMappingStart
        | (false, l) => l
      else l
    return (l.emit .value).advance
  | none =>
    if l.brackets = 0 && !l.mayBeKey then malformed "a value where none can be"
    let l := if l.brackets = 0 then l.beginBlock .blockMappingStart else l
    let l ← { l with mayBeKey := l.brackets = 0 }.forgetPlace
    return (l.emit .value).advance

/-- A token that may be the beginning of a key, read by `read`. -/
def leaf (read : Cursor → Reading (Token × Cursor)) (l : Layout) : Reading Layout := do
  let l ← l.keepPlace
  let (token, cursor) ← read l.cursor
  return { l with mayBeKey := false, cursor := cursor }.emit token

/-- A plain scalar. After the end of a line a key may begin. -/
def plain (l : Layout) : Reading Layout := do
  let l ← l.keepPlace
  let (text, cursor, ended) := plainScalar (l.brackets ≠ 0) (l.indent + 1) l.cursor
  return { l with mayBeKey := ended, cursor := cursor }.emit (.scalar text true)

/-- A literal or folded block. -/
def block (l : Layout) : Reading Layout := do
  let l ← { l with mayBeKey := true }.forgetPlace
  let (text, cursor) ← blockScalar l.indent l.cursor
  return { l with cursor := cursor }.emit (.scalar text false)

/-- The place where the next token begins: blanks, comments and ends of lines are
passed over. Outside brackets, a key may begin on a new line. -/
def skipGap : (fuel : Nat) → Layout → Layout
  | 0, l => l
  | fuel + 1, l =>
    let cursor := l.cursor.skipSpaces.skipComment
    match cursor.lineBreak? with
    | some (_, cursor) =>
      skipGap fuel { l with cursor := cursor, mayBeKey := l.mayBeKey || l.brackets = 0 }
    | none => { l with cursor := cursor }

/-- Whether a plain scalar begins with the next character. -/
def startsPlain (l : Layout) : Bool :=
  let x := l.cursor.peek
  !(isGap x || "-?:,[]\x7b\x7d#&*!|>'\"%@`".toList.contains x)
    || (!isGap (l.cursor.peek 1) && (x = '-' || (l.brackets = 0 && (x = '?' || x = ':'))))

/-- **The next token**, with those that the layout brings; and whether the document
has ended. -/
def step (l : Layout) : Reading (Layout × Bool) := do
  let l := l.skipGap (l.cursor.rest.length + 1)
  l.cursor.check
  let l ← l.forgetStale
  let l := l.unwind l.cursor.column
  let x := l.cursor.peek
  let gap := isGap (l.cursor.peek 1)
  let atStart := l.cursor.column = 0
  let more (r : Reading Layout) : Reading (Layout × Bool) := do
    let l ← r
    l.cursor.check
    return (l, false)
  if x = pastEnd then return (← l.endBlocks, true)
  else if x = '%' && atStart then more <| do
    let l ← l.endBlocks
    let (token, cursor) ← directiveToken l.cursor
    return { l with cursor := cursor }.emit token
  else if atStart && l.cursor.atMark '-' then more <| do
    return ((← l.endBlocks).emit .documentStart).advance 3
  else if atStart && l.cursor.atMark '.' then more <| do
    return ((← l.endBlocks).emit .documentEnd).advance 3
  else if x = '[' then more (l.openBracket .flowSequenceStart)
  else if x = '\x7b' then more (l.openBracket .flowMappingStart)
  else if x = ']' then more (l.closeBracket .flowSequenceEnd)
  else if x = '\x7d' then more (l.closeBracket .flowMappingEnd)
  else if x = ',' then more l.flowEntry
  else if x = '-' && gap then more l.blockEntry
  else if x = '?' && (l.brackets ≠ 0 || gap) then more l.explicitKey
  else if x = ':' && (l.brackets ≠ 0 || gap) then more l.keyValue
  else if x = '*' then more (l.leaf fun c => (anchorName c).map fun (n, c) => (.reference n, c))
  else if x = '&' then more (l.leaf fun c => (anchorName c).map fun (n, c) => (.anchor n, c))
  else if x = '!' then more (l.leaf tagToken)
  else if (x = '|' || x = '>') && l.brackets = 0 then more l.block
  else if x = '\'' || x = '"' then
    more (l.leaf fun c => (quotedScalar c).map fun (t, c) => (.scalar t false, c))
  else if l.startsPlain then more l.plain
  else malformed "a character that begins nothing"

/-- The tokens before which none can be put in any more. -/
def settled (l : Layout) : List Token :=
  let places := match l.forgetStale with
    | .ok l => l.places
    | .error _ => l.places
  l.tokens.take (places.foldl (fun n (_, p) => min n p.position) l.tokens.length)

end Layout

/-- **What is handed over of a document**: tokens, and the problem that is met behind
them, if there is one. -/
structure Scanned where
  tokens : List Token
  problem : Option Problem := none

/-- The tokens of a document from here on. -/
def Layout.run : (fuel : Nat) → Layout → Scanned
  | 0, l => ⟨l.settled, some (.malformed "a document without an end")⟩
  | fuel + 1, l =>
    match l.step with
    | .error problem => ⟨l.settled, problem⟩
    | .ok (after, true) => ⟨after.tokens, none⟩
    | .ok (after, false) => run fuel after

/-- Characters are taken in by so many, and by twice as many at the beginning. -/
def portion : Nat := 4096

/-- How many characters are taken in before those that follow the first `n`. -/
def takenBefore (n : Nat) : Nat := if n < 2 * portion then 0 else n / portion * portion

/-- **The tokens of a document**, whose text may break off. A byte-order mark at the
beginning is passed over. The text ends with the portion before the first character
that no document holds. -/
def tokens (text : List Char) (behind : Option Problem) : Scanned :=
  let n := (text.takeWhile isAllowed).length
  let start : Cursor :=
    if n < text.length then
      { rest := text.take (takenBefore n)
        behind := some (.malformed "a character that no document holds") }
    else { rest := text, behind := behind }
  let cursor := if start.peek.toNat = 0xFEFF then start.next else start
  Layout.run (text.length + 2) { cursor := cursor }

end CallTree.Yaml
