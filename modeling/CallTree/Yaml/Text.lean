import CallTree.Yaml.Cursor

/-!
# The text of a scalar

A scalar is written plainly, in quotes, or as a block. All of them may go over
several lines. A single break between two lines of a plain or quoted scalar is a
space, and every further break is kept; so it is in a folded block, except around
lines that are indented further. A literal block keeps its breaks.
-/

namespace CallTree.Yaml

/-! ## Plain scalars -/

/-- The number of characters of a plain scalar that come next on the line. A colon
before a gap ends it, and inside brackets punctuation does. -/
def plainLength (inFlow : Bool) : List Char → Nat
  | [] => 0
  | c :: cs =>
    let after := cs.headD pastEnd
    if isGap c || (c = ':' && (isGap after || (inFlow && ",[]\x7b\x7d".toList.contains after)))
        || (inFlow && ",?[]\x7b\x7d".toList.contains c) then 0
    else plainLength inFlow cs + 1

/-- The breaks after the first one that come next, with the spaces between them.
Nothing if a mark between documents comes first. -/
def plainBreaks : (fuel : Nat) → Cursor → Option (List Char) × Cursor
  | 0, c => (some [], c)
  | fuel + 1, c =>
    if c.peek = ' ' then plainBreaks fuel c.next
    else
      match c.lineBreak? with
      | none => (some [], c)
      | some (b, c) =>
        if c.atDocumentMark then (none, c)
        else
          let (more, c) := plainBreaks fuel c
          (more.map (b :: ·), c)

/-- What separates two pieces of a scalar when a line ends between them. -/
def foldedBreaks (first : Char) (more : List Char) : List Char :=
  if first ≠ '\n' then first :: more else if more.isEmpty then [' '] else more

/-- The space after a piece of a plain scalar: what it stands for if the scalar goes
on, the place after it, and whether a line ended. -/
def plainSpace (c : Cursor) : List Char × Cursor × Bool :=
  let (spaces, c) := c.span (· = ' ')
  match c.lineBreak? with
  | none => (spaces, c, false)
  | some (first, c) =>
    if c.atDocumentMark then ([], c, true)
    else
      match plainBreaks (c.rest.length + 1) c with
      | (some more, c) => (foldedBreaks first more, c, true)
      | (none, c) => ([], c, true)

/-- The pieces of a plain scalar that come next, after what separates them from the
ones before. -/
def plainPieces (inFlow : Bool) (indent : Int) :
    (fuel : Nat) → List Char → Cursor → Bool → List Char × Cursor × Bool
  | 0, _, c, ended => ([], c, ended)
  | fuel + 1, space, c, ended =>
    let length := if c.peek = '#' then 0 else plainLength inFlow c.rest
    if length = 0 then ([], c, ended)
    else
      let piece := c.rest.take length
      let (nextSpace, c, ended) := plainSpace (c.advance length)
      if nextSpace.isEmpty || c.peek = '#' || (!inFlow && c.column < indent) then
        (space ++ piece, c, ended)
      else
        let (more, c, ended) := plainPieces inFlow indent fuel nextSpace c ended
        (space ++ piece ++ more, c, ended)

/-- **A plain scalar**: its text, the place after it, and whether a line ended after
its last piece. -/
def plainScalar (inFlow : Bool) (indent : Int) (c : Cursor) : String × Cursor × Bool :=
  let (text, c, ended) := plainPieces inFlow indent (c.rest.length + 1) [] c false
  (String.ofList text, c, ended)

/-! ## Quoted scalars -/

/-- What a character stands for after a backslash. -/
def escaped? : Char → Option Char
  | '0' => some (Char.ofNat 0)
  | 'a' => some (Char.ofNat 7)
  | 'b' => some (Char.ofNat 8)
  | 't' => some '\t'
  | '\t' => some '\t'
  | 'n' => some '\n'
  | 'v' => some (Char.ofNat 11)
  | 'f' => some (Char.ofNat 12)
  | 'r' => some '\r'
  | 'e' => some (Char.ofNat 27)
  | ' ' => some ' '
  | '"' => some '"'
  | '\\' => some '\\'
  | '/' => some '/'
  | 'N' => some (Char.ofNat 0x85)
  | '_' => some (Char.ofNat 0xA0)
  | 'L' => some (Char.ofNat 0x2028)
  | 'P' => some (Char.ofNat 0x2029)
  | _ => none

/-- The number of hexadecimal digits after a backslash and a letter. -/
def codeLength? : Char → Option Nat
  | 'x' => some 2
  | 'u' => some 4
  | 'U' => some 8
  | _ => none

/-- The value of a hexadecimal digit. -/
def hexValue? (c : Char) : Option Nat :=
  if c.isDigit then some (c.toNat - '0'.toNat)
  else if 'a' ≤ c && c ≤ 'f' then some (c.toNat - 'a'.toNat + 10)
  else if 'A' ≤ c && c ≤ 'F' then some (c.toNat - 'A'.toNat + 10)
  else none

/-- The number that hexadecimal digits stand for. -/
def hexNumber? (cs : List Char) : Option Nat :=
  cs.foldlM (fun n c => (hexValue? c).map (n * 16 + ·)) 0

/-- The breaks inside a quoted scalar, after the first one, with the blanks around
them. -/
def quotedBreaks : (fuel : Nat) → Cursor → Reading (List Char × Cursor)
  | 0, c => .ok ([], c)
  | fuel + 1, c =>
    if c.atDocumentMark then c.refuse "a mark between documents inside quotes"
    else
      let c := (c.span fun x => x = ' ' || x = '\t').2
      match c.lineBreak? with
      | none => .ok ([], c)
      | some (b, c) => do
        let (more, c) ← quotedBreaks fuel c
        return (b :: more, c)

/-- The blanks and breaks that come next inside quotes. -/
def quotedSpace (c : Cursor) : Reading (List Char × Cursor) :=
  let (blanks, c) := c.span fun x => x = ' ' || x = '\t'
  if c.peek = pastEnd then c.refuse "quotes that are never closed"
  else
    match c.lineBreak? with
    | none => .ok (blanks, c)
    | some (first, c) => do
      let (more, c) ← quotedBreaks (c.rest.length + 1) c
      return (foldedBreaks first more, c)

/-- The code of an escape, from the letter after the backslash on. -/
def code? (c : Cursor) : Option (Nat × Cursor) := do
  let n ← codeLength? c.peek
  let digits := c.next.rest.take n
  guard (digits.length = n)
  return (← hexNumber? digits, c.advance (n + 1))

/-- Whether a code is the first half of a character. -/
def isFirstHalf (code : Nat) : Bool := 0xD800 ≤ code && code < 0xDC00

/-- Whether a code is the second half of a character. -/
def isSecondHalf (code : Nat) : Bool := 0xDC00 ≤ code && code < 0xE000

/-- The character of a code, which the escape of its second half may follow. Half a
character alone is shown as one that is missing. -/
def codedChar (code : Nat) (c : Cursor) : Char × Cursor :=
  let second := if c.peek = '\\' then code? c.next else none
  match second with
  | some (low, after) =>
    if isFirstHalf code && isSecondHalf low then
      (Char.ofNat (0x10000 + (code - 0xD800) * 0x400 + (low - 0xDC00)), after)
    else (single, c)
  | none => (single, c)
where
  /-- The character of the code alone. -/
  single : Char :=
    Char.ofNat (if isFirstHalf code || isSecondHalf code then 0xFFFD else code)

/-- What an escape stands for, from the character after the backslash on. -/
def escape (c : Cursor) : Reading (List Char × Cursor) :=
  let x := c.peek
  match escaped? x, codeLength? x with
  | some y, _ => .ok ([y], c.next)
  | none, some n =>
    match code? c with
    | some (code, c) =>
      if 0x7FFFFFFF < code then .error .hugeCode
      else if 0x10FFFF < code then .error (.unusable "chr() arg not in range(0x110000)")
      else
        let (y, c) := codedChar code c
        .ok ([y], c)
    | none => (c.advance (n + 1)).refuse "an escape without a code"
  | none, none =>
    match c.lineBreak? with
    | some (_, c) => quotedBreaks (c.rest.length + 1) c
    | none => c.refuse "an escape that is not known"

/-- The rest of a quoted scalar, up to the closing quote and past it. -/
def quotedRest (quote : Char) : (fuel : Nat) → Cursor → Reading (List Char × Cursor)
  | 0, c => c.refuse "quotes that are never closed"
  | fuel + 1, c =>
    let x := c.peek
    if x = quote then
      if quote = '\'' && c.peek 1 = '\'' then do
        let (more, c) ← quotedRest quote fuel (c.advance 2)
        return ('\'' :: more, c)
      else .ok ([], c.next)
    else if x = '\\' && quote = '"' then do
      let (piece, c) ← escape c.next
      let (more, c) ← quotedRest quote fuel c
      return (piece ++ more, c)
    else if isGap x then do
      let (piece, c) ← quotedSpace c
      let (more, c) ← quotedRest quote fuel c
      return (piece ++ more, c)
    else do
      let (more, c) ← quotedRest quote fuel c.next
      return (x :: more, c)

/-- **A quoted scalar**, from its opening quote on. -/
def quotedScalar (c : Cursor) : Reading (String × Cursor) := do
  let (text, c) ← quotedRest c.peek (c.rest.length + 1) c.next
  return (String.ofList text, c)

/-! ## Blocks -/

/-- What is done with the breaks at the end of a block. -/
inductive Chomping where
  | strip
  | clip
  | keep
deriving DecidableEq, Repr

/-- A digit for the indentation of a block. -/
def indentDigit (c : Cursor) : Reading (Option Nat × Cursor) :=
  let x := c.peek
  if x = '0' then c.refuse "an indentation of zero"
  else if x.isDigit then .ok (some (x.toNat - '0'.toNat), c.next)
  else .ok (none, c)

/-- A sign for the breaks at the end of a block. -/
def chompingSign (c : Cursor) : Option Chomping × Cursor :=
  if c.peek = '+' then (some .keep, c.next)
  else if c.peek = '-' then (some .strip, c.next)
  else (none, c)

/-- What stands behind the mark of a block: the sign and the digit, in any order. -/
def blockHeader (c : Cursor) : Reading (Chomping × Option Nat × Cursor) := do
  let (sign, c) := chompingSign c
  let (digit, c) ← indentDigit c
  let (sign, c) := match sign with
    | some s => (some s, c)
    | none => if digit.isSome then chompingSign c else (none, c)
  if c.peek = ' ' || isLineEnd c.peek then return (sign.getD .clip, digit, c)
  else c.refuse "something behind the mark of a block"

/-- The rest of a line on which nothing more may stand. -/
def blankLine (c : Cursor) : Reading Cursor :=
  let c := c.skipSpaces.skipComment
  if isLineEnd c.peek then .ok c.skipBreak else c.refuse "something that does not belong here"

/-- The breaks before the first line of a block, and the furthest column that the
spaces among them reach. -/
def leadingBreaks : (fuel : Nat) → Nat → Cursor → List Char × Nat × Cursor
  | 0, furthest, c => ([], furthest, c)
  | fuel + 1, furthest, c =>
    if c.peek = ' ' then leadingBreaks fuel (max furthest c.next.column) c.next
    else
      match c.lineBreak? with
      | none => ([], furthest, c)
      | some (b, c) =>
        let (more, furthest, c) := leadingBreaks fuel furthest c
        (b :: more, furthest, c)

/-- The place after the spaces that come next, up to a column. -/
def skipIndent (indent : Int) : (fuel : Nat) → Cursor → Cursor
  | 0, c => c
  | fuel + 1, c =>
    if c.column < indent && c.peek = ' ' then skipIndent indent fuel c.next else c

/-- The breaks between two lines of a block. -/
def blockBreaks (indent : Int) : (fuel : Nat) → Cursor → List Char × Cursor
  | 0, c => ([], c)
  | fuel + 1, c =>
    let c := skipIndent indent (c.rest.length + 1) c
    match c.lineBreak? with
    | none => ([], c)
    | some (b, c) =>
      let (more, c) := blockBreaks indent fuel c
      (b :: more, c)

/-- The lines of a block from here on, with the breaks before them. -/
def blockLines (folded : Bool) (chomping : Chomping) (indent : Int) :
    (fuel : Nat) → List Char → Cursor → List Char × Cursor
  | 0, _, c => ([], c)
  | fuel + 1, breaks, c =>
    let isIndented (c : Cursor) : Bool := c.peek = ' ' || c.peek = '\t'
    let atLine (c : Cursor) : Bool := c.column = indent && c.peek ≠ pastEnd
    if !atLine c then
      (if chomping = .keep then breaks else [], c)
    else
      let flush := !isIndented c
      let (text, c) := c.span (!isBreak ·)
      let (ending, c) : List Char × Cursor := match c.lineBreak? with
        | some (b, c) => ([b], c)
        | none => ([], c)
      let (after, c) := blockBreaks indent (c.rest.length + 1) c
      if atLine c then
        let joint :=
          if folded && ending = ['\n'] && flush && !isIndented c then
            if after.isEmpty then [' '] else []
          else ending
        let (more, c) := blockLines folded chomping indent fuel after c
        (breaks ++ text ++ joint ++ more, c)
      else
        let last := if chomping = .strip then [] else ending
        (breaks ++ text ++ last ++ (if chomping = .keep then after else []), c)

/-- **A block**, from its mark on, inside a block with some indentation. -/
def blockScalar (outer : Int) (c : Cursor) : Reading (String × Cursor) := do
  let folded := c.peek = '>'
  let (chomping, digit, c) ← blockHeader c.next
  let c ← blankLine c
  let least : Int := max 1 (outer + 1)
  let (breaks, indent, c) : List Char × Int × Cursor := match digit with
    | some n =>
      let indent := least + n - 1
      let (breaks, c) := blockBreaks indent (c.rest.length + 1) c
      (breaks, indent, c)
    | none =>
      let (breaks, furthest, c) := leadingBreaks (c.rest.length + 1) 0 c
      (breaks, max least furthest, c)
  let (text, c) := blockLines folded chomping indent (c.rest.length + 1) breaks c
  return (String.ofList text, c)

end CallTree.Yaml
