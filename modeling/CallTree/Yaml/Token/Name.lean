import CallTree.Yaml.Cursor
import CallTree.Yaml.Text
import CallTree.Yaml.Token
import CallTree.Text.Utf8

/-!
# Names in a document

Anchors, aliases, tags and directives: the tokens that do not depend on the
layout.
-/

namespace CallTree.Yaml

/-! ## Anchors and aliases -/

/-- The name of an anchor or alias, after its mark. -/
def anchorName (c : Cursor) : Reading (String × Cursor) :=
  let (name, c) := c.next.span isNameChar
  if name.isEmpty then c.refuse "an anchor without a name"
  else if isGap c.peek || "?:,]\x7d%@`".toList.contains c.peek then
    .ok (String.ofList name, c)
  else c.refuse "a name that no anchor has"

/-! ## Tags -/

/-- Whether a character may stand in a tag as it is. -/
def isTagChar (c : Char) : Bool :=
  c.isAlphanum || "-;/?:@&=+$,_.!~*'()[]%".toList.contains c

/-- The bytes that are written with percent signs, and the place after them. -/
def percentBytes : (fuel : Nat) → Cursor → Reading (List UInt8 × Cursor)
  | 0, c => .ok ([], c)
  | fuel + 1, c =>
    if c.peek = '%' then
      match hexValue? (c.peek 1), hexValue? (c.peek 2) with
      | some high, some low => do
        let (more, c) ← percentBytes fuel (c.advance 3)
        return (UInt8.ofNat (high * 16 + low) :: more, c)
      | _, _ => (c.advance 3).refuse "a percent sign without a byte"
    else .ok ([], c)

/-- The characters of a tag that come next. -/
def tagChars : (fuel : Nat) → Cursor → Reading (List Char × Cursor)
  | 0, c => .ok ([], c)
  | fuel + 1, c =>
    if c.peek = '%' then do
      let (bytes, c) ← percentBytes (c.rest.length + 1) c
      match Text.Utf8.decode bytes with
      | .error _ => malformed "bytes that are no text"
      | .ok text =>
        let (more, c) ← tagChars fuel c
        return (text.toList ++ more, c)
    else if isTagChar c.peek then do
      let x := c.peek
      let (more, c) ← tagChars fuel c.next
      return (x :: more, c)
    else .ok ([], c)

/-- The part of a tag that comes next, which is not empty. -/
def tagPart (c : Cursor) : Reading (String × Cursor) := do
  let (part, c) ← tagChars (c.rest.length + 1) c
  if part.isEmpty then c.refuse "a tag without a name" else return (String.ofList part, c)

/-- A handle: an exclamation mark, or a name between two of them. -/
def tagHandle (c : Cursor) : Reading (String × Cursor) :=
  if c.peek ≠ '!' then c.refuse "a handle without its mark"
  else if c.peek 1 = ' ' then .ok ("!", c.next)
  else
    let (name, after) := c.next.span isNameChar
    if after.peek = '!' then .ok (String.ofList ('!' :: name ++ ['!']), after.next)
    else after.refuse "a handle that is not closed"

/-- A tag, from its mark on. -/
def tagToken (c : Cursor) : Reading (Token × Cursor) := do
  let x := c.peek 1
  let (token, c) ←
    if x = '<' then do
      let (suffix, c) ← tagPart (c.advance 2)
      if c.peek ≠ '>' then c.refuse "a tag that is not closed"
      else pure (Token.tag none suffix, c.next)
    else if isGap x then pure (Token.tag none "!", c.next)
    else do
      let word := (c.rest.drop 1).takeWhile fun y => y ≠ ' ' && !isBreak y
      let (handle, c) ← if word.contains '!' then tagHandle c else pure ("!", c.next)
      let (suffix, c) ← tagPart c
      pure (Token.tag (some handle) suffix, c)
  if c.peek = ' ' || isLineEnd c.peek then return (token, c)
  else c.refuse "something behind a tag"

/-! ## Directives -/

/-- A number in a directive. -/
def directiveNumber (c : Cursor) : Reading (Nat × Cursor) :=
  let (digits, c) := c.span Char.isDigit
  if digits.isEmpty then c.refuse "a version without a number"
  else .ok (digits.foldl (fun n d => n * 10 + (d.toNat - '0'.toNat)) 0, c)

/-- The version that a directive gives. -/
def versionDirective (c : Cursor) : Reading (Directive × Cursor) := do
  let (major, c) ← directiveNumber c.skipSpaces
  if c.peek ≠ '.' then c.refuse "a version without a point"
  let (minor, c) ← directiveNumber c.next
  if c.peek = ' ' || isLineEnd c.peek then return (.version major minor, c)
  else c.refuse "something behind a version"

/-- The handle that a directive explains. -/
def handleDirective (c : Cursor) : Reading (Directive × Cursor) := do
  let (handle, c) ← tagHandle c.skipSpaces
  if c.peek ≠ ' ' then c.refuse "something behind a handle"
  let (expansion, c) ← tagPart c.skipSpaces
  if c.peek = ' ' || isLineEnd c.peek then return (.handle handle expansion, c)
  else c.refuse "something behind a tag"

/-- A directive, from its mark on, with the end of its line. -/
def directiveToken (c : Cursor) : Reading (Token × Cursor) := do
  let (name, c) := c.next.span isNameChar
  if name.isEmpty then c.refuse "a directive without a name"
  if !(c.peek = ' ' || isLineEnd c.peek) then c.refuse "a name that no directive has"
  let (directive, c) ← match String.ofList name with
    | "YAML" => versionDirective c
    | "TAG" => handleDirective c
    | _ => pure (.other, (c.span (!isBreak ·)).2)
  return (.directive directive, ← blankLine c)

end CallTree.Yaml
