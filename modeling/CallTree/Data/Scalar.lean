import CallTree.Data.Checked
import CallTree.Text.Blank
import CallTree.Text.Dotted
import CallTree.Text.Utf8

/-!
# Scalars, leniently

Numbers and truth values often come as something close to what was meant: the
text `"12"` for a number, the word `yes` for a truth value, a whole number with a
fraction of zero, the encoding of a text for the text itself. The checks of this
module accept these and say precisely why they refuse the rest.
-/

namespace CallTree.Data

open CallTree.Text (isWhiteSpace pieces trimBy)

/-! ## Texts and choices -/

/-- The text that bytes encode; `flaw` is what is wrong with bytes that encode none. -/
def decoded (flaw : Flaw) (content : List UInt8) : Checked String :=
  match Text.Utf8.decode content with
  | .ok s => .ok s
  | .error _ => .refuse flaw

/-- A text, or its encoding; nothing else will do. -/
def asText : Value → Checked String
  | .text s => .ok s
  | .bytes content => decoded .undecodableText content
  | _ => .refuse .notText

/-- A text, or nothing. -/
def asText? : Value → Checked (Option String)
  | .null => .ok none
  | v => (asText v).map some

/-- One of a few choices, by its exact spelling. -/
def asChoice {α : Type} (choices : List (String × α)) : Value → Checked α
  | .text s =>
    match choices.find? (·.1 = s) with
    | some (_, a) => .ok a
    | none => .refuse .notAmong
  | _ => .refuse .notAmong

/-- A list of texts; `flaw` is what is wrong with anything but a list. -/
def asTexts (flaw : Flaw) : Value → Checked (List String)
  | .list vs => Checked.items asText vs
  | _ => .refuse flaw

/-! ## Whole numbers -/

/-- Digits with single underscores between them. -/
def digitsOf? (cs : List Char) : Option (List Char) :=
  let groups := pieces '_' cs
  if groups.all fun g => !g.isEmpty && g.all Char.isDigit then some groups.flatten else none

/-- A number without the zeros it begins with, which may have underscores among
them. A zero that nothing or only a fraction follows is kept. -/
def withoutLeadingZeros (cs : List Char) : List Char :=
  if cs.head? = some '0' then
    let rest := cs.dropWhile fun c => c = '0' || c = '_'
    match rest with
    | [] => cs.drop (cs.length - 1)
    | c :: _ => if c = '.' then cs.drop (cs.length - rest.length - 1) else rest
  else cs

/-- The number that digits stand for. -/
def numberOfDigits (digits : List Char) : Nat :=
  digits.foldl (fun n d => n * 10 + (d.toNat - '0'.toNat)) 0

/-- The most digits that are read as a number. -/
def mostDigits : Nat := 4300

/-- What stands before the point, when there is a point and only zeros follow, at
least one. -/
def wholePart (cs : List Char) : List Char :=
  let whole := cs.takeWhile (· ≠ '.')
  match cs.drop whole.length with
  | _ :: fraction => if !fraction.isEmpty && fraction.all (· = '0') then whole else cs
  | [] => cs

/-- A number as its sign and what follows it, without the zeros that this begins
with. Zeros may stand before a minus sign as well. -/
def signed? : List Char → Option (Bool × List Char)
  | '-' :: rest => some (true, withoutLeadingZeros rest)
  | '+' :: rest => unsigned rest
  | cs => unsigned cs
where
  /-- A number without a sign at its front. -/
  unsigned (cs : List Char) : Option (Bool × List Char) :=
    match withoutLeadingZeros cs with
    | '-' :: rest => if cs.head? = some '0' then some (true, rest) else none
    | body => some (false, body)

/-- Whether a number begins plainly, with a sign at most, and has more digits than
are read. -/
def isOverlong (cs : List Char) : Bool :=
  let digits := if cs.head? = some '-' then cs.drop 1 else cs
  let signs := cs.length - digits.length
  digits.head? ≠ some '0' && mostDigits < signs + (digits.takeWhile Char.isDigit).length

/-- **A whole number as text**: white space around it, a sign, zeros at its front,
digits with single underscores between them, and a fraction of zeros are all
allowed. -/
def intOfText (text : String) : Checked Int :=
  if isOverlong text.toList then .refuse .tooManyDigits
  else
    let read : Option (Bool × List Char) := do
      let (negative, body) ← signed? (trimBy isWhiteSpace text).toList
      let digits ← digitsOf? (wholePart body)
      if 1 < digits.length && digits.head? = some '0' then none
      else if mostDigits < digits.length then none
      else return (negative, digits)
    match read with
    | none => .refuse .unreadableInt
    | some (negative, digits) =>
      let n : Int := numberOfDigits digits
      .ok (if negative then -n else n)

/-- A whole number with a fraction of zero, within 64 bits. -/
def intOfReal (x : Float) : Checked Int :=
  if x.isNaN || x.isInf then .refuse .notFinite
  else if x.floor != x then .refuse .fractionalInt
  else if x > -9223372036854775808.0 && x < 9223372036854775808.0 then .ok x.toInt64.toInt
  else .refuse .tooManyDigits

/-- **A whole number.** -/
def asInt : Value → Checked Int
  | .int n => .ok n
  | .bool b => .ok (if b then 1 else 0)
  | .real x => intOfReal x
  | .text s => intOfText s
  | .bytes content => decoded .unreadableInt content >>= intOfText
  | _ => .refuse .notInt

/-- A whole number within bounds. -/
def asIntBetween (low high : Int) (v : Value) : Checked Int := do
  let n ← asInt v
  if n < low then .refuse .tooSmall
  else if high < n then .refuse .tooLarge
  else return n

/-! ## Truth values -/

/-- The words for true and for false. -/
def boolWords : List (String × Bool) :=
  [("1", true), ("0", false), ("true", true), ("false", false), ("t", true), ("f", false),
   ("yes", true), ("no", false), ("y", true), ("n", false), ("on", true), ("off", false)]

/-- A number as a truth value: zero or one. A number that 64 bits do not hold is
none at all. -/
def boolOfInt (n : Int) : Checked Bool :=
  if n = 0 then .ok false
  else if n = 1 then .ok true
  else if -9223372036854775808 ≤ n && n ≤ 9223372036854775807 then .refuse .unreadableBool
  else .refuse .notBool

/-- A word as a truth value, in any case. -/
def boolOfText (text : String) : Checked Bool :=
  match boolWords.find? (·.1 = String.ofList (text.toList.map Char.toLower)) with
  | some (_, b) => .ok b
  | none => .refuse .unreadableBool

/-- **A truth value**: one of the words, or zero or one. -/
def asBool : Value → Checked Bool
  | .bool b => .ok b
  | .int n => boolOfInt n
  | .real x =>
    match intOfReal x with
    | .ok n => boolOfInt n
    | .error _ => .refuse .notBool
  | .text s => boolOfText s
  | .bytes content => decoded .unreadableBool content >>= boolOfText
  | _ => .refuse .notBool

end CallTree.Data
