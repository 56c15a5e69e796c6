import CallTree.Data.Scalar
import CallTree.Text.Blank
import CallTree.Text.Case
import CallTree.Text.Digit
import CallTree.Text.Dotted
import CallTree.Text.Quoted
import CallTree.Yaml.Base64
import CallTree.Yaml.Text

/-!
# What a scalar stands for

A plain scalar stands for a number, a truth value, a date or nothing when it is
written like one, and for its text otherwise. Numbers may have underscores among
their digits and may be written to the base sixty, with colons.

A tag can demand a number where none would be seen otherwise. What is written is
then read more freely: there may be white space around it, digits of any script,
and a second sign.
-/

namespace CallTree.Yaml

open CallTree.Data (Value mostDigits)
open CallTree.Text (isWhiteSpace pieces withPlainDigits)

/-- The sorts of scalars. -/
inductive ScalarSort where
  | null
  | bool
  | int
  | float
  | instant
  | text
  /-- Bytes, written with letters and digits. -/
  | bytes
  /-- The key that takes entries over from other mappings. -/
  | merge
  /-- The key for the value of a mapping that stands for a scalar. -/
  | default
deriving DecidableEq, Repr

/-! ## How scalars are written -/

/-- The words for truth values. -/
def boolWords : List String :=
  ["yes", "Yes", "YES", "no", "No", "NO", "true", "True", "TRUE", "false", "False", "FALSE",
   "on", "On", "ON", "off", "Off", "OFF"]

/-- The words for nothing. -/
def nullWords : List String := ["~", "null", "Null", "NULL", ""]

/-- What follows a sign, if there is one. -/
def unsigned : List Char → List Char
  | '-' :: cs => cs
  | '+' :: cs => cs
  | cs => cs

/-- Digits and underscores. -/
def isDigitOrBar (c : Char) : Bool := c.isDigit || c = '_'

/-- Whether a text begins with a digit and has only digits and underscores. -/
def isDigits : List Char → Bool
  | c :: cs => c.isDigit && cs.all isDigitOrBar
  | [] => false

/-- Whether a text is a whole number without a needless zero at its beginning. -/
def isPlainInt (cs : List Char) : Bool :=
  cs = ['0'] || (isDigits cs && cs.head? ≠ some '0')

/-- Whether a text is a number below sixty, with one digit or two. -/
def isSixtieth : List Char → Bool
  | [a] => a.isDigit
  | [a, b] => '0' ≤ a && a ≤ '5' && b.isDigit
  | _ => false

/-- Whether there is something after a prefix, all of it of some class. -/
def hasDigitsOf (p : Char → Bool) (cs : List Char) : Bool := !cs.isEmpty && cs.all p

/-- Whether a text is a whole number. -/
def isInt (cs : List Char) : Bool :=
  let body := unsigned cs
  let parts := pieces ':' body
  (match body with
    | '0' :: 'b' :: ds => hasDigitsOf (fun c => c = '0' || c = '1' || c = '_') ds
    | '0' :: 'x' :: ds => hasDigitsOf (fun c => (hexValue? c).isSome || c = '_') ds
    | '0' :: ds => hasDigitsOf (fun c => ('0' ≤ c && c ≤ '7') || c = '_') ds
    | _ => false)
  || isPlainInt body
  || (1 < parts.length && isPlainInt (parts.headD []) && parts.head? ≠ some ['0']
      && (parts.drop 1).all isSixtieth)

/-- Whether a text is an exponent with its sign, or nothing. -/
def isExponent : List Char → Bool
  | [] => true
  | e :: s :: ds => (e = 'e' || e = 'E') && (s = '+' || s = '-') && hasDigitsOf Char.isDigit ds
  | _ => false

/-- Whether a text is a fraction with its point, and perhaps an exponent. -/
def isFraction : List Char → Bool
  | '.' :: cs => isExponent (cs.dropWhile isDigitOrBar)
  | _ => false

/-- Whether a text is a number with a fraction. -/
def isFloat (cs : List Char) : Bool :=
  let body := unsigned cs
  let whole := body.takeWhile (· ≠ '.')
  let rest := body.drop whole.length
  let parts := pieces ':' whole
  (isDigits whole && isFraction rest)
  || (match cs with
    | '.' :: d :: _ => d.isDigit && isFraction cs
    | _ => false)
  || (1 < parts.length && isDigits (parts.headD []) && (parts.drop 1).all isSixtieth
      && (match rest with
        | '.' :: ds => ds.all isDigitOrBar
        | _ => false))
  || [".inf", ".Inf", ".INF"].contains (String.ofList body)
  || [".nan", ".NaN", ".NAN"].contains (String.ofList cs)

/-! ## Dates -/

/-- A date, and a time of day if there is one. -/
structure Instant where
  year : Nat
  month : Nat
  day : Nat
  /-- Whether the month or the day has a single digit. -/
  isShort : Bool
  /-- Hour, minute and second. -/
  time : Option (Nat × Nat × Nat)
  /-- The distance from the standard time, in minutes. -/
  offset : Int

/-- The number that one or two digits at the beginning stand for, and the rest. -/
def twoDigits? (least : Nat) (cs : List Char) : Option (Nat × Nat × List Char) :=
  let ds := (cs.take 2).takeWhile Char.isDigit
  if ds.length < least || ds.isEmpty then none
  else some (ds.foldl (fun n d => n * 10 + (d.toNat - '0'.toNat)) 0, ds.length, cs.drop ds.length)

/-- What follows a character. -/
def after? (c : Char) : List Char → Option (List Char)
  | x :: cs => if x = c then some cs else none
  | [] => none

/-- The distance from the standard time behind a time of day, to the end. -/
def offset? (cs : List Char) : Option Int :=
  if cs.isEmpty then some 0
  else
    match cs.dropWhile fun c => c = ' ' || c = '\t' with
    | ['Z'] => some 0
    | sign :: rest => do
      guard (sign = '+' || sign = '-')
      let (hours, _, rest) ← twoDigits? 1 rest
      let minutes ← match rest with
        | [] => some 0
        | _ => do
          let (minutes, _, rest) ← twoDigits? 2 (← after? ':' rest)
          guard rest.isEmpty
          return minutes
      let distance : Int := hours * 60 + minutes
      return if sign = '-' then -distance else distance
    | [] => none

/-- A time of day, to the end. -/
def time? (cs : List Char) : Option ((Nat × Nat × Nat) × Int) := do
  let (hour, _, cs) ← twoDigits? 1 cs
  let (minute, _, cs) ← twoDigits? 2 (← after? ':' cs)
  let (second, _, cs) ← twoDigits? 2 (← after? ':' cs)
  let cs := match cs with
    | '.' :: rest => rest.dropWhile Char.isDigit
    | _ => cs
  return ((hour, minute, second), ← offset? cs)

/-- **A date as it is written**, with a time of day or without. The end of a line may
follow it. -/
def instant? (cs : List Char) : Option Instant := do
  let cs := if cs.getLast? = some '\n' then cs.dropLast else cs
  let ds := cs.take 4
  guard (ds.length = 4 && ds.all Char.isDigit)
  let year := ds.foldl (fun n d => n * 10 + (d.toNat - '0'.toNat)) 0
  let (month, m, cs) ← twoDigits? 1 (← after? '-' (cs.drop 4))
  let (day, d, cs) ← twoDigits? 1 (← after? '-' cs)
  let isShort := m < 2 || d < 2
  match cs with
  | [] => return ⟨year, month, day, isShort, none, 0⟩
  | c :: rest =>
    let rest ← if c = 'T' || c = 't' then some rest
      else if c = ' ' || c = '\t' then some (rest.dropWhile fun x => x = ' ' || x = '\t')
      else none
    let (time, offset) ← time? rest
    return ⟨year, month, day, isShort, some time, offset⟩

/-- Whether a text is a date. Without a time of day, month and day have two digits. -/
def isInstant (cs : List Char) : Bool :=
  match instant? cs with
  | some i => i.time.isSome || !i.isShort
  | none => false

/-- **The sort of a plain scalar**, by the way it is written. -/
def plainSort (text : String) : ScalarSort :=
  let cs := text.toList
  if boolWords.contains text then .bool
  else if isFloat cs then .float
  else if isInt cs then .int
  else if text = "<<" then .merge
  else if nullWords.contains text then .null
  else if isInstant cs then .instant
  else if text = "=" then .default
  else .text

/-! ## Values -/

/-- A text without its underscores. -/
def withoutBars (cs : List Char) : List Char := cs.filter (· ≠ '_')

/-- The number that digits stand for to a base; nothing if there are none or if one
is too large. -/
def number? (base : Nat) (cs : List Char) : Option Nat :=
  if cs.isEmpty then none
  else cs.foldlM (fun n c => do
    let d ← hexValue? c
    guard (d < base)
    return n * base + d) 0

/-- What is said of a number that is none. -/
def badNumber (base : Nat) (cs : List Char) : Problem :=
  .unusable s!"invalid literal for int() with base {base}: {Text.quoted (String.ofList cs)}"

/-- What is said of a number with too many digits. -/
def tooManyDigits (digits : Nat) : Problem :=
  .unusable (s!"Exceeds the limit ({mostDigits} digits) for integer string conversion: value has "
    ++ s!"{digits} digits; use sys.set_int_max_str_digits() to increase the limit")

/-- Whether a text has a minus sign. -/
def isNegative (cs : List Char) : Bool := cs.head? = some '-'

/-- A text in plain digits, without the white space around it. -/
def trimmed (cs : List Char) : List Char :=
  let front := (withPlainDigits cs).dropWhile isWhiteSpace
  (front.reverse.dropWhile isWhiteSpace).reverse

/-- Digits without the mark of their base in front of them, if there is one. -/
def withoutBaseMark (base : Nat) : List Char → List Char
  | '0' :: x :: ds =>
    if (base, x.toLower) ∈ [(2, 'b'), (8, 'o'), (16, 'x')] then ds else '0' :: x :: ds
  | ds => ds

/-- The number to a base, or a complaint. The number of digits is limited to the base
ten alone. -/
def numberOf (base : Nat) (cs : List Char) : Reading Int :=
  let body := trimmed cs
  let digits := withoutBaseMark base (unsigned body)
  let length := (digits.takeWhile Char.isDigit).length
  if base = 10 && mostDigits < length then .error (tooManyDigits length)
  else
    match number? base digits with
    | some n => .ok (if isNegative body then -(n : Int) else n)
    | none => .error (badNumber base cs)

/-- The number whose digits to the base sixty are given. -/
def sexagesimal (digits : List Int) : Int := digits.foldl (fun n d => n * 60 + d) 0

/-- **A whole number.** -/
def intValue (text : List Char) : Reading Int := do
  let cs := withoutBars text
  if cs.isEmpty then .error .noNumber
  let body := unsigned cs
  let n ← match body with
    | [] => .error .noNumber
    | ['0'] => pure 0
    | '0' :: 'b' :: ds => numberOf 2 ds
    | '0' :: 'x' :: ds => numberOf 16 ds
    | '0' :: ds => numberOf 8 ('0' :: ds)
    | _ =>
      if body.contains ':' then (pieces ':' body).mapM (numberOf 10) |>.map sexagesimal
      else numberOf 10 body
  return if isNegative cs then -n else n

/-- The digits that come first, and the rest. -/
def leadingDigits (cs : List Char) : List Char × List Char :=
  (cs.takeWhile Char.isDigit, cs.dropWhile Char.isDigit)

/-- An exponent, to the end; zero if there is none. -/
def exponent? : List Char → Option Int
  | [] => some 0
  | e :: ds => do
    guard (e = 'e' || e = 'E')
    let n ← number? 10 (unsigned ds)
    return if isNegative ds then -(n : Int) else n

/-- A whole number times a power of ten. Powers that lead out of the range of numbers
are not computed. -/
def scaled (n : Nat) (digits : Nat) (e : Int) : Float :=
  if n = 0 then 0.0
  else if 400 < digits + e then 1.0 / 0.0
  else if digits + e < -400 then 0.0
  else Float.ofScientific n (e < 0) e.natAbs

/-- A decimal number without a sign, with or without a point and an exponent. -/
def decimal? (cs : List Char) : Option Float := do
  let (whole, rest) := leadingDigits cs
  let (fraction, rest) := match rest with
    | '.' :: more => leadingDigits more
    | _ => ([], rest)
  let digits := (whole ++ fraction).dropWhile (· = '0')
  let n ← number? 10 (whole ++ fraction)
  return scaled n digits.length ((← exponent? rest) - fraction.length)

/-- The decimal number, or a complaint. -/
def decimalOf (cs : List Char) : Reading Float := do
  let body := trimmed cs
  let digits := unsigned body
  let x ← match decimal? digits with
    | some x => pure x
    | none =>
      if ["inf", "infinity"].contains (String.ofList digits) then pure (1.0 / 0.0)
      else if digits = "nan".toList then pure (0.0 / 0.0)
      else .error (.unusable
        ("could not convert string to float: " ++ Text.quoted (String.ofList cs)))
  return if isNegative body then -x else x

/-- **A number with a fraction.** -/
def floatValue (text : String) : Reading Float := do
  let cs := withoutBars (Text.lower text).toList
  if cs.isEmpty then .error .noNumber
  let body := unsigned cs
  let x ←
    if body = ".inf".toList then pure (1.0 / 0.0)
    else if body = ".nan".toList then pure (0.0 / 0.0)
    else if body.contains ':' then do
      let digits ← (pieces ':' body).mapM decimalOf
      pure (digits.reverse.foldl (fun (x, base) d => (x + d * base, base * 60.0)) (0.0, 1.0)).1
    else decimalOf body
  return if isNegative cs then -x else x

/-- The number of days of a month. -/
def daysIn (year month : Nat) : Nat :=
  if month = 2 then
    if year % 4 = 0 && (year % 100 ≠ 0 || year % 400 = 0) then 29 else 28
  else if [4, 6, 9, 11].contains month then 30
  else 31

/-- What is wrong with a date, if anything. -/
def Instant.flaw? (i : Instant) : Option String :=
  if i.offset.natAbs ≥ 24 * 60 then
    some ("offset must be a timedelta strictly between -timedelta(hours=24) and "
      ++ "timedelta(hours=24), not datetime.timedelta(" ++ distance ++ ").")
  else if i.year = 0 then some "year 0 is out of range"
  else if i.month < 1 || 12 < i.month then some "month must be in 1..12"
  else if i.day < 1 || daysIn i.year i.month < i.day then some "day is out of range for month"
  else
    match i.time with
    | none => none
    | some (hour, minute, second) =>
      if 23 < hour then some "hour must be in 0..23"
      else if 59 < minute then some "minute must be in 0..59"
      else if 59 < second then some "second must be in 0..59"
      else none
where
  /-- The distance from the standard time in days and seconds. -/
  distance : String :=
    let seconds := i.offset % (24 * 60) * 60
    s!"days={i.offset / (24 * 60)}" ++ if seconds = 0 then "" else s!", seconds={seconds}"

/-- A date, of which only its being one matters. -/
def instantValue (text : String) : Reading Value :=
  match instant? text.toList with
  | none => .error .noDate
  | some i =>
    match i.flaw? with
    | some message => .error (.unusable message)
    | none => .ok (.instant text)

/-- A truth value. -/
def boolValue (text : String) : Reading Value :=
  match String.ofList (text.toList.map Char.toLower) with
  | "yes" | "true" | "on" => .ok (.bool true)
  | "no" | "false" | "off" => .ok (.bool false)
  | _ => .error .noTruthValue

/-- The bytes that a text stands for. -/
def bytesValue (text : String) : Reading Value :=
  if !text.toList.all (·.toNat < 128) then malformed "bytes that are not written with letters"
  else
    match Base64.decode text.toList with
    | none => malformed "bytes that are cut short"
    | some content => .ok (.bytes content)

/-- **The value of a scalar of some sort.** The two keys stand for nothing
themselves. -/
def scalarValue (sort : ScalarSort) (text : String) : Reading Value :=
  match sort with
  | .null => .ok .null
  | .bool => boolValue text
  | .int => (intValue text.toList).map .int
  | .float => (floatValue text).map .real
  | .instant => instantValue text
  | .text => .ok (.text text)
  | .bytes => bytesValue text
  | .merge => malformed "a mark for merging where nothing is merged"
  | .default => malformed "a mark for a value where there is none"

end CallTree.Yaml
