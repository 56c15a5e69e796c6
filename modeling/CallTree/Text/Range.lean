import CallTree.Text.Dotted

/-!
# Ranges of characters

A class of characters is given as an array of ranges of code points, both ends
included. It is written as the steps from end to end: how far a range is behind the one
before it, and how far its end is behind its beginning. In lines of words, these are
hexadecimal digits with a hyphen between them, or the first alone.
-/

namespace CallTree.Text

/-- The code points from `first` to `last`. -/
structure Range where
  first : Nat
  last : Nat
deriving DecidableEq, Repr

namespace Range

/-- Whether the range holds the character. -/
def holds (r : Range) (c : Char) : Bool :=
  r.first ≤ c.toNat && c.toNat ≤ r.last

/-- The ranges behind a code point that are so far from each other and so long, in
turn. -/
def ofSteps (start : Nat) : List Nat → List Range
  | gap :: length :: steps =>
    ⟨start + gap, start + gap + length⟩ :: ofSteps (start + gap + length) steps
  | _ => []

/-- The code point that hexadecimal digits stand for. -/
def codePoint (digits : List Char) : Nat :=
  digits.foldl (fun n c => 16 * n + (if c ≤ '9' then c.toNat - 48 else c.toNat - 55)) 0

/-- The two numbers of a word, the second behind a hyphen; `alone` if there is no second. -/
def numbers (alone : Nat → Nat) (word : List Char) : Nat × Nat :=
  match pieces '-' word with
  | [first, second] => (codePoint first, codePoint second)
  | _ => (codePoint word, alone (codePoint word))

/-- The range that a word with its ends stands for. -/
def ofWord (word : List Char) : Range :=
  let (first, last) := numbers id word
  ⟨first, last⟩

/-- **The ranges that lines of words stand for**, each with its step from the range before
it and its length. -/
def table (lines : List String) : Array Range :=
  let steps := (lines.flatMap words).map (numbers fun _ => 0)
  (ofSteps 0 (steps.flatMap fun (gap, length) => [gap, length])).toArray

example : table ["AA 16-16", "1F52A"] = #[⟨0xAA, 0xAA⟩, ⟨0xC0, 0xD6⟩, ⟨0x1F600, 0x1F600⟩] := by
  decide +kernel

/-- Whether one of the ranges holds the character. -/
def anyHolds (table : Array Range) (c : Char) : Bool :=
  table.any (·.holds c)

end Range

end CallTree.Text
