import CallTree.Text.CaseTable

/-!
# Lower and upper case of a text

The case mappings of Unicode for whole texts. A character maps to one or more
characters; only the capital sigma depends on what stands around it. At the end
of a word, which is after a letter that has case and not before one, it becomes
the final sigma.

Two texts are alike up to case when their lower cases are equal. That is not
the same as equal upper cases: a sharp s is its own lower case.
-/

namespace CallTree.Text

/-- What a table of shifts sends a character to; the character itself if it is not there. -/
def shiftedChar (table : List CaseTable.Shift) (c : Char) : List Char :=
  match CaseTable.shifted table c.toNat with
  | some ns => ns.map Char.ofNat
  | none => [c]

/-- The lower case of a character that does not depend on its surroundings. -/
def lowerChar : Char → List Char := shiftedChar CaseTable.lowerShifts

/-- The upper case of a character. -/
def upperChar : Char → List Char := shiftedChar CaseTable.upperShifts

/-- Whether the first character that is not passed over is a letter with case. -/
def meetsCased (cs : List Char) : Bool :=
  match cs.dropWhile (Range.anyHolds CaseTable.passedOverRanges) with
  | [] => false
  | c :: _ => Range.anyHolds CaseTable.casedRanges c

/-- The lower case of the characters that follow the ones in `before`, which
are given last first. -/
def lowerAfter (before : List Char) : List Char → List Char
  | [] => []
  | c :: cs =>
    let mapped :=
      if c = 'Σ' then
        if meetsCased before && !meetsCased cs then ['ς'] else ['σ']
      else if c.toNat < 0x80 then [c.toLower]
      else lowerChar c
    mapped ++ lowerAfter (c :: before) cs

/-- **The lower case of a text.** -/
def lower (text : String) : String :=
  String.ofList (lowerAfter [] text.toList)

/-- **The upper case of a text.** -/
def upper (text : String) : String :=
  String.ofList (text.toList.flatMap fun c =>
    if c.toNat < 0x80 then [c.toUpper] else upperChar c)

/-- Whether a character is an upper-case letter. Letters in title case are not. -/
def isUpperLetter (c : Char) : Bool :=
  if c.toNat < 0x80 then c.isUpper
  else CaseTable.upperRuns.any (·.holds c.toNat)

/-- Whether a text begins with an upper-case letter. -/
def isCapitalised (text : String) : Bool :=
  match text.toList with
  | [] => false
  | c :: _ => isUpperLetter c

end CallTree.Text
