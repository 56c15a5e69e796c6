import CallTree.Text.Blank
import CallTree.Text.Case
import CallTree.Text.CellWidth
import CallTree.Text.Dotted
import CallTree.Text.EmojiTable

/-!
# Pictures by name

A name between two colons stands for a picture, as `:bug:` does. At its end may
stand `-text` or `-emoji`, which asks for one of the two looks that some pictures
have. Colons pair up from the left, and no blank stands between the two of a
pair; a pair with an unknown name between it stays as it is written.
-/

namespace CallTree.Text

/-- The skin tones, by name. -/
def skinTones : List (String × Char) :=
  [("light", '🏻'), ("medium-light", '🏼'), ("medium", '🏽'),
   ("medium-dark", '🏾'), ("dark", '🏿')]

/-- A picture in a skin tone. The tone follows the first character, in the place of a
selector. -/
def toned (tone : Char) : List Char → List Char
  | [] => []
  | c :: cs => c :: tone :: (if cs.head? = some pictureSelector then cs.drop 1 else cs)

/-- The characters for the letters of a country, which make its flag. -/
def flag (letters : List Char) : List Char :=
  letters.map fun c => Char.ofNat (0x1F1E6 + (c.toUpper.toNat - 'A'.toNat))

/-- The sign of a man in the place of that of a woman. -/
def asMan : Char → Char
  | '👩' => '👨'
  | '♀' => '♂'
  | c => c

/-- The words that a word of the table stands for: behind an at sign, that of a woman and
that of a man. -/
def wordsFor : List Char → List (List Char)
  | '@' :: word => ["woman_".toList ++ word, "man_".toList ++ word.map asMan]
  | word => [word]

/-- The names that a word gives, with their pictures. -/
def entriesOf (word : List Char) : List (String × List Char) :=
  let front := word.takeWhile (· ≠ '=')
  let names := (pieces ',' front).map String.ofList
  match word.drop (front.length + 1) with
  | '=' :: picture => names.flatMap fun name =>
    (name, picture) :: skinTones.map fun (tone, c) =>
      (name ++ "_" ++ tone ++ "_skin_tone", toned c picture)
  | '~' :: country => names.flatMap fun name =>
    [(name, flag country), ("flag_for_" ++ name, flag country)]
  | picture => names.map (·, picture)

/-- The names of the characters that flags are made of. -/
def flagLetters : List (String × List Char) :=
  "abcdefghijklmnopqrstuvwxyz".toList.flatMap fun c =>
    ["regional_indicator_symbol_letter_", "regional_indicator_"].map fun front =>
      (front.push c, flag [c])

/-- The names and their pictures. -/
def emojiEntries : List (String × List Char) :=
  ((words emojiTable).flatMap wordsFor).flatMap entriesOf ++ flagLetters

/-- The picture of a name, in any case. -/
def emoji? (name : String) : Option (List Char) :=
  (emojiEntries.find? (·.1 = lower name)).map (·.2)

/-- A name without the look it asks for at its end, and the selector of that look. -/
def splitLook (name : List Char) : List Char × List Char :=
  let without (ending : String) : Option (List Char) :=
    if ending.toList.isSuffixOf name then some (name.take (name.length - ending.length)) else none
  match without "-emoji", without "-text" with
  | some rest, _ => (rest, [pictureSelector])
  | none, some rest => (rest, [textSelector])
  | none, none => (name, [])

/-- What a pair of colons with a name between stands for. -/
def pictured (name : List Char) : List Char :=
  let (plain, look) := splitLook name
  match emoji? (String.ofList plain) with
  | some picture => picture ++ look
  | none => ':' :: name ++ [':']

/-- Replaces names by their pictures; `skip` characters have been replaced. -/
def replaceNames (skip : Nat) : List Char → List Char
  | [] => []
  | c :: cs =>
    match skip with
    | k + 1 => replaceNames k cs
    | 0 =>
      if c = ':' then
        let name := cs.takeWhile fun d => d ≠ ':' && !isBlank d
        if (cs.drop name.length).head? = some ':' then
          pictured name ++ replaceNames (name.length + 1) cs
        else c :: replaceNames 0 cs
      else c :: replaceNames 0 cs

/-- **A text with pictures in the place of their names.** -/
def withPictures (cs : List Char) : List Char := replaceNames 0 cs

end CallTree.Text
