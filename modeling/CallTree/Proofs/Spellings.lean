import CallTree.Proofs.Lists
import CallTree.Proofs.PathOrder
import CallTree.Syntax.Grammar.TypeHint
import CallTree.Syntax.TypeName
import CallTree.Text.Identifier
import Mathlib.Data.List.DropRight

/-!
# How a type is spelled

An annotation of one type is spelled in many ways: by the dotted name of the type, with arguments
in square brackets, in `Optional[..]`, joined with `None` by a bar on either side, in quotes, and
all of these inside each other. A `Hint` is such a spelling, and a `Spacing` says with how many
blanks it is written. A hint has two readings.

* `Hint.principal` is the name that the annotation is about. It goes through `Optional`, through
  quotes and past every `None`, wherever they stand.
* `Hint.isLegible` tells whether the analysis finds that name. It does not go as far: only the
  leftmost operand of a union is looked at, and what stands in quotes is not parsed but cut, at
  its quotes and at its first square bracket. `Hint.shown?` is what such a cut leaves.

The second half of the module proves that `Hint.shown?` is right about the cut: of the
characters of a hint it leaves the name that `shown?` says, or, where `shown?` says nothing, a text
with a bar or a quote in it, which is the text of no name.
-/

namespace CallTree.Syntax.Spelling

open CallTree.Text (isBlank isIdentifierStart isIdentifierPart lastSegment pieces)

/-! ## Names -/

/-- The words that cannot be names. -/
def keywords : List String :=
  ["False", "None", "True", "and", "as", "assert", "async", "await", "break", "class", "continue",
   "def", "del", "elif", "else", "except", "finally", "for", "from", "global", "if", "import", "in",
   "is", "lambda", "nonlocal", "not", "or", "pass", "raise", "return", "try", "while", "with",
   "yield"]

/-- Whether the characters form an identifier that is no keyword. -/
def isName : List Char → Bool
  | [] => false
  | c :: cs =>
    isIdentifierStart c && cs.all isIdentifierPart && !keywords.contains (String.ofList (c :: cs))

/-- An identifier that is no keyword. -/
structure Word where
  chars : List Char
  isName : isName chars = true
deriving DecidableEq

/-- **A dotted name**: its last segment, and those before it. -/
structure DottedName where
  qualifiers : List Word
  last : Word
deriving DecidableEq

namespace Word

/-- The word as text. -/
def text (w : Word) : String := String.ofList w.chars

/-- The word `Optional`. -/
def optional : Word := ⟨"Optional".toList, by decide +kernel⟩

variable (w : Word)

/-- A word begins as an identifier does and goes on as one. -/
theorem exists_chars_eq : ∃ c cs, w.chars = c :: cs ∧ isIdentifierStart c = true
    ∧ (∀ d ∈ cs, isIdentifierPart d = true) ∧ w.text ∉ keywords := by
  obtain ⟨chars, h⟩ := w
  cases chars with
  | nil => cases h
  | cons c cs =>
    simp only [Spelling.isName, Bool.and_eq_true, Bool.not_eq_true', List.all_eq_true] at h
    obtain ⟨⟨hstart, hpart⟩, hfree⟩ := h
    refine ⟨c, cs, rfl, hstart, hpart, fun hmem => ?_⟩
    rw [← List.contains_iff_mem] at hmem
    exact absurd (hfree.symm.trans hmem) Bool.false_ne_true

theorem chars_ne_nil : w.chars ≠ [] := by
  obtain ⟨c, cs, h, -⟩ := w.exists_chars_eq
  simp [h]

/-- What an identifier begins with it may go on with. -/
theorem isIdentifierPart_of_start {c : Char} (h : isIdentifierStart c = true) :
    isIdentifierPart c = true := by
  unfold isIdentifierStart at h
  unfold isIdentifierPart
  split at h
  · rename_i hlt
    rw [if_pos hlt]
    simp only [Char.isAlphanum, Bool.or_eq_true] at h ⊢
    exact h.imp_left Or.inl
  · rename_i hlt
    rw [if_neg hlt, h, Bool.true_or]

theorem isIdentifierPart_of_mem {c : Char} (h : c ∈ w.chars) : isIdentifierPart c = true := by
  obtain ⟨d, ds, hchars, hstart, hpart, -⟩ := w.exists_chars_eq
  rw [hchars] at h
  rcases List.mem_cons.mp h with rfl | h
  · exact isIdentifierPart_of_start hstart
  · exact hpart c h

theorem text_not_mem_keywords : w.text ∉ keywords := by
  obtain ⟨_, _, _, _, _, h⟩ := w.exists_chars_eq
  exact h

/-- The word `Optional` is known by its text. -/
theorem text_eq_optional_iff : w.text = "Optional" ↔ w = optional := by
  constructor
  · intro h
    have hchars : w.chars = "Optional".toList := by simpa [text] using congrArg String.toList h
    obtain ⟨chars, hname⟩ := w
    subst hchars
    rfl
  · rintro rfl
    decide +kernel

end Word

/-- Whether the character can stand in a dotted name. -/
def isNamePart (c : Char) : Bool := isIdentifierPart c || c = '.'

/-- A quotation mark. -/
def isQuote (c : Char) : Bool := c = '\'' || c = '"'

/-- A character that is found between names, and in none of them. -/
def isForeign (c : Char) : Bool := c = '|' || isQuote c

/-- What is foreign to names is in none of them. -/
theorem not_isNamePart_of_isForeign {c : Char} (h : isForeign c = true) : isNamePart c = false := by
  have hcases : c = '|' ∨ c = '\'' ∨ c = '"' := by simpa [isForeign, isQuote] using h
  rcases hcases with rfl | rfl | rfl <;> decide +kernel

theorem not_isBlank_of_isForeign {c : Char} (h : isForeign c = true) : isBlank c = false := by
  have hcases : c = '|' ∨ c = '\'' ∨ c = '"' := by simpa [isForeign, isQuote] using h
  rcases hcases with rfl | rfl | rfl <;> decide +kernel

/-- Where the blanks beyond ASCII lie. -/
def blankRanges : List Text.Range :=
  [⟨0x85, 0xA0⟩, ⟨0x1680, 0x1680⟩, ⟨0x2000, 0x200A⟩, ⟨0x2028, 0x202F⟩, ⟨0x205F, 0x205F⟩,
   ⟨0x3000, 0x3000⟩]

/-- The blanks beyond the first hundred and twenty-eight characters lie in a few ranges. -/
theorem exists_holds_of_isBlank {c : Char} (hlt : ¬ c.toNat < 0x80) (h : isBlank c = true) :
    ∃ r ∈ blankRanges, r.holds c = true := by
  simp only [isBlank, Text.isWhiteSpace, Bool.or_eq_true, Bool.and_eq_true, decide_eq_true_eq] at h
  simp only [blankRanges, List.mem_cons, List.not_mem_nil, or_false, exists_eq_or_imp,
    exists_eq_left, Text.Range.holds, Bool.and_eq_true, decide_eq_true_eq]
  omega

/-- The ranges of a table lie apart from the blanks. -/
def isClearOfBlanks (table : Array Text.Range) : Bool :=
  table.toList.all fun r => blankRanges.all fun b => r.last < b.first || b.last < r.first

/-- A table that is clear of these ranges holds no blank. -/
theorem not_anyHolds_of_isBlank {table : Array Text.Range} {c : Char}
    (htable : isClearOfBlanks table = true) (hlt : ¬ c.toNat < 0x80) (h : isBlank c = true) :
    Text.Range.anyHolds table c = false := by
  obtain ⟨b, hb, hholds⟩ := exists_holds_of_isBlank hlt h
  rw [Text.Range.anyHolds, ← Array.any_toList, List.any_eq_false]
  intro r hr
  have hapart := List.all_eq_true.mp (List.all_eq_true.mp htable r hr) b hb
  simp only [Text.Range.holds, Bool.or_eq_true, Bool.and_eq_true, decide_eq_true_eq] at *
  omega

/-- No blank stands in a name. -/
theorem not_isBlank_of_isNamePart {c : Char} (h : isNamePart c = true) : isBlank c = false := by
  by_contra hblank
  rw [Bool.not_eq_false] at hblank
  have hascii : ∀ n < 0x80, isBlank (Char.ofNat n) = true → isNamePart (Char.ofNat n) = false := by
    decide +kernel
  by_cases hlt : c.toNat < 0x80
  · have := hascii c.toNat hlt
    rw [Char.ofNat_toNat] at this
    exact absurd ((this hblank).symm.trans h) Bool.false_ne_true
  · have hpoint : c ≠ '.' := by
      rintro rfl
      exact hlt (by decide)
    rw [isNamePart, isIdentifierPart, if_neg hlt,
      not_anyHolds_of_isBlank (by decide +kernel) hlt hblank,
      not_anyHolds_of_isBlank (by decide +kernel) hlt hblank] at h
    exact absurd h (by simpa using hpoint)

namespace DottedName

/-- The characters of the name. -/
def chars (d : DottedName) : List Char :=
  d.qualifiers.flatMap (fun w => w.chars ++ ['.']) ++ d.last.chars

/-- The name as text. -/
def text (d : DottedName) : String := String.ofList d.chars

variable (d : DottedName)

theorem isNamePart_of_mem {c : Char} (h : c ∈ d.chars) : isNamePart c = true := by
  have hword : ∀ w : Word, c ∈ w.chars → isNamePart c = true := fun w hc => by
    rw [isNamePart, w.isIdentifierPart_of_mem hc, Bool.true_or]
  simp only [chars, List.mem_append, List.mem_flatMap, List.mem_singleton] at h
  rcases h with ⟨w, -, hc | rfl⟩ | hc
  · exact hword w hc
  · rfl
  · exact hword d.last hc

theorem not_mem_of_not_isNamePart {c : Char} (h : isNamePart c = false) : c ∉ d.chars := fun hc =>
  absurd (h.symm.trans (d.isNamePart_of_mem hc)) Bool.false_ne_true

theorem ne_bracket_of_mem {c : Char} (h : c ∈ d.chars) : c ≠ '[' := by
  rintro rfl
  exact d.not_mem_of_not_isNamePart (by decide +kernel) h

theorem chars_ne_nil : d.chars ≠ [] :=
  List.append_ne_nil_of_right_ne_nil _ d.last.chars_ne_nil

/-- **The last segment of a dotted name is its last word.** -/
theorem lastSegment_text : lastSegment d.text = d.last.text := by
  have hword : ∀ w : Word, pieces '.' w.chars = [w.chars] := fun w =>
    Files.pieces_of_not_mem fun hmem =>
      absurd (w.isIdentifierPart_of_mem hmem) (by decide +kernel)
  have hpieces : pieces '.' d.chars = d.qualifiers.map Word.chars ++ [d.last.chars] := by
    unfold chars
    induction d.qualifiers with
    | nil => exact hword d.last
    | cons w ws ih =>
      rw [List.flatMap_cons, List.append_assoc, List.append_assoc, List.singleton_append,
        Text.pieces_append, ih, hword, List.map_cons]
      rfl
  unfold lastSegment Text.segments
  simp only [text, String.toList_ofList, hpieces]
  simp [Word.text]

/-- No dotted name is `None`. -/
theorem text_ne_none : d.text ≠ "None" := by
  intro h
  have hlast := d.lastSegment_text
  rw [h] at hlast
  refine d.last.text_not_mem_keywords ?_
  rw [← hlast]
  decide +kernel

end DottedName

/-! ## Spellings -/

/-- The quotes of a string: which mark they are made of, and whether there are three of it. -/
structure Delimiter where
  isDouble : Bool
  isTriple : Bool
deriving DecidableEq

namespace Delimiter

/-- The mark that the quotes are made of. -/
def mark (d : Delimiter) : Char := if d.isDouble then '"' else '\''

/-- The quotes on one side. -/
def chars (d : Delimiter) : List Char := List.replicate (if d.isTriple then 3 else 1) d.mark

theorem isQuote_mark (d : Delimiter) : isQuote d.mark = true := by
  unfold mark
  split <;> rfl

theorem isQuote_of_mem {d : Delimiter} {c : Char} (h : c ∈ d.chars) : isQuote c = true := by
  rw [List.eq_of_mem_replicate h]
  exact d.isQuote_mark

theorem chars_ne_nil (d : Delimiter) : d.chars ≠ [] := by
  unfold chars
  split <;> simp

end Delimiter

mutual

/-- **A spelling of a type**: an operand with as many `None`s on its left and on its right as are
said, joined by bars. -/
inductive Hint where
  | joined (before : Nat) (operand : Operand) (after : Nat)

/-- What is joined with `None`. -/
inductive Operand where
  | path (name : DottedName)
  | subscript (head : Operand) (arguments : Arguments)
  | quoted (quotes : Delimiter) (content : Hint)

/-- What stands in square brackets. -/
inductive Arguments where
  | one (hint : Hint)
  | more (hint : Hint) (rest : Arguments)

end

/-- How many blanks stand around the marks of an annotation. -/
structure Spacing where
  beforeBar : Nat
  afterBar : Nat
  beforeBracket : Nat
  withinBrackets : Nat
  beforeComma : Nat
  afterComma : Nat

/-- So many blanks. -/
def blanks (n : Nat) : List Char := List.replicate n ' '

section Texts

variable (s : Spacing)

/-- A bar with its blanks. -/
def Spacing.bar : List Char := blanks s.beforeBar ++ '|' :: blanks s.afterBar

/-- So many `None`s, each with a bar behind it. -/
def nonesBefore (n : Nat) : List Char := (List.replicate n ("None".toList ++ s.bar)).flatten

/-- So many `None`s, each with a bar in front of it. -/
def nonesAfter (n : Nat) : List Char := (List.replicate n (s.bar ++ "None".toList)).flatten

mutual

/-- The characters of a spelling. -/
def Hint.chars : Hint → List Char
  | .joined before operand after => nonesBefore s before ++ operand.chars ++ nonesAfter s after

def Operand.chars : Operand → List Char
  | .path name => name.chars
  | .subscript head arguments =>
    head.chars ++ blanks s.beforeBracket ++ '[' :: blanks s.withinBrackets ++ arguments.chars
      ++ blanks s.withinBrackets ++ [']']
  | .quoted quotes content => quotes.chars ++ content.chars ++ quotes.chars

def Arguments.chars : Arguments → List Char
  | .one hint => hint.chars
  | .more hint rest =>
    hint.chars ++ blanks s.beforeComma ++ ',' :: blanks s.afterComma ++ rest.chars

end

/-- The spelling as text. -/
def Hint.text (a : Hint) : String := String.ofList (a.chars s)

/-- The operand as text. -/
def Operand.text (o : Operand) : String := String.ofList (o.chars s)

end Texts

/-- Whether the operand is a dotted name that ends in `Optional`. -/
def Operand.isOptional : Operand → Bool
  | .path name => name.last = Word.optional
  | _ => false

mutual

/-- **The name that an annotation is about.** -/
def Hint.principal : Hint → DottedName
  | .joined _ operand _ => operand.principal

def Operand.principal : Operand → DottedName
  | .path name => name
  | .subscript head arguments =>
    if head.isOptional then arguments.principal else head.principal
  | .quoted _ content => content.principal

def Arguments.principal : Arguments → DottedName
  | .one hint => hint.principal
  | .more hint _ => hint.principal

end

/-! ### The spellings of one type -/

/-- The spelling in `Optional`, which may be qualified. -/
def Hint.optional (modules : List Word) (a : Hint) : Hint :=
  .joined 0 (.subscript (.path ⟨modules, Word.optional⟩) (.one a)) 0

/-- The spelling with `None` on its right. -/
def Hint.orNone : Hint → Hint
  | .joined before operand after => .joined before operand (after + 1)

/-- The spelling with `None` on its left. -/
def Hint.noneOr : Hint → Hint
  | .joined before operand after => .joined (before + 1) operand after

/-- The spelling in quotes. -/
def Hint.quoted (quotes : Delimiter) (a : Hint) : Hint := .joined 0 (.quoted quotes a) 0

/-- The spellings that say of a type that it may be absent, and the spelling itself. -/
def Hint.optionals (modules : List Word) (a : Hint) : List Hint :=
  [a, a.optional modules, a.orNone, a.noneOr]

/-- **All spellings of one type**: with and without `None`, with and without quotes. -/
def Hint.spellings (modules : List Word) (quotes : Delimiter) (a : Hint) : List Hint :=
  a.optionals modules ++ (a.optionals modules).map (Hint.quoted quotes)

/-- **All spellings of one type are about the same name.** -/
theorem Hint.principal_of_mem_spellings {modules : List Word} {quotes : Delimiter} {a v : Hint}
    (h : v ∈ a.spellings modules quotes) : v.principal = a.principal := by
  have hoptionals : ∀ v ∈ a.optionals modules, v.principal = a.principal := by
    obtain ⟨before, operand, after⟩ := a
    intro v hv
    simp only [Hint.optionals, List.mem_cons, List.not_mem_nil, or_false] at hv
    rcases hv with rfl | rfl | rfl | rfl
    · rfl
    · simp [Hint.optional, Hint.principal, Operand.principal, Operand.isOptional,
        Arguments.principal]
    · simp [Hint.orNone, Hint.principal]
    · simp [Hint.noneOr, Hint.principal]
  rcases List.mem_append.mp h with h | h
  · exact hoptionals v h
  · obtain ⟨v, hv, rfl⟩ := List.mem_map.mp h
    rw [Hint.quoted, Hint.principal, Operand.principal]
    exact hoptionals v hv

/-! ## What is found -/

/-- What follows a piece of a text that is cut at its quotes and its first square bracket. -/
inductive Follow where
  /-- Nothing but quotes. -/
  | nothing
  | bracket
  /-- A bar or a quote that is left. -/
  | other
deriving DecidableEq

mutual

/-- **What a cut leaves of a spelling**, if that is a name. -/
def Hint.shown? : Hint → Follow → Option DottedName
  | .joined before operand after, follow =>
    if before = 0 then operand.shown? (if after = 0 then follow else .other) else none

def Operand.shown? : Operand → Follow → Option DottedName
  | .path name, follow => if follow = .other then none else some name
  | .subscript head _, _ => head.shown? .bracket
  | .quoted _ content, follow => content.shown? (if follow = .nothing then .nothing else .other)

end

/-- Whether the name is what has been shown. -/
def isShown (name : DottedName) (shown : Option DottedName) : Bool :=
  shown.any fun d => d.text = name.text

/-- Where an annotation stands: as an annotation of its own, or inside an expression. -/
inductive Setting where
  | hint
  | expression
deriving DecidableEq

/-- Whether the operand is one name that no statement begins with. Square brackets behind such
a name form a generic type with it, if nothing stands in front. -/
def Operand.isBare : Operand → Bool
  | .path name => name.qualifiers.isEmpty && !Grammar.softWords.contains name.last.text
  | _ => false

/-- Whether the operand is a generic type, where it stands as an annotation of its own. -/
def Operand.isGeneric : Operand → Bool
  | .subscript head _ => head.isBare
  | _ => false

/-- Where the arguments behind a head stand. -/
def Operand.within (head : Operand) (setting : Setting) : Setting :=
  if head.isBare then setting else .expression

mutual

/-- **Whether the analysis finds the name that an annotation is about.** A `None` on the left hides
it. So do brackets behind other brackets, and a bar behind a generic type that is led by `Optional`.
In quotes it is found if it is what a cut leaves. -/
def Hint.isLegible : Hint → Setting → Bool
  | .joined before operand after, setting =>
    before = 0 &&
      if after = 0 then operand.isLegible setting
      else if setting = .hint && operand.isGeneric then
        isShown operand.principal (operand.shown? .nothing)
      else operand.isLegible .expression

def Operand.isLegible : Operand → Setting → Bool
  | .path _, _ => true
  | .subscript (.path name) arguments, setting =>
    if (Operand.path name).isOptional then
      arguments.isLegible ((Operand.path name).within setting)
    else true
  | .subscript _ _, _ => false
  | .quoted _ content, _ => isShown content.principal (content.shown? .nothing)

def Arguments.isLegible : Arguments → Setting → Bool
  | .one hint, setting => hint.isLegible setting
  | .more hint _, setting => hint.isLegible setting

end

/-! ## The cut -/

/-- What is left of a text that is cut at its quotes and its first square bracket. -/
def cut (cs : List Char) : List Char :=
  ((cs.dropWhile isQuote).rdropWhile isQuote).takeWhile (· ≠ '[')

/-- Whether a text is as `shown` says: the name that is shown, up to blanks behind it, or a text
that is no name. -/
def Shows : Option DottedName → List Char → Prop
  | some d, cs => ∃ n, cs = d.chars ++ blanks n
  | none, cs => ∃ c ∈ cs, isForeign c = true

/-- Whether a text is what follows. -/
def Follow.Fits : Follow → List Char → Prop
  | .nothing, rest => ∀ c ∈ rest, isQuote c = true
  | .bracket, rest => ∃ n tail, rest = blanks n ++ '[' :: tail
  | .other, rest => ∃ c ∈ (rest.rdropWhile isQuote).takeWhile (· ≠ '['), isForeign c = true

section Lists

variable {α : Type} {p : α → Bool}

end Lists

theorem not_isQuote_of_isNamePart {c : Char} (h : isNamePart c = true) : isQuote c = false := by
  by_contra hquote
  rw [Bool.not_eq_false] at hquote
  have := not_isNamePart_of_isForeign (c := c) (by rw [isForeign, hquote, Bool.or_true])
  exact absurd (this.symm.trans h) Bool.false_ne_true

/-- Blanks are no quotes and no brackets. -/
theorem isQuote_of_mem_blanks {n : Nat} {c : Char} (h : c ∈ blanks n) :
    isQuote c = false ∧ c ≠ '[' := by
  rw [List.eq_of_mem_replicate h]
  decide

/-- The cut of a text that begins with a name. -/
theorem cut_name_append (d : DottedName) (rest : List Char) :
    cut (d.chars ++ rest) = d.chars ++ (rest.rdropWhile isQuote).takeWhile (· ≠ '[') := by
  have hquote : ∀ c ∈ d.chars, isQuote c = false := fun c hc =>
    not_isQuote_of_isNamePart (d.isNamePart_of_mem hc)
  have hbracket : ∀ c ∈ d.chars, (decide (c ≠ '[')) = true := fun c hc =>
    decide_eq_true (d.ne_bracket_of_mem hc)
  unfold cut
  rw [dropWhile_append_eq_self d.chars_ne_nil hquote, rdropWhile_append]
  split
  · rename_i hnil
    rw [rdropWhile_eq_self hquote, hnil, List.takeWhile_nil, List.append_nil]
    exact List.takeWhile_eq_self_iff.mpr hbracket
  · exact List.takeWhile_append_of_pos hbracket

/-- Quotes at the front are cut off. -/
theorem cut_quotes_append {quotes : List Char} (h : ∀ c ∈ quotes, isQuote c = true)
    (cs : List Char) : cut (quotes ++ cs) = cut cs := by
  unfold cut
  rw [List.dropWhile_append_of_pos h]

namespace Follow

theorem fits_nothing_append {quotes rest : List Char} (h : ∀ c ∈ quotes, isQuote c = true)
    (hrest : Follow.nothing.Fits rest) : Follow.nothing.Fits (quotes ++ rest) := by
  intro c hc
  exact (List.mem_append.mp hc).elim (h c) (hrest c)

/-- Where something other than quotes follows, a quote or a bar in front of it is left. -/
theorem fits_other_cons {c : Char} {rest : List Char} (hc : isForeign c = true)
    (hrest : rest.rdropWhile isQuote ≠ []) : Follow.other.Fits (c :: rest) := by
  have hforeign : c ≠ '[' := by
    rintro rfl
    exact absurd hc (by decide)
  refine ⟨c, ?_, hc⟩
  rw [← List.singleton_append, rdropWhile_append, if_neg hrest, List.singleton_append,
    List.takeWhile_cons_of_pos (by simpa using hforeign)]
  exact List.mem_cons_self

/-- Something is left of what follows, so nothing before it is cut off. -/
theorem rdropWhile_ne_nil_of_fits {f : Follow} (hf : f ≠ .nothing) {rest : List Char}
    (h : f.Fits rest) : rest.rdropWhile isQuote ≠ [] := by
  cases f with
  | nothing => exact absurd rfl hf
  | bracket =>
    obtain ⟨n, tail, rfl⟩ := h
    rw [rdropWhile_append, rdropWhile_cons_neg _ (by decide), if_neg (List.cons_ne_nil _ _)]
    exact List.append_ne_nil_of_right_ne_nil _ (List.cons_ne_nil _ _)
  | other =>
    obtain ⟨c, hc, -⟩ := h
    intro hnil
    rw [hnil] at hc
    cases hc

/-- What follows the content of quotes. -/
theorem fits_quotes {f : Follow} {rest : List Char} (quotes : Delimiter) (h : f.Fits rest) :
    (if f = .nothing then Follow.nothing else .other).Fits (quotes.chars ++ rest) := by
  split
  · rename_i hf
    subst hf
    exact fits_nothing_append (fun c => Delimiter.isQuote_of_mem) h
  · rename_i hf
    have hrest := rdropWhile_ne_nil_of_fits hf h
    obtain ⟨c, cs, hquotes⟩ := List.exists_cons_of_ne_nil quotes.chars_ne_nil
    have hc : isQuote c = true := quotes.isQuote_of_mem (by simp [hquotes])
    rw [hquotes, List.cons_append]
    refine fits_other_cons (by rw [isForeign, hc, Bool.or_true]) ?_
    rw [rdropWhile_append, if_neg hrest]
    exact List.append_ne_nil_of_right_ne_nil _ hrest

/-- What follows an operand that is joined with `None` on its right. -/
theorem fits_nonesAfter {f : Follow} {rest : List Char} (s : Spacing) (after : Nat)
    (h : f.Fits rest) :
    (if after = 0 then f else Follow.other).Fits (nonesAfter s after ++ rest) := by
  cases after with
  | zero => exact h
  | succ n =>
    have hnone : nonesAfter s (n + 1) ++ rest = blanks s.beforeBar
        ++ '|' :: (blanks s.afterBar ++ ("None".toList ++ (nonesAfter s n ++ rest))) := by
      simp [nonesAfter, Spacing.bar, List.replicate_succ]
    have hleft : ("None".toList ++ (nonesAfter s n ++ rest)).rdropWhile isQuote ≠ [] := by
      rw [rdropWhile_append]
      split
      · decide
      · rename_i h
        exact List.append_ne_nil_of_right_ne_nil _ h
    rw [hnone, if_neg (Nat.succ_ne_zero n)]
    refine ⟨'|', ?_, rfl⟩
    rw [rdropWhile_append, rdropWhile_cons_neg _ (by decide), if_neg (List.cons_ne_nil _ _),
      List.takeWhile_append_of_pos fun c hc => decide_eq_true (isQuote_of_mem_blanks hc).2,
      List.takeWhile_cons_of_pos (by decide)]
    exact List.mem_append_right _ List.mem_cons_self

end Follow

/-- The cut of a text that begins with `None` and a bar has the bar in it. -/
theorem exists_isForeign_cut_nonesBefore (s : Spacing) (n : Nat) (rest : List Char) :
    ∃ c ∈ cut (nonesBefore s (n + 1) ++ rest), isForeign c = true := by
  have hnone : nonesBefore s (n + 1) ++ rest = ("None".toList ++ blanks s.beforeBar)
      ++ '|' :: (blanks s.afterBar ++ (nonesBefore s n ++ rest)) := by
    simp [nonesBefore, Spacing.bar, List.replicate_succ]
  have hfront : ∀ c ∈ "None".toList ++ blanks s.beforeBar, isQuote c = false ∧ c ≠ '[' := by
    intro c hc
    rcases List.mem_append.mp hc with hc | hc
    · have hall : ("None".toList.all fun c => !isQuote c && c ≠ '[') = true := by decide
      simpa using List.all_eq_true.mp hall c hc
    · exact isQuote_of_mem_blanks hc
  refine ⟨'|', ?_, rfl⟩
  unfold cut
  rw [hnone, dropWhile_append_eq_self (by simp) fun c hc => (hfront c hc).1,
    rdropWhile_append, rdropWhile_cons_neg _ (by decide), if_neg (List.cons_ne_nil _ _),
    List.takeWhile_append_of_pos fun c hc => decide_eq_true (hfront c hc).2,
    List.takeWhile_cons_of_pos (by decide)]
  exact List.mem_append_right _ List.mem_cons_self

section Cuts

variable {s : Spacing}

mutual

/-- **A cut leaves of a spelling what `shown?` says.** -/
theorem Hint.shows_cut : ∀ (a : Hint) {f : Follow} {rest : List Char}, f.Fits rest →
    Shows (a.shown? f) (cut (a.chars s ++ rest))
  | .joined before operand after, f, rest, hf => by
    rw [Hint.shown?, Hint.chars]
    cases before with
    | zero =>
      rw [if_pos rfl, List.append_assoc, List.append_assoc]
      exact operand.shows_cut (Follow.fits_nonesAfter s after hf)
    | succ before =>
      rw [if_neg (Nat.succ_ne_zero before), List.append_assoc, List.append_assoc]
      exact exists_isForeign_cut_nonesBefore s before _

theorem Operand.shows_cut : ∀ (o : Operand) {f : Follow} {rest : List Char}, f.Fits rest →
    Shows (o.shown? f) (cut (o.chars s ++ rest))
  | .path name, f, rest, hf => by
    rw [Operand.shown?, Operand.chars, cut_name_append]
    cases f with
    | nothing =>
      have hrest : rest.rdropWhile isQuote = [] := List.rdropWhile_eq_nil_iff.mpr hf
      rw [if_neg (by decide), hrest, List.takeWhile_nil]
      exact ⟨0, rfl⟩
    | bracket =>
      obtain ⟨n, tail, rfl⟩ := hf
      rw [if_neg (by decide), rdropWhile_append, rdropWhile_cons_neg _ (by decide),
        if_neg (List.cons_ne_nil _ _),
        List.takeWhile_append_of_pos fun c hc => decide_eq_true (isQuote_of_mem_blanks hc).2,
        List.takeWhile_cons_of_neg (by decide), List.append_nil]
      exact ⟨n, rfl⟩
    | other =>
      obtain ⟨c, hc, hforeign⟩ := hf
      exact ⟨c, List.mem_append_right _ hc, hforeign⟩
  | .subscript head arguments, f, rest, hf => by
    rw [Operand.shown?, Operand.chars]
    simp only [List.append_assoc, List.cons_append]
    exact head.shows_cut ⟨_, _, rfl⟩
  | .quoted quotes content, f, rest, hf => by
    rw [Operand.shown?, Operand.chars, List.append_assoc, List.append_assoc,
      cut_quotes_append fun c => Delimiter.isQuote_of_mem]
    exact content.shows_cut (Follow.fits_quotes quotes hf)

end

end Cuts

/-! ## From what is shown to a name -/

/-- Trimming a text is dropping characters from both ends. -/
theorem trimBy_ofList (drop : Char → Bool) (cs : List Char) :
    Text.trimBy drop (String.ofList cs) = String.ofList ((cs.dropWhile drop).rdropWhile drop) := by
  rw [Text.trimBy, String.toList_ofList, List.rdropWhile]

/-- What a text names up to its first square bracket, in terms of its characters. -/
theorem nameBeforeBracket_ofList {cs ds : List Char}
    (h : ds = (((cs.takeWhile (· ≠ '[')).dropWhile isBlank).rdropWhile isBlank)) (hne : ds ≠ []) :
    nameBeforeBracket (String.ofList cs) = some (String.ofList ds) := by
  have hname : Text.trimBy isBlank (Text.before '[' (String.ofList cs)) = String.ofList ds := by
    rw [h, Text.before, String.toList_ofList, trimBy_ofList]
  have hempty : (String.ofList ds).isEmpty = false := by
    rw [String.isEmpty_eq_false_iff]
    intro h
    exact hne (by simpa using congrArg String.toList h)
  unfold nameBeforeBracket
  rw [hname]
  simp only [hempty, Bool.false_eq_true, if_false]

/-- **The text that is shown gives a name**, and it is a given name exactly if that is what is
shown. -/
theorem exists_nameBeforeBracket {shown : Option DottedName} {cs : List Char}
    (h : Shows shown (cs.takeWhile (· ≠ '['))) :
    ∃ name, nameBeforeBracket (String.ofList cs) = some name
      ∧ ∀ d : DottedName, name = d.text ↔ isShown d shown = true := by
  cases shown with
  | some e =>
    have hblank : ∀ c ∈ e.chars, isBlank c = false := fun c hc =>
      not_isBlank_of_isNamePart (e.isNamePart_of_mem hc)
    obtain ⟨n, hn⟩ := h
    refine ⟨e.text, nameBeforeBracket_ofList ?_ e.chars_ne_nil, fun d => ?_⟩
    · have hbehind : (blanks n).rdropWhile isBlank = [] :=
        List.rdropWhile_eq_nil_iff.mpr fun c hc => by rw [List.eq_of_mem_replicate hc]; rfl
      rw [hn, dropWhile_append_eq_self e.chars_ne_nil hblank, rdropWhile_append, if_pos hbehind,
        rdropWhile_eq_self hblank]
    · simp [isShown]
  | none =>
    obtain ⟨c, hc, hforeign⟩ := h
    -- Trimming takes blanks away and leaves the foreign character.
    have htrim : c ∈ (((cs.takeWhile (· ≠ '[')).dropWhile isBlank).rdropWhile isBlank) := by
      have hblank := not_isBlank_of_isForeign hforeign
      have hfront : c ∈ (cs.takeWhile (· ≠ '[')).dropWhile isBlank :=
        mem_dropWhile hc hblank
      exact List.mem_reverse.mpr (mem_dropWhile (List.mem_reverse.mpr hfront) hblank)
    refine ⟨_, nameBeforeBracket_ofList rfl (List.ne_nil_of_mem htrim), fun d => ?_⟩
    refine iff_of_false (fun hname => ?_) (by simp [isShown])
    have hchars := congrArg String.toList hname
    rw [DottedName.text, String.toList_ofList, String.toList_ofList] at hchars
    rw [hchars] at htrim
    exact d.not_mem_of_not_isNamePart (not_isNamePart_of_isForeign hforeign) htrim

end CallTree.Syntax.Spelling
