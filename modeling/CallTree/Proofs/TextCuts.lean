import CallTree.Syntax.Source
import Mathlib.Data.List.Basic

/-!
# Where a text can be cut

Bytes that encode a text can be cut between two characters and nowhere else, and what lies
between two such cuts is a text again. The reason is that a character is known from its own
bytes: whatever comes after them makes no difference (`head_eq_char`). So a text is its first
character and a text (`IsText.induction`), and of two texts in a row the first can be taken away
(`IsText.append_iff`). What a text is written as is a text, too (`Source.isText_ofText`).

The characters of a file are listed with their places, and for a file that is a text these places
are cuts (`aligned_glyphs`). Between the places of two characters lie the bytes of the first one,
which is a single byte for every character of the first hundred and twenty-eight; the places
inside a mark of several such characters are cuts as well.
-/

namespace CallTree

namespace Text.Utf8

/-! ## Characters are known from their own bytes -/

section Head

variable {b : UInt8} {bs : List UInt8} {c : Char} {width : Nat}

/-- **What completes a byte to a character** stands right behind it, and whatever comes after that
makes no difference. -/
theorem head_eq_char (h : head b bs = .char c width) :
    ∃ tail rest, bs = tail ++ rest ∧ width = tail.length + 1
      ∧ ∀ more, head b (tail ++ more) = .char c width := by
  revert h
  fun_cases head b bs with
  | case1 bs hb =>
    rintro ⟨⟩
    exact ⟨[], bs, rfl, rfl, fun more => if_pos hb⟩
  | case4 h₁ h₂ hb d ds hd =>
    rintro ⟨⟩
    exact ⟨[d], ds, rfl, rfl, fun more => by simp [head, h₁, h₂, hb, hd]⟩
  | case9 h₁ h₂ h₃ hb d hd e es he =>
    rintro ⟨⟩
    exact ⟨[d, e], es, rfl, rfl, fun more => by simp [head, h₁, h₂, h₃, hb, hd, he]⟩
  | case16 h₁ h₂ h₃ h₄ hb d hd e he f fs hf =>
    rintro ⟨⟩
    exact ⟨[d, e, f], fs, rfl, rfl, fun more => by simp [head, h₁, h₂, h₃, h₄, hb, hd, he, hf]⟩
  | _ => nofun

/-- A character with a large number is none of the first ones, even if the number belongs to no
character and another one stands for it. -/
theorem not_ofNat_lt {n : Nat} (hn : 128 ≤ n) (hpos : 0 < (Char.ofNat n).toNat) :
    ¬ (Char.ofNat n).toNat < 128 := by
  unfold Char.ofNat at hpos ⊢
  by_cases hvalid : n.isValidChar
  · rw [dif_pos hvalid]
    show ¬ n < 128
    omega
  · rw [dif_neg hvalid] at hpos
    exact absurd hpos (Nat.lt_irrefl 0)

/-- A character that one byte can encode has no more than that byte. -/
theorem width_eq_one (h : head b bs = .char c width) (hpos : 0 < c.toNat) (hlt : c.toNat < 128) :
    width = 1 := by
  revert h
  fun_cases head b bs with
  | case1 bs hb =>
    rintro ⟨⟩
    rfl
  | case4 h₁ h₂ hb d ds hd =>
    rintro ⟨⟩
    refine absurd hlt (not_ofNat_lt ?_ hpos)
    simp only [UInt8.lt_iff_toNat_lt, UInt8.reduceToNat] at h₂
    omega
  | case9 h₁ h₂ h₃ hb d hd e es he =>
    rintro ⟨⟩
    refine absurd hlt (not_ofNat_lt ?_ hpos)
    simp [UInt8.lt_iff_toNat_lt, UInt8.le_iff_toNat_le, secondOfThree, isContinuation, payload,
      ← UInt8.toNat_inj] at *
    omega
  | case16 h₁ h₂ h₃ h₄ hb d hd e he f fs hf =>
    rintro ⟨⟩
    refine absurd hlt (not_ofNat_lt ?_ hpos)
    simp [UInt8.lt_iff_toNat_lt, UInt8.le_iff_toNat_le, secondOfFour, isContinuation, payload,
      ← UInt8.toNat_inj] at *
    omega
  | _ => nofun

end Head

/-! ## Texts -/

/-- **Bytes that are a text.** -/
def IsText (bytes : List UInt8) : Prop := ∃ text, decode bytes = .ok text

theorem isText_iff {bytes : List UInt8} : IsText bytes ↔ ∃ cs, decodeFrom 0 0 bytes = .ok cs := by
  unfold IsText decode
  cases decodeFrom 0 0 bytes with
  | ok cs => exact ⟨fun _ => ⟨cs, rfl⟩, fun _ => ⟨_, rfl⟩⟩
  | error defect => exact ⟨fun ⟨_, h⟩ => (nomatch h), fun ⟨_, h⟩ => (nomatch h)⟩

theorem isText_nil : IsText [] := ⟨_, rfl⟩

/-- Reading succeeds wherever it begins, if what is left after the bytes that belong to the
character before is a text. -/
theorem exists_decodeFrom_iff (offset pending : Nat) (bs : List UInt8) :
    (∃ cs, decodeFrom offset pending bs = .ok cs) ↔ IsText (bs.drop pending) := by
  rw [isText_iff]
  induction bs generalizing offset pending with
  | nil => simp [decodeFrom]
  | cons b bs ih =>
    cases pending with
    | succ k => exact ih (offset + 1) k
    | zero =>
      rw [List.drop_zero, decodeFrom, decodeFrom]
      cases head b bs with
      | broken width reason => exact ⟨fun ⟨_, h⟩ => (nomatch h), fun ⟨_, h⟩ => (nomatch h)⟩
      | char c width =>
        have hmap (x : Except Defect (List Char)) :
            (∃ cs, x.map (c :: ·) = .ok cs) ↔ ∃ cs, x = .ok cs := by
          cases x with
          | ok cs => exact ⟨fun _ => ⟨cs, rfl⟩, fun _ => ⟨_, rfl⟩⟩
          | error defect => exact ⟨fun ⟨_, h⟩ => (nomatch h), fun ⟨_, h⟩ => (nomatch h)⟩
        show (∃ cs, (decodeFrom (offset + 1) (width - 1) bs).map (c :: ·) = .ok cs)
          ↔ ∃ cs, (decodeFrom 1 (width - 1) bs).map (c :: ·) = .ok cs
        rw [hmap, hmap, ih, ih]

/-- **The bytes of a character**: whatever comes behind them, it is this character that they are
read as. -/
def Encodes (b : UInt8) (tail : List UInt8) (c : Char) : Prop :=
  ∀ more, head b (tail ++ more) = .char c (tail.length + 1)

/-- Behind the bytes of a character, what is left decides. -/
theorem Encodes.isText_iff {b : UInt8} {tail : List UInt8} {c : Char} (h : Encodes b tail c)
    (rest : List UInt8) : IsText (b :: (tail ++ rest)) ↔ IsText rest := by
  rw [Utf8.isText_iff, decodeFrom, h rest]
  have hrest := exists_decodeFrom_iff 1 tail.length (tail ++ rest)
  rw [List.drop_left] at hrest
  rw [← hrest]
  show (∃ cs, (decodeFrom 1 tail.length (tail ++ rest)).map (c :: ·) = .ok cs) ↔ _
  cases decodeFrom 1 tail.length (tail ++ rest) with
  | ok cs => exact ⟨fun _ => ⟨cs, rfl⟩, fun _ => ⟨_, rfl⟩⟩
  | error defect => exact ⟨fun ⟨_, h⟩ => (nomatch h), fun ⟨_, h⟩ => (nomatch h)⟩

/-- A text that is not empty begins with the bytes of a character. -/
theorem IsText.encodes {b : UInt8} {bs : List UInt8} (h : IsText (b :: bs)) :
    ∃ c tail rest, bs = tail ++ rest ∧ Encodes b tail c := by
  obtain ⟨cs, hcs⟩ := Utf8.isText_iff.mp h
  rw [decodeFrom] at hcs
  cases hhead : head b bs with
  | broken width reason =>
    rw [hhead] at hcs
    cases hcs
  | char c width =>
    obtain ⟨tail, rest, hbs, rfl, hmore⟩ := head_eq_char hhead
    exact ⟨c, tail, rest, hbs, hmore⟩

/-- **A text is empty, or a character and a text.** -/
@[elab_as_elim]
theorem IsText.induction {motive : List UInt8 → Prop} (nil : motive [])
    (char : ∀ b tail rest c, Encodes b tail c → motive rest → motive (b :: (tail ++ rest)))
    {bytes : List UInt8} (h : IsText bytes) : motive bytes := by
  induction hn : bytes.length using Nat.strongRecOn generalizing bytes with
  | _ n ih =>
    cases bytes with
    | nil => exact nil
    | cons b bs =>
      obtain ⟨c, tail, rest, rfl, hc⟩ := h.encodes
      have hrest := (hc.isText_iff rest).mp h
      refine char b tail rest c hc (ih rest.length ?_ hrest rfl)
      rw [← hn, List.length_cons, List.length_append]
      omega

/-- **Behind a text, what is left decides.** -/
theorem IsText.append_iff {a : List UInt8} (ha : IsText a) (bytes : List UInt8) :
    IsText (a ++ bytes) ↔ IsText bytes := by
  refine IsText.induction Iff.rfl (fun b tail rest c hc ih => ?_) ha
  rw [List.cons_append, List.append_assoc, hc.isText_iff]
  exact ih

/-! ## Characters as they are written -/

theorem toNat_ofNat_of_lt {x : Nat} (h : x < 256) : (UInt8.ofNat x).toNat = x := by
  rw [UInt8.toNat_ofNat', Nat.mod_eq_of_lt h]

/-- The last six bits of a number, as the payload of a byte that continues a character. -/
theorem continues_ofNat (x : Nat) :
    isContinuation (UInt8.ofNat (x % 64 + 128))
      ∧ (UInt8.ofNat (x % 64 + 128)).toNat = x % 64 + 128
      ∧ payload (UInt8.ofNat (x % 64 + 128)) = x % 64 := by
  have hx := toNat_ofNat_of_lt (x := x % 64 + 128) (by omega)
  unfold payload isContinuation
  rw [hx]
  refine ⟨?_, rfl, by omega⟩
  simp only [UInt8.le_iff_toNat_le, UInt8.lt_iff_toNat_lt, hx, UInt8.reduceToNat,
    Bool.and_eq_true, decide_eq_true_eq]
  omega

theorem secondOfThree_ofNat {lead b : UInt8} {v : Nat} (hlead : lead.toNat = v / 4096 % 16 + 224)
    (hb : isContinuation b) (htoNat : b.toNat = v / 64 % 64 + 128) (hv : 2047 < v)
    (hv' : v < 0xD800 ∨ 0xDFFF < v ∧ v ≤ 65535) : secondOfThree lead b := by
  simp only [secondOfThree, hb, ← UInt8.toNat_inj, UInt8.lt_iff_toNat_lt, UInt8.le_iff_toNat_le,
    hlead, htoNat, UInt8.reduceToNat, Bool.true_and, Bool.and_eq_true, Bool.not_eq_true',
    Bool.and_eq_false_iff, decide_eq_false_iff_not]
  omega

theorem secondOfFour_ofNat {lead b : UInt8} {v : Nat} (hlead : lead.toNat = v / 262144 % 8 + 240)
    (hb : isContinuation b) (htoNat : b.toNat = v / 4096 % 64 + 128) (hv : 65535 < v)
    (hv' : v < 0x110000) : secondOfFour lead b := by
  simp only [secondOfFour, hb, ← UInt8.toNat_inj, UInt8.lt_iff_toNat_lt, UInt8.le_iff_toNat_le,
    hlead, htoNat, UInt8.reduceToNat, Bool.true_and, Bool.and_eq_true, Bool.not_eq_true',
    Bool.and_eq_false_iff, decide_eq_false_iff_not]
  omega

/-- **A character is read back from the bytes it is written as.** -/
theorem encodes_utf8EncodeChar (c : Char) :
    ∃ b tail, String.utf8EncodeChar c = b :: tail ∧ Encodes b tail c := by
  have hc : Char.ofNat c.val.toNat = c := Char.ofNat_toNat c
  have hvalid : c.val.toNat < 0xD800 ∨ 0xDFFF < c.val.toNat ∧ c.val.toNat < 0x110000 := c.valid
  rw [String.utf8EncodeChar]
  generalize c.val.toNat = v at hc hvalid
  subst hc
  unfold Encodes
  -- one case for each number of bytes, from one to four
  split
  · refine ⟨_, _, rfl, fun more => ?_⟩
    have hlead := toNat_ofNat_of_lt (x := v) (by omega)
    simp only [head, UInt8.lt_iff_toNat_lt, hlead, UInt8.reduceToNat]
    rw [if_pos (by omega)]
    rfl
  split
  · refine ⟨_, _, rfl, fun more => ?_⟩
    have hlead := toNat_ofNat_of_lt (x := v / 64 % 32 + 192) (by omega)
    obtain ⟨hb, -, hpayload⟩ := continues_ofNat v
    simp only [head, UInt8.lt_iff_toNat_lt, hlead, UInt8.reduceToNat, List.cons_append, hb,
      hpayload, if_true]
    rw [if_neg (by omega), if_neg (by omega), if_pos (by omega)]
    congr 2
    omega
  split
  · refine ⟨_, _, rfl, fun more => ?_⟩
    have hlead := toNat_ofNat_of_lt (x := v / 4096 % 16 + 224) (by omega)
    obtain ⟨hb, htoNat, hpayload⟩ := continues_ofNat (v / 64)
    obtain ⟨hd, -, hpayload'⟩ := continues_ofNat v
    have hsecond := secondOfThree_ofNat hlead hb htoNat (by omega) (by omega)
    simp only [head, UInt8.lt_iff_toNat_lt, hlead, UInt8.reduceToNat, List.cons_append, hsecond, hd,
      hpayload, hpayload', if_true, Bool.not_true, Bool.false_eq_true, if_false]
    rw [if_neg (by omega), if_neg (by omega), if_neg (by omega), if_pos (by omega)]
    congr 2
    omega
  · refine ⟨_, _, rfl, fun more => ?_⟩
    have hlead := toNat_ofNat_of_lt (x := v / 262144 % 8 + 240) (by omega)
    obtain ⟨hb, htoNat, hpayload⟩ := continues_ofNat (v / 4096)
    obtain ⟨hd, -, hpayload'⟩ := continues_ofNat (v / 64)
    obtain ⟨he, -, hpayload''⟩ := continues_ofNat v
    have hsecond := secondOfFour_ofNat hlead hb htoNat (by omega) (by omega)
    simp only [head, UInt8.lt_iff_toNat_lt, hlead, UInt8.reduceToNat, List.cons_append, hsecond, hd,
      he, hpayload, hpayload', hpayload'', if_true, Bool.not_true, Bool.false_eq_true, if_false]
    rw [if_neg (by omega), if_neg (by omega), if_neg (by omega), if_neg (by omega),
      if_pos (by omega)]
    congr 2
    omega

/-- Characters in a row, as they are written, are a text. -/
theorem isText_flatMap (cs : List Char) : IsText (cs.flatMap String.utf8EncodeChar) := by
  induction cs with
  | nil => exact isText_nil
  | cons c cs ih =>
    obtain ⟨b, tail, hbytes, hencodes⟩ := encodes_utf8EncodeChar c
    rw [List.flatMap_cons, hbytes]
    exact (hencodes.isText_iff _).mpr ih

/-! ## Cuts -/

/-- **A place where a text can be cut**: what stands before it is a text. -/
def IsCut (bytes : List UInt8) (n : Nat) : Prop := n ≤ bytes.length ∧ IsText (bytes.take n)

theorem isCut_zero (bytes : List UInt8) : IsCut bytes 0 := ⟨Nat.zero_le _, isText_nil⟩

theorem isCut_length {bytes : List UInt8} (h : IsText bytes) : IsCut bytes bytes.length := by
  refine ⟨Nat.le_refl _, ?_⟩
  rwa [List.take_length]

theorem isCut_append {front back : List UInt8} (h : IsText front) :
    IsCut (front ++ back) front.length := by
  refine ⟨by simp, ?_⟩
  rwa [List.take_left]

/-- **What lies between two cuts is a text.** -/
theorem IsCut.isText {bytes : List UInt8} {start stop : Nat} (hstart : IsCut bytes start)
    (hstop : IsCut bytes stop) : IsText ((bytes.drop start).take (stop - start)) := by
  rcases Nat.le_total stop start with hle | hle
  · rw [Nat.sub_eq_zero_of_le hle]
    exact isText_nil
  · have hsplit : bytes.take stop
        = bytes.take start ++ (bytes.drop start).take (stop - start) := by
      rw [← List.take_add, Nat.add_sub_cancel' hle]
    rw [← hstart.2.append_iff, ← hsplit]
    exact hstop.2

end Text.Utf8

/-! ## The places of characters -/

namespace Syntax

open CallTree.Text.Utf8

/-- The place of the first of some characters, or the end of the file if there is none. -/
def firstOffset (fileEnd : Nat) (gs : List Glyph) : Nat := (gs.head?.map (·.offset)).getD fileEnd

/-- **Characters that stand at cuts**, up to the end of the file. Behind one of the first hundred
and twenty-eight the next place follows at once. -/
def Aligned (bytes : List UInt8) (fileEnd : Nat) : List Glyph → Prop
  | [] => IsCut bytes fileEnd
  | g :: gs =>
    IsCut bytes g.offset
      ∧ (0 < g.char.toNat → g.char.toNat < 128 → firstOffset fileEnd gs = g.offset + 1)
      ∧ Aligned bytes fileEnd gs

theorem Aligned.drop {bytes : List UInt8} {fileEnd : Nat} {gs : List Glyph}
    (h : Aligned bytes fileEnd gs) (n : Nat) : Aligned bytes fileEnd (gs.drop n) := by
  induction n generalizing gs with
  | zero => exact h
  | succ n ih =>
    cases gs with
    | nil => exact h
    | cons g gs => exact ih h.2.2

theorem Aligned.isCut {bytes : List UInt8} {fileEnd : Nat} {gs : List Glyph}
    (h : Aligned bytes fileEnd gs) : IsCut bytes (firstOffset fileEnd gs) := by
  cases gs with
  | nil => exact h
  | cons g gs => exact h.1

/-- The bytes that belong to a character are passed over. -/
theorem glyphsFrom_append (offset row : Nat) (tail rest : List UInt8) :
    glyphsFrom offset row tail.length (tail ++ rest)
      = glyphsFrom (offset + tail.length) row 0 rest := by
  induction tail generalizing offset with
  | nil => rfl
  | cons b tail ih =>
    rw [List.length_cons, List.cons_append, glyphsFrom, ih (offset + 1)]
    congr 1
    omega

theorem firstOffset_glyphsFrom {fileEnd offset row : Nat} {bytes : List UInt8}
    (h : offset + bytes.length = fileEnd) :
    firstOffset fileEnd (glyphsFrom offset row 0 bytes) = offset := by
  cases bytes with
  | nil => exact h.symm
  | cons b bs =>
    rw [glyphsFrom]
    cases head b bs <;> rfl

/-- The characters of the second of two texts. -/
theorem aligned_glyphsFrom {back : List UInt8} (hback : IsText back) (front : List UInt8)
    (hfront : IsText front) (row : Nat) : Aligned (front ++ back) (front ++ back).length
      (glyphsFrom front.length row 0 back) := by
  -- The induction is on the text at the back, whose first character goes over to the front.
  revert front row
  refine IsText.induction (fun front hfront row => ?_)
    (fun b tail rest c hc ih front hfront row => ?_) hback
  · rw [List.append_nil]
    exact isCut_length hfront
  have hchar : IsText (b :: tail) := by
    have hiff := hc.isText_iff []
    rw [List.append_nil] at hiff
    exact hiff.mpr isText_nil
  have hnext : IsText (front ++ b :: tail) := (hfront.append_iff _).mpr hchar
  have hbytes : front ++ b :: (tail ++ rest) = (front ++ b :: tail) ++ rest := by simp
  have hlength : front.length + 1 + tail.length = (front ++ b :: tail).length := by
    simp only [List.length_append, List.length_cons]
    omega
  rw [glyphsFrom, hc rest]
  refine ⟨isCut_append hfront, fun hpos hlt => ?_, ?_⟩
  · have hwidth := width_eq_one (hc rest) hpos hlt
    show firstOffset _ (glyphsFrom (front.length + 1) _ tail.length (tail ++ rest)) = _
    rw [glyphsFrom_append, firstOffset_glyphsFrom]
    · show front.length + 1 + tail.length = front.length + 1
      omega
    · simp only [List.length_append, List.length_cons]
      omega
  · show Aligned _ _ (glyphsFrom (front.length + 1) _ tail.length (tail ++ rest))
    rw [glyphsFrom_append, hlength, hbytes]
    exact ih _ hnext _

/-- **The characters of a text stand at its cuts.** -/
theorem aligned_glyphs {bytes : List UInt8} (h : IsText bytes) :
    Aligned bytes bytes.length (glyphs bytes) :=
  aligned_glyphsFrom h [] isText_nil 0

/-! ## The bytes of a source -/

theorem toList_loop_eq (bytes : ByteArray) (i : Nat) (before : List UInt8) :
    ByteArray.toList.loop bytes i before = before.reverse ++ bytes.data.toList.drop i := by
  fun_induction ByteArray.toList.loop bytes i before with
  | case1 i before h ih =>
    have hi : i < bytes.data.toList.length := h
    rw [ih, List.drop_eq_getElem_cons hi]
    simp [ByteArray.get!, h]
  | case2 i before h =>
    rw [List.drop_eq_nil_of_le (Nat.le_of_not_lt h), List.append_nil]

theorem toList_eq (bytes : ByteArray) : bytes.toList = bytes.data.toList := by
  rw [ByteArray.toList, toList_loop_eq]
  rfl

theorem length_toList (bytes : ByteArray) : bytes.toList.length = bytes.size := by
  rw [toList_eq]
  rfl

/-- **A text is written as a text.** -/
theorem Source.isText_ofText (text : String) : IsText (Source.ofText text).bytes.toList := by
  have hbytes : (Source.ofText text).bytes.toList = text.toList.flatMap String.utf8EncodeChar := by
    rw [toList_eq, Source.ofText, String.toUTF8, ← String.utf8Encode_toList, List.utf8Encode,
      List.data_toByteArray]
  rw [hbytes]
  exact isText_flatMap _

/-- **The text of a span between two cuts can be read.** -/
theorem Source.exists_decode_slice (src : Source) {span : Span}
    (hstart : IsCut src.bytes.toList span.start) (hstop : IsCut src.bytes.toList span.stop) :
    ∃ text, decode (src.slice span) = .ok text := by
  have hslice : src.slice span
      = (src.bytes.toList.drop span.start).take (span.stop - span.start) := by
    rw [Source.slice, toList_eq, toList_eq, ByteArray.data_extract, Array.toList_extract,
      List.extract]
  rw [hslice]
  exact hstart.isText hstop

end Syntax

end CallTree
