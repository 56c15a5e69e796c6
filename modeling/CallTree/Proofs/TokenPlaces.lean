import CallTree.Proofs.TextCuts
import CallTree.Syntax.Token.Lexer

/-!
# Tokens lie between characters

In a file that is a text, no token begins or ends within a character, and the same goes for the
comments and continuations in the gaps between tokens and for the escapes in a string. The lexer
only ever moves from the place of one character to the place of another, so all of it follows from
one fact, that the characters stand at cuts (`Aligned`): what a step of the scan leaves behind are
the last ones of the characters that it was given (`on_step`).

Two kinds of tokens are taken apart later on, at places that no character was looked up for: two
stars in a row are read as one and another, and three dots as a dot each. These places are cuts as
well, since the characters of an operator take one byte each.
-/

namespace CallTree.Syntax

open CallTree.Text.Utf8

variable {bytes : List UInt8}

/-! ## Places -/

/-- **A span between two cuts.** -/
structure Span.On (bytes : List UInt8) (span : Span) : Prop where
  start : IsCut bytes span.start
  stop : IsCut bytes span.stop

theorem Place.on_to {a b : Place} (ha : IsCut bytes a.offset) (hb : IsCut bytes b.offset) :
    (a.to b).On bytes := ⟨ha, hb⟩

/-- What stands in a gap lies between cuts. -/
def Trivium.On (bytes : List UInt8) : Trivium → Prop
  | .lineEnd | .hairline _ => True
  | .comment _ span => span.On bytes
  | .continuation span stop => span.On bytes ∧ IsCut bytes stop.offset

/-- The places inside a token that begins at `start`: the escapes of a string lie between cuts, and
the characters of an operator stand at cuts. -/
def Lexeme.On (bytes : List UInt8) (start : Nat) : Lexeme → Prop
  | .stringContent escapes => ∀ escape ∈ escapes, escape.2.On bytes
  | .mark text => text.length ≤ 1 ∨ ∀ i ≤ text.length, IsCut bytes (start + i)
  | _ => True

/-- **A token that lies between cuts**, with all that is known of places inside and before it. -/
structure Token.On (bytes : List UInt8) (t : Token) : Prop where
  span : t.span.On bytes
  inside : t.lexeme.On bytes t.span.start
  gap : ∀ trivium ∈ t.gap.trivia, trivium.On bytes

/-- The places between the characters of an operator. -/
theorem Token.On.isCut_add {t : Token} (h : t.On bytes) {text : String} (hmark : t.isMark text)
    (hlong : 1 < text.length) {i : Nat} (hi : i ≤ text.length) :
    IsCut bytes (t.span.start + i) := by
  have hinside := h.inside
  rw [show t.lexeme = .mark text from of_decide_eq_true hmark] at hinside
  exact hinside.resolve_left (Nat.not_le.mpr hlong) i hi

/-! ## Characters -/

/-- What is left of the characters is aligned as they are. -/
theorem Aligned.of_suffix {fileEnd : Nat} {gs rest : List Glyph} (h : Aligned bytes fileEnd gs)
    (hrest : rest <:+ gs) : Aligned bytes fileEnd rest := by
  rw [List.suffix_iff_eq_drop.mp hrest]
  exact h.drop _

/-- **The places of characters that take one byte each** follow one another. -/
theorem Aligned.isCut_add {fileEnd : Nat} {cs : List Char}
    (hcs : ∀ c ∈ cs, 0 < c.toNat ∧ c.toNat < 128) {gs : List Glyph}
    (h : Aligned bytes fileEnd gs) (hbegins : cs <+: gs.map (·.char)) {i : Nat}
    (hi : i ≤ cs.length) : IsCut bytes (firstOffset fileEnd gs + i) := by
  induction cs generalizing gs i with
  | nil =>
    obtain rfl : i = 0 := Nat.le_zero.mp hi
    exact h.isCut
  | cons c cs ih =>
    cases gs with
    | nil => cases List.prefix_nil.mp hbegins
    | cons g gs =>
      obtain ⟨rfl, htail⟩ := List.cons_prefix_cons.mp hbegins
      cases i with
      | zero => exact h.isCut
      | succ i =>
        have hnext := h.2.1 (hcs _ List.mem_cons_self).1 (hcs _ List.mem_cons_self).2
        have hcut := ih (fun c hc => hcs c (List.mem_cons_of_mem _ hc)) h.2.2 htail
          (Nat.le_of_succ_le_succ hi)
        rw [hnext] at hcut
        show IsCut bytes (g.offset + (i + 1))
        rwa [Nat.add_comm i 1, ← Nat.add_assoc]

/-- A stretch of a string whose escapes lie between cuts, with characters at cuts behind it. -/
structure Quote.IsOn (bytes : List UInt8) (fileEnd : Nat)
    (read : List (Kind × Span) × ContentEnd × List Glyph) : Prop where
  escapes : ∀ escape ∈ read.1, escape.2.On bytes
  rest : Aligned bytes fileEnd read.2.2

/-- **The content of a string** stays at cuts. -/
theorem Quote.isOn_content (q : Quote) {fileEnd : Nat} {gs : List Glyph}
    (h : Aligned bytes fileEnd gs) (skip : Nat) :
    Quote.IsOn bytes fileEnd (q.content fileEnd skip gs) := by
  have hstop {gs : List Glyph} (h : Aligned bytes fileEnd gs) (ending : ContentEnd) :
      Quote.IsOn bytes fileEnd ([], ending, gs) := ⟨fun _ h => absurd h List.not_mem_nil, h⟩
  fun_induction Quote.content fileEnd q skip gs with
  | case1 => exact hstop h _
  | case2 g gs k ih => exact ih h.2.2
  | case3 g gs escape _ _ escapes ending rest hread ih =>
    rw [hread] at ih
    exact ⟨List.forall_mem_cons.mpr ⟨⟨h.1, (h.2.2.drop 1).isCut⟩, (ih h.2.2).escapes⟩,
      (ih h.2.2).rest⟩
  | case4 => exact hstop h _
  | case5 g gs _ n _ ih => exact ih h.2.2
  | case6 => exact hstop h _
  | case7 g gs escape _ _ _ n _ escapes ending rest hread ih =>
    rw [hread] at ih
    exact ⟨List.forall_mem_cons.mpr ⟨⟨h.1, (h.2.2.drop (n - 1)).isCut⟩, (ih h.2.2).escapes⟩,
      (ih h.2.2).rest⟩
  | case8 g gs _ _ _ _ ih => exact ih h.2.2
  | case9 => exact hstop h _
  | case10 => exact hstop h _

namespace Lexer

variable {fileEnd : Place} {st : State} {gs rest : List Glyph}

/-- The place of the next character, which is the end of the file if there is none. -/
theorem offset_placeOf (fileEnd : Place) (gs : List Glyph) :
    (placeOf fileEnd gs).offset = firstOffset fileEnd.offset gs := by
  cases gs <;> rfl

/-! ## Steps of the scan -/

/-- What the lexer remembers of the gap lies between cuts. -/
def State.On (bytes : List UInt8) (st : State) : Prop :=
  ∀ trivium ∈ st.trivia, trivium.On bytes

/-- **A step of the scan that stays at cuts**: the tokens found, the gap after them and the
characters that are left. -/
structure Step.On (bytes : List UInt8) (fileEnd : Place) (s : Step) : Prop where
  tokens : ∀ t ∈ s.tokens, t.On bytes
  state : s.state.On bytes
  rest : Aligned bytes fileEnd.offset s.rest

theorem Step.On.within {s : Step} (h : s.On bytes fileEnd) (contexts : List Context) :
    (s.within contexts).On bytes fileEnd :=
  ⟨h.tokens, h.state, h.rest⟩

theorem State.On.gap (h : st.On bytes) : ∀ trivium ∈ st.gap.trivia, trivium.On bytes :=
  fun trivium htrivium => h trivium (List.mem_reverse.mp htrivium)

theorem State.On.passing (h : st.On bytes) {trivium : Trivium} (htrivium : trivium.On bytes)
    (indentation : Nat) : (st.passing trivium indentation).On bytes :=
  List.forall_mem_cons.mpr ⟨htrivium, h⟩

/-- A blank is passed over. -/
theorem on_blank (h : st.On bytes) (hrest : Aligned bytes fileEnd.offset rest) :
    Step.On bytes fileEnd ⟨[], st, rest⟩ :=
  ⟨fun _ ht => absurd ht List.not_mem_nil, h, hrest⟩

/-- **A token from here to there** lies between cuts, with the gap before it. -/
theorem on_takeTo (hst : st.On bytes) (hgs : Aligned bytes fileEnd.offset gs)
    (hrest : Aligned bytes fileEnd.offset rest) {lexeme : Lexeme}
    (hlexeme : lexeme.On bytes (firstOffset fileEnd.offset gs)) :
    (takeTo fileEnd st lexeme gs rest).On bytes fileEnd := by
  refine ⟨List.forall_mem_singleton.mpr ⟨Place.on_to ?_ ?_, ?_, hst.gap⟩,
    fun _ h => absurd h List.not_mem_nil, hrest⟩
  · rw [offset_placeOf]
    exact hgs.isCut
  · rw [offset_placeOf]
    exact hrest.isCut
  · show lexeme.On bytes (placeOf fileEnd gs).offset
    rwa [offset_placeOf]

theorem on_take (hst : st.On bytes) (hgs : Aligned bytes fileEnd.offset gs) (n : Nat)
    {lexeme : Lexeme} (hlexeme : lexeme.On bytes (firstOffset fileEnd.offset gs)) :
    (take fileEnd st lexeme n gs).On bytes fileEnd :=
  on_takeTo hst hgs (hgs.drop n) hlexeme

/-- A mark of one character. -/
theorem on_takeMark (hst : st.On bytes) (hgs : Aligned bytes fileEnd.offset gs) {text : String}
    (htext : text.length ≤ 1) : (take fileEnd st (.mark text) 1 gs).On bytes fileEnd :=
  on_take hst hgs 1 (Or.inl htext)

/-- Inside a string: its content, a field, or its end. -/
theorem on_literalStep (hst : st.On bytes) (hgs : Aligned bytes fileEnd.offset gs) (q : Quote)
    (outer : List Context) : (literalStep fileEnd st q outer gs).On bytes fileEnd := by
  unfold literalStep
  have hread := q.isOn_content hgs 0
  cases hcontent : q.content fileEnd.offset 0 gs with
  | mk escapes read =>
    obtain ⟨ending, rest⟩ := read
    rw [hcontent] at hread
    have hrest : Aligned bytes fileEnd.offset rest := hread.rest
    -- The content, if there is any, is a token of its own.
    have hplain : Step.On bytes fileEnd
        (if placeOf fileEnd gs = placeOf fileEnd rest then ⟨[], st, gs⟩
          else takeTo fileEnd st (.stringContent escapes) gs rest) := by
      split
      · exact on_blank hst hgs
      · exact on_takeTo hst hgs hrest hread.escapes
    dsimp only
    generalize (if placeOf fileEnd gs = placeOf fileEnd rest then (⟨[], st, gs⟩ : Step)
      else takeTo fileEnd st (.stringContent escapes) gs rest) = content at hplain ⊢
    have hboth {last : Step} (hlast : last.On bytes fileEnd) :
        Step.On bytes fileEnd { last with tokens := content.tokens ++ last.tokens } :=
      ⟨List.forall_mem_append.mpr ⟨hplain.tokens, hlast.tokens⟩, hlast.state, hlast.rest⟩
    cases ending with
    | closing n => exact hboth ((on_take hplain.state hrest n (by trivial)).within outer)
    | field =>
      have hbrace : Aligned bytes fileEnd.offset (Quote.afterBlanks rest) :=
        hrest.of_suffix (List.dropWhile_suffix _)
      exact hboth ((on_takeMark hplain.state hbrace (by decide)).within _)
    | broken => exact hboth ((on_take hplain.state hrest 0 (by trivial)).within outer)

theorem on_specificationStep (hst : st.On bytes) {g : Glyph}
    (hgs : Aligned bytes fileEnd.offset (g :: gs)) (outer : List Context) :
    (specificationStep fileEnd st outer g gs).On bytes fileEnd := by
  unfold specificationStep
  split
  · exact (on_takeMark hst hgs (by decide)).within _
  split
  · exact (on_takeMark hst hgs (by decide)).within _
  split
  · exact on_blank hst hgs.2.2
  · exact on_take hst hgs _ trivial

/-- The operators are written with characters of one byte. -/
theorem lt_of_mem_operators :
    ∀ op ∈ operators, ∀ c ∈ op.toList, 0 < c.toNat ∧ c.toNat < 128 := by
  have hall : operators.all (fun op =>
      op.toList.all fun c => decide (0 < c.toNat ∧ c.toNat < 128)) = true := by decide +kernel
  intro op hop c hc
  exact of_decide_eq_true (List.all_eq_true.mp (List.all_eq_true.mp hall op hop) c hc)

/-- An operator is as long in bytes as in characters, since all its characters are single bytes. -/
theorem on_operatorStep (hst : st.On bytes) (hgs : Aligned bytes fileEnd.offset gs) :
    (operatorStep fileEnd st gs).On bytes fileEnd := by
  unfold operatorStep
  split
  · exact on_take hst hgs 1 trivial
  · rename_i op hop
    replace hop : operators.find? (fun op => op.toList.isPrefixOf ((gs.take 3).map (·.char)))
      = some op := hop
    have hbegins : op.toList <+: gs.map (·.char) := by
      have htake := List.find?_some hop
      rw [List.isPrefixOf_iff_prefix, List.map_take] at htake
      exact htake.trans (List.take_prefix _ _)
    have htoken : (take fileEnd st (.mark op) op.length gs).On bytes fileEnd := by
      refine on_take hst hgs _ (Or.inr fun i hi => ?_)
      exact hgs.isCut_add (lt_of_mem_operators op (List.mem_of_find?_eq_some hop)) hbegins
        (by rwa [String.length_toList])
    dsimp only
    split
    · exact htoken.within _
    split
    · split
      · exact htoken.within _
      · exact htoken
    · exact htoken

/-- Outside strings: a string begins, or a number, a word or an operator is read. -/
theorem on_codeStep (hst : st.On bytes) {g : Glyph}
    (hgs : Aligned bytes fileEnd.offset (g :: gs)) :
    (codeStep fileEnd st g gs).On bytes fileEnd := by
  unfold codeStep
  dsimp only
  split
  · split
    · exact on_take hst hgs 1 trivial
    · exact (on_take hst hgs _ (by trivial)).within _
  split
  · exact on_take hst hgs _ trivial
  split
  · refine on_take hst hgs _ ?_
    split <;> trivial
  split
  · split
    · exact (on_takeMark hst hgs (by decide)).within _
    split
    · exact on_take hst hgs 2 trivial
    split
    · exact (on_takeMark hst hgs (by decide)).within _
    · exact on_operatorStep hst hgs
  · exact on_operatorStep hst hgs

/-- **Every step of the scan stays at cuts.** -/
theorem on_step (hst : st.On bytes) {g : Glyph} (hgs : Aligned bytes fileEnd.offset (g :: gs)) :
    (step fileEnd st g gs).On bytes fileEnd := by
  have hblank {st' : State} (hst' : st'.On bytes) : Step.On bytes fileEnd ⟨[], st', gs⟩ :=
    on_blank hst' hgs.2.2
  have hspan {rest : List Glyph} (hrest : Aligned bytes fileEnd.offset rest) :
      ((placeOf fileEnd (g :: gs)).to (placeOf fileEnd rest)).On bytes :=
    Place.on_to hgs.1 (offset_placeOf fileEnd rest ▸ hrest.isCut)
  unfold step
  dsimp only
  split
  · exact on_literalStep hst hgs _ _
  · exact on_specificationStep hst hgs _
  split
  · exact hblank hst
  split
  · exact hblank hst
  split
  · exact hblank hst
  split
  · exact hblank (hst.passing (by trivial) 0)
  split
  · exact hblank hst
  split
  · exact hblank (hst.passing (by trivial) _)
  split
  · have hrest := hgs.of_suffix (List.dropWhile_suffix (·.char ≠ '\n'))
    exact on_blank (hst.passing (by exact hspan hrest) 0) hrest
  split
  · split
    · rename_i n _
      have hrest := hgs.drop n
      refine on_blank (hst.passing ?_ _) hrest
      exact ⟨hspan hrest, offset_placeOf fileEnd _ ▸ hrest.isCut⟩
    · exact on_take hst hgs 1 trivial
  · exact on_codeStep hst hgs

/-- **The tokens of the scan lie between cuts**, whatever the bound on its steps. -/
theorem on_scan (fuel : Nat) (hst : st.On bytes) (hgs : Aligned bytes fileEnd.offset gs)
    (hend : IsCut bytes fileEnd.offset) : ∀ t ∈ scan fileEnd fuel st gs, t.On bytes := by
  have hlast {st : State} (hst : st.On bytes) :
      ∀ t ∈ [(⟨.endOfFile, fileEnd.to fileEnd, fileEnd.row, st.gap⟩ : Token)], t.On bytes :=
    List.forall_mem_singleton.mpr ⟨⟨hend, hend⟩, trivial, hst.gap⟩
  induction fuel generalizing st gs with
  | zero => exact hlast hst
  | succ fuel ih =>
    cases gs with
    | nil => exact hlast hst
    | cons g gs =>
      have hstep := on_step hst hgs
      exact List.forall_mem_append.mpr ⟨hstep.tokens, ih hstep.state hstep.rest⟩

end Lexer

/-- **The tokens of a text lie between its cuts.** -/
theorem Source.on_tokens (src : Source) (h : IsText src.bytes.toList) :
    ∀ t ∈ src.tokens, t.On src.bytes.toList := by
  have hgs := aligned_glyphs h
  have hend := isCut_length h
  rw [length_toList] at hgs hend
  exact Lexer.on_scan _ (fun _ h => absurd h List.not_mem_nil) hgs hend

end CallTree.Syntax
