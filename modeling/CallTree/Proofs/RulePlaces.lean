import CallTree.Proofs.NodePlaces
import CallTree.Syntax.Grammar.Rule

/-!
# Rules stay between characters

A rule moves a cursor over the tokens and makes nodes of what it reads. If the tokens at the
cursor, what was passed over in gaps and the end of what was read last are at cuts (`Cursor.On`),
they still are behind what the rule has read, and where the rule is stuck it is stuck between cuts
(`Rule.Keeps`). What it reads then lies between cuts too, which each rule promises for what it
gives: a node, a list of nodes or a token. The promises are put together as the rules are.
-/

namespace CallTree.Syntax.Grammar

open CallTree.Text.Utf8

variable {bytes : List UInt8}

/-! ## Cursors -/

/-- **A cursor at cuts.** -/
structure Cursor.On (bytes : List UInt8) (c : Cursor) : Prop where
  tokens : ∀ t ∈ c.tokens, t.On bytes
  last : IsCut bytes c.last.offset
  extras : ∀ trivium ∈ c.extras, trivium.On bytes

/-- A token that takes no room. -/
theorem on_empty {place : Place} (h : IsCut bytes place.offset) {lexeme : Lexeme}
    (hlexeme : lexeme.On bytes place.offset) : (Token.empty lexeme place).On bytes :=
  ⟨⟨h, h⟩, hlexeme, fun _ h => absurd h List.not_mem_nil⟩

namespace Cursor.On

variable {c : Cursor} (h : c.On bytes)

include h

/-- The next token, which is empty and at the last place if there is none. -/
theorem head : c.head.On bytes := by
  unfold Cursor.head
  cases htokens : c.tokens with
  | nil => exact on_empty h.last trivial
  | cons t rest => exact h.tokens t (by simp [htokens])

/-- What is passed over in a gap moves the last place to its end. -/
theorem passing {trivium : Trivium} (htrivium : trivium.On bytes) :
    (c.passing trivium).On bytes := by
  refine ⟨h.tokens, ?_, List.forall_mem_cons.mpr ⟨htrivium, h.extras⟩⟩
  cases trivium with
  | comment depth span => exact htrivium.stop
  | continuation span stop => exact htrivium.2
  | lineEnd => exact h.last
  | hairline depth => exact h.last

/-- A token that was not written stands at the last place and takes no room. -/
theorem fronted {lexeme : Lexeme} (hlexeme : lexeme.On bytes c.last.offset) :
    (c.fronted lexeme).On bytes :=
  ⟨List.forall_mem_cons.mpr ⟨on_empty h.last hlexeme, h.tokens⟩, h.last, h.extras⟩

theorem withTokens {tokens : List Token} (htokens : ∀ t ∈ tokens, t.On bytes) (settled : Bool) :
    Cursor.On bytes { c with tokens, settled } :=
  ⟨htokens, h.last, h.extras⟩

theorem withLast {last : Place} (hlast : IsCut bytes last.offset) :
    Cursor.On bytes { c with last } :=
  ⟨h.tokens, hlast, h.extras⟩

theorem withIndents (indents : List Nat) : Cursor.On bytes { c with indents } :=
  ⟨h.tokens, h.last, h.extras⟩

theorem withMode (mode : Mode) : Cursor.On bytes { c with mode } :=
  ⟨h.tokens, h.last, h.extras⟩

section Settling

variable {t : Token} (ht : t.On bytes) {rest : List Token} (hrest : ∀ t ∈ rest, t.On bytes)

include ht hrest

/-- The gap is settled: a line ends, a block begins or ends, or the token comes next. -/
theorem resting (v : Verdict) {trivia : List Trivium}
    (htrivia : ∀ trivium ∈ trivia, trivium.On bytes) :
    (c.resting v t rest trivia).On bytes := by
  have hat {trivia : List Trivium} (htrivia : ∀ trivium ∈ trivia, trivium.On bytes) :
      Cursor.On bytes { c with
        tokens := { t with gap := { t.gap with trivia } } :: rest, settled := true } := by
    refine h.withTokens (List.forall_mem_cons.mpr ⟨?_, hrest⟩) true
    exact ⟨ht.span, ht.inside, htrivia⟩
  cases v with
  | newline => exact (hat htrivia).fronted (by trivial)
  | indent depth => exact ((hat htrivia).fronted (by trivial)).withIndents _
  | dedent => exact ((hat htrivia).fronted (by trivial)).withIndents _
  | blank => exact hat fun _ h => absurd h List.not_mem_nil
  | pass => exact hat fun _ h => absurd h List.not_mem_nil

/-- The gap is gone through from the front, by induction on what is in it. -/
theorem settle (o : Outlook) (fresh : Bool) {trivia : List Trivium}
    (htrivia : ∀ trivium ∈ trivia, trivium.On bytes) :
    (Cursor.settle o t rest fresh c trivia).On bytes := by
  induction trivia generalizing c fresh with
  | nil => exact h.resting ht hrest _ htrivia
  | cons trivium trivia ih =>
    obtain ⟨htrivium, hleft⟩ := List.forall_mem_cons.mp htrivia
    unfold Cursor.settle
    split
    · exact ih (h.passing htrivium) _ hleft
    · exact h.resting ht hrest _ htrivia

end Settling

/-- **Looking at the gap before a token** moves the cursor from cut to cut. -/
theorem look (o : Outlook) : (c.look o).On bytes := by
  unfold Cursor.look
  split
  · exact h
  · split
    · exact h
    · rename_i t rest htokens
      obtain ⟨ht, hrest⟩ := List.forall_mem_cons.mp (htokens ▸ h.tokens)
      exact h.settle ht hrest o true ht.gap

/-- The next token is read, and the cursor stands behind it. -/
theorem advance : c.advance.On bytes := by
  unfold Cursor.advance
  split
  · exact h
  · rename_i t rest htokens
    obtain ⟨ht, hrest⟩ := List.forall_mem_cons.mp (htokens ▸ h.tokens)
    exact ⟨hrest, ht.span.stop, h.extras⟩

end Cursor.On

/-! ## Rules -/

namespace Rule

variable {α β : Type} {P : α → Prop}

/-- What a rule answers, read or stuck, is at cuts. -/
def IsOn (bytes : List UInt8) (P : α → Prop) : Except Span (α × Cursor) → Prop
  | .ok (a, c) => P a ∧ c.On bytes
  | .error span => span.On bytes

/-- **A rule that stays at cuts**, and what it promises of what it reads. -/
def Keeps (bytes : List UInt8) (r : Rule α) (P : α → Prop) : Prop :=
  ∀ c, c.On bytes → IsOn bytes P (r c)

namespace Keeps

theorem pure {a : α} (h : P a) : Rule.Keeps bytes (Pure.pure a) P := fun _ hc => ⟨h, hc⟩

/-- **One rule after another**, where the second may count on the promise of the first. -/
theorem bind {Q : β → Prop} {r : Rule β} {f : β → Rule α} (hr : r.Keeps bytes Q)
    (hf : ∀ b, Q b → (f b).Keeps bytes P) : Rule.Keeps bytes (r >>= f) P := by
  intro c hc
  show IsOn bytes P (Rule.bind r f c)
  have hread := hr c hc
  unfold Rule.bind
  split
  · rename_i b rest heq
    rw [heq] at hread
    exact hf b hread.1 rest hread.2
  · rename_i span heq
    rw [heq] at hread
    exact hread

/-- One rule after another, whatever the first has read. -/
theorem skip {Q : β → Prop} {r : Rule β} {f : β → Rule α} (hr : r.Keeps bytes Q)
    (hf : ∀ b, (f b).Keeps bytes P) : Rule.Keeps bytes (r >>= f) P :=
  bind hr fun b _ => hf b

theorem imp {Q : α → Prop} {r : Rule α} (hr : r.Keeps bytes P) (h : ∀ a, P a → Q a) :
    r.Keeps bytes Q := by
  intro c hc
  have hread := hr c hc
  cases hrc : r c with
  | ok read =>
    rw [hrc] at hread
    exact ⟨h _ hread.1, hread.2⟩
  | error span =>
    rw [hrc] at hread
    exact hread

/-- Being stuck is reported at the next token, which lies between cuts. -/
theorem stuck : (stuck : Rule α).Keeps bytes P := by
  intro c hc
  show Span.On bytes _
  split
  · exact ⟨hc.last, hc.last⟩
  · exact hc.head.span

theorem ite {p : Prop} [Decidable p] {r s : Rule α} (hr : r.Keeps bytes P)
    (hs : s.Keeps bytes P) : Rule.Keeps bytes (if p then r else s) P := by
  split
  · exact hr
  · exact hs

/-- A rule that goes one way or another. -/
theorem fork {Q : Bool → Prop} {test : Rule Bool} {r s : Rule α} (htest : test.Keeps bytes Q)
    (hr : r.Keeps bytes P) (hs : s.Keeps bytes P) :
    Rule.Keeps bytes (test >>= fun b => if b = true then r else s) P :=
  skip htest fun _ => ite hr hs

/-- Two ways that come together again, where what follows counts on the same of both. -/
theorem join {p : Prop} [Decidable p] {Q : β → Prop} {f : β → Rule α} {r s : Rule α}
    (hr : (∀ b, Q b → (f b).Keeps bytes P) → r.Keeps bytes P)
    (hs : (∀ b, Q b → (f b).Keeps bytes P) → s.Keeps bytes P)
    (hf : ∀ b, Q b → (f b).Keeps bytes P) : Rule.Keeps bytes (if p then r else s) P :=
  ite (hr hf) (hs hf)

/-- The second rule starts where the first did. -/
theorem orElse {r s : Rule α} (hr : r.Keeps bytes P) (hs : s.Keeps bytes P) :
    (r.orElse s).Keeps bytes P := by
  intro c hc
  have hread := hr c hc
  unfold Rule.orElse
  split
  · rename_i result heq
    rw [heq] at hread
    exact hread
  · exact hs c hc

/-- The mode says how gaps are settled, and all of them lie between cuts. -/
theorem inMode {mode : Mode} {r : Rule α} (hr : r.Keeps bytes P) :
    (inMode mode r).Keeps bytes P := by
  intro c hc
  have hread := hr _ (hc.withMode mode)
  unfold Rule.inMode
  split
  · rename_i a rest heq
    rw [heq] at hread
    exact ⟨hread.1, hread.2.withMode _⟩
  · rename_i span heq
    rw [heq] at hread
    exact hread

theorem inHeader {r : Rule α} (hr : r.Keeps bytes P) : (inHeader r).Keeps bytes P :=
  fun c hc => inMode hr c hc

/-- What is read again and again, each time with the same promise. -/
theorem gatherAlong {continues : Token → Bool} {r : Rule α}
    (hpeek : peek.Keeps bytes (Token.On bytes)) (hr : r.Keeps bytes P) (fuel : List Token) :
    (gatherAlong continues r fuel).Keeps bytes fun as => ∀ a ∈ as, P a := by
  induction fuel with
  | nil => exact pure fun _ h => absurd h List.not_mem_nil
  | cons _ fuel ih =>
    unfold Rule.gatherAlong
    refine skip hpeek fun t => ite ?_ ?_
    · refine bind hr fun a ha => bind ih fun rest hrest => ?_
      exact pure (List.forall_mem_cons.mpr ⟨ha, hrest⟩)
    · exact pure fun _ h => absurd h List.not_mem_nil

end Keeps

/-! ## Looking and reading -/

theorem keeps_look (o : Outlook) : (look o).Keeps bytes fun _ => True :=
  fun _ hc => ⟨trivial, hc.look o⟩

theorem keeps_required : required.Keeps bytes fun _ => True :=
  fun _ hc => ⟨trivial, hc.look _⟩

theorem keeps_optional : optional.Keeps bytes fun _ => True :=
  fun _ hc => ⟨trivial, hc.look _⟩

/-- Looking at a token settles the gap before it. -/
theorem keeps_peek : peek.Keeps bytes (Token.On bytes) :=
  fun _ hc => ⟨(hc.look _).head, hc.look _⟩

theorem keeps_peekSecond : peekSecond.Keeps bytes fun _ => True :=
  fun _ hc => ⟨trivial, hc⟩

theorem keeps_next : next.Keeps bytes (Token.On bytes) :=
  fun _ hc => ⟨(hc.look _).head, (hc.look _).advance⟩

theorem keeps_expect (accepts : Token → Bool) : (expect accepts).Keeps bytes (Token.On bytes) :=
  .skip keeps_required fun _ => .skip keeps_peek fun _ => .ite keeps_next .stuck

theorem keeps_mark (text : String) : (mark text).Keeps bytes (Node.On bytes) :=
  .bind (keeps_expect _) fun _ ht => .pure ht.leaf

theorem keeps_word (text : String) : (word text).Keeps bytes (Node.On bytes) :=
  .bind (keeps_expect _) fun _ ht => .pure ht.leaf

theorem keeps_name : name.Keeps bytes (Node.On bytes) :=
  .bind (keeps_expect _) fun _ ht => .pure ht.nameLeaf

/-- Any word can be read as a name. -/
theorem keeps_anyName : anyName.Keeps bytes (Node.On bytes) :=
  .bind (keeps_expect _) fun _ ht => .pure ht.nameLeaf

theorem keeps_atMark (text : String) : (atMark text).Keeps bytes fun _ => True :=
  .skip keeps_peek fun _ => .pure trivial

theorem keeps_atWord (text : String) : (atWord text).Keeps bytes fun _ => True :=
  .skip keeps_peek fun _ => .pure trivial

/-- A line ends at a token of its own, which may take no room. -/
theorem keeps_endOfLine : endOfLine.Keeps bytes (Token.On bytes) :=
  .bind keeps_peek fun _ ht => .ite
    (.skip keeps_next fun _ => .skip (keeps_look _) fun _ => .pure ht) .stuck

/-! ## Reading several things -/

theorem Keeps.gather {continues : Token → Bool} {r : Rule α} (hr : r.Keeps bytes P) :
    (gather continues r).Keeps bytes fun as => ∀ a ∈ as, P a :=
  fun c hc => gatherAlong keeps_peek hr c.tokens c hc

theorem keeps_nodes {r : Rule Node} (hr : r.Keeps bytes (Node.On bytes))
    {continues : Token → Bool} : (gather continues r).Keeps bytes (AreOn bytes) :=
  .gather hr

theorem keeps_lists {r : Rule (List Node)} (hr : r.Keeps bytes (AreOn bytes))
    {continues : Token → Bool} :
    (gather continues r).Keeps bytes fun lists => AreOn bytes lists.flatten :=
  (Keeps.gather hr).imp fun _ => areOn_flatten

/-- What stands between two brackets, and the brackets. -/
theorem keeps_enclosed {r : Rule (List Node)} (hr : r.Keeps bytes (AreOn bytes))
    (opening close : String) : (enclosed opening r close).Keeps bytes (AreOn bytes) :=
  .bind (keeps_mark opening) fun _ hopening => .inMode <| .bind hr fun _ hparts =>
    .skip keeps_peek fun _ => .bind (keeps_mark close) fun _ hclose =>
      .pure (by simp [hopening, hparts, hclose])

/-- Elements behind commas, where the last comma may have none behind it. -/
theorem keeps_further {element : Rule (List Node)} (h : element.Keeps bytes (AreOn bytes))
    (begins : Token → Bool) : (further begins element).Keeps bytes (AreOn bytes) := by
  suffices hfuel : ∀ fuel, (furtherAlong begins element fuel).Keeps bytes (AreOn bytes) from
    fun c hc => hfuel c.tokens c hc
  intro fuel
  induction fuel with
  | nil => exact .pure areOn_nil
  | cons _ fuel ih =>
    refine .fork (keeps_atMark ",") ?_ (.pure areOn_nil)
    refine .bind (keeps_mark ",") fun comma hcomma => .skip keeps_optional fun _ => ?_
    refine .skip keeps_peek fun _ => .ite ?_ (.pure (by simp [hcomma]))
    exact .bind h fun parts hparts => .bind ih fun rest hrest =>
      .pure (by simp [hcomma, hparts, hrest])

theorem keeps_commas {element : Rule Node} (h : element.Keeps bytes (Node.On bytes))
    (begins : Token → Bool) :
    (commas begins element).Keeps bytes fun read => AreOn bytes read.1 :=
  .bind h fun _ hfirst =>
    .bind (keeps_further (.bind h fun _ he => .pure (by simp [he])) begins) fun _ hrest =>
      .pure (by simp [hfirst, hrest])

theorem keeps_listed {element : Rule Node} (h : element.Keeps bytes (Node.On bytes)) :
    (listed element).Keeps bytes (AreOn bytes) := by
  refine .bind h fun first hfirst => .bind (keeps_lists ?_) fun rest hrest => ?_
  · exact .bind (keeps_mark ",") fun _ hcomma => .bind h fun _ he => .pure (by simp [hcomma, he])
  · exact .pure (by simp [hfirst, hrest])

end Rule

end CallTree.Syntax.Grammar
