import CallTree.Proofs.RulePlaces
import CallTree.Syntax.Grammar.Pattern
import CallTree.Syntax.Grammar.TypeHint

/-!
# Expressions between characters

The rules for expressions, annotations and patterns stay at cuts, and what they read lies between
cuts. A rule that asks for an inner phrase relies on what is promised for that phrase, so the rules
keep their promises if all inner phrases do.
-/

namespace CallTree.Syntax.Grammar

open CallTree.Text.Utf8

variable {bytes : List UInt8}

/-! ## Expressions -/

section Phrases

open Rule

variable {inner : Inner} (hinner : ∀ goal, (inner goal).Keeps bytes (Node.On bytes))

include hinner

/-- The replacement fields in it are relabelled, which leaves them where they are. -/
theorem keeps_formatSpecifier : (formatSpecifier inner).Keeps bytes (Node.On bytes) := by
  refine .bind (keeps_mark ":") fun colon hcolon => .bind (keeps_nodes ?_) fun parts hparts => ?_
  · refine .fork (keeps_atMark _) (.bind (hinner .field) fun (.mk _ _ _ _) hn => ?_) ?_
    · exact .pure (hn.relabel (by decide))
    · exact .bind keeps_next fun t ht => .pure ht.leaf
  · exact .pure (by simp [hcolon, hparts])

/-- A string from its beginning to its end, with the fields inside it. -/
theorem keeps_stringLiteral : (stringLiteral inner).Keeps bytes (Node.On bytes) := by
  refine .bind (keeps_expect _) fun start hstart => .bind (keeps_nodes ?_) fun parts hparts => ?_
  · exact .fork (keeps_atMark _) (hinner .field) (.bind keeps_next fun t ht => .pure ht.leaf)
  · refine .bind (keeps_expect _) fun stop hstop => .skip keeps_optional fun _ => ?_
    exact .pure (by simp [hstart.leaf, hparts, hstop.leaf])

theorem keeps_strings : (strings inner).Keeps bytes (Node.On bytes) :=
  .bind (keeps_stringLiteral hinner) fun _ hfirst =>
    .bind (keeps_nodes (keeps_stringLiteral hinner)) fun _ hmore =>
      .ite (.pure hfirst) (.pure (by simp [hfirst, hmore]))

/-- A starred argument in brackets is read again with the star on the whole. -/
theorem keeps_argument : (argument inner).Keeps bytes (Node.On bytes) := by
  refine .skip keeps_peek fun t => .ite ?_ <| .ite ?_ <| .skip keeps_peekSecond fun _ => .ite ?_ ?_
  · exact .bind (keeps_mark "*") fun star hstar => .bind (hinner .expression) fun e he =>
      .pure (on_splat hstar he)
  · exact .bind (keeps_mark "**") fun star hstar => .bind (hinner .expression) fun e he =>
      .pure (by simp [hstar, he])
  · exact .bind keeps_name fun n hn => .bind (keeps_mark "=") fun eq heq =>
      .bind (hinner .expression) fun e he => .pure (by simp [hn, heq, he])
  · refine .bind (hinner .expression) fun e he => .ite (.pure ?_) (.pure he)
    cases hgrouped : groupedStar e with
    | none => exact he
    | some n => exact on_groupedStar he n hgrouped

theorem keeps_targets : (targets inner).Keeps bytes (Node.On bytes) := by
  refine .bind (keeps_commas (hinner .operand) _) fun (parts, isList) hparts => ?_
  have htargets := areOn_asTargets hparts (fun n hn => on_asTarget (hparts n hn)) true false
  dsimp only
  split
  · rename_i single hsingle
    have hon : single.On bytes := (areOn_cons.mp (htargets _ hsingle)).1
    exact .ite (.pure (by simp [hon])) (.pure hon)
  · rename_i parts' _ hparts'
    exact .pure (by simp [htargets _ hparts'])
  · exact .stuck

theorem keeps_clause : (clause inner).Keeps bytes (Node.On bytes) := by
  refine .fork (keeps_atWord "if") ?_ ?_
  · exact .bind (keeps_word "if") fun keyword hkeyword => .bind (hinner .unconditional) fun e he =>
      .pure (by simp [hkeyword, he])
  · refine .bind (keeps_nodes (keeps_word "async")) fun isAsync hasync => ?_
    refine .bind (.inHeader (P := AreOn bytes) ?_) fun head hhead => ?_
    · exact .bind (keeps_word "for") fun _ hfor => .bind (keeps_targets hinner) fun _ hleft =>
        .bind (keeps_word "in") fun _ hin => .pure (by simp [hfor, hleft, hin])
    · refine .bind (keeps_commas (hinner .iterated) _) fun (parts, _) hparts => .pure ?_
      have hright : AreOn bytes (parts.map fun part =>
          if part.isMark then part else part.withRole .right) := by
        refine hparts.map fun n hn => ?_
        split
        · exact hn
        · simpa using hn
      simp [hasync, hhead, hright]

theorem keeps_expressions : (expressions inner).Keeps bytes (Node.On bytes) := by
  refine .bind (keeps_commas (hinner .expression) _) fun (parts, isList) hparts => ?_
  dsimp only at hparts ⊢
  split
  · exact .ite (.pure (by simpa using hparts)) (.pure (areOn_cons.mp hparts).1)
  · exact .pure (by simpa using hparts)

theorem keeps_yieldExpression : (yieldExpression inner).Keeps bytes (Node.On bytes) := by
  refine .bind (keeps_word "yield") fun keyword hkeyword => .skip keeps_optional fun _ => ?_
  refine .fork (keeps_atWord "from") ?_ (.skip keeps_peek fun _ => .ite ?_ ?_)
  · exact .bind (keeps_word "from") fun _ hfrom => .bind (hinner .expression) fun e he =>
      .pure (by simp [hkeyword, hfrom, he])
  · exact .bind (keeps_expressions hinner) fun e he => .pure (by simp [hkeyword, he])
  · exact .pure (by simp [hkeyword])

omit hinner in
/-- Two stars in a row are taken apart between them. -/
theorem keeps_splitStars : splitStars.Keeps bytes fun _ => True := by
  intro c hc
  unfold splitStars
  split
  · rename_i t rest htokens
    obtain ⟨ht, hrest⟩ := List.forall_mem_cons.mp (htokens ▸ hc.tokens)
    split
    · rename_i hmark
      have hmiddle : IsCut bytes (t.span.start + 1) := ht.isCut_add hmark (by decide) (by decide)
      refine ⟨trivial, hc.withTokens (List.forall_mem_cons.mpr ⟨?_, ?_⟩) _⟩
      · exact ⟨⟨ht.span.start, hmiddle⟩, Or.inl (by decide), ht.gap⟩
      · refine List.forall_mem_cons.mpr ⟨?_, hrest⟩
        exact ⟨⟨hmiddle, ht.span.stop⟩, Or.inl (by decide), fun _ h => absurd h List.not_mem_nil⟩
    · exact ⟨trivial, hc⟩
  · exact ⟨trivial, hc⟩

theorem keeps_element : (element inner).Keeps bytes (Node.On bytes) := by
  refine .skip keeps_splitStars fun _ => .fork (keeps_atMark "*") ?_ <|
    .fork (keeps_atWord "yield") (keeps_yieldExpression hinner) (hinner .expression)
  exact .bind (keeps_mark "*") fun star hstar => .bind (hinner .expression) fun e he =>
    .pure (on_splat hstar he)

omit hinner in
/-- An element that is alone has its star on another part than one among others. -/
theorem areOn_elements {first : Node} {rest : List Node} (hfirst : first.On bytes)
    (hrest : AreOn bytes rest) : AreOn bytes (elements first rest) := by
  have hsettled {n : Node} (hn : n.On bytes) :
      (if isForcedGroup n then asElement n else n).On bytes := by
    split
    · exact on_asElement hn
    · exact hn
  unfold elements
  split
  · exact areOn_cons.mpr ⟨on_restarred .shortest (hsettled hfirst), areOn_nil⟩
  · exact areOn_cons.mpr ⟨on_asElement hfirst, hrest.map fun n hn => hsettled hn⟩

omit hinner in
theorem keeps_atComprehension : atComprehension.Keeps bytes fun _ => True :=
  .skip (keeps_atWord "for") fun _ => .skip (keeps_atWord "async") fun _ => .pure trivial

/-- The clauses behind the body, of which there is at least one. -/
theorem keeps_comprehension {body : Node} (hbody : body.On bytes) :
    (comprehension inner body).Keeps bytes (AreOn bytes) :=
  .bind (keeps_nodes (keeps_clause hinner)) fun _ hclauses =>
    .pure (by simp [on_restarred .shortest hbody, hclauses])

omit hinner in
theorem keeps_displayRest {element : Rule Node} (h : element.Keeps bytes (Node.On bytes)) :
    (displayRest element).Keeps bytes (AreOn bytes) :=
  keeps_further (.bind h fun _ he => .pure (by simp [he])) _

omit hinner in
/-- A phrase in brackets, which is no call. -/
theorem keeps_display {r : Rule (Kind × List Node)}
    (hr : r.Keeps bytes fun read => read.1 ≠ .call ∧ AreOn bytes read.2) (opening close : String) :
    (display opening close r).Keeps bytes (Node.On bytes) :=
  .bind (keeps_mark opening) fun _ hopening => .inMode <| .skip keeps_optional fun _ =>
    .bind hr fun (_, _) hread => .skip keeps_peek fun _ => .bind (keeps_mark close) fun _ hclose =>
      .pure (by simp [hopening, hclose, hread.1, hread.2])

theorem keeps_parenthesised : (parenthesised inner).Keeps bytes (Node.On bytes) := by
  have hkind : ∀ isTuple : Bool,
      (if isTuple then Kind.tuple else .parenthesizedExpression) ≠ .call := by decide
  refine keeps_display (.fork (keeps_atMark ")") (.pure ⟨by decide, areOn_nil⟩) ?_) "(" ")"
  refine .bind (keeps_element hinner) fun first hfirst => .fork keeps_atComprehension ?_ ?_
  · exact .bind (keeps_comprehension hinner hfirst) fun _ hparts => .pure ⟨by simp, hparts⟩
  · exact .bind (keeps_displayRest (keeps_element hinner)) fun _ hrest =>
      .pure ⟨hkind _, areOn_elements hfirst hrest⟩

theorem keeps_listDisplay : (listDisplay inner).Keeps bytes (Node.On bytes) := by
  refine keeps_display (.fork (keeps_atMark "]") (.pure ⟨by decide, areOn_nil⟩) ?_) "[" "]"
  refine .bind (keeps_element hinner) fun first hfirst => .fork keeps_atComprehension ?_ ?_
  · exact .bind (keeps_comprehension hinner hfirst) fun _ hparts => .pure ⟨by simp, hparts⟩
  · exact .bind (keeps_displayRest (keeps_element hinner)) fun _ hrest =>
      .pure ⟨by simp, areOn_elements hfirst hrest⟩

theorem keeps_entry : (entry inner).Keeps bytes (Node.On bytes) := by
  refine .fork (keeps_atMark "**") ?_ ?_
  · exact .bind (keeps_mark "**") fun _ hstars => .bind (hinner .expression) fun _ he =>
      .pure (by simp [hstars, he])
  · exact .bind (hinner .expression) fun _ hkey => .bind (keeps_mark ":") fun _ hcolon =>
      .bind (hinner .expression) fun _ hvalue => .pure (by simp [hkey, hcolon, hvalue])

/-- A set or a dictionary: which of them it is shows behind the first element. -/
theorem keeps_curly : (curly inner).Keeps bytes (Node.On bytes) := by
  refine keeps_display (.fork (keeps_atMark _) (.pure ⟨by decide, areOn_nil⟩) <|
    .fork (keeps_atMark ",") ?_ <| .fork (keeps_atMark "**") ?_ <|
      .bind (keeps_element hinner) fun first hfirst => .fork (keeps_atMark ":") ?_ <|
      .fork keeps_atComprehension ?_ ?_) _ _
  · exact .bind (keeps_mark ",") fun _ hcomma => .pure (by simp [hcomma])
  · exact .bind (keeps_entry hinner) fun _ hfirst =>
      .bind (keeps_displayRest (keeps_entry hinner)) fun _ hrest => .pure (by simp [hfirst, hrest])
  · refine .bind (keeps_mark ":") fun _ hcolon => .bind (hinner .expression) fun _ hvalue => ?_
    have hpair := on_restarred .shortest hfirst
    refine .fork keeps_atComprehension ?_ ?_
    · exact .bind (keeps_comprehension hinner (by simp [hpair, hcolon, hvalue])) fun _ hparts =>
        .pure ⟨by simp, hparts⟩
    · exact .bind (keeps_displayRest (keeps_entry hinner)) fun _ hrest =>
        .pure (by simp [hpair, hcolon, hvalue, hrest])
  · exact .bind (keeps_comprehension hinner hfirst) fun _ hparts => .pure ⟨by simp, hparts⟩
  · exact .bind (keeps_displayRest (keeps_element hinner)) fun _ hrest =>
      .pure ⟨by simp, areOn_elements hfirst hrest⟩

omit hinner in
theorem keeps_literal (kind : Kind) : (literal kind).Keeps bytes (Node.On bytes) :=
  .bind keeps_next fun _ ht => .pure (Node.on_leaf ht.span)

theorem keeps_atom : (atom inner).Keeps bytes (Node.On bytes) := by
  refine .skip keeps_required fun _ => .skip keeps_peek fun t => ?_
  split
  · exact .ite (keeps_literal _) <| .ite (keeps_literal _) <| .ite (keeps_literal _) keeps_name
  · exact .bind keeps_next fun _ ht => .pure ht.leaf
  · exact .bind keeps_next fun _ ht => .pure ht.leaf
  · exact keeps_strings hinner
  · exact .ite (keeps_parenthesised hinner) <| .ite (keeps_listDisplay hinner) <|
      .ite (keeps_curly hinner) <| .ite (keeps_literal _) .stuck
  · exact .stuck

theorem keeps_subscriptPart : (subscriptPart inner).Keeps bytes (Node.On bytes) := by
  have hbound : Rule.Keeps bytes (do
      optional
      if beginsExpression (← peek) then return [← inner .expression] else return [])
      (AreOn bytes) :=
    .skip keeps_optional fun _ => .skip keeps_peek fun _ => .ite
      (.bind (hinner .expression) fun _ he => .pure (by simp [he])) (.pure areOn_nil)
  refine .skip keeps_required fun _ => .skip (keeps_atMark ":") fun _ => .join (Q := AreOn bytes)
    (fun hrest => .bind (.pure areOn_nil) hrest)
    (fun hrest => .bind (hinner .expression) fun e he => .bind (.pure (by simp [he])) hrest)
    fun first hfirst => .fork (keeps_atMark ":") ?_ ?_
  · refine .bind (keeps_mark ":") fun colon hcolon => .bind hbound fun stop hstop =>
      .fork (keeps_atMark ":") ?_ ?_
    · exact .bind (keeps_mark ":") fun _ hcolon' => .bind hbound fun step hstep =>
        .pure (by simp [hfirst, hcolon, hstop, hcolon', hstep])
    · exact .pure (by simp [hfirst, hcolon, hstop])
  · split
    · exact .pure (areOn_cons.mp hfirst).1
    · exact .stuck

theorem keeps_callArguments : (callArguments inner).Keeps bytes (Node.On bytes) := by
  refine keeps_display (.fork (keeps_atMark ")") (.pure ⟨by decide, areOn_nil⟩) <|
    .fork (keeps_atMark ",") ?_ <| .bind (keeps_argument hinner) fun first hfirst =>
      .fork keeps_atComprehension ?_ ?_) "(" ")"
  · exact .bind (keeps_mark ",") fun _ hcomma => .pure (by simp [hcomma])
  · exact .bind (keeps_comprehension hinner hfirst) fun _ hparts => .pure ⟨by simp, hparts⟩
  · exact .bind (keeps_displayRest (keeps_argument hinner)) fun _ hrest =>
      .pure (by simp [hfirst, hrest])

omit hinner in
/-- An attachment that lies between cuts. Its parts are no callees, whatever it is attached to. -/
structure Trailer.On (bytes : List UInt8) (t : Trailer) : Prop where
  parts : AreOn bytes t.parts
  roles : t.kind = .call → some .function ∉ t.parts.map Node.role

/-- **What is attached to an operand**: attributes, arguments and subscripts. -/
theorem keeps_trailer : (trailer inner).Keeps bytes (Trailer.On bytes) := by
  refine .fork (keeps_atMark ".") ?_ <| .fork (keeps_atMark "(") ?_ ?_
  · exact .bind (keeps_mark ".") fun _ hdot => .bind keeps_anyName fun _ hn =>
      .pure ⟨by simp [hdot, hn], by simp⟩
  · exact .bind (keeps_callArguments hinner) fun _ harguments =>
      .pure ⟨by simp [harguments], by simp [Node.role_withRole]⟩
  · refine .bind (keeps_enclosed ?_ "[" "]") fun _ hparts => .pure ⟨hparts, by simp⟩
    exact .bind (keeps_commas (keeps_subscriptPart hinner) _) fun _ hparts => .pure hparts

omit hinner in
/-- Attachments are put around an operand one after the other. -/
theorem on_attach {trailers : List Trailer} (h : ∀ t ∈ trailers, t.On bytes) {head : Node}
    (hhead : head.On bytes) : (trailers.foldl Trailer.attach head).On bytes := by
  refine List.foldlRecOn (motive := Node.On bytes) _ _ hhead fun e he t ht => ?_
  refine on_phrase.mpr ⟨areOn_cons.mpr ⟨Node.on_withRole.mpr he, (h t ht).parts⟩, fun hcall => ?_⟩
  have hparts := List.count_eq_zero.mpr ((h t ht).roles (Label.construct.inj hcall))
  rw [List.map_cons, List.count_cons, hparts]
  split <;> simp

theorem keeps_operand : (operand inner).Keeps bytes (Node.On bytes) := by
  refine .skip keeps_required fun _ => .skip keeps_splitStars fun _ =>
    .fork (keeps_atMark "*") ?_ ?_
  · refine .bind (keeps_mark "*") fun star hstar => .bind (hinner .operand) fun e he => ?_
    split
    · rename_i n hn
      exact .pure (on_starShortest hstar he n hn)
    · exact .stuck
  · exact .bind (keeps_atom hinner) fun head hhead => .bind (.gather (keeps_trailer hinner))
      fun trailers htrailers => .pure (on_attach htrailers hhead)

omit hinner in
@[simp]
theorem on_operation {kind : Kind} {left op right : Node} : (operation kind left op right).On bytes
    ↔ left.On bytes ∧ op.On bytes ∧ right.On bytes := by
  simp [operation, Label.Admits, Node.role_withRole]

theorem keeps_factor : (factor inner).Keeps bytes (Node.On bytes) := by
  refine .skip keeps_required fun _ => .skip keeps_peek fun t => .ite ?_ <|
    .skip keeps_peekSecond fun _ => .ite ?_ ?_
  · exact .bind keeps_next fun t ht => .bind (hinner .factor) fun _ he =>
      .pure (by simp [ht.leaf, he])
  · exact .bind (keeps_word "await") fun _ hkeyword => .bind (hinner .factor) fun _ he =>
      .pure (by simp [hkeyword, he])
  · refine .bind (keeps_operand hinner) fun base hbase =>
      .fork (keeps_atMark "**") ?_ (.pure hbase)
    exact .bind (keeps_mark "**") fun _ hop => .bind (hinner .factor) fun _ he =>
      .pure (by simp [hbase, hop, he])

omit hinner in
/-- A row of operands that lie between cuts, with the operators between them. -/
structure Row.On (bytes : List UInt8) (row : Row) : Prop where
  first : row.first.On bytes
  rest : ∀ item ∈ row.rest, item.2.1.On bytes ∧ item.2.2.On bytes

omit hinner in
/-- Operators of one strength are grouped from the left. -/
theorem Row.On.groupAt {row : Row} (h : row.On bytes) (kind : Kind) (strength : Nat) :
    (row.groupAt kind strength).On bytes := by
  suffices hgo : ∀ rest : List (Nat × Node × Node), ∀ held : Node, held.On bytes →
      (∀ item ∈ rest, item.2.1.On bytes ∧ item.2.2.On bytes) →
        (Row.groupAt.go kind strength held rest).On bytes from hgo _ _ h.first h.rest
  intro rest
  induction rest with
  | nil => exact fun held hheld hrest => ⟨hheld, hrest⟩
  | cons item rest ih =>
    intro held hheld hrest
    obtain ⟨hitem, hrest⟩ := List.forall_mem_cons.mp hrest
    unfold Row.groupAt.go
    split
    · exact ih _ (by simp [hheld, hitem]) hrest
    · have hrow := ih _ hitem.2 hrest
      exact ⟨hheld, List.forall_mem_cons.mpr ⟨⟨hitem.1, hrow.first⟩, hrow.rest⟩⟩

omit hinner in
/-- **A row of operands and operators** is grouped strength by strength. -/
theorem Row.On.group {row : Row} (h : row.On bytes) (kind : Kind) (strengths : List Nat) :
    (row.group kind strengths).On bytes :=
  (List.foldlRecOn (motive := Row.On bytes) _ _ h fun _ hrow s _ => hrow.groupAt kind s).first

theorem keeps_binary : (binary inner).Keeps bytes (Node.On bytes) := by
  refine .bind (keeps_factor hinner) fun first hfirst => .bind (.gather
    (P := fun item => item.2.1.On bytes ∧ item.2.2.On bytes) ?_) fun rest hrest => ?_
  · exact .bind keeps_next fun op hop => .bind (keeps_factor hinner) fun _ he =>
      .pure ⟨hop.leaf, he⟩
  · exact .pure (Row.On.group ⟨hfirst, hrest⟩ _ _)

omit hinner in
/-- An operator of two words covers both. -/
theorem keeps_comparator : comparator.Keeps bytes (Node.On bytes) := by
  refine .bind keeps_next fun t ht => .skip keeps_required fun _ => ?_
  have hpair (text : String) {b : Node} (hb : b.On bytes) : (Node.mk (.mark text) none
      ⟨t.span.start, b.span.stop, t.span.row⟩ [t.leaf, b]).On bytes :=
    Node.on_mk.mpr ⟨⟨ht.span.start, hb.span.stop⟩, by simp [ht.leaf, hb]⟩
  refine .ite ?_ <| .skip (keeps_atWord "not") fun _ => .ite ?_ (.pure ht.leaf)
  · exact .bind (keeps_word "in") fun _ hb => .pure (hpair _ hb)
  · exact .bind (keeps_word "not") fun _ hb => .pure (hpair _ hb)

theorem keeps_comparison : (comparison inner).Keeps bytes (Node.On bytes) := by
  refine .bind (keeps_binary hinner) fun first hfirst => .bind (keeps_lists ?_) fun rest hrest => ?_
  · exact .bind keeps_comparator fun _ hop => .bind (keeps_binary hinner) fun _ he =>
      .pure (by simp [hop, he])
  · exact .ite (.pure hfirst) (.pure (by simp [hfirst, hrest]))

theorem keeps_starredParameter {kind : Kind} (hkind : kind ≠ .call) (star : String) :
    (starredParameter inner kind star).Keeps bytes (Node.On bytes) :=
  .bind (keeps_mark star) fun _ hstar => .bind (keeps_operand hinner) fun _ he =>
    .ite (.pure (by simp [hstar, he, hkind])) .stuck

theorem keeps_withDefault {n : Node} (hn : n.On bytes) :
    (withDefault inner n).Keeps bytes (Node.On bytes) :=
  .fork (keeps_atMark "=") (.bind (keeps_mark "=") fun _ heq => .bind (hinner .expression)
    fun _ he => .pure (by simp [hn, heq, he])) (.pure hn)

theorem keeps_plainParameter : (plainParameter inner).Keeps bytes (Node.On bytes) := by
  refine .skip keeps_peek fun t => .ite (keeps_literal _) <| .ite ?_ <|
    .ite (keeps_starredParameter hinner (by decide) _) <| .ite ?_ ?_
  · exact .skip keeps_peekSecond fun _ => .skip keeps_peekSecond fun _ =>
      .skip keeps_peekSecond fun _ =>
        .ite (keeps_literal _) (keeps_starredParameter hinner (by decide) _)
  · refine .bind (keeps_parenthesised hinner) fun n hn => ?_
    split
    · rename_i m hm
      exact keeps_withDefault hinner (on_asTarget hn false false m hm)
    · exact .stuck
  · exact .bind keeps_anyName fun n hn => keeps_withDefault hinner hn

theorem keeps_lambda (body : Goal) : (lambda inner body).Keeps bytes (Node.On bytes) := by
  refine .bind (.inHeader (P := AreOn bytes) ?_) fun head hhead => ?_
  · refine .bind (keeps_word "lambda") fun keyword hkeyword => .skip keeps_peek fun _ => .ite ?_ ?_
    · exact .bind (keeps_commas (keeps_plainParameter hinner) _) fun (_, _) hparts =>
        .bind (keeps_mark ":") fun _ hcolon => .pure (by simpa [hkeyword, hcolon] using hparts)
    · exact .bind (keeps_mark ":") fun _ hcolon => .pure (by simp [hkeyword, hcolon])
  · exact .bind (hinner body) fun _ he => .pure (by simp [hhead, he])

omit hinner in
theorem keeps_atBinding : atBinding.Keeps bytes fun _ => True :=
  .skip keeps_peek fun _ => .skip keeps_peekSecond fun _ => .pure trivial

theorem keeps_binding : (binding inner).Keeps bytes (Node.On bytes) :=
  .bind keeps_name fun _ hn => .bind (keeps_mark ":=") fun _ hmark =>
    .bind (hinner .disjunction) fun _ he => .pure (by simp [hn, hmark, he])

theorem keeps_inversion : (inversion inner).Keeps bytes (Node.On bytes) := by
  refine .skip keeps_required fun _ => .bind (keeps_nodes ?_) fun nots hnots => ?_
  · exact .bind (keeps_word "not") fun _ hkeyword => .skip keeps_required fun _ => .pure hkeyword
  · have hfold {operand : Node} (he : operand.On bytes) :
        (nots.foldr (fun n e => phrase .notOperator [n, e]) operand).On bytes :=
      List.foldrRecOn (motive := Node.On bytes) _ _ he fun e he n hn => by simp [hnots n hn, he]
    refine .skip (keeps_atWord "lambda") fun _ => .skip keeps_atBinding fun _ =>
      .ite ?_ <| .ite ?_ ?_
    · exact .bind (keeps_lambda hinner .expression) fun _ he => .pure (hfold he)
    · exact .bind (keeps_binding hinner) fun _ he => .pure (hfold he)
    · exact .bind (keeps_comparison hinner) fun _ he => .pure (hfold he)

omit hinner in
theorem keeps_booleanRow {operand : Rule Node} (h : operand.Keeps bytes (Node.On bytes))
    (op : String) : (booleanRow op operand).Keeps bytes (Node.On bytes) := by
  refine .bind h fun first hfirst => .bind (.gather
    (P := fun item => item.1.On bytes ∧ item.2.On bytes) ?_) fun rest hrest => .pure ?_
  · exact .bind (keeps_word op) fun _ hop => .bind h fun _ he => .pure ⟨hop, he⟩
  · refine List.foldlRecOn (motive := Node.On bytes) _ _ hfirst fun e he item hitem => ?_
    simp [he, hrest item hitem]

theorem keeps_disjunction : (disjunction inner).Keeps bytes (Node.On bytes) :=
  keeps_booleanRow (keeps_booleanRow (keeps_inversion hinner) "and") "or"

theorem keeps_unconditional : (unconditional inner).Keeps bytes (Node.On bytes) := by
  refine .bind (keeps_disjunction hinner) fun first hfirst => .bind (.gather
    (P := fun item => item.1.On bytes ∧ item.2.On bytes) ?_) fun names hnames => .pure ?_
  · exact .bind (keeps_word "as") fun _ hkeyword => .bind (keeps_disjunction hinner) fun _ he =>
      .pure ⟨hkeyword, he⟩
  · refine List.foldlRecOn (motive := Node.On bytes) _ _ hfirst fun e he item hitem => ?_
    simp [he, hnames item hitem]

theorem keeps_iterated : (iterated inner).Keeps bytes (Node.On bytes) :=
  .skip keeps_required fun _ => .fork (keeps_atWord "lambda") (keeps_lambda hinner .iterated)
    (keeps_unconditional hinner)

/-- **An expression** lies between cuts. -/
theorem keeps_expression : (expression inner).Keeps bytes (Node.On bytes) := by
  refine .bind (keeps_unconditional hinner) fun first hfirst =>
    .fork (keeps_atWord "if") ?_ (.pure hfirst)
  refine .bind (.inHeader (P := AreOn bytes) ?_) fun condition hcondition => ?_
  · exact .bind (keeps_word "if") fun _ hif => .bind (hinner .expression) fun _ he =>
      .bind (keeps_word "else") fun _ helse => .pure (by simp [hif, he, helse])
  · exact .bind (hinner .expression) fun _ he => .pure (by simp [hfirst, hcondition, he])

/-- A replacement field, with its conversion and its format. -/
theorem keeps_field : (field inner).Keeps bytes (Node.On bytes) := by
  refine .bind (keeps_mark _) fun opening hopening => .inMode <| .skip keeps_required fun _ =>
    .skip (keeps_atWord "yield") fun _ => .join (Q := Node.On bytes)
      (fun hrest => .bind (keeps_yieldExpression hinner) hrest)
      (fun hrest => .bind (keeps_expressions hinner) hrest) fun value hvalue => ?_
  refine .bind (keeps_nodes (keeps_mark "=")) fun equals hequals => .bind (keeps_nodes
    (.bind keeps_next fun _ ht => .pure ht.leaf)) fun conversion hconversion => ?_
  refine .skip (keeps_atMark ":") fun _ => .join (Q := AreOn bytes)
    (fun hrest => .bind (keeps_formatSpecifier hinner) fun _ hs =>
      .bind (.pure (by simp [hs])) hrest)
    (fun hrest => .bind (.pure areOn_nil) hrest) fun specifier hspecifier => ?_
  exact .bind (keeps_mark _) fun _ hclosing =>
    .pure (by simp [hopening, hvalue, hequals, hconversion, hspecifier, hclosing])

/-! ## Annotations -/

omit hinner in
/-- An annotation is an expression with a wrapper around it. -/
@[simp]
theorem on_typed {content : Node} : (typed content).On bytes ↔ content.On bytes := by
  simp [typed]

theorem keeps_typeParameter : (typeParameter inner).Keeps bytes (Node.On bytes) := by
  refine .bind (keeps_enclosed ?_ "[" "]") fun _ hparts => .pure (by simp [hparts])
  exact .bind (keeps_commas (hinner .typeHint) _) fun _ hparts => .pure hparts

omit hinner in
theorem keeps_atGeneric : atGeneric.Keeps bytes fun _ => True :=
  .skip keeps_peek fun _ => .skip keeps_peekSecond fun _ => .pure trivial

omit hinner in
theorem keeps_atSplat : atSplat.Keeps bytes fun _ => True := by
  intro c hc
  unfold atSplat
  split <;> exact ⟨trivial, hc⟩

theorem keeps_typeOperand : (typeOperand inner).Keeps bytes (Node.On bytes) := by
  refine .skip keeps_required fun _ => .fork keeps_atGeneric ?_ <|
    .fork keeps_atSplat ?_ (keeps_expression hinner)
  · exact .bind keeps_name fun _ hhead => .skip keeps_peek fun _ =>
      .bind (keeps_typeParameter hinner) fun _ hparameter => .pure (by simp [hhead, hparameter])
  · exact .bind keeps_next fun _ hstar => .bind keeps_name fun _ hn =>
      .pure (by simp [hstar.leaf, hn])

theorem keeps_unboundedType : (unboundedType inner).Keeps bytes (Node.On bytes) := by
  refine .bind (keeps_typeOperand hinner) fun first hfirst => .bind (.gather
    (P := fun step => ∀ held : Node, held.On bytes → (step held).On bytes) ?_)
    fun steps hsteps => .pure ?_
  · refine .fork (keeps_atMark ".") ?_ ?_
    · exact .bind (keeps_mark ".") fun _ hdot => .bind keeps_anyName fun _ hmember =>
        .pure fun held hheld => by simp [hheld, hdot, hmember]
    · exact .bind (keeps_mark "|") fun _ hbar => .bind (keeps_typeOperand hinner) fun _ hright =>
        .pure fun held hheld => by simp [hheld, hbar, hright]
  · refine List.foldlRecOn (motive := Node.On bytes) _ _ (on_typed.mpr hfirst)
      fun held hheld step hstep => ?_
    exact on_typed.mpr (hsteps step hstep held hheld)

theorem keeps_typeHint : (typeHint inner).Keeps bytes (Node.On bytes) := by
  refine .bind (keeps_unboundedType hinner) fun first hfirst =>
    .fork (keeps_atMark ":") ?_ (.pure hfirst)
  exact .bind (keeps_mark ":") fun _ hcolon => .bind (hinner .typeHint) fun _ hbound =>
    .pure (by simp [hfirst, hcolon, hbound])

/-! ## Patterns -/

omit hinner in
theorem keeps_dottedName : dottedName.Keeps bytes (Node.On bytes) := by
  refine .bind keeps_anyName fun first hfirst => .bind (keeps_lists ?_) fun rest hrest => ?_
  · exact .bind (keeps_mark ".") fun _ hdot => .bind keeps_anyName fun _ hn =>
      .pure (by simp [hdot, hn])
  · exact .pure (by simp [hfirst, hrest])

omit hinner in
theorem keeps_nameOrWildcard : nameOrWildcard.Keeps bytes (Node.On bytes) :=
  .bind (keeps_expect _) fun _ ht => .ite (.pure ht.leaf) (.pure ht.nameLeaf)

theorem keeps_bracketed {kind : Kind} (hkind : kind ≠ .call) (opening close : String) :
    (bracketed inner kind opening close).Keeps bytes (Node.On bytes) :=
  keeps_display (.fork (keeps_atMark close) (.pure ⟨hkind, areOn_nil⟩)
    (.bind (keeps_commas (hinner .casePattern) _) fun _ hparts => .pure ⟨hkind, hparts⟩))
    opening close

omit hinner in
theorem keeps_numberPattern : numberPattern.Keeps bytes (AreOn bytes) := by
  refine .bind (keeps_nodes (keeps_mark "-")) fun sign hsign => .bind (keeps_expect _)
    fun number hnumber => .skip (keeps_atMark "+") fun _ => .skip (keeps_atMark "-") fun _ =>
      .ite ?_ (.pure (by simp [hsign, hnumber.leaf]))
  exact .bind keeps_next fun _ hop => .bind (keeps_expect _) fun _ hright =>
    .pure (by simp [hsign, hnumber.leaf, hop.leaf, hright.leaf])

omit hinner in
theorem keeps_alternatives {simple : Rule (List Node)} (h : simple.Keeps bytes (AreOn bytes)) :
    (alternatives simple).Keeps bytes (AreOn bytes) := by
  refine .bind h fun first hfirst => .bind (keeps_lists ?_) fun more hmore => ?_
  · exact .bind (keeps_mark "|") fun _ hbar => .bind h fun _ hparts =>
      .pure (by simp [hbar, hparts])
  · exact .ite (.pure hfirst) (.pure (by simp [hfirst, hmore]))

theorem keeps_mappingEntry {key : Rule (List Node)} (hkey : key.Keeps bytes (AreOn bytes)) :
    (mappingEntry inner key).Keeps bytes (AreOn bytes) := by
  refine .skip keeps_peek fun _ => .ite ?_ ?_
  · exact .bind keeps_next fun _ hstars => .bind keeps_nameOrWildcard fun _ hn =>
      .pure (by simp [hstars.leaf, hn])
  · refine .bind hkey fun parts hparts => .bind (keeps_mark ":") fun _ hcolon =>
      .bind (hinner .casePattern) fun _ hvalue => .pure ?_
    have hkeys : AreOn bytes (parts.map (·.withRole .key)) :=
      hparts.map fun _ hn => Node.on_withRole.mpr hn
    simp [hkeys, hcolon, hvalue]

theorem keeps_mappingPattern {key : Rule (List Node)} (hkey : key.Keeps bytes (AreOn bytes)) :
    (mappingPattern inner key).Keeps bytes (Node.On bytes) := by
  refine keeps_display (.fork (keeps_atMark _) (.pure ⟨by decide, areOn_nil⟩) ?_) _ _
  have hentry := keeps_mappingEntry hinner hkey
  exact .bind hentry fun _ hfirst => .bind (keeps_further hentry _) fun _ hrest =>
    .pure (by simp [hfirst, hrest])

theorem keeps_classPattern : (classPattern inner).Keeps bytes (Node.On bytes) := by
  refine .bind keeps_dottedName fun n hn => .fork (keeps_atMark "(") ?_ (.pure hn)
  refine .bind (keeps_enclosed ?_ "(" ")") fun _ hparts => .pure (by simp [hn, hparts])
  exact .skip keeps_optional fun _ => .fork (keeps_atMark ")") (.pure areOn_nil)
    (.bind (keeps_commas (hinner .casePattern) _) fun _ hparts => .pure hparts)

theorem keeps_plainPattern : (plainPattern inner).Keeps bytes (AreOn bytes) := by
  have hone {r : Rule Node} (hr : r.Keeps bytes (Node.On bytes)) :
      Rule.Keeps bytes (do return [← r]) (AreOn bytes) :=
    .bind hr fun _ hn => .pure (by simp [hn])
  refine .skip keeps_required fun _ => .skip keeps_peek fun t => ?_
  split
  · refine .ite (hone (keeps_literal _)) <| .ite (hone (keeps_literal _)) <|
      .ite (hone (keeps_literal _)) <| .skip keeps_peekSecond fun _ =>
        .ite ?_ (hone (keeps_classPattern hinner))
    exact .bind keeps_next fun _ ht => .pure (by simp [ht.leaf])
  · exact hone (keeps_strings hinner)
  · exact keeps_numberPattern
  · exact keeps_numberPattern
  · refine .ite keeps_numberPattern <| .ite ?_ <|
      .ite (hone (keeps_bracketed hinner (by decide) _ _)) <|
      .ite (hone (keeps_bracketed hinner (by decide) _ _)) .stuck
    exact .bind keeps_next fun _ hstars => .bind keeps_nameOrWildcard fun _ hn =>
      .pure (by simp [hstars.leaf, hn])
  · exact .stuck

theorem keeps_simplePattern : (simplePattern inner).Keeps bytes (AreOn bytes) := by
  refine .skip keeps_required fun _ => .fork (keeps_atMark _) ?_ (keeps_plainPattern hinner)
  have hkey := keeps_alternatives (keeps_plainPattern hinner)
  exact .bind (keeps_mappingPattern hinner hkey) fun _ hn => .pure (by simp [hn])

/-- **A pattern of a case**, perhaps with a name for what it matches. -/
theorem keeps_casePattern : (casePattern inner).Keeps bytes (Node.On bytes) := by
  have halternatives := keeps_alternatives (keeps_simplePattern hinner)
  refine .skip keeps_required fun _ => .skip keeps_peek fun _ => .skip keeps_peekSecond fun _ =>
    .join (Q := AreOn bytes) (fun hrest => ?_) (fun hrest => .bind halternatives hrest)
      fun first hfirst => ?_
  · exact .bind keeps_name fun _ hn => .bind (keeps_mark "=") fun _ heq =>
      .bind halternatives fun _ hparts => .bind (.pure (by simp [hn, heq, hparts])) hrest
  · refine .bind (.gather (P := fun item => item.1.On bytes ∧ item.2.On bytes) ?_)
      fun names hnames => .pure ?_
    · exact .bind (keeps_word "as") fun _ hkeyword => .bind keeps_name fun _ hn =>
        .pure ⟨hkeyword, hn⟩
    · refine List.foldlRecOn (motive := Node.On bytes) _ _ (by simp [hfirst])
        fun p hp item hitem => ?_
      simp [hp, hnames item hitem]

end Phrases

end CallTree.Syntax.Grammar
