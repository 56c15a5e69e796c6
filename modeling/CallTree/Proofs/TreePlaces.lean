import CallTree.Proofs.PhrasePlaces
import CallTree.Proofs.Suites

/-!
# The tree of a text

Every node of the tree of a text lies between two characters of the text. The rules for statements
stay at cuts like those for expressions, if the phrases inside them do. The statements of a block
are phrases inside a statement, which is where the grammar comes back to itself, and the induction
is on the fuel of `Grammar.run`. A statement that cannot be read becomes an error at the place where
reading got stuck, and that place is between cuts as well; so nothing has to be assumed of the file
but that it is a text (`Source.on_tree`).
-/

namespace CallTree.Syntax

open CallTree.Text.Utf8

variable {bytes : List UInt8}

namespace Grammar

open Rule

/-! ## Simple statements -/

theorem keeps_importedName : importedName.Keeps bytes (Node.On bytes) := by
  refine .bind keeps_dottedName fun n hn =>
    .fork (keeps_atWord "as") ?_ (.pure (by simp [hn]))
  exact .bind (keeps_word "as") fun _ hkeyword => .bind keeps_anyName fun _ hname =>
    .pure (by simp [hn, hkeyword, hname])

theorem keeps_importedNames : importedNames.Keeps bytes (AreOn bytes) :=
  .bind (keeps_commas keeps_importedName _) fun _ hparts => .pure hparts

/-- Three dots in a row are taken apart between them. -/
theorem keeps_importDots : importDots.Keeps bytes (AreOn bytes) := by
  refine .bind (keeps_lists (.bind keeps_next fun t ht => ?_)) fun _ hdots => .pure hdots
  dsimp only
  split
  · rename_i hmark
    have hdot {i : Nat} (hi : i + 1 ≤ "...".length) : (Node.mk (.mark ".") none
        ⟨t.span.start + i, t.span.start + i + 1, t.span.row⟩ []).On bytes :=
      Node.on_leaf ⟨ht.isCut_add hmark (by decide) (Nat.le_of_succ_le hi),
        ht.isCut_add hmark (by decide) hi⟩
    exact .pure (areOn_cons.mpr ⟨hdot (by decide), areOn_cons.mpr ⟨hdot (by decide),
      areOn_cons.mpr ⟨hdot (by decide), areOn_nil⟩⟩⟩)
  · exact .pure (by simp [ht.leaf])

/-- The dots and the module that something is imported from. -/
theorem keeps_importSource : importSource.Keeps bytes (Node.On bytes) := by
  refine .bind keeps_importDots fun dots hdots => ?_
  split
  · exact keeps_dottedName
  · refine .fork (keeps_atWord "import") (.pure (by simp [hdots])) ?_
    exact .bind keeps_dottedName fun _ hn => .pure (by simp [hdots, hn])

theorem keeps_importList : importList.Keeps bytes (AreOn bytes) := by
  refine .skip keeps_required fun _ => .fork (keeps_atMark "*") ?_ <|
    .fork (keeps_atMark "(") (keeps_enclosed keeps_importedNames "(" ")") keeps_importedNames
  exact .bind (keeps_mark "*") fun _ hstar => .pure (by simp [hstar])

theorem keeps_fromImport : fromImport.Keeps bytes (Node.On bytes) := by
  refine .bind (.inHeader
    (P := fun read : Kind × List Node => read.1 ≠ .call ∧ AreOn bytes read.2) ?_)
    fun (kind, head) hhead => ?_
  · refine .bind (keeps_word "from") fun keyword hkeyword =>
      .skip (keeps_atWord "__future__") fun _ => .skip keeps_peekSecond fun _ => .ite ?_ ?_
    · exact .bind (keeps_word "__future__") fun _ hfuture => .bind (keeps_word "import")
        fun _ himport => .pure (by simp [hkeyword, hfuture, himport])
    · exact .bind keeps_importSource fun _ hsource => .bind (keeps_word "import")
        fun _ himport => .pure (by simp [hkeyword, hsource, himport])
  · exact .bind keeps_importList fun _ hparts =>
      .pure (by simp [hhead.1, hhead.2, hparts])

section Statements

variable {inner : Inner} (hinner : ∀ goal, (inner goal).Keeps bytes (Node.On bytes))

include hinner

/-- An assignment may go on with another one on its right side. -/
theorem keeps_assignment {left : Node} (hleft : left.On bytes) :
    (assignment inner left).Keeps bytes (Node.On bytes) := by
  unfold assignment
  split
  · exact .stuck
  · rename_i target htarget
    have hon := on_asTarget hleft true true target htarget
    refine .fork (keeps_atMark "=") ?_ <| .fork (keeps_atMark ":") ?_ ?_
    · exact .bind (keeps_mark "=") fun _ heq => .bind (hinner .rightSide) fun _ he =>
        .pure (by simp [hon, heq, he])
    · refine .bind (keeps_mark ":") fun _ hcolon => .bind (hinner .typeHint) fun _ htype =>
        .fork (keeps_atMark "=") ?_ (.pure (by simp [hon, hcolon, htype]))
      exact .bind (keeps_mark "=") fun _ heq => .bind (hinner .rightSide) fun _ he =>
        .pure (by simp [hon, hcolon, htype, heq, he])
    · exact .bind keeps_next fun _ hop => .bind (hinner .rightSide) fun _ he =>
        .pure (by simp [hon, hop.leaf, he])

theorem keeps_rightSide : (rightSide inner).Keeps bytes (Node.On bytes) := by
  refine .skip keeps_required fun _ => .fork (keeps_atWord "yield")
    (keeps_yieldExpression hinner) ?_
  exact .bind (keeps_expressions hinner) fun left hleft => .skip keeps_peek fun _ =>
    .ite (keeps_assignment hinner hleft) (.pure (on_asRightSide hleft))

omit hinner in
theorem areOn_starLater {ns : List Node} (h : AreOn bytes ns) (later : Bool) :
    AreOn bytes (starLater later ns) := by
  induction ns generalizing later with
  | nil => exact h
  | cons n ns ih =>
    obtain ⟨hn, hns⟩ := areOn_cons.mp h
    unfold starLater
    split
    · exact areOn_cons.mpr ⟨hn, ih hns later⟩
    split
    · exact h
    · refine areOn_cons.mpr ⟨?_, ih hns true⟩
      split
      · exact on_restarred .longest hn
      · exact hn

omit hinner in
theorem role_ledByWord (n : Node) : (ledByWord n).role = n.role := by
  cases n
  unfold ledByWord
  dsimp only
  split
  · split
    · split
      · rfl
      · split <;> rfl
    · split <;> rfl
  · rfl

omit hinner in
theorem on_ledByWord {n : Node} (h : n.On bytes) : (ledByWord n).On bytes := by
  induction h with
  | @mk label role span children hspan hchildren hroles ih =>
    have hn : (Node.mk label role span children).On bytes := ⟨hspan, hchildren, hroles⟩
    unfold ledByWord
    dsimp only
    split
    · rename_i head rest
      obtain ⟨hhead, hrest⟩ := areOn_cons.mp hchildren
      split
      · split
        · rename_i hlabel
          exact ⟨hspan, areOn_cons.mpr ⟨hhead, areOn_starLater hrest false⟩,
            hlabel ▸ Label.admits_construct (by decide)⟩
        split
        · refine ⟨hspan, areOn_cons.mpr ⟨hhead, hrest.map fun arguments harguments => ?_⟩, ?_⟩
          · split
            · obtain ⟨hspan', hparts, -⟩ := harguments
              exact ⟨hspan', areOn_starLater hparts false, Label.admits_construct (by decide)⟩
            · exact harguments
          · rw [List.map_cons, List.map_map, List.map_congr_left (g := Node.role) ?_]
            · exact hroles
            · intro arguments _
              dsimp only [Function.comp_apply]
              split <;> rfl
        · exact hn
      split
      · refine ⟨hspan, areOn_cons.mpr ⟨ih head List.mem_cons_self, hrest⟩, ?_⟩
        rw [ledByWordFirst, List.map_cons, role_ledByWord]
        exact hroles
      · exact hn
    · exact hn

omit hinner in
theorem areOn_ledByWordFirst {ns : List Node} (h : AreOn bytes ns) :
    AreOn bytes (ledByWordFirst ns) := by
  cases ns with
  | nil => exact areOn_nil
  | cons n ns =>
    obtain ⟨hn, hns⟩ := areOn_cons.mp h
    exact areOn_cons.mpr ⟨on_ledByWord hn, hns⟩

omit hinner in
theorem keeps_atLeadingWord : atLeadingWord.Keeps bytes fun _ => True :=
  .skip keeps_peek fun _ => .skip keeps_peekSecond fun _ => .pure trivial

theorem keeps_expressionStatement : (expressionStatement inner).Keeps bytes (Node.On bytes) := by
  refine .fork (keeps_atWord "yield") ?_ ?_
  · exact .bind (keeps_yieldExpression hinner) fun _ he => .pure (by simp [he])
  · refine .skip keeps_atLeadingWord fun isLed => .bind (keeps_commas (hinner .expression) _)
      fun (parts, isList) hparts => .skip keeps_peek fun _ => ?_
    have hled : AreOn bytes (if isLed then ledByWordFirst parts else parts) := by
      split
      · exact areOn_ledByWordFirst hparts
      · exact hparts
    generalize (if isLed then ledByWordFirst parts else parts) = parts at hled ⊢
    refine .ite (.bind (keeps_assignment hinner ?_) fun _ hn => .pure (by simp [hn]))
      (.pure (by simp [hled]))
    split
    · split
      · simpa using hled
      · exact (areOn_cons.mp hled).1
    · simpa using hled

omit hinner in
theorem keeps_ending {statement : Rule Node} (h : statement.Keeps bytes (Node.On bytes)) :
    (ending statement).Keeps bytes (Node.On bytes) :=
  .bind h fun _ hn => .skip keeps_peek fun _ => .skip (keeps_atMark ";") fun _ =>
    .ite (.pure hn) .stuck

theorem keeps_keywordStatement {kind : Kind} (hkind : kind ≠ .call) (keyword : String) :
    (keywordStatement inner kind keyword).Keeps bytes (Node.On bytes) :=
  .bind (keeps_word keyword) fun _ hkeyword => .skip keeps_optional fun _ =>
    .skip keeps_peek fun _ => .ite
      (.bind (keeps_expressions hinner) fun _ he => .pure (by simp [hkeyword, he, hkind]))
      (.pure (by simp [hkeyword, hkind]))

theorem keeps_raiseStatement : (raiseStatement inner).Keeps bytes (Node.On bytes) := by
  refine .bind (keeps_keywordStatement hinner (by decide) "raise") fun (.mk _ _ _ _) hn =>
    .fork (keeps_atWord "from") ?_ (.pure hn)
  exact .bind (keeps_word "from") fun _ hfrom => .bind (hinner .expression) fun _ he =>
    .pure (by simp [(Node.on_mk.mp hn).2.1, hfrom, he])

omit hinner in
theorem keeps_nameStatement {kind : Kind} (hkind : kind ≠ .call) (keyword : String) :
    (nameStatement kind keyword).Keeps bytes (Node.On bytes) :=
  .bind (keeps_word keyword) fun _ hkeyword => .bind (keeps_listed keeps_anyName) fun _ hnames =>
    .pure (by simp [hkeyword, hnames, hkind])

theorem keeps_printStatement : (printStatement inner).Keeps bytes (Node.On bytes) := by
  refine .bind (keeps_word "print") fun keyword hkeyword => .skip keeps_required fun _ =>
    .skip (keeps_atMark ">>") fun _ => .join (Q := Node.On bytes) (fun hrest => ?_)
      (fun hrest => .bind (hinner .expression) hrest) fun first hfirst => ?_
  · exact .bind (keeps_mark ">>") fun _ hmark => .bind (hinner .expression) fun _ he =>
      .bind (.pure (by simp [hmark, he])) hrest
  · exact .bind (keeps_displayRest (hinner .expression)) fun _ hmore =>
      .pure (by simp [hkeyword, hfirst, hmore])

theorem keeps_execStatement : (execStatement inner).Keeps bytes (Node.On bytes) := by
  refine .bind (keeps_word "exec") fun keyword hkeyword => .skip keeps_required fun _ =>
    .skip keeps_peek fun _ => .join (Q := Node.On bytes) (fun hrest => .bind keeps_name hrest)
      (fun hrest => .bind (keeps_stringLiteral hinner) hrest) fun code hcode =>
        .fork (keeps_atWord "in") ?_ (.pure (by simp [hkeyword, hcode]))
  exact .bind (keeps_word "in") fun _ hin => .bind (keeps_listed (hinner .expression))
    fun _ hparts => .pure (by simp [hkeyword, hcode, hin, hparts])

theorem keeps_typeAliasStatement : (typeAliasStatement inner).Keeps bytes (Node.On bytes) := by
  refine .bind (.inHeader (P := AreOn bytes) ?_) fun head hhead => ?_
  · exact .bind (keeps_word "type") fun _ hkeyword => .bind (hinner .typeHint) fun _ hleft =>
      .bind (keeps_mark "=") fun _ heq => .pure (by simp [hkeyword, hleft, heq])
  · exact .bind (hinner .typeHint) fun _ hright => .pure (by simp [hhead, hright])

/-- **A statement without a body**: which one shows at its first words. -/
theorem keeps_simpleStatement : (simpleStatement inner).Keeps bytes (Node.On bytes) := by
  have hstatement := keeps_expressionStatement hinner
  have hword {kind : Kind} (hkind : kind ≠ .call) {text : String} :
      Rule.Keeps bytes (do return phrase kind [← word text]) (Node.On bytes) :=
    .bind (keeps_word text) fun _ hkeyword => .pure (by simp [hkeyword, hkind])
  refine .skip keeps_peek fun t => .skip keeps_peekSecond fun after => ?_
  split
  · refine .ite ?_ <| .ite keeps_fromImport <| .ite ?_ <|
      .ite (keeps_keywordStatement hinner (by decide) _) <|
      .ite ?_ <| .ite (keeps_raiseStatement hinner) <| .ite (hword (by decide)) <|
      .ite (hword (by decide)) <| .ite (hword (by decide)) <|
      .ite (keeps_nameStatement (by decide) _) <|
      .ite (keeps_nameStatement (by decide) _) <| .ite hstatement <|
      .ite ?_ <| .ite (keeps_execStatement hinner) <| .ite ?_ hstatement
    · exact .bind (keeps_word "import") fun _ hkeyword => .bind keeps_importedNames
        fun _ hnames => .pure (by simp [hkeyword, hnames])
    · exact .bind (keeps_word _) fun _ hkeyword => .bind (keeps_listed (hinner .expression))
        fun _ hparts => .pure (by simp [hkeyword, hparts])
    · exact .bind (keeps_word _) fun _ hkeyword => .bind (keeps_expressions hinner)
        fun _ he => .pure (by simp [hkeyword, he])
    · exact .ite (keeps_printStatement hinner)
        (.orElse (keeps_ending hstatement) (keeps_printStatement hinner))
    · exact .orElse (keeps_ending (keeps_typeAliasStatement hinner)) hstatement
  · exact hstatement

/-- The statements of one line, and the place where the line ends. -/
theorem keeps_simpleLine : (simpleLine inner).Keeps bytes
    fun line => AreOn bytes line.1 ∧ IsCut bytes line.2 := by
  have hsimple := keeps_simpleStatement hinner
  refine .bind hsimple fun first hfirst => .bind (keeps_lists ?_) fun rest hrest => ?_
  · refine .bind (keeps_mark ";") fun _ hmark => .skip keeps_optional fun _ =>
      .skip keeps_peek fun _ => .ite (.pure (by simp [hmark])) ?_
    exact .bind hsimple fun _ hn => .pure (by simp [hmark, hn])
  · exact .bind keeps_endOfLine fun _ hending =>
      .pure ⟨by simp [hfirst, hrest], hending.span.stop⟩

/-! ## Compound statements -/

theorem keeps_body : (body inner).Keeps bytes (AreOn bytes) :=
  .bind (keeps_mark ":") fun _ hcolon => .bind (hinner .suite) fun _ hsuite =>
    .pure (by simp [hcolon, hsuite])

theorem keeps_keywordClause {kind : Kind} (hkind : kind ≠ .call) (keyword : String) :
    (keywordClause inner kind keyword).Keeps bytes (Node.On bytes) :=
  .bind (keeps_word keyword) fun _ hkeyword => .bind (keeps_body hinner) fun _ hbody =>
    .pure (by simp [hkeyword, hbody, hkind])

theorem keeps_elseClause : (elseClause inner).Keeps bytes (AreOn bytes) :=
  .fork (keeps_atWord "else") (.bind (keeps_keywordClause hinner (by decide) "else") fun _ hn =>
    .pure (by simp [hn])) (.pure areOn_nil)

theorem keeps_conditional (keyword : String) :
    (conditional inner keyword).Keeps bytes (AreOn bytes) :=
  .bind (keeps_word keyword) fun _ hkeyword => .bind (hinner .expression) fun _ he =>
    .bind (keeps_body hinner) fun _ hbody => .pure (by simp [hkeyword, he, hbody])

theorem keeps_ifStatement : (ifStatement inner).Keeps bytes (Node.On bytes) := by
  refine .bind (keeps_conditional hinner "if") fun head hhead => .bind (keeps_nodes ?_)
    fun others hothers => .bind (keeps_elseClause hinner) fun _ helse =>
      .pure (by simp [hhead, hothers, helse])
  exact .bind (keeps_conditional hinner "elif") fun _ hparts => .pure (by simp [hparts])

theorem keeps_whileStatement : (whileStatement inner).Keeps bytes (Node.On bytes) :=
  .bind (keeps_conditional hinner "while") fun _ hhead => .bind (keeps_elseClause hinner)
    fun _ helse => .pure (by simp [hhead, helse])

theorem keeps_forStatement {opening : List Node} (hopening : AreOn bytes opening) :
    (forStatement inner opening).Keeps bytes (Node.On bytes) :=
  .bind (keeps_word "for") fun _ hfor => .bind (keeps_targets hinner) fun _ hleft =>
    .bind (keeps_word "in") fun _ hin => .bind (keeps_expressions hinner) fun _ hright =>
      .bind (keeps_body hinner) fun _ hbody => .bind (keeps_elseClause hinner) fun _ helse =>
        .pure (by simp [hopening, hfor, hleft, hin, hright, hbody, helse])

theorem keeps_handled : (handled inner).Keeps bytes (AreOn bytes) := by
  refine .fork (keeps_atMark "*") ?_ ?_
  · refine .bind (keeps_mark "*") fun star hstar => .skip keeps_required fun _ =>
      .fork (keeps_atMark ":") (.pure (by simp [hstar])) ?_
    refine .bind (hinner .expression) fun value hvalue => ?_
    split
    · rename_i n hn
      exact .pure (by simp [on_starLongest hstar hvalue n hn])
    · exact .pure (by simp [hstar, hvalue])
  · exact .bind (hinner .expression) fun _ he => .pure (by simp [he])

theorem keeps_exceptClause : (exceptClause inner).Keeps bytes (Node.On bytes) := by
  refine .bind (keeps_word "except") fun keyword hkeyword => .skip keeps_required fun _ =>
    .skip (keeps_atMark ":") fun _ => .join (Q := AreOn bytes)
      (fun hrest => .bind (.pure areOn_nil) hrest) (fun hrest => ?_) fun values hvalues => ?_
  · refine .bind (keeps_handled hinner) fun first hfirst => .bind (keeps_lists ?_)
      fun more hmore => .bind (.pure (by simp [hfirst, hmore])) hrest
    exact .bind (keeps_mark ",") fun _ hcomma => .bind (hinner .expression) fun _ he =>
      .pure (by simp [hcomma, he])
  · exact .bind (keeps_body hinner) fun _ hbody => .pure (by simp [hkeyword, hvalues, hbody])

theorem keeps_tryStatement : (tryStatement inner).Keeps bytes (Node.On bytes) :=
  .bind (keeps_word "try") fun _ hkeyword => .bind (keeps_body hinner) fun _ hbody =>
    .bind (keeps_nodes (keeps_exceptClause hinner)) fun _ hhandlers =>
      .bind (keeps_elseClause hinner) fun _ helse =>
        .bind (keeps_nodes (keeps_keywordClause hinner (by decide) "finally")) fun _ hfinally =>
          .ite .stuck (.pure (by simp [hkeyword, hbody, hhandlers, helse, hfinally]))

theorem keeps_withItem : (withItem inner).Keeps bytes (Node.On bytes) :=
  .bind (hinner .expression) fun _ he => .pure (by simp [he])

/-- The brackets may belong to the items or to the first of them. -/
theorem keeps_bracketedItems : (bracketedItems inner).Keeps bytes (Node.On bytes) := by
  have hitem := keeps_withItem hinner
  refine .bind (keeps_enclosed ?_ "(" ")") fun items hitems =>
    .fork (keeps_atMark ":") (.pure (by simp [hitems])) .stuck
  exact .bind hitem fun _ hfirst => .bind (keeps_further (.bind hitem fun _ hn =>
    .pure (by simp [hn])) _) fun _ hrest => .ite (.pure (by simp [hfirst, hrest])) .stuck

theorem keeps_plainItems : (plainItems inner).Keeps bytes (Node.On bytes) :=
  .bind (keeps_commas (keeps_withItem hinner) _) fun _ hparts => .pure (by simp [hparts])

theorem keeps_withStatement {opening : List Node} (hopening : AreOn bytes opening) :
    (withStatement inner opening).Keeps bytes (Node.On bytes) :=
  .bind (keeps_word "with") fun _ hkeyword => .bind (.orElse (keeps_bracketedItems hinner)
    (keeps_plainItems hinner)) fun _ hitems => .bind (keeps_body hinner) fun _ hbody =>
      .pure (by simp [hopening, hkeyword, hitems, hbody])

/-- **A parameter**, with its annotation and its default value. -/
theorem keeps_parameter : (parameter inner).Keeps bytes (Node.On bytes) := by
  refine .skip keeps_peek fun _ => .ite ?_ <| .skip keeps_peekSecond fun _ =>
    .ite ?_ (keeps_plainParameter hinner)
  · refine .bind (keeps_plainParameter hinner) fun splat hsplat =>
      .fork (keeps_atMark ":") ?_ (.pure hsplat)
    exact .bind (keeps_mark ":") fun _ hcolon => .bind (hinner .typeHint) fun _ htype =>
      .pure (by simp [hsplat, hcolon, htype])
  · refine .bind keeps_anyName fun n hn => .bind (keeps_mark ":") fun _ hcolon =>
      .bind (hinner .typeHint) fun _ htype =>
        .fork (keeps_atMark "=") ?_ (.pure (by simp [hn, hcolon, htype]))
    exact .bind (keeps_mark "=") fun _ heq => .bind (hinner .expression) fun _ he =>
      .pure (by simp [hn, hcolon, htype, heq, he])

theorem keeps_parameters : (parameters inner).Keeps bytes (Node.On bytes) :=
  keeps_display (.fork (keeps_atMark ")") (.pure ⟨by decide, areOn_nil⟩)
    (.bind (keeps_commas (keeps_parameter hinner) _) fun _ hparts => .pure ⟨by simp, hparts⟩))
    "(" ")"

theorem keeps_typeParameters : (typeParameters inner).Keeps bytes (AreOn bytes) :=
  .fork (keeps_atMark "[") (.bind (keeps_typeParameter hinner) fun _ hn => .pure (by simp [hn]))
    (.pure areOn_nil)

/-- **A function**, from `def` or `async` to the end of its body. -/
theorem keeps_functionDefinition {opening : List Node} (hopening : AreOn bytes opening) :
    (functionDefinition inner opening).Keeps bytes (Node.On bytes) := by
  refine .bind (keeps_word "def") fun _ hkeyword => .bind keeps_anyName fun _ hn =>
    .bind (keeps_typeParameters hinner) fun _ hgenerics => .bind (keeps_parameters hinner)
      fun _ hparams => .skip (keeps_atMark "->") fun _ => .join (Q := AreOn bytes)
        (fun hrest => ?_) (fun hrest => .bind (.pure areOn_nil) hrest) fun result hresult => ?_
  · exact .bind (keeps_mark "->") fun _ harrow => .bind (keeps_unboundedType hinner)
      fun _ htype => .bind (.pure (by simp [harrow, htype])) hrest
  · exact .bind (keeps_body hinner) fun _ hbody =>
      .pure (by simp [hopening, hkeyword, hn, hgenerics, hparams, hresult, hbody])

theorem keeps_classDefinition : (classDefinition inner).Keeps bytes (Node.On bytes) := by
  refine .bind (keeps_word "class") fun _ hkeyword => .bind keeps_anyName fun _ hn =>
    .bind (keeps_typeParameters hinner) fun _ hgenerics => .skip (keeps_atMark "(") fun _ =>
      .join (Q := AreOn bytes) (fun hrest => .bind (keeps_callArguments hinner) fun _ hbases =>
        .bind (.pure (by simp [hbases])) hrest) (fun hrest => .bind (.pure areOn_nil) hrest)
        fun bases hbases => ?_
  exact .bind (keeps_body hinner) fun _ hbody =>
    .pure (by simp [hkeyword, hn, hgenerics, hbases, hbody])

theorem keeps_asyncStatement : (asyncStatement inner).Keeps bytes (Node.On bytes) := by
  refine .bind (keeps_word "async") fun keyword hkeyword => ?_
  have hopening : AreOn bytes [keyword] := by simp [hkeyword]
  exact .fork (keeps_atWord "def") (keeps_functionDefinition hinner hopening) <|
    .fork (keeps_atWord "for") (keeps_forStatement hinner hopening)
      (keeps_withStatement hinner hopening)

theorem keeps_decorator : (decorator inner).Keeps bytes (Node.On bytes) :=
  .bind (keeps_mark "@") fun _ hmark => .bind (.inMode (hinner .expression)) fun _ hvalue =>
    .bind (.inMode keeps_peek) fun _ hending => .ite (.skip keeps_next fun _ =>
      .skip (keeps_look _) fun _ =>
        .pure (on_phraseUpTo (by simp [hmark, hvalue]) hending.span.stop (by decide))) .stuck

/-- Decorators, each on a line of its own, and what they are put on. -/
theorem keeps_decoratedDefinition : (decoratedDefinition inner).Keeps bytes (Node.On bytes) := by
  refine .bind (keeps_nodes (keeps_decorator hinner)) fun decorators hdecorators =>
    .skip (keeps_atWord "class") fun _ => .skip (keeps_atWord "async") fun _ => ?_
  have hdecorated {n : Node} (hn : n.On bytes) :
      (phrase .decoratedDefinition (decorators ++ [n.withRole .definition])).On bytes := by
    simp [hdecorators, hn]
  refine .ite ?_ <| .ite ?_ ?_
  · exact .bind (keeps_classDefinition hinner) fun _ hn => .pure (hdecorated hn)
  · exact .bind (keeps_asyncStatement hinner) fun _ hn => .pure (hdecorated hn)
  · exact .bind (keeps_functionDefinition hinner areOn_nil) fun _ hn => .pure (hdecorated hn)

theorem keeps_caseClause : (caseClause inner).Keeps bytes (Node.On bytes) := by
  refine .bind (keeps_word "case") fun keyword hkeyword => .bind (keeps_commas
    (hinner .casePattern) _) fun (patterns, _) hpatterns => .skip (keeps_atWord "if") fun _ =>
      .join (Q := AreOn bytes) (fun hrest => ?_) (fun hrest => .bind (.pure areOn_nil) hrest)
        fun guard hguard => ?_
  · exact .bind (keeps_word "if") fun _ hif => .bind (hinner .expression) fun _ he =>
      .bind (.pure (by simp [hif, he])) hrest
  · exact .bind (keeps_body hinner) fun _ hbody =>
      .pure (by simpa [hkeyword, hguard, hbody] using hpatterns)

theorem keeps_matchHead : (matchHead inner).Keeps bytes
    fun read => AreOn bytes read.1 ∧ read.2.On bytes :=
  .bind (keeps_word "match") fun _ hkeyword => .bind (keeps_commas (hinner .expression) _)
    fun (_, _) hsubjects => .bind (keeps_mark ":") fun _ hcolon => .skip (keeps_look _) fun _ =>
      .bind keeps_peek fun _ hending => .ite
        (.pure ⟨by simpa [hkeyword, hcolon] using hsubjects, hending.span⟩) .stuck

theorem keeps_matchStatement {head : List Node} (hhead : AreOn bytes head) {ending : Span}
    (hending : ending.On bytes) :
    (matchStatement inner head ending).Keeps bytes (Node.On bytes) := by
  refine .bind keeps_next fun opening hopening => .skip (keeps_look _) fun _ => .ite ?_ ?_
  · refine .bind (keeps_nodes (keeps_caseClause hinner)) fun cases hcases => .bind (keeps_expect _)
      fun closing hclosing => .skip (keeps_look _) fun _ => .pure ?_
    have hspan : Span.On bytes ⟨opening.span.start, closing.span.stop, opening.span.row⟩ :=
      ⟨hopening.span.start, hclosing.span.stop⟩
    simp [hhead, hspan, hcases]
  · exact .pure (by simp [hhead, hending])

theorem keeps_compound (keyword : String) :
    (compound inner keyword).Keeps bytes fun found => ∀ n ∈ found, n.On bytes := by
  have hsome {r : Rule Node} (hr : r.Keeps bytes (Node.On bytes)) :
      Rule.Keeps bytes (do return some (← r)) fun found => ∀ n ∈ found, n.On bytes :=
    .bind hr fun n hn => .pure fun n' hn' => Option.some.inj hn' ▸ hn
  exact .ite (hsome (keeps_ifStatement hinner)) <| .ite (hsome (keeps_whileStatement hinner)) <|
    .ite (hsome (keeps_forStatement hinner areOn_nil)) <|
    .ite (hsome (keeps_tryStatement hinner)) <|
    .ite (hsome (keeps_withStatement hinner areOn_nil)) <|
    .ite (hsome (keeps_functionDefinition hinner areOn_nil)) <|
    .ite (hsome (keeps_classDefinition hinner)) <| .pure nofun

/-- **A statement** lies between cuts, and so does the place where it could not be read. -/
theorem keeps_statement : (statement inner).Keeps bytes (AreOn bytes) := by
  have hone {r : Rule Node} (hr : r.Keeps bytes (Node.On bytes)) :
      Rule.Keeps bytes (do return [← r]) (AreOn bytes) :=
    .bind hr fun _ hn => .pure (by simp [hn])
  have hline : Rule.Keeps bytes (do return (← simpleLine inner).1) (AreOn bytes) :=
    .bind (keeps_simpleLine hinner) fun _ h => .pure h.1
  refine .skip keeps_peek fun t => .skip keeps_peekSecond fun after => ?_
  dsimp only
  split
  · refine .ite ?_ <| .ite ?_ ?_
    · intro c hc
      have hhead : IsOn bytes _ (inMode .header (matchHead inner) c) :=
        Keeps.inMode (keeps_matchHead hinner) c hc
      dsimp only
      split
      · rename_i heq
        rw [heq] at hhead
        exact Keeps.inMode (hone (keeps_matchStatement hinner hhead.1.1 hhead.1.2)) _ hhead.2
      · exact hline c hc
    · exact hone (.inMode (keeps_asyncStatement hinner))
    · refine .bind (.inMode (keeps_compound hinner _)) fun found hfound => ?_
      cases found with
      | none => exact hline
      | some n => exact .pure (by simp [hfound n rfl])
  · exact .ite (hone (.inMode (keeps_decoratedDefinition hinner))) hline
  · exact hline

/-! ## Blocks -/

omit hinner in
/-- Passing over tokens that could not be read moves the cursor from cut to cut. -/
theorem Cursor.On.skipStatement {c : Cursor} (h : c.On bytes) (current depth : Nat)
    {tokens : List Token} (htokens : ∀ t ∈ tokens, t.On bytes) :
    (skipStatement current depth c tokens).On bytes := by
  induction tokens generalizing c depth with
  | nil => exact h.withTokens htokens _
  | cons t rest ih =>
    obtain ⟨ht, hrest⟩ := List.forall_mem_cons.mp htokens
    have hpassed : (t.gap.trivia.foldl (fun c trivium => c.passing trivium) c).On bytes :=
      List.foldlRecOn (motive := Cursor.On bytes) _ _ h
        fun c hc trivium htrivium => hc.passing (ht.gap trivium htrivium)
    unfold Grammar.skipStatement
    split
    · exact (h.withTokens htokens false).look .statement
    · exact ih (hpassed.withLast ht.span.stop) _ hrest

/-- **A statement that cannot be read** becomes an error where reading got stuck. -/
theorem keeps_recovered : (recovered inner).Keeps bytes (AreOn bytes) := by
  intro c hc
  have hread := keeps_statement hinner c hc
  unfold recovered
  split
  · rename_i heq
    rw [heq] at hread
    exact hread
  · rename_i span heq
    rw [heq] at hread
    refine ⟨areOn_cons.mpr ⟨Node.on_leaf hread, areOn_nil⟩, ?_⟩
    split
    · exact hc
    · rename_i t rest htokens
      obtain ⟨ht, hrest⟩ := List.forall_mem_cons.mp (htokens ▸ hc.tokens)
      exact (hc.withLast ht.span.stop).skipStatement _ _ hrest

theorem keeps_statements : (statements inner).Keeps bytes (AreOn bytes) :=
  .skip (keeps_look _) fun _ => .bind (keeps_lists (keeps_recovered hinner)) fun _ h => .pure h

/-- **A block** lies between cuts. -/
theorem keeps_suite : (suite inner).Keeps bytes (Node.On bytes) := by
  refine .inMode <| .skip (keeps_look _) fun _ => .skip keeps_peek fun _ => .ite ?_ <| .ite ?_ ?_
  · exact .skip keeps_next fun _ => .bind (keeps_statements hinner) fun _ hparts =>
      .bind (keeps_expect _) fun _ hclosing => .skip (keeps_look _) fun _ =>
        .pure (on_phraseUpTo hparts hclosing.span.stop (by decide))
  · exact .bind keeps_endOfLine fun _ hending => .pure (Node.on_leaf hending.span)
  · exact .bind (keeps_simpleLine hinner) fun _ hline => 
      .pure (on_phraseUpTo hline.1 hline.2 (by decide))

/-- The rule for each goal keeps its promise if the inner rules keep theirs. -/
theorem keeps_ruleFor (goal : Goal) : (ruleFor inner goal).Keeps bytes (Node.On bytes) := by
  cases goal with
  | expression => exact keeps_expression hinner
  | unconditional => exact keeps_unconditional hinner
  | iterated => exact keeps_iterated hinner
  | disjunction => exact keeps_disjunction hinner
  | factor => exact keeps_factor hinner
  | operand => exact keeps_operand hinner
  | rightSide => exact keeps_rightSide hinner
  | typeHint => exact keeps_typeHint hinner
  | suite => exact keeps_suite hinner
  | casePattern => exact keeps_casePattern hinner
  | field => exact keeps_field hinner

end Statements

/-- **Every phrase lies between cuts**, however deep the requests nest. -/
theorem keeps_run (fuel : Nat) (goal : Goal) : (run fuel goal).Keeps bytes (Node.On bytes) := by
  induction fuel generalizing goal with
  | zero => exact .stuck
  | succ fuel ih => exact keeps_ruleFor ih goal

end Grammar

/-! ## Comments -/

/-- What is put in its place among others plays no part for them. -/
theorem count_insertAmong {extra : Node} (hextra : extra.role = none) (role : Role)
    (ns : List Node) :
    ((Node.insertAmong extra ns).map Node.role).count (some role)
      = (ns.map Node.role).count (some role) := by
  induction ns with
  | nil => simp [Node.insertAmong, hextra]
  | cons n ns ih =>
    unfold Node.insertAmong
    split
    · rw [List.map_cons, List.map_cons, Node.role_insertExtra]
    · split
      · simp [hextra]
      · rw [List.map_cons, List.map_cons, List.count_cons, List.count_cons, ih]

/-- A comment is put below a node without moving anything. -/
theorem Node.On.insertExtra {extra : Node} (hextra : extra.On bytes) (hrole : extra.role = none)
    {n : Node} (h : n.On bytes) : (Node.insertExtra extra n).On bytes := by
  induction h with
  | mk hspan hchildren hroles ih =>
    refine ⟨hspan, fun n hn => ?_, fun hcall => ?_⟩
    · obtain rfl | hn | ⟨m, hm, rfl⟩ := Node.mem_insertAmong hn
      · exact hextra
      · exact hchildren n hn
      · exact ih m hm
    · rw [count_insertAmong hrole]
      exact hroles hcall

/-- **Every node of the tree of a text lies between its cuts.** -/
theorem Source.on_tree (src : Source) (h : IsText src.bytes.toList) :
    src.tree.On src.bytes.toList := by
  have hend : IsCut src.bytes.toList src.bytes.size := by
    have hlength := isCut_length h
    rwa [length_toList] at hlength
  have hroot {statements : List Node} (hstatements : AreOn src.bytes.toList statements) :
      (Node.mk (.construct .sourceFile) none ⟨0, src.bytes.size, 0⟩ statements).On
        src.bytes.toList :=
    ⟨⟨isCut_zero _, hend⟩, hstatements, Label.admits_construct (by decide)⟩
  have hstart : (Grammar.Cursor.start src.tokens).On src.bytes.toList :=
    ⟨src.on_tokens h, isCut_zero _, fun _ h => absurd h List.not_mem_nil⟩
  have hread := Grammar.keeps_statements (Grammar.keeps_run (2 * src.tokens.length + 8)) _ hstart
  unfold Source.tree treeOfTokens
  cases heq : Grammar.sourceFile (Grammar.run (2 * src.tokens.length + 8))
    (.start src.tokens) with
  | error span =>
    -- What is left of a text that cannot be read is the place where reading got stuck.
    rw [show Grammar.statements _ _ = _ from heq] at hread
    exact hroot (areOn_cons.mpr ⟨Node.on_leaf hread, areOn_nil⟩)
  | ok read =>
    rw [show Grammar.statements _ _ = _ from heq] at hread
    refine List.foldlRecOn (motive := Node.On src.bytes.toList) _ _ (hroot hread.1) ?_
    intro root hon extra hextra
    obtain ⟨trivium, htrivium, hleaf⟩ := List.mem_filterMap.mp hextra
    exact .insertExtra ((hread.2.extras trivium (List.mem_reverse.mp htrivium)).leaf? hleaf)
      (trivium.plain_of_leaf? hleaf).2 hon

end CallTree.Syntax
