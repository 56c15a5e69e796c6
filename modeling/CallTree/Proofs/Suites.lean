import CallTree.Proofs.Gives
import CallTree.Syntax.Definition
import CallTree.Syntax.Tree

/-!
# The body of a definition is a block

The tree of a file is made by rules, and what a rule reads can be told from the end of the rule,
whatever it has asked for on the way: it makes a phrase of a certain kind from certain parts.
`Rule.Gives` carries such facts through the rules, and of the rules for statements it shows two.
A statement that is not a definition is no phrase that could be taken for one, and among the
parts of a definition only a suite stands for its body.

A suite is a block of statements again, which is where the grammar comes back to itself; the
induction is on the fuel of `Grammar.run`. The comments that are put into the tree afterwards
play no part for the node they are put under, so they change nothing.
-/

namespace CallTree.Syntax

namespace Grammar

/-! ## What rules read -/

namespace Rule

variable {α β : Type} {P : α → Prop}

/-- **What a rule reads** has a property. -/
def Gives (r : Rule α) (P : α → Prop) : Prop := ∀ c, CallTree.Gives (r c) fun read => P read.1

namespace Gives

theorem pure {a : α} (h : P a) : Rule.Gives (Pure.pure a) P := by
  intro c read hread
  cases hread
  exact h

/-- **One rule after another**, where the second may count on what the first has read. -/
theorem bind {Q : β → Prop} {r : Rule β} {f : β → Rule α} (hr : r.Gives Q)
    (hf : ∀ b, Q b → (f b).Gives P) : Rule.Gives (r >>= f) P := by
  intro c read hread
  replace hread : Rule.bind r f c = .ok read := hread
  unfold Rule.bind at hread
  split at hread
  · rename_i b rest hb
    exact hf b (hr c _ hb) rest read hread
  · cases hread

/-- One rule after another, whatever the first has read. -/
theorem of_bind {r : Rule β} {f : β → Rule α} (hf : ∀ b, (f b).Gives P) :
    Rule.Gives (r >>= f) P :=
  bind (Q := fun _ => True) (fun _ _ _ => trivial) fun b _ => hf b

theorem imp {Q : α → Prop} {r : Rule α} (hr : r.Gives P) (h : ∀ a, P a → Q a) : r.Gives Q :=
  fun c read hread => h _ (hr c read hread)

theorem stuck : (stuck : Rule α).Gives P := fun _ _ hread => by cases hread

theorem ite {p : Prop} [Decidable p] {r s : Rule α} (hr : r.Gives P) (hs : s.Gives P) :
    Rule.Gives (if p then r else s) P := by
  split
  · exact hr
  · exact hs

/-- Whichever of the two rules is taken. -/
theorem orElse {r s : Rule α} (hr : r.Gives P) (hs : s.Gives P) : (r.orElse s).Gives P := by
  intro c read hread
  unfold Rule.orElse at hread
  split at hread
  · rename_i result hresult
    cases hread
    exact hr c read hresult
  · exact hs c read hread

theorem inMode {mode : Mode} {r : Rule α} (hr : r.Gives P) : (inMode mode r).Gives P := by
  intro c read hread
  unfold Rule.inMode at hread
  split at hread
  · rename_i a rest ha
    cases hread
    exact hr _ (a, rest) ha
  · cases hread

theorem inHeader {r : Rule α} (hr : r.Gives P) : (inHeader r).Gives P :=
  fun c => inMode hr c

/-- What is read again and again, each time with the property. -/
theorem gatherAlong {continues : Token → Bool} {r : Rule α} (hr : r.Gives P)
    (fuel : List Token) : (gatherAlong continues r fuel).Gives fun as => ∀ a ∈ as, P a := by
  induction fuel with
  | nil => exact pure fun _ h => absurd h List.not_mem_nil
  | cons _ fuel ih =>
    unfold Rule.gatherAlong
    refine of_bind fun t => ite ?_ ?_
    · refine bind hr fun a ha => bind ih fun rest hrest => ?_
      exact pure (List.forall_mem_cons.mpr ⟨ha, hrest⟩)
    · exact pure fun _ h => absurd h List.not_mem_nil

theorem gather {continues : Token → Bool} {r : Rule α} (hr : r.Gives P) :
    (gather continues r).Gives fun as => ∀ a ∈ as, P a :=
  fun c => gatherAlong hr c.tokens c

end Gives

end Rule

/-! ## Statements that define nothing -/

/-- Whether a phrase is a definition, with or without decorators. -/
def isDefinition : Kind → Bool
  | .functionDefinition => true
  | .classDefinition => true
  | .decoratedDefinition => true
  | _ => false

/-- **A node that is no definition.** -/
def IsPlain (n : Node) : Prop := ∀ kind, n.label = .construct kind → isDefinition kind = false

/-- A phrase is plain if its kind is not that of a definition. -/
theorem isPlain_phrase {kind : Kind} (h : isDefinition kind = false) (parts : List Node) :
    IsPlain (phrase kind parts) := by
  intro k hk
  cases hk
  exact h

open Rule

variable {inner : Inner}

theorem gives_fromImport : fromImport.Gives IsPlain := by
  refine .bind (Q := fun read => isDefinition read.1 = false) ?_ ?_
  · exact .inHeader (.of_bind fun _ => .of_bind fun _ => .of_bind fun _ => .ite
      (.of_bind fun _ => .of_bind fun _ => .pure rfl)
      (.of_bind fun _ => .of_bind fun _ => .pure rfl))
  · intro read hread
    exact .of_bind fun _ => .pure (isPlain_phrase hread _)

theorem gives_keywordStatement {kind : Kind} (h : isDefinition kind = false) (keyword : String) :
    (keywordStatement inner kind keyword).Gives IsPlain :=
  .of_bind fun _ => .of_bind fun _ => .of_bind fun _ =>
    .ite (.of_bind fun _ => .pure (isPlain_phrase h _)) (.pure (isPlain_phrase h _))

theorem gives_raiseStatement : (raiseStatement inner).Gives IsPlain := by
  refine .bind (gives_keywordStatement rfl "raise") ?_
  intro (.mk label role span children) hplain
  exact .of_bind fun _ => .ite
    (.of_bind fun _ => .of_bind fun _ => .pure (isPlain_phrase rfl _)) (.pure hplain)

theorem gives_nameStatement {kind : Kind} (h : isDefinition kind = false) (keyword : String) :
    (nameStatement kind keyword).Gives IsPlain :=
  .of_bind fun _ => .of_bind fun _ => .pure (isPlain_phrase h _)

theorem gives_expressionStatement : (expressionStatement inner).Gives IsPlain :=
  .of_bind fun _ => .ite (.of_bind fun _ => .pure (isPlain_phrase rfl _)) <|
    .of_bind fun _ => .of_bind fun ⟨_, _⟩ => .of_bind fun _ => .ite
      (.of_bind fun _ => .pure (isPlain_phrase rfl _)) (.pure (isPlain_phrase rfl _))

/-- A rule that must end its line gives what it gives without that. -/
theorem gives_ending {r : Rule Node} (hr : r.Gives IsPlain) : (ending r).Gives IsPlain :=
  .bind hr fun _ h => .of_bind fun _ => .of_bind fun _ => .ite (.pure h) .stuck

theorem gives_printStatement : (printStatement inner).Gives IsPlain := by
  have hrest (keyword first : Node) : Rule.Gives (do
      let more ← displayRest (inner .expression)
      return phrase .printStatement (keyword :: first :: more)) IsPlain :=
    .of_bind fun _ => .pure (isPlain_phrase rfl _)
  exact .of_bind fun keyword => .of_bind fun _ => .of_bind fun _ => .ite
    (.of_bind fun _ => .of_bind fun _ => .of_bind fun first => hrest keyword first)
    (.of_bind fun first => hrest keyword first)

theorem gives_execStatement : (execStatement inner).Gives IsPlain := by
  have hrest (keyword code : Node) : Rule.Gives (do
      if ← atWord "in" then
        let keywordIn ← word "in"
        return phrase .execStatement
          (keyword :: code.withRole .code :: keywordIn :: (← listed (inner .expression)))
      else return phrase .execStatement [keyword, code.withRole .code]) IsPlain :=
    .of_bind fun _ => .ite
      (.of_bind fun _ => .of_bind fun _ => .pure (isPlain_phrase rfl _))
      (.pure (isPlain_phrase rfl _))
  exact .of_bind fun keyword => .of_bind fun _ => .of_bind fun _ => .ite
    (.of_bind fun code => hrest keyword code) (.of_bind fun code => hrest keyword code)

theorem gives_typeAliasStatement : (typeAliasStatement inner).Gives IsPlain :=
  .of_bind fun _ => .of_bind fun _ => .pure (isPlain_phrase rfl _)

/-- **A simple statement** defines nothing. -/
theorem gives_simpleStatement : (simpleStatement inner).Gives IsPlain := by
  have hparts {kind : Kind} (h : isDefinition kind = false) {α : Type} {r : Rule α}
      {f : α → List Node} : Rule.Gives (do return phrase kind (f (← r))) IsPlain :=
    .of_bind fun _ => .pure (isPlain_phrase h _)
  refine .of_bind fun t => .of_bind fun after => ?_
  split
  · refine .ite (.of_bind fun _ => hparts rfl) <| .ite gives_fromImport <|
      .ite (.of_bind fun _ => hparts rfl) <| .ite (gives_keywordStatement rfl _) <|
      .ite (.of_bind fun _ => hparts rfl) <| .ite gives_raiseStatement <|
      .ite (hparts rfl) <| .ite (hparts rfl) <| .ite (hparts rfl) <|
      .ite (gives_nameStatement rfl _) <| .ite (gives_nameStatement rfl _) <|
      .ite gives_expressionStatement <| .ite ?_ <| .ite gives_execStatement <| .ite ?_ ?_
    · exact .ite gives_printStatement
        (.orElse (gives_ending gives_expressionStatement) gives_printStatement)
    · exact .orElse (gives_ending gives_typeAliasStatement) gives_expressionStatement
    · exact gives_expressionStatement
  · exact gives_expressionStatement

end Grammar

/-! ## Definitions and their bodies -/

/-- **A regular statement**: the body of a function is a block, and the statements of the body of
a class and what decorators are put on are regular in turn. -/
inductive Node.IsRegular : Node → Prop
  | intro {n : Node}
    (function : n.isKind .functionDefinition →
      ∀ body ∈ n.children, body.role = some .body → body.isKind .block)
    (members : n.isKind .classDefinition →
      ∀ body ∈ n.children, body.role = some .body → ∀ s ∈ body.children, Node.IsRegular s)
    (decorated : n.isKind .decoratedDefinition →
      ∀ d ∈ n.children, d.role = some .definition → Node.IsRegular d) :
    Node.IsRegular n

/-- Statements that are all regular. -/
def AreRegular (ns : List Node) : Prop := ∀ n ∈ ns, n.IsRegular

/-- Lines of regular statements are regular statements. -/
theorem AreRegular.flatten {lines : List (List Node)} (h : ∀ line ∈ lines, AreRegular line) :
    AreRegular lines.flatten := by
  intro n hn
  obtain ⟨line, hline, hn⟩ := List.mem_flatten.mp hn
  exact h line hline n hn

/-- **The body of a compound statement**: a block of regular statements. -/
structure Node.IsSuite (n : Node) : Prop where
  isBlock : n.isKind .block
  regular : AreRegular n.children

/-- The part that a statement plays has nothing to do with it. -/
theorem Node.IsRegular.withRole {n : Node} (h : n.IsRegular) (role : Role) :
    (n.withRole role).IsRegular := by
  obtain ⟨function, members, decorated⟩ := h
  cases n
  exact ⟨function, members, decorated⟩

theorem Node.IsSuite.withRole {n : Node} (h : n.IsSuite) (role : Role) :
    (n.withRole role).IsSuite := by
  cases n
  exact ⟨h.isBlock, h.regular⟩

namespace Grammar

open Rule

variable {inner : Inner}

/-- What defines nothing is regular: nothing is asked of it. -/
theorem IsPlain.isRegular {n : Node} (h : IsPlain n) : n.IsRegular := by
  have hno {kind : Kind} (hkind : isDefinition kind = true) : ¬ n.isKind kind := by
    intro hn
    have hlabel : n.label = .construct kind := by simpa [Node.isKind] using hn
    rw [h kind hlabel] at hkind
    cases hkind
  exact ⟨fun hn => absurd hn (hno rfl), fun hn => absurd hn (hno rfl),
    fun hn => absurd hn (hno rfl)⟩

/-- A single token defines nothing. -/
theorem isPlain_leaf (t : Token) : IsPlain t.leaf := by
  intro kind hkind
  unfold Token.leaf at hkind
  cases t with
  | mk lexeme _ _ => cases lexeme <;> cases hkind <;> rfl

/-- Parts of a definition among which only a suite stands for its body. -/
def Bodied (parts : List Node) : Prop :=
  ∀ n ∈ parts, n.role = some .body → n.IsSuite

theorem bodied_nil : Bodied [] := fun _ h => absurd h List.not_mem_nil

theorem Bodied.append {a b : List Node} (ha : Bodied a) (hb : Bodied b) : Bodied (a ++ b) :=
  List.forall_mem_append.mpr ⟨ha, hb⟩

/-- A part that is not the body asks for nothing. -/
theorem Bodied.cons {n : Node} {parts : List Node} (hn : n.role ≠ some .body)
    (h : Bodied parts) : Bodied (n :: parts) :=
  List.forall_mem_cons.mpr ⟨fun hbody => absurd hbody hn, h⟩

theorem withRole_ne_body {n : Node} {role : Role} (h : role ≠ .body) :
    (n.withRole role).role ≠ some .body := by
  rw [Node.role_withRole]
  exact fun heq => h (Option.some.inj heq)

/-- A definition from parts among which only a suite stands for its body. -/
theorem isRegular_phrase {kind : Kind} (hkind : kind ≠ .decoratedDefinition) {parts : List Node}
    (h : Bodied parts) : (phrase kind parts).IsRegular := by
  refine ⟨fun _ body hbody hrole => (h body hbody hrole).isBlock,
    fun _ body hbody hrole => (h body hbody hrole).regular, fun hdecorated => ?_⟩
  have hlabel : (phrase kind parts).label = .construct .decoratedDefinition :=
    of_decide_eq_true hdecorated
  exact absurd (Label.construct.inj hlabel) hkind

theorem gives_word (text : String) : (word text).Gives fun n => n.role ≠ some .body :=
  .of_bind fun _ => .pure nofun

theorem gives_mark (text : String) : (mark text).Gives fun n => n.role ≠ some .body :=
  .of_bind fun _ => .pure nofun

section Compound

variable (hsuite : (inner .suite).Gives Node.IsSuite)

include hsuite in
/-- The body comes last, behind its colon. -/
theorem gives_body : (body inner).Gives Bodied := by
  refine .bind (gives_mark ":") fun colon hcolon => .bind hsuite fun suite hs => .pure ?_
  refine .cons hcolon fun n hn _ => ?_
  rw [List.mem_singleton.mp hn]
  exact hs.withRole .body

theorem gives_typeParameters : (typeParameters inner).Gives Bodied :=
  .of_bind fun _ => .ite
    (.of_bind fun _ => .pure (.cons (withRole_ne_body nofun) bodied_nil)) (.pure bodied_nil)

include hsuite in
/-- **A function is regular**, since only the suite has the part of its body. -/
theorem gives_functionDefinition {opening : List Node} (hopening : Bodied opening) :
    (functionDefinition inner opening).Gives Node.IsRegular := by
  refine .bind (gives_word "def") fun keyword hkeyword => .of_bind fun n => ?_
  refine .bind gives_typeParameters fun generics hgenerics => .of_bind fun params => ?_
  have hrest {result : List Node} (hresult : Bodied result) : Rule.Gives (do
      return phrase .functionDefinition (opening ++ keyword :: n.withRole .name :: generics
        ++ params.withRole .parameters :: result ++ (← body inner))) Node.IsRegular := by
    refine .bind (gives_body hsuite) fun parts hparts => .pure (isRegular_phrase (by decide) ?_)
    refine .append (.append (.append hopening ?_) ?_) hparts
    · exact .cons hkeyword (.cons (withRole_ne_body nofun) hgenerics)
    · exact .cons (withRole_ne_body nofun) hresult
  refine .of_bind fun arrow => .ite ?_ ?_
  · refine .bind (gives_mark "->") fun mark hmark => .of_bind fun result => ?_
    refine .bind (Q := Bodied) (.pure ?_) fun result hresult => hrest hresult
    exact .cons hmark (.cons (withRole_ne_body nofun) bodied_nil)
  · exact .bind (.pure bodied_nil) fun result hresult => hrest hresult

include hsuite in
/-- **So is a class**, whose members are the statements of a suite. -/
theorem gives_classDefinition : (classDefinition inner).Gives Node.IsRegular := by
  refine .bind (gives_word "class") fun keyword hkeyword => .of_bind fun n => ?_
  refine .bind gives_typeParameters fun generics hgenerics => .of_bind fun isBased => ?_
  have hrest {bases : List Node} (hbases : Bodied bases) : Rule.Gives (do
      return phrase .classDefinition (keyword :: n.withRole .name :: generics ++ bases
        ++ (← body inner))) Node.IsRegular := by
    refine .bind (gives_body hsuite) fun parts hparts => .pure (isRegular_phrase (by decide) ?_)
    refine .append (.append ?_ hbases) hparts
    exact .cons hkeyword (.cons (withRole_ne_body nofun) hgenerics)
  refine .ite ?_ ?_
  · refine .of_bind fun arguments => .bind (Q := Bodied) (.pure ?_) fun bases hbases =>
      hrest hbases
    exact .cons (withRole_ne_body nofun) bodied_nil
  · exact .bind (.pure bodied_nil) fun bases hbases => hrest hbases

theorem gives_ifStatement : (ifStatement inner).Gives IsPlain :=
  .of_bind fun _ => .of_bind fun _ => .of_bind fun _ => .pure (isPlain_phrase rfl _)

theorem gives_whileStatement : (whileStatement inner).Gives IsPlain :=
  .of_bind fun _ => .of_bind fun _ => .pure (isPlain_phrase rfl _)

theorem gives_forStatement (opening : List Node) : (forStatement inner opening).Gives IsPlain :=
  .of_bind fun _ => .of_bind fun _ => .of_bind fun _ => .of_bind fun _ => .of_bind fun _ =>
    .of_bind fun _ => .pure (isPlain_phrase rfl _)

theorem gives_tryStatement : (tryStatement inner).Gives IsPlain :=
  .of_bind fun _ => .of_bind fun _ => .of_bind fun _ => .of_bind fun _ => .of_bind fun _ =>
    .ite .stuck (.pure (isPlain_phrase rfl _))

theorem gives_withStatement (opening : List Node) :
    (withStatement inner opening).Gives IsPlain :=
  .of_bind fun _ => .of_bind fun _ => .of_bind fun _ => .pure (isPlain_phrase rfl _)

theorem gives_matchStatement (head : List Node) (ending : Span) :
    (matchStatement inner head ending).Gives IsPlain :=
  .of_bind fun _ => .of_bind fun _ => .ite
    (.of_bind fun _ => .of_bind fun _ => .of_bind fun _ => .pure (isPlain_phrase rfl _))
    (.pure (isPlain_phrase rfl _))

include hsuite in
/-- Behind `async` stands a function or a statement that defines nothing. -/
theorem gives_asyncStatement : (asyncStatement inner).Gives Node.IsRegular := by
  refine .bind (gives_word "async") fun keyword hkeyword => ?_
  refine .of_bind fun _ => .ite ?_ <| .of_bind fun _ => .ite ?_ ?_
  · exact gives_functionDefinition hsuite (.cons hkeyword bodied_nil)
  · exact (gives_forStatement [keyword]).imp fun _ => IsPlain.isRegular
  · exact (gives_withStatement [keyword]).imp fun _ => IsPlain.isRegular

/-- A decorator is not what it decorates. -/
theorem gives_decorator : (decorator inner).Gives fun n => n.role ≠ some .definition :=
  .of_bind fun _ => .of_bind fun _ => .of_bind fun _ => .ite
    (.of_bind fun _ => .of_bind fun _ => .pure nofun) .stuck

include hsuite in
/-- Below the decorators stands one definition, which is regular. -/
theorem gives_decoratedDefinition : (decoratedDefinition inner).Gives Node.IsRegular := by
  refine .bind (.gather gives_decorator) fun decorators hdecorators => ?_
  have hdecorated {definition : Node} (h : definition.IsRegular) :
      (phrase .decoratedDefinition
        (decorators ++ [definition.withRole .definition])).IsRegular := by
    refine ⟨nofun, nofun, fun _ => List.forall_mem_append.mpr ⟨?_, ?_⟩⟩
    · exact fun d hd hrole => absurd hrole (hdecorators d hd)
    · exact List.forall_mem_singleton.mpr fun _ => h.withRole .definition
  refine .of_bind fun _ => .of_bind fun _ => .ite ?_ <| .ite ?_ ?_
  · exact .bind (gives_classDefinition hsuite) fun _ h => .pure (hdecorated h)
  · exact .bind (gives_asyncStatement hsuite) fun _ h => .pure (hdecorated h)
  · exact .bind (gives_functionDefinition hsuite bodied_nil) fun _ h => .pure (hdecorated h)

include hsuite in
theorem gives_compound (keyword : String) :
    (compound inner keyword).Gives fun found => ∀ n, found = some n → n.IsRegular := by
  have hsome {r : Rule Node} (hr : r.Gives Node.IsRegular) :
      Rule.Gives (do return some (← r)) fun found => ∀ n, found = some n → n.IsRegular :=
    .bind hr fun n hn => .pure fun n' hn' => Option.some.inj hn' ▸ hn
  have hplain {r : Rule Node} (hr : r.Gives IsPlain) : r.Gives Node.IsRegular :=
    hr.imp fun _ => IsPlain.isRegular
  exact .ite (hsome (hplain gives_ifStatement)) <| .ite (hsome (hplain gives_whileStatement)) <|
    .ite (hsome (hplain (gives_forStatement []))) <| .ite (hsome (hplain gives_tryStatement)) <|
    .ite (hsome (hplain (gives_withStatement []))) <|
    .ite (hsome (gives_functionDefinition hsuite bodied_nil)) <|
    .ite (hsome (gives_classDefinition hsuite)) <| .pure nofun

/-- Statements on one line, with the semicolons between them. -/
theorem gives_simpleLine :
    (simpleLine inner).Gives fun line => AreRegular line.1 := by
  refine .bind gives_simpleStatement fun first hfirst => ?_
  refine .bind (.gather (P := AreRegular) ?_) fun rest hrest => ?_
  · have hmark : (mark ";").Gives IsPlain := .of_bind fun t => .pure (isPlain_leaf t)
    refine .bind hmark fun semicolon hsemicolon => .of_bind fun _ => .of_bind fun _ => .ite ?_ ?_
    · exact .pure (List.forall_mem_singleton.mpr hsemicolon.isRegular)
    · refine .bind gives_simpleStatement fun n hn => .pure (List.forall_mem_cons.mpr ⟨?_, ?_⟩)
      · exact hsemicolon.isRegular
      · exact List.forall_mem_singleton.mpr hn.isRegular
  · refine .of_bind fun _ => .pure (List.forall_mem_cons.mpr ⟨hfirst.isRegular, ?_⟩)
    exact AreRegular.flatten hrest

include hsuite in
/-- **A statement** is regular. -/
theorem gives_statement : (statement inner).Gives AreRegular := by
  have hone {r : Rule Node} (hr : r.Gives Node.IsRegular) :
      Rule.Gives (do return [← r]) AreRegular :=
    .bind hr fun _ hn => .pure (List.forall_mem_singleton.mpr hn)
  have hline : Rule.Gives (do return (← simpleLine inner).1) AreRegular :=
    .bind gives_simpleLine fun _ h => .pure h
  have hmatch (head : List Node) (ending : Span) :
      Rule.Gives (do return [← matchStatement inner head ending]) AreRegular :=
    hone ((gives_matchStatement head ending).imp fun _ => IsPlain.isRegular)
  refine .of_bind fun t => .of_bind fun after => ?_
  dsimp only
  split
  · refine .ite ?_ <| .ite ?_ ?_
    · intro c read hread
      dsimp only at hread
      split at hread
      · exact Gives.inMode (hmatch _ _) _ _ hread
      · exact hline c read hread
    · exact hone (.inMode (gives_asyncStatement hsuite))
    · refine .bind (.inMode (gives_compound hsuite _)) fun found hfound => ?_
      cases found with
      | none => exact hline
      | some n => exact .pure (List.forall_mem_singleton.mpr (hfound n rfl))
  · exact .ite (hone (.inMode (gives_decoratedDefinition hsuite))) hline
  · exact hline

include hsuite in
/-- A statement that cannot be read becomes an error, which is plain. -/
theorem gives_recovered : (recovered inner).Gives AreRegular := by
  intro c read hread
  unfold recovered at hread
  split at hread
  · rename_i result hresult
    cases hread
    exact gives_statement hsuite c read hresult
  · cases hread
    refine List.forall_mem_singleton.mpr (IsPlain.isRegular ?_)
    intro kind hkind
    cases hkind
    rfl

include hsuite in
theorem gives_statements : (statements inner).Gives AreRegular := by
  refine .of_bind fun _ => .bind (.gather (gives_recovered hsuite)) fun lines hlines => .pure ?_
  exact AreRegular.flatten hlines

include hsuite in
/-- **The body of a compound statement** is a block of regular statements. -/
theorem gives_suite : (suite inner).Gives Node.IsSuite := by
  refine .inMode (.of_bind fun _ => .of_bind fun t => .ite ?_ <| .ite ?_ ?_)
  · refine .of_bind fun _ => .bind (gives_statements hsuite) fun parts hparts => ?_
    exact .of_bind fun _ => .of_bind fun _ => .pure ⟨rfl, hparts⟩
  · exact .of_bind fun _ => .pure ⟨rfl, fun _ h => absurd h List.not_mem_nil⟩
  · exact .bind gives_simpleLine fun _ hparts => .pure ⟨rfl, hparts⟩

end Compound

/-- **Every suite is regular**, by induction on the fuel, which is where the grammar comes back to
itself. -/
theorem gives_run_suite (fuel : Nat) : (run fuel .suite).Gives Node.IsSuite := by
  induction fuel with
  | zero => exact .stuck
  | succ fuel ih => exact gives_suite ih

end Grammar

/-! ## Comments -/

namespace Node

/-- A comment is put below a node, which stays what it is. -/
theorem label_insertExtra (extra n : Node) : (insertExtra extra n).label = n.label := by
  cases n
  rfl

theorem role_insertExtra (extra n : Node) : (insertExtra extra n).role = n.role := by
  cases n
  rfl

theorem isKind_insertExtra (extra n : Node) (kind : Kind) :
    (insertExtra extra n).isKind kind = n.isKind kind := by
  unfold isKind
  rw [label_insertExtra]

/-- It is put among the children or below one of them. -/
theorem children_insertExtra (extra n : Node) :
    (insertExtra extra n).children = insertAmong extra n.children := by
  cases n
  rfl

/-- What stands among nodes when one more was put among them. -/
theorem mem_insertAmong {extra n : Node} {ns : List Node} (h : n ∈ insertAmong extra ns) :
    n = extra ∨ n ∈ ns ∨ ∃ m ∈ ns, n = insertExtra extra m := by
  induction ns with
  | nil => exact Or.inl (List.mem_singleton.mp h)
  | cons m ms ih =>
    unfold insertAmong at h
    split at h
    · rcases List.mem_cons.mp h with rfl | hn
      · exact Or.inr (Or.inr ⟨m, List.mem_cons_self, rfl⟩)
      · exact Or.inr (Or.inl (List.mem_cons_of_mem _ hn))
    · split at h
      · exact (List.mem_cons.mp h).imp id Or.inl
      · rcases List.mem_cons.mp h with rfl | hn
        · exact Or.inr (Or.inl List.mem_cons_self)
        · refine (ih hn).imp id (Or.imp (List.mem_cons_of_mem _) ?_)
          exact fun ⟨m', hm', heq⟩ => ⟨m', List.mem_cons_of_mem _ hm', heq⟩

section Insertion

variable {extra : Node} (hplain : Grammar.IsPlain extra) (hrole : extra.role = none)

include hrole in
/-- The nodes in some part when one that plays none was put among them. -/
theorem mem_insertAmong_of_role {n : Node} {ns : List Node} {role : Role}
    (h : n ∈ insertAmong extra ns) (hn : n.role = some role) :
    n ∈ ns ∨ ∃ m ∈ ns, m.role = some role ∧ n = insertExtra extra m := by
  obtain rfl | hmem | ⟨m, hm, rfl⟩ := mem_insertAmong h
  · rw [hrole] at hn
    cases hn
  · exact Or.inl hmem
  · rw [role_insertExtra] at hn
    exact Or.inr ⟨m, hm, hn, rfl⟩

include hplain hrole in
/-- **A comment leaves a statement regular**, wherever it is put. -/
theorem IsRegular.insertExtra {n : Node} (h : n.IsRegular) :
    (Node.insertExtra extra n).IsRegular := by
  induction h with
  | @intro n function members decorated inMembers inDecorated =>
    refine ⟨?_, ?_, ?_⟩ <;> rw [isKind_insertExtra, children_insertExtra]
    · intro hkind body hbody hbodyRole
      obtain hmem | ⟨m, hm, hmRole, rfl⟩ := mem_insertAmong_of_role hrole hbody hbodyRole
      · exact function hkind body hmem hbodyRole
      · rw [isKind_insertExtra]
        exact function hkind m hm hmRole
    · intro hkind body hbody hbodyRole s hs
      obtain hmem | ⟨m, hm, hmRole, rfl⟩ := mem_insertAmong_of_role hrole hbody hbodyRole
      · exact members hkind body hmem hbodyRole s hs
      · rw [children_insertExtra] at hs
        obtain rfl | hs | ⟨s, hs, rfl⟩ := mem_insertAmong hs
        · exact hplain.isRegular
        · exact members hkind m hm hmRole s hs
        · exact inMembers hkind m hm hmRole s ‹_›
    · intro hkind d hd hdRole
      obtain hmem | ⟨m, hm, hmRole, rfl⟩ := mem_insertAmong_of_role hrole hd hdRole
      · exact decorated hkind d hmem hdRole
      · exact inDecorated hkind m hm hmRole

end Insertion

end Node

/-- A comment or continuation defines nothing and plays no part. -/
theorem Trivium.plain_of_leaf? {trivium : Trivium} {extra : Node}
    (h : trivium.leaf? = some extra) : Grammar.IsPlain extra ∧ extra.role = none := by
  cases trivium <;> cases h <;>
    exact ⟨fun kind hkind => by cases hkind; rfl, rfl⟩

/-- **The statements of a file are regular.** -/
theorem Source.areRegular_tree (src : Source) : AreRegular src.tree.children := by
  unfold Source.tree treeOfTokens
  cases hread : Grammar.sourceFile (Grammar.run (2 * src.tokens.length + 8))
    (.start src.tokens) with
  | error span => exact List.forall_mem_singleton.mpr ⟨nofun, nofun, nofun⟩
  | ok read =>
    refine List.foldlRecOn (motive := fun root : Node => AreRegular root.children) _ _ ?_ ?_
    · exact Grammar.gives_statements (Grammar.gives_run_suite _) _ read hread
    · intro root hroot extra hextra s hs
      obtain ⟨trivium, -, hleaf⟩ := List.mem_filterMap.mp hextra
      obtain ⟨hplain, hrole⟩ := trivium.plain_of_leaf? hleaf
      rw [Node.children_insertExtra] at hs
      obtain rfl | hs | ⟨m, hm, rfl⟩ := Node.mem_insertAmong hs
      · exact hplain.isRegular
      · exact hroot s hs
      · exact (hroot m hm).insertExtra hplain hrole

/-! ## Bodies -/

theorem Node.mem_of_child? {n child : Node} {role : Role} (h : n.child? role = some child) :
    child ∈ n.children :=
  List.mem_of_find?_eq_some h

theorem Node.role_of_child? {n child : Node} {role : Role} (h : n.child? role = some child) :
    child.role = some role := by
  simpa using List.find?_some h

/-- The statements below a node, if all that is below it is regular. -/
theorem Node.isRegular_of_mem_statements {n : Node} (h : AreRegular n.children)
    {site : Site} (hsite : site ∈ n.statements) : site.node.IsRegular := by
  obtain ⟨s, hs, hsite⟩ := List.mem_filterMap.mp hsite
  have hregular := h s (List.mem_filter.mp hs).1
  unfold undecorated at hsite
  split at hsite
  · rename_i hkind
    obtain ⟨d, hd, rfl⟩ := Option.map_eq_some_iff.mp hsite
    obtain ⟨-, -, decorated⟩ := hregular
    exact decorated hkind d (mem_of_child? hd) (role_of_child? hd)
  · cases hsite
    exact hregular

namespace Node.IsRegular

variable {n : Node}

/-- The statements of a class. -/
theorem of_mem_bodyStatements (h : n.IsRegular) (hkind : n.isKind .classDefinition) {site : Site}
    (hsite : site ∈ n.bodyStatements) : site.node.IsRegular := by
  unfold Node.bodyStatements at hsite
  split at hsite
  · cases hsite
  · rename_i body hbody
    obtain ⟨-, members, -⟩ := h
    refine Node.isRegular_of_mem_statements ?_ hsite
    exact members hkind body (mem_of_child? hbody) (role_of_child? hbody)

/-- **The body of a function is a block.** -/
theorem isKind_block (h : n.IsRegular) (hkind : n.isKind .functionDefinition) {body : Node}
    (hbody : n.child? .body = some body) : body.isKind .block := by
  obtain ⟨function, -, -⟩ := h
  exact function hkind body (mem_of_child? hbody) (role_of_child? hbody)

end Node.IsRegular

end CallTree.Syntax
