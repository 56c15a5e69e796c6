import CallTree.Proofs.Spellings
import CallTree.Syntax.Tree

/-!
# The principal names of spelled types

`Source.typeName` finds the principal name of an annotation by its tree. The tree of a spelling
depends on where it stands. As an annotation of its own, a bare name with brackets behind it is a
generic type whose arguments are annotations again, and joined with more it is a union type, which
is read no further than its text. Everywhere else brackets form a subscript and bars form binary
operators, which nest to the left. A string is one node, whatever it holds. `Hint.isAt` tells of a
node whether it is such a tree.

The main statement is that the name found is the principal one exactly if the spelling is legible.
So all legible spellings of one type have one name; and the spelling with `None` on the left is
never legible.
-/

namespace CallTree.Syntax

open CallTree.Text (lastSegment)
open CallTree.Text.Utf8 (Defect)

/-! ## One look at an annotation -/

namespace Source

variable {src : Source} {n node : Node}

theorem typeName_of_names {name : Option String} (h : src.readType n = .ok (.names name)) :
    src.typeName n = .ok name := by
  rw [typeName, h]

theorem typeName_of_sameAs {part : Node} {hpart : part.size < n.size}
    (h : src.readType n = .ok (.sameAs part hpart)) : src.typeName n = src.typeName part := by
  rw [typeName, h]

section Looks

variable (hnode : n.opened .type = node)

include hnode

theorem typeName_of_name {text : String} (hlabel : node.label = .name text) :
    src.typeName n = .ok (some text) := by
  subst hnode
  exact typeName_of_names (by simp only [readType, hlabel])

theorem typeName_of_attribute {text : String} (hlabel : node.label = .construct .attributeAccess)
    (htext : src.text node = .ok text) : src.typeName n = .ok (some text) := by
  subst hnode
  exact typeName_of_names (by simp only [readType, hlabel, htext, Except.map])

theorem typeName_of_string {text : String} (hlabel : node.label = .construct .string)
    (htext : src.text node = .ok text) :
    src.typeName n = .ok (nameBeforeBracket (Text.trimBy Spelling.isQuote text)) := by
  subst hnode
  exact typeName_of_names (by simp only [readType, hlabel, htext, Except.map]; rfl)

/-- A union type and a `None` are read no further than their text. -/
theorem typeName_of_text {text : String} {kind : Kind} (hlabel : node.label = .construct kind)
    (hkind : kind = .unionType ∨ kind = .noneLiteral) (htext : src.text node = .ok text) :
    src.typeName n = .ok (nameBeforeBracket text) := by
  subst hnode
  refine typeName_of_names ?_
  rcases hkind with rfl | rfl <;> simp only [readType, hlabel, htext, Except.map]

theorem typeName_of_left {left : Node} (hlabel : node.label = .construct .binaryOperator)
    (hleft : node.child? .left = some left) : src.typeName n = src.typeName left := by
  subst hnode
  have hsize := Nat.lt_of_lt_of_le (Node.size_lt_of_child? hleft) (Node.size_opened_le .type n)
  suffices h : src.readType n = .ok (.sameAs left hsize) from typeName_of_sameAs h
  simp only [readType, hlabel]
  split
  · rename_i hnone
    cases hnone.symm.trans hleft
  · rename_i hsome
    cases hsome.symm.trans hleft
    rfl

/-- Brackets give what stands before them, or, behind `Optional`, what the first of their contents
gives. -/
theorem typeName_of_brackets {head first : Node} {rest : List Node} {kind : Kind} {text : String}
    (hlabel : node.label = .construct kind) (hkind : kind = .genericType ∨ kind = .subscript)
    (hchildren : node.namedChildren = head :: first :: rest) (htext : src.text head = .ok text) :
    src.typeName n
      = if lastSegment text = "Optional" then src.typeName (first.opened .typeParameter)
        else .ok (some text) := by
  subst hnode
  have hread : src.readType n
      = src.readBracketed n (n.opened .type) (Node.size_opened_le .type n) := by
    rcases hkind with rfl | rfl <;> simp only [readType, hlabel]
  unfold readBracketed at hread
  split at hread
  · rename_i hnil
    cases hnil.symm.trans hchildren
  · rename_i hone
    cases hone.symm.trans hchildren
  · rename_i hmore
    cases hmore.symm.trans hchildren
    simp only [htext, Except.map] at hread
    split
    · rename_i hoptional
      rw [if_pos hoptional] at hread
      exact typeName_of_sameAs hread
    · rename_i hoptional
      rw [if_neg hoptional] at hread
      exact typeName_of_names hread

end Looks

end Source

theorem Node.opened_of_label_ne {kind : Kind} {n : Node} (h : n.label ≠ .construct kind) :
    n.opened kind = n := by
  rw [Node.opened, if_neg (by simpa [Node.isKind] using h)]

theorem Node.opened_of_namedChildren {kind : Kind} {n child : Node} {rest : List Node}
    (hlabel : n.label = .construct kind) (hchildren : n.namedChildren = child :: rest) :
    n.opened kind = child := by
  rw [Node.opened, if_pos (by simp [Node.isKind, hlabel]), hchildren, List.headD_cons]

namespace Spelling

/-! ## The trees of spellings -/

/-- Whether the node has the given text. -/
def hasText (src : Source) (n : Node) (text : String) : Bool :=
  match src.text n with
  | .ok t => t = text
  | .error _ => false

/-- Whether the node is a `None`. -/
def isNone (src : Source) (n : Node) : Bool :=
  n.label = .construct .noneLiteral && hasText src n "None"

/-- Whether the node is so many bars, with the given thing at the far left. -/
def isUnionOf (leftmost : Node → Bool) : Nat → Node → Bool
  | 0, n => leftmost n
  | bars + 1, n =>
    n.label = .construct .binaryOperator && (n.child? .left).any (isUnionOf leftmost bars)

section Shapes

variable (src : Source) (s : Spacing)

mutual

/-- **Whether a node is the tree of a spelling**, where it stands. -/
def Hint.isAt : Hint → Setting → Node → Bool
  | .joined before operand after, setting, n =>
    let leftmost (m : Node) : Bool :=
      if before = 0 then operand.isAt .expression m else isNone src m
    match setting with
    | .expression => isUnionOf leftmost (before + after) n
    | .hint =>
      match n.namedChildren with
      | [inner] =>
        n.label = .construct .type &&
          if before = 0 && after = 0 then operand.isAt .hint inner
          else if before = 0 && operand.isGeneric then
            inner.label = .construct .unionType
              && hasText src inner ((Hint.joined before operand after).text s)
          else isUnionOf leftmost (before + after) inner
      | _ => false

def Operand.isAt : Operand → Setting → Node → Bool
  | .path name, _, n =>
    hasText src n name.text && n.label =
      if name.qualifiers.isEmpty then .name name.text else .construct .attributeAccess
  | .subscript head arguments, setting, n =>
    hasText src n ((Operand.subscript head arguments).text s) &&
      match n.namedChildren with
      | [] => false
      | first :: rest =>
        head.isAt .expression first &&
          if setting = .hint && head.isBare then
            match rest with
            | [parameter] =>
              n.label = .construct .genericType && parameter.label = .construct .typeParameter
                && arguments.areAt .hint parameter.namedChildren
            | _ => false
          else n.label = .construct .subscript && arguments.areAt .expression rest
  | .quoted quotes content, _, n =>
    hasText src n ((Operand.quoted quotes content).text s) && n.label = .construct .string

def Arguments.areAt : Arguments → Setting → List Node → Bool
  | .one hint, setting, [n] => hint.isAt setting n
  | .more hint rest, setting, n :: ns => hint.isAt setting n && rest.areAt setting ns
  | _, _, _ => false

end

end Shapes

variable {src : Source} {s : Spacing} {n node : Node} {setting : Setting} {kind : Kind}

theorem text_of_hasText {text : String} (h : hasText src n text = true) :
    src.text n = .ok text := by
  unfold hasText at h
  split at h
  · rename_i ht
    rw [ht, of_decide_eq_true h]
  · cases h

theorem Operand.text_of_isAt {o : Operand} (h : o.isAt src s setting n = true) :
    src.text n = .ok (o.text s) := by
  cases o <;>
    (simp only [Operand.isAt, Bool.and_eq_true] at h; exact text_of_hasText h.1)

theorem Operand.label_of_path {name : DottedName} (h : (path name).isAt src s setting n = true) :
    n.label = if name.qualifiers.isEmpty then .name name.text else .construct .attributeAccess := by
  simp only [Operand.isAt, Bool.and_eq_true, decide_eq_true_eq] at h
  exact h.2

theorem Operand.label_of_quoted {quotes : Delimiter} {content : Hint}
    (h : (quoted quotes content).isAt src s setting n = true) : n.label = .construct .string := by
  simp only [Operand.isAt, Bool.and_eq_true, decide_eq_true_eq] at h
  exact h.2

/-- **The two shapes of a head with arguments**: a generic type holds its arguments one level
further down than a subscript does. -/
theorem Operand.shape_of_subscript {head : Operand} {arguments : Arguments}
    (h : (subscript head arguments).isAt src s setting n = true) :
    ∃ first rest, n.namedChildren = first :: rest ∧ head.isAt src s .expression first = true
      ∧ ((n.label = .construct .genericType ∧ head.within setting = .hint ∧ ∃ parameter,
            rest = [parameter] ∧ parameter.label = .construct .typeParameter
              ∧ arguments.areAt src s .hint parameter.namedChildren = true)
        ∨ (n.label = .construct .subscript ∧ head.within setting = .expression
              ∧ arguments.areAt src s .expression rest = true)) := by
  rw [Operand.isAt, Bool.and_eq_true] at h
  obtain ⟨-, h⟩ := h
  split at h
  · cases h
  · rename_i first rest hchildren
    rw [Bool.and_eq_true] at h
    obtain ⟨hhead, h⟩ := h
    refine ⟨first, rest, hchildren, hhead, ?_⟩
    split at h
    · rename_i hbare
      rw [Bool.and_eq_true, decide_eq_true_eq] at hbare
      split at h
      · rename_i parameter
        simp only [Bool.and_eq_true, decide_eq_true_eq] at h
        exact Or.inl ⟨h.1.1, by rw [Operand.within, if_pos hbare.2, hbare.1],
          parameter, rfl, h.1.2, h.2⟩
      · cases h
    · rename_i hbare
      rw [Bool.and_eq_true, decide_eq_true_eq] at h
      refine Or.inr ⟨h.1, ?_, h.2⟩
      cases setting <;> simp_all [Operand.within]

/-- An operand is no wrapping of another node. -/
theorem Operand.opened_of_isAt {o : Operand} (h : o.isAt src s setting n = true)
    (hkind : kind = .type ∨ kind = .typeParameter) : n.opened kind = n := by
  apply Node.opened_of_label_ne
  cases o with
  | path name =>
    rw [Operand.label_of_path h]
    split <;> rcases hkind with rfl | rfl <;> simp
  | subscript head arguments =>
    obtain ⟨_, _, _, _, ⟨hlabel, _⟩ | ⟨hlabel, _⟩⟩ := Operand.shape_of_subscript h <;>
      rw [hlabel] <;> rcases hkind with rfl | rfl <;> simp
  | quoted quotes content =>
    rw [Operand.label_of_quoted h]
    rcases hkind with rfl | rfl <;> simp

section Unions

variable {leftmost : Node → Bool} {bars : Nat}

theorem opened_of_isUnionOf (hkind : kind ≠ .binaryOperator)
    (hleftmost : ∀ m, leftmost m = true → m.opened kind = m)
    (h : isUnionOf leftmost bars n = true) : n.opened kind = n := by
  cases bars with
  | zero => exact hleftmost n h
  | succ bars =>
    rw [isUnionOf, Bool.and_eq_true, decide_eq_true_eq] at h
    apply Node.opened_of_label_ne
    rw [h.1]
    simpa using Ne.symm hkind

/-- **A union has the name of what stands at its far left.** -/
theorem exists_leftmost (hleftmost : ∀ m, leftmost m = true → m.opened .type = m)
    (hnode : n.opened .type = node) (h : isUnionOf leftmost bars node = true) :
    ∃ m l, m.opened .type = l ∧ leftmost l = true ∧ src.typeName n = src.typeName m := by
  induction bars generalizing n node with
  | zero => exact ⟨n, node, hnode, h, rfl⟩
  | succ bars ih =>
    rw [isUnionOf, Bool.and_eq_true, decide_eq_true_eq, Option.any_eq_true] at h
    obtain ⟨hlabel, left, hleft, hunion⟩ := h
    obtain ⟨m, l, hl, hlead, hname⟩ :=
      ih (opened_of_isUnionOf (by decide) hleftmost hunion) hunion
    exact ⟨m, l, hl, hlead, (Source.typeName_of_left hnode hlabel hleft).trans hname⟩

/-- What a spelling's union is led by wraps nothing. -/
theorem opened_of_leftmost {before : Nat} {operand : Operand}
    (hkind : kind = .type ∨ kind = .typeParameter) (m : Node)
    (h : (if before = 0 then operand.isAt src s .expression m else isNone src m) = true) :
    m.opened kind = m := by
  split at h
  · exact operand.opened_of_isAt h hkind
  · rw [isNone, Bool.and_eq_true, decide_eq_true_eq] at h
    apply Node.opened_of_label_ne
    rw [h.1]
    rcases hkind with rfl | rfl <;> simp

end Unions

theorem Hint.opened_of_isAt {a : Hint} (h : a.isAt src s .expression n = true)
    (hkind : kind = .type ∨ kind = .typeParameter) : n.opened kind = n := by
  obtain ⟨before, operand, after⟩ := a
  rw [Hint.isAt] at h
  refine opened_of_isUnionOf ?_ (opened_of_leftmost hkind) h
  rcases hkind with rfl | rfl <;> decide

/-! ## Texts that are no names -/

theorem getLast_pieces_concat {sep c : Char} (hc : c ≠ sep) (cs : List Char) :
    ∃ ds, (Text.pieces sep (cs ++ [c])).getLast (Text.pieces_ne_nil sep _) = ds ++ [c] := by
  induction cs with
  | nil => exact ⟨[], by simp [Text.pieces, hc]⟩
  | cons d cs ih =>
    obtain ⟨ds, hds⟩ := ih
    obtain ⟨p, ps, hpieces⟩ := List.exists_cons_of_ne_nil (Text.pieces_ne_nil sep (cs ++ [c]))
    simp only [hpieces] at hds
    simp only [List.cons_append, Text.pieces, hpieces]
    split
    · exact ⟨ds, by simpa using hds⟩
    · cases ps with
      | nil => exact ⟨d :: ds, by simpa using hds⟩
      | cons q qs => exact ⟨ds, by simpa using hds⟩

/-- A text that ends in a bracket or a quote does not end in `Optional`. -/
theorem lastSegment_ne_optional {cs : List Char} {c : Char} (hc : c = ']' ∨ isQuote c = true) :
    lastSegment (String.ofList (cs ++ [c])) ≠ "Optional" := by
  have hcases : c = ']' ∨ c = '\'' ∨ c = '"' := by simpa [isQuote] using hc
  have hpoint : c ≠ '.' := by rcases hcases with rfl | rfl | rfl <;> decide
  obtain ⟨ds, hds⟩ := getLast_pieces_concat hpoint cs
  intro h
  have hlast := congrArg String.toList h
  simp only [lastSegment, Text.segments, String.toList_ofList, List.getLast_map, hds] at hlast
  have hend := congrArg List.getLast? hlast
  rw [List.getLast?_concat] at hend
  have hl : some c = some 'l' := hend.trans (by decide)
  cases hl
  rcases hcases with hc | hc | hc <;> cases hc

/-- The text of a head that is itself subscripted or quoted is no name, and does not end in
`Optional`. -/
theorem Operand.not_path {head : Operand} (h : ∀ name, head ≠ .path name) :
    lastSegment (head.text s) ≠ "Optional" ∧ ∀ d : DottedName, head.text s ≠ d.text := by
  have hforeign : ∀ {c : Char}, isNamePart c = false → c ∈ head.chars s →
      ∀ d : DottedName, head.text s ≠ d.text := by
    intro c hc hmem d heq
    have hchars : head.chars s = d.chars := by
      simpa [Operand.text, DottedName.text] using congrArg String.toList heq
    rw [hchars] at hmem
    exact d.not_mem_of_not_isNamePart hc hmem
  cases head with
  | path name => exact absurd rfl (h name)
  | subscript head arguments =>
    refine ⟨?_, hforeign (c := '[') (by decide +kernel) (by simp [Operand.chars])⟩
    rw [Operand.text, Operand.chars]
    exact lastSegment_ne_optional (Or.inl rfl)
  | quoted quotes content =>
    have hend : quotes.chars = quotes.chars.dropLast ++ [quotes.mark] := by
      rw [Delimiter.chars]
      split <;> rfl
    have hmark : quotes.mark ∈ quotes.chars := by
      rw [hend]
      exact List.mem_append_right _ List.mem_cons_self
    refine ⟨?_, hforeign (c := quotes.mark) ?_ ?_⟩
    · rw [Operand.text, Operand.chars, hend, ← List.append_assoc]
      exact lastSegment_ne_optional (Or.inr quotes.isQuote_mark)
    · refine not_isNamePart_of_isForeign ?_
      rw [isForeign, quotes.isQuote_mark, Bool.or_true]
    · rw [Operand.chars]
      exact List.mem_append_right _ hmark

/-! ## The name of a spelling -/

/-- Whether a node has a principal name, which is the given one if `found` says so. -/
def Named (src : Source) (n : Node) (d : DottedName) (found : Bool) : Prop :=
  ∃ name, src.typeName n = .ok (some name) ∧ (name = d.text ↔ found = true)

theorem Named.of_eq {m : Node} {d : DottedName} {found : Bool}
    (h : src.typeName n = src.typeName m) (hm : Named src m d found) : Named src n d found := by
  obtain ⟨name, hname, hiff⟩ := hm
  exact ⟨name, h.trans hname, hiff⟩

/-- A text that is cut at its first square bracket. -/
theorem named_of_shows {cs : List Char} {shown : Option DottedName}
    (htype : src.typeName n = .ok (nameBeforeBracket (String.ofList cs)))
    (h : Shows shown (cs.takeWhile (· ≠ '['))) (d : DottedName) :
    Named src n d (isShown d shown) := by
  obtain ⟨name, hname, hiff⟩ := exists_nameBeforeBracket h
  exact ⟨name, htype.trans (by rw [hname]), hiff d⟩

/-- A `None` is no dotted name. -/
theorem named_none (hnode : n.opened .type = node) (h : isNone src node = true)
    (d : DottedName) : Named src n d false := by
  rw [isNone, Bool.and_eq_true, decide_eq_true_eq] at h
  refine ⟨"None", ?_, iff_of_false (Ne.symm d.text_ne_none) (by simp)⟩
  rw [Source.typeName_of_text hnode h.1 (Or.inr rfl) (text_of_hasText h.2)]
  exact congrArg Except.ok (by decide +kernel)

/-- A string shows what a cut leaves of its content. -/
theorem named_quoted {quotes : Delimiter} {content : Hint} (hnode : n.opened .type = node)
    (h : (Operand.quoted quotes content).isAt src s setting node = true) (d : DottedName) :
    Named src n d (isShown d (content.shown? .nothing)) := by
  have htype := Source.typeName_of_string hnode (Operand.label_of_quoted h)
    (Operand.text_of_isAt h)
  rw [Operand.text, trimBy_ofList] at htype
  have hfits : Follow.nothing.Fits [] := fun c hc => absurd hc List.not_mem_nil
  have hshows : Shows _ (cut ((Operand.quoted quotes content).chars s ++ [])) :=
    Operand.shows_cut _ hfits
  rw [List.append_nil, Operand.shown?, if_pos rfl] at hshows
  exact named_of_shows htype hshows d

theorem Operand.exists_of_isGeneric {o : Operand} (h : o.isGeneric = true) :
    ∃ name arguments, o = .subscript (.path name) arguments := by
  cases o with
  | subscript head arguments =>
    cases head with
    | path name => exact ⟨name, arguments, rfl⟩
    | subscript | quoted => exact absurd h Bool.false_ne_true
  | path | quoted => exact absurd h Bool.false_ne_true

/-- The text of a union type begins with a bare name and a bracket, and shows that name. -/
theorem named_unionType {operand : Operand} {after : Nat} (hnode : n.opened .type = node)
    (hgeneric : operand.isGeneric = true) (hlabel : node.label = .construct .unionType)
    (htext : src.text node = .ok ((Hint.joined 0 operand after).text s)) (d : DottedName) :
    Named src n d (isShown d (operand.shown? .nothing)) := by
  refine named_of_shows (Source.typeName_of_text hnode hlabel (Or.inl rfl) htext) ?_ d
  obtain ⟨name, arguments, rfl⟩ := Operand.exists_of_isGeneric hgeneric
  have hbracket : ∀ c ∈ name.chars, (decide (c ≠ '[')) = true := fun c hc =>
    decide_eq_true (name.ne_bracket_of_mem hc)
  simp only [Hint.chars, Operand.chars, nonesBefore, List.replicate_zero, List.flatten_nil,
    List.nil_append, List.append_assoc, List.cons_append]
  rw [List.takeWhile_append_of_pos hbracket,
    List.takeWhile_append_of_pos fun c hc => decide_eq_true (isQuote_of_mem_blanks hc).2,
    List.takeWhile_cons_of_neg (by decide), List.append_nil]
  exact ⟨s.beforeBracket, rfl⟩

mutual

/-- **The name found is the principal one exactly if the spelling is legible.** -/
theorem Hint.named : ∀ (a : Hint) {setting : Setting} {n : Node}, a.isAt src s setting n = true →
    Named src n a.principal (a.isLegible setting)
  | .joined before operand after, setting, n, h => by
    -- What holds of a union with the operand or a `None` at its far left, wrapped or not.
    have hunion : ∀ {node : Node}, n.opened .type = node →
        isUnionOf (fun m => if before = 0 then operand.isAt src s .expression m else isNone src m)
          (before + after) node = true →
        Named src n operand.principal (before = 0 && operand.isLegible .expression) := by
      intro node hnode h
      obtain ⟨m, l, hl, hleft, hname⟩ :=
        exists_leftmost (opened_of_leftmost (Or.inl rfl)) hnode h
      refine Named.of_eq hname ?_
      split at hleft
      · rename_i hbefore
        simpa [hbefore] using operand.named hl hleft
      · rename_i hbefore
        simpa [hbefore] using named_none hl hleft operand.principal
    rw [Hint.principal, Hint.isLegible]
    cases setting with
    | expression =>
      have hnode := Hint.opened_of_isAt h (Or.inl rfl)
      rw [Hint.isAt] at h
      simpa using hunion hnode h
    | hint =>
      rw [Hint.isAt] at h
      split at h
      · rename_i inner hchildren
        rw [Bool.and_eq_true, decide_eq_true_eq] at h
        have hnode := Node.opened_of_namedChildren h.1 hchildren
        have h := h.2
        by_cases hbefore : before = 0
        · subst hbefore
          by_cases hafter : after = 0
          · rw [if_pos (by simp [hafter])] at h
            simpa [hafter] using operand.named hnode h
          · rw [if_neg (by simp [hafter])] at h
            by_cases hgeneric : operand.isGeneric = true
            · rw [if_pos (by simp [hgeneric]), Bool.and_eq_true, decide_eq_true_eq] at h
              simpa [hafter, hgeneric] using
                named_unionType hnode hgeneric h.1 (text_of_hasText h.2) operand.principal
            · rw [if_neg (by simp [hgeneric])] at h
              simpa [hafter, hgeneric] using hunion hnode h
        · rw [if_neg (by simp [hbefore]), if_neg (by simp [hbefore])] at h
          simpa [hbefore] using hunion hnode h
      · cases h

theorem Operand.named : ∀ (o : Operand) {setting : Setting} {n node : Node},
    n.opened .type = node → o.isAt src s setting node = true →
    Named src n o.principal (o.isLegible setting)
  | .path name, setting, n, node, hnode, h => by
    refine ⟨name.text, ?_, by simp [Operand.principal, Operand.isLegible]⟩
    have hlabel := Operand.label_of_path h
    split at hlabel
    · exact Source.typeName_of_name hnode hlabel
    · exact Source.typeName_of_attribute hnode hlabel (Operand.text_of_isAt h)
  | .quoted quotes content, setting, n, node, hnode, h => by
    rw [Operand.principal, Operand.isLegible]
    exact named_quoted hnode h content.principal
  | .subscript head arguments, setting, n, node, hnode, h => by
    -- Either shape has the head first, and the first argument is what `Optional` stands for.
    obtain ⟨kind, first, second, rest, hlabel, hkind, hchildren, hhead, hsecond⟩ :
        ∃ (kind : Kind) (first second : Node) (rest : List Node),
          node.label = .construct kind ∧ (kind = .genericType ∨ kind = .subscript)
            ∧ node.namedChildren = first :: second :: rest
            ∧ head.isAt src s .expression first = true
            ∧ Named src (second.opened .typeParameter) arguments.principal
                (arguments.isLegible (head.within setting)) := by
      obtain ⟨first, rest, hchildren, hhead, ⟨hlabel, hwithin, parameter, rfl, hparameter, hat⟩
        | ⟨hlabel, hwithin, hat⟩⟩ := Operand.shape_of_subscript h
      · obtain ⟨m, ms, hms, -, hnamed⟩ := arguments.named hat
        refine ⟨_, first, parameter, [], hlabel, Or.inl rfl, hchildren, hhead, ?_⟩
        rwa [Node.opened_of_namedChildren hparameter hms, hwithin]
      · obtain ⟨m, ms, rfl, hopened, hnamed⟩ := arguments.named hat
        refine ⟨_, first, m, ms, hlabel, Or.inr rfl, hchildren, hhead, ?_⟩
        rwa [hopened rfl, hwithin]
    have htype := Source.typeName_of_brackets hnode hlabel hkind hchildren
      (Operand.text_of_isAt hhead)
    by_cases hpath : ∃ name, head = .path name
    · obtain ⟨name, rfl⟩ := hpath
      have htext : (Operand.path name).text s = name.text := by
        rw [Operand.text, Operand.chars, DottedName.text]
      have hsegment : lastSegment ((Operand.path name).text s) = "Optional"
          ↔ (Operand.path name).isOptional = true := by
        rw [htext, name.lastSegment_text, Operand.isOptional, decide_eq_true_eq]
        exact name.last.text_eq_optional_iff
      rw [Operand.principal, Operand.isLegible]
      by_cases hoptional : (Operand.path name).isOptional = true
      · rw [if_pos (hsegment.mpr hoptional)] at htype
        rw [if_pos hoptional, if_pos hoptional]
        exact Named.of_eq htype hsecond
      · rw [if_neg (mt hsegment.mp hoptional)] at htype
        rw [if_neg hoptional, if_neg hoptional]
        exact ⟨_, htype, by simp [Operand.principal, htext]⟩
    · have hnot : ∀ name, head ≠ .path name := fun name h => hpath ⟨name, h⟩
      obtain ⟨hsegment, htext⟩ := Operand.not_path hnot
      rw [if_neg hsegment] at htype
      refine ⟨_, htype, iff_of_false (htext _) ?_⟩
      rw [Operand.isLegible]
      · simp
      · exact hnot

theorem Arguments.named : ∀ (as : Arguments) {setting : Setting} {ns : List Node},
    as.areAt src s setting ns = true → ∃ m ms, ns = m :: ms
      ∧ (setting = .expression → m.opened .typeParameter = m)
      ∧ Named src m as.principal (as.isLegible setting)
  | .one hint, setting, [m], h => by
    rw [Arguments.areAt] at h
    rw [Arguments.principal, Arguments.isLegible]
    refine ⟨m, [], rfl, ?_, hint.named h⟩
    rintro rfl
    exact Hint.opened_of_isAt h (Or.inr rfl)
  | .more hint more, setting, m :: ms, h => by
    rw [Arguments.areAt, Bool.and_eq_true] at h
    rw [Arguments.principal, Arguments.isLegible]
    refine ⟨m, ms, rfl, ?_, hint.named h.1⟩
    rintro rfl
    exact Hint.opened_of_isAt h.1 (Or.inr rfl)

end

/-! ## Which spellings are legible -/

/-- Whether the spelling begins with a generic type, where it stands as an annotation of its own. -/
def Hint.isGeneric : Hint → Bool
  | .joined before operand _ => before = 0 && operand.isGeneric

/-- What a cut leaves of the operand, if no `None` stands on its left. -/
def Hint.leading? : Hint → Option DottedName
  | .joined before operand _ => if before = 0 then operand.shown? .nothing else none

/-- A `None` on the left hides the name. -/
theorem Hint.isLegible_noneOr (a : Hint) (setting : Setting) :
    a.noneOr.isLegible setting = false := by
  obtain ⟨before, operand, after⟩ := a
  simp [Hint.noneOr, Hint.isLegible]

/-- In quotes the name is found if it is what a cut leaves. -/
theorem Hint.isLegible_quoted (a : Hint) (quotes : Delimiter) (setting : Setting) :
    (a.quoted quotes).isLegible setting = isShown a.principal (a.shown? .nothing) := by
  simp [Hint.quoted, Hint.isLegible, Operand.isLegible]

/-- `Optional` alone leaves its argument where it stands; with a qualifier it does not. -/
theorem Hint.isLegible_optional (a : Hint) (modules : List Word) (setting : Setting) :
    (a.optional modules).isLegible setting
      = a.isLegible (if modules.isEmpty then setting else .expression) := by
  have hsoft : Grammar.softWords.contains Word.optional.text = false := by decide +kernel
  have hbare : (Operand.path ⟨modules, Word.optional⟩).isBare = modules.isEmpty := by
    simp only [Operand.isBare, hsoft, Bool.not_false, Bool.and_true]
  simp [Hint.optional, Hint.isLegible, Operand.isLegible, Operand.isOptional, Operand.within,
    Arguments.isLegible, hbare]

/-- A `None` on the right makes an expression of what is no generic type, and of a generic type it
leaves the head. -/
theorem Hint.isLegible_orNone (a : Hint) (setting : Setting) :
    a.orNone.isLegible setting
      = if setting = .hint && a.isGeneric then isShown a.principal a.leading?
        else a.isLegible .expression := by
  obtain ⟨before, operand, after⟩ := a
  cases before with
  | zero =>
    cases setting <;>
      simp [Hint.orNone, Hint.isLegible, Hint.isGeneric, Hint.leading?, Hint.principal]
  | succ before => simp [Hint.orNone, Hint.isLegible, Hint.isGeneric]

/-- **All legible spellings of one type have one name**, and which are legible is decided by how
they are made. -/
theorem spellings_agree_iff_legible (a : Hint) (modules : List Word) (quotes : Delimiter) :
    (∀ v ∈ a.spellings modules quotes,
        ∀ (src : Source) (s : Spacing) (setting : Setting) (n : Node),
          v.isAt src s setting n = true → ∃ name, src.typeName n = .ok (some name)
            ∧ (name = a.principal.text ↔ v.isLegible setting = true))
      ∧ ∀ setting, a.noneOr.isLegible setting = false
        ∧ ((a.optional modules).isLegible setting
            = a.isLegible (if modules.isEmpty then setting else .expression))
        ∧ (a.orNone.isLegible setting
            = if setting = .hint && a.isGeneric then isShown a.principal a.leading?
              else a.isLegible .expression)
        ∧ ∀ v : Hint, (v.quoted quotes).isLegible setting
            = isShown v.principal (v.shown? .nothing) := by
  refine ⟨fun v hv src s setting n h => ?_, fun setting => ⟨a.isLegible_noneOr setting,
    a.isLegible_optional modules setting, a.isLegible_orNone setting,
    fun v => v.isLegible_quoted quotes setting⟩⟩
  rw [← Hint.principal_of_mem_spellings hv]
  exact v.named h

/-- A file in which one variable is annotated so. -/
def Hint.source (s : Spacing) (a : Hint) : Source := Source.ofText ("x: " ++ a.text s ++ "\n")

/-- The annotation of the first variable that has one. -/
def annotation? (src : Source) : Option Node :=
  (src.tree.descendantsOf .assignment).head?.bind (·.node.child? .type)

/-- The spelling `Box[Foo]`. -/
def boxOfFoo : Hint :=
  let word (text : String) (h : isName text.toList = true) : Operand := .path ⟨[], ⟨text.toList, h⟩⟩
  .joined 0 (.subscript (word "Box" (by decide +kernel))
    (.one (.joined 0 (word "Foo" (by decide +kernel)) 0))) 0

theorem spellings_agree_iff_legible_box :
    let s : Spacing := ⟨1, 0, 1, 0, 0, 1⟩
    ((boxOfFoo.spellings [] ⟨true, false⟩).map fun v => (v.text s, v.isLegible .hint))
        = [("Box [Foo]", true), ("Optional [Box [Foo]]", true), ("Box [Foo] |None", true),
           ("None |Box [Foo]", false), ("\"Box [Foo]\"", true), ("\"Optional [Box [Foo]]\"", false),
           ("\"Box [Foo] |None\"", true), ("\"None |Box [Foo]\"", false)]
      ∧ ∀ v ∈ boxOfFoo.spellings [] ⟨true, false⟩, ∃ n, annotation? (v.source s) = some n
          ∧ ∃ name, (v.source s).typeName n = .ok (some name)
            ∧ (name = "Box" ↔ v.isLegible .hint = true) := by
  intro s
  refine ⟨by decide +kernel, fun v hv => ?_⟩
  have htrees : ∀ v ∈ boxOfFoo.spellings [] ⟨true, false⟩,
      (annotation? (v.source s)).any (v.isAt (v.source s) s .hint) = true := by decide +kernel
  obtain ⟨n, hn, hat⟩ := (Option.any_eq_true _ _).mp (htrees v hv)
  have hname := (spellings_agree_iff_legible boxOfFoo [] ⟨true, false⟩).1 v hv _ s .hint n hat
  rw [show boxOfFoo.principal.text = "Box" by decide +kernel] at hname
  exact ⟨n, hn, hname⟩

/-- The name found in a file in which one variable is annotated. -/
def annotationName (text : String) : Except Defect (Option String) :=
  let src := Source.ofText ("x: " ++ text ++ "\n")
  match annotation? src with
  | some n => src.typeName n
  | none => .ok none

theorem none_on_the_left_hides_name :
    annotationName "None | Foo" = .ok (some "None") ∧ annotationName "Foo" = .ok (some "Foo")
      ∧ annotationName "Foo | None" = .ok (some "Foo")
      ∧ annotationName "Optional[Foo]" = .ok (some "Foo")
      ∧ annotationName "\"Foo | None\"" = .ok (some "Foo | None") := by
  decide +kernel

end Spelling

end CallTree.Syntax
