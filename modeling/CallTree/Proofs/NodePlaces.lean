import CallTree.Proofs.TokenPlaces
import CallTree.Syntax.Grammar.Target

/-!
# Nodes that lie between characters

A node is made from tokens, and covers the file from the first of its parts to the last. If the
tokens lie between cuts, so does the node, with everything below it (`Node.On`). What is known of a
node is also known of what is made from it later, when an expression turns out to be a target or
when a star is moved to another part of the expression behind it: these readings put the same nodes
together in another way. The inductions follow the node.

Along with the places goes what is known of the parts: a call calls one thing (`Label.Admits`). It
is made from what is called and the arguments, and what replaces a part later takes over the role of
that part.
-/

namespace CallTree.Syntax

open CallTree.Text.Utf8

variable {bytes : List UInt8}

/-- The roles in which a phrase of the given label has children: at most one child of a call is what
is called. -/
def Label.Admits (label : Label) (roles : List (Option Role)) : Prop :=
  label = .construct .call → roles.count (some .function) ≤ 1

@[simp]
theorem Label.admits_nil {label : Label} : label.Admits [] := fun _ => Nat.zero_le 1

@[simp]
theorem Label.admits_name {text : String} {roles : List (Option Role)} :
    (Label.name text).Admits roles :=
  fun h => by cases h

@[simp]
theorem Label.admits_mark {text : String} {roles : List (Option Role)} :
    (Label.mark text).Admits roles :=
  fun h => by cases h

/-- Only for calls is anything asked. -/
@[simp]
theorem Label.admits_construct {kind : Kind} {roles : List (Option Role)} (h : kind ≠ .call) :
    (Label.construct kind).Admits roles :=
  fun heq => absurd (Label.construct.inj heq) h

/-- **A node that lies between cuts**, with all that is below it. -/
inductive Node.On (bytes : List UInt8) : Node → Prop
  | mk {label : Label} {role : Option Role} {span : Span} {children : List Node}
    (hspan : span.On bytes) (hchildren : ∀ n ∈ children, Node.On bytes n)
    (hroles : label.Admits (children.map Node.role)) :
    Node.On bytes (.mk label role span children)

/-- Nodes that all lie between cuts. -/
def AreOn (bytes : List UInt8) (ns : List Node) : Prop := ∀ n ∈ ns, n.On bytes

@[simp]
theorem areOn_nil : AreOn bytes [] := fun _ h => absurd h List.not_mem_nil

@[simp]
theorem areOn_cons {n : Node} {ns : List Node} :
    AreOn bytes (n :: ns) ↔ n.On bytes ∧ AreOn bytes ns :=
  List.forall_mem_cons

@[simp]
theorem areOn_append {ms ns : List Node} :
    AreOn bytes (ms ++ ns) ↔ AreOn bytes ms ∧ AreOn bytes ns :=
  List.forall_mem_append

theorem areOn_flatten {lists : List (List Node)} (h : ∀ ns ∈ lists, AreOn bytes ns) :
    AreOn bytes lists.flatten := by
  intro n hn
  obtain ⟨ns, hns, hn⟩ := List.mem_flatten.mp hn
  exact h ns hns n hn

theorem AreOn.map {ns : List Node} (h : AreOn bytes ns) {f : Node → Node}
    (hf : ∀ n, n.On bytes → (f n).On bytes) : AreOn bytes (ns.map f) :=
  List.forall_mem_map.mpr fun n hn => hf n (h n hn)

theorem AreOn.drop {ns : List Node} (h : AreOn bytes ns) (k : Nat) : AreOn bytes (ns.drop k) :=
  fun n hn => h n (List.mem_of_mem_drop hn)

namespace Node

/-- A node lies between cuts if it covers a span between cuts and its children do. -/
@[simp]
theorem on_mk {label : Label} {role : Option Role} {span : Span} {children : List Node} :
    (Node.mk label role span children).On bytes
      ↔ span.On bytes ∧ AreOn bytes children ∧ label.Admits (children.map Node.role) :=
  ⟨fun ⟨hspan, hchildren, hroles⟩ => ⟨hspan, hchildren, hroles⟩,
    fun ⟨hspan, hchildren, hroles⟩ => ⟨hspan, hchildren, hroles⟩⟩

/-- A node without children. -/
theorem on_leaf {label : Label} {role : Option Role} {span : Span} (h : span.On bytes) :
    (Node.mk label role span []).On bytes :=
  ⟨h, areOn_nil, Label.admits_nil⟩

/-- The part that a node plays has nothing to do with its place. -/
theorem On.inRole {label : Label} {role role' : Option Role} {span : Span}
    {children : List Node} (h : (Node.mk label role span children).On bytes) :
    (Node.mk label role' span children).On bytes :=
  on_mk.mpr (on_mk.mp h)

/-- Neither has what it is called. -/
theorem On.relabel {label : Label} {role role' : Option Role} {span : Span} {children : List Node}
    (h : (Node.mk label role span children).On bytes) {kind : Kind} (hkind : kind ≠ .call) :
    (Node.mk (.construct kind) role' span children).On bytes :=
  on_mk.mpr ⟨(on_mk.mp h).1, (on_mk.mp h).2.1, Label.admits_construct hkind⟩

theorem On.span {n : Node} (h : n.On bytes) : n.span.On bytes := by
  obtain ⟨hspan, _, _⟩ := h
  exact hspan

theorem On.children {n : Node} (h : n.On bytes) : AreOn bytes n.children := by
  obtain ⟨_, hchildren, _⟩ := h
  exact hchildren

theorem On.roles {n : Node} (h : n.On bytes) : n.label.Admits (n.children.map Node.role) := by
  obtain ⟨_, _, hroles⟩ := h
  exact hroles

@[simp]
theorem on_withRole {n : Node} {role : Role} : (n.withRole role).On bytes ↔ n.On bytes := by
  cases n
  simp [withRole]

end Node

/-- **A token becomes a node**, with its escapes below it if it is part of a string. -/
theorem Token.On.leaf {t : Token} (h : t.On bytes) : t.leaf.On bytes := by
  refine ⟨h.span, ?_, fun hcall => ?_⟩
  · have hinside := h.inside
    split
    · rename_i escapes hlexeme
      rw [hlexeme] at hinside
      exact List.forall_mem_map.mpr fun escape hescape => Node.on_leaf (hinside escape hescape)
    · exact areOn_nil
  · split at hcall <;> cases hcall

/-- A word that is read as a name is a node without children. -/
theorem Token.On.nameLeaf {t : Token} (h : t.On bytes) : t.nameLeaf.On bytes := by
  unfold Token.nameLeaf
  split
  · exact Node.on_leaf h.span
  · exact h.leaf

/-- A comment or a continuation becomes a node. -/
theorem Trivium.On.leaf? {trivium : Trivium} (h : trivium.On bytes) {n : Node}
    (hn : trivium.leaf? = some n) : n.On bytes := by
  cases trivium with
  | lineEnd => cases hn
  | hairline depth => cases hn
  | comment depth span =>
    cases hn
    exact Node.on_leaf h
  | continuation span stop =>
    cases hn
    exact Node.on_leaf h.1

namespace Grammar

/-! ## Phrases -/

/-- A phrase begins where its first part does; without parts, at the beginning of the file. -/
theorem isCut_start {parts : List Node} (h : AreOn bytes parts) :
    IsCut bytes ((parts.head?.map Node.span).getD default).start := by
  cases parts with
  | nil => exact isCut_zero bytes
  | cons n ns => exact (h n List.mem_cons_self).span.start

/-- It ends where its last part does. -/
theorem isCut_stop {parts : List Node} (h : AreOn bytes parts) :
    IsCut bytes ((parts.getLast?.map Node.span).getD default).stop := by
  cases hlast : parts.getLast? with
  | none => exact isCut_zero bytes
  | some n => exact (h n (List.mem_of_getLast? hlast)).span.stop

/-- **A phrase lies between cuts if its parts do.** -/
@[simp]
theorem on_phrase {kind : Kind} {parts : List Node} : (phrase kind parts).On bytes
    ↔ AreOn bytes parts ∧ (Label.construct kind).Admits (parts.map Node.role) :=
  ⟨fun h => ⟨h.children, h.roles⟩, fun h => ⟨⟨isCut_start h.1, isCut_stop h.1⟩, h.1, h.2⟩⟩

/-- A phrase that goes on behind its parts, as a decorator does up to the end of its line. -/
theorem on_phraseUpTo {kind : Kind} {parts : List Node} {stop : Nat} (h : AreOn bytes parts)
    (hstop : IsCut bytes stop) (hkind : kind ≠ .call) : (phraseUpTo kind parts stop).On bytes :=
  ⟨⟨isCut_start h, hstop⟩, h, Label.admits_construct hkind⟩

/-! ## Stars -/

/-- Another first child may begin elsewhere, and the node begins there with it. -/
theorem on_withFirst {first n : Node} (hfirst : first.On bytes) (hn : n.On bytes) :
    (withFirst first n).On bytes := by
  obtain ⟨hspan, hchildren, hroles⟩ := hn
  obtain ⟨hspan', hchildren', hroles'⟩ := hfirst
  refine Node.on_mk.mpr ⟨⟨hspan'.start, hspan.stop⟩,
    areOn_cons.mpr ⟨⟨hspan', hchildren', hroles'⟩, AreOn.drop hchildren 1⟩, ?_⟩
  -- the new first child plays the part of the old one
  rename_i label _ _ children _ _ _ _
  cases children with
  | nil => exact fun _ => Nat.zero_le 1
  | cons n ns => exact hroles

theorem on_withoutRole {n : Node} (h : n.On bytes) : (withoutRole n).On bytes := by
  obtain ⟨hspan, hchildren, hroles⟩ := h
  exact ⟨hspan, hchildren, hroles⟩

section Star

variable {star : Node} (hstar : star.On bytes)

include hstar

theorem on_splat {e : Node} (he : e.On bytes) : (splat star e).On bytes := by
  simp [splat, hstar, on_withoutRole he]

/-- The star goes to a part at the front, and what is around that part begins with the star. -/
theorem on_starShortest {n : Node} (h : n.On bytes) :
    ∀ m ∈ starShortest star n, m.On bytes := by
  induction h with
  | @mk label role span children hspan hchildren hroles ih =>
    have hn : (Node.mk label role span children).On bytes := ⟨hspan, hchildren, hroles⟩
    have hfirst : ∀ m ∈ starShortestFirst star children, m.On bytes := by
      cases children with
      | nil => nofun
      | cons n ns => exact ih n List.mem_cons_self
    intro m hm
    unfold starShortest at hm
    dsimp only at hm
    split at hm
    · rename_i first hfurther
      cases hm
      split at hfurther
      · exact on_withFirst (hfirst first hfurther) hn
      · cases hfurther
    · split at hm
      · cases hm
        exact on_splat hstar hn
      · cases hm

theorem on_starLongest {n : Node} (h : n.On bytes) :
    ∀ m ∈ starLongest star n, m.On bytes := by
  induction h with
  | @mk label role span children hspan hchildren hroles ih =>
    have hn : (Node.mk label role span children).On bytes := ⟨hspan, hchildren, hroles⟩
    have hfirst : ∀ m ∈ starLongestFirst star children, m.On bytes := by
      cases children with
      | nil => nofun
      | cons n ns => exact ih n List.mem_cons_self
    intro m hm
    unfold starLongest at hm
    dsimp only at hm
    split at hm
    · cases hm
      exact on_splat hstar hn
    · split at hm
      · obtain ⟨first, hmem, rfl⟩ := Option.map_eq_some_iff.mp hm
        exact on_withFirst (hfirst first hmem) hn
      · cases hm

/-- **A star before an expression**, whatever it takes of it. -/
theorem on_starred (reach : Reach) {e : Node} (he : e.On bytes) :
    (starred reach star e).On bytes := by
  have hgetD {found : Option Node} (hfound : ∀ m ∈ found, m.On bytes) :
      (found.getD (splat star e)).On bytes := by
    cases found with
    | none => exact on_splat hstar he
    | some m => exact hfound m rfl
  cases reach with
  | shortest => exact hgetD (on_starShortest hstar he)
  | longest => exact hgetD (on_starLongest hstar he)
  | whole => exact on_splat hstar he

end Star

/-- Taken apart, both the star and what it was put on lie between cuts. -/
theorem on_unstarred {n : Node} (h : n.On bytes) :
    ∀ read ∈ unstarred n, read.1.On bytes ∧ read.2.On bytes := by
  induction h with
  | @mk label role span children hspan hchildren hroles ih =>
    have hn : (Node.mk label role span children).On bytes := ⟨hspan, hchildren, hroles⟩
    have hfirst : ∀ read ∈ unstarredFirst children, read.1.On bytes ∧ read.2.On bytes := by
      cases children with
      | nil => nofun
      | cons n ns => exact ih n List.mem_cons_self
    intro read hread
    unfold unstarred at hread
    dsimp only at hread
    split at hread
    · split at hread
      · cases hread
        exact ⟨hchildren _ (by simp), hchildren _ (by simp)⟩
      · cases hread
    · split at hread
      · obtain ⟨first, hmem, rfl⟩ := Option.map_eq_some_iff.mp hread
        exact ⟨(hfirst first hmem).1, on_withFirst (hfirst first hmem).2 hn⟩
      · cases hread

/-- So a star can be taken off and put on again. -/
theorem on_restarred (reach : Reach) {n : Node} (h : n.On bytes) :
    (restarred reach n).On bytes := by
  unfold restarred
  split
  · rename_i star e hread
    obtain ⟨hstar, he⟩ := on_unstarred h _ hread
    have hstarred := on_starred hstar reach he
    split
    rename_i heq
    rw [heq] at hstarred
    exact hstarred.inRole
  · exact h

/-- Through any number of round brackets. -/
theorem on_wholly {n : Node} (h : n.On bytes) : ∀ m ∈ wholly n, m.On bytes := by
  induction h with
  | @mk label role span children hspan hchildren hroles ih =>
    have hwithin : ∀ ns ∈ whollyWithin children, AreOn bytes ns := by
      intro ns hns
      unfold whollyWithin at hns
      split at hns
      · obtain ⟨e, he, rfl⟩ := Option.map_eq_some_iff.mp hns
        simp only [areOn_cons, areOn_nil, and_true]
        exact ⟨hchildren _ (by simp), ih _ (by simp) e he, hchildren _ (by simp)⟩
      · cases hns
    intro m hm
    unfold wholly at hm
    dsimp only at hm
    split at hm
    · rename_i star e hread
      obtain ⟨hstar, he⟩ := on_unstarred ⟨hspan, hchildren, hroles⟩ _ hread
      cases hm
      exact on_splat hstar he
    · split at hm
      · obtain ⟨ns, hns, rfl⟩ := Option.map_eq_some_iff.mp hm
        exact ⟨hspan, hwithin ns hns, Label.admits_construct (by decide)⟩
      · cases hm

theorem on_groupedStar {n : Node} (h : n.On bytes) : ∀ m ∈ groupedStar n, m.On bytes := by
  intro m hm
  unfold groupedStar at hm
  split at hm
  · exact on_wholly h m hm
  · cases hm

/-- An element of a display, whose brackets may have to be read in another way. -/
theorem on_asElement {n : Node} (h : n.On bytes) : (asElement n).On bytes := by
  unfold asElement
  split
  · rename_i hgrouped
    exact (on_groupedStar h _ hgrouped).relabel (by decide)
  · exact h

/-! ## Targets -/

/-- Several targets, if each of them lies between cuts. -/
theorem areOn_asTargets {ns : List Node} (h : AreOn bytes ns)
    (hns : ∀ n ∈ ns, ∀ either leads, ∀ m ∈ asTarget either leads n, m.On bytes)
    (either leads : Bool) : ∀ ms ∈ asTargets either leads ns, AreOn bytes ms := by
  induction ns generalizing leads with
  | nil =>
    intro ms hms
    cases hms
    exact areOn_nil
  | cons n ns ih =>
    have hrest := ih (areOn_cons.mp h).2 fun n hn => hns n (List.mem_cons_of_mem _ hn)
    intro ms hms
    unfold asTargets at hms
    split at hms
    · obtain ⟨rest, hmem, hms⟩ := Option.bind_eq_some_iff.mp hms
      cases hms
      exact areOn_cons.mpr ⟨(areOn_cons.mp h).1, hrest leads rest hmem⟩
    · obtain ⟨m, hm, hms⟩ := Option.bind_eq_some_iff.mp hms
      obtain ⟨rest, hmem, hms⟩ := Option.bind_eq_some_iff.mp hms
      cases hms
      exact areOn_cons.mpr ⟨hns n List.mem_cons_self either leads m hm, hrest false rest hmem⟩

/-- **An expression read as a target** lies between cuts as the expression did. -/
theorem on_asTarget {n : Node} (h : n.On bytes) (either leads : Bool) :
    ∀ m ∈ asTarget either leads n, m.On bytes := by
  induction h generalizing either leads with
  | @mk label role span children hspan hchildren hroles ih =>
    have hn : (Node.mk label role span children).On bytes := ⟨hspan, hchildren, hroles⟩
    have hpattern {kind : Kind} (hkind : kind ≠ .call) :
        ∀ m ∈ (asTargets either either children).map (Node.mk (.construct kind) role span ·),
          m.On bytes := by
      intro m hm
      obtain ⟨ns, hns, rfl⟩ := Option.map_eq_some_iff.mp hm
      exact ⟨hspan, areOn_asTargets hchildren ih either either ns hns, Label.admits_construct hkind⟩
    have hmoved {star e : Node}
        (hread : unstarred (.mk label role span children) = some (star, e)) :
        (if leads then starred .shortest star e else splat star e).On bytes := by
      obtain ⟨hstar, he⟩ := on_unstarred hn _ hread
      split
      · exact on_starred hstar .shortest he
      · exact on_splat hstar he
    intro m hm
    have hassigned {placed : Node} (hplaced : placed.On bytes)
        (hm : m ∈ if isAssignable placed then some placed else none) : m.On bytes := by
      split at hm
      · cases hm
        exact hplaced
      · cases hm
    unfold asTarget at hm
    dsimp only at hm
    split at hm
    · exact hpattern (by decide) m hm
    · exact hpattern (by decide) m hm
    · exact hpattern (by decide) m hm
    · exact hpattern (by decide) m hm
    · exact hpattern (by decide) m hm
    · split at hm
      · rename_i heq
        -- The star is moved first, and then stands before something that can be assigned to.
        have hstarred := by
          split at heq
          · rename_i hread
            exact heq ▸ hmoved hread
          · exact heq ▸ hn
        split at hm
        · cases hm
          exact hstarred.relabel (by decide)
        · cases hm
      · split at hm
        · exact hassigned (hmoved ‹_›) hm
        · exact hassigned hn hm

/-- The right side of an assignment, parts of which may be read as patterns. -/
theorem on_asRightSide {n : Node} (h : n.On bytes) : (asRightSide n).On bytes := by
  unfold asRightSide
  split
  · cases htarget : asTarget true true n with
    | none => exact h
    | some m => exact on_asTarget h true true m htarget
  · exact h

end Grammar

end CallTree.Syntax
