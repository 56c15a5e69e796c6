import CallTree.Proofs.RelativeImports
import CallTree.Symbol

/-!
# What the key of a method tells

A walk recognises a method by its key, so it takes all methods of one key for the same. The key is
a text, put together of the owner, the name and, if overloads are to be told apart, the parameters,
and all of these can be read off it again: the name stands behind the last dot, the parameters stand
behind the first parenthesis, and there is a comma between two of them. What this rests on is that
the name has no dot, that no parenthesis comes before the one that opens the list of the parameters,
and that no parameter is empty or has a comma (`MethodSymbol.PlainlyNamed`). The owner may be
dotted, and the parameters may be written with anything else.
-/

namespace CallTree

/-! ## Texts that can be cut again -/

namespace Text

/-- The last dot tells a name from what comes before it. -/
theorem qualified_inj {owner owner' name name' : String} (h : '.' ∉ name.toList)
    (h' : '.' ∉ name'.toList) :
    owner ++ "." ++ name = owner' ++ "." ++ name' ↔ owner = owner' ∧ name = name' := by
  constructor
  · intro heq
    have hsegments := congrArg segments heq
    rw [segments_append, segments_append, segments_of_not_mem h, segments_of_not_mem h']
      at hsegments
    obtain ⟨howner, hname⟩ := List.append_inj' hsegments rfl
    refine ⟨?_, List.singleton_inj.mp hname⟩
    rw [← dotted_segments owner, howner, dotted_segments]
  · rintro ⟨rfl, rfl⟩
    rfl

/-- The first separator tells what comes before it from what comes behind it. -/
theorem append_separated_inj {sep : Char} {start start' rest rest' : List Char}
    (h : sep ∉ start) (h' : sep ∉ start') :
    start ++ sep :: rest = start' ++ sep :: rest' ↔ start = start' ∧ rest = rest' := by
  constructor
  · intro heq
    have hpieces := congrArg (pieces sep) heq
    rw [pieces_append, pieces_append, Files.pieces_of_not_mem h, Files.pieces_of_not_mem h']
      at hpieces
    obtain rfl : start = start' := (List.cons.inj hpieces).1
    exact ⟨rfl, (List.cons.inj (List.append_cancel_left heq)).2⟩
  · rintro ⟨rfl, rfl⟩
    rfl

/-- **The commas of a list** stand between its items: with a blank before the first item as there is
one before the others, they are the pieces. -/
theorem pieces_listed {items : List String} (hne : items ≠ []) (h : ∀ i ∈ items, ',' ∉ i.toList) :
    pieces ',' (' ' :: (", ".intercalate items).toList) = items.map fun i => ' ' :: i.toList := by
  induction items with
  | nil => exact absurd rfl hne
  | cons item items ih =>
    have hitem : ',' ∉ ' ' :: item.toList := by simpa using h item List.mem_cons_self
    by_cases hlast : items = []
    · rw [hlast, String.intercalate_singleton, Files.pieces_of_not_mem hitem]
      rfl
    · have htext : ' ' :: (", ".intercalate (item :: items)).toList
          = (' ' :: item.toList) ++ ',' :: ' ' :: (", ".intercalate items).toList := by
        rw [String.intercalate_cons_of_ne_nil hlast, String.toList_append, String.toList_append,
          List.append_assoc]
        rfl
      rw [htext, pieces_append, Files.pieces_of_not_mem hitem,
        ih hlast fun i hi => h i (List.mem_cons_of_mem _ hi)]
      rfl

/-- The items of a list that is written with commas. -/
def itemsOf (text : String) : List String :=
  if text = "" then []
  else (pieces ',' (' ' :: text.toList)).map fun piece => String.ofList piece.tail

/-- **A list that is written with commas** can be read off again. An item that is empty could not
be told from no item. -/
theorem itemsOf_listed {items : List String} (h : ∀ i ∈ items, i ≠ "" ∧ ',' ∉ i.toList) :
    itemsOf (", ".intercalate items) = items := by
  cases items with
  | nil => rfl
  | cons item items =>
    have hpieces := pieces_listed (List.cons_ne_nil item items) fun i hi => (h i hi).2
    have hne : ", ".intercalate (item :: items) ≠ "" := by
      intro hempty
      rw [hempty] at hpieces
      have hfirst : [' '] = ' ' :: item.toList := (List.cons.inj hpieces).1
      exact (h item List.mem_cons_self).1
        (String.toList_eq_nil_iff.mp (List.cons.inj hfirst).2.symm)
    rw [itemsOf, if_neg hne, hpieces, List.map_map]
    exact (List.map_congr_left fun i _ => String.ofList_toList).trans (List.map_id _)

theorem listed_inj {items items' : List String} (h : ∀ i ∈ items, i ≠ "" ∧ ',' ∉ i.toList)
    (h' : ∀ i ∈ items', i ≠ "" ∧ ',' ∉ i.toList) :
    ", ".intercalate items = ", ".intercalate items' ↔ items = items' := by
  constructor
  · intro heq
    rw [← itemsOf_listed h, heq, itemsOf_listed h']
  · rintro rfl
    rfl

end Text

namespace MethodSymbol

/-! ## The keys of methods -/

/-- **A method whose names are plain**: its name has neither a dot nor a parenthesis, its owner has
no parenthesis, and its parameters are not empty and have no comma. -/
structure PlainlyNamed (m : MethodSymbol) : Prop where
  name_noDot : '.' ∉ m.name.toList
  name_noParen : '(' ∉ m.name.toList
  owner_noParen : '(' ∉ m.ownerLabel.toList
  parameters : ∀ p ∈ m.parameters, p ≠ "" ∧ ',' ∉ p.toList

variable {m m' : MethodSymbol}

theorem key_false (m : MethodSymbol) : m.key false = m.ownerLabel ++ "." ++ m.name := rfl

theorem toList_key_true (m : MethodSymbol) :
    (m.key true).toList
      = (m.key false).toList ++ '(' :: ((", ".intercalate m.parameters).toList ++ [')']) := by
  rw [key, if_pos rfl, String.toList_append, String.toList_append, String.toList_append,
    List.append_assoc, List.append_assoc]
  rfl

/-- The first parenthesis of a key opens the list of the parameters. -/
theorem PlainlyNamed.noParen (h : m.PlainlyNamed) : '(' ∉ (m.key false).toList := by
  rw [key_false, String.toList_append, String.toList_append]
  simp [h.owner_noParen, h.name_noParen]

/-- **Keys tell methods apart** by owner, name and parameters, and keys without parameters tell them
apart by owner and name. -/
theorem key_eq_iff (m m' : MethodSymbol) (h : m.PlainlyNamed) (h' : m'.PlainlyNamed) :
    (m.key true = m'.key true
        ↔ m.ownerLabel = m'.ownerLabel ∧ m.name = m'.name ∧ m.parameters = m'.parameters)
      ∧ (m.key false = m'.key false ↔ m.ownerLabel = m'.ownerLabel ∧ m.name = m'.name) := by
  have hplain : m.key false = m'.key false ↔ m.ownerLabel = m'.ownerLabel ∧ m.name = m'.name := by
    rw [key_false, key_false, Text.qualified_inj h.name_noDot h'.name_noDot]
  refine ⟨?_, hplain⟩
  rw [← String.toList_inj, toList_key_true, toList_key_true,
    Text.append_separated_inj h.noParen h'.noParen, List.append_left_inj, String.toList_inj,
    String.toList_inj, hplain, Text.listed_inj h.parameters h'.parameters, and_assoc]

/-- A function of a module, whose owner is written with a dot. -/
def sampleFind (parameters : List String) : MethodSymbol where
  name := "find"
  qualifiedName := "shop.shelf.find"
  homeModule := "shop.shelf"
  kind := .function
  parameters := parameters

/-- Two overloads have one key without their parameters, and two keys with them. -/
theorem key_eq_iff_overloads :
    (sampleFind ["title", "*rest"]).PlainlyNamed ∧ (sampleFind []).PlainlyNamed
      ∧ (sampleFind ["title", "*rest"]).key false = (sampleFind []).key false
      ∧ (sampleFind ["title", "*rest"]).key true ≠ (sampleFind []).key true := by
  have h : (sampleFind ["title", "*rest"]).PlainlyNamed :=
    ⟨by decide, by decide, by decide, by decide⟩
  have h' : (sampleFind []).PlainlyNamed := ⟨by decide, by decide, by decide, by decide⟩
  obtain ⟨hfull, hplain⟩ := key_eq_iff _ _ h h'
  exact ⟨h, h', hplain.mpr ⟨rfl, rfl⟩, fun heq => absurd (hfull.mp heq).2.2 (by decide)⟩

end MethodSymbol

end CallTree
