import CallTree.Files.Path
import CallTree.Proofs.Lists
import CallTree.Proofs.NoiseExclusion
import Mathlib.Data.List.Pairwise
import Mathlib.Data.String.Basic

/-!
# Two orders of files

The files of a directory are put in order name by name, and sources are put in order by the text of
their paths. Both orders go by the first difference. They would be the same if no character came
before the slash that ends the name of a folder. But some do, and so `a.py` comes before `a/b.py`
by its text and after it by its names.

The two orders part on two files exactly if one lies in a folder and the other has, in the place of
that folder, a name that begins with the folder's and goes on with a character before the slash
(`straddles`). Hence they put a set of files in the same order exactly if no two of them are of
this kind (`byNames_eq_byText_iff`).
-/

namespace CallTree.Files

open CallTree.Text (pieces)

/-! ## Names -/

/-- **The name of a file or folder**: something between two slashes that is no dots. -/
structure IsPlain (name : String) : Prop where
  ne_empty : name ≠ ""
  noSlash : '/' ∉ name.toList
  ne_dot : name ≠ "."
  ne_dots : name ≠ ".."

instance decidableIsPlain (name : String) : Decidable (IsPlain name) :=
  decidable_of_iff (name ≠ "" ∧ '/' ∉ name.toList ∧ name ≠ "." ∧ name ≠ "..")
    ⟨fun ⟨h, h', h'', h'''⟩ => ⟨h, h', h'', h'''⟩,
      fun h => ⟨h.ne_empty, h.noSlash, h.ne_dot, h.ne_dots⟩⟩

/-- The text of names with slashes between them. -/
def slashed (names : List String) : String := "/".intercalate names

/-- What stands after the first of several names. -/
def afterName (names : List String) : List Char :=
  if names.isEmpty then [] else '/' :: (slashed names).toList

/-- A path begins with its first name; then it ends or goes on with a slash. -/
theorem toList_slashed_cons (name : String) (names : List String) :
    (slashed (name :: names)).toList = name.toList ++ afterName names := by
  unfold afterName slashed
  rw [String.toList_intercalate, String.toList_intercalate]
  cases names with
  | nil => simp
  | cons next names =>
    rw [List.map_cons, List.map_cons, List.intercalate_cons_cons]
    simp

/-! ## The first difference -/

/-- The character with which a name goes on after another. -/
def goesOnWith? (a b : String) : Option Char :=
  if a.toList.isPrefixOf b.toList then (b.toList.drop a.toList.length).head? else none

/-- **A file lies in a folder, and another goes on after the name of the folder** with a character
that comes before the slash. -/
def straddles : List String → List String → Bool
  | a :: as, b :: bs =>
    if a = b then straddles as bs
    else !as.isEmpty && (goesOnWith? a b).any (· < '/')
  | _, _ => false

/-- A name goes on after another if the other is its beginning. -/
theorem goesOnWith?_eq_some_iff {a b : String} {c : Char} :
    goesOnWith? a b = some c ↔ ∃ w, b.toList = a.toList ++ c :: w := by
  unfold goesOnWith?
  constructor
  · intro h
    split at h
    · rename_i hle
      obtain ⟨rest, hrest⟩ := List.isPrefixOf_iff_prefix.mp hle
      rw [← hrest, List.drop_left' rfl] at h
      obtain ⟨w, rfl⟩ := List.head?_eq_some_iff.mp h
      exact ⟨w, hrest.symm⟩
    · cases h
  · rintro ⟨w, h⟩
    rw [h, if_pos (List.isPrefixOf_iff_prefix.mpr (List.prefix_append _ _)), List.drop_left' rfl]
    rfl

/-- A name does not go on after one that it differs from, or that goes on after it. -/
theorem goesOnWith?_eq_none {a b : String} (h : ∀ c w, b.toList ≠ a.toList ++ c :: w) :
    goesOnWith? a b = none := by
  cases hc : goesOnWith? a b with
  | none => rfl
  | some c =>
    obtain ⟨w, hw⟩ := goesOnWith?_eq_some_iff.mp hc
    exact absurd hw (h c w)

theorem goesOnWith?_eq_none_of_append {a b : String} {c : Char} {w : List Char}
    (h : b.toList = a.toList ++ c :: w) : goesOnWith? b a = none := by
  refine goesOnWith?_eq_none fun e v he => ?_
  have hlength := congrArg List.length he
  rw [h] at hlength
  simp only [List.length_append, List.length_cons] at hlength
  omega

/-- There is no slash in a plain name. -/
theorem IsPlain.ne_slash_of_append {b : String} {start w : List Char} {c : Char} (h : IsPlain b)
    (hb : b.toList = start ++ c :: w) : c ≠ '/' := by
  rintro rfl
  refine h.noSlash ?_
  rw [hb]
  exact List.mem_append_right _ List.mem_cons_self

/-! ## Comparing names and comparing texts -/

/-- Neither of two paths leads to the other. -/
def Apart (x y : List String) : Prop := ¬ x <+: y ∧ ¬ y <+: x

/-- Paths with a common first name are apart behind it. -/
theorem Apart.tail {a : String} {as bs : List String} (h : Apart (a :: as) (a :: bs)) :
    Apart as bs :=
  ⟨fun hle => h.1 (List.prefix_cons_inj a |>.mpr hle),
    fun hle => h.2 (List.prefix_cons_inj a |>.mpr hle)⟩

/-- Neither path is empty, since it would be the beginning of the other. -/
theorem Apart.ne_nil {as bs : List String} (h : Apart as bs) : as ≠ [] ∧ bs ≠ [] := by
  constructor
  · rintro rfl
    exact h.1 List.nil_prefix
  · rintro rfl
    exact h.2 List.nil_prefix

theorem Apart.ne {x y : List String} (h : Apart x y) : x ≠ y := by
  rintro rfl
  exact h.1 List.prefix_rfl

theorem Apart.symm {x y : List String} (h : Apart x y) : Apart y x := ⟨h.2, h.1⟩

instance decidableApart (x y : List String) : Decidable (Apart x y) :=
  inferInstanceAs (Decidable (¬ x <+: y ∧ ¬ y <+: x))

/-- Going by names is the usual order of lists. -/
theorem namesPrecede_iff (x y : List String) : Path.namesPrecede x y = true ↔ x ≤ y := by
  rw [← not_lt]
  induction x generalizing y with
  | nil => exact iff_of_true rfl (List.not_lt_nil y)
  | cons a as ih =>
    cases y with
    | nil => exact iff_of_false Bool.false_ne_true fun h => h (List.nil_lt_cons a as)
    | cons b bs =>
      rw [Path.namesPrecede, List.cons_lt_cons_iff]
      by_cases hab : a = b
      · subst hab
        rw [if_pos rfl, ih bs, not_or]
        exact ⟨fun h => ⟨lt_irrefl a, fun hlt => h hlt.2⟩, fun h hlt => h.2 ⟨rfl, hlt⟩⟩
      · rw [if_neg hab, decide_eq_true_iff, not_or]
        refine ⟨fun h => ⟨lt_asymm h, fun hlt => hab hlt.1.symm⟩, fun h => ?_⟩
        exact lt_of_le_of_ne (not_lt.mp h.1) hab

/-- A name that goes on after another comes after it. -/
theorem lt_of_append {a b : String} {c : Char} {w : List Char} (h : b.toList = a.toList ++ c :: w) :
    a < b := by
  rw [String.lt_iff_toList_lt, h]
  exact lt_append_cons a.toList c w

/-- A file that lies in a folder comes, by its names, before one that goes on after the name of the
folder. -/
theorem namesPrecede_of_straddles {x y : List String} (h : straddles x y = true) :
    Path.namesPrecede x y = true := by
  induction x generalizing y with
  | nil => rfl
  | cons a as ih =>
    cases y with
    | nil => cases h
    | cons b bs =>
      rw [straddles] at h
      rw [Path.namesPrecede]
      split at h
      · rename_i hab
        rw [if_pos hab]
        exact ih h
      · rename_i hab
        rw [if_neg hab, decide_eq_true_iff]
        obtain ⟨c, hc, -⟩ := (Option.any_eq_true _ _).mp (Bool.and_eq_true_iff.mp h).2
        obtain ⟨w, hw⟩ := goesOnWith?_eq_some_iff.mp hc
        exact lt_of_append hw

/-- What stands after a name comes before what goes on after it, unless the slash does not. -/
theorem afterName_lt_iff {as : List String} {c : Char} (hc : c ≠ '/') (t : List Char) :
    afterName as < c :: t ↔ as.isEmpty = true ∨ ¬ c < '/' := by
  unfold afterName
  cases as with
  | nil => exact iff_of_true (List.nil_lt_cons c t) (Or.inl rfl)
  | cons a as =>
    rw [List.isEmpty_cons, if_neg Bool.false_ne_true, List.cons_lt_cons_iff, not_lt]
    simp only [Bool.false_eq_true, false_or]
    exact ⟨fun h => h.elim le_of_lt fun h => le_of_eq h.1,
      fun h => Or.inl (lt_of_le_of_ne h hc.symm)⟩

/-- A character comes before what is behind a name if something is there and it comes before the
slash. -/
theorem lt_afterName_iff {bs : List String} {c : Char} (hc : c ≠ '/') (s : List Char) :
    c :: s < afterName bs ↔ bs.isEmpty = false ∧ c < '/' := by
  unfold afterName
  cases bs with
  | nil => exact iff_of_false (List.not_lt_nil _) fun h => by cases h.1
  | cons b bs =>
    rw [List.isEmpty_cons, if_neg Bool.false_ne_true, List.cons_lt_cons_iff]
    simp only [true_and]
    exact or_iff_left fun h => hc h.1

/-- **When one text comes before another**: it does by its names and neither lies in a folder that
the other goes on after, or the other one does. -/
theorem slashed_lt_iff {x y : List String} (hx : ∀ n ∈ x, IsPlain n) (hy : ∀ n ∈ y, IsPlain n)
    (h : Apart x y) :
    slashed x < slashed y
      ↔ (Path.namesPrecede x y = true ∧ straddles x y = false) ∨ straddles y x = true := by
  induction x generalizing y with
  | nil => exact absurd rfl h.ne_nil.1
  | cons a as ih =>
    cases y with
    | nil => exact absurd rfl h.ne_nil.2
    | cons b bs =>
      rw [String.lt_iff_toList_lt, toList_slashed_cons, toList_slashed_cons]
      by_cases hab : a = b
      · subst hab
        have hne := h.tail.ne_nil
        have hih := ih (fun n hn => hx n (List.mem_cons_of_mem _ hn))
          (fun n hn => hy n (List.mem_cons_of_mem _ hn)) h.tail
        rw [String.lt_iff_toList_lt] at hih
        rw [append_lt_append_iff, Path.namesPrecede, if_pos rfl, straddles, if_pos rfl, straddles,
          if_pos rfl, ← hih]
        unfold afterName
        rw [if_neg (by simpa using hne.1), if_neg (by simpa using hne.2), List.cons_lt_cons_iff]
        exact ⟨fun hlt => hlt.elim (fun hlt => absurd hlt (lt_irrefl _)) (·.2),
          fun hlt => Or.inr ⟨rfl, hlt⟩⟩
      · rw [Path.namesPrecede, if_neg hab, straddles, if_neg hab, straddles, if_neg (Ne.symm hab),
          decide_eq_true_iff]
        rcases exists_difference fun heq => hab (String.toList_injective heq) with
          ⟨start, c, d, w, w', hcd, ha, hb⟩ | ⟨c, w, hb⟩ | ⟨c, w, ha⟩
        · -- the names differ in one place, which decides both orders
          have hnone : goesOnWith? a b = none := goesOnWith?_eq_none fun e v he => by
            rw [ha, hb, List.append_assoc] at he
            exact hcd (List.cons.inj (List.append_cancel_left he)).1.symm
          have hnone' : goesOnWith? b a = none := goesOnWith?_eq_none fun e v he => by
            rw [ha, hb, List.append_assoc] at he
            exact hcd (List.cons.inj (List.append_cancel_left he)).1
          have hnames : a < b ↔ c < d := by
            have hlt := lt_iff_of_difference (s := []) (t := []) hcd ha hb
            rw [List.append_nil, List.append_nil] at hlt
            exact hlt
          rw [lt_iff_of_difference hcd ha hb, hnone, hnone', hnames]
          simp
        · have hc := (hy b List.mem_cons_self).ne_slash_of_append hb
          rw [hb, List.append_assoc, append_lt_append_iff, List.cons_append,
            afterName_lt_iff hc, goesOnWith?_eq_some_iff.mpr ⟨w, hb⟩,
            goesOnWith?_eq_none_of_append hb]
          cases as with
          | nil => simp [lt_of_append hb]
          | cons => simp [lt_of_append hb]
        · have hc := (hx a List.mem_cons_self).ne_slash_of_append ha
          rw [ha, List.append_assoc, append_lt_append_iff, List.cons_append,
            lt_afterName_iff hc, goesOnWith?_eq_some_iff.mpr ⟨w, ha⟩,
            goesOnWith?_eq_none_of_append ha]
          simp [lt_asymm (lt_of_append ha)]

/-! ## Putting files in order -/

/-- **A file of text**, with the names that lead to it. -/
structure TextFile where
  names : List String
  text : String

/-- The text of a file, under the text of its path. -/
def TextFile.source (f : TextFile) : String × String := (slashed f.names, f.text)

/-- **Files that can lie in one folder.** -/
structure FileSet (files : List TextFile) : Prop where
  named : ∀ f ∈ files, f.names ≠ []
  plain : ∀ f ∈ files, ∀ name ∈ f.names, IsPlain name
  apart : files.Pairwise fun f g => Apart f.names g.names

instance decidableFileSet (files : List TextFile) : Decidable (FileSet files) :=
  decidable_of_iff ((∀ f ∈ files, f.names ≠ []) ∧ (∀ f ∈ files, ∀ name ∈ f.names, IsPlain name)
      ∧ files.Pairwise fun f g => Apart f.names g.names)
    ⟨fun ⟨h, h', h''⟩ => ⟨h, h', h''⟩, fun h => ⟨h.named, h.plain, h.apart⟩⟩

/-- The files in the order in which a directory is gone through. -/
def byNames (files : List TextFile) : List TextFile :=
  files.mergeSort fun f g => Path.namesPrecede f.names g.names

/-- The files in the order of the texts of their paths. -/
def byText (files : List TextFile) : List TextFile :=
  files.mergeSort fun f g => decide (slashed f.names ≤ slashed g.names)

variable {files : List TextFile} {f g : TextFile}

theorem perm_byNames (files : List TextFile) : (byNames files).Perm files :=
  List.mergeSort_perm files _

theorem perm_byText (files : List TextFile) : (byText files).Perm files :=
  List.mergeSort_perm files _

/-- Sorting by names puts the names in order. -/
theorem pairwise_mergeSort_namesPrecede {α : Type} (names : α → List String) (l : List α) :
    (l.mergeSort fun a b => Path.namesPrecede (names a) (names b)).Pairwise
      fun a b => names a ≤ names b := by
  refine (List.pairwise_mergeSort ?_ ?_ l).imp fun h => (namesPrecede_iff _ _).mp h
  · intro a b c hab hbc
    rw [namesPrecede_iff] at hab hbc ⊢
    exact le_trans hab hbc
  · intro a b
    rw [Bool.or_eq_true, namesPrecede_iff, namesPrecede_iff]
    exact le_total _ _

theorem pairwise_byNames (files : List TextFile) :
    (byNames files).Pairwise fun f g => f.names ≤ g.names :=
  pairwise_mergeSort_namesPrecede TextFile.names files

theorem pairwise_byText (files : List TextFile) :
    (byText files).Pairwise fun f g => slashed f.names ≤ slashed g.names := by
  refine (List.pairwise_mergeSort ?_ ?_ files).imp fun h => of_decide_eq_true h
  · intro f g h hfg hgh
    exact decide_eq_true (le_trans (of_decide_eq_true hfg) (of_decide_eq_true hgh))
  · intro f g
    rw [Bool.or_eq_true, decide_eq_true_iff, decide_eq_true_iff]
    exact le_total _ _

/-- Two files of a set are one file, or neither path is the beginning of the other. -/
theorem FileSet.eq_or_apart (h : FileSet files) (hf : f ∈ files) (hg : g ∈ files) :
    f = g ∨ Apart f.names g.names := by
  have hsymm : Std.Symm fun f g : TextFile => Apart f.names g.names := ⟨fun _ _ h => h.symm⟩
  exact or_iff_not_imp_left.mpr (h.apart.forall hf hg)

theorem FileSet.eq_of_names_eq (h : FileSet files) (hf : f ∈ files) (hg : g ∈ files)
    (hnames : f.names = g.names) : f = g :=
  (h.eq_or_apart hf hg).resolve_right fun hapart => hapart.ne hnames

/-- The files of a set are known by their names, so lists of them are, too. -/
theorem FileSet.eq_of_map_names_eq (h : FileSet files) {l l' : List TextFile}
    (hl : ∀ f ∈ l, f ∈ files) (hl' : ∀ f ∈ l', f ∈ files)
    (heq : l.map TextFile.names = l'.map TextFile.names) : l = l' := by
  induction l generalizing l' with
  | nil => exact (List.map_eq_nil_iff.mp heq.symm).symm
  | cons f l ih =>
    obtain ⟨g, l', rfl, hnames, hrest⟩ := List.map_eq_cons_iff.mp heq.symm
    obtain ⟨hf, hl⟩ := List.forall_mem_cons.mp hl
    obtain ⟨hg, hl'⟩ := List.forall_mem_cons.mp hl'
    rw [h.eq_of_names_eq hf hg hnames.symm, ih hl hl' hrest.symm]

/-- The texts of two files are in the order of their names, if they do not straddle. -/
theorem FileSet.slashed_le_iff (h : FileSet files) (hf : f ∈ files) (hg : g ∈ files)
    (hfg : straddles f.names g.names = false) (hgf : straddles g.names f.names = false) :
    slashed f.names ≤ slashed g.names ↔ f.names ≤ g.names := by
  rcases h.eq_or_apart hf hg with rfl | hapart
  · exact iff_of_true le_rfl le_rfl
  · rw [← not_lt, slashed_lt_iff (h.plain g hg) (h.plain f hf) hapart.symm, hfg, hgf]
    simp only [and_true, Bool.false_eq_true, or_false, namesPrecede_iff, not_le]
    exact ⟨le_of_lt, fun hle => lt_of_le_of_ne hle hapart.ne⟩

/-- No path straddles itself. -/
theorem straddles_self (x : List String) : straddles x x = false := by
  induction x with
  | nil => rfl
  | cons a as ih => rw [straddles, if_pos rfl, ih]

/-- **The two orders are the same exactly if no two files straddle.** -/
theorem byNames_eq_byText_iff (h : FileSet files) :
    byNames files = byText files
      ↔ ∀ f ∈ files, ∀ g ∈ files, straddles f.names g.names = false := by
  constructor
  · intro heq
    have hsymm : Std.Symm fun f g : TextFile =>
        straddles f.names g.names = false ∧ straddles g.names f.names = false :=
      ⟨fun _ _ h => ⟨h.2, h.1⟩⟩
    have hpairwise : (byNames files).Pairwise fun f g =>
        straddles f.names g.names = false ∧ straddles g.names f.names = false := by
      have hboth := (pairwise_byNames files).and (heq ▸ pairwise_byText files)
      refine (List.Pairwise.and_mem.mp hboth).imp fun {f g} ⟨hf, hg, hnames, htext⟩ => ?_
      have hf := (perm_byNames files).mem_iff.mp hf
      have hg := (perm_byNames files).mem_iff.mp hg
      rcases h.eq_or_apart hf hg with rfl | hapart
      · exact ⟨straddles_self _, straddles_self _⟩
      · constructor
        · refine Bool.eq_false_iff.mpr fun hstraddles => not_lt.mpr htext ?_
          exact (slashed_lt_iff (h.plain g hg) (h.plain f hf) hapart.symm).mpr
            (Or.inr hstraddles)
        · refine Bool.eq_false_iff.mpr fun hstraddles => hapart.ne ?_
          have hle := (namesPrecede_iff _ _).mp (namesPrecede_of_straddles hstraddles)
          exact le_antisymm hnames hle
    intro f hf g hg
    exact (hpairwise.forall_of_forall (fun f _ => ⟨straddles_self _, straddles_self _⟩)
      ((perm_byNames files).mem_iff.mpr hf) ((perm_byNames files).mem_iff.mpr hg)).1
  · intro hnone
    have hsorted : (byNames files).Pairwise fun f g => slashed f.names ≤ slashed g.names := by
      refine (List.Pairwise.and_mem.mp (pairwise_byNames files)).imp fun {f g} ⟨hf, hg, hle⟩ => ?_
      have hf := (perm_byNames files).mem_iff.mp hf
      have hg := (perm_byNames files).mem_iff.mp hg
      exact (h.slashed_le_iff hf hg (hnone f hf g hg) (hnone g hg f hf)).mpr hle
    refine List.Perm.eq_of_pairwise ?_ hsorted (pairwise_byText files)
      ((perm_byNames files).trans (perm_byText files).symm)
    intro f g hf hg hle hge
    have hf := (perm_byNames files).mem_iff.mp hf
    have hg := (perm_byText files).mem_iff.mp hg
    rw [h.slashed_le_iff hf hg (hnone f hf g hg) (hnone g hg f hf)] at hle
    rw [h.slashed_le_iff hg hf (hnone g hg f hf) (hnone f hf g hg)] at hge
    exact h.eq_of_names_eq hf hg (le_antisymm hle hge)

/-! ## The path that is written with slashes -/

theorem pieces_of_not_mem {sep : Char} {cs : List Char} (h : sep ∉ cs) : pieces sep cs = [cs] := by
  induction cs with
  | nil => rfl
  | cons c cs ih =>
    obtain ⟨hc, hcs⟩ := not_or.mp (mt List.mem_cons.mpr h)
    rw [pieces, if_neg (Ne.symm hc), ih hcs]

/-- A path falls into its names again at the slashes. -/
theorem pieces_slashed {names : List String} (hne : names ≠ []) (h : ∀ n ∈ names, IsPlain n) :
    pieces '/' (slashed names).toList = names.map String.toList := by
  induction names with
  | nil => exact absurd rfl hne
  | cons name names ih =>
    have hname := (h name List.mem_cons_self).noSlash
    rw [toList_slashed_cons, afterName]
    split
    · rename_i hempty
      rw [List.isEmpty_iff.mp hempty, List.append_nil, pieces_of_not_mem hname]
      rfl
    · rename_i hempty
      have hrest := ih (by simpa using hempty) fun n hn => h n (List.mem_cons_of_mem _ hn)
      rw [Text.pieces_append, pieces_of_not_mem hname, hrest]
      rfl

/-- **The path of a text that names were put together to** is the names. -/
theorem ofText_slashed {names : List String} (hne : names ≠ []) (h : ∀ n ∈ names, IsPlain n) :
    Path.ofText (slashed names) = { names := names } := by
  have hroot : Path.rootOf (slashed names).toList = "" := by
    obtain ⟨name, rest, rfl⟩ := List.exists_cons_of_ne_nil hne
    have hname := h name List.mem_cons_self
    obtain ⟨c, w, hcw⟩ := List.exists_cons_of_ne_nil
      fun hnil => hname.ne_empty (String.toList_eq_nil_iff.mp hnil)
    have hc : c ≠ '/' := hname.ne_slash_of_append (hcw.trans (List.nil_append _).symm)
    rw [toList_slashed_cons, hcw, List.cons_append]
    unfold Path.rootOf
    split
    · rename_i heq
      exact absurd (List.cons.inj heq).1 hc
    · rename_i heq
      exact absurd (List.cons.inj heq).1 hc
    · rename_i heq
      exact absurd (List.cons.inj heq).1 hc
    · rfl
  have hkept : (names.map String.toList).filter (fun p => p ≠ [] && p ≠ ['.'])
      = names.map String.toList := by
    refine List.filter_eq_self.mpr fun p hp => ?_
    obtain ⟨name, hname, rfl⟩ := List.mem_map.mp hp
    have hplain := h name hname
    have hne : name.toList ≠ [] := fun heq => hplain.ne_empty (String.toList_eq_nil_iff.mp heq)
    have hdot : name.toList ≠ ['.'] := fun heq => hplain.ne_dot (String.toList_injective heq)
    simp [hne, hdot]
  unfold Path.ofText
  rw [hroot, pieces_slashed hne h, hkept, List.map_map]
  have hid : String.ofList ∘ String.toList = id := funext fun _ => String.ofList_toList
  rw [hid, List.map_id]

end CallTree.Files
