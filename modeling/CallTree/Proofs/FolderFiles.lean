import CallTree.Proofs.Lists
import CallTree.Proofs.PathOrder
import CallTree.Workspace.Loading
import Mathlib.Data.List.Nodup

/-!
# The files of code in a folder

A folder is gone through by names, and what is found there is sorted, filtered and read again by
its path. If a folder holds certain files and nothing else (`Tree.Holds`), then what comes of it are
these files, in the order of their names, and each of them is read as it was written
(`codePaths_filter_isFile`). What else is found are folders whose names look like those of files
of code, and they cannot be read.
-/

namespace CallTree

namespace Files

/-- The path from a folder on. -/
def Path.descend (root : Path) (names : List String) : Path :=
  { root with names := root.names ++ names }

theorem Path.descend_injective (root : Path) {x y : List String}
    (h : root.descend x = root.descend y) : x = y :=
  List.append_cancel_left (congrArg Path.names h)

/-- Below one folder, paths come in the order of what is behind the folder. -/
theorem Path.parts_descend_le_iff (root : Path) (x y : List String) :
    (root.descend x).parts ≤ (root.descend y).parts ↔ x ≤ y := by
  have hcut : ∀ names, (root.descend names).parts = root.parts ++ names := by
    intro names
    unfold parts descend
    dsimp only
    split
    · rfl
    · rfl
  rw [hcut, hcut, ← not_lt, ← not_lt, append_lt_append_iff]

namespace Tree

/-! ## Finding something below a folder -/

variable {tree : Tree} {place : List String} {files : List TextFile}

theorem mem_of_entryAt_file {names : List String} {bytes : ByteArray}
    (h : tree.entryAt names = .file bytes) : (names, Entry.file bytes) ∈ tree := by
  unfold entryAt at h
  split at h
  · rename_i path bytes' hfound
    obtain rfl : bytes' = bytes := Found.file.inj h
    have hpath : path = names := by simpa using List.find?_some hfound
    exact hpath ▸ List.mem_of_find?_eq_some hfound
  · split at h
    · cases h
    · cases h

/-- Only files can be read. -/
theorem read_ne_ok {p : Path} (h : tree.isFile p = false) (bytes : ByteArray) :
    tree.read p ≠ .ok bytes := by
  intro hread
  unfold read at hread
  unfold isFile at h
  cases hfind : tree.find p with
  | file _ =>
    rw [hfind] at h
    cases h
  | folder =>
    rw [hfind] at hread
    cases hread
  | missing =>
    rw [hfind] at hread
    cases hread
  | notFolder =>
    rw [hfind] at hread
    cases hread

/-- Where a folder is on the way to something, that folder is found, or a file in its place. -/
theorem entryAt_of_hasFolder {names : List String} (h : tree.hasFolder names = true) :
    tree.entryAt names = .folder ∨ ∃ bytes, tree.entryAt names = .file bytes := by
  unfold entryAt
  split
  · exact Or.inr ⟨_, rfl⟩
  · rw [h, Bool.or_true]
    exact Or.inl rfl

theorem follow_append (root here x y : List String) :
    tree.follow root here (x ++ y) = tree.follow root here x >>= fun there =>
      tree.follow root there y := by
  induction x generalizing here with
  | nil => rfl
  | cons name x ih =>
    rw [List.cons_append, follow, follow]
    split
    · exact ih _
    · rfl
    · rfl

/-- Names without dots lead down from a folder, if they lead anywhere. -/
theorem follow_eq (root here : List String) {x : List String} (hdots : ".." ∉ x) :
    tree.follow root here x = .ok (here ++ x)
      ∨ ∃ found, tree.follow root here x = .error found ∧ ∀ bytes, found ≠ .file bytes := by
  induction x generalizing here with
  | nil => exact Or.inl (by rw [List.append_nil]; rfl)
  | cons name x ih =>
    obtain ⟨hname, hx⟩ := not_or.mp (mt List.mem_cons.mpr hdots)
    rw [follow, if_neg (Ne.symm hname)]
    split
    · rw [List.append_cons here name x]
      exact ih _ hx
    · exact Or.inr ⟨_, rfl, fun _ h => by cases h⟩
    · rename_i hother
      exact Or.inr ⟨_, rfl, fun bytes h => hother bytes h⟩

/-- They do lead there, if there is a folder at each step. -/
theorem follow_of_folders (root : List String) {here x : List String} (hdots : ".." ∉ x)
    (h : ∀ y, y <+: x → y ≠ x → tree.entryAt (here ++ y) = .folder) :
    tree.follow root here x = .ok (here ++ x) := by
  induction x generalizing here with
  | nil => rw [List.append_nil]; rfl
  | cons name x ih =>
    obtain ⟨hname, hx⟩ := not_or.mp (mt List.mem_cons.mpr hdots)
    have hhere := h [] List.nil_prefix (List.cons_ne_nil _ _).symm
    rw [List.append_nil] at hhere
    rw [follow, hhere]
    dsimp only
    rw [if_neg (Ne.symm hname), List.append_cons here name x]
    refine ih hx fun y hy hne => ?_
    rw [← List.append_cons here name y]
    exact h (name :: y) (List.prefix_cons_inj name |>.mpr hy) fun heq => hne (List.cons.inj heq).2

/-- The place where a path begins. -/
def start (path : Path) : List String := if path.root.isEmpty then [] else [path.root]

theorem place_eq_follow (path : Path) :
    tree.place path = tree.follow (start path) (start path) path.names := rfl

/-- A path that goes on after a folder is followed from there. -/
theorem place_descend {root : Path} (h : tree.place root = .ok place) (x : List String) :
    tree.place (root.descend x) = tree.follow (start root) place x := by
  rw [place_eq_follow] at h
  show tree.follow (start root) (start root) (root.names ++ x) = _
  rw [follow_append, h]
  rfl

/-! ## What lies below a folder -/

theorem nodup_below (tree : Tree) (place : List String) : (tree.below place).Nodup :=
  nodup_eraseDups _

/-- **What lies below a folder** is on the way to something in the tree. -/
theorem mem_below {x : List String} :
    x ∈ tree.below place ↔ x ≠ [] ∧ ∃ names, x <+: names ∧ place ++ names ∈ tree.map (·.1) := by
  unfold below
  simp only [List.mem_eraseDups, List.mem_flatMap, List.mem_filterMap, List.mem_map, List.mem_range]
  constructor
  · rintro ⟨path, ⟨⟨whole, entry⟩, hentry, hpath⟩, n, hn, rfl⟩
    dsimp only at hpath
    split at hpath
    · rename_i hle
      obtain ⟨names, rfl⟩ := List.isPrefixOf_iff_prefix.mp hle
      rw [List.drop_left' rfl, Option.some.injEq] at hpath
      subst hpath
      refine ⟨fun hnil => ?_, names, List.take_prefix _ _, _, hentry, rfl⟩
      have hlength := congrArg List.length hnil
      rw [List.length_take, List.length_nil] at hlength
      omega
    · cases hpath
  · rintro ⟨hne, names, hle, ⟨whole, entry⟩, hentry, rfl⟩
    refine ⟨names, ⟨_, hentry, ?_⟩, x.length - 1, ?_, ?_⟩
    · dsimp only
      rw [if_pos (List.isPrefixOf_iff_prefix.mpr (List.prefix_append _ _)), List.drop_left' rfl]
    · have hpos := List.length_pos_iff.mpr hne
      have hlength := hle.length_le
      omega
    · have hpos := List.length_pos_iff.mpr hne
      rw [Nat.sub_add_cancel hpos]
      exact (List.prefix_iff_eq_take.mp hle).symm

/-! ## Folders that hold certain files -/

/-- **The folder at a place holds these files**, and no others. There may be folders in it. -/
structure Holds (tree : Tree) (place : List String) (files : List TextFile) : Prop where
  folder : tree.entryAt place = .folder
  file : ∀ f ∈ files, tree.entryAt (place ++ f.names) = .file f.text.toUTF8
  only : ∀ names bytes, (place ++ names, Entry.file bytes) ∈ tree → names ∈ files.map (·.names)
  noDots : ∀ names, place ++ names ∈ tree.map (·.1) → ".." ∉ names

namespace Holds

variable (h : tree.Holds place files) {f : TextFile}

include h

theorem mem_tree (hf : f ∈ files) : place ++ f.names ∈ tree.map (·.1) :=
  List.mem_map.mpr ⟨_, mem_of_entryAt_file (h.file f hf), rfl⟩

/-- On the way to a file there are folders. -/
theorem entryAt_way (hfiles : FileSet files) (hf : f ∈ files) {y : List String}
    (hy : y <+: f.names) (hne : y ≠ f.names) : tree.entryAt (place ++ y) = .folder := by
  have hlonger : (place ++ y).isPrefixOf (place ++ f.names) = true
      ∧ y.length < f.names.length := by
    refine ⟨List.isPrefixOf_iff_prefix.mpr ((List.prefix_append_right_inj place).mpr hy), ?_⟩
    exact lt_of_le_of_ne hy.length_le fun heq => hne (hy.eq_of_length heq)
  have hfolder : tree.hasFolder (place ++ y) = true :=
    List.any_eq_true.mpr ⟨_, mem_of_entryAt_file (h.file f hf), by simp [hlonger]⟩
  refine (entryAt_of_hasFolder hfolder).resolve_right ?_
  rintro ⟨bytes, hentry⟩
  obtain ⟨g, hg, rfl⟩ := List.mem_map.mp (h.only y bytes (mem_of_entryAt_file hentry))
  rcases hfiles.eq_or_apart hg hf with rfl | hapart
  · exact hne rfl
  · exact hapart.1 hy

/-- **A file is found under its path.** -/
theorem find_file (hfiles : FileSet files) {root : Path} (hroot : tree.place root = .ok place)
    (hf : f ∈ files) : tree.find (root.descend f.names) = .file f.text.toUTF8 := by
  have hway := follow_of_folders (start root) (h.noDots _ (h.mem_tree hf)) fun y hy hne =>
    h.entryAt_way hfiles hf hy hne
  unfold find
  rw [place_descend hroot, hway]
  exact h.file f hf

/-- Of what lies below the folder, the files can be read. -/
theorem isFile_iff (hfiles : FileSet files) {root : Path} (hroot : tree.place root = .ok place)
    {x : List String} (hx : x ∈ tree.below place) :
    tree.isFile (root.descend x) = true ↔ x ∈ files.map (·.names) := by
  unfold isFile
  constructor
  · intro hfile
    obtain ⟨-, names, ⟨more, rfl⟩, hnames⟩ := mem_below.mp hx
    have hdots : ".." ∉ x := fun hmem => h.noDots _ hnames (List.mem_append_left _ hmem)
    unfold find at hfile
    rw [place_descend hroot] at hfile
    rcases follow_eq (start root) place hdots with hway | ⟨found, hway, hfound⟩
    · rw [hway] at hfile
      dsimp only at hfile
      split at hfile
      · rename_i bytes hentry
        exact h.only x bytes (mem_of_entryAt_file hentry)
      · cases hfile
    · rw [hway] at hfile
      dsimp only at hfile
      split at hfile
      · rename_i bytes
        exact absurd rfl (hfound bytes)
      · cases hfile
  · intro hmem
    obtain ⟨f, hf, rfl⟩ := List.mem_map.mp hmem
    rw [h.find_file hfiles hroot hf]

end Holds

/-- A folder with files in it. -/
def folderAt (place : List String) (files : List TextFile) : Tree :=
  (place, .folder) :: files.map fun f => (place ++ f.names, .file f.text.toUTF8)

/-- **All files that can lie in one folder can be put into one.** -/
theorem holds_folderAt (place : List String) (hfiles : FileSet files) :
    (folderAt place files).Holds place files where
  folder := by
    have hfolder : (folderAt place files).hasFolder place = true :=
      List.any_eq_true.mpr ⟨_, List.mem_cons_self, List.isPrefixOf_iff_prefix.mpr List.prefix_rfl⟩
    refine (entryAt_of_hasFolder hfolder).resolve_right ?_
    rintro ⟨bytes, hentry⟩
    rcases List.mem_cons.mp (mem_of_entryAt_file hentry) with h | h
    · cases (Prod.mk.inj h).2
    · obtain ⟨f, hf, heq⟩ := List.mem_map.mp h
      exact hfiles.named f hf (List.append_right_eq_self.mp (Prod.mk.inj heq).1)
  file f hf := by
    have hplace : ¬ place = place ++ f.names := fun heq =>
      hfiles.named f hf (List.append_right_eq_self.mp heq.symm)
    have hfound : files.find? (fun g => place ++ g.names = place ++ f.names) = some f := by
      cases hfind : files.find? (fun g => place ++ g.names = place ++ f.names) with
      | none => exact absurd (List.find?_eq_none.mp hfind f hf) (by simp)
      | some g =>
        have hnames : place ++ g.names = place ++ f.names := by simpa using List.find?_some hfind
        rw [hfiles.eq_of_names_eq (List.mem_of_find?_eq_some hfind) hf
          (List.append_cancel_left hnames)]
    unfold entryAt folderAt
    rw [List.find?_cons_of_neg (by simpa using hplace), List.find?_map]
    simp only [Function.comp_def]
    rw [hfound]
    rfl
  only names bytes h := by
    rcases List.mem_cons.mp h with h | h
    · cases (Prod.mk.inj h).2
    · obtain ⟨f, hf, heq⟩ := List.mem_map.mp h
      exact List.mem_map.mpr ⟨f, hf, List.append_cancel_left (Prod.mk.inj heq).1⟩
  noDots names h := by
    rcases List.mem_cons.mp h with h | h
    · rw [List.append_cancel_left (h.trans (List.append_nil place).symm)]
      exact List.not_mem_nil
    · rw [List.map_map] at h
      obtain ⟨f, hf, heq⟩ := List.mem_map.mp h
      obtain rfl : f.names = names := List.append_cancel_left heq
      exact fun hdots => (hfiles.plain f hf _ hdots).ne_dots rfl

end Tree

end Files

namespace Workspace

open CallTree.Files
open CallTree.Text (endsWith)

/-! ## What a folder is searched for -/

/-- **A file of code** has the name of one, and lies in no folder that is not looked into. -/
structure IsCode (excluded : List String) (f : TextFile) : Prop where
  suffix : endsWith ".py" (f.names.getLast?.getD "") = true
  looked : f.names.dropLast.any (isExcluded excluded) = false

instance decidableIsCode (excluded : List String) (f : TextFile) : Decidable (IsCode excluded f) :=
  decidable_of_iff (endsWith ".py" (f.names.getLast?.getD "") = true
      ∧ f.names.dropLast.any (isExcluded excluded) = false)
    ⟨fun ⟨h, h'⟩ => ⟨h, h'⟩, fun h => ⟨h.suffix, h.looked⟩⟩

section Searching

variable {tree : Tree} {place : List String} {files : List TextFile} {excluded : List String}
  {root : Path}

/-- What a folder is searched for, before it is sorted. -/
def candidates (tree : Tree) (excluded place : List String) : List (List String) :=
  (tree.below place).filter fun path =>
    endsWith ".py" (path.getLast?.getD "") && !path.dropLast.any (isExcluded excluded)

theorem codePaths_eq (hroot : tree.place root = .ok place)
    (hfolder : tree.entryAt place = .folder) :
    codePaths tree excluded root
      = ((candidates tree excluded place).map root.descend).mergeSort Path.precedes := by
  have hfind : tree.find root = .folder := by
    unfold Tree.find
    rw [hroot]
    exact hfolder
  unfold codePaths
  rw [hfind, hroot]
  rfl

variable (hroot : tree.place root = .ok place) (hholds : tree.Holds place files)
  (hfiles : FileSet files) (hcode : ∀ f ∈ files, IsCode excluded f)

include hroot hholds hfiles hcode

/-- **The paths that are read** are those of the files. -/
theorem mem_codePaths_filter_isFile {p : Path} :
    p ∈ (codePaths tree excluded root).filter tree.isFile
      ↔ p ∈ (byNames files).map fun f => root.descend f.names := by
  rw [codePaths_eq hroot hholds.folder, List.mem_filter, List.mem_mergeSort, List.mem_map,
    List.mem_map]
  constructor
  · rintro ⟨⟨x, hx, rfl⟩, hfile⟩
    have hbelow := (List.mem_filter.mp hx).1
    obtain ⟨f, hf, rfl⟩ := List.mem_map.mp ((hholds.isFile_iff hfiles hroot hbelow).mp hfile)
    exact ⟨f, (perm_byNames files).mem_iff.mpr hf, rfl⟩
  · rintro ⟨f, hf, rfl⟩
    have hf := (perm_byNames files).mem_iff.mp hf
    have hbelow : f.names ∈ tree.below place :=
      Tree.mem_below.mpr ⟨hfiles.named f hf, f.names, List.prefix_rfl, hholds.mem_tree hf⟩
    refine ⟨⟨f.names, List.mem_filter.mpr ⟨hbelow, ?_⟩, rfl⟩, ?_⟩
    · rw [(hcode f hf).suffix, (hcode f hf).looked]
      rfl
    · exact (hholds.isFile_iff hfiles hroot hbelow).mpr (List.mem_map.mpr ⟨f, hf, rfl⟩)

/-- **What a folder is searched for and can be read** are the files that it holds, in the order of
their names. -/
theorem codePaths_filter_isFile :
    (codePaths tree excluded root).filter tree.isFile
      = (byNames files).map fun f => root.descend f.names := by
  have hsorted : ((byNames files).map fun f => root.descend f.names).Pairwise
      fun p q => p.parts ≤ q.parts :=
    List.pairwise_map.mpr ((pairwise_byNames files).imp fun hle =>
      (root.parts_descend_le_iff _ _).mpr hle)
  have hdistinct : ((byNames files).map fun f => root.descend f.names).Nodup := by
    have hnames : files.Pairwise fun f g => root.descend f.names ≠ root.descend g.names :=
      hfiles.apart.imp fun hapart heq => hapart.ne (root.descend_injective heq)
    exact ((perm_byNames files).map _).nodup_iff.mpr (List.pairwise_map.mpr hnames)
  have hfound : ((codePaths tree excluded root).filter tree.isFile).Nodup := by
    rw [codePaths_eq hroot hholds.folder]
    refine List.Nodup.filter _ ((List.mergeSort_perm _ _).nodup_iff.mpr ?_)
    exact ((Tree.nodup_below tree place).filter _).map fun x y => root.descend_injective
  have hfoundSorted : ((codePaths tree excluded root).filter tree.isFile).Pairwise
      fun p q => p.parts ≤ q.parts := by
    rw [codePaths_eq hroot hholds.folder]
    exact (pairwise_mergeSort_namesPrecede Path.parts _).filter _
  refine List.Perm.eq_of_pairwise ?_ hfoundSorted hsorted ?_
  · intro p q hp hq hle hge
    rw [mem_codePaths_filter_isFile hroot hholds hfiles hcode] at hp
    obtain ⟨f, -, rfl⟩ := List.mem_map.mp hp
    obtain ⟨g, -, rfl⟩ := List.mem_map.mp hq
    rw [root.parts_descend_le_iff] at hle hge
    rw [le_antisymm hle hge]
  · exact (List.perm_ext_iff_of_nodup hfound hdistinct).mpr fun p =>
      mem_codePaths_filter_isFile hroot hholds hfiles hcode

end Searching

end Workspace

end CallTree
