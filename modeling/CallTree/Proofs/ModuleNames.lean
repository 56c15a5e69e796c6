import CallTree.Proofs.RelativeImports

/-!
# Files that share the name of a module

The name of a module is read off the path of its file. The suffix is cut off, a last name `__init__`
is left out because such a file stands for the folder it lies in, and the names that are left are
put together with dots. Of the file that stands for the outermost folder no name is left, and its
module is called `__init__` after all.

A file can be told from the name of its module in all but two cases (`module_names_meet_iff`): a
file may have the name of a folder beside it that is a package, and the outermost folder is called
like a folder `__init__` in it. The names that are put together (`moduleParts`) can be read off the
dotted name again, so the question is only which files have the same ones.
-/

namespace CallTree.Files

open CallTree.Text (segments dotted)
open CallTree.Workspace (IsFolderName dotted_ne_empty moduleOf?_concat)

/-- The file of code with this name in some folders. -/
def codeFile (folders : List String) (stem : String) : Path where
  names := folders ++ [stem ++ ".py"]

/-- **A file of code with plain names**: a relative path whose last name has the suffix of code, and
whose names, apart from this suffix, are not empty and have no dot. -/
structure Path.IsCode (p : Path) : Prop where
  relative : p.root = ""
  named : ∃ folders stem, p.names = folders ++ [stem ++ ".py"]
    ∧ ∀ name ∈ folders ++ [stem], IsFolderName name

theorem Path.IsCode.exists_eq {p : Path} (h : p.IsCode) :
    ∃ folders stem, p = codeFile folders stem
      ∧ (∀ name ∈ folders, IsFolderName name) ∧ IsFolderName stem := by
  obtain ⟨root, names⟩ := p
  obtain ⟨rfl, folders, stem, rfl, hnames⟩ := h
  refine ⟨folders, stem, rfl, fun name hname => hnames name (List.mem_append_left _ hname), ?_⟩
  exact hnames stem (List.mem_append_right _ (List.mem_singleton_self stem))

theorem isCode_codeFile {folders : List String} {stem : String}
    (h : ∀ name ∈ folders ++ [stem], IsFolderName name) : (codeFile folders stem).IsCode :=
  ⟨rfl, folders, stem, rfl, h⟩

theorem codeFile_inj {folders folders' : List String} {stem stem' : String} :
    codeFile folders stem = codeFile folders' stem' ↔ folders = folders' ∧ stem = stem' := by
  constructor
  · intro h
    obtain ⟨hfolders, hlast⟩ := List.append_inj' (Path.mk.inj h).2 rfl
    exact ⟨hfolders, (String.append_left_inj _).mp (List.singleton_inj.mp hlast)⟩
  · rintro ⟨rfl, rfl⟩
    rfl

/-- The suffix of code is cut off. -/
theorem Path.cutName_code {stem : String} (h : stem ≠ "") :
    cutName (stem ++ ".py") = (stem, ".py") := by
  have hne : stem.toList ≠ [] := mt String.toList_eq_nil_iff.mp h
  unfold cutName
  rw [String.toList_append]
  simp [hne]

/-! ## The parts of a name -/

/-- **What the name of a module is put together of**: the names on the way to its file. A file that
stands for its folder has the names of the folder, unless that is the outermost one. -/
def moduleParts (folders : List String) (stem : String) : List String :=
  if stem = "__init__" then if folders = [] then ["__init__"] else folders else folders ++ [stem]

section Parts

variable {folders folders' : List String} {stem stem' : String}

theorem moduleParts_ne_nil : moduleParts folders stem ≠ [] := by
  unfold moduleParts
  split
  · split
    · exact List.cons_ne_nil _ _
    · assumption
  · exact List.append_ne_nil_of_right_ne_nil _ (List.cons_ne_nil _ _)

/-- **The name of the module in a file of code** is put together of its parts. -/
theorem moduleOf?_codeFile (hfolders : ∀ name ∈ folders, IsFolderName name)
    (hstem : IsFolderName stem) :
    (moduleOf? (codeFile folders stem)).map (·.1) = some (dotted (moduleParts folders stem)) := by
  rw [codeFile, moduleOf?_concat, Path.cutName_code hstem.ne_empty, Option.map_some]
  dsimp only
  refine congrArg some ?_
  unfold moduleParts
  by_cases hpackage : stem = "__init__"
  · rw [if_pos hpackage, if_pos hpackage]
    by_cases hnil : folders = []
    · rw [if_pos hnil, hnil]
      rfl
    · rw [if_neg hnil, if_neg (dotted_ne_empty hfolders hnil)]
  · rw [if_neg hpackage, if_neg hpackage]
    refine if_neg (dotted_ne_empty (fun name hname => ?_) ?_)
    · rcases List.mem_append.mp hname with hname | hname
      · exact hfolders name hname
      · exact List.mem_singleton.mp hname ▸ hstem
    · exact List.append_ne_nil_of_right_ne_nil _ (List.cons_ne_nil _ _)

theorem segments_of_mem_moduleParts (hfolders : ∀ name ∈ folders, IsFolderName name)
    (hstem : IsFolderName stem) : ∀ part ∈ moduleParts folders stem, segments part = [part] := by
  intro part hpart
  unfold moduleParts at hpart
  split at hpart
  · split at hpart
    · cases List.mem_singleton.mp hpart
      decide
    · exact (hfolders part hpart).segments
  · rcases List.mem_append.mp hpart with hpart | hpart
    · exact (hfolders part hpart).segments
    · exact List.mem_singleton.mp hpart ▸ hstem.segments

/-- **Two files that name one module**: a file and one that stands for the folder of the same name
beside it, or the file that stands for the outermost folder and one that stands for a folder
`__init__` in it. -/
inductive Twins : Path → Path → Prop
  | package (folders : List String) {stem : String} (h : stem ≠ "__init__") :
    Twins (codeFile folders stem) (codeFile (folders ++ [stem]) "__init__")
  | outermost : Twins (codeFile [] "__init__") (codeFile ["__init__"] "__init__")

/-- Twins have the same parts. -/
theorem Twins.moduleParts_eq (h : Twins (codeFile folders stem) (codeFile folders' stem')) :
    moduleParts folders stem = moduleParts folders' stem' := by
  generalize hp : codeFile folders stem = p at h
  generalize hq : codeFile folders' stem' = q at h
  cases h with
  | package folders hstem =>
    obtain ⟨rfl, rfl⟩ := codeFile_inj.mp hp
    obtain ⟨rfl, rfl⟩ := codeFile_inj.mp hq
    simp [moduleParts, hstem]
  | outermost =>
    obtain ⟨rfl, rfl⟩ := codeFile_inj.mp hp
    obtain ⟨rfl, rfl⟩ := codeFile_inj.mp hq
    decide

/-- A package is the twin of a file that is no package, if they have the same parts. -/
theorem twins_of_package (hstem : stem ≠ "__init__")
    (h : moduleParts folders stem = moduleParts folders' "__init__") :
    Twins (codeFile folders stem) (codeFile folders' "__init__") := by
  unfold moduleParts at h
  rw [if_neg hstem, if_pos rfl] at h
  by_cases hnil : folders' = []
  · -- the only part of the outermost folder is its name, which is not that of the file
    rw [if_pos hnil] at h
    have hlast : folders ++ [stem] = [] ++ ["__init__"] := h
    exact absurd (List.singleton_inj.mp (List.append_inj' hlast rfl).2) hstem
  · rw [if_neg hnil] at h
    exact h ▸ .package folders hstem

/-- **Files with the same parts** are the same or twins. -/
theorem eq_or_twins_of_moduleParts (h : moduleParts folders stem = moduleParts folders' stem') :
    codeFile folders stem = codeFile folders' stem'
      ∨ Twins (codeFile folders stem) (codeFile folders' stem')
      ∨ Twins (codeFile folders' stem') (codeFile folders stem) := by
  by_cases hstem : stem = "__init__" <;> by_cases hstem' : stem' = "__init__"
  · -- two packages are the same unless one of them is the outermost folder
    subst hstem hstem'
    unfold moduleParts at h
    rw [if_pos rfl, if_pos rfl] at h
    by_cases hnil : folders = [] <;> by_cases hnil' : folders' = []
    · rw [hnil, hnil']
      exact .inl rfl
    · rw [if_pos hnil, if_neg hnil'] at h
      subst hnil h
      exact .inr (.inl .outermost)
    · rw [if_neg hnil, if_pos hnil'] at h
      subst hnil' h
      exact .inr (.inr .outermost)
    · rw [if_neg hnil, if_neg hnil'] at h
      exact .inl (codeFile_inj.mpr ⟨h, rfl⟩)
  · subst hstem
    exact .inr (.inr (twins_of_package hstem' h.symm))
  · subst hstem'
    exact .inr (.inl (twins_of_package hstem h))
  · unfold moduleParts at h
    rw [if_neg hstem, if_neg hstem'] at h
    obtain ⟨hfolders, hlast⟩ := List.append_inj' h rfl
    exact .inl (codeFile_inj.mpr ⟨hfolders, List.singleton_inj.mp hlast⟩)

end Parts

/-- Two files whose modules have one name. -/
def SameModule (p q : Path) : Prop :=
  ∃ name, (moduleOf? p).map (·.1) = some name ∧ (moduleOf? q).map (·.1) = some name

/-- **When the modules of two files have one name.** Different files of code with plain names have
modules of the same name exactly if one of them is `s.py` and the other one `s/__init__.py`, where
the last name of `s` is not `__init__`, or they are `__init__.py` and `__init__/__init__.py`. -/
theorem module_names_meet_iff (p q : Path) (hp : p.IsCode) (hq : q.IsCode) (hne : p ≠ q) :
    SameModule p q ↔ Twins p q ∨ Twins q p := by
  obtain ⟨folders, stem, rfl, hfolders, hstem⟩ := hp.exists_eq
  obtain ⟨folders', stem', rfl, hfolders', hstem'⟩ := hq.exists_eq
  unfold SameModule
  rw [moduleOf?_codeFile hfolders hstem, moduleOf?_codeFile hfolders' hstem']
  constructor
  · rintro ⟨name, hname, hname'⟩
    have hparts := congrArg segments (Option.some.inj (hname.trans hname'.symm))
    rw [Text.segments_dotted (segments_of_mem_moduleParts hfolders hstem) moduleParts_ne_nil,
      Text.segments_dotted (segments_of_mem_moduleParts hfolders' hstem') moduleParts_ne_nil]
      at hparts
    exact (eq_or_twins_of_moduleParts hparts).resolve_left hne
  · intro htwins
    have hparts : moduleParts folders stem = moduleParts folders' stem' :=
      htwins.elim Twins.moduleParts_eq fun h => h.moduleParts_eq.symm
    exact ⟨_, rfl, by rw [hparts]⟩

/-- A file and a package beside it have one name, and so have the outermost folder and the folder
`__init__` in it. Further down, such a folder has a name of its own. -/
theorem module_names_meet_iff_packages :
    (codeFile ["shop"] "orders").IsCode ∧ (codeFile ["shop", "orders"] "__init__").IsCode
      ∧ SameModule (codeFile ["shop"] "orders") (codeFile ["shop", "orders"] "__init__")
      ∧ SameModule (codeFile [] "__init__") (codeFile ["__init__"] "__init__")
      ∧ ¬ SameModule (codeFile ["shop"] "__init__") (codeFile ["shop", "__init__"] "__init__") := by
  have hlaw {folders folders' : List String} {stem stem' : String}
      (h : ∀ name ∈ folders ++ [stem], IsFolderName name)
      (h' : ∀ name ∈ folders' ++ [stem'], IsFolderName name) :=
    module_names_meet_iff _ _ (isCode_codeFile h) (isCode_codeFile h')
  refine ⟨isCode_codeFile (by decide), isCode_codeFile (by decide),
    (hlaw (by decide) (by decide) (by decide)).mpr (.inl (.package ["shop"] (by decide))),
    (hlaw (by decide) (by decide) (by decide)).mpr (.inl .outermost), fun hsame => ?_⟩
  rcases (hlaw (by decide) (by decide) (by decide)).mp hsame with htwins | htwins
  · exact absurd htwins.moduleParts_eq (by decide)
  · exact absurd htwins.moduleParts_eq (by decide)

end CallTree.Files
