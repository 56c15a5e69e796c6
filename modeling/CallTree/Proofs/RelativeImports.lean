import CallTree.Proofs.Lists
import CallTree.Proofs.PathOrder
import CallTree.Workspace.Lookup

/-!
# Relative imports and folders

An import that begins with dots is relative to the folder that the file lies in: one dot is this
folder, and each further dot goes one folder up. The library does not look at folders there. It
goes by the name of the module and by whether the file stands for a package, takes off the last
segments of the name and puts the rest of the import in their place.

The two agree as long as the package that is read off the name (`packageOf`) is the list of the
folders and the dots do not lead out of it. A package is not the list of the folders in two cases:
the file that stands for the outermost folder has a name all the same, and a file whose own name
has a dot seems to lie deeper than it does. And dots that lead out of the package begin again at
its end, so that some of them lead back inside before all of it is used up.
-/

namespace CallTree

/-! ## Names and their segments -/

namespace Text

theorem not_mem_of_mem_pieces {sep : Char} {cs p : List Char} (h : p ∈ pieces sep cs) :
    sep ∉ p := by
  induction cs generalizing p with
  | nil =>
    cases List.mem_singleton.mp h
    exact List.not_mem_nil
  | cons c cs ih =>
    obtain ⟨q, qs, hpieces⟩ := List.exists_cons_of_ne_nil (pieces_ne_nil sep cs)
    rw [pieces, hpieces] at h
    rw [hpieces] at ih
    split at h
    · rcases List.mem_cons.mp h with rfl | h
      · exact List.not_mem_nil
      · exact ih h
    · rename_i hc
      rcases List.mem_cons.mp h with rfl | h
      · exact List.not_mem_cons_of_ne_of_not_mem (Ne.symm hc) (ih List.mem_cons_self)
      · exact ih (List.mem_cons_of_mem _ h)

/-- A name without a dot is its own only segment. -/
theorem segments_of_not_mem {name : String} (h : '.' ∉ name.toList) : segments name = [name] := by
  unfold segments
  rw [Files.pieces_of_not_mem h, List.map_singleton, String.ofList_toList]

/-- So is a segment. -/
theorem segments_of_mem_segments {name part : String} (h : part ∈ segments name) :
    segments part = [part] := by
  obtain ⟨p, hp, rfl⟩ := List.mem_map.mp h
  refine segments_of_not_mem ?_
  rw [String.toList_ofList]
  exact not_mem_of_mem_pieces hp

/-- **The segments of a name that was put together** from names without a dot and one more. -/
theorem segments_dotted_concat {parts : List String} (h : ∀ p ∈ parts, segments p = [p])
    (last : String) : segments (dotted (parts ++ [last])) = parts ++ segments last := by
  induction parts with
  | nil => exact congrArg segments String.intercalate_singleton
  | cons p parts ih =>
    have hrest : parts ++ [last] ≠ [] := List.append_ne_nil_of_right_ne_nil _ (List.cons_ne_nil _ _)
    rw [List.cons_append, dotted, String.intercalate_cons_of_ne_nil hrest, segments_append,
      h p List.mem_cons_self]
    exact congrArg (p :: ·) (ih fun p' hp' => h p' (List.mem_cons_of_mem _ hp'))

theorem segments_dotted {parts : List String} (h : ∀ p ∈ parts, segments p = [p])
    (hne : parts ≠ []) : segments (dotted parts) = parts := by
  have hlast := h _ (List.getLast_mem hne)
  have hinit : ∀ p ∈ parts.dropLast, segments p = [p] := fun p hp =>
    h p (List.dropLast_subset parts hp)
  have hparts := List.dropLast_concat_getLast hne
  rw [← hparts, segments_dotted_concat hinit, hlast]

/-- **Names that were put together are the same** only if their parts are, but for an empty part
that stands alone. -/
theorem dotted_inj_iff {parts parts' : List String} (h : ∀ p ∈ parts, segments p = [p])
    (h' : ∀ p ∈ parts', segments p = [p]) :
    dotted parts = dotted parts'
      ↔ parts = parts' ∨ (parts = [] ∧ parts' = [""]) ∨ (parts = [""] ∧ parts' = []) := by
  constructor
  · intro heq
    have hsegments := congrArg segments heq
    by_cases hnil : parts = []
    · by_cases hnil' : parts' = []
      · exact Or.inl (hnil.trans hnil'.symm)
      · rw [segments_dotted h' hnil', hnil] at hsegments
        exact Or.inr (Or.inl ⟨hnil, hsegments.symm⟩)
    · by_cases hnil' : parts' = []
      · rw [segments_dotted h hnil, hnil'] at hsegments
        exact Or.inr (Or.inr ⟨hsegments, hnil'⟩)
      · rw [segments_dotted h hnil, segments_dotted h' hnil'] at hsegments
        exact Or.inl hsegments
  · rintro (rfl | ⟨rfl, rfl⟩ | ⟨rfl, rfl⟩) <;> rfl

end Text

namespace Workspace

open CallTree.Files (moduleOf? Path)
open CallTree.Text (segments dotted)

/-! ## The package of a file -/

/-- **The package that a file is taken to lie in**, segment by segment: its folders, except that a
file which stands for the outermost folder is its own package, and that of a file's own name all
segments but the last are counted. -/
def packageOf (folders : List String) (file : String) : List String :=
  let stem := (Path.cutName file).1
  if stem = "__init__" then if folders = [] then ["__init__"] else folders
  else folders ++ (segments stem).dropLast

/-- The name of a folder, which has no dot. -/
structure IsFolderName (name : String) : Prop where
  ne_empty : name ≠ ""
  noDot : '.' ∉ name.toList

theorem IsFolderName.segments {name : String} (h : IsFolderName name) :
    segments name = [name] :=
  Text.segments_of_not_mem h.noDot

section Package

variable {folders : List String} {file : String}

/-- The folders come first in the package. -/
theorem prefix_packageOf (folders : List String) (file : String) :
    folders <+: packageOf folders file := by
  unfold packageOf
  dsimp only
  split
  · split
    · rename_i hnil
      rw [hnil]
      exact List.nil_prefix
    · exact List.prefix_refl _
  · exact List.prefix_append _ _

/-- **The package is the list of the folders**, unless the file stands for the outermost folder or
has a dot in its name. -/
theorem packageOf_eq_folders_iff :
    packageOf folders file = folders
      ↔ if (Path.cutName file).1 = "__init__" then folders ≠ []
        else segments (Path.cutName file).1 = [(Path.cutName file).1] := by
  unfold packageOf
  dsimp only
  split
  · split
    · rename_i hnil
      rw [hnil]
      simp
    · rename_i hne
      simp [hne]
  · rw [List.append_right_eq_self]
    constructor
    · intro hnil
      have hparts := List.dropLast_concat_getLast (Text.segments_ne_nil (Path.cutName file).1)
      rw [hnil, List.nil_append] at hparts
      have hname := Text.dotted_segments (Path.cutName file).1
      rw [← hparts, dotted, String.intercalate_singleton] at hname
      rw [← hparts, hname]
    · intro hone
      rw [hone]
      rfl

variable (hfolders : ∀ d ∈ folders, IsFolderName d)
include hfolders

/-- Every part of the package is a segment. -/
theorem segments_of_mem_packageOf : ∀ p ∈ packageOf folders file, segments p = [p] := by
  intro p hp
  unfold packageOf at hp
  dsimp only at hp
  split at hp
  · split at hp
    · cases List.mem_singleton.mp hp
      decide
    · exact (hfolders p hp).segments
  · rcases List.mem_append.mp hp with hp | hp
    · exact (hfolders p hp).segments
    · exact Text.segments_of_mem_segments (List.dropLast_subset _ hp)

/-- Names that begin with those of folders are put together to no empty name. -/
theorem dotted_ne_empty (hne : folders ≠ []) : dotted folders ≠ "" := by
  intro heq
  have hsegments := Text.segments_dotted (fun d hd => (hfolders d hd).segments) hne
  rw [heq] at hsegments
  exact (hfolders "" (hsegments ▸ List.mem_singleton_self "")).ne_empty rfl

omit hfolders in
/-- The module in a file that lies in some folders. -/
theorem moduleOf?_concat (folders : List String) (file : String) :
    moduleOf? { names := folders ++ [file] }
      = let stem := (Path.cutName file).1
        let name := dotted (if stem = "__init__" then folders else folders ++ [stem])
        some (if name = "" then "__init__" else name, decide (stem = "__init__")) := by
  unfold moduleOf? Path.withoutSuffix? Path.parts
  simp

/-- **The package is read off the name of the module**, and off whether the file stands for a
package. -/
theorem package_of_moduleOf? {moduleName : String} {isPackage : Bool}
    (h : moduleOf? { names := folders ++ [file] } = some (moduleName, isPackage)) :
    moduleName ≠ ""
      ∧ (if isPackage then segments moduleName else (segments moduleName).dropLast)
        = packageOf folders file := by
  have hsegments : ∀ d ∈ folders, segments d = [d] := fun d hd => (hfolders d hd).segments
  rw [moduleOf?_concat] at h
  dsimp only at h
  unfold packageOf
  dsimp only
  generalize (Path.cutName file).1 = stem at h ⊢
  obtain ⟨rfl, rfl⟩ := Prod.mk.inj (Option.some.inj h)
  by_cases hstem : stem = "__init__"
  · rw [if_pos hstem, if_pos hstem, decide_eq_true hstem]
    by_cases hnil : folders = []
    · subst hnil
      decide
    · rw [if_neg (dotted_ne_empty hfolders hnil), if_neg hnil]
      exact ⟨dotted_ne_empty hfolders hnil, Text.segments_dotted hsegments hnil⟩
  · rw [if_neg hstem, if_neg hstem, decide_eq_false hstem, if_neg Bool.false_ne_true]
    have hparts := Text.segments_dotted_concat hsegments stem
    split
    · -- a name that is empty altogether has no folders, and leaves nothing of the package
      rename_i hempty
      rw [hempty] at hparts
      refine ⟨by decide, ?_⟩
      rw [← List.dropLast_append_of_ne_nil (Text.segments_ne_nil stem), ← hparts]
      decide
    · rename_i hne
      refine ⟨hne, ?_⟩
      rw [hparts, List.dropLast_append_of_ne_nil (Text.segments_ne_nil stem)]

end Package

/-! ## Going up -/

/-- The rest of an import after its dots, as a part of a name. -/
def restPart (rest : String) : List String := if rest.isEmpty then [] else [rest]

/-- **An import that begins with dots.** -/
def relativeImport (dots : Nat) (rest : String) : String :=
  String.ofList (List.replicate dots '.') ++ rest

/-- **Where a relative import leads by the folders**: one dot is the folder that the file lies in,
each further one goes one folder up, and past the outermost one there is nothing to go up from. -/
def alongFolders (folders : List String) (dots : Nat) (rest : String) : String :=
  dotted (folders.take (folders.length - (dots - 1)) ++ restPart rest)

/-- How much of a package is left when more or less than all of it is taken away. -/
def leftOf (size up : Nat) : Nat := if up ≤ size then size - up else size - (up - size)

theorem leftOf_le (size up : Nat) : leftOf size up ≤ size := by
  unfold leftOf
  split <;> omega

theorem takeAllBut_eq_take (up : Nat) (items : List String) :
    takeAllBut up items = items.take (leftOf items.length up) := by
  unfold takeAllBut leftOf
  split <;> rfl

/-- As much is left of a package as there should be left of its first part, if that is all of it
and not more than all is taken away; or if just all is taken away, or twice as much. -/
theorem leftOf_eq_iff {size first up : Nat} (h : first ≤ size) :
    leftOf size up = first - up ↔ (size = first ∧ up ≤ first) ∨ up = size ∨ 2 * size ≤ up := by
  unfold leftOf
  split <;> omega

section Going

variable {dots : Nat} {rest : String}

/-- **What a relative import means in a module**: the rest of it, after what is left of the
package. -/
theorem absoluteTarget_relativeImport {index : ModuleIndex} {package : List String}
    (hname : index.moduleName ≠ "")
    (hpackage : (if index.isPackage then segments index.moduleName
      else (segments index.moduleName).dropLast) = package)
    (hdots : 1 ≤ dots) (hrest : rest.toList.head? ≠ some '.') :
    index.absoluteTarget (relativeImport dots rest)
      = dotted (takeAllBut (dots - 1) package ++ restPart rest) := by
  have htext : (relativeImport dots rest).toList = List.replicate dots '.' ++ rest.toList := by
    unfold relativeImport
    rw [String.toList_append, String.toList_ofList]
  have hstart : rest.toList.takeWhile (· = '.') = [] := by
    cases hchars : rest.toList with
    | nil => rfl
    | cons c cs =>
      rw [hchars] at hrest
      exact List.takeWhile_cons_of_neg (by simpa using hrest)
  have hcount : ((relativeImport dots rest).toList.takeWhile (· = '.')).length = dots := by
    rw [htext, List.takeWhile_append_of_pos (by simp), hstart, List.append_nil,
      List.length_replicate]
  have hdrop : String.ofList ((relativeImport dots rest).toList.drop dots) = rest := by
    rw [htext, List.drop_left' List.length_replicate, String.ofList_toList]
  have hnames : (if index.moduleName.isEmpty then [] else segments index.moduleName)
      = segments index.moduleName := if_neg (by simpa using hname)
  unfold ModuleIndex.absoluteTarget
  dsimp only
  rw [hcount, if_neg (by omega), hdrop, hnames, hpackage]
  split
  · rfl
  · have hone : dots - 1 = 0 := by omega
    rw [hone, takeAllBut_eq_take, leftOf, if_pos (Nat.zero_le _), Nat.sub_zero, List.take_length]
    rfl

/-- **The rest after two lists of segments**: the names are the same only if the segments are, but
for an empty segment that stands alone. -/
theorem dotted_append_restPart_iff {parts parts' : List String}
    (h : ∀ p ∈ parts, segments p = [p]) (h' : ∀ p ∈ parts', segments p = [p])
    (hne : parts' ≠ [""]) (rest : String) :
    dotted (parts ++ restPart rest) = dotted (parts' ++ restPart rest)
      ↔ parts = parts' ∨ (rest = "" ∧ parts = [""] ∧ parts' = []) := by
  unfold restPart
  by_cases hrest : rest = ""
  · rw [hrest, if_pos (by decide), List.append_nil, List.append_nil, Text.dotted_inj_iff h h']
    simp [hne]
  · rw [if_neg (by simpa using hrest)]
    simp only [hrest, false_and, or_false]
    constructor
    · intro heq
      have hsegments := congrArg segments heq
      rw [Text.segments_dotted_concat h, Text.segments_dotted_concat h'] at hsegments
      exact List.append_cancel_right hsegments
    · rintro rfl
      rfl

/-- **When as much is left of the package as of the folders.** -/
theorem takeAllBut_packageOf_eq_iff (folders : List String) (file : String) (up : Nat) :
    takeAllBut up (packageOf folders file) = folders.take (folders.length - up)
      ↔ (packageOf folders file = folders ∧ up ≤ folders.length)
        ∨ up = (packageOf folders file).length ∨ 2 * (packageOf folders file).length ≤ up := by
  have hfirst := prefix_packageOf folders file
  have hlength : (packageOf folders file).length = folders.length
      ↔ packageOf folders file = folders :=
    ⟨fun h => (hfirst.eq_of_length h.symm).symm, congrArg List.length⟩
  rw [takeAllBut_eq_take, take_eq_take_prefix_iff hfirst (leftOf_le _ _) (Nat.sub_le _ _),
    leftOf_eq_iff hfirst.length_le, hlength]

/-- If nothing but an empty segment is left of the package, there are no folders. -/
theorem folders_eq_nil {folders : List String} {file : String}
    (hfolders : ∀ d ∈ folders, IsFolderName d) {count : Nat}
    (h : (packageOf folders file).take count = [""]) : folders = [] := by
  cases folders with
  | nil => rfl
  | cons d folders =>
    obtain ⟨more, hmore⟩ := prefix_packageOf (d :: folders) file
    rw [← hmore, List.cons_append] at h
    cases count with
    | zero => cases h
    | succ count => exact absurd (List.cons.inj h).1 (hfolders d List.mem_cons_self).ne_empty

end Going

/-- **When a relative import follows the folders.** Of a file in some folders and an import with
some dots, what the import means is what the folders say exactly in these cases: the package that
is read off the name of the module is the list of the folders and there are no more dots than lead
to the outermost of them; just one dot more than there are segments in the package; more than twice
as many dots as segments. (An empty segment that stands alone makes no difference either.) The
package is the list of the folders unless the file stands for the outermost folder or has a dot in
its name. In any case, what is left of the package is the part that is counted by `leftOf`. -/
theorem relative_import_follows_folders_iff (index : ModuleIndex) (folders : List String)
    (file rest : String) (dots : Nat) (hfolders : ∀ d ∈ folders, IsFolderName d)
    (hmodule : moduleOf? { names := folders ++ [file] }
      = some (index.moduleName, index.isPackage))
    (hdots : 1 ≤ dots) (hrest : rest.toList.head? ≠ some '.') :
    (index.absoluteTarget (relativeImport dots rest) = alongFolders folders dots rest
        ↔ (packageOf folders file = folders ∧ dots ≤ folders.length + 1)
          ∨ dots = (packageOf folders file).length + 1
          ∨ 2 * (packageOf folders file).length < dots
          ∨ (rest = "" ∧ takeAllBut (dots - 1) (packageOf folders file) = [""]))
      ∧ (packageOf folders file = folders
        ↔ if (Path.cutName file).1 = "__init__" then folders ≠ []
          else segments (Path.cutName file).1 = [(Path.cutName file).1])
      ∧ index.absoluteTarget (relativeImport dots rest)
        = dotted ((packageOf folders file).take (leftOf (packageOf folders file).length (dots - 1))
          ++ restPart rest) := by
  obtain ⟨hname, hpackage⟩ := package_of_moduleOf? hfolders hmodule
  have htarget := absoluteTarget_relativeImport hname hpackage hdots hrest
  refine ⟨?_, packageOf_eq_folders_iff, by rw [htarget, takeAllBut_eq_take]⟩
  have hempty : "" ∉ folders := fun hmem => (hfolders "" hmem).ne_empty rfl
  have hne : folders.take (folders.length - (dots - 1)) ≠ [""] := fun heq =>
    hempty (List.mem_of_mem_take (heq ▸ List.mem_singleton_self ""))
  have hleft : ∀ p ∈ takeAllBut (dots - 1) (packageOf folders file), segments p = [p] := by
    rw [takeAllBut_eq_take]
    exact fun p hp => segments_of_mem_packageOf hfolders p (List.mem_of_mem_take hp)
  rw [htarget, alongFolders, dotted_append_restPart_iff hleft
    (fun p hp => (hfolders p (List.mem_of_mem_take hp)).segments) hne,
    takeAllBut_packageOf_eq_iff]
  have hnone : takeAllBut (dots - 1) (packageOf folders file) = [""] →
      folders.take (folders.length - (dots - 1)) = [] := by
    intro h
    rw [takeAllBut_eq_take] at h
    rw [folders_eq_nil hfolders h, List.take_nil]
  have hcount : (dots - 1 ≤ folders.length ↔ dots ≤ folders.length + 1)
      ∧ (dots - 1 = (packageOf folders file).length ↔ dots = (packageOf folders file).length + 1)
      ∧ (2 * (packageOf folders file).length ≤ dots - 1
        ↔ 2 * (packageOf folders file).length < dots) := by
    omega
  rw [hcount.1, hcount.2.1, hcount.2.2, and_iff_left_of_imp hnone, or_assoc, or_assoc]

/-- A file two folders down. -/
def deepModule : ModuleIndex where
  moduleName := "a.b.c"
  isPackage := false

instance decidableIsFolderName (name : String) : Decidable (IsFolderName name) :=
  decidable_of_iff (name ≠ "" ∧ '.' ∉ name.toList)
    ⟨fun h => ⟨h.1, h.2⟩, fun h => ⟨h.ne_empty, h.noDot⟩⟩

/-- Two dots lead one folder up, three lead out of the outermost folder, and with four the import
is back inside. -/
theorem relative_import_follows_folders_iff_deepModule :
    moduleOf? { names := ["a", "b"] ++ ["c.py"] }
        = some (deepModule.moduleName, deepModule.isPackage)
      ∧ deepModule.absoluteTarget (relativeImport 2 "f") = alongFolders ["a", "b"] 2 "f"
      ∧ deepModule.absoluteTarget (relativeImport 3 "f") = alongFolders ["a", "b"] 3 "f"
      ∧ deepModule.absoluteTarget (relativeImport 4 "f") ≠ alongFolders ["a", "b"] 4 "f" := by
  have hmodule : moduleOf? { names := ["a", "b"] ++ ["c.py"] }
      = some (deepModule.moduleName, deepModule.isPackage) := by decide
  have hlaw := fun dots hdots => (relative_import_follows_folders_iff deepModule ["a", "b"] "c.py"
    "f" dots (by decide) hmodule hdots (by decide)).1
  exact ⟨hmodule, (hlaw 2 (by decide)).mpr (by decide), (hlaw 3 (by decide)).mpr (by decide),
    fun h => absurd ((hlaw 4 (by decide)).mp h) (by decide)⟩

/-- **Where an import does not follow the folders**: four dots in a file two folders down should
lead out of both of them and lead into the first; and one dot in the file that stands for the
outermost folder should be that folder. -/
theorem relative_import_leads_back_inside :
    moduleOf? { names := ["a", "b", "c.py"] } = some ("a.b.c", false)
      ∧ ModuleIndex.absoluteTarget ⟨"a.b.c", false, .empty, [], .empty, .empty⟩ "....f" = "a.f"
      ∧ alongFolders ["a", "b"] 4 "f" = "f"
      ∧ moduleOf? { names := ["__init__.py"] } = some ("__init__", true)
      ∧ ModuleIndex.absoluteTarget ⟨"__init__", true, .empty, [], .empty, .empty⟩ ".f"
        = "__init__.f"
      ∧ alongFolders [] 1 "f" = "f" := by
  decide

end Workspace

end CallTree
