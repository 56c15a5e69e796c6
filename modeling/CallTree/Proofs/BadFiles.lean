import CallTree.Proofs.FolderFiles
import CallTree.Proofs.ReadableText

/-!
# Files that are no text

Opening a directory goes through its files of code, and each of them is indexed as if it were the
only one. Two things follow. What opening comes to can be said of the files one by one: it ends at
the first in which a name cannot be decoded, and a file that is a text has none (`took_openPath`).
And where it does not end early, a file makes no difference to what the others bring, except under
the names that it brings itself (`Agree.indexAll_filter`).

The order of the files is that of their paths, so a directory is opened alike whatever order its
entries are listed in (`units_eq_filter`).
-/

namespace CallTree

open CallTree.Data (Table)
open CallTree.Files (Path Tree moduleOf?)
open CallTree.Syntax (Source)
open CallTree.Text (endsWith)
open CallTree.Text.Utf8 (Defect)

namespace Data.Table

/-- What was put in under other names makes no difference. -/
theorem get?_putAll_of_not_mem {α : Type} {table other : Table α} {name : String}
    (h : name ∉ other.names) : (table.putAll other).get? name = table.get? name := by
  have hnone : Table.get? other.reverse name = none := by
    refine Option.map_eq_none_iff.mpr (List.find?_eq_none.mpr fun entry hentry heq => ?_)
    exact h (List.mem_map.mpr ⟨entry, List.mem_reverse.mp hentry, of_decide_eq_true heq⟩)
  rw [get?_putAll, hnone, Option.none_or]

end Data.Table

namespace Text.Utf8

instance decidableIsText (bytes : List UInt8) : Decidable (IsText bytes) :=
  decidable_of_iff ((decode bytes).toOption.isSome = true) (by
    unfold IsText
    cases decode bytes with
    | error defect => exact ⟨nofun, nofun⟩
    | ok text => exact ⟨fun _ => ⟨text, rfl⟩, fun _ => rfl⟩)

end Text.Utf8

namespace Files

/-- A path with a name names a module. -/
theorem exists_moduleOf? {p : Path} (h : p.names ≠ []) : ∃ named, moduleOf? p = some named := by
  unfold moduleOf? Path.withoutSuffix?
  rw [List.getLast?_eq_some_getLast h]
  exact ⟨_, rfl⟩

end Files

namespace Workspace

/-! ## The files of code that are opened -/

/-- **A file of code as it is opened**, with whether it stands for its package. -/
structure CodeUnit where
  file : CodeFile
  isPackage : Bool

namespace CodeUnit

/-- What the file brings. -/
def outline (u : CodeUnit) : Indexing := u.file.outline u.isPackage

/-- Whether the bytes of the file are a text. -/
def IsText (u : CodeUnit) : Prop := Text.Utf8.IsText u.file.source.bytes.toList

instance decidableIsText (u : CodeUnit) : Decidable u.IsText :=
  inferInstanceAs (Decidable (Text.Utf8.IsText _))

/-- The file of code at a path, as far as it can be read; its module is named from a base on. -/
def at? (tree : Tree) (base path : Path) : Option CodeUnit :=
  (tree.read path).toOption.bind fun bytes =>
    (moduleOf? { names := path.names.drop base.names.length }).map fun named =>
      ⟨⟨path, named.1, ⟨bytes⟩, Source.tree ⟨bytes⟩⟩, named.2⟩

theorem of_at? {tree : Tree} {base path : Path} {u : CodeUnit} (h : at? tree base path = some u) :
    u.file.path = path ∧ u.file.tree = u.file.source.tree := by
  unfold at? at h
  obtain ⟨bytes, -, h⟩ := Option.bind_eq_some_iff.mp h
  obtain ⟨named, -, rfl⟩ := Option.map_eq_some_iff.mp h
  exact ⟨rfl, rfl⟩

end CodeUnit

/-- Whether there is anything at a path. -/
def isThere (tree : Tree) (root : Path) : Bool := tree.isFolder root || tree.isFile root

/-- Where the names of the modules begin. -/
def baseOf (tree : Tree) (root : Path) : Path := if tree.isFile root then root.parent else root

/-- **The files of code that are opened from a path**, in order. -/
def units (tree : Tree) (excluded : List String) (root : Path) : List CodeUnit :=
  (codePaths tree excluded root).filterMap (CodeUnit.at? tree (baseOf tree root))

section Finding

variable {tree : Tree} {excluded : List String} {root : Path}

theorem codePaths_of_isFile (h : tree.isFile root = true) :
    codePaths tree excluded root = if root.suffix = ".py" then [root] else [] := by
  unfold Tree.isFile at h
  unfold codePaths
  split
  · rfl
  · rename_i hnone
    split at h
    · rename_i bytes hfile
      exact absurd hfile (hnone bytes)
    · cases h

/-- What is found from anything but a file is below it. -/
theorem codePaths_of_not_isFile (excluded : List String) (h : tree.isFile root = false) :
    codePaths tree excluded root = [] ∨ ∃ place, codePaths tree excluded root
      = ((candidates tree excluded place).map root.descend).mergeSort Path.precedes := by
  unfold Tree.isFile at h
  unfold codePaths
  split
  · rename_i bytes hfile
    rw [hfile] at h
    cases h
  · split
    · rename_i place _
      exact .inr ⟨place, rfl⟩
    · exact .inl rfl

/-- **Each path is found once**, and in order. -/
theorem pairwise_codePaths (tree : Tree) (excluded : List String) (root : Path) :
    (codePaths tree excluded root).Pairwise fun p q => p.parts < q.parts := by
  cases hfile : tree.isFile root with
  | true =>
    rw [codePaths_of_isFile hfile]
    split
    · exact List.pairwise_singleton _ root
    · exact List.Pairwise.nil
  | false =>
    rcases codePaths_of_not_isFile excluded hfile with hnone | ⟨place, hfound⟩
    · rw [hnone]
      exact List.Pairwise.nil
    · rw [hfound]
      have hsorted := Files.pairwise_mergeSort_namesPrecede Path.parts
        ((candidates tree excluded place).map root.descend)
      have hnodup : (((candidates tree excluded place).map root.descend).mergeSort
          Path.precedes).Nodup := by
        refine (List.mergeSort_perm _ _).nodup_iff.mpr ?_
        exact ((Tree.nodup_below tree place).filter _).map fun x y => root.descend_injective
      refine (hsorted.and hnodup).imp_of_mem fun {p q} hp hq hpq => lt_of_le_of_ne hpq.1 ?_
      obtain ⟨x, -, rfl⟩ := List.mem_map.mp (List.mem_mergeSort.mp hp)
      obtain ⟨y, -, rfl⟩ := List.mem_map.mp (List.mem_mergeSort.mp hq)
      intro heq
      have hxy : x = y := le_antisymm ((root.parts_descend_le_iff x y).mp heq.le)
        ((root.parts_descend_le_iff y x).mp heq.ge)
      exact hpq.2 (congrArg root.descend hxy)

/-- Whatever is found has a name, from the base on. -/
theorem named_of_mem_codePaths {p : Path} (h : p ∈ codePaths tree excluded root) :
    p.names.drop (baseOf tree root).names.length ≠ [] := by
  unfold baseOf
  cases hfile : tree.isFile root with
  | true =>
    rw [codePaths_of_isFile hfile] at h
    split at h
    · rename_i hsuffix
      obtain rfl := List.mem_singleton.mp h
      have hne : p.names ≠ [] := by
        intro hnil
        unfold Path.suffix Path.name at hsuffix
        rw [hnil] at hsuffix
        revert hsuffix
        decide
      have hlength := List.length_pos_iff.mpr hne
      rw [if_pos rfl, Path.parent, List.length_dropLast, ← List.length_pos_iff, List.length_drop]
      omega
    · exact absurd h List.not_mem_nil
  | false =>
    rcases codePaths_of_not_isFile excluded hfile with hnone | ⟨place, hfound⟩
    · rw [hnone] at h
      exact absurd h List.not_mem_nil
    · rw [hfound] at h
      obtain ⟨x, hx, rfl⟩ := List.mem_map.mp (List.mem_mergeSort.mp h)
      have hdrop : (root.descend x).names.drop root.names.length = x := List.drop_left' rfl
      rw [if_neg Bool.false_ne_true, hdrop]
      exact (Tree.mem_below.mp (List.mem_filter.mp hx).1).1

theorem tree_of_mem_units {u : CodeUnit} (h : u ∈ units tree excluded root) :
    u.file.tree = u.file.source.tree := by
  obtain ⟨p, -, hu⟩ := List.mem_filterMap.mp h
  exact (CodeUnit.of_at? hu).2

theorem pairwise_units (tree : Tree) (excluded : List String) (root : Path) :
    (units tree excluded root).Pairwise fun u v => u.file.path.parts < v.file.path.parts := by
  refine (pairwise_codePaths tree excluded root).filterMap _ fun p q hpq u hu v hv => ?_
  rw [(CodeUnit.of_at? hu).1, (CodeUnit.of_at? hv).1]
  exact hpq

/-- **The files are opened in the same order**, wherever there are the same. -/
theorem units_eq_filter {tree' : Tree} {keep : CodeUnit → Bool}
    (h : ∀ u, u ∈ units tree' excluded root ↔ u ∈ units tree excluded root ∧ keep u = true) :
    units tree' excluded root = (units tree excluded root).filter keep := by
  -- The paths rise strictly, so both lists are known by their members.
  have hsorted' := pairwise_units tree' excluded root
  have hsorted := (pairwise_units tree excluded root).filter keep
  have hirrefl : ∀ us : List CodeUnit,
      us.Pairwise (fun u v => u.file.path.parts < v.file.path.parts) → us.Nodup := by
    intro us hus
    refine hus.imp fun hlt heq => ?_
    rw [heq] at hlt
    exact lt_irrefl _ hlt
  have hperm : (units tree' excluded root).Perm ((units tree excluded root).filter keep) :=
    (List.perm_ext_iff_of_nodup (hirrefl _ hsorted') (hirrefl _ hsorted)).mpr fun u => by
      rw [h, List.mem_filter]
  exact hperm.eq_of_pairwise (fun u v _ _ huv hvu => absurd hvu (lt_asymm huv)) hsorted' hsorted

end Finding

/-! ## Going through the files -/

/-- The workspace after some files were indexed. -/
def indexAll (ws : Workspace) (us : List CodeUnit) : Workspace :=
  us.foldl (fun ws u => (ws.index u.file u.isPackage).1) ws

/-- The files that are reached: those up to one in which something cannot be decoded. -/
def reached : List CodeUnit → List CodeUnit
  | [] => []
  | u :: us => u :: if u.outline.defect.isSome then [] else reached us

/-- The first thing that cannot be decoded in some files. -/
def firstDefect (us : List CodeUnit) : Option Defect := us.findSome? fun u => u.outline.defect

theorem firstDefect_eq_none_iff {us : List CodeUnit} :
    firstDefect us = none ↔ ∀ u ∈ us, u.outline.defect = none :=
  List.findSome?_eq_none_iff

theorem reached_eq {us : List CodeUnit} (h : firstDefect us = none) : reached us = us := by
  induction us with
  | nil => rfl
  | cons u us ih =>
    obtain ⟨hu, hus⟩ := List.forall_mem_cons.mp (firstDefect_eq_none_iff.mp h)
    rw [reached, hu, ih (firstDefect_eq_none_iff.mpr hus)]
    rfl

theorem files_indexAll (ws : Workspace) (us : List CodeUnit) :
    (indexAll ws us).files = ws.files ++ us.map (·.file) := by
  induction us generalizing ws with
  | nil => exact (List.append_nil _).symm
  | cons u us ih =>
    have hfiles := congrArg (fun r => r.1.files) (index_eq ws u.file u.isPackage)
    have hrest := ih (ws.index u.file u.isPackage).1
    rw [hfiles, List.append_assoc] at hrest
    exact hrest

theorem opened_indexAll (ws : Workspace) (us : List CodeUnit) :
    (indexAll ws us).opened = ws.opened := by
  induction us generalizing ws with
  | nil => rfl
  | cons u us ih =>
    have hopened := congrArg (fun r => r.1.opened) (index_eq ws u.file u.isPackage)
    exact (ih _).trans hopened

/-- **A loading that took some files**, starting from a workspace, and is over. -/
structure Loading.Took (l : Loading) (ws : Workspace) (us : List CodeUnit) : Prop where
  workspace : l.workspace
    = { indexAll ws (reached us) with opened := ws.opened || (firstDefect us).isNone }
  error : l.error = (firstDefect us).map .undecodable

namespace Loading

variable {tree : Tree} {base : Path} {l : Loading}

theorem Took.files {ws : Workspace} {us : List CodeUnit} (h : l.Took ws us) :
    l.workspace.files = ws.files ++ (reached us).map (·.file) := by
  rw [h.workspace]
  exact files_indexAll ws (reached us)

theorem foldl_addFile_of_error (h : l.error.isSome = true) (paths : List Path) :
    paths.foldl (Loading.addFile tree base) l = l := by
  induction paths with
  | nil => rfl
  | cons p paths ih =>
    have hstep : l.addFile tree base p = l := by
      unfold Loading.addFile
      rw [if_pos h]
    rw [List.foldl_cons, hstep]
    exact ih

/-- **One path**: the file of code at it is indexed, or there is none and it is passed over. -/
theorem addFile_cases (tree : Tree) {p : Path} (hl : l.error = none)
    (hnamed : p.names.drop base.names.length ≠ []) :
    (∃ u, CodeUnit.at? tree base p = some u
        ∧ (l.addFile tree base p).workspace = (l.workspace.index u.file u.isPackage).1
        ∧ (l.addFile tree base p).error = u.outline.defect.map .undecodable)
      ∨ (CodeUnit.at? tree base p = none ∧ (l.addFile tree base p).workspace = l.workspace
        ∧ (l.addFile tree base p).error = none) := by
  obtain ⟨named, hmodule⟩ := Files.exists_moduleOf?
    (p := { names := p.names.drop base.names.length }) hnamed
  unfold Loading.addFile CodeUnit.at? CodeUnit.outline
  rw [hl]
  cases hread : tree.read p with
  | error why => exact .inr ⟨rfl, rfl, rfl⟩
  | ok bytes =>
    refine .inl ⟨⟨⟨p, named.1, ⟨bytes⟩, Source.tree ⟨bytes⟩⟩, named.2⟩, ?_, ?_⟩
    · rw [hmodule]
      rfl
    · have hdefect := congrArg Prod.snd (index_eq l.workspace
        ⟨p, named.1, ⟨bytes⟩, Source.tree ⟨bytes⟩⟩ named.2)
      dsimp only [Option.isSome] at hdefect ⊢
      rw [if_neg Bool.false_ne_true, Loading.add, hmodule]
      exact ⟨rfl, congrArg (Option.map LoadError.undecodable) hdefect⟩

/-- Opening is over: the workspace counts as opened if nothing went wrong, or if it did before. -/
theorem finish_eq (l : Loading) : l.finish.error = l.error ∧ l.finish.workspace
    = { l.workspace with opened := l.workspace.opened || l.error.isNone } := by
  unfold Loading.finish
  split
  · rename_i hsome
    rw [Option.isNone_eq_false_iff.mpr hsome, Bool.or_false]
    exact ⟨rfl, rfl⟩
  · rename_i hnone
    rw [Option.not_isSome_iff_eq_none.mp hnone, Option.isNone_none, Bool.or_true]
    exact ⟨rfl, rfl⟩

/-- **All paths in turn.** -/
theorem took_foldl (tree : Tree) {paths : List Path}
    (hnamed : ∀ p ∈ paths, p.names.drop base.names.length ≠ []) (hl : l.error = none) :
    (paths.foldl (Loading.addFile tree base) l).workspace
        = indexAll l.workspace (reached (paths.filterMap (CodeUnit.at? tree base)))
      ∧ (paths.foldl (Loading.addFile tree base) l).error
        = (firstDefect (paths.filterMap (CodeUnit.at? tree base))).map .undecodable := by
  induction paths generalizing l with
  | nil => exact ⟨rfl, hl⟩
  | cons p paths ih =>
    obtain ⟨hp, hpaths⟩ := List.forall_mem_cons.mp hnamed
    rw [List.foldl_cons]
    have hcases := addFile_cases tree hl hp
    rcases hcases with ⟨u, hu, hworkspace, herror⟩ | ⟨hu, hworkspace, herror⟩
    · rw [List.filterMap_cons_some hu, reached, firstDefect, List.findSome?_cons]
      cases hdefect : u.outline.defect with
      | none =>
        rw [hdefect] at herror
        obtain ⟨hrest, hrestError⟩ := ih hpaths herror
        rw [hworkspace] at hrest
        exact ⟨hrest, hrestError⟩
      | some defect =>
        -- The other files are passed by.
        rw [hdefect] at herror
        rw [foldl_addFile_of_error (by rw [herror]; rfl)]
        exact ⟨hworkspace, herror⟩
    · rw [List.filterMap_cons_none hu, ← hworkspace]
      exact ih hpaths herror

end Loading

section Opening

variable {tree : Tree} {excluded : List String} {root : Path}

theorem openPath_of_not_isThere (ws : Workspace) (h : isThere tree root = false) :
    openPath ws tree excluded root = ⟨ws, [], some (.notFound root)⟩ := by
  obtain ⟨hfolder, hfile⟩ := Bool.or_eq_false_iff.mp h
  unfold Tree.isFolder at hfolder
  unfold Tree.isFile at hfile
  unfold openPath
  cases hfind : tree.find root with
  | missing => rfl
  | notFolder => rfl
  | folder =>
    rw [hfind] at hfolder
    cases hfolder
  | file bytes =>
    rw [hfind] at hfile
    cases hfile

/-- What is there is gone through, and counts as opened at the end if nothing went wrong. -/
theorem openPath_of_isThere (ws : Workspace) (excluded : List String)
    (h : isThere tree root = true) {through : Loading}
    (hthrough : through = (codePaths tree excluded root).foldl
      (Loading.addFile tree (baseOf tree root)) ⟨ws, [], none⟩) :
    (openPath ws tree excluded root).error = through.error
      ∧ (openPath ws tree excluded root).workspace = { through.workspace with
        opened := through.workspace.opened || through.error.isNone } := by
  have hfinish := through.finish_eq
  unfold isThere Tree.isFolder Tree.isFile at h
  unfold baseOf Tree.isFile at hthrough
  unfold openPath
  cases hfind : tree.find root with
  | missing =>
    rw [hfind] at h
    cases h
  | notFolder =>
    rw [hfind] at h
    cases h
  | folder =>
    rw [hfind, if_neg Bool.false_ne_true] at hthrough
    dsimp only
    rw [← hthrough]
    split
    · exact hfinish
    · exact hfinish
  | file bytes =>
    rw [hfind, if_pos rfl] at hthrough
    dsimp only
    rw [← hthrough]
    split
    · exact hfinish
    · exact hfinish

/-- **Opening a path takes its files**, and the workspace counts as opened unless something in them
cannot be decoded. -/
theorem took_openPath (ws : Workspace) (excluded : List String) (h : isThere tree root = true) :
    (openPath ws tree excluded root).Took ws (units tree excluded root) := by
  have hnamed : ∀ p ∈ codePaths tree excluded root,
      p.names.drop (baseOf tree root).names.length ≠ [] := fun p => named_of_mem_codePaths
  obtain ⟨hworkspace, herror⟩ := Loading.took_foldl tree (l := ⟨ws, [], none⟩) hnamed rfl
  obtain ⟨hopenedError, hopened⟩ := openPath_of_isThere ws excluded h rfl
  rw [herror] at hopenedError
  rw [hworkspace, herror, opened_indexAll, Option.isNone_map] at hopened
  exact ⟨hopened, hopenedError⟩

end Opening

/-! ## What the files that are no text leave alone -/

/-- **Two workspaces hold the same**, under every name that none of some files brings. -/
structure Agree (others : List CodeUnit) (ws ws' : Workspace) : Prop where
  modules : ∀ name, (∀ u ∈ others, name ≠ u.file.moduleName) →
    ws.modules.get? name = ws'.modules.get? name
  types : ∀ name, (∀ u ∈ others, name ∉ u.outline.workspace.types.names) →
    ws.types.get? name = ws'.types.get? name
  definitions : ∀ name, (∀ u ∈ others, name ∉ u.outline.workspace.definitions.names) →
    ws.definitions.get? name = ws'.definitions.get? name

namespace Agree

variable {others : List CodeUnit} {ws ws' : Workspace} {u : CodeUnit}

theorem refl (others : List CodeUnit) (ws : Workspace) : Agree others ws ws :=
  ⟨fun _ _ => rfl, fun _ _ => rfl, fun _ _ => rfl⟩

/-- Both index the same file. -/
theorem index (h : Agree others ws ws') (u : CodeUnit) :
    Agree others (ws.index u.file u.isPackage).1 (ws'.index u.file u.isPackage).1 := by
  rw [index_eq, index_eq]
  refine ⟨fun name hname => ?_, fun name hname => ?_, fun name hname => ?_⟩
  · by_cases heq : name = u.file.moduleName
    · subst heq
      exact (Table.get?_put_self _ _ _).trans (Table.get?_put_self _ _ _).symm
    · exact ((Table.get?_put_of_ne _ _ heq).trans (h.modules name hname)).trans
        (Table.get?_put_of_ne _ _ heq).symm
  · dsimp only
    rw [Table.get?_putAll, Table.get?_putAll, h.types name hname]
  · dsimp only
    rw [Table.get?_putAll, Table.get?_putAll, h.definitions name hname]

/-- One of them indexes one of the files besides. -/
theorem index_left (h : Agree others ws ws') (hu : u ∈ others) :
    Agree others (ws.index u.file u.isPackage).1 ws' := by
  rw [index_eq]
  refine ⟨fun name hname => ?_, fun name hname => ?_, fun name hname => ?_⟩
  · exact (Table.get?_put_of_ne _ _ (hname u hu)).trans (h.modules name hname)
  · exact (Table.get?_putAll_of_not_mem (hname u hu)).trans (h.types name hname)
  · exact (Table.get?_putAll_of_not_mem (hname u hu)).trans (h.definitions name hname)

/-- **All files, and some of them**: they make the same workspace, but for what the others
bring. -/
theorem indexAll_filter (keep : CodeUnit → Bool) (us : List CodeUnit)
    (hothers : ∀ u ∈ us, keep u = false → u ∈ others) (h : Agree others ws ws') :
    Agree others (indexAll ws us) (indexAll ws' (us.filter keep)) := by
  induction us generalizing ws ws' with
  | nil => exact h
  | cons u us ih =>
    obtain ⟨hu, hus⟩ := List.forall_mem_cons.mp hothers
    cases hkeep : keep u with
    | true =>
      rw [List.filter_cons_of_pos hkeep]
      exact ih hus (h.index u)
    | false =>
      rw [List.filter_cons_of_neg (by rw [hkeep]; exact Bool.false_ne_true)]
      exact ih hus (h.index_left (hu hkeep))

end Agree

/-- **What opening a path comes to, whatever the bytes of its files.** It fails if there is nothing,
or else at the first file in which something cannot be decoded; the files are indexed up to there,
and the workspace does not count as opened. No text is such a file. If it does not fail, what is
indexed is what would be if there were only the texts, except under names that the other files
bring. -/
theorem openPath_among_bad_files (ws : Workspace) (tree : Tree) (excluded : List String)
    (root : Path) (l : Loading) (hl : l = openPath ws tree excluded root) (us : List CodeUnit)
    (hus : us = units tree excluded root) :
    (isThere tree root = false → l = ⟨ws, [], some (.notFound root)⟩)
      ∧ (isThere tree root = true →
        l.error = (firstDefect us).map .undecodable
          ∧ l.workspace
            = { indexAll ws (reached us) with opened := ws.opened || (firstDefect us).isNone }
          ∧ l.workspace.files = ws.files ++ (reached us).map (·.file))
      ∧ (∀ u ∈ us, u.IsText → u.outline.defect = none)
      ∧ (l.error = none → ∀ tree' l', isThere tree' root = true →
        (∀ u, u ∈ units tree' excluded root ↔ u ∈ us ∧ u.IsText) →
        l' = openPath ws tree' excluded root →
          l'.error = none
            ∧ l'.workspace.files = ws.files ++ (us.filter fun u => u.IsText).map (·.file)
            ∧ Agree (us.filter fun u => ¬ u.IsText) l.workspace l'.workspace) := by
  subst hl hus
  have htexts : ∀ u ∈ units tree excluded root, u.IsText → u.outline.defect = none := by
    intro u hu htext
    have hreadable := CodeFile.isReadable_of_isText (tree_of_mem_units hu) htext
    exact Option.isNone_iff_eq_none.mp (hreadable u.isPackage)
  refine ⟨openPath_of_not_isThere ws, fun hthere => ?_, htexts, ?_⟩
  · have htook := took_openPath ws excluded hthere
    exact ⟨htook.error, htook.workspace, htook.files⟩
  · rintro hnone tree' _ hthere' hunits rfl
    have hthere : isThere tree root = true := by
      cases hthere : isThere tree root with
      | true => rfl
      | false =>
        rw [openPath_of_not_isThere ws hthere] at hnone
        cases hnone
    have hfilter : units tree' excluded root
        = (units tree excluded root).filter fun u => u.IsText :=
      units_eq_filter fun u => by rw [hunits, decide_eq_true_iff]
    have htook := took_openPath ws excluded hthere
    have htook' := took_openPath ws excluded hthere'
    rw [hfilter] at htook'
    have hdefect : firstDefect (units tree excluded root) = none :=
      Option.map_eq_none_iff.mp (htook.error ▸ hnone)
    have hdefect' : firstDefect ((units tree excluded root).filter fun u => u.IsText) = none :=
      firstDefect_eq_none_iff.mpr fun u hu =>
        firstDefect_eq_none_iff.mp hdefect u (List.mem_filter.mp hu).1
    refine ⟨?_, ?_, ?_⟩
    · rw [htook'.error, hdefect']
      rfl
    · rw [htook'.files, reached_eq hdefect']
    · have hothers : ∀ u ∈ units tree excluded root, decide u.IsText = false →
          u ∈ (units tree excluded root).filter fun u => ¬ u.IsText := by
        intro u hu hno
        exact List.mem_filter.mpr ⟨hu, decide_eq_true (of_decide_eq_false hno)⟩
      have hagree := Agree.indexAll_filter (fun u => decide u.IsText) _ hothers (.refl _ ws)
      rw [htook.workspace, htook'.workspace, reached_eq hdefect, reached_eq hdefect']
      exact ⟨hagree.modules, hagree.types, hagree.definitions⟩

/-- What is found in a folder, if it is in order as it is. -/
theorem units_of_sorted {tree : Tree} {excluded : List String} {root : Path} (place : List String)
    {paths : List Path} (hroot : tree.place root = .ok place)
    (hfolder : tree.entryAt place = .folder)
    (hpaths : (candidates tree excluded place).map root.descend = paths)
    (hsorted : paths.Pairwise fun p q => p.precedes q = true) :
    units tree excluded root = paths.filterMap (CodeUnit.at? tree (baseOf tree root)) := by
  have hcode : codePaths tree excluded root = paths := by
    rw [codePaths_eq hroot hfolder, hpaths]
    exact List.mergeSort_of_pairwise hsorted
  unfold units
  rw [hcode]

/-- A text, and a class that has a comment which is none. -/
def accents : Tree :=
  [(["a.py"], .file "class A:\n    pass\n".toUTF8),
    (["b.py"], .file ("class B: pass  # caf".toUTF8 ++ ⟨#[0xe9, 0x0a]⟩))]

/-- The text of the two alone. -/
def accentless : Tree := [(["a.py"], .file "class A:\n    pass\n".toUTF8)]

theorem units_accents : units accents [] {}
    = [{ names := ["a.py"] }, { names := ["b.py"] }].filterMap (CodeUnit.at? accents {}) :=
  units_of_sorted [] rfl rfl (by decide +kernel) (by decide +kernel)

theorem mem_units_accentless (u : CodeUnit) :
    u ∈ units accentless [] {} ↔ u ∈ units accents [] {} ∧ u.IsText := by
  have hunits : units accentless [] {}
      = [{ names := ["a.py"] }].filterMap (CodeUnit.at? accentless {}) :=
    units_of_sorted [] rfl rfl (by decide +kernel) (by decide +kernel)
  have hsame : CodeUnit.at? accentless {} { names := ["a.py"] }
      = CodeUnit.at? accents {} { names := ["a.py"] } := rfl
  have hisText : (CodeUnit.at? accents {} { names := ["a.py"] }).all (·.IsText) = true := by
    decide +kernel
  have hisNone : (CodeUnit.at? accents {} { names := ["b.py"] }).all (¬ ·.IsText) = true := by
    decide +kernel
  rw [hunits, units_accents, List.mem_filterMap, List.mem_filterMap]
  constructor
  · rintro ⟨p, hp, hu⟩
    obtain rfl := List.mem_singleton.mp hp
    rw [hsame] at hu
    rw [hu] at hisText
    exact ⟨⟨_, List.mem_cons_self, hu⟩, of_decide_eq_true hisText⟩
  · rintro ⟨⟨p, hp, hu⟩, htext⟩
    rcases List.mem_cons.mp hp with rfl | hp
    · exact ⟨_, List.mem_singleton.mpr rfl, hsame.trans hu⟩
    · obtain rfl := List.mem_singleton.mp hp
      rw [hu] at hisNone
      exact absurd htext (of_decide_eq_true hisNone)

theorem openPath_among_bad_files_accents :
    (openPath {} accents [] {}).error = none
      ∧ (∀ u, u ∈ units accentless [] {} ↔ u ∈ units accents [] {} ∧ u.IsText)
      ∧ (units accents [] {}).map (fun u => decide u.IsText) = [true, false]
      ∧ (openPath {} accentless [] {}).error = none
      ∧ (openPath {} accents [] {}).workspace.types.get? "a.A"
        = (openPath {} accentless [] {}).workspace.types.get? "a.A" := by
  have hall := openPath_among_bad_files {} accents [] {} _ rfl _ rfl
  have herror : (openPath {} accents [] {}).error = none := by
    rw [(hall.2.1 rfl).1, units_accents]
    decide +kernel
  obtain ⟨herror', -, hagree⟩ := hall.2.2.2 herror accentless _ rfl mem_units_accentless rfl
  have hbrings : ∀ u ∈ (units accents [] {}).filter fun u => ¬ u.IsText,
      "a.A" ∉ u.outline.workspace.types.names := by
    rw [units_accents]
    decide +kernel
  refine ⟨herror, mem_units_accentless, ?_, herror', hagree.types "a.A" hbrings⟩
  rw [units_accents]
  decide +kernel

/-- Two texts, and between them a function with a type that is written in quotes and is no text. -/
def cafe : Tree :=
  [(["a.py"], .file "class A:\n    pass\n".toUTF8),
    (["b.py"], .file ("def f() -> \"caf".toUTF8 ++ ⟨#[0xe9]⟩ ++ "\":\n    pass\n".toUTF8)),
    (["c.py"], .file "class C:\n    pass\n".toUTF8)]

theorem units_cafe : units cafe [] {}
    = [{ names := ["a.py"] }, { names := ["b.py"] }, { names := ["c.py"] }].filterMap
        (CodeUnit.at? cafe {}) :=
  units_of_sorted [] rfl rfl (by decide +kernel) (by decide +kernel)

/-- **One file can take down the others**: opening fails at it though the directory is there, the
workspace does not count as opened, and the text that comes after it is not indexed. -/
theorem bad_file_ends_opening :
    isThere cafe {} = true
      ∧ (∃ defect, (openPath {} cafe [] {}).error = some (.undecodable defect))
      ∧ (openPath {} cafe [] {}).workspace.opened = false
      ∧ (openPath {} cafe [] {}).workspace.types.get? "c.C" = none
      ∧ ∃ u ∈ units cafe [] {}, u.IsText ∧ "c.C" ∈ u.outline.workspace.types.names := by
  have hthere : isThere cafe {} = true := rfl
  have htook : (openPath {} cafe [] {}).Took {} _ := took_openPath {} [] hthere
  have hsome : (firstDefect (units cafe [] {})).isSome = true := by
    rw [units_cafe]
    decide +kernel
  obtain ⟨defect, hdefect⟩ := Option.isSome_iff_exists.mp hsome
  refine ⟨hthere, ⟨defect, ?_⟩, ?_, ?_, ?_⟩
  · rw [htook.error, hdefect]
    rfl
  · rw [htook.workspace, hdefect]
    rfl
  · rw [htook.workspace, units_cafe, ← Option.isNone_iff_eq_none]
    decide +kernel
  · rw [units_cafe]
    decide +kernel

end Workspace

end CallTree
