import CallTree.Proofs.FolderFiles
import CallTree.Proofs.Placement
import CallTree.Proofs.ReadableText

/-!
# A directory and the same texts

Files can be opened from a directory or given as texts. The two ways differ in where the files lie,
and in the order in which they are gone through. Where they lie shows in the symbols only. The order
decides what is listed first, and what is left where two files declare something under one name.

So the two ways come to the same where the two orders are the same, and this is so exactly if no two
files straddle. If they do, the same files are loaded in another order; and a name still stands for
the same as long as no two files have the same module or declare classes of the same name.
-/

namespace CallTree

namespace Data.Table

variable {α : Type} {table other : Table α}

/-- Where all names are different, nothing is replaced. -/
theorem putAll_eq_append (h : (table ++ other).names.Nodup) :
    table.putAll other = table ++ other := by
  induction other generalizing table with
  | nil => exact (List.append_nil table).symm
  | cons entry rest ih =>
    obtain ⟨name, value⟩ := entry
    have hname : name ∉ table.names := by
      intro hmem
      rw [names, List.map_append] at h
      exact (List.nodup_append.mp h).2.2 name hmem name List.mem_cons_self rfl
    have hmore : table ++ (name, value) :: rest = table ++ [(name, value)] ++ rest :=
      List.append_cons table (name, value) rest
    show (table.put name value).putAll rest = _
    rw [put_of_not_mem hname, hmore]
    exact ih (hmore ▸ h)

/-- A table with each name once is what comes of putting in its entries. -/
theorem putAll_empty (h : table.names.Nodup) : putAll .empty table = table :=
  putAll_eq_append h

/-- In a table with each name once, the order makes no difference to what is found. -/
theorem get?_of_perm (hperm : table.Perm other) (h : table.names.Nodup) (name : String) :
    table.get? name = other.get? name := by
  have hother : other.names.Nodup := (hperm.map Prod.fst).nodup_iff.mp h
  ext value
  constructor
  · exact fun hget => get?_of_mem hother (hperm.mem_iff.mp (mem_of_get? hget))
  · exact fun hget => get?_of_mem h (hperm.mem_iff.mpr (mem_of_get? hget))

end Data.Table

namespace Workspace

open CallTree.Data (Table)
open CallTree.Files
open CallTree.Syntax (Source)

/-! ## What files of text bring -/

/-- The module in a file of text, and whether the file stands for the package it lies in. -/
def moduleIn (f : TextFile) : String × Bool := (moduleOf? { names := f.names }).getD default

theorem moduleOf?_eq {f : TextFile} (h : f.names ≠ []) :
    moduleOf? { names := f.names } = some (moduleIn f) := by
  have hsome : (moduleOf? { names := f.names }).isSome = true := by
    unfold moduleOf? Path.withoutSuffix?
    dsimp only
    rw [List.getLast?_eq_some_getLast h]
    rfl
  unfold moduleIn
  obtain ⟨m, hm⟩ := Option.isSome_iff_exists.mp hsome
  rw [hm]
  rfl

/-- The file of code that a file of text is at a path. -/
def codeIn (f : TextFile) (path : Path) : CodeFile where
  path := path
  moduleName := (moduleIn f).1
  source := .ofText f.text
  tree := (Source.ofText f.text).tree

/-- What a file of text brings, but for where it lies. -/
def outlineOf (f : TextFile) : Indexing := (codeIn f {}).outline (moduleIn f).2

/-- What a file brings does not depend on where it lies, but for the place. -/
theorem outline_codeIn (f : TextFile) (path : Path) :
    (codeIn f path).outline (moduleIn f).2 = (outlineOf f).movedTo path :=
  (codeIn f {}).outline_movedTo path (moduleIn f).2

/-- The classes that a file of text declares. -/
def classNames (f : TextFile) : List String := (outlineOf f).workspace.types.names

theorem nodup_classNames (f : TextFile) : (classNames f).Nodup :=
  (codeIn f {}).nodup_types_outline (moduleIn f).2

/-- Everything in a file of text can be read. -/
theorem defect_outlineOf (f : TextFile) : (outlineOf f).defect = none :=
  Option.isNone_iff_eq_none.mp
    ((codeIn f {}).isReadable_of_isText rfl (Source.isText_ofText f.text) (moduleIn f).2)

/-- What the files bring to the modules. -/
def moduleEntries (fs : List TextFile) : Table ModuleIndex :=
  fs.map fun f => ((moduleIn f).1, (outlineOf f).module'.inFile none)

/-- What the files bring to the types. -/
def typeEntries (fs : List TextFile) : Table TypeIndex :=
  fs.flatMap fun f => (outlineOf f).workspace.types.mapValues (·.inFile none)

/-! ## Going through files in turn -/

/-- **A loading that went through some files**, each at its path, starting from a workspace. -/
structure Loading.WentThrough (l : Loading) (ws : Workspace) (path : TextFile → Path)
    (fs : List TextFile) : Prop where
  files : l.workspace.files = ws.files ++ fs.map fun f => codeIn f (path f)
  modules : l.workspace.modules.mapValues (·.inFile none)
    = (ws.modules.mapValues (·.inFile none)).putAll (moduleEntries fs)
  types : l.workspace.types.mapValues (·.inFile none)
    = (ws.types.mapValues (·.inFile none)).putAll (typeEntries fs)
  error : l.error = none

namespace Loading

variable {path : TextFile → Path} {isChecked : Bool} {f : TextFile} {fs : List TextFile}
  {ws : Workspace} {l l' : Loading}

/-- **One more file** is gone through. -/
theorem wentThrough_add (hf : f.names ≠ []) :
    (l.add (path f) { names := f.names } (.ofText f.text) isChecked).WentThrough l.workspace path
      [f] := by
  unfold Loading.add
  rw [moduleOf?_eq hf]
  dsimp only
  have hindex := index_eq l.workspace (codeIn f (path f)) (moduleIn f).2
  rw [outline_codeIn] at hindex
  unfold codeIn at hindex
  rw [hindex]
  dsimp only [Indexing.movedTo]
  refine ⟨rfl, ?_, ?_, ?_⟩
  · rw [Table.put_mapValues, ModuleIndex.inFile_inFile]
    rfl
  · have htypes : typeEntries [f] = (outlineOf f).workspace.types.mapValues (·.inFile none) :=
      List.append_nil _
    rw [Table.putAll_mapValues, Table.mapValues_mapValues, htypes]
    congr 2
    funext t
    exact t.inFile_inFile _ _
  · rw [defect_outlineOf]
    rfl

/-- One file, and then the others. -/
theorem WentThrough.cons (h : l.WentThrough ws path [f])
    (h' : l'.WentThrough l.workspace path fs) : l'.WentThrough ws path (f :: fs) := by
  refine ⟨?_, ?_, ?_, h'.error⟩
  · rw [h'.files, h.files, List.append_assoc]
    rfl
  · rw [h'.modules, h.modules, ← Table.putAll_append]
    rfl
  · rw [h'.types, h.types, ← Table.putAll_append]
    unfold typeEntries
    rw [List.flatMap_cons, List.flatMap_cons, List.flatMap_nil, List.append_nil]

/-- A step goes through the next file, unless something went wrong before. -/
def StepsAlong (step : Loading → TextFile → Loading) (path : TextFile → Path) (isChecked : Bool)
    (fs : List TextFile) : Prop :=
  ∀ f ∈ fs, ∀ l : Loading, step l f = if l.error.isSome then l
    else l.add (path f) { names := f.names } (.ofText f.text) isChecked

variable {step : Loading → TextFile → Loading}

/-- **Files that are taken in turn are gone through.** -/
theorem wentThrough_foldl (hstep : StepsAlong step path isChecked fs)
    (hnamed : ∀ f ∈ fs, f.names ≠ []) (hl : l.error = none) :
    (fs.foldl step l).WentThrough l.workspace path fs := by
  induction fs generalizing l with
  | nil => exact ⟨(List.append_nil _).symm, rfl, rfl, hl⟩
  | cons f fs ih =>
    have hrest : StepsAlong step path isChecked fs := fun g hg =>
      hstep g (List.mem_cons_of_mem _ hg)
    have hfirst : (step l f).WentThrough l.workspace path [f] := by
      rw [hstep f List.mem_cons_self, hl]
      exact wentThrough_add (hnamed f List.mem_cons_self)
    rw [List.foldl_cons]
    exact hfirst.cons (ih hrest (fun g hg => hnamed g (List.mem_cons_of_mem _ hg)) hfirst.error)

/-- Whether a workspace counts as opened makes no difference to what is in it. -/
theorem WentThrough.finish (h : l.WentThrough ws path fs) : l.finish.WentThrough ws path fs := by
  unfold Loading.finish
  split
  · exact h
  · exact ⟨h.files, h.modules, h.types, h.error⟩

/-! ## Opening the texts -/

/-- **Opening texts goes through them** in the order of the texts of their paths. -/
theorem wentThrough_openSources {files : List TextFile} (hfiles : FileSet files) :
    (openSources {} (files.map TextFile.source)).WentThrough {} (fun f => { names := f.names })
      (byText files) := by
  have hsorted : (files.map TextFile.source).mergeSort (fun a b => decide (a.1 ≤ b.1))
      = (byText files).map TextFile.source := by
    refine (List.map_mergeSort fun _ _ _ _ => ?_).symm
    rfl
  have hmem : ∀ f ∈ byText files, f ∈ files := fun f => (perm_byText files).mem_iff.mp
  have hstep : StepsAlong (fun l f => l.addSource f.source) (fun f => { names := f.names }) false
      (byText files) := by
    intro f hf l
    have hpath := ofText_slashed (hfiles.named f (hmem f hf)) (hfiles.plain f (hmem f hf))
    unfold Loading.addSource TextFile.source
    dsimp only
    rw [hpath]
  unfold openSources
  dsimp only
  rw [hsorted, List.foldl_map]
  exact (wentThrough_foldl hstep (fun f hf => hfiles.named f (hmem f hf)) rfl).finish

/-! ## Opening the directory -/

/-- Two loadings stand at the same point, whatever they have logged. -/
structure Alike (l l' : Loading) : Prop where
  workspace : l.workspace = l'.workspace
  error : l.error = l'.error

theorem WentThrough.of_alike (h : l'.WentThrough ws path fs) (halike : l.Alike l') :
    l.WentThrough ws path fs := by
  obtain ⟨hworkspace, herror⟩ := halike
  exact ⟨hworkspace ▸ h.files, hworkspace ▸ h.modules, hworkspace ▸ h.types, herror ▸ h.error⟩

variable {tree : Tree} {base p : Path}

/-- What has been logged has no influence on what comes next. -/
theorem Alike.addFile (h : l.Alike l') (p : Path) :
    (l.addFile tree base p).Alike (l'.addFile tree base p) := by
  obtain ⟨hworkspace, herror⟩ := h
  unfold Loading.addFile
  rw [herror]
  split
  · exact ⟨hworkspace, herror⟩
  · dsimp only
    split
    · unfold Loading.add
      rw [hworkspace]
      split
      · exact ⟨rfl, rfl⟩
      · exact ⟨rfl, rfl⟩
    · exact ⟨hworkspace, rfl⟩

/-- What cannot be read is passed over. -/
theorem addFile_of_not_isFile (l : Loading) (base : Path) (h : tree.isFile p = false) :
    (l.addFile tree base p).Alike l := by
  unfold Loading.addFile
  split
  · exact ⟨rfl, rfl⟩
  · dsimp only
    split
    · rename_i bytes hbytes
      exact absurd hbytes (Tree.read_ne_ok h bytes)
    · exact ⟨rfl, rfl⟩

/-- So the paths that are no files can be left out. -/
theorem foldl_addFile_alike (h : l.Alike l') (paths : List Path) :
    (paths.foldl (Loading.addFile tree base) l).Alike
      ((paths.filter tree.isFile).foldl (Loading.addFile tree base) l') := by
  induction paths generalizing l l' with
  | nil => exact h
  | cons p paths ih =>
    rw [List.foldl_cons, List.filter_cons]
    split
    · exact ih (h.addFile p)
    · rename_i hfile
      have hsame := addFile_of_not_isFile l base (Bool.eq_false_iff.mpr hfile)
      exact ih ⟨hsame.workspace.trans h.workspace, hsame.error.trans h.error⟩

/-- **Opening a directory goes through the files in it** in the order of their names. -/
theorem wentThrough_openPath {place excluded : List String} {files : List TextFile} {root : Path}
    (hroot : tree.place root = .ok place) (hholds : tree.Holds place files)
    (hfiles : FileSet files) (hcode : ∀ f ∈ files, IsCode excluded f) :
    (openPath {} tree excluded root).WentThrough {} (fun f => root.descend f.names)
      (byNames files) := by
  have hfind : tree.find root = .folder := by
    unfold Tree.find
    rw [hroot]
    exact hholds.folder
  have hmem : ∀ f ∈ byNames files, f ∈ files := fun f => (perm_byNames files).mem_iff.mp
  have hstep : StepsAlong (fun l f => l.addFile tree root (root.descend f.names))
      (fun f => root.descend f.names) true (byNames files) := by
    intro f hf l
    have hread : tree.read (root.descend f.names) = .ok f.text.toUTF8 := by
      unfold Tree.read
      rw [hholds.find_file hfiles hroot (hmem f hf)]
    have hnames : (root.descend f.names).names.drop root.names.length = f.names :=
      List.drop_left' rfl
    unfold Loading.addFile
    dsimp only
    rw [hread, hnames]
    rfl
  have hfold : ((codePaths tree excluded root).foldl (Loading.addFile tree root)
      ⟨{}, [], none⟩).WentThrough {} (fun f => root.descend f.names) (byNames files) := by
    have halike : ((codePaths tree excluded root).foldl (Loading.addFile tree root)
        ⟨{}, [], none⟩).Alike (((codePaths tree excluded root).filter tree.isFile).foldl
          (Loading.addFile tree root) ⟨{}, [], none⟩) :=
      foldl_addFile_alike ⟨rfl, rfl⟩ (codePaths tree excluded root)
    rw [codePaths_filter_isFile hroot hholds hfiles hcode, List.foldl_map] at halike
    exact (wentThrough_foldl hstep (fun f hf => hfiles.named f (hmem f hf)) rfl).of_alike halike
  unfold openPath
  rw [hfind]
  dsimp only
  split
  · exact hfold.finish
  · exact hfold.finish.of_alike ⟨rfl, rfl⟩

end Loading

/-! ## What is loaded -/

/-- The units of a workspace as they are listed: the names that lead to each from a folder on, and
its module. -/
def unitsBelow (ws : Workspace) (root : Path) : List (List String × String) :=
  ws.files.map fun c => (c.path.names.drop root.names.length, c.moduleName)

/-- The workspace of some files, with nothing said of where they lie. -/
def bareOf (fs : List TextFile) : Workspace where
  modules := Table.putAll .empty (moduleEntries fs)
  types := Table.putAll .empty (typeEntries fs)

section WentThrough

variable {l : Loading} {path : TextFile → Path} {fs : List TextFile}
  (h : l.WentThrough {} path fs)

include h

/-- The units come in the order in which the files were gone through. -/
theorem unitsBelow_of_wentThrough {root : Path}
    (hpath : ∀ f, (path f).names.drop root.names.length = f.names) :
    l.workspace.unitsBelow root = fs.map fun f => (f.names, (moduleIn f).1) := by
  unfold unitsBelow
  rw [h.files, List.nil_append, List.map_map]
  refine List.map_congr_left fun f _ => ?_
  show ((path f).names.drop root.names.length, _) = _
  rw [hpath]
  rfl

/-- **Names stand for what they stand for in the bare workspace**, but for the files of symbols. -/
theorem forgets_of_wentThrough : Forgets (bareOf fs) l.workspace where
  modules name := by
    rw [← Table.get?_mapValues, h.modules]
    rfl
  types name := by
    rw [← Table.get?_mapValues, h.types]
    rfl
  size := by
    have hlength := congrArg List.length h.types
    unfold Table.mapValues at hlength
    rw [List.length_map] at hlength
    exact hlength.symm

theorem typeSymbols_of_wentThrough :
    l.workspace.typeSymbols.map (·.inFile none) = (bareOf fs).typeSymbols := by
  have hbare : l.workspace.typeSymbols.map (·.inFile none)
      = (l.workspace.types.mapValues (·.inFile none)).values.map (·.symbol) := by
    unfold typeSymbols
    rw [Table.values_mapValues, List.map_map, List.map_map]
    rfl
  rw [hbare, h.types]
  rfl

end WentThrough

theorem names_typeEntries (fs : List TextFile) :
    (typeEntries fs).names = fs.flatMap classNames := by
  unfold typeEntries Table.names
  rw [List.map_flatMap]
  exact List.flatMap_congr fun f _ => Table.names_mapValues _ _

/-- **The order of the files makes no difference** to what is found, if no two of them have the same
module or declare classes of the same name. -/
theorem forgets_of_perm {fs fs' : List TextFile} {ws : Workspace} (hperm : fs.Perm fs')
    (hmodules : (fs.map fun f => (moduleIn f).1).Nodup)
    (hclasses : fs.Pairwise fun f g => ∀ name ∈ classNames f, name ∉ classNames g)
    (h : Forgets (bareOf fs') ws) : Forgets (bareOf fs) ws := by
  have hmoduleNames : (moduleEntries fs).names.Nodup := by
    unfold moduleEntries Table.names
    rw [List.map_map]
    exact hmodules
  have htypeNames : (typeEntries fs).names.Nodup := by
    rw [names_typeEntries]
    refine List.nodup_flatMap.mpr ⟨fun f _ => nodup_classNames f, hclasses.imp fun hdisjoint => ?_⟩
    exact fun name hname hname' => hdisjoint name hname hname'
  have hmoduleEntries : (moduleEntries fs).Perm (moduleEntries fs') := hperm.map _
  have htypeEntries : (typeEntries fs).Perm (typeEntries fs') := hperm.flatMap_right _
  have hmodules' := Table.putAll_empty ((hmoduleEntries.map Prod.fst).nodup_iff.mp hmoduleNames)
  have htypes' := Table.putAll_empty ((htypeEntries.map Prod.fst).nodup_iff.mp htypeNames)
  constructor
  · intro name
    rw [← h.modules name]
    unfold bareOf
    dsimp only
    rw [Table.putAll_empty hmoduleNames, hmodules']
    exact Table.get?_of_perm hmoduleEntries hmoduleNames name
  · intro name
    rw [← h.types name]
    unfold bareOf
    dsimp only
    rw [Table.putAll_empty htypeNames, htypes']
    exact Table.get?_of_perm htypeEntries htypeNames name
  · rw [← h.size]
    unfold bareOf
    dsimp only
    rw [Table.putAll_empty htypeNames, htypes']
    exact htypeEntries.length_eq

/-- The classes of a workspace, by their qualified names, are the names of its table. -/
theorem Filed.map_typeSymbols {ws : Workspace} (h : ws.Filed) :
    ws.typeSymbols.map (·.qualifiedName) = ws.types.names := by
  unfold typeSymbols Table.values Table.names
  rw [List.map_map, List.map_map]
  exact List.map_congr_left fun entry hentry => h.typeNames entry hentry

/-- The classes are those of the files. -/
theorem mem_types_of_wentThrough {l : Loading} {path : TextFile → Path} {fs : List TextFile}
    (h : l.WentThrough {} path fs) {name : String} :
    name ∈ l.workspace.types.names ↔ ∃ f ∈ fs, name ∈ classNames f := by
  rw [← Table.names_mapValues (·.inFile none), h.types, Table.mem_names_putAll, names_typeEntries,
    List.mem_flatMap]
  exact or_iff_right List.not_mem_nil

/-- Every name stands for the same at the top of every module, but for the file. -/
def SameGlobals (ws ws' : Workspace) : Prop :=
  ∀ moduleName name, (ws.global moduleName name).map (Option.map (·.inFile none))
    = (ws'.global moduleName name).map (Option.map (·.inFile none))

/-- Two workspaces that forget to the same one answer alike. -/
theorem Forgets.sameGlobals {bare ws ws' : Workspace} (h : Forgets bare ws)
    (h' : Forgets bare ws') : SameGlobals ws ws' := fun moduleName name =>
  (h.global moduleName name).symm.trans (h'.global moduleName name)

/-- Two loadings that went through the same files in the same order hold the same. -/
theorem Loading.WentThrough.same {l l' : Loading} {path path' : TextFile → Path}
    {fs : List TextFile} (h : l.WentThrough {} path fs) (h' : l'.WentThrough {} path' fs)
    {root root' : Path} (hpath : ∀ f, (path f).names.drop root.names.length = f.names)
    (hpath' : ∀ f, (path' f).names.drop root'.names.length = f.names) :
    l.workspace.unitsBelow root = l'.workspace.unitsBelow root'
      ∧ l.workspace.typeSymbols.map (·.inFile none) = l'.workspace.typeSymbols.map (·.inFile none)
      ∧ SameGlobals l.workspace l'.workspace := by
  refine ⟨?_, ?_, ?_⟩
  · rw [unitsBelow_of_wentThrough h hpath, unitsBelow_of_wentThrough h' hpath']
  · rw [typeSymbols_of_wentThrough h, typeSymbols_of_wentThrough h']
  · exact (forgets_of_wentThrough h).sameGlobals (forgets_of_wentThrough h')

/-- Two loadings that went through the same files in any order have the same types. -/
theorem Loading.WentThrough.perm_types {l l' : Loading} {path path' : TextFile → Path}
    {fs fs' : List TextFile} (h : l.WentThrough {} path fs) (h' : l'.WentThrough {} path' fs')
    (hl : Loaded l.workspace) (hl' : Loaded l'.workspace)
    (hperm : fs.Perm fs') :
    (l.workspace.typeSymbols.map (·.qualifiedName)).Perm
      (l'.workspace.typeSymbols.map (·.qualifiedName)) := by
  rw [hl.filed.map_typeSymbols, hl'.filed.map_typeSymbols]
  refine (List.perm_ext_iff_of_nodup hl.nodup_types hl'.nodup_types).mpr fun name => ?_
  rw [mem_types_of_wentThrough h, mem_types_of_wentThrough h']
  simp only [hperm.mem_iff]

/-- **A directory and the same texts.** Both can be loaded, and they are loaded alike if no two
files straddle. If they do, they are loaded in another order, which shows in what a name stands for
only if two files have the same module or declare a class of the same name. -/
theorem loaders_agree_iff (tree : Tree) (excluded : List String) (root : Path)
    (place : List String) (files : List TextFile) (hroot : tree.place root = .ok place)
    (hholds : tree.Holds place files) (hfiles : FileSet files)
    (hcode : ∀ f ∈ files, IsCode excluded f) (disk memory : Loading)
    (hdisk : disk = openPath {} tree excluded root)
    (hmemory : memory = openSources {} (files.map TextFile.source)) :
    (disk.error = none ∧ memory.error = none)
      ∧ ((∀ f ∈ files, ∀ g ∈ files, straddles f.names g.names = false) →
        disk.workspace.unitsBelow root = memory.workspace.unitsBelow {}
          ∧ disk.workspace.typeSymbols.map (·.inFile none)
            = memory.workspace.typeSymbols.map (·.inFile none)
          ∧ SameGlobals disk.workspace memory.workspace)
      ∧ (disk.workspace.unitsBelow root = memory.workspace.unitsBelow {}
        ↔ ∀ f ∈ files, ∀ g ∈ files, straddles f.names g.names = false)
      ∧ (disk.workspace.typeSymbols.map (·.qualifiedName)).Perm
        (memory.workspace.typeSymbols.map (·.qualifiedName))
      ∧ ((files.map fun f => (moduleIn f).1).Nodup →
        (files.Pairwise fun f g => ∀ name ∈ classNames f, name ∉ classNames g) →
        SameGlobals disk.workspace memory.workspace) := by
  have hthroughDisk := Loading.wentThrough_openPath hroot hholds hfiles hcode
  have hthroughMemory := Loading.wentThrough_openSources hfiles
  rw [← hdisk] at hthroughDisk
  rw [← hmemory] at hthroughMemory
  have hpathDisk : ∀ f : TextFile, (root.descend f.names).names.drop root.names.length = f.names :=
    fun f => List.drop_left' rfl
  have hpathMemory : ∀ f : TextFile,
      ({ names := f.names } : Path).names.drop ({} : Path).names.length = f.names := fun f => rfl
  have hperm : (byNames files).Perm (byText files) :=
    (perm_byNames files).trans (perm_byText files).symm
  have hsame : (∀ f ∈ files, ∀ g ∈ files, straddles f.names g.names = false) → _ := fun hnone =>
    hthroughDisk.same ((byNames_eq_byText_iff hfiles).mpr hnone ▸ hthroughMemory) hpathDisk
      hpathMemory
  refine ⟨⟨hthroughDisk.error, hthroughMemory.error⟩, hsame,
    ⟨fun hunits => ?_, fun hnone => (hsame hnone).1⟩, ?_, fun hmodules hclasses => ?_⟩
  · rw [unitsBelow_of_wentThrough hthroughDisk hpathDisk,
      unitsBelow_of_wentThrough hthroughMemory hpathMemory] at hunits
    have hnames := congrArg (List.map Prod.fst) hunits
    rw [List.map_map, List.map_map] at hnames
    exact (byNames_eq_byText_iff hfiles).mp (hfiles.eq_of_map_names_eq
      (fun f hf => (perm_byNames files).mem_iff.mp hf)
      (fun f hf => (perm_byText files).mem_iff.mp hf) hnames)
  · exact hthroughDisk.perm_types hthroughMemory (hdisk ▸ .openPath tree excluded root .empty)
      (hmemory ▸ .openSources _ .empty) hperm
  · have hmodules' : ((byNames files).map fun f => (moduleIn f).1).Nodup :=
      ((perm_byNames files).map _).nodup_iff.mpr hmodules
    have hclasses' : (byNames files).Pairwise
        fun f g => ∀ name ∈ classNames f, name ∉ classNames g := by
      refine ((perm_byNames files).pairwise_iff fun hdisjoint name hname hname' => ?_).mpr hclasses
      exact hdisjoint name hname' hname
    exact (forgets_of_wentThrough hthroughDisk).sameGlobals
      (forgets_of_perm hperm hmodules' hclasses' (forgets_of_wentThrough hthroughMemory))

/-- A package, and a module that uses it. -/
def shop : List TextFile :=
  [⟨["shop", "__init__.py"], "from shop.orders import Order\n"⟩,
    ⟨["shop", "orders.py"], "class Order:\n    pass\n"⟩,
    ⟨["till.py"], "from shop import Order\n"⟩]

theorem loaders_agree_iff_shop : ∃ disk memory : Loading,
    disk = openPath {} (Tree.folderAt ["src"] shop) ["attic"] { names := ["src"] }
      ∧ memory = openSources {} (shop.map TextFile.source)
      ∧ (Tree.folderAt ["src"] shop).place { names := ["src"] } = .ok ["src"]
      ∧ FileSet shop ∧ (∀ f ∈ shop, IsCode ["attic"] f)
      ∧ (∀ f ∈ shop, ∀ g ∈ shop, straddles f.names g.names = false)
      ∧ disk.workspace.unitsBelow { names := ["src"] } = memory.workspace.unitsBelow {}
      ∧ disk.workspace.typeSymbols.map (·.inFile none)
        = memory.workspace.typeSymbols.map (·.inFile none)
      ∧ SameGlobals disk.workspace memory.workspace := by
  have hplace : (Tree.folderAt ["src"] shop).place { names := ["src"] } = .ok ["src"] := rfl
  have hfiles : FileSet shop := by decide +kernel
  have hcode : ∀ f ∈ shop, IsCode ["attic"] f := by decide +kernel
  have hnone : ∀ f ∈ shop, ∀ g ∈ shop, straddles f.names g.names = false := by decide +kernel
  have hsame := (loaders_agree_iff _ _ _ _ _ hplace (Tree.holds_folderAt ["src"] hfiles) hfiles
    hcode _ _ rfl rfl).2.1 hnone
  exact ⟨_, _, rfl, rfl, hplace, hfiles, hcode, hnone, hsame⟩

/-- A module beside a package of the same name. -/
def shadowed : List TextFile :=
  [⟨["a", "__init__.py"], "class Two:\n    pass\n"⟩, ⟨["a.py"], "class One:\n    pass\n"⟩]

theorem byNames_shadowed : byNames shadowed = shadowed :=
  List.mergeSort_of_pairwise (by decide +kernel)

theorem byText_shadowed : byText shadowed = shadowed.reverse := by
  have hle : ¬ slashed ["a", "__init__.py"] ≤ slashed ["a.py"] := by decide +kernel
  unfold byText shadowed
  rw [List.mergeSort]
  simp [List.MergeSort.Internal.splitInTwo, hle]

/-- **A module beside a package of the same name** comes after it in a directory, and before it
among texts. So the units and the types are listed the other way round, and it is the other file
that is left as the module. -/
theorem loaders_differ : ∃ disk memory : Loading,
    disk = openPath {} (Tree.folderAt [] shadowed) [] {}
      ∧ memory = openSources {} (shadowed.map TextFile.source)
      ∧ FileSet shadowed ∧ (∀ f ∈ shadowed, IsCode [] f)
      ∧ disk.workspace.unitsBelow {} = [(["a", "__init__.py"], "a"), (["a.py"], "a")]
      ∧ memory.workspace.unitsBelow {} = [(["a.py"], "a"), (["a", "__init__.py"], "a")]
      ∧ disk.workspace.typeSymbols.map (·.qualifiedName) = ["a.Two", "a.One"]
      ∧ memory.workspace.typeSymbols.map (·.qualifiedName) = ["a.One", "a.Two"]
      ∧ disk.workspace.global "a" "One" ≠ .ok none
      ∧ memory.workspace.global "a" "One" = .ok none := by
  have hfiles : FileSet shadowed := by decide +kernel
  have hcode : ∀ f ∈ shadowed, IsCode [] f := by decide +kernel
  have hdisk : (openPath {} (Tree.folderAt [] shadowed) [] {}).WentThrough {} _ _ :=
    Loading.wentThrough_openPath rfl (Tree.holds_folderAt [] hfiles) hfiles hcode
  have hmemory := Loading.wentThrough_openSources hfiles
  rw [byNames_shadowed] at hdisk
  rw [byText_shadowed] at hmemory
  refine ⟨_, _, rfl, rfl, hfiles, hcode, ?_, ?_, ?_, ?_, ?_, ?_⟩
  · rw [unitsBelow_of_wentThrough hdisk fun f => rfl]
    decide +kernel
  · rw [unitsBelow_of_wentThrough hmemory fun f => rfl]
    decide +kernel
  · have htypes := congrArg (List.map (·.qualifiedName)) (typeSymbols_of_wentThrough hdisk)
    rw [List.map_map] at htypes
    exact htypes.trans (by decide +kernel)
  · have htypes := congrArg (List.map (·.qualifiedName)) (typeSymbols_of_wentThrough hmemory)
    rw [List.map_map] at htypes
    exact htypes.trans (by decide +kernel)
  · exact mt (forgets_of_wentThrough hdisk).global_eq_none_iff.mpr (by decide +kernel)
  · exact (forgets_of_wentThrough hmemory).global_eq_none_iff.mp (by decide +kernel)

end Workspace

end CallTree
