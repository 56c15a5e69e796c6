import CallTree.Proofs.Filing

/-!
# Loading, one file at a time

However a workspace is loaded, what happens to its tables is that one file after the other is
indexed. So what is to be shown of every workspace that can come about (`Loaded`) is shown of
the empty one and of indexing a file (`Loaded.induction`).

Indexing a file, in turn, does not depend on what is indexed already. The file is gone through
as if it were the only one (`CodeFile.outline`), and what it brings is then put into the tables
(`index_eq`). For types and definitions this is not how it is done: there each class is put in
when it has been gone through, and a file may declare a class twice. As a table remembers the
order in which names came, putting in what was collected gives the same table, entry for entry,
as putting in one after the other.
-/

namespace CallTree

/-! ## Tables -/

namespace Data.Table

variable {α : Type} {table other : Table α} {name : String} {value : α}

theorem has_eq_true_iff : table.has name = true ↔ name ∈ table.names := by
  simp [has, names]

/-- An entry is found under its name, if each name is there once. -/
theorem get?_of_mem {entry : String × α} (hnodup : table.names.Nodup) (h : entry ∈ table) :
    table.get? entry.1 = some entry.2 := by
  induction table with
  | nil => exact absurd h List.not_mem_nil
  | cons first rest ih =>
    obtain ⟨hfirst, hrest⟩ := List.nodup_cons.mp hnodup
    unfold get?
    rcases List.mem_cons.mp h with rfl | h
    · rw [List.find?_cons_of_pos (by simp)]
      rfl
    · have hne : first.1 ≠ entry.1 := fun heq => hfirst (List.mem_map.mpr ⟨entry, h, heq.symm⟩)
      rw [List.find?_cons_of_neg (by simpa using hne)]
      exact ih hrest h

/-- A name that is new comes last. -/
theorem put_of_not_mem (h : name ∉ table.names) :
    table.put name value = table ++ [(name, value)] := by
  induction table with
  | nil => rfl
  | cons entry rest ih =>
    obtain ⟨n, v⟩ := entry
    obtain ⟨hn, hrest⟩ := not_or.mp (mt List.mem_cons.mpr h)
    rw [put, if_neg (Ne.symm hn), ih hrest]
    rfl

theorem names_put_of_mem (h : name ∈ table.names) : (table.put name value).names = table.names := by
  induction table with
  | nil => exact absurd h List.not_mem_nil
  | cons entry rest ih =>
    obtain ⟨n, v⟩ := entry
    rw [put]
    split
    · rfl
    · rename_i hn
      have hrest : name ∈ Table.names rest := (List.mem_cons.mp h).resolve_left (Ne.symm hn)
      exact congrArg (n :: ·) (ih hrest)

/-- A table has each name once, if it had before. -/
theorem nodup_names_put (h : table.names.Nodup) : (table.put name value).names.Nodup := by
  by_cases hname : name ∈ table.names
  · rw [names_put_of_mem hname]
    exact h
  · rw [put_of_not_mem hname, names, List.map_append]
    refine List.nodup_append.mpr ⟨h, List.pairwise_singleton _ name, fun n hn m hm => ?_⟩
    rw [List.mem_singleton.mp hm]
    exact ne_of_mem_of_not_mem hn hname

theorem nodup_names_putAll (h : table.names.Nodup) (other : Table α) :
    (table.putAll other).names.Nodup := by
  unfold putAll
  induction other generalizing table with
  | nil => exact h
  | cons entry rest ih => exact ih (nodup_names_put h)

theorem put_put_self (value' : α) :
    (table.put name value').put name value = table.put name value := by
  induction table with
  | nil => simp [put]
  | cons entry rest ih =>
    obtain ⟨n, v⟩ := entry
    by_cases hn : n = name
    · simp [put, hn]
    · simp [put, hn, ih]

/-- Two names can be put in in either order, once one of them is there. -/
theorem put_put_comm {n : String} {v : α} (hne : n ≠ name) (h : name ∈ table.names) :
    (table.put n v).put name value = (table.put name value).put n v := by
  induction table with
  | nil => exact absurd h List.not_mem_nil
  | cons entry rest ih =>
    obtain ⟨m, w⟩ := entry
    by_cases hm : m = name
    · subst hm
      simp [put, Ne.symm hne]
    · have hrest : name ∈ Table.names rest := (List.mem_cons.mp h).resolve_left (Ne.symm hm)
      by_cases hmn : m = n
      · subst hmn
        simp [put, hm]
      · simp [put, hm, hmn, ih hrest]

/-- A name that is there can be put in before the others as well as after them. -/
theorem putAll_put_comm (hname : name ∈ table.names) (hother : name ∉ other.names) :
    (table.putAll other).put name value = (table.put name value).putAll other := by
  unfold putAll
  induction other generalizing table with
  | nil => rfl
  | cons entry rest ih =>
    obtain ⟨n, v⟩ := entry
    obtain ⟨hn, hrest⟩ := not_or.mp (mt List.mem_cons.mpr hother)
    rw [List.foldl_cons, List.foldl_cons, ih (mem_names_put.mpr (Or.inr hname)) hrest,
      put_put_comm (Ne.symm hn) hname]

/-- **What is found after others were put in**: the last of them under the name, or else what was
there before. -/
theorem get?_putAll :
    (table.putAll other).get? name = (Table.get? other.reverse name).or (table.get? name) := by
  unfold putAll
  induction other generalizing table with
  | nil => rfl
  | cons entry rest ih =>
    obtain ⟨n, v⟩ := entry
    rw [List.foldl_cons, ih, List.reverse_cons]
    unfold get?
    rw [List.find?_append]
    by_cases hn : n = name
    · subst hn
      have hput := get?_put_self table n v
      unfold get? at hput
      rw [hput]
      cases List.find? (·.1 = n) rest.reverse <;> simp
    · have hput := get?_put_of_ne table v (Ne.symm hn)
      unfold get? at hput
      rw [hput]
      cases List.find? (·.1 = name) rest.reverse <;> simp [hn]

/-- What is found in a table that was filled from a list. -/
theorem get?_putAll_map {β : Type} (l : List β) (key : β → String) (val : β → α) :
    (putAll .empty (l.map fun b => (key b, val b))).get? name
      = (l.reverse.find? fun b => key b = name).map val := by
  rw [get?_putAll, ← List.map_reverse, get?, List.find?_map, Option.map_map]
  exact Option.or_none

/-- **To put in a table with one more entry** is to put in the table, and then the entry. -/
theorem putAll_put (h : other.names.Nodup) :
    table.putAll (other.put name value) = (table.putAll other).put name value := by
  induction other generalizing table with
  | nil => rfl
  | cons entry rest ih =>
    obtain ⟨n, v⟩ := entry
    obtain ⟨hn, hrest⟩ := List.nodup_cons.mp h
    rw [put]
    split
    · rename_i hname
      subst hname
      show (table.put n value).putAll rest = ((table.put n v).putAll rest).put n value
      rw [putAll_put_comm (mem_names_put.mpr (Or.inl rfl)) hn, put_put_self]
    · exact ih hrest

/-- **To put in a table that others were put into** is to put in one after the other. -/
theorem putAll_putAll (h : other.names.Nodup) (more : Table α) :
    table.putAll (other.putAll more) = (table.putAll other).putAll more := by
  induction more generalizing other with
  | nil => rfl
  | cons entry rest ih =>
    obtain ⟨n, v⟩ := entry
    show table.putAll ((other.put n v).putAll rest) = ((table.putAll other).put n v).putAll rest
    rw [ih (nodup_names_put h), putAll_put h]

/-- To put in two lists is to put in one after the other. -/
theorem putAll_append (one other : Table α) :
    table.putAll (one ++ other) = (table.putAll one).putAll other :=
  List.foldl_append

/-- To put in a table that was filled from a list is to put in the list. -/
theorem putAll_putAll_empty (more : Table α) :
    table.putAll (putAll .empty more) = table.putAll more := by
  have hempty : (empty : Table α).names.Nodup := List.nodup_nil
  exact putAll_putAll hempty more

end Data.Table

namespace Workspace

open CallTree.Data (Table)
open CallTree.Files (Tree Path)
open CallTree.Syntax (Node Site)

/-! ## Workspaces that are loaded -/

/-- **What holds of a workspace after a directory was opened.** -/
theorem openPath_induction {P : Workspace → Prop} {ws : Workspace} (start : P ws)
    (index : ∀ ws file isPackage, file.tree = file.source.tree → P ws →
      P (Workspace.index ws file isPackage).1)
    (opened : ∀ ws : Workspace, P ws → P { ws with opened := true })
    (tree : Tree) (excluded : List String) (root : Path) :
    P (openPath ws tree excluded root).workspace := by
  have hadded : ∀ base, ∀ l : Loading, P l.workspace → ∀ path,
      P (Loading.addFile tree base l path).workspace := by
    intro base l hl path
    unfold Loading.addFile
    split
    · exact hl
    · dsimp only
      split
      · unfold Loading.add
        split
        · exact hl
        · exact index _ _ _ rfl hl
      · exact hl
  have hfinish : ∀ base, P ((codePaths tree excluded root).foldl (Loading.addFile tree base)
      ⟨ws, [], none⟩).finish.workspace := by
    intro base
    have hloaded := List.foldlRecOn (motive := fun l : Loading => P l.workspace)
      (codePaths tree excluded root) (Loading.addFile tree base) (b := ⟨ws, [], none⟩) start
      fun l hl path _ => hadded base l hl path
    unfold Loading.finish
    split
    · exact hloaded
    · exact opened _ hloaded
  unfold openPath
  dsimp only
  split
  · exact start
  · exact start
  · split
    · exact hfinish _
    · exact hfinish _
  · split
    · exact hfinish _
    · exact hfinish _

/-- **A workspace that was loaded**: texts and directories were opened in it, any number of
times, whether or not everything in them could be read. -/
inductive Loaded : Workspace → Prop
  | empty : Loaded {}
  | openSources {ws : Workspace} (sources : List (String × String)) (h : Loaded ws) :
    Loaded (openSources ws sources).workspace
  | openPath {ws : Workspace} (tree : Tree) (excluded : List String) (root : Path)
    (h : Loaded ws) : Loaded (openPath ws tree excluded root).workspace

/-- **What holds of every workspace that was loaded**: it holds of the empty one, and indexing
one more file keeps it. -/
theorem Loaded.induction {P : Workspace → Prop} (start : P {})
    (index : ∀ ws file isPackage, file.tree = file.source.tree → P ws →
      P (Workspace.index ws file isPackage).1)
    (opened : ∀ ws : Workspace, P ws → P { ws with opened := true }) {ws : Workspace}
    (h : Loaded ws) : P ws := by
  induction h with
  | empty => exact start
  | openSources sources _ ih =>
    exact openSources_induction ih (fun ws file isPackage _ => index ws file isPackage) opened
      sources
  | openPath tree excluded root _ ih =>
    exact openPath_induction ih index opened tree excluded root

theorem loaded_ofSources (sources : List (String × String)) : Loaded (ofSources sources) :=
  .openSources sources .empty

/-- The workspace that is opened from some sources in the order in which they are given. -/
def inTurn (sources : List (String × String)) : Workspace :=
  (sources.foldl Loading.addSource ⟨{}, [], none⟩).finish.workspace

/-- Sources that are given in order are opened as they are given. -/
theorem ofSources_eq_inTurn {sources : List (String × String)}
    (h : sources.Pairwise fun a b => a.1 ≤ b.1) : ofSources sources = inTurn sources := by
  have hsorted : sources.mergeSort (fun a b => decide (a.1 ≤ b.1)) = sources :=
    List.mergeSort_of_pairwise (h.imp fun hle => decide_eq_true hle)
  unfold ofSources openSources
  rw [hsorted]
  rfl

theorem loaded_inTurn {sources : List (String × String)}
    (h : sources.Pairwise fun a b => a.1 ≤ b.1) : Loaded (inTurn sources) :=
  ofSources_eq_inTurn h ▸ loaded_ofSources sources

theorem Loaded.wellIndexed {ws : Workspace} (h : Loaded ws) : ws.WellIndexed :=
  h.induction wellIndexed_empty (fun _ file isPackage _ hws => hws.index file isPackage)
    fun _ hws => ⟨hws.classes, hws.nested⟩

theorem Loaded.filed {ws : Workspace} (h : Loaded ws) : ws.Filed :=
  h.induction filed_empty (fun _ file isPackage _ hws => hws.index file isPackage)
    fun _ hws => ⟨hws.typeNames, hws.definitionNames, hws.methods, hws.functions, hws.classes,
      hws.nested, hws.enclosing⟩

/-! ## What a file brings -/

/-- **What a file brings**: what comes of indexing it as the only one. -/
def CodeFile.outline (file : CodeFile) (isPackage : Bool) : Indexing :=
  Indexing.addFile file
    { workspace := {}, module' := { moduleName := file.moduleName, isPackage := isPackage } }

/-- **Indexing that goes on where there were other files**: it stands as far as it would without
them, and the tables hold what came before and what it has brought. -/
structure Indexing.Beside (ws : Workspace) (alone i : Indexing) : Prop where
  module_eq : i.module' = alone.module'
  defect_eq : i.defect = alone.defect
  workspace_eq : i.workspace = { ws with
    types := ws.types.putAll alone.workspace.types
    definitions := ws.definitions.putAll alone.workspace.definitions }
  types : alone.workspace.types.names.Nodup
  definitions : alone.workspace.definitions.names.Nodup

namespace Indexing.Beside

variable {ws : Workspace} {alone i : Indexing} {file : CodeFile}

theorem addImport (h : Beside ws alone i) (n : Node) :
    Beside ws (alone.addImport file n) (i.addImport file n) := by
  unfold Indexing.addImport
  rw [h.defect_eq, h.module_eq]
  split
  · exact h
  · split
    · exact ⟨rfl, rfl, h.workspace_eq, h.types, h.definitions⟩
    · exact ⟨rfl, rfl, h.workspace_eq, h.types, h.definitions⟩

/-- What a class brings can be put in after the rest. -/
theorem addHarvest (h : Beside ws alone i) (harvest : Harvest) :
    Workspace.addHarvest i.workspace harvest = { ws with
      types := ws.types.putAll (Workspace.addHarvest alone.workspace harvest).types
      definitions :=
        ws.definitions.putAll (Workspace.addHarvest alone.workspace harvest).definitions } := by
  unfold Workspace.addHarvest
  rw [h.workspace_eq]
  dsimp only
  rw [Table.putAll_putAll h.types, Table.putAll_putAll h.definitions]

theorem addClass (h : Beside ws alone i) (site : Site) :
    Beside ws (alone.addClass file site) (i.addClass file site) := by
  unfold Indexing.addClass
  split
  · exact ⟨h.module_eq, rfl, h.workspace_eq, h.types, h.definitions⟩
  · rename_i symbol _
    have hworkspace := h.addHarvest (file.harvest symbol site.node)
    have htypes := Table.nodup_names_putAll h.types
      ((file.harvest symbol site.node).types.map fun t => (t.symbol.qualifiedName, t))
    have hdefinitions := Table.nodup_names_putAll h.definitions
      ((file.harvest symbol site.node).definitions.map fun d => (d.symbol.qualifiedName, d))
    dsimp only
    split
    · exact ⟨h.module_eq, rfl, hworkspace, htypes, hdefinitions⟩
    · rw [h.module_eq]
      exact ⟨rfl, rfl, hworkspace, htypes, hdefinitions⟩

theorem addFunction (h : Beside ws alone i) (site : Site) :
    Beside ws (alone.addFunction file site) (i.addFunction file site) := by
  unfold Indexing.addFunction
  split
  · exact ⟨h.module_eq, rfl, h.workspace_eq, h.types, h.definitions⟩
  · rw [h.module_eq, h.workspace_eq]
    refine ⟨rfl, h.defect_eq, ?_, h.types, Table.nodup_names_put h.definitions⟩
    dsimp only
    rw [Table.putAll_put h.definitions]

theorem addStatement (h : Beside ws alone i) (site : Site) :
    Beside ws (alone.addStatement file site) (i.addStatement file site) := by
  unfold Indexing.addStatement
  rw [h.defect_eq]
  split
  · exact h
  · split
    · exact h.addClass site
    · split
      · exact h.addFunction site
      · exact h

/-- One step for each item of a list. -/
theorem foldl {α : Type} {step : Indexing → α → Indexing}
    (hstep : ∀ {alone i}, Beside ws alone i → ∀ a, Beside ws (step alone a) (step i a))
    (h : Beside ws alone i) (l : List α) : Beside ws (l.foldl step alone) (l.foldl step i) := by
  induction l generalizing alone i with
  | nil => exact h
  | cons a l ih => exact ih (hstep h a)

theorem addFile (h : Beside ws alone i) (file : CodeFile) :
    Beside ws (alone.addFile file) (i.addFile file) := by
  unfold Indexing.addFile
  dsimp only
  refine foldl (fun h site => h.addStatement site) ?_ _
  exact foldl (fun h site => h.addImport site.node) h _

end Indexing.Beside

/-- Indexing a file stands, beside whatever was there, as far as it would without it. -/
theorem beside_outline (ws : Workspace) (file : CodeFile) (isPackage : Bool) :
    Indexing.Beside ws (file.outline isPackage)
      (Indexing.addFile file
        { workspace := ws
          module' := { moduleName := file.moduleName, isPackage := isPackage } }) := by
  refine Indexing.Beside.addFile ?_ file
  exact ⟨rfl, rfl, rfl, List.nodup_nil, List.nodup_nil⟩

theorem CodeFile.nodup_types_outline (file : CodeFile) (isPackage : Bool) :
    (file.outline isPackage).workspace.types.names.Nodup :=
  (beside_outline {} file isPackage).types

/-- **A workspace after a file was indexed** holds what it held and what the file brings. -/
theorem index_eq (ws : Workspace) (file : CodeFile) (isPackage : Bool) :
    ws.index file isPackage
      = ({ ws with
            files := ws.files ++ [file]
            modules := ws.modules.put file.moduleName (file.outline isPackage).module'
            types := ws.types.putAll (file.outline isPackage).workspace.types
            definitions := ws.definitions.putAll (file.outline isPackage).workspace.definitions },
          (file.outline isPackage).defect) := by
  have hend := beside_outline { ws with files := ws.files ++ [file] } file isPackage
  unfold Workspace.index
  dsimp only
  rw [hend.module_eq, hend.defect_eq, hend.workspace_eq]

theorem Loaded.nodup_types {ws : Workspace} (h : Loaded ws) : ws.types.names.Nodup := by
  refine h.induction (P := fun ws => ws.types.names.Nodup) List.nodup_nil ?_ (fun _ h => h)
  intro ws file isPackage _ hws
  rw [index_eq]
  exact Table.nodup_names_putAll hws _

end Workspace

end CallTree
