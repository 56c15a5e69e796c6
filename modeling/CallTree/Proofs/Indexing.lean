import CallTree.Workspace.Loading

/-!
# What is found is indexed

A class is entered in three places: under its name in its module or in the class around it,
and under its qualified name among the types of the workspace. Names are looked up in the
first two, and what is found is then looked for in the third. Indexing goes from the outside
in and may be broken off by a name that cannot be read, so it is not plain that the third
place is filled whenever one of the others is. It is (`WellIndexed`): a class is entered
where it can be found only after it was gone through, and what was gone through is entered
even if something in it could not be read. Later declarations replace earlier ones under
the same name, which takes no name away.

The argument follows the way in which a file is indexed. What a class brings is closed under
going to nested classes (`Harvest.Closed`), one statement after the other; and each statement
of a file, each file, and so any number of sources keep the workspace well indexed.
-/

namespace CallTree

open CallTree.Data (Table)

/-! ## Tables -/

namespace Data.Table

variable {α : Type} {table other : Table α} {name n : String} {value v : α}

/-- What is found in a table is one of its values. -/
theorem mem_values_of_get? (h : table.get? name = some v) : v ∈ table.values := by
  obtain ⟨entry, hentry, rfl⟩ := Option.map_eq_some_iff.mp h
  exact List.mem_map_of_mem (List.mem_of_find?_eq_some hentry)

theorem mem_names_put : n ∈ (table.put name value).names ↔ n = name ∨ n ∈ table.names := by
  unfold names
  induction table with
  | nil => simp [put]
  | cons entry rest ih =>
    obtain ⟨m, w⟩ := entry
    rw [put]
    split
    case isTrue h =>
      subst h
      simp
    case isFalse h =>
      rw [List.map_cons, List.mem_cons, ih, List.map_cons, List.mem_cons]
      exact or_left_comm

/-- What is in a table was put in or was there before. -/
theorem mem_values_put (h : v ∈ (table.put name value).values) :
    v = value ∨ v ∈ table.values := by
  unfold values at h ⊢
  induction table with
  | nil => simpa [put] using h
  | cons entry rest ih =>
    obtain ⟨m, w⟩ := entry
    rw [put] at h
    split at h
    · rw [List.map_cons, List.mem_cons] at h
      exact h.imp id (List.mem_cons_of_mem w)
    · rw [List.map_cons, List.mem_cons] at h
      rcases h with rfl | h
      · exact Or.inr List.mem_cons_self
      · exact (ih h).imp id (List.mem_cons_of_mem w)

theorem mem_names_putAll : n ∈ (table.putAll other).names ↔ n ∈ table.names ∨ n ∈ other.names := by
  unfold putAll
  induction other generalizing table with
  | nil => simp [names]
  | cons entry rest ih =>
    rw [List.foldl_cons, ih, mem_names_put]
    simp only [names, List.map_cons, List.mem_cons]
    rw [or_comm (a := _ = _), or_assoc]

theorem mem_values_putAll (h : v ∈ (table.putAll other).values) :
    v ∈ table.values ∨ v ∈ other.values := by
  unfold putAll at h
  induction other generalizing table with
  | nil => exact Or.inl h
  | cons entry rest ih =>
    rw [List.foldl_cons] at h
    rcases ih h with h | h
    · rcases mem_values_put h with rfl | h
      · exact Or.inr List.mem_cons_self
      · exact Or.inl h
    · exact Or.inr (List.mem_cons_of_mem _ h)

end Data.Table

namespace Workspace

open CallTree.Syntax (Node Site)

/-- The classes that the tables of a workspace know. -/
def declared (ws : Workspace) : List TypeSymbol :=
  ws.modules.values.flatMap (·.classes.values) ++ ws.types.values.flatMap (·.nested.values)

/-- **A workspace is well indexed** when the classes that are found in its modules and in its
classes are indexed. -/
structure WellIndexed (ws : Workspace) : Prop where
  classes : ∀ index ∈ ws.modules.values, ∀ t ∈ index.classes.values,
    t.qualifiedName ∈ ws.types.names
  nested : ∀ index ∈ ws.types.values, ∀ t ∈ index.nested.values,
    t.qualifiedName ∈ ws.types.names

theorem wellIndexed_empty : ({} : Workspace).WellIndexed :=
  ⟨fun _ h => absurd h List.not_mem_nil, fun _ h => absurd h List.not_mem_nil⟩

/-- Every declared type is in the table of types. -/
theorem WellIndexed.of_mem_declared {ws : Workspace} (h : ws.WellIndexed) {t : TypeSymbol}
    (ht : t ∈ ws.declared) : t.qualifiedName ∈ ws.types.names := by
  rcases List.mem_append.mp ht with ht | ht
  · obtain ⟨index, hindex, ht⟩ := List.mem_flatMap.mp ht
    exact h.classes index hindex t ht
  · obtain ⟨index, hindex, ht⟩ := List.mem_flatMap.mp ht
    exact h.nested index hindex t ht

/-! ## What a class brings -/

/-- The names under which what a class brings is entered. -/
def Harvest.names (h : Harvest) : List String := h.types.map (·.symbol.qualifiedName)

/-- **What a class brings is closed** under going to a nested class. -/
def Harvest.Closed (h : Harvest) : Prop :=
  ∀ index ∈ h.types, ∀ t ∈ index.nested.values, t.qualifiedName ∈ h.names

theorem Harvest.closed_empty : ({} : Harvest).Closed := fun _ h => absurd h List.not_mem_nil

/-- Declaring a field changes neither the class nor what is nested in it. -/
theorem TypeIndex.declareField_eq (index : TypeIndex) (name typeName : String) :
    (index.declareField name typeName).symbol = index.symbol
      ∧ (index.declareField name typeName).nested = index.nested := by
  unfold declareField
  split <;> exact ⟨rfl, rfl⟩

/-- Fields that are assigned to change neither the class nor the classes inside it. -/
theorem TypeIndex.declareAssigned_eq (index : TypeIndex)
    (assigned : Except Text.Utf8.Defect (List Assigned)) :
    (index.declareAssigned assigned).1.symbol = index.symbol
      ∧ (index.declareAssigned assigned).1.nested = index.nested := by
  unfold declareAssigned
  split
  · exact ⟨rfl, rfl⟩
  · refine List.foldlRecOn
      (motive := fun i : TypeIndex => i.symbol = index.symbol ∧ i.nested = index.nested)
      _ _ ⟨rfl, rfl⟩ ?_
    rintro index' ⟨hsymbol, hnested⟩ ⟨name, typeName⟩ -
    obtain ⟨hsymbol', hnested'⟩ := index'.declareField_eq name typeName
    exact ⟨hsymbol'.trans hsymbol, hnested'.trans hnested⟩

/-- A declaration does not change which class it is that is being gone through. -/
theorem TypeIndex.symbol_declare (index : TypeIndex) (d : Declaration) :
    (index.declare d).1.symbol = index.symbol := by
  cases d with
  | method symbol site assigned => exact (declareAssigned_eq _ assigned).1
  | property symbol => rfl
  | field name typeName => exact (index.declareField_eq name typeName).1
  | nested symbol site => rfl
  | nothing => rfl

/-- **What is nested after a declaration** was nested before it, or is what it declares. -/
theorem TypeIndex.mem_nested_declare {index : TypeIndex} {d : Declaration} {t : TypeSymbol}
    (ht : t ∈ (index.declare d).1.nested.values) :
    t ∈ index.nested.values ∨ ∃ site, d = .nested t site := by
  cases d with
  | method symbol site assigned =>
    have hnested := (declareAssigned_eq { index with
      methods := index.methods.put symbol.name symbol
      members := index.members ++ [Symbol.method symbol] } assigned).2
    exact Or.inl (hnested ▸ ht)
  | property symbol => exact Or.inl ht
  | field name typeName => exact Or.inl ((index.declareField_eq name typeName).2 ▸ ht)
  | nested symbol site =>
    rcases Table.mem_values_put ht with rfl | ht
    · exact Or.inr ⟨site, rfl⟩
    · exact Or.inl ht
  | nothing => exact Or.inl ht

/-- **A class that is being gone through** is in order when what is nested in it has been
brought in, and what was brought in is closed. -/
structure Opened.InOrder (symbol : TypeSymbol) (o : Opened) : Prop where
  symbol_eq : o.index.symbol = symbol
  nested : ∀ t ∈ o.index.nested.values, t.qualifiedName ∈ o.inner.names
  inner : o.inner.Closed

/-- What one more class brings takes no name away. -/
theorem Harvest.names_append (a b : List TypeIndex) :
    ({ types := a ++ b } : Harvest).names
      = ({ types := a } : Harvest).names ++ ({ types := b } : Harvest).names :=
  List.map_append

theorem Harvest.Closed.append {a b : Harvest} (ha : a.Closed) (hb : b.Closed) :
    ({ types := a.types ++ b.types } : Harvest).Closed := by
  intro index hindex t ht
  rw [names_append]
  rcases List.mem_append.mp hindex with hindex | hindex
  · exact List.mem_append_left _ (ha index hindex t ht)
  · exact List.mem_append_right _ (hb index hindex t ht)

namespace Opened.InOrder

variable {symbol : TypeSymbol} {o : Opened}

/-- **One more declaration** keeps a class in order, if what it declares has been gone
through. -/
theorem declare (h : o.InOrder symbol) (file : CodeFile) {d : Declaration} {below : Harvest}
    (hbelow : below.Closed)
    (hnested : ∀ t site, d = .nested t site → t.qualifiedName ∈ below.names) :
    (o.declare file d below).InOrder symbol := by
  have hinner : ({ types := o.inner.types ++ below.types } : Harvest).Closed :=
    h.inner.append hbelow
  unfold Opened.declare
  dsimp only
  split
  · refine ⟨h.symbol_eq, fun t ht => ?_, hinner⟩
    exact Harvest.names_append _ _ ▸ List.mem_append_left _ (h.nested t ht)
  · refine ⟨(o.index.symbol_declare d).trans h.symbol_eq, fun t ht => ?_, hinner⟩
    show t.qualifiedName ∈ ({ types := o.inner.types ++ below.types } : Harvest).names
    rw [Harvest.names_append]
    rcases TypeIndex.mem_nested_declare ht with ht | ⟨site, hd⟩
    · exact List.mem_append_left _ (h.nested t ht)
    · exact List.mem_append_right _ (hnested t site hd)

/-- What a class in order has brought is closed, and the class is in it. -/
theorem harvest (h : o.InOrder symbol) :
    o.harvest.Closed ∧ symbol.qualifiedName ∈ o.harvest.names := by
  refine ⟨fun index hindex t ht => ?_, ?_⟩
  · refine List.mem_cons_of_mem _ ?_
    rcases List.mem_cons.mp hindex with rfl | hindex
    · exact h.nested t ht
    · exact h.inner index hindex t ht
  · rw [← h.symbol_eq]
    exact List.mem_cons_self

end Opened.InOrder

/-- **What indexing a class brings is closed**, and the class is in it, wherever it was broken
off. -/
theorem CodeFile.closed_harvest (file : CodeFile) (symbol : TypeSymbol) (n : Node) :
    (file.harvest symbol n).Closed ∧ symbol.qualifiedName ∈ (file.harvest symbol n).names := by
  -- on the size of the class, since a class inside it is smaller
  induction hsize : n.size using Nat.strongRecOn generalizing symbol n with
  | _ size ih =>
    rw [CodeFile.harvest]
    refine Opened.InOrder.harvest ?_
    refine List.foldlRecOn _ _ ⟨rfl, fun _ h => absurd h List.not_mem_nil, Harvest.closed_empty⟩ ?_
    intro o ho statement _
    dsimp only
    split
    · exact ho
    · split
      · exact ⟨ho.symbol_eq, ho.nested, ho.inner⟩
      · rename_i d _
        cases d with
        | nested inner site =>
          have hlt := size_lt_of_mem_bodyStatements statement.2
          obtain ⟨hclosed, hmem⟩ := ih _ (hsize ▸ hlt) inner statement.1.node rfl
          refine ho.declare file hclosed fun t site' heq => ?_
          cases heq
          exact hmem
        | method _ _ _ => exact ho.declare file Harvest.closed_empty fun _ _ h => by cases h
        | property _ => exact ho.declare file Harvest.closed_empty fun _ _ h => by cases h
        | field _ _ => exact ho.declare file Harvest.closed_empty fun _ _ h => by cases h
        | nothing => exact ho.declare file Harvest.closed_empty fun _ _ h => by cases h

/-! ## Files -/

/-- The types after a class was put in. -/
theorem mem_names_addHarvest {ws : Workspace} {h : Harvest} {n : String} :
    n ∈ (addHarvest ws h).types.names ↔ n ∈ ws.types.names ∨ n ∈ h.names := by
  show n ∈ (ws.types.putAll _).names ↔ _
  rw [Table.mem_names_putAll]
  unfold Harvest.names Table.names
  rw [List.map_map]
  rfl

/-- **Putting in what a class brings** keeps a workspace well indexed. -/
theorem WellIndexed.addHarvest {ws : Workspace} (hws : ws.WellIndexed) {h : Harvest}
    (hclosed : h.Closed) : (addHarvest ws h).WellIndexed where
  classes index hindex t ht := mem_names_addHarvest.mpr (Or.inl (hws.classes index hindex t ht))
  nested index hindex t ht := by
    rw [mem_names_addHarvest]
    rcases Table.mem_values_putAll hindex with hindex | hindex
    · exact Or.inl (hws.nested index hindex t ht)
    · unfold Table.values at hindex
      rw [List.map_map, List.mem_map] at hindex
      obtain ⟨index', hindex', rfl⟩ := hindex
      exact Or.inr (hclosed index' hindex' t ht)

/-- **A module that is being indexed** is in order when the workspace is, and the classes of
the module are indexed. -/
structure Indexing.InOrder (i : Indexing) : Prop where
  workspace : i.workspace.WellIndexed
  classes : ∀ t ∈ i.module'.classes.values, t.qualifiedName ∈ i.workspace.types.names

namespace Indexing.InOrder

variable {i : Indexing}

theorem addImport (h : i.InOrder) (file : CodeFile) (n : Node) : (i.addImport file n).InOrder := by
  unfold Indexing.addImport
  split
  · exact h
  · split <;> exact ⟨h.workspace, h.classes⟩

/-- **A class** is put in together with those inside it. -/
theorem addClass (h : i.InOrder) (file : CodeFile) (site : Site) :
    (i.addClass file site).InOrder := by
  unfold Indexing.addClass
  split
  · exact ⟨h.workspace, h.classes⟩
  · rename_i symbol _
    obtain ⟨hclosed, hmem⟩ := file.closed_harvest symbol site.node
    have hworkspace := h.workspace.addHarvest hclosed
    have hclasses : ∀ t ∈ i.module'.classes.values, t.qualifiedName
        ∈ (Workspace.addHarvest i.workspace (file.harvest symbol site.node)).types.names :=
      fun t ht => mem_names_addHarvest.mpr (Or.inl (h.classes t ht))
    dsimp only
    split
    · exact ⟨hworkspace, hclasses⟩
    · refine ⟨hworkspace, fun t ht => ?_⟩
      rcases Table.mem_values_put ht with rfl | ht
      · exact mem_names_addHarvest.mpr (Or.inr hmem)
      · exact hclasses t ht

theorem addFunction (h : i.InOrder) (file : CodeFile) (site : Site) :
    (i.addFunction file site).InOrder := by
  unfold Indexing.addFunction
  split <;> exact ⟨⟨h.workspace.classes, h.workspace.nested⟩, h.classes⟩

theorem addStatement (h : i.InOrder) (file : CodeFile) (site : Site) :
    (i.addStatement file site).InOrder := by
  unfold Indexing.addStatement
  split
  · exact h
  · split
    · exact h.addClass file site
    · split
      · exact h.addFunction file site
      · exact h

theorem addFile (h : i.InOrder) (file : CodeFile) : (i.addFile file).InOrder := by
  unfold Indexing.addFile
  dsimp only
  refine List.foldlRecOn _ _ ?_ fun i hi site _ => hi.addStatement file site
  exact List.foldlRecOn _ _ h fun i hi site _ => hi.addImport file site.node

end Indexing.InOrder

/-- **Indexing a file** keeps a workspace well indexed. -/
theorem WellIndexed.index {ws : Workspace} (hws : ws.WellIndexed) (file : CodeFile)
    (isPackage : Bool) : (ws.index file isPackage).1.WellIndexed := by
  have hstart : Indexing.InOrder
      { workspace := { ws with files := ws.files ++ [file] }
        module' := { moduleName := file.moduleName, isPackage := isPackage } } :=
    ⟨⟨hws.classes, hws.nested⟩, fun _ h => absurd h List.not_mem_nil⟩
  have hend := hstart.addFile file
  refine ⟨fun index hindex t ht => ?_, hend.workspace.nested⟩
  rcases Table.mem_values_put hindex with rfl | hindex
  · exact hend.classes t ht
  · exact hend.workspace.classes index hindex t ht

/-! ## Workspaces -/

/-- **One more file**, whether or not it can be read to its end. -/
theorem WellIndexed.add {l : Loading} (h : l.workspace.WellIndexed) (path relative : Files.Path)
    (source : Syntax.Source) (isChecked : Bool) :
    (l.add path relative source isChecked).workspace.WellIndexed := by
  unfold Loading.add
  split
  · exact h
  · exact h.index _ _

/-- The workspace that is opened from some sources. -/
def ofSources (sources : List (String × String)) : Workspace := (openSources {} sources).workspace

/-- **A workspace that is opened from sources is well indexed.** -/
theorem wellIndexed_ofSources (sources : List (String × String)) :
    (ofSources sources).WellIndexed := by
  have hloaded : ∀ sources : List (String × String),
      (sources.foldl Loading.addSource ⟨{}, [], none⟩).workspace.WellIndexed := by
    intro sources
    refine List.foldlRecOn (motive := fun l : Loading => l.workspace.WellIndexed) _ _
      wellIndexed_empty ?_
    intro l hl source _
    unfold Loading.addSource
    split
    · exact hl
    · exact WellIndexed.add hl _ _ _ _
  have hfinish : ∀ l : Loading, l.workspace.WellIndexed → l.finish.workspace.WellIndexed := by
    intro l hl
    unfold Loading.finish
    split
    · exact hl
    · exact ⟨hl.classes, hl.nested⟩
  exact hfinish _ (hloaded _)

end Workspace

end CallTree
