import CallTree.Proofs.Gives
import CallTree.Proofs.Indexing
import CallTree.Workspace.Lookup

/-!
# How things are filed

Indexing fills four tables: modules, types, definitions, and the members of each type. Names
are looked up in one of them and what is found is then looked for in another, so the tables
have to go together. This module says how (`Filed`): types and definitions lie under their own
qualified names; every method that a class or a module knows has a definition under its name;
the class that a definition belongs to is indexed; and nothing in the tables is external.

What makes this more than a glance at the code is that declarations replace each other. Two
classes of one name share a place among the types, and so do two methods among the
definitions, and indexing may be broken off between the two tables. None of that takes a name
away.

There are two loops to follow, one over the statements of a class, which goes on into nested
classes, and one over the statements of a file. Each is gone through once
(`CodeFile.harvest_induction`, `index_induction`), and with them any number of openings
(`openSources_induction`); a property of indexed workspaces owes what a single step does.
-/

namespace CallTree

open CallTree.Data (Table)

namespace Data.Table

variable {α : Type} {table other : Table α} {name : String} {value v : α}

/-- A value that is put in comes with its name. -/
theorem mem_put {entry : String × α} (h : entry ∈ table.put name value) :
    entry = (name, value) ∨ entry ∈ table := by
  induction table with
  | nil => exact Or.inl (List.mem_singleton.mp h)
  | cons first rest ih =>
    obtain ⟨n, w⟩ := first
    rw [put] at h
    split at h
    · rename_i hn
      subst hn
      exact (List.mem_cons.mp h).imp id (List.mem_cons_of_mem _)
    · rcases List.mem_cons.mp h with rfl | h
      · exact Or.inr List.mem_cons_self
      · exact (ih h).imp id (List.mem_cons_of_mem _)

theorem mem_putAll {entry : String × α} (h : entry ∈ table.putAll other) :
    entry ∈ table ∨ entry ∈ other := by
  unfold putAll at h
  induction other generalizing table with
  | nil => exact Or.inl h
  | cons first rest ih =>
    rcases ih h with h | h
    · rcases mem_put h with rfl | h
      · exact Or.inr List.mem_cons_self
      · exact Or.inl h
    · exact Or.inr (List.mem_cons_of_mem _ h)

/-- What is found lies under the name. -/
theorem mem_of_get? (h : table.get? name = some v) : (name, v) ∈ table := by
  obtain ⟨entry, hentry, rfl⟩ := Option.map_eq_some_iff.mp h
  have hname : entry.1 = name := by simpa using List.find?_some hentry
  exact hname ▸ List.mem_of_find?_eq_some hentry

/-- Under each of its names a table has something. -/
theorem exists_get?_of_mem_names (h : name ∈ table.names) : ∃ v, table.get? name = some v := by
  obtain ⟨entry, hentry, rfl⟩ := List.mem_map.mp h
  cases hfound : table.find? (·.1 = entry.1) with
  | none => exact absurd (decide_eq_true rfl) (List.find?_eq_none.mp hfound entry hentry)
  | some found => exact ⟨found.2, by rw [get?, hfound]; rfl⟩

end Data.Table

namespace Workspace

open CallTree.Syntax (Node Site)

/-! ## Going through a class -/

section Harvests

variable {file : CodeFile} {Q : TypeSymbol → Node → Harvest → Prop}

/-- **What holds of whatever indexing a class brings**: it holds at the start, reading a defect
does not matter, and each declaration keeps it, where a nested class is one that it holds of
already. -/
theorem CodeFile.harvest_induction
    (start : ∀ symbol n, Q symbol n (Opened.mk { symbol := symbol } {}).harvest)
    (defect : ∀ symbol n (o : Opened) defect, Q symbol n o.harvest →
      Q symbol n { o.harvest with defect := some defect })
    (declare : ∀ symbol n (o : Opened), o.index.symbol = symbol → Q symbol n o.harvest →
      ∀ statement ∈ n.bodyStatements, ∀ d, file.declaration symbol statement = .ok d →
      ∀ below : Harvest, (∀ inner site, d = .nested inner site → Q inner statement.node below) →
        ((∀ inner site, d ≠ .nested inner site) → below = {}) →
        Q symbol n (o.declare file d below).harvest)
    (symbol : TypeSymbol) (n : Node) : Q symbol n (file.harvest symbol n) := by
  -- on the size of the class, since a class inside it is smaller
  induction hsize : n.size using Nat.strongRecOn generalizing symbol n with
  | _ size ih =>
    rw [CodeFile.harvest]
    refine And.right (List.foldlRecOn
      (motive := fun o : Opened => o.index.symbol = symbol ∧ Q symbol n o.harvest) _ _
      ⟨rfl, start symbol n⟩ ?_)
    rintro o ⟨hsymbol, ho⟩ statement -
    dsimp only
    split
    · exact ⟨hsymbol, ho⟩
    · split
      · exact ⟨hsymbol, defect symbol n o _ ho⟩
      · rename_i d hd
        have hindex : ∀ below, (o.declare file d below).index.symbol = symbol := by
          intro below
          unfold Opened.declare
          dsimp only
          split
          · exact hsymbol
          · exact (o.index.symbol_declare d).trans hsymbol
        refine ⟨hindex _, declare symbol n o hsymbol ho statement.1 statement.2 d hd _ ?_ ?_⟩
        · rintro inner site rfl
          exact ih _ (hsize ▸ size_lt_of_mem_bodyStatements statement.2) inner _ rfl
        · intro hother
          cases d with
          | nested inner site => exact absurd rfl (hother inner site)
          | method _ _ _ => rfl
          | property _ => rfl
          | field _ _ => rfl
          | nothing => rfl

/-- **What a class has brought after one more declaration**: what it had brought and what comes
from below, the definition that the declaration brings, and the class itself, with the
declaration unless there was a defect below. -/
theorem Opened.harvest_declare (file : CodeFile) (o : Opened) (d : Declaration)
    (below : Harvest) :
    ∃ index, (index = o.index ∨ index = (o.index.declare d).1)
      ∧ (o.declare file d below).harvest.types = index :: (o.inner.types ++ below.types)
      ∧ (o.declare file d below).harvest.definitions
        = o.inner.definitions ++ (d.definition? file o.index.symbol).toList
          ++ below.definitions := by
  unfold Opened.declare
  dsimp only
  split
  · exact ⟨_, Or.inl rfl, rfl, rfl⟩
  · exact ⟨_, Or.inr rfl, rfl, rfl⟩

end Harvests

/-! ## Going through a file -/

/-- **What holds of a workspace after a file was indexed**, when `R` holds while it is being
indexed. -/
theorem index_induction {P : Workspace → Prop} {R : Indexing → Prop} {file : CodeFile}
    {ws : Workspace} {isPackage : Bool}
    (start : R {
      workspace := { ws with files := ws.files ++ [file] }
      module' := { moduleName := file.moduleName, isPackage := isPackage } })
    (addImport : ∀ i n, R i → R (i.addImport file n))
    (addClass : ∀ i, ∀ site ∈ file.tree.statements, site.node.isKind .classDefinition →
      R i → R (i.addClass file site))
    (addFunction : ∀ i, ∀ site ∈ file.tree.statements, site.node.isKind .functionDefinition →
      R i → R (i.addFunction file site))
    (finish : ∀ i, R i →
      P { i.workspace with modules := i.workspace.modules.put file.moduleName i.module' }) :
    P (ws.index file isPackage).1 := by
  refine finish _ ?_
  unfold Indexing.addFile
  dsimp only
  refine List.foldlRecOn _ _ ?_ fun i hi site hsite => ?_
  · exact List.foldlRecOn _ _ start fun i hi site _ => addImport i site.node hi
  · unfold Indexing.addStatement
    split
    · exact hi
    · split
      · rename_i hclass
        exact addClass i site hsite hclass hi
      · split
        · rename_i hfunction
          exact addFunction i site hsite hfunction hi
        · exact hi

/-- **What holds of a workspace after sources were opened.** -/
theorem openSources_induction {P : Workspace → Prop} {ws : Workspace} (start : P ws)
    (index : ∀ ws file isPackage, (∃ text, file.source = .ofText text) →
      file.tree = file.source.tree → P ws → P (Workspace.index ws file isPackage).1)
    (opened : ∀ ws : Workspace, P ws → P { ws with opened := true })
    (sources : List (String × String)) : P (openSources ws sources).workspace := by
  have hadded : ∀ l : Loading, P l.workspace → ∀ source, P (l.addSource source).workspace := by
    intro l hl source
    unfold Loading.addSource
    split
    · exact hl
    · dsimp only
      unfold Loading.add
      split
      · exact hl
      · exact index _ _ _ ⟨_, rfl⟩ rfl hl
  have hloaded : ∀ sources : List (String × String),
      P (sources.foldl Loading.addSource ⟨ws, [], none⟩).workspace := fun sources =>
    List.foldlRecOn (motive := fun l : Loading => P l.workspace) _ _ start
      fun l hl source _ => hadded l hl source
  unfold openSources Loading.finish
  dsimp only
  split
  · exact hloaded _
  · exact opened _ (hloaded _)

/-! ## What a class knows -/

/-- A method that a class knows, in force or replaced by a later one. -/
def TypeIndex.HasMethod (index : TypeIndex) (m : MethodSymbol) : Prop :=
  m ∈ index.methods.values ∨ Symbol.method m ∈ index.members

/-- The fields that are declared leave the methods alone. -/
theorem TypeIndex.hasMethod_declareField {index : TypeIndex} {name typeName : String}
    {m : MethodSymbol} (h : (index.declareField name typeName).HasMethod m) :
    index.HasMethod m := by
  unfold declareField at h
  split at h
  · exact h
  · refine h.imp id fun hm => ?_
    rcases List.mem_append.mp hm with hm | hm
    · exact hm
    · cases List.mem_singleton.mp hm

theorem TypeIndex.hasMethod_declareAssigned {index : TypeIndex}
    {assigned : Except Text.Utf8.Defect (List Assigned)} {m : MethodSymbol}
    (h : (index.declareAssigned assigned).1.HasMethod m) : index.HasMethod m := by
  unfold declareAssigned at h
  split at h
  · exact h
  · revert h
    refine List.foldlRecOn
      (motive := fun i : TypeIndex => i.HasMethod m → index.HasMethod m) _ _ id ?_
    rintro index' ih ⟨name, typeName⟩ - h
    exact ih (hasMethod_declareField h)

/-- **A method that a class knows after a declaration** it knew before, or it is the one
declared. -/
theorem TypeIndex.hasMethod_declare {index : TypeIndex} {d : Declaration} {m : MethodSymbol}
    (h : (index.declare d).1.HasMethod m) :
    index.HasMethod m ∨ ∃ site assigned, d = .method m site assigned := by
  cases d with
  | method symbol site assigned =>
    rcases hasMethod_declareAssigned h with hm | hm
    · rcases Table.mem_values_put hm with rfl | hm
      · exact Or.inr ⟨site, assigned, rfl⟩
      · exact Or.inl (Or.inl hm)
    · rcases List.mem_append.mp hm with hm | hm
      · exact Or.inl (Or.inr hm)
      · cases List.mem_singleton.mp hm
        exact Or.inr ⟨site, assigned, rfl⟩
  | property symbol =>
    refine Or.inl (h.imp id fun hm => ?_)
    rcases List.mem_append.mp hm with hm | hm
    · exact hm
    · cases List.mem_singleton.mp hm
  | field name typeName => exact Or.inl (hasMethod_declareField h)
  | nested symbol site => exact Or.inl h
  | nothing => exact Or.inl h

/-! ## What a statement declares -/

/-- A class that is read from a source is not external. -/
theorem CodeFile.isExternal_classSymbol {file : CodeFile} {outer : Option TypeSymbol} {site : Site}
    {t : TypeSymbol} (h : file.classSymbol outer site = .ok t) : t.isExternal = false := by
  unfold classSymbol at h
  obtain ⟨decorators, -, h⟩ := ok_of_bind h
  obtain ⟨bases, -, h⟩ := ok_of_bind h
  cases h
  rfl

theorem CodeFile.isExternal_functionSymbol {file : CodeFile} {site : Site} {m : MethodSymbol}
    (h : file.functionSymbol site = .ok m) : m.isExternal = false := by
  unfold functionSymbol at h
  obtain ⟨returnType, -, h⟩ := ok_of_bind h
  obtain ⟨decorators, -, h⟩ := ok_of_bind h
  obtain ⟨parameters, -, h⟩ := ok_of_bind h
  cases h
  rfl

/-- What a function of a class declares: nothing, a property, or a method that is not external
and has the function for its definition. -/
theorem CodeFile.methodDeclaration_cases {file : CodeFile} {owner : TypeSymbol} {site : Site}
    {d : Declaration} (h : file.methodDeclaration owner site = .ok d) :
    d = .nothing ∨ (∃ symbol, d = .property symbol)
      ∨ ∃ m assigned, d = .method m site assigned ∧ m.isExternal = false := by
  unfold methodDeclaration at h
  obtain ⟨decorators, -, h⟩ := ok_of_bind h
  dsimp only at h
  split at h
  · cases h
    exact Or.inl rfl
  · obtain ⟨returnType, -, h⟩ := ok_of_bind h
    split at h
    · cases h
      exact Or.inr (Or.inl ⟨_, rfl⟩)
    · obtain ⟨parameters, -, h⟩ := ok_of_bind h
      cases h
      exact Or.inr (Or.inr ⟨_, _, rfl, rfl⟩)

/-- What an expression statement of a class declares: nothing, or a field. -/
theorem CodeFile.fieldDeclaration_cases {file : CodeFile} {n : Node} {d : Declaration}
    (h : file.fieldDeclaration n = .ok d) :
    d = .nothing ∨ ∃ name typeName, d = .field name typeName := by
  unfold fieldDeclaration at h
  split at h
  · split at h
    · cases h
      exact Or.inl rfl
    · split at h
      · obtain ⟨typeName, -, h⟩ := ok_of_bind h
        cases h
        split
        · exact Or.inl rfl
        · exact Or.inr ⟨_, _, rfl⟩
      · cases h
        exact Or.inl rfl
  · cases h
    exact Or.inl rfl

/-- **What a statement declares is what it is**: a method or a class comes with the statement
itself, and is not external. -/
def Declaration.Tells (site : Site) : Declaration → Prop
  | .method m site' _ =>
    site' = site ∧ site.node.isKind .functionDefinition = true ∧ m.isExternal = false
  | .nested t site' =>
    site' = site ∧ site.node.isKind .classDefinition = true ∧ t.isExternal = false
  | _ => True

theorem CodeFile.tells_of_declaration {file : CodeFile} {owner : TypeSymbol} {site : Site}
    {d : Declaration} (h : file.declaration owner site = .ok d) : d.Tells site := by
  unfold declaration at h
  split at h
  · rename_i hkind
    rcases methodDeclaration_cases h with rfl | ⟨symbol, rfl⟩ | ⟨m, assigned, rfl, hm⟩
    · trivial
    · trivial
    · exact ⟨rfl, hkind, hm⟩
  · split at h
    · rename_i hkind
      cases hsymbol : file.classSymbol (some owner) site with
      | error defect => rw [hsymbol] at h; cases h
      | ok t =>
        rw [hsymbol] at h
        cases h
        exact ⟨rfl, hkind, isExternal_classSymbol hsymbol⟩
    · split at h
      · rcases fieldDeclaration_cases h with rfl | ⟨name, typeName, rfl⟩ <;> trivial
      · cases h
        trivial

/-! ## What a class brings goes together -/

/-- The names of the definitions that a class brings. -/
def Harvest.definedNames (h : Harvest) : List String := h.definitions.map (·.symbol.qualifiedName)

/-- **What a class brings goes together**: its methods have definitions, its definitions belong
to classes that are brought along, and nothing in it is external. -/
structure Harvest.Filed (h : Harvest) : Prop where
  methods : ∀ index ∈ h.types, ∀ m, index.HasMethod m →
    m.isExternal = false ∧ m.qualifiedName ∈ h.definedNames
  nested : ∀ index ∈ h.types, ∀ t ∈ index.nested.values, t.isExternal = false
  enclosing : ∀ d ∈ h.definitions, ∃ t, d.enclosing = some t ∧ t.isExternal = false
    ∧ t.qualifiedName ∈ h.names

theorem Harvest.filed_empty : ({} : Harvest).Filed :=
  ⟨fun _ h => absurd h List.not_mem_nil, fun _ h => absurd h List.not_mem_nil,
    fun _ h => absurd h List.not_mem_nil⟩

/-- A declaration keeps it so, if what comes from below goes together as well. -/
theorem Harvest.Filed.declare {file : CodeFile} {o : Opened} (ho : o.harvest.Filed)
    (hsymbol : o.index.symbol.isExternal = false) {site : Site} {d : Declaration}
    (hd : d.Tells site) {below : Harvest} (hbelow : below.Filed) :
    (o.declare file d below).harvest.Filed := by
  obtain ⟨index, hindex, htypes, hdefinitions⟩ := o.harvest_declare file d below
  have hdefined : (o.declare file d below).harvest.definedNames = o.harvest.definedNames
      ++ (d.definition? file o.index.symbol).toList.map (·.symbol.qualifiedName)
      ++ below.definedNames := by
    unfold Harvest.definedNames
    rw [hdefinitions, List.map_append, List.map_append]
    rfl
  have hnames : (o.declare file d below).harvest.names = o.harvest.names ++ below.names := by
    have hsame : index.symbol = o.index.symbol := by
      rcases hindex with rfl | rfl
      · rfl
      · exact o.index.symbol_declare d
    unfold Harvest.names
    rw [htypes, List.map_cons, List.map_append, hsame]
    rfl
  refine ⟨fun index' hindex' m hm => ?_, fun index' hindex' t ht => ?_, fun d' hd' => ?_⟩
  · -- a method of the class was there before or is the one declared
    have hown : ∀ m, index.HasMethod m → o.index.HasMethod m ∨ ∃ site' assigned,
        d = .method m site' assigned := by
      intro m hm
      rcases hindex with rfl | rfl
      · exact Or.inl hm
      · exact TypeIndex.hasMethod_declare hm
    rw [hdefined]
    rw [htypes, List.mem_cons, List.mem_append] at hindex'
    rcases hindex' with rfl | hindex' | hindex'
    · rcases hown m hm with hm | ⟨site', assigned, rfl⟩
      · obtain ⟨hm, hmem⟩ := ho.methods o.index List.mem_cons_self m hm
        exact ⟨hm, List.mem_append_left _ (List.mem_append_left _ hmem)⟩
      · refine ⟨hd.2.2, List.mem_append_left _ (List.mem_append_right _ ?_)⟩
        exact List.mem_singleton.mpr rfl
    · obtain ⟨hm, hmem⟩ := ho.methods index' (List.mem_cons_of_mem _ hindex') m hm
      exact ⟨hm, List.mem_append_left _ (List.mem_append_left _ hmem)⟩
    · obtain ⟨hm, hmem⟩ := hbelow.methods index' hindex' m hm
      exact ⟨hm, List.mem_append_right _ hmem⟩
  · rw [htypes, List.mem_cons, List.mem_append] at hindex'
    rcases hindex' with rfl | hindex' | hindex'
    · rcases hindex with rfl | rfl
      · exact ho.nested _ List.mem_cons_self t ht
      · rcases TypeIndex.mem_nested_declare ht with ht | ⟨site', rfl⟩
        · exact ho.nested _ List.mem_cons_self t ht
        · exact hd.2.2
    · exact ho.nested index' (List.mem_cons_of_mem _ hindex') t ht
    · exact hbelow.nested index' hindex' t ht
  · rw [hnames]
    rw [hdefinitions, List.mem_append, List.mem_append] at hd'
    rcases hd' with (hd' | hd') | hd'
    · obtain ⟨t, ht, hexternal, hmem⟩ := ho.enclosing d' hd'
      exact ⟨t, ht, hexternal, List.mem_append_left _ hmem⟩
    · cases d with
      | method m site' assigned =>
        cases List.mem_singleton.mp hd'
        exact ⟨o.index.symbol, rfl, hsymbol, List.mem_append_left _ List.mem_cons_self⟩
      | property _ => cases hd'
      | field _ _ => cases hd'
      | nested _ _ => cases hd'
      | nothing => cases hd'
    · obtain ⟨t, ht, hexternal, hmem⟩ := hbelow.enclosing d' hd'
      exact ⟨t, ht, hexternal, List.mem_append_right _ hmem⟩

/-- **What indexing a class brings goes together**, wherever it was broken off. -/
theorem CodeFile.filed_harvest (file : CodeFile) {symbol : TypeSymbol}
    (hsymbol : symbol.isExternal = false) (n : Node) : (file.harvest symbol n).Filed := by
  revert hsymbol
  refine CodeFile.harvest_induction
    (Q := fun symbol _ h => symbol.isExternal = false → h.Filed) ?_ ?_ ?_ symbol n
  · refine fun symbol n _ => ⟨fun index hindex m hm => ?_, fun index hindex t ht => ?_,
      fun _ h => absurd h List.not_mem_nil⟩
    · cases List.mem_singleton.mp hindex
      rcases hm with hm | hm <;> exact absurd hm List.not_mem_nil
    · cases List.mem_singleton.mp hindex
      exact absurd ht List.not_mem_nil
  · exact fun symbol n o defect ho hsymbol =>
      ⟨(ho hsymbol).methods, (ho hsymbol).nested, (ho hsymbol).enclosing⟩
  · intro symbol n o hindex ho statement hstatement d hd below hnested hother hsymbol
    have htells := CodeFile.tells_of_declaration hd
    refine (ho hsymbol).declare (hindex ▸ hsymbol) htells ?_
    cases d with
    | nested inner site => exact hnested inner site rfl htells.2.2
    | method _ _ _ => exact hother (fun _ _ h => by cases h) ▸ Harvest.filed_empty
    | property _ => exact hother (fun _ _ h => by cases h) ▸ Harvest.filed_empty
    | field _ _ => exact hother (fun _ _ h => by cases h) ▸ Harvest.filed_empty
    | nothing => exact hother (fun _ _ h => by cases h) ▸ Harvest.filed_empty

/-! ## Workspaces -/

/-- **A workspace is filed** when its types and definitions lie under their own names, the
methods of its classes and modules have definitions, its definitions belong to indexed classes,
and nothing in its tables is external. -/
structure Filed (ws : Workspace) : Prop where
  typeNames : ∀ entry ∈ ws.types, entry.2.symbol.qualifiedName = entry.1
  definitionNames : ∀ entry ∈ ws.definitions, entry.2.symbol.qualifiedName = entry.1
  methods : ∀ index ∈ ws.types.values, ∀ m, index.HasMethod m →
    m.isExternal = false ∧ m.qualifiedName ∈ ws.definitions.names
  functions : ∀ index ∈ ws.modules.values, ∀ m ∈ index.functions.values,
    m.isExternal = false ∧ m.qualifiedName ∈ ws.definitions.names
  classes : ∀ index ∈ ws.modules.values, ∀ t ∈ index.classes.values, t.isExternal = false
  nested : ∀ index ∈ ws.types.values, ∀ t ∈ index.nested.values, t.isExternal = false
  enclosing : ∀ d ∈ ws.definitions.values, ∀ t, d.enclosing = some t →
    t.isExternal = false ∧ t.qualifiedName ∈ ws.types.names

theorem filed_empty : ({} : Workspace).Filed := by
  constructor <;> exact fun _ h => absurd h List.not_mem_nil

/-- The definitions after a class was put in. -/
theorem mem_definitions_addHarvest {ws : Workspace} {h : Harvest} {n : String} :
    n ∈ (addHarvest ws h).definitions.names ↔ n ∈ ws.definitions.names ∨ n ∈ h.definedNames := by
  show n ∈ (ws.definitions.putAll _).names ↔ _
  rw [Table.mem_names_putAll]
  unfold Harvest.definedNames Table.names
  rw [List.map_map]
  rfl

/-- The values of a table that was filled from a list. -/
theorem mem_of_mem_values_putAll {α : Type} {table : Table α} {l : List α} {name : α → String}
    {v : α} (h : v ∈ (table.putAll (l.map fun a => (name a, a))).values) :
    v ∈ table.values ∨ v ∈ l := by
  refine (Table.mem_values_putAll h).imp id fun hv => ?_
  unfold Table.values at hv
  rw [List.map_map] at hv
  simpa using hv

/-- Putting in what a class brings keeps a workspace filed. -/
theorem Filed.addHarvest {ws : Workspace} (hws : ws.Filed) {h : Harvest} (hh : h.Filed) :
    (addHarvest ws h).Filed where
  typeNames entry hentry := by
    rcases Table.mem_putAll hentry with hentry | hentry
    · exact hws.typeNames entry hentry
    · obtain ⟨index, -, rfl⟩ := List.mem_map.mp hentry
      rfl
  definitionNames entry hentry := by
    rcases Table.mem_putAll hentry with hentry | hentry
    · exact hws.definitionNames entry hentry
    · obtain ⟨d, -, rfl⟩ := List.mem_map.mp hentry
      rfl
  methods index hindex m hm := by
    rw [mem_definitions_addHarvest]
    rcases mem_of_mem_values_putAll hindex with hindex | hindex
    · exact (hws.methods index hindex m hm).imp id Or.inl
    · exact (hh.methods index hindex m hm).imp id Or.inr
  functions index hindex m hm := by
    rw [mem_definitions_addHarvest]
    exact (hws.functions index hindex m hm).imp id Or.inl
  classes := hws.classes
  nested index hindex t ht := by
    rcases mem_of_mem_values_putAll hindex with hindex | hindex
    · exact hws.nested index hindex t ht
    · exact hh.nested index hindex t ht
  enclosing d hd t ht := by
    rw [mem_names_addHarvest]
    rcases mem_of_mem_values_putAll hd with hd | hd
    · exact (hws.enclosing d hd t ht).imp id Or.inl
    · obtain ⟨t', ht', hexternal, hmem⟩ := hh.enclosing d hd
      cases ht.symm.trans ht'
      exact ⟨hexternal, Or.inr hmem⟩

/-- **A module that is being indexed** is filed when the workspace is and what the module knows
so far goes together with it. -/
structure Indexing.Filed (i : Indexing) : Prop where
  workspace : i.workspace.Filed
  functions : ∀ m ∈ i.module'.functions.values,
    m.isExternal = false ∧ m.qualifiedName ∈ i.workspace.definitions.names
  classes : ∀ t ∈ i.module'.classes.values, t.isExternal = false

namespace Indexing.Filed

variable {i : Indexing} {file : CodeFile}

theorem addImport (h : i.Filed) (n : Node) : (i.addImport file n).Filed := by
  unfold Indexing.addImport
  split
  · exact h
  · split <;> exact ⟨h.workspace, h.functions, h.classes⟩

theorem addClass (h : i.Filed) (site : Site) : (i.addClass file site).Filed := by
  unfold Indexing.addClass
  split
  · exact ⟨h.workspace, h.functions, h.classes⟩
  · rename_i symbol hsymbol
    have hexternal := CodeFile.isExternal_classSymbol hsymbol
    have hworkspace := h.workspace.addHarvest (file.filed_harvest hexternal site.node)
    have hfunctions : ∀ m ∈ i.module'.functions.values, m.isExternal = false ∧ m.qualifiedName
        ∈ (addHarvest i.workspace (file.harvest symbol site.node)).definitions.names :=
      fun m hm => (h.functions m hm).imp id fun hmem => mem_definitions_addHarvest.mpr (Or.inl hmem)
    dsimp only
    split
    · exact ⟨hworkspace, hfunctions, h.classes⟩
    · refine ⟨hworkspace, hfunctions, fun t ht => ?_⟩
      rcases Table.mem_values_put ht with rfl | ht
      · exact hexternal
      · exact h.classes t ht

theorem addFunction (h : i.Filed) (site : Site) : (i.addFunction file site).Filed := by
  unfold Indexing.addFunction
  split
  · exact ⟨h.workspace, h.functions, h.classes⟩
  · rename_i symbol hsymbol
    have hkept : ∀ {n : String}, n ∈ i.workspace.definitions.names →
        n ∈ (i.workspace.definitions.put symbol.qualifiedName ⟨symbol, site, file, none⟩).names :=
      fun hn => Table.mem_names_put.mpr (Or.inr hn)
    refine ⟨⟨h.workspace.typeNames, fun entry hentry => ?_, fun index hindex m hm => ?_,
      fun index hindex m hm => ?_, h.workspace.classes, h.workspace.nested,
      fun d hd t ht => ?_⟩, fun m hm => ?_, h.classes⟩
    · rcases Table.mem_put hentry with rfl | hentry
      · rfl
      · exact h.workspace.definitionNames entry hentry
    · exact (h.workspace.methods index hindex m hm).imp id hkept
    · exact (h.workspace.functions index hindex m hm).imp id hkept
    · rcases Table.mem_values_put hd with rfl | hd
      · cases ht
      · exact h.workspace.enclosing d hd t ht
    · rcases Table.mem_values_put hm with rfl | hm
      · exact ⟨CodeFile.isExternal_functionSymbol hsymbol, Table.mem_names_put.mpr (Or.inl rfl)⟩
      · exact (h.functions m hm).imp id hkept

end Indexing.Filed

/-- **Indexing a file** keeps a workspace filed. -/
theorem Filed.index {ws : Workspace} (hws : ws.Filed) (file : CodeFile) (isPackage : Bool) :
    (ws.index file isPackage).1.Filed := by
  refine index_induction (R := Indexing.Filed) ?_ (fun _ n hi => hi.addImport n)
    (fun _ site _ _ hi => hi.addClass site) (fun _ site _ _ hi => hi.addFunction site) ?_
  · refine ⟨⟨hws.typeNames, hws.definitionNames, hws.methods, hws.functions, hws.classes,
      hws.nested, hws.enclosing⟩, fun _ h => absurd h List.not_mem_nil,
      fun _ h => absurd h List.not_mem_nil⟩
  · intro i hi
    refine ⟨hi.workspace.typeNames, hi.workspace.definitionNames, hi.workspace.methods,
      fun index hindex m hm => ?_, fun index hindex t ht => ?_, hi.workspace.nested,
      hi.workspace.enclosing⟩
    · rcases Table.mem_values_put hindex with rfl | hindex
      · exact hi.functions m hm
      · exact hi.workspace.functions index hindex m hm
    · rcases Table.mem_values_put hindex with rfl | hindex
      · exact hi.classes t ht
      · exact hi.workspace.classes index hindex t ht

/-- **Opening sources** keeps a workspace filed, however often it is done. -/
theorem Filed.openSources {ws : Workspace} (hws : ws.Filed) (sources : List (String × String)) :
    (openSources ws sources).workspace.Filed :=
  openSources_induction hws (fun _ file isPackage _ _ h => h.index file isPackage)
    (fun _ h => ⟨h.typeNames, h.definitionNames, h.methods, h.functions, h.classes, h.nested,
      h.enclosing⟩) sources

theorem filed_ofSources (sources : List (String × String)) : (ofSources sources).Filed :=
  filed_empty.openSources sources

/-! ## Definitions -/

/-- What is found as a definition is filed under some name. -/
theorem exists_get?_of_definitionOf {ws : Workspace} {m : MethodSymbol} {d : Definition}
    (h : ws.definitionOf m = .ok (some d)) : ∃ name, ws.definitions.get? name = some d := by
  unfold definitionOf at h
  split at h
  · cases h
  · split at h
    · rename_i d' hd'
      cases h
      exact ⟨_, hd'⟩
    · split at h
      · split at h
        · unfold inheritedConstructor at h
          obtain ⟨lineage, -, h⟩ := ok_of_bind h
          obtain ⟨m', -, hd'⟩ := Option.bind_eq_some_iff.mp (Except.ok.inj h)
          exact ⟨_, hd'⟩
        · cases h
      · cases h

/-! ## Scopes -/

/-- Indexing a file leaves the scopes that are kept alone. -/
theorem scopes_index (ws : Workspace) (file : CodeFile) (isPackage : Bool) :
    (ws.index file isPackage).1.scopes = ws.scopes := by
  refine index_induction (P := fun ws' => ws'.scopes = ws.scopes)
    (R := fun i => i.workspace.scopes = ws.scopes) rfl (fun i n hi => ?_)
    (fun i site _ _ hi => ?_) (fun i site _ _ hi => ?_) (fun i hi => hi)
  · unfold Indexing.addImport
    split
    · exact hi
    · split <;> exact hi
  · unfold Indexing.addClass
    split
    · exact hi
    · dsimp only
      split <;> exact hi
  · unfold Indexing.addFunction
    split <;> exact hi

/-- **So does opening sources.** -/
theorem scopes_openSources (ws : Workspace) (sources : List (String × String)) :
    (openSources ws sources).workspace.scopes = ws.scopes :=
  openSources_induction (P := fun ws' => ws'.scopes = ws.scopes) rfl
    (fun ws' file isPackage _ _ h => (scopes_index ws' file isPackage).trans h)
    (fun _ h => h) sources

end Workspace

end CallTree
