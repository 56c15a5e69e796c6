import CallTree.Proofs.ClassSites
import CallTree.Proofs.Questions

/-!
# Where a file lies

A symbol says which file declares it, and nothing that is found out about a workspace depends on
that. Two facts make this up, one for indexing and one for looking things up:

* what a file brings from another place is what it brings from its own, with the place changed in
  every symbol (`CodeFile.outline_movedTo`);
* if a workspace holds the same as another under every name, but for the files of its symbols, then
  looking up a name gives the same there, but for the file (`Forgets.global`).
-/

namespace CallTree

/-! ## Symbols in another file -/

/-- The symbol as if it were declared in another file, or in none. -/
def TypeSymbol.inFile (file : Option String) (t : TypeSymbol) : TypeSymbol :=
  { t with file := file }

@[inherit_doc TypeSymbol.inFile]
def MethodSymbol.inFile (file : Option String) (m : MethodSymbol) : MethodSymbol :=
  { m with file := file }

@[inherit_doc TypeSymbol.inFile]
def StateSymbol.inFile (file : Option String) (s : StateSymbol) : StateSymbol :=
  { s with file := file }

@[inherit_doc TypeSymbol.inFile]
def Symbol.inFile (file : Option String) : Symbol → Symbol
  | type t => type (t.inFile file)
  | method m => method (m.inFile file)
  | field s => field (s.inFile file)
  | property s => property (s.inFile file)

/-- Only the last file counts. -/
theorem Symbol.inFile_inFile (place file : Option String) (s : Symbol) :
    (s.inFile place).inFile file = s.inFile file := by
  cases s <;> rfl

namespace Data.Table

variable {α β : Type}

/-- The table with every value replaced. -/
def mapValues (f : α → β) (table : Table α) : Table β := table.map fun (n, v) => (n, f v)

variable (f : α → β) (table other : Table α) (name : String)

theorem names_mapValues : (table.mapValues f).names = table.names := by
  simp [names, mapValues]

theorem values_mapValues : (table.mapValues f).values = table.values.map f := by
  simp [values, mapValues]

theorem has_eq_isSome : table.has name = (table.get? name).isSome := by
  rw [Bool.eq_iff_iff]
  simp [has, get?]

theorem has_mapValues : (table.mapValues f).has name = table.has name := by
  simp [has, mapValues, Function.comp_def]

/-- What is under a name is replaced along with the rest. -/
theorem get?_mapValues : (table.mapValues f).get? name = (table.get? name).map f := by
  unfold get? mapValues
  rw [List.find?_map, Option.map_map, Option.map_map]
  rfl

/-- Where a value is put depends on the names alone, so it can be replaced before or after. -/
theorem put_mapValues (value : α) :
    (table.put name value).mapValues f = (table.mapValues f).put name (f value) := by
  induction table with
  | nil => rfl
  | cons entry rest ih =>
    obtain ⟨n, v⟩ := entry
    show mapValues f (if n = name then _ else _) = if n = name then _ else _
    split
    · rfl
    · exact congrArg ((n, f v) :: ·) ih

theorem putAll_mapValues :
    (table.putAll other).mapValues f = (table.mapValues f).putAll (other.mapValues f) := by
  unfold putAll
  induction other generalizing table with
  | nil => rfl
  | cons entry rest ih =>
    rw [List.foldl_cons, ih, put_mapValues]
    rfl

theorem mapValues_mapValues {γ : Type} (g : β → γ) :
    (table.mapValues f).mapValues g = table.mapValues (g ∘ f) := by
  simp [mapValues]

end Data.Table

namespace Workspace

open CallTree.Data (Table)
open CallTree.Files (Path)
open CallTree.Syntax (Node Site)
open CallTree.Text.Utf8 (Defect)

/-! ## Indexing a file in another place -/

section Moving

/-- The members of a class as if it were declared in another file. -/
def TypeIndex.inFile (file : Option String) (index : TypeIndex) : TypeIndex where
  symbol := index.symbol.inFile file
  members := index.members.map (·.inFile file)
  methods := index.methods.mapValues (·.inFile file)
  properties := index.properties.mapValues (·.inFile file)
  fields := index.fields.mapValues (·.inFile file)
  nested := index.nested.mapValues (·.inFile file)

/-- What the names of a module stand for, as if it were another file. -/
def ModuleIndex.inFile (file : Option String) (index : ModuleIndex) : ModuleIndex :=
  { index with
    classes := index.classes.mapValues (·.inFile file)
    functions := index.functions.mapValues (·.inFile file) }

/-- A declaration as if it stood in another file. -/
def Declaration.inFile (file : Option String) : Declaration → Declaration
  | method symbol site assigned => method (symbol.inFile file) site assigned
  | property symbol => property (symbol.inFile file)
  | field name typeName => field name typeName
  | nested symbol site => nested (symbol.inFile file) site
  | nothing => nothing

/-- The file at another path. -/
def CodeFile.movedTo (p : Path) (file : CodeFile) : CodeFile := { file with path := p }

/-- The definition in the file at another path. -/
def Definition.movedTo (p : Path) (d : Definition) : Definition where
  symbol := d.symbol.inFile (some p.text)
  site := d.site
  file := d.file.movedTo p
  enclosing := d.enclosing.map (·.inFile (some p.text))

/-- What indexing a class brings from the file at another path. -/
def Harvest.movedTo (p : Path) (h : Harvest) : Harvest where
  types := h.types.map (·.inFile (some p.text))
  definitions := h.definitions.map (·.movedTo p)
  defect := h.defect

/-- A class that is being gone through in the file at another path. -/
def Opened.movedTo (p : Path) (o : Opened) : Opened where
  index := o.index.inFile (some p.text)
  inner := o.inner.movedTo p

/-- A module that is being indexed from the file at another path. -/
def Indexing.movedTo (p : Path) (i : Indexing) : Indexing where
  workspace := { i.workspace with
    types := i.workspace.types.mapValues (·.inFile (some p.text))
    definitions := i.workspace.definitions.mapValues (·.movedTo p) }
  module' := i.module'.inFile (some p.text)
  defect := i.defect

theorem TypeIndex.inFile_inFile (place file : Option String) (index : TypeIndex) :
    (index.inFile place).inFile file = index.inFile file := by
  unfold inFile
  simp only [Table.mapValues_mapValues, List.map_map, Function.comp_def, Symbol.inFile_inFile]
  rfl

theorem ModuleIndex.inFile_inFile (place file : Option String) (index : ModuleIndex) :
    (index.inFile place).inFile file = index.inFile file := by
  unfold inFile
  simp only [Table.mapValues_mapValues]
  rfl

variable (p : Path) (file : CodeFile)

/-- The place of a file shows in a symbol only as its file: all else is read off the text. -/
theorem CodeFile.classSymbol_movedTo (outer : Option TypeSymbol) (site : Site) :
    (file.movedTo p).classSymbol (outer.map (·.inFile (some p.text))) site
      = (file.classSymbol outer site).map (·.inFile (some p.text)) := by
  unfold classSymbol movedTo
  cases outer <;> cases file.source.decorators site <;> cases file.source.basesOf site.node <;> rfl

theorem CodeFile.functionSymbol_movedTo (site : Site) :
    (file.movedTo p).functionSymbol site
      = (file.functionSymbol site).map (·.inFile (some p.text)) := by
  unfold functionSymbol movedTo
  cases file.source.returnTypeOf site.node <;> cases file.source.decorators site <;>
    cases file.source.parametersOf site.node <;> rfl

/-- Which member a method becomes is decided by its decorators, not by its place. -/
theorem CodeFile.methodDeclaration_movedTo (owner : TypeSymbol) (site : Site) :
    (file.movedTo p).methodDeclaration (owner.inFile (some p.text)) site
      = (file.methodDeclaration owner site).map (·.inFile (some p.text)) := by
  unfold methodDeclaration
  show (file.source.decorators site >>= fun decorators => _) = _
  cases file.source.decorators site with
  | error defect => rfl
  | ok decorators =>
    show (if (decorators.any fun d => _) = true then _ else _) = Except.map _ (if _ then _ else _)
    split
    · rfl
    · show (file.source.returnTypeOf site.node >>= fun returnType => _) = _
      cases file.source.returnTypeOf site.node with
      | error defect => rfl
      | ok returnType =>
        show (if (_ || _) = true then _ else _) = Except.map _ (if (_ || _) = true then _ else _)
        split
        · rfl
        · show (file.source.parametersOf site.node >>= fun parameters => _) = _
          cases file.source.parametersOf site.node with
          | error defect => rfl
          | ok parameters => rfl

/-- A field that is declared names no file at all. -/
theorem CodeFile.fieldDeclaration_movedTo (n : Node) :
    (file.movedTo p).fieldDeclaration n
      = (file.fieldDeclaration n).map (·.inFile (some p.text)) := by
  unfold fieldDeclaration
  split
  · split
    · rfl
    · split
      · rename_i hint _ _
        show (typeNameOrAny file.source hint >>= fun typeName => _) = _
        cases typeNameOrAny file.source hint with
        | error defect => rfl
        | ok typeName =>
          show Except.ok (if _ then _ else _)
            = Except.ok (Declaration.inFile _ (if _ then _ else _))
          split
          · rfl
          · rfl
      · rfl
  · rfl

/-- **What a statement of a class declares** moves with the file. -/
theorem CodeFile.declaration_movedTo (owner : TypeSymbol) (site : Site) :
    (file.movedTo p).declaration (owner.inFile (some p.text)) site
      = (file.declaration owner site).map (·.inFile (some p.text)) := by
  unfold declaration
  split
  · exact file.methodDeclaration_movedTo p owner site
  · split
    · have hclass := file.classSymbol_movedTo p (some owner) site
      rw [Option.map_some] at hclass
      rw [hclass]
      cases file.classSymbol (some owner) site <;> rfl
    · split
      · exact file.fieldDeclaration_movedTo p site.node
      · rfl

/-- Whether a field is new depends on its name. -/
theorem TypeIndex.declareField_inFile (place : Option String) (index : TypeIndex)
    (name typeName : String) :
    (index.inFile place).declareField name typeName
      = (index.declareField name typeName).inFile place := by
  unfold declareField
  have hhas : (index.inFile place).fields.has name = index.fields.has name :=
    Table.has_mapValues _ _ _
  rw [hhas]
  split
  · rfl
  · unfold inFile
    dsimp only
    rw [Table.put_mapValues, List.map_append]
    rfl

theorem TypeIndex.declareAssigned_inFile (place : Option String) (index : TypeIndex)
    (assigned : Except Defect (List Assigned)) :
    (index.inFile place).declareAssigned assigned
      = ((index.declareAssigned assigned).1.inFile place, (index.declareAssigned assigned).2) := by
  unfold declareAssigned
  have hnames : (index.inFile place).fields.names = index.fields.names :=
    Table.names_mapValues _ _
  rw [hnames]
  split
  · rfl
  · rename_i fields _
    exact Prod.ext (List.foldl_hom (inFile place)
      fun index (name, typeName) => index.declareField_inFile place name typeName) rfl

/-- **One more declaration** in a class that lies elsewhere. -/
theorem TypeIndex.declare_inFile (place : Option String) (index : TypeIndex) (d : Declaration) :
    (index.inFile place).declare (d.inFile place)
      = ((index.declare d).1.inFile place, (index.declare d).2) := by
  cases d with
  | method symbol site assigned =>
    have hindex : { index.inFile place with
          methods := (index.inFile place).methods.put symbol.name (symbol.inFile place)
          members := (index.inFile place).members ++ [Symbol.method (symbol.inFile place)] }
        = inFile place { index with
          methods := index.methods.put symbol.name symbol
          members := index.members ++ [Symbol.method symbol] } := by
      unfold inFile
      dsimp only
      rw [Table.put_mapValues, List.map_append]
      rfl
    exact (congrArg (·.declareAssigned assigned) hindex).trans
      (declareAssigned_inFile place _ assigned)
  | property symbol =>
    refine Prod.ext ?_ rfl
    unfold declare inFile
    dsimp only
    rw [Table.put_mapValues, List.map_append]
    rfl
  | field name typeName => exact Prod.ext (index.declareField_inFile place name typeName) rfl
  | nested symbol site =>
    refine Prod.ext ?_ rfl
    unfold declare inFile
    dsimp only
    rw [Table.put_mapValues]
    rfl
  | nothing => rfl

/-- The definition that a declaration brings moves along. -/
theorem Declaration.definition?_movedTo (owner : TypeSymbol) (d : Declaration) :
    (d.inFile (some p.text)).definition? (file.movedTo p) (owner.inFile (some p.text))
      = (d.definition? file owner).map (·.movedTo p) := by
  cases d <;> rfl

theorem Opened.declare_movedTo (o : Opened) (d : Declaration) (below : Harvest) :
    (o.movedTo p).declare (file.movedTo p) (d.inFile (some p.text)) (below.movedTo p)
      = (o.declare file d below).movedTo p := by
  have htypes : (o.movedTo p).inner.types ++ (below.movedTo p).types
      = (o.inner.types ++ below.types).map (·.inFile (some p.text)) := List.map_append.symm
  have hdefinitions : (o.movedTo p).inner.definitions
        ++ ((d.inFile (some p.text)).definition? (file.movedTo p) (o.movedTo p).index.symbol).toList
        ++ (below.movedTo p).definitions
      = (o.inner.definitions ++ (d.definition? file o.index.symbol).toList
          ++ below.definitions).map (·.movedTo p) := by
    have hdefinition := d.definition?_movedTo p file o.index.symbol
    rw [List.map_append, List.map_append, ← Option.toList_map, ← hdefinition]
    rfl
  have hdeclare := TypeIndex.declare_inFile (some p.text) o.index d
  unfold declare
  dsimp only
  rw [htypes, hdefinitions]
  show (if below.defect.isSome = true then _ else _) = movedTo p (if _ then _ else _)
  split
  · rfl
  · show Opened.mk ((o.index.inFile _).declare (d.inFile _)).1
      (Harvest.mk _ _ ((o.index.inFile _).declare (d.inFile _)).2) = _
    rw [hdeclare]
    rfl

/-- One statement of a class, if the classes inside it move along. -/
theorem CodeFile.step_movedTo {symbol : TypeSymbol} {s : Site}
    (hbelow : ∀ inner : TypeSymbol, (file.movedTo p).harvest (inner.inFile (some p.text)) s.node
      = (file.harvest inner s.node).movedTo p) (o : Opened) :
    (file.movedTo p).step (symbol.inFile (some p.text)) (o.movedTo p) s
      = (file.step symbol o s).movedTo p := by
  unfold step
  show (if o.inner.defect.isSome = true then _ else _) = _
  split
  · rfl
  · rw [file.declaration_movedTo p symbol s]
    cases file.declaration symbol s with
    | error defect => rfl
    | ok d =>
      have hbelow : (file.movedTo p).below (d.inFile (some p.text)) s.node
          = (file.below d s.node).movedTo p := by
        cases d with
        | nested inner site => exact hbelow inner
        | _ => rfl
      show (o.movedTo p).declare _ (d.inFile _) _ = _
      rw [hbelow]
      exact o.declare_movedTo p file d _

theorem CodeFile.foldl_step_movedTo {symbol : TypeSymbol} (l : List Site)
    (hbelow : ∀ s ∈ l, ∀ inner : TypeSymbol,
      (file.movedTo p).harvest (inner.inFile (some p.text)) s.node
        = (file.harvest inner s.node).movedTo p) (o : Opened) :
    l.foldl ((file.movedTo p).step (symbol.inFile (some p.text))) (o.movedTo p)
      = (l.foldl (file.step symbol) o).movedTo p := by
  induction l generalizing o with
  | nil => rfl
  | cons s l ih =>
    rw [List.foldl_cons, List.foldl_cons, file.step_movedTo p (hbelow s List.mem_cons_self)]
    exact ih (fun s hs => hbelow s (List.mem_cons_of_mem _ hs)) _

/-- **What a class brings from another place** is what it brings, with the place changed. -/
theorem CodeFile.harvest_movedTo (symbol : TypeSymbol) (n : Node) :
    (file.movedTo p).harvest (symbol.inFile (some p.text)) n
      = (file.harvest symbol n).movedTo p := by
  induction hsize : n.size using Nat.strongRecOn generalizing symbol n with
  | ind size ih =>
    rw [harvest_eq, harvest_eq]
    refine congrArg Opened.harvest
      (file.foldl_step_movedTo p n.bodyStatements ?_ ⟨{ symbol := symbol }, {}⟩)
    intro s hs inner
    exact ih s.node.size (hsize ▸ size_lt_of_mem_bodyStatements hs) inner s.node rfl

namespace Indexing

variable (i : Indexing)

/-- Imports are names, and names have no place. -/
theorem addImport_movedTo (n : Node) :
    (i.movedTo p).addImport (file.movedTo p) n = (i.addImport file n).movedTo p := by
  have hbindings : (file.movedTo p).source.importBindings n = file.source.importBindings n := rfl
  have hdefect : (i.movedTo p).defect = i.defect := rfl
  unfold addImport
  rw [hbindings, hdefect]
  split
  · rfl
  · cases file.source.importBindings n <;> rfl

theorem addHarvest_movedTo (h : Harvest) :
    Workspace.addHarvest (i.movedTo p).workspace (h.movedTo p)
      = ({ i with workspace := Workspace.addHarvest i.workspace h }.movedTo p).workspace := by
  unfold Workspace.addHarvest movedTo
  dsimp only
  rw [Table.putAll_mapValues, Table.putAll_mapValues]
  unfold Harvest.movedTo Table.mapValues
  dsimp only
  rw [List.map_map, List.map_map, List.map_map, List.map_map]
  rfl

/-- A class is indexed with all that is inside it, which moves with the file. -/
theorem addClass_movedTo (site : Site) :
    (i.movedTo p).addClass (file.movedTo p) site = (i.addClass file site).movedTo p := by
  have hclass := file.classSymbol_movedTo p none site
  rw [Option.map_none] at hclass
  unfold addClass
  rw [hclass]
  cases file.classSymbol none site with
  | error defect => rfl
  | ok symbol =>
    show (if ((file.movedTo p).harvest (symbol.inFile _) site.node).defect.isSome = true
      then Indexing.mk (Workspace.addHarvest _ _) _ _ else Indexing.mk _ _ _) = _
    rw [file.harvest_movedTo p symbol site.node, addHarvest_movedTo]
    show (if (file.harvest symbol site.node).defect.isSome = true then _ else _)
      = movedTo p (if _ then _ else _)
    split
    · rfl
    · unfold movedTo ModuleIndex.inFile
      dsimp only
      rw [Table.put_mapValues]
      rfl

theorem addFunction_movedTo (site : Site) :
    (i.movedTo p).addFunction (file.movedTo p) site = (i.addFunction file site).movedTo p := by
  unfold addFunction
  rw [file.functionSymbol_movedTo p site]
  cases file.functionSymbol site with
  | error defect => rfl
  | ok symbol =>
    unfold movedTo ModuleIndex.inFile
    dsimp only
    rw [Table.put_mapValues, Table.put_mapValues]
    rfl

theorem addStatement_movedTo (site : Site) :
    (i.movedTo p).addStatement (file.movedTo p) site = (i.addStatement file site).movedTo p := by
  unfold addStatement
  show (if i.defect.isSome = true then _ else _) = _
  split
  · rfl
  · split
    · exact addClass_movedTo p file i site
    · split
      · exact addFunction_movedTo p file i site
      · rfl

/-- **Indexing a file in another place** does the same, but for the place. -/
theorem addFile_movedTo : (i.movedTo p).addFile (file.movedTo p) = (i.addFile file).movedTo p := by
  have himports : ∀ l : List Site,
      l.foldl (fun i site => i.addImport (file.movedTo p) site.node) (i.movedTo p)
        = (l.foldl (fun i site => i.addImport file site.node) i).movedTo p := fun _ =>
    List.foldl_hom (movedTo p) fun i site => addImport_movedTo p file i site.node
  have hstatements : ∀ (i : Indexing) (l : List Site),
      l.foldl (fun i site => i.addStatement (file.movedTo p) site) (i.movedTo p)
        = (l.foldl (fun i site => i.addStatement file site) i).movedTo p := fun _ _ =>
    List.foldl_hom (movedTo p) fun i site => addStatement_movedTo p file i site
  unfold addFile
  dsimp only
  rw [← hstatements, ← himports]
  rfl

end Indexing

/-- **What a file brings from another place** is what it brings, with the place changed. -/
theorem CodeFile.outline_movedTo (isPackage : Bool) :
    (file.movedTo p).outline isPackage = (file.outline isPackage).movedTo p :=
  Indexing.addFile_movedTo p file
    { workspace := {}, module' := { moduleName := file.moduleName, isPackage := isPackage } }

end Moving

/-! ## Looking up without regard to files -/

/-- What a name stands for, as if it were declared in another file. -/
def Referent.inFile (file : Option String) : Referent → Referent
  | symbol s => symbol (s.inFile file)
  | module' m => module' m

/-- **A workspace that holds the same as another** under every name, but for the files. -/
structure Forgets (bare ws : Workspace) : Prop where
  modules : ∀ name, bare.modules.get? name = (ws.modules.get? name).map (·.inFile none)
  types : ∀ name, bare.types.get? name = (ws.types.get? name).map (·.inFile none)
  size : bare.types.length = ws.types.length

section Forgetting

variable {bare ws : Workspace} {member member' : MemberLookup} {within within' : ModuleLookup}

/-- A way of finding members finds the same as another, but for the files. -/
def MemberLookup.Forgets (member' member : MemberLookup) : Prop :=
  ∀ t name, member' (t.inFile none) name = (member t name).map (Option.map (·.inFile none))

/-- A way of finding names finds the same as another, but for the files. -/
def ModuleLookup.Forgets (within' within : ModuleLookup) : Prop :=
  ∀ ref name, within' ref name = (within ref name).map (Option.map (·.inFile none))

/-- What a module defines under a name is the same symbol in another file. -/
theorem ModuleIndex.defined?_inFile (file : Option String) (index : ModuleIndex) (name : String) :
    (index.inFile file).defined? name = (index.defined? name).map (·.inFile file) := by
  unfold defined? inFile
  dsimp only
  rw [Table.get?_mapValues, Table.get?_mapValues]
  cases index.classes.get? name with
  | some t => rfl
  | none => cases index.functions.get? name <;> rfl

/-- So is what a class declares. -/
theorem TypeIndex.declares?_inFile (file : Option String) (index : TypeIndex) (name : String) :
    (index.inFile file).declares? name = (index.declares? name).map (·.inFile file) := by
  unfold declares? inFile
  dsimp only
  rw [Table.get?_mapValues, Table.get?_mapValues, Table.get?_mapValues, Table.get?_mapValues]
  cases index.methods.get? name with
  | some m => rfl
  | none =>
    cases index.properties.get? name with
    | some s => rfl
    | none =>
      cases index.fields.get? name with
      | some s => rfl
      | none => cases index.nested.get? name <;> rfl

/-- What is outside the workspace lies in no file to begin with. -/
theorem inFile_externalName (moduleName name : String) :
    (externalName moduleName name).inFile none = externalName moduleName name := by
  unfold externalName
  dsimp only
  split <;> rfl

/-- One step along a dotted name, when the look-ups that it asks forget the files. -/
theorem stepWith_forgets (hmember : member'.Forgets member) (hwithin : within'.Forgets within)
    (current : Option Referent) (name : String) :
    stepWith member' within' (current.map (·.inFile none)) name
      = (stepWith member within current name).map (Option.map (·.inFile none)) := by
  cases current with
  | none => rfl
  | some r =>
    cases r with
    | module' m => exact hwithin m name
    | symbol s =>
      cases s with
      | type t =>
        show (member' (t.inFile none) name).map _ = ((member t name).map _).map _
        rw [hmember t name]
        rcases member t name with e | (_ | s) <;> rfl
      | _ => rfl

/-- Whether a type is listed is asked by its name. -/
theorem any_inFile (listed : List TypeSymbol) (t : TypeSymbol) :
    (listed.map (·.inFile none)).any (·.qualifiedName = (t.inFile none).qualifiedName)
      = listed.any (·.qualifiedName = t.qualifiedName) := by
  rw [List.any_map]
  rfl

theorem isLeaf_inFile {listed : List TypeSymbol} {t : TypeSymbol} :
    IsLeaf (listed.map (·.inFile none)) (t.inFile none) ↔ IsLeaf listed t := by
  unfold IsLeaf
  rw [any_inFile]
  rfl

theorem withType_inFile (listed : List TypeSymbol) (t : TypeSymbol) :
    withType (listed.map (·.inFile none)) (t.inFile none)
      = (withType listed t).map (·.inFile none) := by
  unfold withType
  rw [any_inFile]
  split
  · rfl
  · rw [List.map_append]
    rfl

namespace Forgets

variable (h : Forgets bare ws)

include h

theorem has_modules (name : String) : bare.modules.has name = ws.modules.has name := by
  rw [Table.has_eq_isSome, Table.has_eq_isSome, h.modules, Option.isSome_map]

/-- A submodule is found by the names of modules. -/
theorem submodule? (ref : ModuleRef) (name : String) :
    Workspace.submodule? bare ref name
      = (Workspace.submodule? ws ref name).map (·.inFile none) := by
  unfold Workspace.submodule?
  dsimp only
  rw [h.has_modules]
  split <;> rfl

/-- An import is followed by the name of its target. -/
theorem importedWith (hmember : member'.Forgets member) (hwithin : within'.Forgets within)
    (index : ModuleIndex) (name target : String) :
    Workspace.importedWith bare member' within' (index.inFile none) name target
      = (Workspace.importedWith ws member within index name target).map
        (Option.map (·.inFile none)) := by
  have htarget : (index.inFile none).absoluteTarget target = index.absoluteTarget target := rfl
  have hwhole : (index.inFile none).wholeModules = index.wholeModules := rfl
  unfold Workspace.importedWith
  simp only [h.has_modules, htarget, hwhole]
  split
  · rfl
  · split
    · rfl
    · split
      · rename_i cut _
        exact foldlM_hom _ (fun name _ current => stepWith_forgets hmember hwithin current name)
          (some (.module' ⟨Text.dotted ((Text.segments (index.absoluteTarget target)).take cut),
            false⟩))
      · show _ = Except.ok (some (Referent.symbol (Symbol.inFile none (externalName _ _))))
        rw [inFile_externalName]

/-- **Looking up a name in a module**, by induction on the imports that may still be followed. -/
theorem inModuleWithin (hmember : member'.Forgets member) (hops : Nat) :
    (Workspace.inModuleWithin bare member' hops).Forgets
      (Workspace.inModuleWithin ws member hops) := by
  induction hops using Nat.strongRecOn with
  | ind hops ih =>
    intro ref name
    have hindex : (if ref.isExternal then none else bare.modules.get? ref.name)
        = (if ref.isExternal then none else ws.modules.get? ref.name).map (·.inFile none) := by
      split
      · rfl
      · exact h.modules _
    unfold Workspace.inModuleWithin
    rw [hindex, h.submodule?]
    cases if ref.isExternal then none else ws.modules.get? ref.name with
    | none =>
      cases Workspace.submodule? ws ref name with
      | some m => rfl
      | none =>
        show _ = Except.ok (some (Referent.symbol (Symbol.inFile none (externalName _ _))))
        rw [inFile_externalName]
        rfl
    | some index =>
      have himports : (index.inFile none).imports = index.imports := rfl
      dsimp only [Option.map_some]
      rw [ModuleIndex.defined?_inFile, himports]
      cases index.defined? name with
      | some s => rfl
      | none =>
        cases Workspace.submodule? ws ref name with
        | some m => rfl
        | none =>
          cases index.imports.get? name with
          | none => rfl
          | some target =>
            cases hops with
            | zero => rfl
            | succ hops =>
              exact h.importedWith hmember (ih hops (Nat.lt_succ_self hops)) index name target

theorem globalWith (hmember : member'.Forgets member) (moduleName name : String) :
    Workspace.globalWith bare member' moduleName name
      = (Workspace.globalWith ws member moduleName name).map (Option.map (·.inFile none)) := by
  have hbuiltin : ∀ builtin : MethodSymbol, builtin.file = none →
      (if isBuiltin name then some (Referent.symbol (.method builtin)) else none)
        = (if isBuiltin name then some (Referent.symbol (.method builtin)) else none).map
          (·.inFile none) := by
    intro builtin hfile
    split
    · show _ = some (Referent.symbol (.method { builtin with file := none }))
      rw [← hfile]
    · rfl
  unfold Workspace.globalWith
  dsimp only
  rw [h.modules]
  cases ws.modules.get? moduleName with
  | none => exact congrArg Except.ok (hbuiltin _ rfl)
  | some index =>
    have himports : (index.inFile none).imports = index.imports := rfl
    dsimp only [Option.map_some]
    rw [ModuleIndex.defined?_inFile, himports]
    cases index.defined? name with
    | some s => rfl
    | none =>
      cases index.imports.get? name with
      | none => exact congrArg Except.ok (hbuiltin _ rfl)
      | some target =>
        exact h.importedWith hmember (h.inModuleWithin hmember mostHops) index name target

theorem typeNamedWith (hmember : member'.Forgets member) (moduleName : String)
    (name : Option String) :
    Workspace.typeNamedWith bare member' moduleName name
      = (Workspace.typeNamedWith ws member moduleName name).map (Option.map (·.inFile none)) := by
  unfold Workspace.typeNamedWith
  split
  · rfl
  · split
    · rfl
    · split
      · rfl
      · rename_i head rest _
        rw [h.globalWith hmember]
        cases Workspace.globalWith ws member moduleName head with
        | error e => rfl
        | ok first =>
          have hrest : rest.foldlM (attributeWith bare member') (first.map (·.inFile none))
              = (rest.foldlM (attributeWith ws member) first).map (Option.map (·.inFile none)) :=
            foldlM_hom _ (fun name _ current =>
              stepWith_forgets hmember (h.inModuleWithin hmember mostHops) current name) first
          show (rest.foldlM _ _ >>= fun found => _)
            = Except.map _ (rest.foldlM _ _ >>= fun found => _)
          rw [hrest]
          cases rest.foldlM (attributeWith ws member) first with
          | error e => rfl
          | ok found =>
            rcases found with _ | (s | m)
            · rfl
            · cases s <;> rfl
            · rfl

/-- Ancestors are listed by their names, so the same ones are listed in the same order. -/
theorem lineageFrom (hmember : member'.Forgets member) (fuel : Nat) (t : TypeSymbol)
    (listed : List TypeSymbol) :
    Workspace.lineageFrom bare member' fuel (t.inFile none) (listed.map (·.inFile none))
      = (Workspace.lineageFrom ws member fuel t listed).map (List.map (·.inFile none)) := by
  induction fuel generalizing t listed with
  | zero =>
    rw [lineageFrom_zero, lineageFrom_zero, withType_inFile]
    rfl
  | succ fuel ih =>
    by_cases hleaf : IsLeaf listed t
    · rw [lineageFrom_of_isLeaf hleaf, lineageFrom_of_isLeaf (isLeaf_inFile.mpr hleaf),
        withType_inFile]
      rfl
    · have hlast : listed.map (·.inFile none) ++ [t.inFile none]
          = (listed ++ [t]).map (·.inFile none) := by
        rw [List.map_append]
        rfl
      rw [lineageFrom_succ hleaf, lineageFrom_succ (mt isLeaf_inFile.mp hleaf), hlast]
      refine foldlM_hom (List.map (TypeSymbol.inFile none)) (fun name _ listed => ?_) _
      unfold baseFrom
      show (Workspace.typeNamedWith bare member' t.homeModule (some name) >>= _) = _
      rw [h.typeNamedWith hmember]
      rcases Workspace.typeNamedWith ws member t.homeModule (some name) with e | (_ | base)
      · rfl
      · rfl
      · exact ih base listed

theorem memberAmong (lineage : List TypeSymbol) (name : String) :
    Workspace.memberAmong bare (lineage.map (·.inFile none)) name
      = (Workspace.memberAmong ws lineage name).map (·.inFile none) := by
  unfold Workspace.memberAmong
  rw [Option.map_or, Option.map_map, List.filter_map, List.findSome?_map, List.map_findSome?,
    List.find?_map, Option.map_map]
  congr 2
  funext a
  show (bare.types.get? a.qualifiedName).bind _ = ((ws.types.get? a.qualifiedName).bind _).map _
  rw [h.types]
  cases ws.types.get? a.qualifiedName with
  | none => rfl
  | some index => exact index.declares?_inFile none name

theorem memberWith (hmember : member'.Forgets member) :
    MemberLookup.Forgets (Workspace.memberWith bare member') (Workspace.memberWith ws member) := by
  intro t name
  have hlineage : Workspace.lineageWith bare member' (t.inFile none)
      = (Workspace.lineageWith ws member t).map (List.map (·.inFile none)) := by
    unfold Workspace.lineageWith
    rw [h.size]
    exact h.lineageFrom hmember _ t []
  rw [memberWith_eq, memberWith_eq, hlineage]
  cases Workspace.lineageWith ws member t with
  | error e => rfl
  | ok lineage => exact congrArg Except.ok (h.memberAmong lineage name)

/-- **Looking up a member**, by induction on the levels: each look-up asks the one below it. -/
theorem memberWithin (level : Nat) :
    MemberLookup.Forgets (Workspace.memberWithin bare level) (Workspace.memberWithin ws level) := by
  induction level with
  | zero => exact fun _ _ => rfl
  | succ level ih => exact h.memberWith ih

/-- **Looking up a name** gives the same in both workspaces, but for the file. -/
theorem global (moduleName name : String) :
    bare.global moduleName name
      = (ws.global moduleName name).map (Option.map (·.inFile none)) :=
  h.globalWith (h.memberWithin mostLevels) moduleName name

/-- So a name stands for nothing in both workspaces or in neither. -/
theorem global_eq_none_iff {moduleName name : String} :
    bare.global moduleName name = .ok none ↔ ws.global moduleName name = .ok none := by
  rw [h.global]
  rcases ws.global moduleName name with e | (_ | r)
  · exact iff_of_false (fun h => by cases h) fun h => by cases h
  · exact iff_of_true rfl rfl
  · exact iff_of_false (fun h => by cases h) fun h => by cases h

end Forgets

end Forgetting

end Workspace

end CallTree
