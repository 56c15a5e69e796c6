import CallTree.Workspace.Declaration

/-!
# Indexing a file

A file is gone through from top to bottom: first the imports, wherever they stand,
and then the classes and functions at the top. A class brings the classes inside
it. What could not be read ends the indexing of the file, and everything before
it stays indexed.

A class inside another is smaller than the other, so going from a class to the
classes inside it comes to an end.
-/

namespace CallTree.Workspace

open CallTree.Data (Table)
open CallTree.Syntax (Source Node Site)
open CallTree.Text.Utf8 (Defect)

/-- A statement of a body is smaller than what it is the body of. -/
theorem size_lt_of_mem_statements {n : Node} {site : Site} (h : site ∈ n.statements) :
    site.node.size < n.size := by
  obtain ⟨child, hchild, hsite⟩ := List.mem_filterMap.1 h
  have hlt := Node.size_lt_of_mem_namedChildren hchild
  unfold Syntax.undecorated at hsite
  split at hsite
  · obtain ⟨definition, hdef, rfl⟩ := Option.map_eq_some_iff.1 hsite
    exact Nat.lt_trans (Node.size_lt_of_child? hdef) hlt
  · cases hsite
    exact hlt

/-- A statement of the body of a definition is smaller than the definition. -/
theorem size_lt_of_mem_bodyStatements {n : Node} {site : Site} (h : site ∈ n.bodyStatements) :
    site.node.size < n.size := by
  unfold Node.bodyStatements at h
  split at h
  · cases h
  · rename_i body hbody
    exact Nat.lt_trans (size_lt_of_mem_statements h) (Node.size_lt_of_child? hbody)

/-- **What indexing a class brings**: the class itself and the classes inside it, in
the order in which they begin, the definitions of their methods, and the defect
that ended it. -/
structure Harvest where
  types : List TypeIndex := []
  definitions : List Definition := []
  defect : Option Defect := none

/-- A class that is being gone through: its members so far, and what the classes
inside it have brought. -/
structure Opened where
  index : TypeIndex
  inner : Harvest := {}

/-- What indexing the class has brought so far. -/
def Opened.harvest (o : Opened) : Harvest :=
  { o.inner with types := o.index :: o.inner.types }

/-- The class after one more declaration. For a class inside it, `below` is what
indexing that one brings; a defect down there ends the outer class too. -/
def Opened.declare (file : CodeFile) (o : Opened) (d : Declaration) (below : Harvest) : Opened :=
  let inner : Harvest :=
    { types := o.inner.types ++ below.types
      definitions := o.inner.definitions ++ (d.definition? file o.index.symbol).toList
        ++ below.definitions
      defect := below.defect }
  if below.defect.isSome then { o with inner := inner }
  else
    let (index, defect) := o.index.declare d
    ⟨index, { inner with defect := defect }⟩

/-- **Indexing a class**: its statements declare one after the other, until one
cannot be read. -/
def CodeFile.harvest (file : CodeFile) (symbol : TypeSymbol) (n : Node) : Harvest :=
  let step (o : Opened) (statement : { site : Site // site ∈ n.bodyStatements }) : Opened :=
    if o.inner.defect.isSome then o
    else
      match file.declaration symbol statement.1 with
      | .error defect => { o with inner := { o.inner with defect := some defect } }
      | .ok d =>
        let below := match d with
          | .nested inner _ => file.harvest inner statement.1.node
          | _ => {}
        o.declare file d below
  (n.bodyStatements.attach.foldl step ⟨{ symbol := symbol }, {}⟩).harvest
termination_by n.size
decreasing_by exact size_lt_of_mem_bodyStatements statement.2

end CallTree.Workspace

namespace CallTree.Workspace

open CallTree.Data (Table)
open CallTree.Syntax (Node Site)
open CallTree.Text.Utf8 (Defect)

/-- The workspace with the types and definitions of a class put in. -/
def addHarvest (ws : Workspace) (h : Harvest) : Workspace :=
  { ws with
    types := ws.types.putAll (h.types.map fun t => (t.symbol.qualifiedName, t))
    definitions := ws.definitions.putAll (h.definitions.map fun d => (d.symbol.qualifiedName, d)) }

/-- A workspace and the module that is being indexed, with the defect that ended
the indexing. -/
structure Indexing where
  workspace : Workspace
  module' : ModuleIndex
  defect : Option Defect := none

/-- The names that an import statement binds are added. -/
def Indexing.addImport (file : CodeFile) (i : Indexing) (n : Node) : Indexing :=
  if i.defect.isSome then i
  else
    match file.source.importBindings n with
    | .error defect => { i with defect := some defect }
    | .ok bindings =>
      let m := i.module'
      let whole := if n.isFromImport then [] else bindings.names
      { i with
        module' := { m with
          imports := m.imports.putAll bindings
          wholeModules := m.wholeModules ++ whole.filter (!m.wholeModules.contains ·) } }

/-- A class at the top of the file is added. -/
def Indexing.addClass (file : CodeFile) (i : Indexing) (site : Site) : Indexing :=
  match file.classSymbol none site with
  | .error defect => { i with defect := some defect }
  | .ok symbol =>
    let harvest := file.harvest symbol site.node
    let i := { i with workspace := addHarvest i.workspace harvest, defect := harvest.defect }
    if harvest.defect.isSome then i
    else
      { i with module' := { i.module' with classes := i.module'.classes.put symbol.name symbol } }

/-- A function at the top of the file is added. -/
def Indexing.addFunction (file : CodeFile) (i : Indexing) (site : Site) : Indexing :=
  match file.functionSymbol site with
  | .error defect => { i with defect := some defect }
  | .ok symbol =>
    let ws := i.workspace
    { i with
      module' := { i.module' with functions := i.module'.functions.put symbol.name symbol }
      workspace := { ws with
        definitions := ws.definitions.put symbol.qualifiedName ⟨symbol, site, file, none⟩ } }

/-- A statement at the top of the file is added, if it is a class or a function. -/
def Indexing.addStatement (file : CodeFile) (i : Indexing) (site : Site) : Indexing :=
  if i.defect.isSome then i
  else if site.node.isKind .classDefinition then i.addClass file site
  else if site.node.isKind .functionDefinition then i.addFunction file site
  else i

/-- Everything in the file is added. -/
def Indexing.addFile (file : CodeFile) (i : Indexing) : Indexing :=
  let imports := file.tree.descendants fun label =>
    label = .construct .importStatement || label = .construct .importFromStatement
  let i := imports.foldl (fun i site => i.addImport file site.node) i
  file.tree.statements.foldl (fun i site => i.addStatement file site) i

end CallTree.Workspace

namespace CallTree

open CallTree.Workspace

/-- **The workspace with a file indexed**, and the defect that ended the indexing. -/
def Workspace.index (ws : Workspace) (file : CodeFile) (isPackage : Bool) :
    Workspace × Option Text.Utf8.Defect :=
  let i := Indexing.addFile file
    { workspace := { ws with files := ws.files ++ [file] }
      module' := { moduleName := file.moduleName, isPackage := isPackage } }
  ({ i.workspace with modules := i.workspace.modules.put file.moduleName i.module' }, i.defect)

end CallTree
