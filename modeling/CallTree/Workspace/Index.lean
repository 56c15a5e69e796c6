import CallTree.CodeModel
import CallTree.Data.Table
import CallTree.Files.Path
import CallTree.Syntax.Definition
import CallTree.Syntax.Import
import CallTree.Syntax.Tree

/-!
# The index of a workspace

Files are indexed one after the other. For each module the index holds what its
names stand for, for each class its members, and for each method and function
where it is defined. Names are put into tables, so a later declaration replaces
an earlier one of the same name and takes over its place.
-/

namespace CallTree.Workspace

open CallTree.Data (Table)
open CallTree.Files (Path)
open CallTree.Syntax (Source Node Site)

/-- A file of code that was read. -/
structure CodeFile where
  path : Path
  /-- The dotted name of the module in it. -/
  moduleName : String
  source : Source
  tree : Node

/-- **What the names of a module stand for.** -/
structure ModuleIndex where
  moduleName : String
  /-- Whether the file stands for the package it lies in. -/
  isPackage : Bool
  /-- The names that are imported, with what they stand for. -/
  imports : Table String := .empty
  /-- The names that whole modules are imported under. -/
  wholeModules : List String := []
  classes : Table TypeSymbol := .empty
  functions : Table MethodSymbol := .empty
deriving DecidableEq

/-- **The members of a class.** -/
structure TypeIndex where
  symbol : TypeSymbol
  /-- The members in the order of their declaration. -/
  members : List Symbol := []
  methods : Table MethodSymbol := .empty
  properties : Table StateSymbol := .empty
  fields : Table StateSymbol := .empty
  /-- The classes declared inside the class. -/
  nested : Table TypeSymbol := .empty
deriving DecidableEq

/-- The member that a class declares under a name. -/
def TypeIndex.declares? (index : TypeIndex) (name : String) : Option Symbol :=
  ((index.methods.get? name).map Symbol.method).or <|
  ((index.properties.get? name).map Symbol.property).or <|
  ((index.fields.get? name).map Symbol.field).or <|
  ((index.nested.get? name).map Symbol.type)

/-- **Where a method or function is defined.** -/
structure Definition where
  symbol : MethodSymbol
  site : Site
  file : CodeFile
  /-- The class that the method belongs to. -/
  enclosing : Option TypeSymbol

/-- The body of a definition. -/
def Definition.body? (d : Definition) : Option Node := d.site.node.child? .body

/-- **What is known of the names in one body**: the name of the receiver and the
types of parameters and local variables. -/
structure Scope where
  moduleName : String
  enclosing : Option TypeSymbol
  /-- Whether the receiver is the class itself. -/
  isClassMethod : Bool
  receiver : Option String
  /-- The local names; a type where it is known. -/
  locals : Table (Option TypeSymbol)
deriving DecidableEq

end CallTree.Workspace

namespace CallTree

open CallTree.Data (Table)

/-- **A workspace**: everything indexed so far. -/
structure Workspace where
  files : List Workspace.CodeFile := []
  modules : Table Workspace.ModuleIndex := .empty
  types : Table Workspace.TypeIndex := .empty
  definitions : Table Workspace.Definition := .empty
  /-- The scopes built so far, by the qualified names of their methods. -/
  scopes : Table Workspace.Scope := .empty
  /-- Whether anything was opened. -/
  opened : Bool := false

/-- The types of a workspace, in the order in which they were first declared. -/
def Workspace.typeSymbols (ws : Workspace) : List TypeSymbol :=
  ws.types.values.map (·.symbol)

/-- The members that a type declares; none for a type that is not indexed. -/
def Workspace.membersOf (ws : Workspace) (t : TypeSymbol) : List Symbol :=
  ((ws.types.get? t.qualifiedName).map (·.members)).getD []

end CallTree
