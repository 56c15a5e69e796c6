import CallTree.Text.Case
import CallTree.Workspace.Index

/-!
# What a class declares

The statements of a class body declare its members, one after the other:

* a function is a method, or a property when it is decorated as one; the setter
  and the deleter of a property declare nothing;
* a function `__init__` declares fields as well, namely the attributes of its
  receiver that it assigns to;
* an annotated name is a field, unless it is annotated as a variable of the class;
* a class is a nested class.

A field is declared by the first of its declarations, and later ones change
nothing. A method or a property is what its last declaration says. Names are read
from the source, and reading can fail; a failure ends the reading of the class
and leaves what was declared before it.
-/

namespace CallTree.Workspace

open CallTree.Data (Table)
open CallTree.Syntax (Source Node Site)
open CallTree.Text (lastSegment endsWith isCapitalised)
open CallTree.Text.Utf8 (Defect)

/-- Whether one of the decorators has this last segment. -/
def decoratedAs (decorators : List String) (word : String) : Bool :=
  (decorators.map lastSegment).contains word

/-- An assignment to an attribute of the receiver: the name of the attribute, and
the name of its type for as long as nobody has asked. -/
structure Assigned where
  name : String
  typeName : Except Defect String

/-- **What one statement of a class declares.** -/
inductive Declaration where
  | method (symbol : MethodSymbol) (site : Site) (assigned : Except Defect (List Assigned))
  | property (symbol : StateSymbol)
  | field (name typeName : String)
  | nested (symbol : TypeSymbol) (site : Site)
  | nothing

/-! ## Reading a statement -/

/-- The symbol of a class, inside another one or not. -/
def CodeFile.classSymbol (file : CodeFile) (outer : Option TypeSymbol) (site : Site) :
    Except Defect TypeSymbol := do
  let name := site.node.definedName
  let above := (outer.map (·.qualifiedName)).getD file.moduleName
  let decorators ← file.source.decorators site
  let bases ← file.source.basesOf site.node
  return {
    name := name
    qualifiedName := above ++ "." ++ name
    homeModule := file.moduleName
    owner := outer.map (·.name)
    accessibility := .ofName name
    decorators := decorators
    file := some file.path.text
    bases := bases }

/-- The symbol of a function of a module. -/
def CodeFile.functionSymbol (file : CodeFile) (site : Site) : Except Defect MethodSymbol := do
  let name := site.node.definedName
  let returnType ← file.source.returnTypeOf site.node
  let decorators ← file.source.decorators site
  let parameters ← file.source.parametersOf site.node
  return {
    name := name
    qualifiedName := file.moduleName ++ "." ++ name
    homeModule := file.moduleName
    owner := some (lastSegment file.moduleName)
    accessibility := .ofName name
    isStatic := true
    returnType := returnType
    decorators := decorators
    file := some file.path.text
    kind := .function
    parameters := parameters.map (·.name) }

/-- The symbol of a field. -/
def fieldSymbol (owner : TypeSymbol) (name typeName : String) : StateSymbol where
  name := name
  qualifiedName := owner.qualifiedName ++ "." ++ name
  homeModule := owner.homeModule
  owner := some owner.name
  accessibility := .ofName name
  file := owner.file
  typeName := typeName

/-- The principal name of an annotation, or `Any`. -/
def typeNameOrAny (src : Source) (hint : Node) : Except Defect String :=
  (src.typeName hint).map (·.getD "Any")

/-- The name of the class that a call creates an object of, going by the way it is
written. -/
def createdClass? (src : Source) (call : Node) : Except Defect (Option String) :=
  match call.child? .function with
  | none => .ok none
  | some callee =>
    if callee.isName || callee.isKind .attributeAccess then
      (src.text callee).map fun text =>
        if isCapitalised (lastSegment text) then some text else none
    else .ok none

/-- **The type of a field by the assignment that declares it**: the annotation; else
the annotation of the parameter that is assigned; else the class of the object
that is created; else `Any`. -/
def assignedType (src : Source) (parameterTypes : Table String) (assignment : Node) :
    Except Defect String :=
  match assignment.child? .type with
  | some hint => typeNameOrAny src hint
  | none =>
    match assignment.child? .right with
    | none => .ok "Any"
    | some right =>
      match right.identifier?.bind parameterTypes.get? with
      | some typeName => .ok typeName
      | none =>
        if right.isKind .call then (createdClass? src right).map (·.getD "Any")
        else .ok "Any"

/-- The attribute of the receiver that an assignment assigns to. -/
def assignedAttribute? (receiver : String) (assignment : Node) : Option String := do
  let left ← assignment.child? .left
  guard (left.isKind .attributeAccess)
  let object ← left.child? .object
  guard (object.identifier? = some receiver)
  (← left.child? .attributeName).identifier?

/-- The principal name of a parameter's annotation, under the name of the
parameter. -/
def parameterType? (src : Source) (p : Syntax.Parameter) :
    Except Defect (Option (String × Option String)) :=
  match p.typeHint with
  | none => .ok none
  | some hint => (src.typeName hint).map fun typeName => some (p.name, typeName)

/-- The principal names of the annotations of parameters. -/
def parameterTypes (src : Source) (parameters : List Syntax.Parameter) :
    Except Defect (Table String) := do
  let types ← parameters.mapM (parameterType? src)
  let known : Table (Option String) := Table.putAll .empty (types.filterMap id)
  return known.filterMap fun (name, typeName) => typeName.map fun t => (name, t)

/-- **The assignments of a constructor to attributes of its receiver**, which is its
first parameter, in the order of the source. -/
def CodeFile.assignments (file : CodeFile) (n : Node) : Except Defect (List Assigned) := do
  match ← file.source.parametersOf n, n.child? .body with
  | receiver :: others, some body =>
    let types ← parameterTypes file.source others
    return (body.descendantsOf .assignment).filterMap fun site =>
      (assignedAttribute? receiver.name site.node).map fun name =>
        ⟨name, assignedType file.source types site.node⟩
  | _, _ => return []

/-- What a function of a class declares. -/
def CodeFile.methodDeclaration (file : CodeFile) (owner : TypeSymbol) (site : Site) :
    Except Defect Declaration := do
  let decorators ← file.source.decorators site
  if decorators.any fun d => endsWith ".setter" d || endsWith ".deleter" d then return .nothing
  let name := site.node.definedName
  let returnType ← file.source.returnTypeOf site.node
  let declared : Declared := {
    name := name
    qualifiedName := owner.qualifiedName ++ "." ++ name
    homeModule := owner.homeModule
    owner := some owner.name
    accessibility := .ofName name
    returnType := returnType
    decorators := decorators
    file := owner.file }
  if decoratedAs decorators "property" || decoratedAs decorators "cached_property" then
    return .property { declared with typeName := returnType.getD "Any" }
  let isStatic := decoratedAs decorators "staticmethod"
  let names := (← file.source.parametersOf site.node).map (·.name)
  let symbol : MethodSymbol := {
    declared with
    isStatic := isStatic || decoratedAs decorators "classmethod"
    kind := if name = "__init__" then .constructor else .method
    parameters := if isStatic then names else names.drop 1 }
  return .method symbol site
    (if name = "__init__" then file.assignments site.node else .ok [])

/-- What an expression statement of a class declares. -/
def CodeFile.fieldDeclaration (file : CodeFile) (n : Node) : Except Defect Declaration := do
  match n.namedChildren with
  | assignment :: _ =>
    if !assignment.isKind .assignment then return .nothing
    match (assignment.child? .left).bind Node.identifier?, assignment.child? .type with
    | some name, some hint =>
      let typeName ← typeNameOrAny file.source hint
      return if lastSegment typeName = "ClassVar" then .nothing else .field name typeName
    | _, _ => return .nothing
  | [] => return .nothing

/-- **What a statement of a class declares.** -/
def CodeFile.declaration (file : CodeFile) (owner : TypeSymbol) (site : Site) :
    Except Defect Declaration :=
  if site.node.isKind .functionDefinition then file.methodDeclaration owner site
  else if site.node.isKind .classDefinition then
    (file.classSymbol (some owner) site).map fun symbol => .nested symbol site
  else if site.node.isKind .expressionStatement then file.fieldDeclaration site.node
  else .ok .nothing

/-! ## Declaring -/

/-- The class with a field declared, unless it is declared already. -/
def TypeIndex.declareField (index : TypeIndex) (name typeName : String) : TypeIndex :=
  if index.fields.has name then index
  else
    let symbol := fieldSymbol index.symbol name typeName
    { index with
      fields := index.fields.put name symbol
      members := index.members ++ [.field symbol] }

/-- The fields that assignments declare: the first assignment to each name counts,
unless the name is declared already. -/
def newFields (known : List String) : List Assigned → Except Defect (List (String × String))
  | [] => .ok []
  | a :: rest =>
    if known.contains a.name then newFields known rest
    else do
      let typeName ← a.typeName
      let others ← newFields (a.name :: known) rest
      return (a.name, typeName) :: others

/-- The class with the fields declared that a constructor assigns to. All of them
are known before the first one is declared. -/
def TypeIndex.declareAssigned (index : TypeIndex) (assigned : Except Defect (List Assigned)) :
    TypeIndex × Option Defect :=
  match assigned.bind (newFields index.fields.names) with
  | .error defect => (index, some defect)
  | .ok fields =>
    (fields.foldl (fun i (name, typeName) => i.declareField name typeName) index, none)

/-- **The class with one more declaration**, and the defect that stopped it half
way. -/
def TypeIndex.declare (index : TypeIndex) : Declaration → TypeIndex × Option Defect
  | .method symbol _ assigned =>
    let index := { index with
      methods := index.methods.put symbol.name symbol
      members := index.members ++ [Symbol.method symbol] }
    index.declareAssigned assigned
  | .property symbol =>
    ({ index with
      properties := index.properties.put symbol.name symbol
      members := index.members ++ [.property symbol] }, none)
  | .field name typeName => (index.declareField name typeName, none)
  | .nested symbol _ =>
    ({ index with nested := index.nested.put symbol.name symbol }, none)
  | .nothing => (index, none)

/-- The definition that a declaration brings. -/
def Declaration.definition? (file : CodeFile) (owner : TypeSymbol) :
    Declaration → Option Definition
  | .method symbol site _ => some ⟨symbol, site, file, some owner⟩
  | _ => none

end CallTree.Workspace
