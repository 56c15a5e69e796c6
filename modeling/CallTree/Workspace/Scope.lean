import CallTree.Workspace.Declaration
import CallTree.Workspace.Expr
import CallTree.Workspace.Lookup

/-!
# Names in a body

A body is read without regard to the order of execution. A name is the receiver,
a local name, or else what it means at the top of the module. Parameters have the
types they are annotated with; a local variable has the type of the first
assignment that gives it one.

The type of an expression leads further: the type of an access to a field is the
type of the field, the type of a call is the class that is called or what the
method that is called returns, and `super()` is the first base that is known.
-/

namespace CallTree.Workspace

open CallTree.Data (Table)
open CallTree.Syntax (Source Node Site)
open CallTree.Text (lastSegment)
open CallTree.Text.Utf8 (Defect)

namespace Scope

variable (ws : Workspace) (scope : Scope)

/-! ## What expressions stand for -/

/-- The first base of the class that is known. -/
def superType : Except Fault (Option TypeSymbol) :=
  match scope.enclosing with
  | none => .ok none
  | some t => first t.homeModule t.bases
where
  /-- The first of several names that means a type in a module. -/
  first (moduleName : String) : List String → Except Fault (Option TypeSymbol)
    | [] => .ok none
    | name :: rest => do
      match ← ws.typeNamed moduleName (some name) with
      | some t => return some t
      | none => first moduleName rest

/-- A function outside the workspace may be a module, of which nothing is known
but its name. -/
def asModule (s : Symbol) : Option Referent :=
  match s with
  | .method m =>
    if m.isExternal && m.kind = .function && m.homeModule ≠ "builtins" then
      some (.module' ⟨m.qualifiedName, true⟩)
    else none
  | .type t => some (.symbol (.type t))
  | _ => none

/-- What a name that is neither the receiver nor local leads to. -/
def globalReceiver (name : String) : Except Fault (Option Referent) := do
  match ← ws.global scope.moduleName name with
  | some (.symbol s) => return asModule s
  | some (.module' m) => return some (.module' m)
  | none => return none

/-- What a referent leads to when a member is taken of it: the type of a field or
property, or a type or a module itself. -/
def typeOf : Option Referent → Except Fault (Option Referent)
  | some (.symbol (.field s)) | some (.symbol (.property s)) => do
    return (← ws.typeNamed s.homeModule (some s.typeName)).map fun t => .symbol (.type t)
  | some (.symbol s) => .ok (asModule s)
  | some (.module' m) => .ok (some (.module' m))
  | none => .ok none

/-- What the result of a call leads to, by what is called: an object of the class,
or what the method returns. -/
def resultOf : Option Referent → Except Fault (Option Referent)
  | some (.symbol (.type t)) => .ok (some (.symbol (.type t)))
  | some (.symbol (.method m)) => do
    return (← ws.typeNamed m.homeModule m.returnType).map fun t => .symbol (.type t)
  | _ => .ok none

mutual

/-- **The type or module that an expression leads to** when a member is taken of it. -/
def receiverOf : Expr → Except Fault (Option Referent)
  | .name text =>
    if scope.receiver = some text then
      .ok (scope.enclosing.map fun t => .symbol (.type t))
    else
      match scope.locals.get? text with
      | some found => .ok (found.map fun t => .symbol (.type t))
      | none => globalReceiver ws scope text
  | .access object member => do
    let found ← ws.attributeOf (← receiverOf object) member
    typeOf ws found
  | .call (.name "super") => do
    return (← superType ws scope).map fun t => .symbol (.type t)
  | .call callee => do resultOf ws (← calleeOf callee)
  | .group inner => receiverOf inner
  | .other => .ok none

/-- **What is called**, by the expression before the arguments. The receiver can be
called where it is the class, and a local name is not known to be anything that
can be called. -/
def calleeOf : Expr → Except Fault (Option Referent)
  | .name text =>
    if scope.receiver = some text then
      .ok (if scope.isClassMethod then scope.enclosing.map fun t => .symbol (.type t) else none)
    else if scope.locals.has text then .ok none
    else ws.global scope.moduleName text
  | .access object member => do ws.attributeOf (← receiverOf object) member
  | _ => .ok none

end

/-- What an access to a member stands for. -/
def accessed (object : Expr) (member : String) : Except Fault (Option Referent) := do
  ws.attributeOf (← receiverOf ws scope object) member

/-- The method that a call calls; for a class, its constructor. -/
def called (callee : Expr) : Except Fault (Option Symbol) := do
  match ← calleeOf ws scope callee with
  | some (.symbol (.type t)) => return some (.method (ws.constructorOf t))
  | some (.symbol (.method m)) => return some (.method m)
  | _ => return none

/-- What a name stands for where it is used. -/
def named (text : String) : Except Fault (Option Referent) :=
  if scope.receiver = some text || scope.locals.has text then .ok none
  else ws.global scope.moduleName text

/-- Whether a name only says which member or which keyword argument is meant. -/
def isLabel (site : Site) : Bool :=
  match site.parent with
  | some parent =>
    (parent.isKind .attributeAccess && site.node.role = some .attributeName)
      || (parent.isKind .keywordArgument && site.node.role = some .name)
  | none => false

/-- **The symbol that an expression of the body stands for.** -/
def resolve (site : Site) : Except Fault (Option Symbol) :=
  match Expr.ofNode site.node with
  | .call callee => called ws scope callee
  | .access object member => do
    return (← accessed ws scope object member).bind Referent.symbol?
  | .name text =>
    if isLabel site then .ok none
    else do return (← named ws scope text).bind Referent.symbol?
  | _ => .ok none

/-- Whether a call creates an object. -/
def isCreation (site : Site) : Except Fault Bool :=
  match Expr.ofNode site.node with
  | .call callee => do
    return ((← calleeOf ws scope callee).bind Referent.type?).isSome
  | _ => .ok false

/-! ## Building a scope -/

/-- What went wrong with the text of a source, as a fault. -/
def readable {α : Type} (r : Except Defect α) : Except Fault α := r.mapError .undecodable

/-- The scope with the type that a parameter is annotated with. -/
def bindParameter (src : Source) (p : Syntax.Parameter) : Except Fault Scope := do
  let typeName ← match p.typeHint with
    | some hint => readable (src.typeName hint)
    | none => pure none
  let found ← ws.typeNamed scope.moduleName typeName
  return { scope with locals := scope.locals.put p.name found }

/-- The type that an assignment gives to the name it assigns to: that of the
annotation, else that of the call on the right. -/
def assignedType (src : Source) (assignment : Node) : Except Fault (Option TypeSymbol) :=
  match assignment.child? .type with
  | some hint => do ws.typeNamed scope.moduleName (← readable (src.typeName hint))
  | none =>
    match assignment.child? .right with
    | some right =>
      if right.isKind .call then do
        return (← receiverOf ws scope (Expr.ofNode right)).bind Referent.type?
      else .ok none
    | none => .ok none

/-- The scope with the name that an assignment assigns to. The first type that is
found for a name stays. -/
def bindAssignment (src : Source) (assignment : Node) : Except Fault Scope :=
  match (assignment.child? .left).bind Node.identifier? with
  | none => .ok scope
  | some name => do
    let found ← assignedType ws scope src assignment
    match scope.locals.get? name with
    | some (some _) => return scope
    | _ => return { scope with locals := scope.locals.put name found }

end Scope

/-- The scope of a definition before anything is bound, with the parameters that
are left to be bound: all but the receiver. -/
def Definition.bareScope (d : Definition) :
    Except Fault (Scope × List Syntax.Parameter) := do
  let parameters ← Scope.readable (d.file.source.parametersOf d.site.node)
  let decorators ← Scope.readable (d.file.source.decorators d.site)
  let bare (receiver : Option String) : Scope :=
    { moduleName := d.file.moduleName
      enclosing := d.enclosing
      isClassMethod := decoratedAs d.symbol.decorators "classmethod"
      receiver := receiver
      locals := .empty }
  match parameters with
  | first :: others =>
    if d.enclosing.isSome && !decoratedAs decorators "staticmethod" then
      return (bare (some first.name), others)
    else return (bare none, first :: others)
  | [] => return (bare none, [])

/-- **The scope of a definition**: its parameters are bound, and then the names that
its body assigns to, in the order of the source. -/
def scopeFor (ws : Workspace) (d : Definition) : Except Fault Scope := do
  let (bare, parameters) ← d.bareScope
  let scope ← parameters.foldlM (fun scope p => scope.bindParameter ws d.file.source p) bare
  match d.body? with
  | none => return scope
  | some body =>
    (body.descendantsOf .assignment).foldlM
      (fun scope site => scope.bindAssignment ws d.file.source site.node) scope

end CallTree.Workspace
