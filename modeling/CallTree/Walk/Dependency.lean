import CallTree.CodeModel
import CallTree.Walk.Event

/-!
# Dependencies

A type depends on other types through its fields and properties. The body of a
method *uses* a member of the method's type when some identifier or member access
in it stands for the member, and *calls through* it when a member access on it is
what an invocation calls.

For each field that is used, the findings are one entry for the use and one for
each call through it, in the order of the source; then the same for properties,
whose calls are looked for only on request. A call through a member that resolves
to no method is found as well, as something unresolved.
-/

namespace CallTree

/-- A member through which a type depends on another. -/
structure Member where
  kind : MemberKind
  state : StateSymbol
deriving DecidableEq, Repr

namespace Member

/-- The symbol of a member. -/
def symbol (m : Member) : Symbol :=
  match m.kind with
  | .field => .field m.state
  | .property => .property m.state

/-- The member that a symbol stands for, if it binds to an instance. -/
def ofSymbol? : Symbol → Option Member
  | .field s => if s.isStatic then none else some ⟨.field, s⟩
  | .property s => if s.isStatic then none else some ⟨.property, s⟩
  | _ => none

/-- What is shown of the member's type: its last segment. -/
def shownType (m : Member) : String :=
  Text.lastSegment (if m.state.typeName.isEmpty then "Any" else m.state.typeName)

end Member

namespace Dependency

/-- **A use of a member**, or a method that is called through it. -/
structure Usage where
  member : Member
  /-- The method called through the member; nothing for the use itself. -/
  invoked : Option MethodSymbol
deriving DecidableEq, Repr

/-- What a search for dependencies comes upon. -/
inductive Finding where
  | usage (u : Usage)
  /-- A call through the member that resolves to no method. -/
  | unresolved (member : Member)
deriving DecidableEq, Repr

/-- The usage that a finding is. -/
def Finding.usage? : Finding → Option Usage
  | usage u => some u
  | unresolved _ => none

variable {Body Scope Expr : Type} (model : CodeModel Body Scope Expr)

/-- The symbols that the given expressions stand for. -/
def symbolsOf (scope : Scope) (exprs : List Expr) : Except Fault (List Symbol) := do
  let found ← exprs.mapM (model.resolve scope)
  return found.filterMap id

/-- The symbols that the identifiers and member accesses of a body stand for. -/
def references (body : Body) (scope : Scope) : Except Fault (List Symbol) := do
  let names ← symbolsOf model scope (← model.occurrences body .identifier)
  let accesses ← symbolsOf model scope (← model.occurrences body .memberAccess)
  return names ++ accesses

/-- What one member access says about a member: the call through it, if there is
one. -/
def callThrough (scope : Scope) (member : Member) (access : Expr) :
    Except Fault (List Finding) := do
  let some receiver ← model.receiver access | return []
  if (← model.resolve scope receiver) ≠ some member.symbol then return []
  let some invocation ← model.invocation access | return []
  match ← model.resolve scope invocation with
  | some (.method m) => return [.usage ⟨member, some m⟩]
  | _ => return [.unresolved member]

/-- The findings about one member, given what the body refers to and its member
accesses. -/
def findingsOf (scope : Scope) (refs : List Symbol) (accesses : List Expr)
    (through : Bool) (member : Member) : Cut Finding :=
  if refs.contains member.symbol then
    (Cut.done [.usage ⟨member, none⟩]).append
      (if through then Cut.each (callThrough model scope member) accesses else .done [])
  else .done []

/-- The findings about several members, one after the other. -/
def findingsOfAll (scope : Scope) (refs : List Symbol) (accesses : List Expr)
    (through : Bool) : List Member → Cut Finding
  | [] => .done []
  | member :: rest =>
    (findingsOf model scope refs accesses through member).append
      (findingsOfAll scope refs accesses through rest)

/-- **The dependencies of a body**: fields first, then properties. With
`throughProperties`, calls through properties count as calls through fields do. -/
def findings (throughProperties : Bool) (body : Body) (scope : Scope) : Cut Finding :=
  match model.enclosing body with
  | none => .done []
  | some owner =>
    Cut.after (model.members owner) fun symbols =>
      let members := symbols.filterMap Member.ofSymbol?
      let fields := members.filter (·.kind = .field)
      let properties := members.filter (·.kind = .property)
      if members.isEmpty then .done []
      else
        Cut.after (references model body scope) fun refs =>
          Cut.after (model.occurrences body .memberAccess) fun accesses =>
            (findingsOfAll model scope refs accesses true fields).append
              (findingsOfAll model scope refs accesses throughProperties properties)

/-- The usages among the findings, if nothing went wrong. -/
def usages (found : Cut Finding) : Except Fault (List Usage) :=
  match found.fault with
  | some fault => .error fault
  | none => .ok (found.items.filterMap Finding.usage?)

end Dependency

end CallTree
