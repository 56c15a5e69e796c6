import CallTree.Walk.Outcome
import CallTree.Workspace.Scope

/-!
# The code model of a workspace

A workspace answers the questions of a code model from its index. The scope of a
definition is built when it is first asked for and kept under the qualified name
of the method; `remember` is where it is kept.
-/

namespace CallTree.Workspace

open CallTree.Syntax (Node Site)

/-- The scope of a definition: the one that is kept, or a new one. -/
def scopeOf (ws : Workspace) (d : Definition) : Except Fault Scope :=
  match ws.scopes.get? d.symbol.qualifiedName with
  | some scope => .ok scope
  | none => scopeFor ws d

/-- The workspace with the scope of a definition kept, if there is one. -/
def remember (ws : Workspace) (d : Definition) : Workspace :=
  match ws.scopeOf d with
  | .ok scope => { ws with scopes := ws.scopes.put d.symbol.qualifiedName scope }
  | .error _ => ws

/-- The calls of a body, those that create an object or those that do not. -/
def callsOf (ws : Workspace) (d : Definition) (body : Node) (creating : Bool) :
    Except Fault (List Site) := do
  let scope ← ws.scopeOf d
  (body.descendantsOf .call).filterM fun site => do
    return (← scope.isCreation ws site) = creating

/-- The expressions of one kind in a definition. -/
def occurrencesIn (ws : Workspace) (d : Definition) (kind : SyntaxKind) :
    Except Fault (List Site) :=
  match d.body? with
  | none => .ok []
  | some body =>
    match kind with
    | .invocation => ws.callsOf d body false
    | .objectCreation => ws.callsOf d body true
    | .memberAccess => .ok (body.descendantsOf .attributeAccess)
    | .identifier => .ok body.identifiers

/-- What an access to a member takes the member of. -/
def receiverSite? (access : Site) : Option Site :=
  if access.node.isKind .attributeAccess then
    (access.node.child? .object).map fun object => ⟨object, some access.node⟩
  else none

/-- The call that calls an expression. -/
def invocationSite? (access : Site) : Option Site :=
  match access.parent with
  | some parent =>
    if parent.isKind .call && access.node.role = some .function then some ⟨parent, none⟩
    else none
  | none => none

/-- **The code model of a workspace.** -/
def model (ws : Workspace) : CodeModel Definition Scope Site where
  definition := ws.definitionOf
  scope d := (ws.scopeOf d).map some
  occurrences := ws.occurrencesIn
  resolve scope := scope.resolve ws
  members t := .ok (ws.membersOf t)
  receiver access := .ok (receiverSite? access)
  invocation access := .ok (invocationSite? access)
  enclosing d := d.enclosing

end CallTree.Workspace
