import CallTree.CodeModel.Disturbed
import CallTree.Entry
import CallTree.Workspace.Loading
import CallTree.Workspace.Model

/-!
# Working with a workspace

A session keeps a workspace while one question after the other is put to it. What
is opened later is added to what is there, scopes that were built once are kept,
and disturbances stay in force.
-/

namespace CallTree.Workspace

/-- **A workspace in use.** -/
structure Session where
  workspace : Workspace := {}
  disturbances : List Disturbance := []
  /-- Names of folders that are not looked into, beyond the customary ones. -/
  excluded : List String := []

namespace Session

variable (s : Session)

/-- The code model of the session. -/
def model : CodeModel Definition Scope Syntax.Site :=
  s.workspace.model.disturbed (fun d => d.symbol.name) s.disturbances

/-- The types of the workspace, once something was opened. -/
def types? : Option (List TypeSymbol) :=
  if s.workspace.opened then some s.workspace.typeSymbols else none

/-- The type with this qualified name, or else the first with this name. -/
def typeCalled? (name : String) : Option TypeSymbol :=
  let types := s.workspace.typeSymbols
  (types.find? (·.qualifiedName = name)).or (types.find? (·.name = name))

/-- The session with the scope of a definition kept. -/
def remember (d : Definition) : Session :=
  { s with workspace := s.workspace.remember d }

/-- The session with the scope of a method's body kept, if it was asked for. -/
def rememberMethod (m : MethodSymbol) : Session :=
  match s.model.definition m with
  | .ok (some d) =>
    match s.model.scope d with
    | .ok (some _) => s.remember d
    | _ => s
  | _ => s

/-- **A walk**, with the session after it. -/
def walk (noise : Noise) (options : Walk.Options) (calledOff : Nat → Bool)
    (entry : MethodSymbol) : Walk.Outcome × Session :=
  let (tree, p) := Walk.treeFrom s.model noise options calledOff entry
  (.ofTree entry tree p, tree.expansions.foldl (fun s (_, m) => s.rememberMethod m) s)

/-- **The entry that is asked for**, once something was opened. -/
def entry (h : Entry.Heuristics) (types : List TypeSymbol) (hint : String)
    (action : Option String) : Except Entry.Refusal Entry.Resolution :=
  Entry.resolve h types s.model.members hint action

end Session

/-- What is said when a question about types comes before anything was opened. -/
def notOpenedMessage : String := "Workspace has not been opened"

end CallTree.Workspace
