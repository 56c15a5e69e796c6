import CallTree.Data.Table
import CallTree.Syntax.Source
import CallTree.Text.Dotted

/-!
# Imports

An import binds names of its file to what they stand for elsewhere, given as
dotted names. `import a.b` binds `a` to `a`, since that is the name the file can
use; `import a.b as c` binds `c` to `a.b`; `from m import x as y` binds `y` to
`m.x`. The dots of a relative import are kept as they are written.
-/

namespace CallTree.Syntax

open CallTree.Data (Table)
open CallTree.Text.Utf8 (Defect)

/-- Whether the import takes names out of a module. -/
def Node.isFromImport (n : Node) : Bool := n.isKind .importFromStatement

/-- The module that names are taken from, with its leading dots; empty when whole
modules are imported. -/
def Source.importedModule (src : Source) (n : Node) : Except Defect String :=
  if n.isFromImport then
    match n.child? .sourceModule with
    | some source => src.text source
    | none => .ok ""
  else .ok ""

/-- What a name taken from a module stands for. -/
def qualify (module' name : String) : String :=
  if Text.endsWith "." module' then module' ++ name else module' ++ "." ++ name

/-- The binding that a child of an import makes. -/
def Source.importBinding? (src : Source) (isFrom : Bool) (module' : String) (child : Node) :
    Except Defect (Option (String × String)) :=
  if child.isKind .dottedName then do
    let text ← src.text child
    if isFrom then return some (text, qualify module' text)
    else
      let head := Text.firstSegment text
      return some (head, head)
  else if child.isKind .aliasedImport then
    match child.child? .name, child.child? .boundName with
    | some target, some name => do
      let bound ← src.text name
      let text ← src.text target
      return some (bound, if isFrom then qualify module' text else text)
    | _, _ => .ok none
  else .ok none

/-- **The names that an import binds**, each with what it stands for. A name that
is bound twice keeps its place and its last meaning. -/
def Source.importBindings (src : Source) (n : Node) : Except Defect (Table String) := do
  let module' ← src.importedModule n
  let source := if n.isFromImport then n.child? .sourceModule else none
  let children := n.namedChildren.filter fun child =>
    match source with
    | some s => !child.sameAs s
    | none => true
  let bindings ← children.mapM (src.importBinding? n.isFromImport module')
  return Table.putAll .empty (bindings.filterMap id)

end CallTree.Syntax
