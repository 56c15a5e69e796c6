import CallTree.Files.Tree
import CallTree.Log
import CallTree.Workspace.Outline
import CallTree.Workspace.Reader

/-!
# Opening a workspace

A workspace is opened from texts or from a directory. Opening adds to what is
indexed already. A file of a directory that cannot be read is passed over; a name
in a file that cannot be decoded ends the opening, with everything before it
indexed.
-/

namespace CallTree.Workspace

open CallTree.Files (Path Tree moduleOf?)
open CallTree.Syntax (Source)
open CallTree.Text (endsWith)

/-- Why opening failed. -/
inductive LoadError where
  /-- There is nothing at the path. -/
  | notFound (path : Path)
  /-- The path has no name to name a module after. -/
  | nameless (path : Path)
  | undecodable (defect : Text.Utf8.Defect)

/-- What is said about a failure to open. -/
def LoadError.message : LoadError → String
  | notFound path => "Workspace not found: " ++ path.text
  | nameless path => path.namelessMessage
  | undecodable defect => defect.message

/-- A workspace that is being opened. -/
structure Loading where
  workspace : Workspace
  log : List Log.Record := []
  error : Option LoadError := none

/-- A source is read and indexed as the file at a path, of which `relative` is the
part that names the module. -/
def Loading.add (l : Loading) (path relative : Path) (source : Source) (isChecked : Bool) :
    Loading :=
  match moduleOf? relative with
  | none => { l with error := some (.nameless relative) }
  | some (moduleName, isPackage) =>
    let file : CodeFile := ⟨path, moduleName, source, source.tree⟩
    let bad := if isChecked then file.tree.errorLines else []
    let warnings : List Log.Record :=
      if bad.isEmpty then []
      else
        let lines := "[" ++ ", ".intercalate (bad.map fun n => toString n) ++ "]"
        [⟨.warning, .workspace,
          s!"Syntax errors in {path.text} at lines {lines}; indexing what parsed"⟩]
    let (ws, defect) := l.workspace.index file isPackage
    { workspace := ws, log := l.log ++ warnings, error := defect.map .undecodable }

/-- Opening is over: if nothing went wrong, the workspace counts as opened. -/
def Loading.finish (l : Loading) : Loading :=
  if l.error.isSome then l else { l with workspace := { l.workspace with opened := true } }

/-- The next source, unless something went wrong before. -/
def Loading.addSource (l : Loading) (source : String × String) : Loading :=
  if l.error.isSome then l
  else
    let path := Path.ofText source.1
    l.add path path (.ofText source.2) false

/-- **Opening texts**, in the order of the texts of their paths. -/
def openSources (ws : Workspace) (sources : List (String × String)) : Loading :=
  let inOrder := sources.mergeSort fun a b => decide (a.1 ≤ b.1)
  (inOrder.foldl Loading.addSource ⟨ws, [], none⟩).finish

/-! ## Directories -/

/-- The folders that are never looked into. -/
def skippedDirs : List String :=
  [".venv", "venv", "env", "__pycache__", "node_modules", ".git", ".hg",
   "site-packages", ".tox", ".nox", ".pytest_cache", "build", "dist",
   ".mypy_cache", ".ruff_cache", "htmlcov", ".eggs"]

/-- Whether a folder is not looked into. -/
def isExcluded (excluded : List String) (name : String) : Bool :=
  skippedDirs.contains name || excluded.contains name || endsWith ".egg-info" name

/-- **The files of code below a path**, in order. A path to a file leads to that file
alone. -/
def codePaths (tree : Tree) (excluded : List String) (root : Path) : List Path :=
  match tree.find root with
  | .file _ => if root.suffix = ".py" then [root] else []
  | _ =>
    match tree.place root with
    | .ok place =>
      let found := (tree.below place).filter fun path =>
        endsWith ".py" (path.getLast?.getD "") && !path.dropLast.any (isExcluded excluded)
      let paths := found.map fun path => { root with names := root.names ++ path }
      paths.mergeSort Path.precedes
    | .error _ => []

/-- A file of a directory is read and indexed, or passed over. -/
def Loading.addFile (tree : Tree) (base : Path) (l : Loading) (path : Path) : Loading :=
  if l.error.isSome then l
  else
    let relative : Path := { names := path.names.drop base.names.length }
    match tree.read path with
    | .ok bytes => l.add path relative ⟨bytes⟩ true
    | .error why =>
      { l with log := l.log ++ [
          Reader.unreadable path.text path why,
          ⟨.warning, .workspace, s!"Skipping unparsable file {path.text}"⟩] }

/-- **Opening a directory**, or a single file. -/
def openPath (ws : Workspace) (tree : Tree) (excluded : List String) (root : Path) : Loading :=
  let start : Loading := ⟨ws, [], none⟩
  let missing : Loading := { start with error := some (.notFound root) }
  let load (base : Path) : Loading :=
    let l := ((codePaths tree excluded root).foldl (Loading.addFile tree base) start).finish
    if l.error.isSome then l
    else
      { l with log := l.log ++ [⟨.debug, .workspace,
          s!"Indexed {l.workspace.modules.length} modules, {l.workspace.types.length} types"⟩] }
  match tree.find root with
  | .missing => missing
  | .notFolder => missing
  | .folder => load root
  | .file _ => load root.parent

end CallTree.Workspace
