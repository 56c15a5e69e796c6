import CallTree.Files.Path

/-!
# Files

The files of a directory, as far as an analysis looks at them. A folder is there
when it was made or when something lies in it. Relative paths begin in the
directory, and absolute ones at their root, which is the first name on the way.
A place is a list of names that has dots at most at its beginning, where they lead
above the directory.
-/

namespace CallTree.Files

/-- Something that lies in a folder. -/
inductive Entry where
  | file (bytes : ByteArray)
  | folder

/-- **The files of a directory**, each with the names that lead to it. -/
abbrev Tree := List (List String × Entry)

/-- What is found at a path. -/
inductive Found where
  | file (bytes : ByteArray)
  | folder
  | missing
  /-- Something on the way is a file. -/
  | notFolder

namespace Tree

variable (tree : Tree)

/-- Whether there is a folder under these names. -/
def hasFolder (names : List String) : Bool :=
  tree.any fun (path, entry) =>
    match entry with
    | .file _ => names.isPrefixOf path && names.length < path.length
    | .folder => names.isPrefixOf path

/-- Whether names lead straight up. -/
def isAbove (names : List String) : Bool := names.all (· = "..")

/-- What is found at a place. The folders above the directory are there, whatever is
known of what lies in them. -/
def entryAt (place : List String) : Found :=
  match tree.find? (fun (path, _) => path = place) with
  | some (_, .file bytes) => .file bytes
  | _ => if isAbove place || tree.hasFolder place then .folder else .missing

/-- The place above a place. Nothing is above the root of a path, if it has one. -/
def above (root here : List String) : List String :=
  if here = root && !root.isEmpty then root
  else if isAbove here then here ++ [".."]
  else here.dropLast

/-- The place that names lead to, dots included; or why they lead nowhere. -/
def follow (root here : List String) : List String → Except Found (List String)
  | [] => .ok here
  | name :: rest =>
    match tree.entryAt here with
    | .folder => follow root (if name = ".." then above root here else here ++ [name]) rest
    | .file _ => .error .notFolder
    | other => .error other

/-- The place that a path leads to, or why it leads nowhere. -/
def place (path : Path) : Except Found (List String) :=
  let root := if path.root.isEmpty then [] else [path.root]
  tree.follow root root path.names

/-- **What is found at a path.** -/
def find (path : Path) : Found :=
  match tree.place path with
  | .ok place => tree.entryAt place
  | .error found => found

/-- Whether there is a folder at a path. -/
def isFolder (path : Path) : Bool :=
  match tree.find path with
  | .folder => true
  | _ => false

/-- Whether there is a file at a path. -/
def isFile (path : Path) : Bool :=
  match tree.find path with
  | .file _ => true
  | _ => false

/-- The tree with an entry under some names, in place of what was there. -/
def put (names : List String) (entry : Entry) : Tree :=
  tree.filter (fun (path, _) => path ≠ names) ++ [(names, entry)]

/-- The tree with an entry at a path. -/
def write (path : Path) (entry : Entry) : Tree :=
  match tree.place path.parent with
  | .ok place => tree.put (place ++ [path.name]) entry
  | .error _ => tree.put path.parts entry

/-- The tree without the entry at a path. -/
def remove (path : Path) : Tree :=
  tree.filter fun (names, _) => names ≠ path.parts

/-- Everything below a folder, as names relative to it: files and folders, each
once. -/
def below (names : List String) : List (List String) :=
  let inside := tree.filterMap fun (path, _) =>
    if names.isPrefixOf path then some (path.drop names.length) else none
  let withFolders := inside.flatMap fun path =>
    (List.range path.length).map fun n => path.take (n + 1)
  withFolders.eraseDups

end Tree

/-! ## Reading -/

/-- Why a file cannot be read. -/
inductive Unreadable where
  | missing
  | notFolder
  | isFolder
deriving DecidableEq, Repr

/-- What is said of a file that cannot be read. -/
def Unreadable.message (path : Path) : Unreadable → String
  | missing => s!"[Errno 2] No such file or directory: {Text.quoted path.text}"
  | notFolder => s!"[Errno 20] Not a directory: {Text.quoted path.text}"
  | isFolder => s!"[Errno 21] Is a directory: {Text.quoted path.text}"

/-- **The bytes of a file.** -/
def Tree.read (tree : Tree) (path : Path) : Except Unreadable ByteArray :=
  match tree.find path with
  | .file bytes => .ok bytes
  | .folder => .error .isFolder
  | .missing => .error .missing
  | .notFolder => .error .notFolder

end CallTree.Files
