import CallTree.Command

/-!
# The command line

The outermost layer: it reads the files below the workspace, asks for the
transcript of the command, and prints it.
-/

namespace CallTree.CommandLine

open CallTree.Files (Path Tree Entry)

/-- Whether a file is looked at: a file of code, or a configuration. -/
def isWanted (name : String) : Bool :=
  Text.endsWith ".py" name || Config.fileNames.contains name

/-- The entry for something in a folder: a file with its bytes, if it is wanted, or a
folder. -/
def fileEntry (place : List String) : IO Tree := do
  let name := place.getLast?.getD ""
  let text := "/".intercalate place
  if isWanted name then return [(place, .file (← IO.FS.readBinFile text))]
  else return [(place, .file .empty)]

/-- The files in a folder and below it, except in folders that are never looked into. -/
partial def filesBelow (place : List String) : IO Tree := do
  let here ← IO.currentDir
  let folder := here / (if place.isEmpty then "." else "/".intercalate place)
  let mut found : Tree := [(place, .folder)]
  for entry in ← folder.readDir do
    let inner := place ++ [entry.fileName]
    if ← entry.path.isDir then
      if !Workspace.skippedDirs.contains entry.fileName then
        found := found ++ (← filesBelow inner)
    else found := found ++ (← fileEntry inner)
  return found

/-- The files that a workspace is made of, and the configurations beside it. -/
def filesOf (workspace : Path) : IO Tree := do
  let here ← IO.currentDir
  let folder := here / workspace.text
  if ← folder.isDir then filesBelow workspace.parts
  else
    let beside := Config.fileNames.map workspace.parent.join
    let mut found : Tree := []
    for path in workspace :: beside do
      if ← (here / path.text).pathExists then
        if !(← (here / path.text).isDir) then
          found := found ++ (← fileEntry path.parts)
    return found

/-- Prints what the command leaves behind, and gives its exit code. -/
def run (request : Command.Request) : IO UInt32 := do
  let files ← filesOf (Path.ofText request.workspace)
  let level ← IO.getEnv Config.logLevelVariable
  let transcript := Command.transcript ⟨files, level⟩ request
  IO.print transcript.shown
  for line in transcript.shownLog do
    IO.eprintln line
  match transcript.ending with
  | .broken why => IO.eprintln why.message
  | _ => pure ()
  return transcript.exitCode.toUInt32

end CallTree.CommandLine

/-- **The command line.** -/
def main (args : List String) : IO UInt32 := do
  match CallTree.Command.usageOf args with
  | .request r => CallTree.CommandLine.run r
  | .help =>
    IO.println CallTree.Command.usageText
    return 0
  | .wrong =>
    IO.eprintln CallTree.Command.usageText
    return CallTree.Command.usageExitCode.toUInt32
