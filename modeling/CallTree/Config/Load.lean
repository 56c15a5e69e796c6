import CallTree.Config
import CallTree.Files.Tree
import CallTree.Text.Utf8
import CallTree.Yaml.Reader

/-!
# Reading a configuration

A configuration is a file beside the code that it is for. A workspace that is a
single file has its configuration in the folder around it. Where there is no file
the usual settings hold, and an empty file changes none of them. The environment
may set the level of the log, and has the last word on it.
-/

namespace CallTree.Config

open CallTree.Data (Value Complaint Step)
open CallTree.Files (Path Tree Unreadable)

/-! ## Finding the file -/

/-- The names of configuration files, the preferred one first. -/
def fileNames : List String := ["callchain.yaml", ".callchain.yaml"]

/-- **The configuration file of a workspace**, if it has one. -/
def find? (tree : Tree) (workspace : Path) : Option Path :=
  let folder := if tree.isFolder workspace then workspace else workspace.parent
  (fileNames.map folder.join).find? tree.isFile

/-! ## Failures -/

/-- The variable of the environment that sets the level of the log. -/
def logLevelVariable : String := "CALLCHAIN_LOG_LEVEL"

/-- Why there is no configuration. -/
inductive LoadError where
  | unreadable (path : Path) (why : Unreadable)
  | malformed (path : Path) (why : String)
  /-- The file holds something else than settings under names. -/
  | noMapping (path : Path)
  /-- Settings from a file, or from the environment if there is no file, are refused. -/
  | invalid (path : Option Path) (complaints : List Complaint)
  | undecodable (defect : Text.Utf8.Defect)
  /-- Something is met that was not reckoned with. -/
  | unusable (problem : Yaml.Problem)
  /-- A setting is not under a name. -/
  | unnamed

/-- Where a complaint is, as a dotted name. -/
def placeOf (c : Complaint) : String :=
  Text.dotted (c.path.map fun
    | .field name => name
    | .item index => toString index)

/-- What is said of settings that are refused. -/
def complaintsMessage (complaints : List Complaint) : String :=
  let n := complaints.length
  let headline := s!"{n} validation error" ++ (if n = 1 then "" else "s") ++ " for AnalyzerConfig"
  "\n".intercalate (headline :: complaints.map fun c => placeOf c ++ ": " ++ c.flaw.code)

/-- What the settings were read from. -/
def originOf : Option Path → String
  | some path => path.text
  | none => logLevelVariable

/-- **What is reported of a failure**: a headline, and what there is to say in
addition. A failure that is not reported breaks the analysis off. -/
def LoadError.report? : LoadError → Option (String × Option String)
  | unreadable path why => some (s!"Cannot read config {path.text}", some (why.message path))
  | malformed path why => some (s!"Cannot read config {path.text}", some why)
  | noMapping path =>
    some (s!"Invalid config {path.text}: expected a mapping at the top level", none)
  | invalid path complaints =>
    some (s!"Invalid config {originOf path}", some (complaintsMessage complaints))
  | undecodable _ => none
  | unusable _ => none
  | unnamed => none

/-! ## Reading the file -/

/-- The failure that a problem with a document is. -/
def LoadError.ofProblem (path : Path) : Yaml.Problem → LoadError
  | .malformed why => .malformed path why
  | problem => .unusable problem

/-- The bytes of a file. A name with the character zero in it is no name of a file, nor
of anything else. -/
def bytesAt (tree : Tree) (path : Path) : Except LoadError (List UInt8) :=
  if path.text.toList.contains (Char.ofNat 0) then
    .error (.unusable (.unusable "embedded null byte"))
  else ((tree.read path).map (·.toList)).mapError (.unreadable path)

/-- The value that the bytes of a file stand for. -/
def valueIn (reader : Yaml.Reader) (path : Path) (bytes : List UInt8) : Except LoadError Value :=
  match Text.Utf8.decode bytes with
  | .ok text => (reader.value (Text.withPlainBreaks text.toList)).mapError (.ofProblem path)
  | .error defect =>
    match reader.early? bytes with
    | none => .error (.undecodable defect)
    | some problem => .error (.ofProblem path problem)

/-- The settings that a value is: those of a mapping, and none if it counts as nothing. -/
def settingsOf (path : Path) (value : Value) : Except LoadError (List (Value × Value)) :=
  if value.isVoid then .ok []
  else
    match value with
    | .map entries => .ok entries
    | _ => .error (.noMapping path)

/-- The settings in a file, if one is given. -/
def settingsIn (reader : Yaml.Reader) (tree : Tree) :
    Option Path → Except LoadError (List (Value × Value))
  | none => .ok []
  | some path => do settingsOf path (← valueIn reader path (← bytesAt tree path))

/-- Whether a setting is under a name. -/
def isNamed : Value × Value → Bool
  | (.text _, _) => true
  | _ => false

/-- The settings with the level of the log that the environment gives, unless it is
empty. -/
def withLogLevel (level : Option String) (settings : List (Value × Value)) :
    List (Value × Value) :=
  match level with
  | none => settings
  | some l => if l.isEmpty then settings else settings ++ [(.text "log_level", .text l)]

/-- The configuration that settings make up, with the level of the log that the
environment gives. -/
def ofSettings (path : Option Path) (level : Option String) (settings : List (Value × Value)) :
    Except LoadError Config :=
  let settings := withLogLevel level settings
  if settings.all isNamed then (Config.ofRecord (.map settings)).mapError (.invalid path)
  else .error .unnamed

/-- **The configuration in a file**, if one is given, as a reader of documents makes it
out. -/
def ofFileBy (reader : Yaml.Reader) (tree : Tree) (path : Option Path) (level : Option String) :
    Except LoadError Config := do
  ofSettings path level (← settingsIn reader tree path)

/-- **The configuration in a file**, if one is given. -/
def ofFile : Tree → Option Path → Option String → Except LoadError Config :=
  ofFileBy Yaml.standardReader

end CallTree.Config
