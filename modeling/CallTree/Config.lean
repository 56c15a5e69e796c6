import CallTree.Entry
import CallTree.Noise
import CallTree.Text.Case
import CallTree.Walk.Options

/-!
# Configuration

Everything that can be set, with the values that hold when nothing is said. A
configuration is read from a record section by section; every section and every
setting may be left out, and what is not a setting is passed over.
-/

namespace CallTree

open CallTree.Data

/-- How controllers and actions are recognised. -/
structure EntryConfig where
  controllerMarker : String := Entry.customarySuffix
  markers : Entry.Markers := {}
deriving DecidableEq, Repr, Inhabited

/-- The heuristics that a configuration asks for. -/
def EntryConfig.heuristics (c : EntryConfig) : Entry.Heuristics :=
  .customary c.controllerMarker c.markers

/-- **A configuration.** -/
structure Config where
  noise : Noise := {}
  entry : EntryConfig := {}
  walk : Walk.Options := {}
  /-- Names of directories that are not looked into. -/
  excludedDirs : List String := []
  logLevel : String := "WARNING"
deriving DecidableEq, Repr, Inhabited

namespace Config

/-- The levels that can be logged at. -/
def logLevels : List String := ["DEBUG", "INFO", "WARNING", "ERROR", "CRITICAL"]

/-- What is said of a level that does not exist. -/
def unknownLevel : String :=
  "Value error, log_level must be one of " ++ ", ".intercalate logLevels

/-- A level, in any case. -/
def asLogLevel (v : Value) : Checked String := do
  let level := Text.upper (← asText v)
  if logLevels.contains level then return level else .refuse (.custom unknownLevel)

/-- A section of settings, which is a record. -/
def asSection {α : Type} (read : Value → Checked α) : Value → Checked α
  | .map entries => read (.map entries)
  | _ => .refuse .notRecord

/-- The section on noise. -/
def readNoise (r : Value) : Checked Noise :=
  let default : Noise := {}
  .ap (.ap (.ap (.ok fun roots standard methods => Noise.mk roots methods standard)
    (.optional (asTexts .notList) default.frameworkRoots "framework_roots" r))
    (.optional asBool default.includeStandard "include_stdlib" r))
    (.optional (asTexts .notList) default.skippedMethods "skip_methods" r)

/-- The section on entry points. -/
def readEntry (r : Value) : Checked EntryConfig :=
  let default : EntryConfig := {}
  .ap (.ap (.ap (.ap (.ok fun marker routes verbs returns => ⟨marker, ⟨routes, verbs, returns⟩⟩)
    (.optional asText default.controllerMarker "controller_marker" r))
    (.optional (asTexts .notList) default.markers.routes "route_markers" r))
    (.optional (asTexts .notList) default.markers.verbs "verb_markers" r))
    (.optional (asTexts .notList) default.markers.returns "action_return_markers" r)

/-- The section on the workspace. -/
def readWorkspace (r : Value) : Checked (List String) :=
  .optional (asTexts .notList) [] "exclude_dirs" r

/-- **A configuration from a record.** -/
def ofRecord (r : Value) : Checked Config :=
  .ap (.ap (.ap (.ap (.ap (.ok Config.mk)
    (.optional (asSection readNoise) {} "noise" r))
    (.optional (asSection readEntry) {} "entry" r))
    (.optional (asSection Walk.Options.ofRecord) {} "walker" r))
    (.optional (asSection readWorkspace) [] "workspace" r))
    (.optional asLogLevel "WARNING" "log_level" r)

/-- **A configuration as a record.** -/
def record (c : Config) : Value :=
  .record [
    ("noise", .record [("framework_roots", .texts c.noise.frameworkRoots),
      ("include_stdlib", .bool c.noise.includeStandard),
      ("skip_methods", .texts c.noise.skippedMethods)]),
    ("entry", .record [("controller_marker", .text c.entry.controllerMarker),
      ("route_markers", .texts c.entry.markers.routes),
      ("verb_markers", .texts c.entry.markers.verbs),
      ("action_return_markers", .texts c.entry.markers.returns)]),
    ("walker", c.walk.record),
    ("workspace", .record [("exclude_dirs", .texts c.excludedDirs)]),
    ("log_level", .text c.logLevel)]

end Config

end CallTree
