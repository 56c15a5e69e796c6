import CallTree.Config.Load
import CallTree.Report.Console
import CallTree.Workspace.Session

/-!
# The command

The command takes a workspace, a controller and, if the walk is to begin, an
action. It says what it is about to do, and then either lists the actions of the
controller or prints the tree of calls below the action. Whatever keeps it from
that is its last line.
-/

namespace CallTree.Command

open CallTree.Files (Path Tree)
open CallTree.Workspace (Session)

/-! ## Arguments -/

/-- What is asked of the command. -/
structure Request where
  workspace : String
  controller : String
  action : Option String := none
deriving DecidableEq, Repr

/-- What the arguments of the command amount to. -/
inductive Usage where
  | request (r : Request)
  | help
  | wrong
deriving DecidableEq, Repr

/-- The arguments that are no options, and the options. Two dashes end the options;
a single dash is no option. -/
def sortArguments : List String → List String × List String
  | [] => ([], [])
  | arg :: rest =>
    if arg = "--" then (rest, [])
    else
      let (plain, options) := sortArguments rest
      if Text.startsWith "-" arg && arg ≠ "-" then (plain, arg :: options)
      else (arg :: plain, options)

/-- **What the arguments ask for.** -/
def usageOf (args : List String) : Usage :=
  let (plain, options) := sortArguments args
  if options.any (· ≠ "--help") then .wrong
  else if !options.isEmpty then .help
  else
    match plain with
    | [workspace, controller] => .request ⟨workspace, controller, none⟩
    | [workspace, controller, action] => .request ⟨workspace, controller, some action⟩
    | _ => .wrong

/-! ## Transcripts -/

/-- Something that breaks the command off without a word. -/
inductive Breakdown where
  | config (e : Config.LoadError)
  | load (e : Workspace.LoadError)
  | fault (f : Fault)

/-- What there is to say about a breakdown. -/
def Breakdown.message : Breakdown → String
  | config (.undecodable defect) => defect.message
  | config (.unusable (.unusable message)) => message
  | config _ => "a configuration that cannot be used"
  | load e => e.message
  | fault f => f.message

/-- How the command ends. -/
inductive Ending where
  | done
  /-- What is asked for cannot be had, and the last line says why. -/
  | refused
  | broken (why : Breakdown)

/-- **What the command leaves behind.** -/
structure Transcript where
  lines : List String := []
  log : List Log.Record := []
  /-- The level from which on the log is shown. -/
  logLevel : String := "WARNING"
  ending : Ending := .done

namespace Transcript

variable (t : Transcript)

/-- Some more lines are written. -/
def say (lines : List String) : Transcript := { t with lines := t.lines ++ lines }

/-- Some records are logged. -/
def note (records : List Log.Record) : Transcript := { t with log := t.log ++ records }

/-- A last line is written. -/
def refuse (line : String) : Transcript := { t.say [line] with ending := .refused }

/-- The command is broken off. -/
def breakOff (why : Breakdown) : Transcript := { t with ending := .broken why }

/-- What appears on the console. -/
def shown : String := Report.printed t.lines

/-- The part of the log that is shown. -/
def shownLog : List String :=
  (t.log.filter (·.level.isShownAt t.logLevel)).map (·.line)

/-- The exit code of the command. -/
def exitCode : Nat :=
  match t.ending with
  | .done => 0
  | .refused => 1
  | .broken _ => 1

end Transcript

/-! ## What the command does -/

/-- What the command looks at: the files, and the level of the log in the
environment. -/
structure Surroundings where
  files : Tree := []
  logLevel : Option String := none

/-- The name of what is analysed. -/
def Request.target (r : Request) : String :=
  match r.action with
  | none => r.controller
  | some action => if action.isEmpty then r.controller else r.controller ++ "." ++ action

/-- The configuration that holds for a request. -/
def Request.config (r : Request) (s : Surroundings) : Except Config.LoadError Config :=
  Config.ofFile s.files (Config.find? s.files (Path.ofText r.workspace)) s.logLevel

/-- The command ends because there is no configuration. -/
def Transcript.unconfigured (t : Transcript) (e : Config.LoadError) : Transcript :=
  match e.report? with
  | some (headline, none) => t.refuse ("Error: " ++ headline)
  | some (headline, some more) => t.refuse ("Error: " ++ headline ++ ": " ++ more)
  | none => t.breakOff (.config e)

/-- The lines that list the actions of a controller. -/
def actionLines (controller : TypeSymbol) (candidates : List MethodSymbol) : List String :=
  s!"Available actions in {controller.name}:" :: candidates.map fun m => "  - " ++ m.name

/-- The lines that show the tree of calls of a walk. -/
def treeLines (outcome : Walk.Outcome) : List String :=
  "Call chain:" :: Report.render Report.standardIndent outcome.events ++ ["Analysis complete."]

/-- What is logged after a walk. -/
def summary (outcome : Walk.Outcome) : Log.Record :=
  ⟨.info, .command,
    s!"Expanded {outcome.expanded.length} methods, followed {outcome.edges.length} edges"⟩

/-- **The command from the entry on**: it lists the actions, or walks from the one
that is asked for. -/
def Transcript.enter (t : Transcript) (session : Session) (config : Config) (r : Request) :
    Transcript :=
  let h := config.entry.heuristics
  let types := session.workspace.typeSymbols
  let t := t.note (Entry.choiceLog h types r.controller)
  match session.entry h types r.controller r.action with
  | .ok (.discovery controller candidates) => t.say (actionLines controller candidates)
  | .ok (.action _ method) =>
    let (outcome, _) := session.walk config.noise config.walk (fun _ => false) method
    (t.note (outcome.log ++ [summary outcome])).say (treeLines outcome)
  | .error (.fault f) => t.breakOff (.fault f)
  | .error refusal => t.refuse refusal.message

/-- The command from the opening of the workspace on. -/
def Transcript.load (t : Transcript) (s : Surroundings) (config : Config) (r : Request) :
    Transcript :=
  let loading := Workspace.openPath {} s.files config.excludedDirs (Path.ofText r.workspace)
  let t := t.note loading.log
  match loading.error with
  | none =>
    t.enter { workspace := loading.workspace, excluded := config.excludedDirs } config r
  | some (.notFound path) => t.refuse ("Error: " ++ (Workspace.LoadError.notFound path).message)
  | some e => t.breakOff (.load e)

/-- **What the command leaves behind when it does what is asked.** -/
def transcript (s : Surroundings) (r : Request) : Transcript :=
  let t : Transcript := { lines := [s!"Analyzing call chain for {r.target}..."] }
  match r.config s with
  | .error e => t.unconfigured e
  | .ok config =>
    let t := t.say [s!"Loading workspace: {r.workspace}"]
    { t with logLevel := config.logLevel }.load s config r

/-- The exit code of the command when its arguments are wrong. -/
def usageExitCode : Nat := 2

/-- How the command is used. -/
def usageText : String :=
  "Usage: callchain [--help] WORKSPACE TYPE_NAME [ACTION]\n\n"
    ++ "Print the call chain reachable from a controller action; without an action, list\n"
    ++ "the actions of the controller."

end CallTree.Command
