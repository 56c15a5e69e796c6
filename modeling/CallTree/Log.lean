/-!
# Log records

What the analysis has to say besides its results. A record has a level, the part
of the analysis that speaks, and a message.
-/

namespace CallTree.Log

/-- How serious a record is. -/
inductive Level where
  | debug
  | info
  | warning
deriving DecidableEq, Repr

/-- How a level is spelled. -/
def Level.spelling : Level → String
  | debug => "DEBUG"
  | info => "INFO"
  | warning => "WARNING"

/-- How much a level weighs, among those that can be asked for. -/
def weight (level : String) : Nat :=
  ["DEBUG", "INFO", "WARNING", "ERROR", "CRITICAL"].idxOf level

/-- Whether records of a level are shown when this much is asked for. -/
def Level.isShownAt (level : Level) (asked : String) : Bool :=
  weight asked ≤ weight level.spelling

/-- The parts of the analysis that speak. -/
inductive Channel where
  | walk
  | dependencies
  | entry
  | reading
  | workspace
  | command
deriving DecidableEq, Repr

/-- The name of a channel. -/
def Channel.name : Channel → String
  | walk => "callchain.graph.walker"
  | dependencies => "callchain.graph.classifier"
  | entry => "callchain.graph.entry"
  | reading => "callchain.parsing.parser"
  | workspace => "callchain.model.python_provider"
  | command => "callchain.cli"

/-- **A log record.** -/
structure Record where
  level : Level
  channel : Channel
  message : String
deriving DecidableEq, Repr

/-- A record in one line. -/
def Record.line (r : Record) : String :=
  r.level.spelling ++ " " ++ r.channel.name ++ ": " ++ r.message

end CallTree.Log
