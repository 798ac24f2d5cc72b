/-!
The log of a run: what it does, for whoever follows it, and what it finds odd on the way.
-/

namespace ExtensionAudit

/-- The weight of a log line. -/
inductive LogLevel where
  | debug
  | warning
  deriving DecidableEq, Repr

def LogLevel.name : LogLevel → String
  | .debug => "DEBUG"
  | .warning => "WARNING"

/-- One entry of the log. -/
structure LogLine where
  level : LogLevel
  text : String
  deriving DecidableEq, Repr

/-- The log of a run, in the order of its entries. -/
abbrev Log := Array LogLine

def Log.warnings (log : Log) : List String :=
  log.toList.filterMap fun line => if line.level == .warning then some line.text else none

end ExtensionAudit
