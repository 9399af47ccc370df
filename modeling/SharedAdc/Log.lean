/-
Entries of the log: a level and a message, and the levels in the order of their weight.
-/

namespace SharedAdc

/-- Weight of a log entry. -/
inductive LogLevel where
  | error
  | warn
  | info
  | debug
  | trace
  deriving DecidableEq

namespace LogLevel

/-- How far a level is from the gravest one. -/
def detail : LogLevel → Nat
  | .error => 1
  | .warn => 2
  | .info => 3
  | .debug => 4
  | .trace => 5

/-- The levels, the gravest first. -/
def all : List LogLevel := [.error, .warn, .info, .debug, .trace]

/-- The name of the level. -/
def name : LogLevel → String
  | .error => "ERROR"
  | .warn => "WARN"
  | .info => "INFO"
  | .debug => "DEBUG"
  | .trace => "TRACE"

end LogLevel

/-- One entry of the log. -/
structure LogEntry where
  level : LogLevel
  message : String
  deriving DecidableEq

/-- The most detailed level that a log takes, if it takes any. -/
abbrev LogFilter := Option LogLevel

namespace LogFilter

/-- Whether entries of `level` pass the filter. -/
def enables (filter : LogFilter) (level : LogLevel) : Bool :=
  match filter with
  | none => false
  | some most => level.detail ≤ most.detail

end LogFilter

end SharedAdc
