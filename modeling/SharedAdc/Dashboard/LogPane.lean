/-
The log of the dashboard. Records that pass the filter wait until they are collected; the pane
shows the latest hundred of those collected.
-/
import SharedAdc.Log

namespace SharedAdc.Dashboard

/-! ## How levels look -/

/-- The colors of the screen that levels are drawn in. -/
inductive Color where
  | red
  | yellow
  | cyan
  | gray
  | darkGray
  deriving DecidableEq

def Color.name : Color → String
  | .red => "Red"
  | .yellow => "Yellow"
  | .cyan => "Cyan"
  | .gray => "Gray"
  | .darkGray => "DarkGray"

/-- The color of a level. -/
def levelColor : LogLevel → Color
  | .error => .red
  | .warn => .yellow
  | .info => .cyan
  | .debug => .gray
  | .trace => .darkGray

/-- The tag of a level, filled up to one width. -/
def levelTag : LogLevel → String
  | .error => "[ERROR]"
  | .warn => "[WARN] "
  | .info => "[INFO] "
  | .debug => "[DEBUG]"
  | .trace => "[TRACE]"

/-! ## The pane -/

/-- The log pane: what it lets through, what waits and what it shows, the oldest first. -/
structure LogPane where
  filter : LogFilter
  waiting : List LogEntry := []
  shown : List LogEntry := []

namespace LogPane

/-- The most entries that the pane keeps. -/
def capacity : Nat := 100

/-- Takes a record in, if its level passes the filter. -/
def record (p : LogPane) (entry : LogEntry) : LogPane :=
  if p.filter.enables entry.level then { p with waiting := p.waiting ++ [entry] } else p

/-- Puts an entry at the end, and drops the oldest one if there are too many. -/
def push (shown : List LogEntry) (entry : LogEntry) : List LogEntry :=
  let longer := shown ++ [entry]
  if capacity < longer.length then longer.tail else longer

/-- Puts every waiting entry into the pane. -/
def collect (p : LogPane) : LogPane :=
  { p with waiting := [], shown := p.waiting.foldl push p.shown }

end LogPane

end SharedAdc.Dashboard
