/-
The screen of the dashboard: four bordered blocks one above the other, each as wide as the
screen. Text that is too long for a block is cut at the right.
-/
import SharedAdc.Dashboard.Basic
import SharedAdc.Dashboard.LogPane
import SharedAdc.Text.Padding

namespace SharedAdc.Dashboard

/-! ## Rows -/

/-- A row of exactly `width` characters: cut at the right, or filled up with `fill`. -/
def fitRow (width : Nat) (fill : Char) (row : List Char) : List Char :=
  row.take width ++ List.replicate (width - row.length) fill

/-- The inner rows with a border around them, and the title in its upper edge. -/
def block (width : Nat) (title : String) (rows : List (List Char)) : List (List Char) :=
  let inner := width - 2
  let top := ['┌'] ++ fitRow inner '─' title.toList ++ ['┐']
  let bottom := ['└'] ++ List.replicate inner '─' ++ ['┘']
  [top] ++ rows.map (fun row => ['│'] ++ fitRow inner ' ' row ++ ['│']) ++ [bottom]

/-! ## Status -/

/-- The session as the status row shows it. -/
def sessionText (r : Reservation) : String :=
  match r.session with
  | .idle => "idle"
  | .reserved => "reserved " ++ r.active.text
  | .oneShot => "one-shot " ++ r.active.text
  | .timeCritical channel => "time-critical " ++ channel.text
  | .continuous => "continuous " ++ r.active.text

/-- The status row up to the number of frames, which is left blank: it hangs on the pace of the
clock. -/
def statusText (d : Dashboard) (r : Reservation) : String :=
  "Session: " ++ sessionText r ++ " | Attenuation: " ++ d.attenuation.text ++ " | Stream mask: "
    ++ d.streamMask.text ++ " | Frames:"

/-! ## Channels -/

/-- A reading with its unit; the number is set to the right in four columns. -/
def readingText (value : Option UInt16) (unit : String) : String :=
  match value with
  | some v => Text.padLeft 4 ' ' (toString v) ++ " " ++ unit
  | none => "   -"

/-- The label of a channel. -/
def channelLabel (d : Dashboard) (channel : Channel) (input : UInt32) : String :=
  let readout := d.readouts.get channel.index
  (if d.streamMask.contains channel then "*" else " ") ++ channel.text
    ++ " in " ++ Text.padLeft 4 ' ' (toString input)
    ++ " mV | one-shot " ++ readingText readout.oneShot "mV"
    ++ " | stream " ++ readingText readout.stream "mV"
    ++ " | tc " ++ readingText readout.timeCritical "raw"

/-- The number of filled cells of a gauge: the share of the input in the highest voltage,
rounded to the nearest cell. -/
def filledCells (width : Nat) (input : UInt32) : Nat :=
  let ratio := min (Float.ofNat input.toNat / Float.ofNat maxInput.toNat) 1.0
  (Float.ofNat width * ratio).round.toUInt64.toNat

/-- A gauge with its label in the middle. The cell after the label stays blank. -/
def gauge (width : Nat) (label : String) (input : UInt32) : List Char :=
  let label := label.toList.take width
  let start := (width - label.length) / 2
  let filled := filledCells width input
  (List.range width).map fun x =>
    match if x < start then none else label[x - start]? with
    | some c => c
    | none => if x < filled ∧ x ≠ start + label.length then '█' else ' '

/-! ## Logs and help -/

/-- The row of a log entry. -/
def logRow (entry : LogEntry) : List Char := (levelTag entry.level ++ " " ++ entry.message).toList

/-- The last `n` entries of a list. -/
def latest {α : Type} (n : Nat) (entries : List α) : List α := entries.drop (entries.length - n)

/-- The keys and what they do. -/
def helpText : String :=
  "↑/↓: Channel | ←/→: Input | Space: Stream mask | A: Atten | S: One-shot | C: Stream | "
    ++ "T: Time-critical | F: Fault | R: Reinit | Q: Quit"

/-! ## The screen -/

/-- What is drawn: the rows, the channel drawn as selected, and the colors of the log rows. -/
structure Screen where
  rows : List String
  marked : Channel
  logColors : List Color

/-- Draws the dashboard on a screen of at least 24 rows. -/
def draw (d : Dashboard) (width height : Nat) (r : Reservation) (input : Channel → UInt32)
    (log : List LogEntry) : Screen :=
  let logHeight := height - 20
  let entries := latest logHeight log
  let gauges := Channel.all.map fun c =>
    gauge (width - 2) (d.channelLabel c (input c)) (input c)
  let logRows := entries.map logRow ++ List.replicate (logHeight - entries.length) []
  let rows := block width "ADC1" [(d.statusText r).toList]
    ++ block width "Channel inputs (adjust with ←/→ or +/-)" gauges
    ++ block width "Logs (scrolls automatically)" logRows
    ++ block width "Help" [helpText.toList]
  { rows := rows.map String.ofList
    marked := d.selected
    logColors := entries.map fun e => levelColor e.level }

end SharedAdc.Dashboard
