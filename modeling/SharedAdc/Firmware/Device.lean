/-
The device in time. Its delays are where frames arrive and where the two tasks take turns: the
main task runs until it waits, and the battery monitor runs at the times that fall into the wait.
-/
import SharedAdc.Firmware.Routine
import SharedAdc.Vendor.Rig

namespace SharedAdc.Firmware

open SharedAdc.Vendor (Rig Handle)

/-! ## Delays -/

/-- A frame that arrives in the delay with number `at`, counted from 1, or in every delay if the
number is zero. -/
structure ScheduledFrame where
  delay : Nat
  frame : Frame

/-- The device with what happens in its delays. -/
structure Device where
  rig : Rig
  frames : List ScheduledFrame := []
  /-- The delays that the main task may still begin; zero is no limit. -/
  maxDelays : Nat := 0
  /-- The delays begun so far. -/
  delays : Nat := 0
  /-- The clock in milliseconds. -/
  now : Nat := 0
  /-- The next time at which the battery monitor runs. -/
  batteryWake : Nat := batteryPeriod

/-- An action on the device, which ends early when the device is stopped. -/
abbrev Action := ExceptT Unit (StateM Device)

namespace Device

/-- Ends everything. -/
def stop {α : Type} : Action α := throw ()

/-- Runs an action of the rig. -/
def onRig {α : Type} (action : StateM Rig α) : Action α :=
  modifyGet fun d => let (a, rig) := action.run d.rig; (a, { d with rig })

/-- Notes something in the trace. -/
def mark (name : String) (args : List Int) : Action Unit :=
  onRig (Rig.onDriver fun d => d.mark ⟨name, args⟩)

/-- Begins a delay of the main task: it is noted, and unless it is one too many, its frames
arrive. -/
def beginDelay (ms : Nat) : Action Unit := do
  mark "delay_ms" [ms]
  modify fun d => { d with delays := d.delays + 1 }
  let d ← get
  if d.maxDelays ≠ 0 ∧ d.maxDelays < d.delays then stop
  else
    let due := d.frames.filter fun f => f.delay = d.delays ∨ f.delay = 0
    due.forM fun f => do
      let _ ← onRig (Rig.complete f.frame)

/-- Answers the questions of a routine, with `delay` for its delays. -/
def answer (delay : Nat → Action Unit) : (q : Question Handle) → Action (Answer q)
  | .controller q => onRig (Rig.answer q)
  | .delay ms => delay ms
  | .takeAverage channel =>
    onRig <| modifyGet fun r =>
      let (average, averages) := r.feed.averages.take channel
      (average, { r with feed := { r.feed with averages } })
  | .resetAverages => onRig <| modify fun r => { r with feed := { r.feed with averages := .empty } }
  | .say entry => onRig (Rig.say entry)

/-! ## Two tasks on one clock -/

/-- Lets the battery monitor run at each of its times before `wake` and up to `limit`. -/
def runBattery (config : Config) (wake limit : Nat) : (rounds : Nat) → Action Unit
  | 0 => return ()
  | n + 1 => do
    let time := (← get).batteryWake
    if time < wake ∧ time ≤ limit then
      modify fun d => { d with now := time, batteryWake := time + batteryPeriod }
      mark "battery wakes" [time]
      (batteryRound config).run (answer fun _ => pure ())
      runBattery config wake limit n

/-- A delay of the main task on the clock; the device stops when the clock has passed `limit`. -/
def delayOnClock (config : Config) (limit ms : Nat) : Action Unit := do
  beginDelay ms
  let wake := (← get).now + ms
  runBattery config wake limit (ms / batteryPeriod + 1)
  modify fun d => { d with now := wake }
  if limit < wake then stop

end Device

/-! ## Parts of the firmware -/

/-- A part that can be run by itself. -/
inductive Part where
  | stream
  | loudness
  | battery

/-- How a part ends. -/
inductive Ending where
  | done (result : Except AdcError Unit)
  | stopped

/-- The ending of an action, and the device as it is then. -/
def Action.finish (action : Action (Except AdcError Unit)) (d : Device) : Ending × Device :=
  match action.run.run d with
  | (.ok result, d) => (.done result, d)
  | (.error (), d) => (.stopped, d)

/-- Runs a part on a device. -/
def Part.run (part : Part) (d : Device) : Ending × Device :=
  let config := d.rig.config
  let answer := Device.answer Device.beginDelay
  Action.finish (match part with
    | .stream => (recovering (streamCycle config)).run answer
    | .loudness => (recovering (loudnessCycle config)).run answer
    | .battery => do
      (batteryMonitor config (d.maxDelays + 1)).run answer
      return .ok ()) d

/-- What came of a part, and of the steps before it. -/
structure PartReport where
  before : List Vendor.Reply
  ending : Ending
  rig : Rig

/-- Runs a part on a new device, after some steps on its controller. -/
def runPart (part : Part) (driver : Vendor.Driver) (before : List Vendor.Step)
    (frames : List ScheduledFrame) (maxDelays : Nat) : PartReport :=
  let (replies, rig) := (before.mapM Vendor.Step.perform).run (.new {} driver)
  let (ending, d) := part.run { rig, frames, maxDelays }
  { before := replies, ending, rig := d.rig }

/-! ## The whole firmware -/

/-- How the firmware ends, with its log and its trace. -/
structure MainReport where
  /-- The status of the peripherals, if they could not be taken. -/
  failure : Option Int32
  log : Array LogEntry
  trace : Array Vendor.TraceEntry

/-- A bound on the turns of the main loop: a turn without a delay uses up an entry of the script,
and every other turn takes at least ten milliseconds. -/
def turnBound (driver : Vendor.Driver) (limit : Nat) : Nat := limit / 10 + driver.script.length + 2

/-- Runs the firmware until the clock has passed `limit`. -/
def runMain (driver : Vendor.Driver) (frames : List ScheduledFrame) (maxDelays limit : Nat) :
    MainReport :=
  let starting : LogEntry := ⟨.info, "adcctl ESP32 starting..."⟩
  match driver.call .takePeripherals [] with
  | (.error code, driver) => { failure := some code, log := #[starting], trace := driver.trace }
  | (.ok (), _) =>
    let rig := Rig.new {} driver
    let cycling : LogEntry := ⟨.info, "Starting sampling cycle..."⟩
    let rig := { rig with log := #[starting] ++ rig.log ++ #[cycling] }
    let answer := Device.answer (Device.delayOnClock rig.config limit)
    let loop : Action (Except AdcError Unit) := do
      (mainLoop rig.config (turnBound driver limit)).run answer
      return .ok ()
    let (_, d) := loop.finish { rig, frames, maxDelays }
    { failure := none, log := d.rig.log, trace := d.rig.backend.driver.trace }

end SharedAdc.Firmware
