/-
A controller on a vendor's driver, worked step by step.
-/
import SharedAdc.Controller.Command
import SharedAdc.Frame.Consumer
import SharedAdc.Vendor.Backend

namespace SharedAdc.Vendor

open SharedAdc.Controller

/-! ## The rig -/

/-- A controller on a vendor's driver, with what its callers left behind since the last row. -/
structure Rig where
  config : Config
  backend : Backend := {}
  shared : State Consumer := {}
  spare : FrameSlot Consumer := {}
  feed : Feed := {}
  log : Array LogEntry := #[]

namespace Rig

/-- Reads and writes the state that the callers share. -/
def share {α : Type} (f : State Consumer → α × State Consumer) : StateM Rig α :=
  modifyGet fun r => let (a, shared) := f r.shared; (a, { r with shared })

/-- Logs an entry. -/
def say (entry : LogEntry) : StateM Rig Unit := modify fun r => { r with log := r.log.push entry }

/-- Works on the backend, and logs what it logs. -/
def onBackend {α : Type} (f : Backend → α × List LogEntry × Backend) : StateM Rig α :=
  modifyGet fun r =>
    let (a, entries, backend) := f r.backend
    (a, { r with backend, log := r.log ++ entries.toArray })

/-- Makes a call to the driver. -/
def hardware (call : Call) : StateM Rig call.Reply := onBackend fun b => b.perform call

/-- Answers the questions of an operation. -/
def answer : (q : Question Handle Consumer) → StateM Rig (Answer q) :=
  Controller.answer share hardware fun notice => say notice.entry

/-- Hands a frame to a slot. -/
def handOver (slot : SlotName) (frame : Frame) : StateM Rig Bool :=
  modifyGet fun r =>
    match slot with
    | .controller =>
      let (verdict, slot, feed) := r.shared.slot.handOver frame r.feed
      (verdict.makesWay, { r with feed, shared := { r.shared with slot } })
    | .spare _ =>
      let (verdict, spare, feed) := r.spare.handOver frame r.feed
      (verdict.makesWay, { r with feed, spare })

/-- Lets the driver complete a frame: the registered handler, if there is one, hands it on. -/
def complete (frame : Frame) : StateM Rig (Option Bool) := do
  match (← get).backend.driver.registered with
  | none => return none
  | some slot => return some (← handOver slot frame)

/-- Changes the script of the driver. -/
def onDriver (f : Driver → Driver) : StateM Rig Unit :=
  modify fun r => { r with backend := { r.backend with driver := f r.backend.driver } }

/-- A driver with its peripherals taken, and a controller on it. -/
def new (config : Config) (driver : Driver) : Rig where
  config := config
  backend := { driver := (driver.call .takePeripherals []).2 }
  log := #[Backend.readyEntry, (Notice.initialized config.width).entry]

/-- Takes the log since it was last taken. -/
def takeLog : StateM Rig (Array LogEntry) := modifyGet fun r => (r.log, { r with log := #[] })

end Rig

/-! ## Steps -/

/-- What is missing when the handler of completed frames is called. -/
inductive Missing where
  | event
  | slot

/-- A step at the rig. -/
inductive Step where
  | command (command : Command Consumer)
  /-- A call to the hardware by hand. -/
  | byHand (call : Call)
  /-- Registers the spare slot by hand. -/
  | registerSpare
  | script (entries : List ScriptEntry)
  | clearScript
  | raws (values : List Int32)
  | voltages (values : List Int32)
  /-- The driver completes a frame. A handler that lacks the event or the slot does nothing. -/
  | deliver (frame : Frame) (missing : Option Missing)
  /-- A frame comes straight to the controller's slot. -/
  | deliverToSlot (frame : Frame)
  | takeAverage (channel : Channel)
  | look

/-- What a step answers. -/
inductive Reply where
  | result (result : Result)
  | response (response : HardwareCall.Response)
  | done
  /-- The answer of a delivery, if there was a handler to deliver to. -/
  | delivered (answer : Option Bool)
  | average (raw : Option UInt16)

/-- Runs a step. -/
def Step.perform : Step → StateM Rig Reply
  | .command c => do
    let operation := c.operation (← get).config
    return .result (← operation.run Rig.answer)
  | .byHand call => return .response (call.respond (← Rig.hardware call))
  | .registerSpare =>
    return .response (.status (← Rig.onBackend fun b => b.registerSlot (.spare 0)))
  | .script entries => do
    Rig.onDriver fun d => { d with script := d.script ++ entries }
    return .done
  | .clearScript => do
    Rig.onDriver fun d => { d with script := [] }
    return .done
  | .raws values => do
    Rig.onDriver fun d => { d with raws := d.raws ++ values }
    return .done
  | .voltages values => do
    Rig.onDriver fun d => { d with voltages := d.voltages ++ values }
    return .done
  | .deliver frame none => return .delivered (← Rig.complete frame)
  | .deliver _ (some _) => do
    return .delivered ((← get).backend.driver.registered.map fun _ => false)
  | .deliverToSlot frame => return .delivered (some (← Rig.handOver .controller frame))
  | .takeAverage channel =>
    modifyGet fun r =>
      let (average, tallies) := r.feed.tallies.take channel
      (.average average, { r with feed := { r.feed with tallies } })
  | .look => return .done

/-- What a step answered and left behind. -/
structure Row where
  reply : Reply
  after : State Consumer
  spareDropped : UInt32
  log : Array LogEntry
  calls : List (Nat × TraceEntry)
  events : Array FrameEvent

/-- Runs a step and collects its row. -/
def row (step : Step) : StateM Rig Row := do
  let before := (← get).backend.driver.trace.size
  let reply ← step.perform
  let log ← Rig.takeLog
  modifyGet fun r =>
    let trace := r.backend.driver.trace
    ({ reply, log
       after := r.shared
       spareDropped := r.spare.dropped
       calls := runs (trace.extract before trace.size).toList
       events := r.feed.events },
      { r with feed := { r.feed with events := #[] } })

/-- Works through a list of steps on a new rig: the log of its construction, and a row for each
step. -/
def work (config : Config) (driver : Driver) (steps : List Step) : Array LogEntry × List Row :=
  let session : StateM Rig (Array LogEntry × List Row) := do
    let log ← Rig.takeLog
    return (log, ← steps.mapM row)
  (session.run (.new config driver)).1

end SharedAdc.Vendor
