/-
A controller on a simulated unit. How many frames a stream delivers between two steps depends on
the pace of the clock, so a frame is made only when a step waits for one, and the notice of a
stopped stream leaves the number of its frames open.
-/
import SharedAdc.Controller.Command
import SharedAdc.Frame.Consumer
import SharedAdc.Simulator.Basic

namespace SharedAdc.Simulator

open SharedAdc.Controller

/-! ## The rig -/

/-- A controller on a simulated unit. -/
structure Rig where
  config : Config
  sim : Simulator
  shared : State Consumer := {}
  feed : Feed := {}
  log : Array LogEntry := #[]

namespace Rig

/-- A new controller on a new unit. -/
def new (config : Config) (settings : Settings) : Rig where
  config := config
  sim := .ofSettings settings
  log := #[readyEntry settings, (Notice.initialized config.width).entry]

/-- Reads and writes the state that the callers share. -/
def share {α : Type} (f : State Consumer → α × State Consumer) : StateM Rig α :=
  modifyGet fun r => let (a, shared) := f r.shared; (a, { r with shared })

/-- Logs an entry. -/
def say (entry : LogEntry) : StateM Rig Unit := modify fun r => { r with log := r.log.push entry }

/-- Logs a notice, with the number of frames left open. -/
def note (notice : Notice) : StateM Rig Unit := say notice.withoutCounts.entry

/-- Reads and writes the simulated unit. -/
def onUnit {α : Type} (f : Simulator → α × List LogEntry × Simulator) : StateM Rig α :=
  modifyGet fun r =>
    let (a, entries, sim) := f r.sim
    (a, { r with sim, log := r.log ++ entries.toArray })

/-- Makes a call to the simulated unit. -/
def hardware (call : Call) : StateM Rig call.Reply := onUnit fun sim => sim.perform call

/-- Answers the questions of an operation. -/
def answer : (q : Question Range Consumer) → StateM Rig (Answer q) :=
  Controller.answer share hardware note

/-- Runs a command. -/
def command (c : Command Consumer) : StateM Rig Result := do
  ((← get).config |> c.operation).run answer

/-- Lets the stream deliver one more frame. -/
def deliverNext : StateM Rig Unit :=
  modify fun r =>
    match r.sim.nextFrame with
    | none => r
    | some (.spare _, _, sim) => { r with sim }
    | some (.controller, frame, sim) =>
      let (verdict, slot, feed) := r.shared.slot.handOver frame r.feed
      let sim := match verdict with
        | .broken => sim.breakProducer
        | .returned _ => sim
      { r with sim, feed, shared := { r.shared with slot } }

/-- Lets the stream deliver `n` more frames. -/
def deliverFrames : Nat → StateM Rig Unit
  | 0 => return ()
  | n + 1 => do
    deliverNext
    deliverFrames n

/-- Waits for `n` more frames, and answers those that a consumer kept. -/
def awaitFrames (n : Nat) : StateM Rig (List Frame) := do
  modify fun r => { r with feed := { r.feed with captured := #[] } }
  deliverFrames n
  return (← get).feed.captured.toList

/-- Whether frames reach an installed callback. -/
def isDelivering (r : Rig) : Bool := r.sim.isStreaming && r.shared.slot.isArmed

/-- Takes the log since it was last taken. -/
def takeLog : StateM Rig (Array LogEntry) := modifyGet fun r => (r.log, { r with log := #[] })

end Rig

/-! ## Steps -/

/-- A step at the rig. -/
inductive Step where
  | command (command : Command Consumer)
  /-- A command after which `frames` frames are waited for, if it started a stream. -/
  | stream (command : Command Consumer) (frames : Nat)
  | setInput (channel : Channel) (mv : UInt32)
  | inputs
  | injectFault
  | look
  /-- Waits for one frame, if frames reach a callback. -/
  | nextFrame
  /-- A call to the hardware by hand. -/
  | byHand (call : Call)
  /-- Registers the spare slot by hand. -/
  | registerSpare

/-- What a step answers. -/
inductive Reply where
  | result (result : Result)
  | streamed (result : Result) (frames : List Frame)
  | done
  | inputs (mv : List UInt32)
  | frames (frames : Option (List Frame))
  | response (response : HardwareCall.Response)

/-- Runs a step. -/
def Step.perform : Step → StateM Rig Reply
  | .command c => return .result (← Rig.command c)
  | .stream c frames => do
    let before := (← get).sim.isStreaming
    let result ← Rig.command c
    if (← get).sim.isStreaming && !before then
      return .streamed result (← Rig.awaitFrames frames)
    else return .result result
  | .setInput channel mv => do
    modify fun r => { r with sim := r.sim.setInput channel mv }
    return .done
  | .inputs => return .inputs (← get).sim.inputs.toList
  | .injectFault => do
    modify fun r => { r with sim := r.sim.injectFault }
    return .done
  | .look => return .done
  | .nextFrame => do
    if (← get).isDelivering then return .frames (some (← Rig.awaitFrames 1))
    else return .frames none
  | .byHand call => return .response (call.respond (← Rig.hardware call))
  | .registerSpare => return .response (.status (← Rig.onUnit Simulator.registerSpare))

/-- What a step answered and left behind. -/
structure Row where
  reply : Reply
  after : State Consumer
  streaming : Bool
  log : Array LogEntry

/-- Runs a step and collects its row. -/
def row (step : Step) : StateM Rig Row := do
  let reply ← step.perform
  let log ← Rig.takeLog
  let r ← get
  return { reply, log, after := r.shared, streaming := r.sim.isStreaming }

/-- Works through a list of steps on a new rig: the log of its construction, and a row for each
step. -/
def work (config : Config) (settings : Settings) (steps : List Step) :
    Array LogEntry × List Row :=
  let session : StateM Rig (Array LogEntry × List Row) := do
    let log ← Rig.takeLog
    return (log, ← steps.mapM row)
  (session.run (.new config settings)).1

end SharedAdc.Simulator
