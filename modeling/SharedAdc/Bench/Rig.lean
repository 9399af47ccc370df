/-
A controller on recording hardware, worked step by step. A step can arrange an interruption: when
a certain call reaches the hardware, further steps run from inside that call, as other callers or
the delivery of a frame would, and the call may then be made to fail.
-/
import SharedAdc.Bench.Recorder
import SharedAdc.Controller.Command
import SharedAdc.Frame.Consumer

namespace SharedAdc.Bench

open SharedAdc.Controller

/-! ## Steps -/

/-- A step at the rig. -/
inductive Step where
  | command (command : Command Consumer)
  | failOn (ops : List HardwareOp)
  | failOnCodes (codes : List UInt16)
  | heal
  /-- A frame comes from the hardware, through the registered slot. -/
  | deliver (frame : Frame)
  /-- A frame comes straight to the controller's slot. -/
  | deliverToSlot (frame : Frame)
  | takeAverage (channel : Channel)
  | resetAverages
  | countReads
  | look
  /-- Runs `steps` inside the `nth` call of an operation, which then fails if there is a `code`. -/
  | interrupt (op : HardwareOp) (nth : Nat) (code : Option Int32) (steps : List Step)

mutual

/-- The number of interruptions that a step arranges, those within it included. -/
def Step.interruptions : Step → Nat
  | .interrupt _ _ _ steps => interruptionsOf steps + 1
  | _ => 0

/-- The number of interruptions that a list of steps arranges. -/
def interruptionsOf : List Step → Nat
  | [] => 0
  | step :: steps => step.interruptions + interruptionsOf steps

end

/-- An interruption that is still to come. -/
structure Interruption where
  op : HardwareOp
  nth : Nat
  code : Option Int32
  steps : List Step

/-- What a step answers. -/
inductive Reply where
  | result (result : Result)
  | done
  /-- The answer of a delivery, if there was a slot to deliver to. -/
  | delivered (answer : Option Bool)
  | average (raw : Option UInt16)
  | count (n : Nat)

/-- A step that ran inside a hardware call, and how things stood after it. -/
structure Aside where
  op : HardwareOp
  nth : Nat
  step : Step
  reply : Reply
  after : State Consumer

/-! ## The rig -/

/-- A controller on recording hardware, with what its callers left behind since the last row. -/
structure Rig where
  config : Config
  shared : State Consumer := {}
  recorder : Recorder := {}
  /-- The operations that have been called, the latest first. -/
  arrived : List HardwareOp := []
  interruptions : List Interruption := []
  feed : Feed := {}
  log : Array LogEntry := #[]
  asides : Array Aside := #[]

namespace Rig

/-- Reads and writes the state that the callers share. -/
def share {α : Type} (f : State Consumer → α × State Consumer) : StateM Rig α :=
  modifyGet fun b => let (a, shared) := f b.shared; (a, { b with shared })

/-- Logs a notice. -/
def note (notice : Notice) : StateM Rig Unit :=
  modify fun b => { b with log := b.log.push notice.entry }

/-- Hands a frame to the controller's slot. -/
def handOver (frame : Frame) : StateM Rig Bool :=
  modifyGet fun b =>
    let (verdict, slot, feed) := b.shared.slot.handOver frame b.feed
    (verdict.makesWay, { b with shared := { b.shared with slot }, feed })

/-- Notes a call and carries it out. -/
def complete (call : Call) (forced : Option Int32) : StateM Rig call.Reply :=
  modifyGet fun b =>
    let (reply, recorder) := b.recorder.perform call forced
    (reply, { b with recorder })

/-- Counts a call that reaches the hardware, and takes out the interruption that is due at it;
of several the one that was arranged first. -/
def arrive (call : Call) : StateM Rig (Option Interruption) :=
  modifyGet fun b =>
    match call.op? with
    | none => (none, b)
    | some op =>
      let arrived := op :: b.arrived
      let isDue (i : Interruption) : Bool := i.op == op && i.nth == arrived.count op
      (b.interruptions.find? isDue,
        { b with arrived, interruptions := b.interruptions.eraseP isDue })

/-- Runs a step, with `hardware` answering the calls that it makes. -/
def perform (hardware : (call : Call) → StateM Rig call.Reply) (step : Step) :
    StateM Rig Reply :=
  match step with
  | .command command => do
    let operation := command.operation (← get).config
    return .result (← operation.run (Controller.answer share hardware note))
  | .failOn ops => do
    modify fun b => { b with recorder := { b.recorder with failing := b.recorder.failing ++ ops } }
    return .done
  | .failOnCodes codes => do
    modify fun b =>
      { b with recorder := { b.recorder with failingCodes := b.recorder.failingCodes ++ codes } }
    return .done
  | .heal => do
    modify fun b => { b with recorder := b.recorder.heal }
    return .done
  | .deliver frame => do
    if (← get).recorder.registered then return .delivered (some (← handOver frame))
    else return .delivered none
  | .deliverToSlot frame => return .delivered (some (← handOver frame))
  | .takeAverage channel =>
    modifyGet fun b =>
      let (average, tallies) := b.feed.tallies.take channel
      (.average average, { b with feed := { b.feed with tallies } })
  | .resetAverages => do
    modify fun b => { b with feed := { b.feed with tallies := .empty } }
    return .done
  | .countReads => return .count (← get).recorder.readCount
  | .look => return .done
  | .interrupt op nth code steps => do
    modify fun b => { b with interruptions := b.interruptions ++ [⟨op, nth, code, steps⟩] }
    return .done

/-- Runs a step inside a hardware call, and notes what came of it. -/
def performAside (hardware : (call : Call) → StateM Rig call.Reply) (op : HardwareOp) (nth : Nat)
    (step : Step) : StateM Rig Unit := do
  let reply ← perform hardware step
  modify fun b => { b with asides := b.asides.push ⟨op, nth, step, reply, b.shared⟩ }

/-- Answers a call to the hardware, at most `depth` interruptions deep. -/
def hardware : Nat → (call : Call) → StateM Rig call.Reply
  | 0, call => complete call none
  | depth + 1, call => do
    match ← arrive call with
    | none => complete call none
    | some interruption =>
      interruption.steps.forM
        (performAside (hardware depth) interruption.op interruption.nth)
      complete call interruption.code

end Rig

/-! ## Rows -/

/-- What a step answered and left behind. -/
structure Row where
  reply : Reply
  after : State Consumer
  openContexts : Nat
  registered : Bool
  log : Array LogEntry
  calls : Array Call
  events : Array FrameEvent
  asides : Array Aside

namespace Rig

/-- Takes the log since it was last taken. -/
def takeLog : StateM Rig (Array LogEntry) :=
  modifyGet fun b => (b.log, { b with log := #[] })

/-- Runs a step and collects its row. -/
def row (depth : Nat) (step : Step) : StateM Rig Row := do
  let before := (← get).recorder.calls.size
  let reply ← perform (hardware depth) step
  let log ← takeLog
  modifyGet fun b =>
    ({ reply, log
       after := b.shared
       openContexts := b.recorder.openContexts
       registered := b.recorder.registered
       calls := b.recorder.calls.extract before b.recorder.calls.size
       events := b.feed.events
       asides := b.asides },
      { b with asides := #[], feed := { b.feed with events := #[] } })

/-- A new controller on recording hardware. -/
def start (config : Config) (reads : List UInt16) : Rig where
  config := config
  recorder := { reads }
  log := #[(Notice.initialized config.width).entry]

end Rig

/-- Works through a list of steps on a new controller: the log of its construction, and a row
for each step. -/
def work (config : Config) (reads : List UInt16) (steps : List Step) : Array LogEntry × List Row :=
  let session : StateM Rig (Array LogEntry × List Row) := do
    let log ← Rig.takeLog
    return (log, ← steps.mapM (Rig.row (interruptionsOf steps)))
  (session.run (.start config reads)).1

end SharedAdc.Bench
