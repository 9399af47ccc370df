/-
A burst of conversions that is held up inside its first read, while other callers work on the
same controller.
-/
import SharedAdc.Bench.Rig

namespace SharedAdc.Bench

open SharedAdc.Controller

/-- A burst with the steps of other callers before it, during its first read and after it. -/
structure BurstScript where
  channel : Channel
  attenuation : Attenuation
  count : UInt32
  before : List Step
  during : List Step
  after : List Step

/-- What came of a burst and of the steps around it. -/
structure BurstReport where
  before : List Row
  during : List Row
  after : List Row
  result : Except AdcError UInt16
  /-- The log from the end of the first read to the end of the burst. -/
  log : Array LogEntry
  calls : Array Call

namespace Rig

/-- The calls of an operation while nothing interrupts it. -/
def answerAlone : (q : Question Range Consumer) → StateM Rig (Answer q) :=
  Controller.answer share (fun call => complete call none) note

/-- Whether a question is a read. -/
def isRead : Question Range Consumer → Bool
  | .hardware (.readOneShot _) => true
  | _ => false

/-- Lets the held read go and runs the operation to its end: the read has been noted, and takes
its code only now. -/
def letGo {α : Type} : Operation Range Consumer α → StateM Rig α
  | .done result => return result
  | .ask (.hardware call) next => do
    let reply ← modifyGet fun b =>
      let (reply, recorder) := b.recorder.complete call (b.recorder.failure? call none)
      (reply, { b with recorder })
    (next reply).run answerAlone
  | .ask q next => (Program.ask q next).run answerAlone

/-- Runs an operation into its first read, which is noted and held. -/
def hold {α : Type} (operation : Operation Range Consumer α) :
    StateM Rig (Operation Range Consumer α) := do
  let held ← operation.runUntil isRead answerAlone
  match held with
  | .ask (.hardware call) _ => modify fun b => { b with recorder := b.recorder.record call }
  | _ => pure ()
  return held

end Rig

/-- Runs a burst on a new controller. -/
def workBurst (config : Config) (reads : List UInt16) (script : BurstScript) : BurstReport :=
  let depth := interruptionsOf script.before + interruptionsOf script.during
    + interruptionsOf script.after
  let session : StateM Rig BurstReport := do
    let before ← script.before.mapM (Rig.row depth)
    let held ← Rig.hold
      (sampleOnce config script.channel script.attenuation script.count)
    let during ← script.during.mapM (Rig.row depth)
    let result ← Rig.letGo held
    let log ← Rig.takeLog
    let after ← script.after.mapM (Rig.row depth)
    return { before, during, after, result, log, calls := (← get).recorder.calls }
  (session.run (.start config reads)).1

/-- How often the calls that matter to a burst were made. -/
def BurstReport.callCounts (report : BurstReport) (config : Config) (script : BurstScript) :
    List Nat :=
  let range : Range := ⟨script.attenuation, config.width⟩
  [.createOneShotUnit, .deleteOneShotUnit, .registerFrameSlot, .startContinuous, .stopContinuous,
    .deinitContinuous].map (report.calls.count ·)
  ++ [report.calls.countP fun | .deleteCalibration _ => true | _ => false,
    report.calls.count (.readOneShot script.channel),
    report.calls.count (.configureOneShotChannel script.channel range)]

end SharedAdc.Bench
