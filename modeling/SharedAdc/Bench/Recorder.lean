/-
Recording hardware: it notes every call, reads off scripted codes, and fails where it is told to.
A failure stays until it is healed.
-/
import SharedAdc.Hardware

namespace SharedAdc.Bench

/-- A calibration context of the bench is the range that it was opened for. -/
abbrev Call := HardwareCall Range

/-- Recording hardware. -/
structure Recorder where
  calls : Array Call := #[]
  /-- The codes of the reads to come; after the last of them every read gives zero. -/
  reads : List UInt16 := []
  /-- The operations that fail. -/
  failing : List HardwareOp := []
  /-- The codes whose calibration fails. -/
  failingCodes : List UInt16 := []
  /-- Whether a frame slot is registered. -/
  registered : Bool := false
  /-- The calibration contexts that are open. -/
  openContexts : Nat := 0

namespace Recorder

/-- Notes a call. -/
def record (r : Recorder) (call : Call) : Recorder := { r with calls := r.calls.push call }

/-- The code that a call fails with: one forced on this call, or that of a lasting failure. -/
def failure? (r : Recorder) (call : Call) (forced : Option Int32) : Option Int32 :=
  call.op?.bind fun op =>
    forced.orElse fun () => if op ∈ r.failing then some HardwareFault.failed else none

/-- The linear scale of a range, cut to a word. -/
def millivolts (range : Range) (raw : UInt16) : UInt16 :=
  (raw.toUInt32 * range.attenuation.fullScale.toUInt32 / range.width.maxRaw.toUInt32).toUInt16

/-- Carries a noted call out. -/
def carryOut (r : Recorder) : (call : Call) → call.Reply × Recorder
  | .createOneShotUnit => (.ok (), r)
  | .configureOneShotChannel _ _ => (.ok (), r)
  | .readOneShot _ => (.ok (r.reads.headD 0), { r with reads := r.reads.tail })
  | .deleteOneShotUnit => (.ok (), r)
  | .createContinuous _ _ => (.ok (), r)
  | .configureContinuous _ _ => (.ok (), r)
  | .registerFrameSlot => (.ok (), { r with registered := true })
  | .startContinuous => (.ok (), r)
  | .stopContinuous => (.ok (), r)
  | .deinitContinuous => (.ok (), { r with registered := false })
  | .createCalibration _ range => (.ok range, { r with openContexts := r.openContexts + 1 })
  | .applyCalibration range raw =>
    if raw ∈ r.failingCodes then (.error ⟨.applyCalibration, HardwareFault.failed⟩, r)
    else (.ok (millivolts range raw), r)
  | .deleteCalibration _ => ((), { r with openContexts := r.openContexts - 1 })

/-- Carries a noted call out, or fails it. A call that fails changes nothing: a read uses up no
code, and a deinit keeps the registered slot. -/
def complete (r : Recorder) (call : Call) (failure : Option Int32) : call.Reply × Recorder :=
  match failure with
  | some code => (call.fail code, r)
  | none => r.carryOut call

/-- Notes a call and carries it out, with a failure forced on it if `forced` gives one. -/
def perform (r : Recorder) (call : Call) (forced : Option Int32) : call.Reply × Recorder :=
  (r.record call).complete call (r.failure? call forced)

/-- Ends every lasting failure. -/
def heal (r : Recorder) : Recorder := { r with failing := [], failingCodes := [] }

/-- The number of reads noted. -/
def readCount (r : Recorder) : Nat :=
  r.calls.countP fun | .readOneShot _ => true | _ => false

end Recorder

end SharedAdc.Bench
