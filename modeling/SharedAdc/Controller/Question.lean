/-
What the operations of a controller ask of their surroundings, and the state that they share.

The reservation is behind a lock: `enter` takes the lock and shows the reservation, `leave` puts
the reservation back and frees the lock, and nobody else sees what happens to it in between. The
armed channel and the frame slot can be read and written at any time without the lock.
-/
import SharedAdc.Frame.Slot
import SharedAdc.Hardware
import SharedAdc.Log
import SharedAdc.Program
import SharedAdc.Reservation

namespace SharedAdc.Controller

/-! ## Log messages -/

/-- Frames of a session, or nothing where their number is left open. -/
abbrev FrameCount := Option UInt32

/-- The number of frames in messages; a hash sign stands for a number that is left open. -/
def FrameCount.text : FrameCount → String
  | some n => toString n
  | none => "#"

/-- What the operations of a controller log. -/
inductive Notice where
  | initialized (width : BitWidth)
  | reserved (mask : Mask)
  | reserveRejected (mask : Mask) (error : AdcError)
  | released (mask : Mask)
  | releaseFailed (mask : Mask) (error : AdcError)
  | reinitialized
  | reinitRefused
  | reinitializedWithError (error : AdcError)
  | submitted (mask : Mask) (attenuation : Attenuation)
  | oneShotRejected (channel : Channel) (error : AdcError)
  | oneShotReadFailed (channel : Channel) (fault : HardwareFault)
  | oneShotTeardownFailed (channel : Channel) (error : AdcError)
  | oneShotSampled (channel : Channel) (count : UInt32) (value : UInt16)
  | armed (channel : Channel)
  | armingFailed (channel : Channel) (error : AdcError)
  | disarmed (channel : Channel)
  | disarmingFailed (channel : Channel) (error : AdcError)
  | callbackReplaced (mask : Mask)
  | streamStarted (mask : Mask) (rate frameBytes : UInt32)
  | streamStartFailed (mask : Mask) (error : AdcError)
  | streamStopped (mask : Mask) (delivered dropped : FrameCount)
  | streamStopFailed (mask : Mask) (error : AdcError)

namespace Notice

/-- The log entry of a notice. -/
def entry : Notice → LogEntry
  | .initialized width => ⟨.info, "ADC controller initialized (" ++ width.text ++ ")"⟩
  | .reserved mask => ⟨.debug, "reserved " ++ mask.text⟩
  | .reserveRejected mask error =>
    ⟨.warn, "reserve " ++ mask.text ++ " rejected: " ++ error.message⟩
  | .released mask => ⟨.debug, "released " ++ mask.text⟩
  | .releaseFailed mask error => ⟨.warn, "release " ++ mask.text ++ " failed: " ++ error.message⟩
  | .reinitialized => ⟨.info, "ADC controller re-initialized"⟩
  | .reinitRefused => ⟨.warn, "ADC re-init refused while a one-shot burst is converting"⟩
  | .reinitializedWithError error =>
    ⟨.error, "ADC controller re-initialized with teardown error: " ++ error.message⟩
  | .submitted mask attenuation =>
    ⟨.debug, "sampling request on " ++ mask.text ++ " at " ++ attenuation.text⟩
  | .oneShotRejected channel error =>
    ⟨.warn, "one-shot on " ++ channel.text ++ " rejected: " ++ error.message⟩
  | .oneShotReadFailed channel fault =>
    ⟨.error, "one-shot read on " ++ channel.text ++ " failed: " ++ fault.message⟩
  | .oneShotTeardownFailed channel error =>
    ⟨.error, "one-shot teardown on " ++ channel.text ++ " failed: " ++ error.message⟩
  | .oneShotSampled channel count value =>
    ⟨.trace, "one-shot " ++ channel.text ++ " x" ++ toString count ++ " -> " ++ toString value⟩
  | .armed channel => ⟨.debug, "time-critical sampling armed on " ++ channel.text⟩
  | .armingFailed channel error =>
    ⟨.warn, "time-critical setup on " ++ channel.text ++ " failed: " ++ error.message⟩
  | .disarmed channel => ⟨.debug, "time-critical sampling released on " ++ channel.text⟩
  | .disarmingFailed channel error =>
    ⟨.warn, "time-critical release on " ++ channel.text ++ " failed: " ++ error.message⟩
  | .callbackReplaced mask =>
    ⟨.debug, "continuous " ++ mask.text ++ " already running, callback replaced"⟩
  | .streamStarted mask rate frameBytes =>
    ⟨.debug, "continuous " ++ mask.text ++ " started: " ++ toString rate ++ " Hz, "
      ++ toString frameBytes ++ " bytes/frame"⟩
  | .streamStartFailed mask error =>
    ⟨.warn, "continuous start on " ++ mask.text ++ " failed: " ++ error.message⟩
  | .streamStopped mask delivered dropped =>
    ⟨.debug, "continuous " ++ mask.text ++ " stopped (" ++ delivered.text ++ " frames, "
      ++ dropped.text ++ " dropped)"⟩
  | .streamStopFailed mask error =>
    ⟨.warn, "continuous stop on " ++ mask.text ++ " failed: " ++ error.message⟩

/-- The notice with the number of frames left open, for streams whose frames come at the pace of
a clock that nobody reads. -/
def withoutCounts : Notice → Notice
  | .streamStopped mask _ _ => .streamStopped mask none none
  | notice => notice

end Notice

/-! ## Questions -/

/-- What an operation asks of its surroundings. -/
inductive Question (κ φ : Type) where
  /-- Takes the lock and shows the reservation. -/
  | enter
  /-- Puts the reservation back and frees the lock. -/
  | leave (held : Reservation)
  /-- The channel that time-critical sampling is set up for. -/
  | armed
  | arm (channel : Option Channel)
  | installCallback (callback : φ)
  | clearCallback
  | resetFrameCounts
  /-- The numbers of frames delivered and dropped. -/
  | frameCounts
  | hardware (call : HardwareCall κ)
  | note (notice : Notice)

/-- What the surroundings answer. -/
@[reducible] def Answer {κ φ : Type} : Question κ φ → Type
  | .enter => Reservation
  | .armed => Option Channel
  | .frameCounts => UInt32 × UInt32
  | .hardware call => call.Reply
  | _ => Unit

/-- An operation of a controller with result `α`. -/
abbrev Operation (κ φ α : Type) := Program (Question κ φ) Answer α

/-! ## The shared state -/

/-- What the callers of a controller share. -/
structure State (φ : Type) where
  reservation : Reservation := .idle
  /-- Whether some operation is between `enter` and `leave`. -/
  locked : Bool := false
  armed : Option Channel := none
  slot : FrameSlot φ := {}

/-- Answers a question on the shared state; a call to the hardware and a notice are passed on. -/
def answer {κ φ : Type} {m : Type → Type} [Monad m]
    (share : {α : Type} → (State φ → α × State φ) → m α)
    (hardware : (call : HardwareCall κ) → m call.Reply) (note : Notice → m Unit) :
    (q : Question κ φ) → m (Answer q)
  | .enter => share fun s => (s.reservation, { s with locked := true })
  | .leave held => share fun s => ((), { s with reservation := held, locked := false })
  | .armed => share fun s => (s.armed, s)
  | .arm channel => share fun s => ((), { s with armed := channel })
  | .installCallback callback => share fun s => ((), { s with slot := s.slot.install callback })
  | .clearCallback => share fun s => ((), { s with slot := s.slot.clear })
  | .resetFrameCounts => share fun s => ((), { s with slot := s.slot.resetCounts })
  | .frameCounts => share fun s => ((s.slot.delivered, s.slot.dropped), s)
  | .hardware call => hardware call
  | .note notice => note notice

/-! ## Single questions as operations -/

variable {κ φ : Type}

/-- Asks one question. -/
def ask (q : Question κ φ) : Operation κ φ (Answer q) := .query q

/-- Makes a call to the hardware. -/
def hardware (call : HardwareCall κ) : Operation κ φ call.Reply := ask (.hardware call)

/-- Logs a notice. -/
def note (notice : Notice) : Operation κ φ Unit := ask (.note notice)

/-- Runs `body` on the reservation under the lock; the reservation it ends with is put back. -/
def locked {α : Type} (body : Reservation → Operation κ φ (α × Reservation)) : Operation κ φ α := do
  let held ← ask .enter
  let (result, held) ← body held
  ask (.leave held)
  return result

end SharedAdc.Controller
