/-
The calls that drive one unit: a one-shot path, a paced continuous path and a calibration scheme.
Each call has its own kind of reply. What lies behind the calls is open: recording hardware on a
bench, a simulated unit or a vendor's driver; `κ` is what it uses as a calibration context.
-/
import SharedAdc.Error
import SharedAdc.Range

namespace SharedAdc

/-- A call to the hardware. -/
inductive HardwareCall (κ : Type) where
  | createOneShotUnit
  | configureOneShotChannel (channel : Channel) (range : Range)
  | readOneShot (channel : Channel)
  | deleteOneShotUnit
  | createContinuous (bufferBytes frameBytes : UInt32)
  | configureContinuous (rate : UInt32) (pattern : List PatternEntry)
  | registerFrameSlot
  | startContinuous
  | stopContinuous
  | deinitContinuous
  | createCalibration (channel : Channel) (range : Range)
  | applyCalibration (context : κ) (raw : UInt16)
  | deleteCalibration (context : κ)
  deriving DecidableEq

namespace HardwareCall

variable {κ : Type}

/-- What the hardware replies to a call. -/
@[reducible] def Reply : HardwareCall κ → Type
  | .readOneShot _ => Except HardwareFault UInt16
  | .createCalibration _ _ => Except HardwareFault κ
  | .applyCalibration _ _ => Except HardwareFault UInt16
  | .deleteCalibration _ => Unit
  | _ => Except HardwareFault Unit

/-- The operation that a failure of the call is reported under; deleting a calibration context
does not fail. -/
def op? : HardwareCall κ → Option HardwareOp
  | .createOneShotUnit => some .createOneShotUnit
  | .configureOneShotChannel .. => some .configureOneShotChannel
  | .readOneShot _ => some .readOneShot
  | .deleteOneShotUnit => some .deleteOneShotUnit
  | .createContinuous .. => some .createContinuous
  | .configureContinuous .. => some .configureContinuous
  | .registerFrameSlot => some .registerFrameSlot
  | .startContinuous => some .startContinuous
  | .stopContinuous => some .stopContinuous
  | .deinitContinuous => some .deinitContinuous
  | .createCalibration .. => some .createCalibration
  | .applyCalibration .. => some .applyCalibration
  | .deleteCalibration _ => none

/-- The reply of a call that fails with `code`. -/
def fail (code : Int32) : (call : HardwareCall κ) → call.Reply
  | .createOneShotUnit => .error ⟨.createOneShotUnit, code⟩
  | .configureOneShotChannel .. => .error ⟨.configureOneShotChannel, code⟩
  | .readOneShot _ => .error ⟨.readOneShot, code⟩
  | .deleteOneShotUnit => .error ⟨.deleteOneShotUnit, code⟩
  | .createContinuous .. => .error ⟨.createContinuous, code⟩
  | .configureContinuous .. => .error ⟨.configureContinuous, code⟩
  | .registerFrameSlot => .error ⟨.registerFrameSlot, code⟩
  | .startContinuous => .error ⟨.startContinuous, code⟩
  | .stopContinuous => .error ⟨.stopContinuous, code⟩
  | .deinitContinuous => .error ⟨.deinitContinuous, code⟩
  | .createCalibration .. => .error ⟨.createCalibration, code⟩
  | .applyCalibration .. => .error ⟨.applyCalibration, code⟩
  | .deleteCalibration _ => ()

/-- The replies in one type, for callers that make calls by hand. -/
inductive Response where
  | status (result : Except HardwareFault Unit)
  | raw (result : Except HardwareFault UInt16)

/-- The reply of a call as a response; a calibration context is not shown. -/
def respond : (call : HardwareCall κ) → call.Reply → Response
  | .createOneShotUnit, reply => .status reply
  | .configureOneShotChannel .., reply => .status reply
  | .readOneShot _, reply => .raw reply
  | .deleteOneShotUnit, reply => .status reply
  | .createContinuous .., reply => .status reply
  | .configureContinuous .., reply => .status reply
  | .registerFrameSlot, reply => .status reply
  | .startContinuous, reply => .status reply
  | .stopContinuous, reply => .status reply
  | .deinitContinuous, reply => .status reply
  | .createCalibration .., reply => .status (reply.map fun _ => ())
  | .applyCalibration .., reply => .raw reply
  | .deleteCalibration _, _ => .status (.ok ())

end HardwareCall

end SharedAdc
