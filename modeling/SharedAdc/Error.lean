/-
What can go wrong: a hardware operation reports a fault, or a request is turned down. Each cause
is a constructor; the wording of all of them is `AdcError.message`.
-/
import SharedAdc.Channel.Mask

namespace SharedAdc

/-! ## Hardware faults -/

/-- The hardware operations that can fail. -/
inductive HardwareOp where
  | createOneShotUnit
  | configureOneShotChannel
  | readOneShot
  | deleteOneShotUnit
  | createContinuous
  | configureContinuous
  | registerFrameSlot
  | startContinuous
  | stopContinuous
  | deinitContinuous
  | createCalibration
  | applyCalibration
  deriving DecidableEq

namespace HardwareOp

/-- Every operation, in the order of its use. -/
def all : List HardwareOp :=
  [.createOneShotUnit, .configureOneShotChannel, .readOneShot, .deleteOneShotUnit,
    .createContinuous, .configureContinuous, .registerFrameSlot, .startContinuous,
    .stopContinuous, .deinitContinuous, .createCalibration, .applyCalibration]

/-- The name of the operation in messages. -/
def text : HardwareOp → String
  | .createOneShotUnit => "CreateOneShotUnit"
  | .configureOneShotChannel => "ConfigureOneShotChannel"
  | .readOneShot => "ReadOneShot"
  | .deleteOneShotUnit => "DeleteOneShotUnit"
  | .createContinuous => "CreateContinuous"
  | .configureContinuous => "ConfigureContinuous"
  | .registerFrameSlot => "RegisterFrameSlot"
  | .startContinuous => "StartContinuous"
  | .stopContinuous => "StopContinuous"
  | .deinitContinuous => "DeinitContinuous"
  | .createCalibration => "CreateCalibration"
  | .applyCalibration => "ApplyCalibration"

/-- The operation with a given name. -/
def ofText? (s : String) : Option HardwareOp := all.find? fun op => op.text == s

theorem mem_all (op : HardwareOp) : op ∈ all := by cases op <;> simp [all]

end HardwareOp

/-- A hardware operation that failed, with the status code that it reported. -/
structure HardwareFault where
  op : HardwareOp
  code : Int32
  deriving DecidableEq

namespace HardwareFault

/-- Status code of a failure with no closer description. -/
def failed : Int32 := -1

/-- Status code of an argument that the hardware does not take. -/
def invalidArgument : Int32 := 0x102

/-- Status code of a call that does not fit the state of the hardware. -/
def invalidState : Int32 := 0x103

/-- The fault in messages. -/
def message (f : HardwareFault) : String :=
  f.op.text ++ " failed (code " ++ toString f.code.toInt ++ ")"

end HardwareFault

/-! ## Errors of the unit -/

/-- Why an argument is turned down before anything is touched. -/
inductive BadArgument where
  | channelOutOfRange
  | attenuationOutOfRange
  | emptyMask
  | strayMask
  | noSamplesPerChannel
  | noCallback
  | rateOutOfRange
  | frameTooLarge
  | noSamples
  | emptyBuffer
  /-- A reason in a caller's own words. -/
  | other (text : String)
  deriving DecidableEq

/-- The reason in messages. -/
def BadArgument.message : BadArgument → String
  | .channelOutOfRange => "channel index out of range"
  | .attenuationOutOfRange => "attenuation out of range"
  | .emptyMask => "empty channel mask"
  | .strayMask => "channel mask names no valid channel"
  | .noSamplesPerChannel => "samples_per_channel must be non-zero"
  | .noCallback => "missing frame callback"
  | .rateOutOfRange => "sample rate out of range"
  | .frameTooLarge => "frame size overflows"
  | .noSamples => "sample_count must be non-zero"
  | .emptyBuffer => "empty sample buffer"
  | .other text => text

/-- Why an operation on the unit did not do what it was asked. -/
inductive AdcError where
  | invalidArgument (reason : BadArgument)
  /-- Other channels, or another discipline on the same ones, hold the unit. -/
  | resourceBusy (active requested : Mask)
  | hardware (fault : HardwareFault)
  /-- The caller does not own the session that it means to use or end. -/
  | stateMismatch (active requested : Mask)
  deriving DecidableEq

namespace AdcError

/-- The error in messages. -/
def message : AdcError → String
  | .invalidArgument reason => "invalid argument: " ++ reason.message
  | .resourceBusy active requested =>
    "ADC busy: " ++ requested.text ++ " conflicts with active " ++ active.text
  | .hardware fault => "hardware failure: " ++ fault.message
  | .stateMismatch active requested =>
    "state mismatch: " ++ requested.text ++ " does not own active " ++ active.text

/-- Whether the same call may succeed later with nothing else done. -/
def isRetryable : AdcError → Bool
  | .resourceBusy .. => true
  | .stateMismatch .. => true
  | _ => false

/-- Whether the hardware path should be set up afresh before the next attempt. -/
def requiresReinit : AdcError → Bool
  | .hardware _ => true
  | _ => false

end AdcError

end SharedAdc
