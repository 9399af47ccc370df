/-
The operations of a controller as data: what a caller can ask for, and what comes back.
-/
import SharedAdc.Controller.Calibration
import SharedAdc.Controller.Continuous
import SharedAdc.Controller.OneShot

namespace SharedAdc.Controller

variable {κ φ : Type}

/-- Hands a request of either kind to the operation that serves it. -/
def startSampling (config : Config) (request : SamplingRequest φ) :
    Operation κ φ (Except AdcError Outcome) :=
  match request.check config with
  | .error e => return .error e
  | .ok () => do
    note (.submitted request.mask request.attenuation)
    match request with
    | .oneShot r =>
      return (← sampleOnce config r.channel r.attenuation r.count).map .sample
    | .continuous r =>
      return (← startContinuous config r).map fun () => .streaming

/-- A call to a controller. -/
inductive Command (φ : Type) where
  | reserve (mask : Mask)
  | release (mask : Mask)
  | sampleOnce (channel : Channel) (attenuation : Attenuation) (count : UInt32)
  | setupTimeCritical (channel : Channel) (attenuation : Attenuation)
  | sampleTimeCritical (channel : Channel) (count : UInt32)
  | releaseTimeCritical (channel : Channel)
  | startContinuous (request : ContinuousRequest φ)
  | stopContinuous (mask : Mask)
  | reinit
  | submit (request : SamplingRequest φ)
  | calibrate (channel : Channel) (attenuation : Attenuation) (samples : List UInt16)
  | calibrateIndex (index : Nat) (attenuation : Attenuation) (samples : List UInt16)
  | convertInScope (channel : Channel) (range : Range) (raws : List UInt16)
  | config
  /-- A call whose numbers stand for no channel or attenuation; it reaches no controller. -/
  | malformed (call : String) (reason : BadArgument)

/-- What comes back from a call. -/
inductive Result where
  | done (result : Except AdcError Unit)
  | value (result : Except AdcError UInt16)
  | outcome (result : Except AdcError Outcome)
  | calibrated (result : Except AdcError Unit) (samples : List UInt16)
  | conversions (result : Except HardwareFault (List (Except HardwareFault UInt16)))
  | config (config : Config)

/-- The operation of a command. -/
def Command.operation (config : Config) : Command φ → Operation κ φ Result
  | .reserve mask => return .done (← tryReserve mask)
  | .release mask => return .done (← Controller.release mask)
  | .sampleOnce channel attenuation count =>
    return .value (← Controller.sampleOnce config channel attenuation count)
  | .setupTimeCritical channel attenuation =>
    return .done (← Controller.setupTimeCritical config channel attenuation)
  | .sampleTimeCritical channel count =>
    return .value (← Controller.sampleTimeCritical channel count)
  | .releaseTimeCritical channel => return .done (← Controller.releaseTimeCritical channel)
  | .startContinuous request => return .done (← Controller.startContinuous config request)
  | .stopContinuous mask => return .done (← Controller.stopContinuous mask)
  | .reinit => return .done (← Controller.reinit)
  | .submit request => return .outcome (← startSampling config request)
  | .calibrate channel attenuation samples => do
    let (result, samples) ← Controller.calibrate config channel attenuation samples
    return .calibrated result samples
  | .calibrateIndex index attenuation samples => do
    let (result, samples) ← Controller.calibrateIndex config index attenuation samples
    return .calibrated result samples
  | .convertInScope channel range raws =>
    return .conversions (← Controller.convertInScope channel range raws)
  | .config => return .config config
  | .malformed _ reason => return .done (.error (.invalidArgument reason))

end SharedAdc.Controller
