/-
Raw codes to millivolts. Each call opens one calibration context for its channel, attenuation and
resolution, and closes it before it returns, on every path; nothing is kept between calls.
-/
import SharedAdc.Controller.Question
import SharedAdc.Request

namespace SharedAdc.Controller

variable {κ φ : Type}

/-! ## Contexts -/

/-- Runs `body` in a calibration context, which is deleted afterwards. -/
def withCalibration {α : Type} (channel : Channel) (range : Range) (body : κ → Operation κ φ α) :
    Operation κ φ (Except HardwareFault α) := do
  match ← hardware (.createCalibration channel range) with
  | .error fault => return .error fault
  | .ok context =>
    let result ← body context
    hardware (.deleteCalibration context)
    return .ok result

/-- Converts each code in turn. -/
def convertEach (context : κ) : List UInt16 → Operation κ φ (List (Except HardwareFault UInt16))
  | [] => return []
  | raw :: raws => do
    let converted ← hardware (.applyCalibration context raw)
    let rest ← convertEach context raws
    return converted :: rest

/-- Opens a context, converts each code and closes it. -/
def convertInScope (channel : Channel) (range : Range) (raws : List UInt16) :
    Operation κ φ (Except HardwareFault (List (Except HardwareFault UInt16))) :=
  withCalibration channel range fun context => convertEach context raws

/-! ## Buffers -/

/-- The buffer after its codes came back as `results`: a code whose conversion failed stays. -/
def converted : List UInt16 → List (Except HardwareFault UInt16) → List UInt16
  | raw :: raws, result :: results =>
    (match result with | .ok mv => mv | .error _ => raw) :: converted raws results
  | raws, _ => raws

/-- The first failure among the results. -/
def firstFault : List (Except HardwareFault UInt16) → Option HardwareFault
  | [] => none
  | .error fault :: _ => some fault
  | .ok _ :: results => firstFault results

/-- Converts a buffer of codes, each for itself and in order. Results in the first failure, if
any, and in the buffer afterwards. -/
def calibrate (config : Config) (channel : Channel) (attenuation : Attenuation)
    (samples : List UInt16) : Operation κ φ (Except AdcError Unit × List UInt16) :=
  if samples.isEmpty then return (.error (.invalidArgument .emptyBuffer), samples)
  else do
    match ← convertInScope channel ⟨attenuation, config.width⟩ samples with
    | .error fault => return (.error (.hardware fault), samples)
    | .ok results =>
      match firstFault results with
      | some fault => return (.error (.hardware fault), converted samples results)
      | none => return (.ok (), converted samples results)

/-- Calibrates the codes of a channel that is given as a plain number. -/
def calibrateIndex (config : Config) (index : Nat) (attenuation : Attenuation)
    (samples : List UInt16) : Operation κ φ (Except AdcError Unit × List UInt16) :=
  match Channel.ofIndex? index with
  | none => return (.error (.invalidArgument .channelOutOfRange), samples)
  | some channel => calibrate config channel attenuation samples

end SharedAdc.Controller
