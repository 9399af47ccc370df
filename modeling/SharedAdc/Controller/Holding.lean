/-
Reserving channels, releasing them, and bringing the unit back to the idle state. Whoever ends a
session takes down the hardware path that it owns; the reservation is given up even if that
fails.
-/
import SharedAdc.Controller.Question
import SharedAdc.Request

namespace SharedAdc.Controller

variable {κ φ : Type}

/-- The first of two results that is an error. -/
def firstError (first second : Except HardwareFault Unit) : Except HardwareFault Unit :=
  match first with
  | .error fault => .error fault
  | .ok () => second

/-- Takes down the hardware path that `session` owns. The callback is cleared first, so that a
frame on its way meets the whole session or none. -/
def teardown (session : Session) : Operation κ φ (Except HardwareFault Unit) :=
  match session with
  | .continuous => do
    ask .clearCallback
    let stopped ← hardware .stopContinuous
    let deinit ← hardware .deinitContinuous
    return firstError stopped deinit
  | .timeCritical _ => do
    ask (.arm none)
    hardware .deleteOneShotUnit
  | .oneShot | .idle | .reserved => return .ok ()

/-- Reserves `mask` with no hardware path; reserving again what is held changes nothing. -/
def tryReserve (mask : Mask) : Operation κ φ (Except AdcError Unit) :=
  match checkMask mask with
  | .error e => return .error e
  | .ok () => do
    let result : Except AdcError Unit ← locked fun held =>
      match held.grant mask with
      | .error e => return (.error e, held)
      | .ok (_, held) => return (.ok (), held)
    match result with
    | .ok () => note (.reserved mask)
    | .error e => note (.reserveRejected mask e)
    return result

/-- Releases exactly the active mask. A burst of conversions releases itself when it ends. -/
def release (mask : Mask) : Operation κ φ (Except AdcError Unit) :=
  match checkMask mask with
  | .error e => return .error e
  | .ok () => do
    let result : Except AdcError Unit ← locked fun held =>
      if held.active ≠ mask then return (.error (held.mismatch mask), held)
      else if held.session = .oneShot then return (.error (held.busy mask), held)
      else do
        let result ← teardown held.session
        return (result.mapError .hardware, .idle)
    match result with
    | .ok () => note (.released mask)
    | .error e => note (.releaseFailed mask e)
    return result

/-- Brings the unit back to the idle state, whatever the teardown of a live session reports. A
burst that is still converting keeps its unit, and the attempt is turned down. -/
def reinit : Operation κ φ (Except AdcError Unit) := do
  let result : Except AdcError Unit ← locked fun held =>
    if held.session = .oneShot then return (.error (held.busy held.active), held)
    else do
      let result ← teardown held.session
      ask .clearCallback
      ask (.arm none)
      return (result.mapError .hardware, .idle)
  match result with
  | .ok () => note .reinitialized
  | .error (.resourceBusy _ _) => note .reinitRefused
  | .error e => note (.reinitializedWithError e)
  return result

end SharedAdc.Controller
