/-
Streams: a session samples every channel of its mask at a paced rate, and each completed frame
goes through the frame slot to the session's callback.
-/
import SharedAdc.Controller.Holding

namespace SharedAdc.Controller

variable {κ φ : Type}

/-- Sets up a created driver and starts it: the counters of the slot are reset and the callback
is in place before the first frame can arrive. -/
def launch (rate : UInt32) (pattern : List PatternEntry) (callback : φ) :
    Operation κ φ (Except HardwareFault Unit) := do
  match ← hardware (.configureContinuous rate pattern) with
  | .error fault => return .error fault
  | .ok () =>
    ask .resetFrameCounts
    ask (.installCallback callback)
    match ← hardware .registerFrameSlot with
    | .error fault => return .error fault
    | .ok () => hardware .startContinuous

/-- Creates the continuous driver and starts it; a driver that cannot be started is taken down. -/
def configureStream (rate : UInt32) (pattern : List PatternEntry) (frameBytes : UInt32)
    (callback : φ) : Operation κ φ (Except HardwareFault Unit) := do
  match ← hardware (.createContinuous frameBytes frameBytes) with
  | .error fault => return .error fault
  | .ok () =>
    match ← launch rate pattern callback with
    | .ok () => return .ok ()
    | .error fault =>
      ask .clearCallback
      let _ ← hardware .deinitContinuous
      return .error fault

/-- Checks a request, reserves its mask and starts the stream. On the running mask it only puts
the new callback in place. -/
def startContinuous (config : Config) (request : ContinuousRequest φ) :
    Operation κ φ (Except AdcError Unit) :=
  match request.check config, request.frameBytes config, request.callback with
  | .error e, _, _ => return .error e
  | .ok (), .error e, _ => return .error e
  | .ok (), .ok _, none => return .error (.invalidArgument .noCallback)
  | .ok (), .ok frameBytes, some callback => do
    let mask := request.mask
    let result : Except AdcError Unit ← locked fun held =>
      match held.grant mask with
      | .error e => return (.error e, held)
      | .ok (prior, granted) =>
        match prior with
        | .continuous => do
          ask (.installCallback callback)
          note (.callbackReplaced mask)
          return (.ok (), granted)
        | .idle | .reserved => do
          match ← configureStream request.rate (request.pattern config) frameBytes callback with
          | .error fault => return (.error (.hardware fault), .before mask prior)
          | .ok () => return (.ok (), { granted with session := .continuous })
        | _ => return (.error (granted.busy mask), granted)
    match result with
    | .ok () => note (.streamStarted mask request.rate frameBytes)
    | .error e => note (.streamStartFailed mask e)
    return result

/-- Stops the stream that runs on exactly `mask`; the mask is released even if stopping fails. -/
def stopContinuous (mask : Mask) : Operation κ φ (Except AdcError Unit) :=
  match checkMask mask with
  | .error e => return .error e
  | .ok () => do
    let result : Except AdcError Unit ← locked fun held =>
      if held.active ≠ mask ∨ held.session ≠ .continuous then
        return (.error (held.mismatch mask), held)
      else do
        let result ← teardown .continuous
        return (result.mapError .hardware, .idle)
    match result with
    | .ok () => do
      let (delivered, dropped) ← ask .frameCounts
      note (.streamStopped mask delivered dropped)
    | .error e => note (.streamStopFailed mask e)
    return result

end SharedAdc.Controller
