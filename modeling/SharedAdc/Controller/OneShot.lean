/-
Sampling one channel through the one-shot path. A burst sets the path up, converts and takes it
down again in one call; only its first and its last part hold the lock. Time-critical sampling
sets the path up once, and then converts as often as it is asked, with no lock and no log, on the
word of the armed channel alone.
-/
import SharedAdc.Controller.Question
import SharedAdc.Request

namespace SharedAdc.Controller

variable {κ φ : Type}

/-! ## Conversions -/

/-- Adds up `n` more conversions, stopping at the first that fails. -/
def readSum (channel : Channel) : Nat → UInt64 → Operation κ φ (Except HardwareFault UInt64)
  | 0, sum => return .ok sum
  | n + 1, sum => do
    match ← hardware (.readOneShot channel) with
    | .error fault => return .error fault
    | .ok raw => readSum channel n (sum + raw.toUInt64)

/-- The average of `count` conversions, rounded down. -/
def readAverage (channel : Channel) (count : UInt32) :
    Operation κ φ (Except HardwareFault UInt16) := do
  match ← readSum channel count.toNat 0 with
  | .error fault => return .error fault
  | .ok sum => return .ok (min (sum / count.toUInt64) 65535).toUInt16

/-- Creates the one-shot unit and sets up a channel on it; a unit that cannot be set up is
deleted. -/
def configureOneShot (channel : Channel) (range : Range) :
    Operation κ φ (Except HardwareFault Unit) := do
  match ← hardware .createOneShotUnit with
  | .error fault => return .error fault
  | .ok () =>
    match ← hardware (.configureOneShotChannel channel range) with
    | .ok () => return .ok ()
    | .error fault =>
      let _ ← hardware .deleteOneShotUnit
      return .error fault

/-! ## Bursts -/

/-- Starts a burst: reserves the channel and sets up the path. Results in the session that held
the channel before. -/
def openBurst (channel : Channel) (range : Range) : Operation κ φ (Except AdcError Session) :=
  let mask := Mask.single channel
  locked fun held =>
    match held.grant mask with
    | .error e => return (.error e, held)
    | .ok (prior, granted) =>
      match prior with
      | .idle | .reserved => do
        match ← configureOneShot channel range with
        | .error fault => return (.error (.hardware fault), .before mask prior)
        | .ok () => return (.ok prior, { granted with session := .oneShot })
      | _ => return (.error (granted.busy mask), granted)

/-- Ends a burst: deletes the unit and gives the channel back to the session that held it
before. A unit that belongs to someone else by now is left alone. -/
def closeBurst (channel : Channel) (prior : Session) : Operation κ φ (Except AdcError Unit) :=
  let mask := Mask.single channel
  locked fun held =>
    if held.active ≠ mask ∨ held.session ≠ .oneShot then return (.error (held.mismatch mask), held)
    else do
      let result ← hardware .deleteOneShotUnit
      return (result.mapError .hardware, .before mask prior)

/-- The average of `count` conversions on a channel. A caller that had reserved exactly this
channel keeps its reservation; otherwise the unit is free again afterwards. -/
def sampleOnce (config : Config) (channel : Channel) (attenuation : Attenuation) (count : UInt32) :
    Operation κ φ (Except AdcError UInt16) :=
  match checkCount count with
  | .error e => return .error e
  | .ok () => do
    match ← openBurst channel ⟨attenuation, config.width⟩ with
    | .error e =>
      note (.oneShotRejected channel e)
      return .error e
    | .ok prior =>
      let reading ← readAverage channel count
      let closing ← closeBurst channel prior
      match reading, closing with
      | .error fault, _ =>
        note (.oneShotReadFailed channel fault)
        return .error (.hardware fault)
      | .ok _, .error e =>
        note (.oneShotTeardownFailed channel e)
        return .error e
      | .ok value, .ok () =>
        note (.oneShotSampled channel count value)
        return .ok value

/-! ## Time-critical sampling -/

/-- Programs the channel of a live unit anew; a unit that does not take it is disarmed and
deleted. -/
def reconfigureArmed (channel : Channel) (range : Range) :
    Operation κ φ (Except HardwareFault Unit) := do
  match ← hardware (.configureOneShotChannel channel range) with
  | .ok () => return .ok ()
  | .error fault =>
    ask (.arm none)
    let _ ← hardware .deleteOneShotUnit
    return .error fault

/-- Ends the set-up of time-critical sampling: arms the channel, or falls back on `fallback`. -/
def finishArming (channel : Channel) (held fallback : Reservation)
    (configured : Except HardwareFault Unit) :
    Operation κ φ (Except AdcError Unit × Reservation) :=
  match configured with
  | .error fault => return (.error (.hardware fault), fallback)
  | .ok () => do
    ask (.arm (some channel))
    return (.ok (), { held with session := .timeCritical channel })

/-- Reserves a channel and sets up the path for `sampleTimeCritical`. On the armed channel it
only programs the attenuation anew. -/
def setupTimeCritical (config : Config) (channel : Channel) (attenuation : Attenuation) :
    Operation κ φ (Except AdcError Unit) := do
  let mask := Mask.single channel
  let range : Range := ⟨attenuation, config.width⟩
  let result : Except AdcError Unit ← locked fun held =>
    match held.grant mask with
    | .error e => return (.error e, held)
    | .ok (prior, granted) =>
      match prior with
      | .idle | .reserved => do
        finishArming channel granted (.before mask prior) (← configureOneShot channel range)
      | .timeCritical armed =>
        if armed = channel then do
          finishArming channel granted .idle (← reconfigureArmed channel range)
        else return (.error (granted.busy mask), granted)
      | _ => return (.error (granted.busy mask), granted)
  match result with
  | .ok () => note (.armed channel)
  | .error e => note (.armingFailed channel e)
  return result

/-- The average of `count` conversions on the armed channel. -/
def sampleTimeCritical (channel : Channel) (count : UInt32) :
    Operation κ φ (Except AdcError UInt16) :=
  match checkCount count with
  | .error e => return .error e
  | .ok () => do
    match ← ask .armed with
    | some armed =>
      if armed = channel then return (← readAverage channel count).mapError .hardware
      else return .error (.resourceBusy (.single armed) (.single channel))
    | none => return .error (.stateMismatch .empty (.single channel))

/-- Ends time-critical sampling on a channel and deletes the unit. -/
def releaseTimeCritical (channel : Channel) : Operation κ φ (Except AdcError Unit) := do
  let mask := Mask.single channel
  let result : Except AdcError Unit ← locked fun held =>
    if held.active ≠ mask ∨ held.session ≠ .timeCritical channel then
      return (.error (held.mismatch mask), held)
    else do
      ask (.arm none)
      let result ← hardware .deleteOneShotUnit
      return (result.mapError .hardware, .idle)
  match result with
  | .ok () => note (.disarmed channel)
  | .error e => note (.disarmingFailed channel e)
  return result

end SharedAdc.Controller
