/-
What a caller asks of the unit: a burst of conversions on one channel, or a stream over a set of
channels. A request is checked against the settings before anything is reserved.
-/
import SharedAdc.Config
import SharedAdc.Error

namespace SharedAdc

/-! ## One-shot requests -/

/-- The average of `count` conversions on one channel. -/
structure OneShotRequest where
  channel : Channel
  attenuation : Attenuation
  count : UInt32
  deriving DecidableEq

/-- A burst has at least one conversion. -/
def checkCount (count : UInt32) : Except AdcError Unit :=
  if count = 0 then .error (.invalidArgument .noSamples) else .ok ()

def OneShotRequest.check (r : OneShotRequest) : Except AdcError Unit := checkCount r.count

/-! ## Continuous requests -/

/-- A stream over the channels of `mask`, with the callback that receives its frames. -/
structure ContinuousRequest (φ : Type) where
  mask : Mask
  attenuation : Attenuation
  samplesPerChannel : UInt32
  rate : UInt32
  callback : Option φ
  deriving DecidableEq

/-- A mask names at least one channel and only channels of the unit. -/
def checkMask (m : Mask) : Except AdcError Unit :=
  if m.isEmpty then .error (.invalidArgument .emptyMask)
  else if !m.isWithinUnit then .error (.invalidArgument .strayMask)
  else .ok ()

namespace ContinuousRequest

variable {φ : Type}

/-- Checks the fields in a fixed order; the first that is wrong is reported. -/
def check (r : ContinuousRequest φ) (config : Config) : Except AdcError Unit :=
  if r.mask.isEmpty then .error (.invalidArgument .emptyMask)
  else if r.mask.count = 0 || !r.mask.isWithinUnit then .error (.invalidArgument .strayMask)
  else if r.samplesPerChannel = 0 then .error (.invalidArgument .noSamplesPerChannel)
  else if r.callback.isNone then .error (.invalidArgument .noCallback)
  else if r.rate = 0 || r.rate > config.maxRate then .error (.invalidArgument .rateOutOfRange)
  else .ok ()

/-- Size of one frame in bytes, multiplied out in 64-bit words. -/
def frameBytes (r : ContinuousRequest φ) (config : Config) : Except AdcError UInt32 :=
  let bytes := r.samplesPerChannel.toUInt64 * UInt64.ofNat r.mask.count * config.bytesPerSample
  if bytes.toNat < UInt32.size then .ok bytes.toUInt32
  else .error (.invalidArgument .frameTooLarge)

/-- The table of the session: one entry for each channel of the mask, in ascending order. -/
def pattern (r : ContinuousRequest φ) (config : Config) : List PatternEntry :=
  r.mask.toList.map fun c => ⟨c, ⟨r.attenuation, config.width⟩⟩

end ContinuousRequest

/-! ## Requests of either kind -/

/-- What a caller asks for. -/
inductive SamplingRequest (φ : Type) where
  | oneShot (request : OneShotRequest)
  | continuous (request : ContinuousRequest φ)

namespace SamplingRequest

variable {φ : Type}

/-- The channels that the request needs. -/
def mask : SamplingRequest φ → Mask
  | .oneShot r => .single r.channel
  | .continuous r => r.mask

def attenuation : SamplingRequest φ → Attenuation
  | .oneShot r => r.attenuation
  | .continuous r => r.attenuation

/-- Checks that need neither hardware nor a reservation. -/
def check (r : SamplingRequest φ) (config : Config) : Except AdcError Unit :=
  match r with
  | .oneShot r => r.check
  | .continuous r => r.check config

end SamplingRequest

/-- What a request that was granted comes to. -/
inductive Outcome where
  /-- The averaged code of a burst. -/
  | sample (raw : UInt16)
  /-- A session delivers frames. -/
  | streaming
  deriving DecidableEq

end SharedAdc
