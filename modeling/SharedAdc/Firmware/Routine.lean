/-
The routines of a device that shares its unit between a stream, time-critical polling and a
battery monitor. A routine asks for what an operation of the controller asks for, and besides for
delays and for the averages of the stream.
-/
import SharedAdc.Controller.Calibration
import SharedAdc.Controller.Continuous
import SharedAdc.Controller.OneShot
import SharedAdc.Frame.Consumer

namespace SharedAdc.Firmware

/-! ## Questions -/

/-- What a routine asks of its surroundings. -/
inductive Question (κ : Type) where
  | controller (q : Controller.Question κ Consumer)
  | delay (ms : Nat)
  | takeAverage (channel : Channel)
  | resetAverages
  | say (entry : LogEntry)

/-- What the surroundings answer. -/
@[reducible] def Answer {κ : Type} : Question κ → Type
  | .controller q => Controller.Answer q
  | .takeAverage _ => Option UInt16
  | _ => Unit

/-- A routine with result `α`. -/
abbrev Routine (κ α : Type) := Program (Question κ) Answer α

variable {κ : Type}

/-- Asks one question. -/
def ask (q : Question κ) : Routine κ (Answer q) := .query q

/-- Logs an entry. -/
def say (level : LogLevel) (message : String) : Routine κ Unit := ask (.say ⟨level, message⟩)

/-- Runs an operation of the controller. -/
def operate {α : Type} (operation : Controller.Operation κ Consumer α) : Routine κ α :=
  operation.lift fun q => ask (.controller q)

/-! ## The board -/

/-- The microphone. -/
def microphone : Channel := 0

/-- The light sensor. -/
def light : Channel := 1

/-- The divider at the battery. -/
def battery : Channel := 3

/-- The attenuation that every routine samples with. -/
def attenuation : Attenuation := .db12

/-! ## Recovery -/

/-- Deals with an error of a routine: after a hardware fault the unit is brought back to the
idle state. -/
def recover (error : AdcError) : Routine κ Unit :=
  if error.requiresReinit then do
    say .error ("ADC hardware error: " ++ error.message ++ ", re-initializing")
    let _ ← operate Controller.reinit
  else say .warn ("ADC request failed: " ++ error.message)

/-- Runs a cycle and recovers if it fails. -/
def recovering (cycle : Routine κ (Except AdcError Unit)) :
    Routine κ (Except AdcError Unit) := do
  let result ← cycle
  match result with
  | .ok () => return result
  | .error e =>
    recover e
    return result

/-! ## Streaming -/

/-- The channels of the stream. -/
def streamMask : Mask := .ofList [microphone, light]

/-- The stream: 64 samples per channel and frame at 20 kHz. -/
def streamRequest : ContinuousRequest Consumer where
  mask := streamMask
  attenuation := attenuation
  samplesPerChannel := 64
  rate := 20000
  callback := some .average

/-- Reports the average voltage of each channel since the last report. -/
def reportChannels (config : Config) : List Channel → Routine κ (Except AdcError Unit)
  | [] => return .ok ()
  | channel :: channels => do
    match ← ask (.takeAverage channel) with
    | none =>
      say .warn (channel.text ++ ": no conversions this second")
      reportChannels config channels
    | some raw =>
      match ← operate (Controller.calibrate config channel attenuation [raw]) with
      | (.error e, _) => return .error e
      | (.ok (), samples) =>
        say .info (channel.text ++ ": " ++ toString (samples.headD raw) ++ " mV")
        reportChannels config channels

/-- Waits for `n` seconds, with a report after each of them. -/
def reportSeconds (config : Config) : Nat → Routine κ (Except AdcError Unit)
  | 0 => return .ok ()
  | n + 1 => do
    ask (.delay 1000)
    match ← reportChannels config streamMask.toList with
    | .error e => return .error e
    | .ok () => reportSeconds config n

/-- Streams the sensors for five seconds. A cycle that fails leaves its session as it is. -/
def streamCycle (config : Config) : Routine κ (Except AdcError Unit) := do
  ask .resetAverages
  match ← operate (Controller.startContinuous config streamRequest) with
  | .error e => return .error e
  | .ok () =>
    match ← reportSeconds config 5 with
    | .error e => return .error e
    | .ok () =>
      match ← operate (Controller.stopContinuous streamMask) with
      | .error e => return .error e
      | .ok () =>
        let (delivered, dropped) ← operate (Controller.ask .frameCounts)
        say .info ("Stream stopped: " ++ toString delivered ++ " frames delivered, "
          ++ toString dropped ++ " dropped")
        return .ok ()

/-! ## Loudness -/

/-- Polls the microphone `n` times, and results in the span of the codes. -/
def pollWindow : Nat → (low high : UInt16) → Routine κ (Except AdcError (UInt16 × UInt16))
  | 0, low, high => return .ok (low, high)
  | n + 1, low, high => do
    match ← operate (Controller.sampleTimeCritical microphone 4) with
    | .error e => return .error e
    | .ok raw =>
      ask (.delay 10)
      pollWindow n (min low raw) (max high raw)

/-- Polls the microphone a hundred times on the time-critical path. A cycle that fails leaves its
session as it is. -/
def loudnessCycle (config : Config) : Routine κ (Except AdcError Unit) := do
  match ← operate (Controller.setupTimeCritical config microphone attenuation) with
  | .error e => return .error e
  | .ok () =>
    match ← pollWindow 100 65535 0 with
    | .error e => return .error e
    | .ok (low, high) =>
      match ← operate (Controller.releaseTimeCritical microphone) with
      | .error e => return .error e
      | .ok () =>
        say .info ("Mic peak-to-peak: " ++ toString (high.toNat - low.toNat) ++ " (raw)")
        return .ok ()

/-! ## The battery monitor -/

/-- Time between two rounds of the battery monitor in milliseconds. -/
def batteryPeriod : Nat := 2000

/-- One round: a burst of 16 conversions, calibrated. The divider halves the voltage. A unit
that is in use is left for the next round. -/
def batteryRound (config : Config) : Routine κ Unit := do
  match ← operate (Controller.sampleOnce config battery attenuation 16) with
  | .error e =>
    if e.isRetryable then say .debug ("Battery read deferred: " ++ e.message) else recover e
  | .ok raw =>
    match ← operate (Controller.calibrate config battery attenuation [raw]) with
    | (.error e, _) => say .warn ("Battery calibration failed: " ++ e.message)
    | (.ok (), samples) =>
      say .info ("Battery: " ++ toString ((samples.headD raw).toNat * 2) ++ " mV (raw "
        ++ toString raw ++ ")")

/-- The battery monitor for `rounds` rounds. -/
def batteryMonitor (config : Config) : (rounds : Nat) → Routine κ Unit
  | 0 => return ()
  | n + 1 => do
    ask (.delay batteryPeriod)
    batteryRound config
    batteryMonitor config n

/-! ## The main loop -/

/-- Streams and polls in turn, `turns` times. -/
def mainLoop (config : Config) : (turns : Nat) → Routine κ Unit
  | 0 => return ()
  | n + 1 => do
    let _ ← recovering (streamCycle config)
    let _ ← recovering (loudnessCycle config)
    mainLoop config n

end SharedAdc.Firmware
