/-
The dashboard: a selected channel, the settings for the next session, the sessions that it has
started itself, and the latest readings. Keys and ticks work on a controller that other callers
may use as well.
-/
import SharedAdc.Controller.Calibration
import SharedAdc.Controller.Continuous
import SharedAdc.Controller.OneShot
import SharedAdc.Frame.Consumer

namespace SharedAdc

/-! ## State -/

namespace Dashboard

/-- The readings last taken of one channel. -/
structure Readout where
  oneShot : Option UInt16 := none
  stream : Option UInt16 := none
  timeCritical : Option UInt16 := none
  deriving DecidableEq

end Dashboard

/-- The dashboard. -/
structure Dashboard where
  selected : Channel := 0
  attenuation : Attenuation := .standard
  /-- The channels of the next stream. -/
  streamMask : Mask := .ofList [0, 1]
  /-- The channels of the stream that the dashboard has started. -/
  streaming : Option Mask := none
  /-- The channel that the dashboard has armed. -/
  timeCritical : Option Channel := none
  readouts : Vector Dashboard.Readout 10 := Vector.replicate 10 {}
  quit : Bool := false

namespace Dashboard

/-- Changes the readings of a channel. -/
def updateReadout (d : Dashboard) (c : Channel) (f : Readout → Readout) : Dashboard :=
  { d with readouts := d.readouts.set c.number (f (d.readouts.get c.index)) c.number_lt }

/-! ## Questions -/

/-- What the dashboard asks of its surroundings. -/
inductive Question (κ : Type) where
  | controller (q : Controller.Question κ Consumer)
  /-- The voltage at a channel in millivolts. -/
  | input (channel : Channel)
  | setInput (channel : Channel) (mv : UInt32)
  | injectFault
  | takeAverage (channel : Channel)
  | resetAverages
  | say (entry : LogEntry)

/-- What the surroundings answer. -/
@[reducible] def Answer {κ : Type} : Question κ → Type
  | .controller q => Controller.Answer q
  | .input _ => UInt32
  | .takeAverage _ => Option UInt16
  | _ => Unit

/-- An action of the dashboard with result `α`. -/
abbrev Action (κ α : Type) := Program (Question κ) Answer α

/-- What comes of an action that changes the dashboard. -/
abbrev Change := Except AdcError Unit × Dashboard

variable {κ : Type}

/-- Asks one question. -/
def ask (q : Question κ) : Action κ (Answer q) := .query q

/-- Logs an entry. -/
def say (level : LogLevel) (message : String) : Action κ Unit := ask (.say ⟨level, message⟩)

/-- Runs an operation of the controller. -/
def operate {α : Type} (operation : Controller.Operation κ Consumer α) : Action κ α :=
  operation.lift fun q => ask (.controller q)

/-! ## Inputs and settings -/

/-- The step by which a key changes an input, in millivolts. -/
def inputStep : UInt32 := 50

/-- The highest voltage that keys can set, in millivolts. -/
def maxInput : UInt32 := 3300

/-- Raises the input of the selected channel by one step, at most to the highest voltage. -/
def raiseInput (d : Dashboard) : Action κ Change := do
  let mv ← ask (.input d.selected)
  ask (.setInput d.selected (min (mv + inputStep) maxInput))
  return (.ok (), d)

/-- Lowers the input of the selected channel by one step, at most to zero. -/
def lowerInput (d : Dashboard) : Action κ Change := do
  let mv ← ask (.input d.selected)
  ask (.setInput d.selected (if mv < inputStep then 0 else mv - inputStep))
  return (.ok (), d)

/-- The channel before the selected one, if there is one. -/
def selectPrevious (d : Dashboard) : Dashboard :=
  { d with selected := (Channel.ofIndex? (d.selected.number - 1)).getD d.selected }

/-- The channel after the selected one, if there is one. -/
def selectNext (d : Dashboard) : Dashboard :=
  { d with selected := (Channel.ofIndex? (d.selected.number + 1)).getD d.selected }

/-- Puts the selected channel into the next stream, or takes it out. -/
def toggleInMask (d : Dashboard) : Dashboard :=
  { d with streamMask :=
      if d.streamMask.contains d.selected then d.streamMask.erase d.selected
      else d.streamMask.insert d.selected }

/-- Goes on to the next attenuation. -/
def cycleAttenuation (d : Dashboard) : Action κ Change := do
  let attenuation := d.attenuation.next
  say .info ("Attenuation set to " ++ attenuation.text)
  return (.ok (), { d with attenuation })

/-! ## Sessions -/

/-- Samples the selected channel once and shows the voltage. -/
def sampleSelected (config : Config) (d : Dashboard) : Action κ Change := do
  match ← operate (Controller.sampleOnce config d.selected d.attenuation 16) with
  | .error e => return (.error e, d)
  | .ok raw =>
    match ← operate (Controller.calibrate config d.selected d.attenuation [raw]) with
    | (.error e, _) => return (.error e, d)
    | (.ok (), samples) =>
      let mv := samples.headD raw
      say .info (d.selected.text ++ ": raw " ++ toString raw ++ " -> " ++ toString mv ++ " mV")
      return (.ok (), d.updateReadout d.selected fun r => { r with oneShot := some mv })

/-- The stream that the dashboard starts: 32 samples per channel and frame at 20 kHz. -/
def streamRequest (d : Dashboard) : ContinuousRequest Consumer where
  mask := d.streamMask
  attenuation := d.attenuation
  samplesPerChannel := 32
  rate := 20000
  callback := some .average

/-- Stops the stream that the dashboard has started, or starts one. A stream counts as stopped
even if stopping it fails. -/
def toggleStream (config : Config) (d : Dashboard) : Action κ Change := do
  match d.streaming with
  | some mask =>
    let result ← operate (Controller.stopContinuous mask)
    return (result, { d with streaming := none })
  | none =>
    ask .resetAverages
    match ← operate (Controller.startContinuous config d.streamRequest) with
    | .error e => return (.error e, d)
    | .ok () => return (.ok (), { d with streaming := some d.streamMask })

/-- Ends the time-critical session that the dashboard has started, or starts one. A session
counts as ended even if ending it fails. -/
def toggleTimeCritical (config : Config) (d : Dashboard) : Action κ Change := do
  match d.timeCritical with
  | some channel =>
    let result ← operate (Controller.releaseTimeCritical channel)
    return (result, { d with timeCritical := none })
  | none =>
    match ← operate (Controller.setupTimeCritical config d.selected d.attenuation) with
    | .error e => return (.error e, d)
    | .ok () => return (.ok (), { d with timeCritical := some d.selected })

/-- Brings the unit back to the idle state. -/
def reinit (d : Dashboard) : Action κ Change := do
  let result ← operate Controller.reinit
  return (result, { d with streaming := none, timeCritical := none })

/-! ## Keys -/

/-- A key of the keyboard; for a character it is known whether the control key is held. -/
inductive Key where
  | escape
  | up
  | down
  | left
  | right
  | enter
  | tab
  | char (c : Char) (control : Bool)

/-- Does what a key stands for. -/
def handleKey (config : Config) (d : Dashboard) (key : Key) : Action κ Change :=
  match key with
  | .escape => return (.ok (), { d with quit := true })
  | .up => return (.ok (), d.selectPrevious)
  | .down => return (.ok (), d.selectNext)
  | .left => d.lowerInput
  | .right => d.raiseInput
  | .enter | .tab => return (.ok (), d)
  | .char c control =>
    if c = 'q' then return (.ok (), { d with quit := true })
    else if c = 'c' && control then do
      say .info "Ctrl+C pressed, shutting down"
      return (.ok (), { d with quit := true })
    else match c with
      | '-' => d.lowerInput
      | '+' | '=' => d.raiseInput
      | ' ' => return (.ok (), d.toggleInMask)
      | 'a' => d.cycleAttenuation
      | 's' => d.sampleSelected config
      | 'c' => d.toggleStream config
      | 't' => d.toggleTimeCritical config
      | 'f' => do
        say .warn "Next hardware call will fail"
        ask .injectFault
        return (.ok (), d)
      | 'r' => d.reinit
      | _ => return (.ok (), d)

/-! ## Ticks -/

/-- Calibrates the averages of the streamed channels that have one. -/
def readStream (config : Config) (d : Dashboard) : List Channel → Action κ Change
  | [] => return (.ok (), d)
  | channel :: channels => do
    match ← ask (.takeAverage channel) with
    | none => d.readStream config channels
    | some raw =>
      match ← operate (Controller.calibrate config channel d.attenuation [raw]) with
      | (.error e, _) => return (.error e, d)
      | (.ok (), samples) =>
        (d.updateReadout channel fun r => { r with stream := some (samples.headD raw) }).readStream
          config channels

/-- Takes a reading of the armed channel. -/
def readTimeCritical (d : Dashboard) : Action κ Change := do
  match d.timeCritical with
  | none => return (.ok (), d)
  | some channel =>
    match ← operate (Controller.sampleTimeCritical channel 4) with
    | .error e => return (.error e, d)
    | .ok raw =>
      return (.ok (), d.updateReadout channel fun r => { r with timeCritical := some raw })

/-- Takes fresh readings of the live sessions. -/
def tick (config : Config) (d : Dashboard) : Action κ Change := do
  let channels := (d.streaming.map Mask.toList).getD []
  match ← d.readStream config channels with
  | (.error e, d) => return (.error e, d)
  | (.ok (), d) => d.readTimeCritical

/-- Logs the error of an action, with a hint if the unit has to be brought back. -/
def report (result : Except AdcError Unit) : Action κ Unit :=
  match result with
  | .ok () => return ()
  | .error e =>
    if e.requiresReinit then say .error (e.message ++ " (press R to re-initialize)")
    else say .warn e.message

end Dashboard

end SharedAdc
