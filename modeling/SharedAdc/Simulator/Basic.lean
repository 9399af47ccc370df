/-
A simulated unit behind the hardware calls. Each channel has an input voltage. A stream has a
producer that makes frames from the inputs, going through the pattern of the session from frame
to frame. One call can be made to fail; a call that fails changes nothing else.
-/
import SharedAdc.Frame.Record
import SharedAdc.Frame.Slot
import SharedAdc.Hardware
import SharedAdc.Log
import SharedAdc.Simulator.Conversion
import SharedAdc.Simulator.Random
import SharedAdc.Simulator.Settings
import SharedAdc.Text.Duration
import SharedAdc.Text.Hex

namespace SharedAdc.Simulator

/-- A calibration context of the simulated unit is the range that it was opened for. -/
abbrev Call := HardwareCall Range

/-! ## Streams -/

/-- What makes the frames of a running stream. -/
structure Producer where
  pattern : List PatternEntry
  frameBytes : UInt32
  noise : UInt16
  generator : Generator
  target : SlotName
  /-- The number of records made so far. -/
  made : Nat := 0
  /-- Whether a callback has broken the producer; it makes no more frames then. -/
  broken : Bool := false

/-- The continuous path. -/
structure Stream where
  frameBytes : Option UInt32 := none
  rate : UInt32 := 0
  pattern : List PatternEntry := []
  slot : Option SlotName := none
  producer : Option Producer := none

namespace Producer

/-- The next record, from the entry of the pattern whose turn it is. -/
def makeRecord (p : Producer) (inputs : Vector UInt32 10) : Option (Record × Producer) :=
  p.pattern[p.made % p.pattern.length]?.map fun entry =>
    let (noise, generator) := p.generator.within p.noise
    ({ unit := 0
       channel := UInt8.ofNat entry.channel.number
       raw := convert (inputs.get entry.channel.index) entry.range noise },
      { p with generator, made := p.made + 1 })

/-- The next `n` records. -/
def makeRecords (p : Producer) (inputs : Vector UInt32 10) : Nat → List Record × Producer
  | 0 => ([], p)
  | n + 1 =>
    match p.makeRecord inputs with
    | none => ([], p)
    | some (r, p) =>
      let (rs, p) := p.makeRecords inputs n
      (r :: rs, p)

/-- The next frame: as many records as fit into it. -/
def makeFrame (p : Producer) (inputs : Vector UInt32 10) : Frame × Producer :=
  let (records, p) := p.makeRecords inputs (p.frameBytes.toNat / Record.size)
  (Frame.encode records, p)

end Producer

end SharedAdc.Simulator

namespace SharedAdc

/-! ## The unit -/

/-- A simulated unit. -/
structure Simulator where
  noise : UInt16
  /-- The shortest time between two frames, in microseconds. -/
  minInterval : Nat
  inputs : Vector UInt32 10
  /-- The one-shot unit with the ranges that its channels are set up for. -/
  oneShot : Option (Vector (Option Range) 10) := none
  stream : Simulator.Stream := {}
  generator : Simulator.Generator
  /-- Whether the next call is to fail. -/
  fault : Bool := false

namespace Simulator

open HardwareFault (invalidArgument invalidState)

/-- A new unit. -/
def ofSettings (s : Settings) : Simulator where
  noise := s.noise
  minInterval := s.minInterval
  inputs := Vector.replicate 10 s.input
  generator := .ofSeed s.seed

/-- What a new unit logs. -/
def readyEntry (s : Settings) : LogEntry :=
  ⟨.info, "Simulated ADC ready (seed " ++ Text.hex 1 s.seed.toNat ++ ", noise ±"
    ++ toString s.noise ++ " LSB)"⟩

/-- The voltage at a channel in millivolts. -/
def input (sim : Simulator) (c : Channel) : UInt32 := sim.inputs.get c.index

def setInput (sim : Simulator) (c : Channel) (mv : UInt32) : Simulator :=
  { sim with inputs := sim.inputs.set c.number mv c.number_lt }

/-- Makes the next call fail. -/
def injectFault (sim : Simulator) : Simulator := { sim with fault := true }

def isStreaming (sim : Simulator) : Bool := sim.stream.producer.isSome

/-- The time that the conversions of one frame take at a rate, in microseconds. -/
def framePeriod (frameBytes rate : UInt32) : UInt64 :=
  frameBytes.toUInt64 / 4 * 1000000 / rate.toUInt64

/-- The time between two frames in microseconds. -/
def frameInterval (sim : Simulator) (frameBytes rate : UInt32) : Nat :=
  max (framePeriod frameBytes rate).toNat sim.minInterval

/-- What ending a producer logs; that it is broken comes out only then. -/
def endEntries : Option Producer → List LogEntry
  | some { broken := true, .. } => [⟨.error, "Frame producer panicked"⟩]
  | _ => []

/-! ## Calls -/

/-- Routes the frames of the next stream to a slot. -/
def registerSlot (sim : Simulator) (slot : SlotName) : Except HardwareFault Unit × Simulator :=
  match sim.stream.frameBytes with
  | none => (.error ⟨.registerFrameSlot, invalidState⟩, sim)
  | some _ => (.ok (), { sim with stream := { sim.stream with slot := some slot } })

/-- Starts a producer on the driver as it is set up. The producer draws from a generator of its
own. -/
def startStream (sim : Simulator) : Except HardwareFault Unit × List LogEntry × Simulator :=
  match sim.stream with
  | { frameBytes := some frameBytes, slot := some target, producer := none, rate, pattern } =>
    if pattern.isEmpty then (.error ⟨.startContinuous, invalidState⟩, [], sim)
    else
      let (own, generator) := sim.generator.split
      let producer : Producer :=
        { pattern, frameBytes, target, noise := sim.noise, generator := own }
      let interval := Text.microseconds (sim.frameInterval frameBytes rate)
      (.ok (), [⟨.debug, "Frame producer started, one frame every " ++ interval⟩],
        { sim with generator, stream := { sim.stream with producer := some producer } })
  | _ => (.error ⟨.startContinuous, invalidState⟩, [], sim)

/-- Carries out a call that is not made to fail. -/
def carryOut (sim : Simulator) : (call : Call) → call.Reply × List LogEntry × Simulator
  | .createOneShotUnit =>
    match sim.oneShot with
    | some _ => (.error ⟨.createOneShotUnit, invalidState⟩, [], sim)
    | none => (.ok (), [], { sim with oneShot := some (Vector.replicate 10 none) })
  | .configureOneShotChannel channel range =>
    match sim.oneShot with
    | none => (.error ⟨.configureOneShotChannel, invalidState⟩, [], sim)
    | some ranges =>
      (.ok (), [], { sim with
        oneShot := some (ranges.set channel.number (some range) channel.number_lt) })
  | .readOneShot channel =>
    match sim.oneShot.bind fun ranges => ranges.get channel.index with
    | none => (.error ⟨.readOneShot, invalidState⟩, [], sim)
    | some range =>
      let (noise, generator) := sim.generator.within sim.noise
      (.ok (convert (sim.input channel) range noise), [], { sim with generator })
  | .deleteOneShotUnit =>
    match sim.oneShot with
    | none => (.error ⟨.deleteOneShotUnit, invalidState⟩, [], sim)
    | some _ => (.ok (), [], { sim with oneShot := none })
  | .createContinuous bufferBytes frameBytes =>
    if frameBytes = 0 ∨ bufferBytes < frameBytes ∨ frameBytes.toNat % Record.size ≠ 0 then
      (.error ⟨.createContinuous, invalidArgument⟩, [], sim)
    else
      match sim.stream.frameBytes with
      | some _ => (.error ⟨.createContinuous, invalidState⟩, [], sim)
      | none =>
        (.ok (), [], { sim with stream := { sim.stream with frameBytes := some frameBytes } })
  | .configureContinuous rate pattern =>
    if pattern.isEmpty ∨ rate = 0 then
      (.error ⟨.configureContinuous, invalidArgument⟩, [], sim)
    else
      match sim.stream.frameBytes with
      | none => (.error ⟨.configureContinuous, invalidState⟩, [], sim)
      | some _ => (.ok (), [], { sim with stream := { sim.stream with rate, pattern } })
  | .registerFrameSlot =>
    let (reply, sim) := sim.registerSlot .controller
    (reply, [], sim)
  | .startContinuous => sim.startStream
  | .stopContinuous =>
    match sim.stream.producer with
    | none => (.error ⟨.stopContinuous, invalidState⟩, [], sim)
    | some producer =>
      (.ok (), endEntries producer, { sim with stream := { sim.stream with producer := none } })
  | .deinitContinuous =>
    match sim.stream.frameBytes with
    | none => (.error ⟨.deinitContinuous, invalidState⟩, [], sim)
    | some _ => (.ok (), endEntries sim.stream.producer, { sim with stream := {} })
  | .createCalibration _ range => (.ok range, [], sim)
  | .applyCalibration range raw =>
    match millivolts? range raw with
    | none => (.error ⟨.applyCalibration, invalidArgument⟩, [], sim)
    | some mv => (.ok mv, [], sim)
  | .deleteCalibration _ => ((), [], sim)

/-- Makes a call that `effect` carries out. It fails instead if a fault is pending and the call
can fail; this uses the fault up. -/
def attempt (sim : Simulator) (call : Call)
    (effect : Simulator → call.Reply × List LogEntry × Simulator) :
    call.Reply × List LogEntry × Simulator :=
  if sim.fault && call.op?.isSome then
    (call.fail HardwareFault.failed, [], { sim with fault := false })
  else effect sim

/-- Makes a call. Answers the reply and what the unit logs. -/
def perform (sim : Simulator) (call : Call) : call.Reply × List LogEntry × Simulator :=
  sim.attempt call fun sim => sim.carryOut call

/-- Makes the call that registers a slot, for any slot. -/
def register (sim : Simulator) (slot : SlotName) :
    Except HardwareFault Unit × List LogEntry × Simulator :=
  sim.attempt .registerFrameSlot fun sim =>
    let (reply, sim) := sim.registerSlot slot
    (reply, [], sim)

/-- Makes the call that registers a slot, for the spare slot. -/
def registerSpare (sim : Simulator) : Except HardwareFault Unit × List LogEntry × Simulator :=
  sim.register (.spare 0)

/-- Makes the next frame of a running stream, if its producer is not broken. -/
def nextFrame (sim : Simulator) : Option (SlotName × Frame × Simulator) :=
  match sim.stream.producer with
  | none => none
  | some producer =>
    if producer.broken then none
    else
      let (frame, producer) := producer.makeFrame sim.inputs
      some (producer.target, frame,
        { sim with stream := { sim.stream with producer := some producer } })

/-- Breaks the producer of a running stream. -/
def breakProducer (sim : Simulator) : Simulator :=
  { sim with stream := { sim.stream with
      producer := sim.stream.producer.map fun p => { p with broken := true } } }

end Simulator

end SharedAdc
