/-
What a simulated conversion gives: the input voltage on the linear scale of the range, with noise
on it, kept within the codes of the range. Calibration goes the way back.
-/
import SharedAdc.Range

namespace SharedAdc.Simulator

/-- The code of a voltage without noise, rounded down. -/
def idealCode (input : UInt32) (range : Range) : UInt32 :=
  let fullScale := range.attenuation.fullScale.toUInt32
  min input fullScale * range.width.maxRaw.toUInt32 / fullScale

/-- The code of a voltage with `noise` added. -/
def convert (input : UInt32) (range : Range) (noise : Int32) : UInt16 :=
  let code := (idealCode input range).toInt32 + noise
  (max 0 (min range.width.maxRaw.toUInt32.toInt32 code)).toUInt32.toUInt16

/-- The voltage of a code in millivolts, rounded down; a code above the range has none. -/
def millivolts? (range : Range) (raw : UInt16) : Option UInt16 :=
  if raw ≤ range.width.maxRaw then
    some (raw.toUInt32 * range.attenuation.fullScale.toUInt32
      / range.width.maxRaw.toUInt32).toUInt16
  else none

end SharedAdc.Simulator
