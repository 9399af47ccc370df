/-
Settings of a simulated unit, and the two of them that can be given as text.
-/
import SharedAdc.Text.Numeral

namespace SharedAdc.Simulator

/-- Settings of a simulated unit. -/
structure Settings where
  /-- Peak of the noise on every conversion, in steps of the code. -/
  noise : UInt16 := 4
  seed : UInt64 := 0x5eed
  /-- The voltage that every channel starts at, in millivolts. -/
  input : UInt32 := 1650
  /-- The shortest time between two frames of a stream, in microseconds. -/
  minInterval : Nat := 1000
  deriving DecidableEq

/-- The settings with the seed and the noise that are given as text; text that is no number in
range is left out of account. -/
def Settings.override (s : Settings) (seed noise : Option String) : Settings :=
  { s with
    seed := ((seed.bind (Text.readUnsigned? UInt64.size)).map UInt64.ofNat).getD s.seed
    noise := ((noise.bind (Text.readUnsigned? UInt16.size)).map UInt16.ofNat).getD s.noise }

end SharedAdc.Simulator
