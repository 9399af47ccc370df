/-
Settings that hold for the whole life of a controller.
-/
import SharedAdc.Range

namespace SharedAdc

/-- Settings of a controller. -/
structure Config where
  /-- Resolution of one-shot channels, pattern entries and calibration. -/
  width : BitWidth := .bits12
  /-- Size of one conversion record in a continuous frame. -/
  bytesPerSample : UInt64 := 4
  /-- The highest sample rate that a continuous session may ask for. -/
  maxRate : UInt32 := 83333
  deriving DecidableEq

end SharedAdc
