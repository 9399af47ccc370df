/-
What a conversion is made with: the attenuation in front of the converter, which sets the
voltage range, and the width of the codes.
-/
import SharedAdc.Channel

namespace SharedAdc

/-! ## Attenuation -/

/-- Input attenuation in decibels. -/
inductive Attenuation where
  | db0
  | db2_5
  | db6
  | db12
  deriving DecidableEq

namespace Attenuation

/-- The attenuation of a caller that names none. -/
def standard : Attenuation := .db12

/-- Upper end of the input range in millivolts. -/
def fullScale : Attenuation → UInt16
  | .db0 => 950
  | .db2_5 => 1250
  | .db6 => 1750
  | .db12 => 3100

/-- The number that stands for the attenuation in requests. -/
def code : Attenuation → Nat
  | .db0 => 0
  | .db2_5 => 1
  | .db6 => 2
  | .db12 => 3

/-- The attenuation that `n` stands for. -/
def ofCode? : Nat → Option Attenuation
  | 0 => some .db0
  | 1 => some .db2_5
  | 2 => some .db6
  | 3 => some .db12
  | _ => none

/-- The next attenuation, the strongest being followed by none at all. -/
def next : Attenuation → Attenuation
  | .db0 => .db2_5
  | .db2_5 => .db6
  | .db6 => .db12
  | .db12 => .db0

/-- The name of the attenuation in messages. -/
def text : Attenuation → String
  | .db0 => "Db0"
  | .db2_5 => "Db2_5"
  | .db6 => "Db6"
  | .db12 => "Db12"

@[simp] theorem ofCode?_code (a : Attenuation) : ofCode? a.code = some a := by cases a <;> rfl

end Attenuation

/-! ## Width of the codes -/

/-- Resolution of a conversion. -/
inductive BitWidth where
  | bits9
  | bits10
  | bits11
  | bits12
  | bits13
  deriving DecidableEq

namespace BitWidth

/-- Number of bits of a code. -/
def bits : BitWidth → Nat
  | .bits9 => 9
  | .bits10 => 10
  | .bits11 => 11
  | .bits12 => 12
  | .bits13 => 13

/-- The resolution with `n` bits, if the unit has it. -/
def ofBits? : Nat → Option BitWidth
  | 9 => some .bits9
  | 10 => some .bits10
  | 11 => some .bits11
  | 12 => some .bits12
  | 13 => some .bits13
  | _ => none

/-- The largest code. -/
def maxRaw (w : BitWidth) : UInt16 := UInt16.ofNat (1 <<< w.bits - 1)

/-- The name of the resolution in messages. -/
def text (w : BitWidth) : String := "Bits" ++ toString w.bits

@[simp] theorem ofBits?_bits (w : BitWidth) : ofBits? w.bits = some w := by cases w <;> rfl

end BitWidth

/-! ## Settings of one channel -/

/-- Attenuation and resolution together. -/
structure Range where
  attenuation : Attenuation
  width : BitWidth
  deriving DecidableEq

/-- One entry of the table that a paced session goes through. -/
structure PatternEntry where
  channel : Channel
  range : Range
  deriving DecidableEq

end SharedAdc
