/-
Hexadecimal text of numbers: the mark `0x`, then lower-case digits filled up with zeros.
-/
import SharedAdc.Text.Padding

namespace SharedAdc.Text

/-- The hexadecimal text of `n` with at least `digits` digits. -/
def hex (digits n : Nat) : String :=
  "0x" ++ padLeft digits '0' (String.ofList (Nat.toDigits 16 n))

end SharedAdc.Text
