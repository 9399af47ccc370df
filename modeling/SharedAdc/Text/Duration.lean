/-
Text of a duration of whole microseconds: the largest of the units seconds, milliseconds and
microseconds that leaves a whole part, with no zeros at the end of the fraction.
-/
import SharedAdc.Text.Padding

namespace SharedAdc.Text

/-- Drops the zeros that end a run of digits. -/
def trimZeros (digits : List Char) : List Char :=
  (digits.reverse.dropWhile (· == '0')).reverse

/-- A whole part and a fraction of `places` decimals, cut after its last digit that is not zero. -/
def decimal (whole places fraction : Nat) : String :=
  let digits := trimZeros (padLeft places '0' (toString fraction)).toList
  if digits.isEmpty then toString whole else toString whole ++ "." ++ String.ofList digits

/-- The text of a duration of `us` microseconds. -/
def microseconds (us : Nat) : String :=
  if us = 0 then "0ns"
  else if us < 1000 then toString us ++ "µs"
  else if us < 1000000 then decimal (us / 1000) 3 (us % 1000) ++ "ms"
  else decimal (us / 1000000) 6 (us % 1000000) ++ "s"

end SharedAdc.Text
