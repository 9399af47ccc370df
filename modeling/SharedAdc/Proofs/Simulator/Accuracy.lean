/-
How exact a simulated measurement is. A code is the voltage on the scale of the range, rounded down, with
noise that is cut off at both ends of the scale; a measurement is the average of such codes, rounded down
as well, and calibrating it rounds down once more. The words of the computation are wide enough for all of
this, so the bounds are those of the formulas.
-/
import Mathlib.Algebra.Order.BigOperators.Group.List
import Mathlib.Algebra.Order.Floor.Div
import SharedAdc.Proofs.Simulator.Codes
import SharedAdc.Proofs.Simulator.Random

namespace SharedAdc

/-! ## Scales -/

namespace Range

/-- The voltage at the upper end of the range, in millivolts. -/
def fullScale (range : Range) : Nat := range.attenuation.fullScale.toNat

/-- The code at the upper end of the range. -/
def maxCode (range : Range) : Nat := range.width.maxRaw.toNat

/-- The code of a voltage without noise: its part of the full scale, rounded down. -/
def codeOf (range : Range) (input : UInt32) : Nat :=
  min input.toNat range.fullScale * range.maxCode / range.fullScale

/-- The voltage of a code, rounded down. -/
def voltageOf (range : Range) (code : Nat) : Nat := code * range.fullScale / range.maxCode

theorem fullScale_bounds (range : Range) : 950 ≤ range.fullScale ∧ range.fullScale ≤ 3100 := by
  unfold fullScale
  cases range.attenuation <;> decide

theorem maxCode_bounds (range : Range) : 511 ≤ range.maxCode ∧ range.maxCode ≤ 8191 := by
  unfold maxCode
  cases range.width <;> decide

variable {range : Range}

theorem codeOf_le (range : Range) (input : UInt32) : range.codeOf input ≤ range.maxCode :=
  Nat.div_le_of_le_mul (Nat.mul_le_mul_right _ (Nat.min_le_right _ _))

theorem codeOf_mono (range : Range) {input input' : UInt32} (h : input ≤ input') :
    range.codeOf input ≤ range.codeOf input' :=
  Nat.div_le_div_right (Nat.mul_le_mul_right _ (by
    have := UInt32.le_iff_toNat_le.1 h
    omega))

theorem voltageOf_le {code : Nat} (h : code ≤ range.maxCode) :
    range.voltageOf code ≤ range.fullScale :=
  Nat.div_le_of_le_mul (Nat.mul_le_mul_right _ h)

/-- Rounding down twice on the way to a code and back loses at most one step of the code, and nothing is
gained. -/
theorem voltageOf_codeOf (range : Range) (input : UInt32) :
    range.voltageOf (range.codeOf input) ≤ min input.toNat range.fullScale ∧
      min input.toNat range.fullScale - range.voltageOf (range.codeOf input) ≤
        range.fullScale ⌈/⌉ range.maxCode := by
  have hF : 0 < range.fullScale := by have := range.fullScale_bounds; omega
  have hM : 0 < range.maxCode := by have := range.maxCode_bounds; omega
  unfold voltageOf codeOf
  generalize min input.toNat range.fullScale = x
  generalize range.fullScale = F at hF
  generalize range.maxCode = M at hM
  -- what either division leaves out
  have hcode : x * M / F * F ≤ x * M ∧ x * M < x * M / F * F + F :=
    ⟨Nat.div_mul_le_self _ _, Nat.lt_div_mul_add hF⟩
  have hback : x * M / F * F / M * M ≤ x * M / F * F ∧
      x * M / F * F < x * M / F * F / M * M + M :=
    ⟨Nat.div_mul_le_self _ _, Nat.lt_div_mul_add hM⟩
  refine ⟨Nat.le_of_mul_le_mul_right (hback.1.trans hcode.1) hM, ?_⟩
  rw [Nat.ceilDiv_eq_add_pred_div, Nat.le_div_iff_mul_le hM, Nat.sub_mul]
  omega

/-- With twelve bits or more a step of the code is no more than a millivolt. -/
theorem step_of_le_bits (h : 12 ≤ range.width.bits) : range.fullScale ⌈/⌉ range.maxCode = 1 := by
  have hF := range.fullScale_bounds
  have hM : 4095 ≤ range.maxCode := by
    unfold maxCode
    revert h
    cases range.width <;> decide
  rw [Nat.ceilDiv_eq_add_pred_div, Nat.div_eq_iff (by omega)]
  omega

end Range

namespace Simulator

/-! ## Codes -/

theorem toNat_fullScale (range : Range) :
    range.attenuation.fullScale.toUInt32.toNat = range.fullScale := UInt16.toNat_toUInt32 _

theorem toNat_maxCode (range : Range) :
    range.width.maxRaw.toUInt32.toNat = range.maxCode := UInt16.toNat_toUInt32 _

/-- The scaled voltage fits into a word. -/
theorem scaled_lt (range : Range) (input : UInt32) :
    min input.toNat range.fullScale * range.maxCode < 2 ^ 32 := by
  have hF := range.fullScale_bounds
  have hM := range.maxCode_bounds
  calc min input.toNat range.fullScale * range.maxCode ≤ 3100 * 8191 :=
        Nat.mul_le_mul (by omega) hM.2
    _ < 2 ^ 32 := by decide

theorem toNat_idealCode (input : UInt32) (range : Range) :
    (idealCode input range).toNat = range.codeOf input := by
  have hmin : (min input range.attenuation.fullScale.toUInt32).toNat =
      min input.toNat range.fullScale := by
    rw [← toNat_fullScale]
    change (if _ ≤ _ then _ else _ : UInt32).toNat = _
    split
    · rename_i h
      exact (Nat.min_eq_left (UInt32.le_iff_toNat_le.1 h)).symm
    · rename_i h
      exact (Nat.min_eq_right (Nat.le_of_not_le (mt UInt32.le_iff_toNat_le.2 h))).symm
  unfold idealCode Range.codeOf
  rw [UInt32.toNat_div, UInt32.toNat_mul, hmin, toNat_fullScale, toNat_maxCode,
    Nat.mod_eq_of_lt (scaled_lt range input)]

theorem toInt_max (x y : Int32) : (max x y).toInt = max x.toInt y.toInt := by
  change (if _ ≤ _ then _ else _ : Int32).toInt = _
  split
  · rename_i h
    exact (max_eq_right (Int32.le_iff_toInt_le.1 h)).symm
  · rename_i h
    exact (max_eq_left (le_of_not_ge (mt Int32.le_iff_toInt_le.2 h))).symm

theorem toInt_min (x y : Int32) : (min x y).toInt = min x.toInt y.toInt := by
  change (if _ ≤ _ then _ else _ : Int32).toInt = _
  split
  · rename_i h
    exact (min_eq_left (Int32.le_iff_toInt_le.1 h)).symm
  · rename_i h
    exact (min_eq_right (le_of_not_ge (mt Int32.le_iff_toInt_le.2 h))).symm

/-- A code is the ideal one with the noise on it, cut off at both ends of the scale. -/
theorem toNat_convert {peak : UInt16} {noise : Int32} (h : Generator.IsWithin peak noise)
    (input : UInt32) (range : Range) : ((convert input range noise).toNat : Int) =
      max 0 (min (range.maxCode : Int) (range.codeOf input + noise.toInt)) := by
  have hM := range.maxCode_bounds
  have hcode := range.codeOf_le input
  have hpeak : peak.toNat < 2 ^ 16 := peak.toNat_lt
  obtain ⟨hlow, hhigh⟩ := h
  have htop : range.width.maxRaw.toUInt32.toInt32.toInt = range.maxCode := by
    rw [toInt_toInt32 (by rw [toNat_maxCode]; omega), toNat_maxCode]
  have hsum : ((idealCode input range).toInt32 + noise).toInt = range.codeOf input + noise.toInt := by
    rw [Int32.toInt_add, toInt_toInt32 (by rw [toNat_idealCode]; omega), toNat_idealCode]
    exact bmod_eq_self (by omega) (by omega)
  unfold convert
  dsimp only
  generalize hkept : max 0 (min range.width.maxRaw.toUInt32.toInt32
    ((idealCode input range).toInt32 + noise)) = kept
  have hkept' : kept.toInt = max 0 (min (range.maxCode : Int) (range.codeOf input + noise.toInt)) := by
    rw [← hkept, toInt_max, toInt_min, htop, hsum]
    rfl
  have hnonneg : 0 ≤ kept := Int32.le_iff_toInt_le.2 (by rw [hkept']; exact le_max_left _ _)
  have hword := toNat_toUInt32_of_nonneg hnonneg
  rw [UInt32.toNat_toUInt16, Nat.mod_eq_of_lt (by omega), hword, hkept']

/-- A code of the range has a voltage. -/
theorem exists_millivolts {range : Range} {raw : UInt16} (h : raw.toNat ≤ range.maxCode) :
    ∃ mv, millivolts? range raw = some mv ∧ mv.toNat = range.voltageOf raw.toNat := by
  have hF := range.fullScale_bounds
  have hM := range.maxCode_bounds
  have hproduct : raw.toNat * range.fullScale < 2 ^ 32 := by
    calc raw.toNat * range.fullScale ≤ 8191 * 3100 := Nat.mul_le_mul (by omega) hF.2
      _ < 2 ^ 32 := by decide
  have hvoltage := Range.voltageOf_le h
  refine ⟨_, if_pos (UInt16.le_iff_toNat_le.2 h), ?_⟩
  rw [UInt32.toNat_toUInt16, UInt32.toNat_div, UInt32.toNat_mul, UInt16.toNat_toUInt32,
    toNat_fullScale, toNat_maxCode, Nat.mod_eq_of_lt hproduct]
  exact Nat.mod_eq_of_lt (Nat.lt_of_le_of_lt hvoltage (by omega))

/-! ## Averages -/

theorem average_le {codes : List Nat} {b : Nat} (h : ∀ code ∈ codes, code ≤ b) :
    codes.sum / codes.length ≤ b :=
  Nat.div_le_of_le_mul (List.sum_le_card_nsmul codes b h)

theorem le_average {codes : List Nat} {a : Nat} (hne : codes ≠ []) (h : ∀ code ∈ codes, a ≤ code) :
    a ≤ codes.sum / codes.length := by
  rw [Nat.le_div_iff_mul_le (List.length_pos_iff.2 hne), Nat.mul_comm]
  exact List.card_nsmul_le_sum codes a h

/-- The codes of a voltage, one for each draw of noise. -/
def codesOf (range : Range) (draws : List Int32) (input : UInt32) : List Nat :=
  draws.map fun noise => (convert input range noise).toNat

/-- The average of the codes, rounded down. -/
def averageCode (range : Range) (draws : List Int32) (input : UInt32) : Nat :=
  (codesOf range draws input).sum / draws.length

/-- What noise of at most `peak` leaves of a measurement, for every voltage. -/
structure Accurate (range : Range) (peak : UInt16) (draws : List Int32) : Prop where
  lower : ∀ input, range.codeOf input - peak.toNat ≤ averageCode range draws input
  upper : ∀ input, averageCode range draws input ≤
    min range.maxCode (range.codeOf input + peak.toNat)
  monotone : ∀ input input', input ≤ input' →
    averageCode range draws input ≤ averageCode range draws input'
  calibrated : ∀ input, range.voltageOf (averageCode range draws input) ≤ range.fullScale
  /-- Without noise the voltage is recovered up to one step of the code. -/
  recovered : peak = 0 → ∀ input,
    let mv := range.voltageOf (averageCode range draws input)
    mv ≤ min input.toNat range.fullScale ∧
      min input.toNat range.fullScale - mv ≤ range.fullScale ⌈/⌉ range.maxCode ∧
      (12 ≤ range.width.bits → min input.toNat range.fullScale - mv ≤ 1)

/-- No word of a measurement overflows, nor any of its calibration. -/
structure NoOverflow (range : Range) (draws : List Int32) (input : UInt32) : Prop where
  scaled : min input.toNat range.fullScale * range.maxCode < 2 ^ 32
  noisy : ∀ noise ∈ draws, -2 ^ 31 ≤ range.codeOf input + noise.toInt ∧
    range.codeOf input + noise.toInt < 2 ^ 31
  total : (codesOf range draws input).sum < 2 ^ 64
  calibrated : averageCode range draws input * range.fullScale < 2 ^ 32

section

variable {range : Range} {peak : UInt16} {draws : List Int32}

theorem length_codesOf (range : Range) (draws : List Int32) (input : UInt32) :
    (codesOf range draws input).length = draws.length :=
  List.length_map _

theorem sum_codesOf_le (range : Range) (draws : List Int32) (input : UInt32) :
    (codesOf range draws input).sum ≤ draws.length * 65535 := by
  rw [← length_codesOf range draws input]
  refine List.sum_le_card_nsmul _ _ fun code hcode => ?_
  obtain ⟨noise, -, rfl⟩ := List.mem_map.1 hcode
  exact Nat.le_of_lt_succ (convert input range noise).toNat_lt

theorem mem_codesOf (hdraws : ∀ noise ∈ draws, Generator.IsWithin peak noise) {input : UInt32}
    {code : Nat} (h : code ∈ codesOf range draws input) : range.codeOf input - peak.toNat ≤ code ∧
      code ≤ min range.maxCode (range.codeOf input + peak.toNat) := by
  obtain ⟨noise, hnoise, rfl⟩ := List.mem_map.1 h
  have hcode := toNat_convert (hdraws noise hnoise) input range
  have hle := range.codeOf_le input
  obtain ⟨hlow, hhigh⟩ := hdraws noise hnoise
  omega

theorem averageCode_bounds (range : Range) (hne : draws ≠ [])
    (hdraws : ∀ noise ∈ draws, Generator.IsWithin peak noise) (input : UInt32) :
    range.codeOf input - peak.toNat ≤ averageCode range draws input ∧
      averageCode range draws input ≤ min range.maxCode (range.codeOf input + peak.toNat) := by
  unfold averageCode
  rw [← length_codesOf range draws input]
  exact ⟨le_average (by simpa [codesOf] using hne) fun code hcode => (mem_codesOf hdraws hcode).1,
    average_le fun code hcode => (mem_codesOf hdraws hcode).2⟩

theorem averageCode_mono (hdraws : ∀ noise ∈ draws, Generator.IsWithin peak noise)
    {input input' : UInt32} (h : input ≤ input') :
    averageCode range draws input ≤ averageCode range draws input' := by
  refine Nat.div_le_div_right (List.sum_le_sum fun noise hnoise => ?_)
  have hcode := toNat_convert (hdraws noise hnoise) input range
  have hcode' := toNat_convert (hdraws noise hnoise) input' range
  have hmono := range.codeOf_mono h
  omega

theorem accurate_of_isWithin (hne : draws ≠ [])
    (hdraws : ∀ noise ∈ draws, Generator.IsWithin peak noise) : Accurate range peak draws where
  lower input := (averageCode_bounds range hne hdraws input).1
  upper input := (averageCode_bounds range hne hdraws input).2
  monotone _ _ := averageCode_mono hdraws
  calibrated input := Range.voltageOf_le <|
    (averageCode_bounds range hne hdraws input).2.trans (Nat.min_le_left _ _)
  recovered hquiet input := by
    have hexact : averageCode range draws input = range.codeOf input := by
      have hbounds := averageCode_bounds range hne hdraws input
      rw [hquiet] at hbounds
      exact Nat.le_antisymm (hbounds.2.trans (Nat.min_le_right _ _)) hbounds.1
    rw [hexact]
    obtain ⟨hle, hstep⟩ := range.voltageOf_codeOf input
    exact ⟨hle, hstep, fun hbits => hstep.trans (Range.step_of_le_bits hbits).le⟩

theorem noOverflow_of_isWithin (hne : draws ≠ []) (hlength : draws.length < 2 ^ 32)
    (hdraws : ∀ noise ∈ draws, Generator.IsWithin peak noise) (input : UInt32) :
    NoOverflow range draws input where
  scaled := scaled_lt range input
  noisy noise hnoise := by
    obtain ⟨hlow, hhigh⟩ := hdraws noise hnoise
    have hpeak : peak.toNat < 2 ^ 16 := peak.toNat_lt
    have hle := range.codeOf_le input
    have hM := range.maxCode_bounds
    omega
  total := by
    have hsum := sum_codesOf_le range draws input
    omega
  calibrated := by
    have hF := range.fullScale_bounds
    have hM := range.maxCode_bounds
    have hcode := (averageCode_bounds range hne hdraws input).2
    calc averageCode range draws input * range.fullScale ≤ 8191 * 3100 :=
          Nat.mul_le_mul (by omega) hF.2
      _ < 2 ^ 32 := by decide

end

end Simulator

end SharedAdc
