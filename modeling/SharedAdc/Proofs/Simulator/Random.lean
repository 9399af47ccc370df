/-
What the generator draws lies in the range that was asked for, whatever its state: the carry of a second
half word is added only to an upper half that has room for it.
-/
import Mathlib.Algebra.Order.Ring.Nat
import SharedAdc.Simulator.Random

namespace SharedAdc.Simulator

/-! ## Signed words -/

/-- A small word read as a signed one. -/
theorem toInt_toInt32 {x : UInt32} (h : x.toNat < 2 ^ 31) : x.toInt32.toInt = x.toNat := by
  have hint : x.toInt32.toInt = x.toBitVec.toInt := rfl
  have hnat : x.toBitVec.toNat = x.toNat := rfl
  rw [hint, BitVec.toInt_eq_toNat_of_lt (by omega), hnat]

/-- A signed number that fits into 32 bits is kept. -/
theorem bmod_eq_self {x : Int} (hlow : -2 ^ 31 ≤ x) (hhigh : x < 2 ^ 31) : x.bmod (2 ^ 32) = x :=
  Int.bmod_eq_of_le (by omega) (by omega)

/-! ## Products of half words -/

theorem toNat_wideProduct (a b : UInt32) :
    (wideProduct a b).1.toNat = a.toNat * b.toNat / 2 ^ 32 ∧
      (wideProduct a b).2.toNat = a.toNat * b.toNat % 2 ^ 32 := by
  have hproduct : a.toNat * b.toNat < 2 ^ 32 * 2 ^ 32 :=
    Nat.mul_lt_mul_of_lt_of_lt a.toNat_lt b.toNat_lt
  have hword : (a.toUInt64 * b.toUInt64).toNat = a.toNat * b.toNat := by
    rw [UInt64.toNat_mul, UInt32.toNat_toUInt64, UInt32.toNat_toUInt64]
    exact Nat.mod_eq_of_lt hproduct
  refine ⟨?_, by rw [wideProduct, UInt64.toNat_toUInt32, hword]⟩
  have hshift : (32 : UInt64).toNat % 64 = 32 := rfl
  rw [wideProduct, UInt64.toNat_toUInt32, UInt64.toNat_shiftRight, hword, hshift,
    Nat.shiftRight_eq_div_pow]
  exact Nat.mod_eq_of_lt (Nat.div_lt_of_lt_mul hproduct)

/-- The upper half of the product of a half word with `range` is below `range`. -/
theorem high_wideProduct_lt (word : UInt32) {range : UInt32} (h : 0 < range.toNat) :
    (wideProduct word range).1.toNat < range.toNat := by
  rw [(toNat_wideProduct word range).1]
  exact Nat.div_lt_of_lt_mul (Nat.mul_lt_mul_of_pos_right word.toNat_lt h)

/-- Above `2^32 - range` the lower half leaves room for one more in the upper half. -/
theorem succ_high_wideProduct_lt (word : UInt32) {range : UInt32}
    (hlow : 2 ^ 32 < (wideProduct word range).2.toNat + range.toNat) :
    (wideProduct word range).1.toNat + 1 < range.toNat := by
  obtain ⟨hhigh, hrest⟩ := toNat_wideProduct word range
  have hsplit : 2 ^ 32 * (wideProduct word range).1.toNat + (wideProduct word range).2.toNat =
      word.toNat * range.toNat := by
    rw [hhigh, hrest, Nat.div_add_mod]
  have hword : word.toNat * range.toNat + range.toNat ≤ 2 ^ 32 * range.toNat := by
    rw [← Nat.succ_mul]
    exact Nat.mul_le_mul_right _ word.toNat_lt
  omega

namespace Generator

/-! ## Draws -/

theorem below_lt (g : Generator) {range : UInt32} (h : 0 < range.toNat) :
    (g.below range).1.toNat < range.toNat := by
  have hneg : (0 - range).toNat = 2 ^ 32 - range.toNat := by
    have hzero : (0 : UInt32).toNat = 0 := rfl
    have hlt := range.toNat_lt
    rw [UInt32.toNat_sub, hzero, Nat.add_zero]
    exact Nat.mod_eq_of_lt (by omega)
  unfold below
  dsimp only
  split
  · exact high_wideProduct_lt _ h
  · rename_i hopen
    rw [UInt32.not_le, UInt32.lt_iff_toNat_lt, hneg] at hopen
    have hroom : (wideProduct g.nextHalf.1 range).1.toNat + 1 < range.toNat :=
      succ_high_wideProduct_lt _ (by omega)
    have hsucc : ((wideProduct g.nextHalf.1 range).1 + 1).toNat =
        (wideProduct g.nextHalf.1 range).1.toNat + 1 := by
      have hlt := range.toNat_lt
      rw [UInt32.toNat_add]
      exact Nat.mod_eq_of_lt (by
        change _ + 1 < _
        omega)
    dsimp only
    split
    · exact Nat.lt_of_succ_lt hroom
    · rw [hsucc]
      exact hroom

/-- The noise is at most `peak` in either direction. -/
def IsWithin (peak : UInt16) (noise : Int32) : Prop :=
  -(peak.toNat : Int) ≤ noise.toInt ∧ noise.toInt ≤ peak.toNat

instance (peak : UInt16) (noise : Int32) : Decidable (IsWithin peak noise) :=
  inferInstanceAs (Decidable (_ ∧ _))

theorem within_isWithin (g : Generator) (peak : UInt16) : IsWithin peak (g.within peak).1 := by
  have hpeak : peak.toNat < 2 ^ 16 := peak.toNat_lt
  unfold within
  split
  · exact ⟨Int.neg_nonpos_of_nonneg (Int.natCast_nonneg _), Int.natCast_nonneg _⟩
  · have hwidth : (2 * peak.toUInt32 + 1).toNat = 2 * peak.toNat + 1 := by
      rw [UInt32.toNat_add, UInt32.toNat_mul, UInt16.toNat_toUInt32]
      change (2 * peak.toNat % 2 ^ 32 + 1) % 2 ^ 32 = _
      omega
    have hdrawn := @below_lt g (2 * peak.toUInt32 + 1) (by omega)
    rw [hwidth] at hdrawn
    generalize g.below (2 * peak.toUInt32 + 1) = drawn at hdrawn
    have hnoise : (drawn.1.toInt32 - peak.toUInt32.toInt32).toInt = drawn.1.toNat - peak.toNat := by
      rw [Int32.toInt_sub, toInt_toInt32 (by omega),
        toInt_toInt32 (by rw [UInt16.toNat_toUInt32]; omega), UInt16.toNat_toUInt32]
      exact bmod_eq_self (by omega) (by omega)
    change IsWithin peak (drawn.1.toInt32 - peak.toUInt32.toInt32)
    unfold IsWithin
    omega

/-- The next `n` draws. -/
def draws (g : Generator) (peak : UInt16) : Nat → List Int32 × Generator
  | 0 => ([], g)
  | n + 1 =>
    let (noise, g) := g.within peak
    let (noises, g) := g.draws peak n
    (noise :: noises, g)

theorem length_draws (g : Generator) (peak : UInt16) (n : Nat) :
    (g.draws peak n).1.length = n := by
  induction n generalizing g with
  | zero => rfl
  | succ n ih => exact congrArg (· + 1) (ih _)

theorem isWithin_of_mem_draws {g : Generator} {peak : UInt16} {n : Nat} {noise : Int32}
    (h : noise ∈ (g.draws peak n).1) : IsWithin peak noise := by
  induction n generalizing g with
  | zero => cases h
  | succ n ih =>
    rcases List.mem_cons.1 h with rfl | hlater
    · exact g.within_isWithin peak
    · exact ih hlater

end Generator

end SharedAdc.Simulator
