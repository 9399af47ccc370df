/-
What wraps in an accumulator. The sum of a channel never does, since a code that does not fit is
left out; the number of codes is not watched in the same way. So an average lies among the codes
that were counted as long as there are fewer than `2 ^ 32` of them: always where no code is zero,
and not always on a channel whose input is stuck at zero.
-/
import SharedAdc.Proofs.Frame.Averages

namespace SharedAdc.Accumulator

/-! ## Sums of few and of small codes -/

/-- Codes of which none is zero are at most as many as their sum. -/
theorem length_le_sum {codes : List Nat} (h : 0 ∉ codes) : codes.length ≤ codes.sum := by
  induction codes with
  | nil => exact Nat.le_refl 0
  | cons code codes ih =>
    rw [List.mem_cons, not_or] at h
    have := ih h.2
    rw [List.length_cons, List.sum_cons]
    omega

/-- The average of some codes lies between two of them. -/
theorem average_between {codes : List Nat} (hne : codes ≠ []) :
    (∃ low ∈ codes, low ≤ codes.sum / codes.length) ∧
      ∃ high ∈ codes, codes.sum / codes.length ≤ high := by
  have hpos : 0 < codes.length := List.length_pos_iff.2 hne
  constructor
  · by_contra! habove
    -- were all codes above their average, their sum would be too
    have hsum : codes.length * (codes.sum / codes.length + 1) ≤ codes.sum :=
      List.card_nsmul_le_sum codes _ habove
    exact absurd ((Nat.le_div_iff_mul_le hpos).2 (Nat.mul_comm _ _ ▸ hsum)) (Nat.not_succ_le_self _)
  · by_contra! hbelow
    have hsum : codes.sum < codes.length * (codes.sum / codes.length) := by
      have hlt := List.sum_lt_sum_of_ne_nil hne (fun code => code)
        (fun _ => codes.sum / codes.length) fun code hmem => hbelow code hmem
      simpa using hlt
    exact absurd (Nat.mul_div_le codes.sum codes.length) (Nat.not_le.2 hsum)

/-! ## The average of a tally -/

namespace Counts

variable {t : Tally} {codes : List Nat}

theorem toNat_count (h : Counts t codes) : t.count.toNat = (accepted 0 codes).length % 2 ^ 32 := by
  rw [h.count, UInt32.toNat_ofNat']

/-- There is no average where the number of codes has come round to nothing. -/
theorem average_eq_none_iff (h : Counts t codes) :
    t.average? = none ↔ 2 ^ 32 ∣ (accepted 0 codes).length := by
  have hzero : t.count = 0 ↔ 2 ^ 32 ∣ (accepted 0 codes).length := by
    rw [← UInt32.toNat_inj, h.toNat_count, Nat.dvd_iff_mod_eq_zero]
    rfl
  rw [← hzero, Tally.average?]
  simp

/-- Otherwise the sum is divided by what is left of the number. -/
theorem toNat_average (h : Counts t codes) {value : UInt16} (haverage : t.average? = some value) :
    value.toNat =
      (accepted 0 codes).sum / ((accepted 0 codes).length % 2 ^ 32) % 2 ^ 16 := by
  unfold Tally.average? at haverage
  split at haverage <;> cases haverage
  rw [UInt32.toNat_toUInt16, UInt32.toNat_div, h.sum, h.toNat_count]

end Counts

/-! ## A channel stuck at zero -/

/-- Codes that are zero always fit. -/
theorem accepted_replicate_zero {sum : Nat} (h : sum < 2 ^ 32) (n : Nat) :
    accepted sum (List.replicate n 0) = List.replicate n 0 := by
  induction n with
  | zero => rfl
  | succ n ih => rw [List.replicate_succ, accepted, Nat.add_zero, if_pos h, ih]

/-- A frame of zeros has nothing but conversions of the first channel, with code zero. -/
theorem codes_replicate_zero (n : Nat) :
    Frame.codes 0 (List.replicate (4 * n) 0) = List.replicate n 0 := by
  induction n with
  | zero => rfl
  | succ n ih =>
    show 0 :: Frame.codes 0 (List.replicate (4 * n) 0) = _
    rw [ih, List.replicate_succ]

theorem pending_replicate_accumulate (c : Channel) (f : Frame) (n : Nat) :
    (intake c (List.replicate n (.accumulate f))).pending =
      (List.replicate n (f.codes c)).flatten := by
  induction n with
  | zero => rfl
  | succ n ih =>
    rw [List.replicate_succ', intake_concat, List.replicate_succ', List.flatten_concat, ← ih]
    rfl

/-- However often frames of zeros were counted: as many codes were as they hold records. -/
theorem accepted_stuck (n m : Nat) :
    accepted 0 (intake 0 (List.replicate n (.accumulate (List.replicate (4 * m) 0)))).pending =
      List.replicate (n * m) 0 := by
  rw [pending_replicate_accumulate, codes_replicate_zero, List.flatten_replicate_replicate,
    accepted_replicate_zero (by decide)]

/-! ## Runs -/

theorem average_run_eq_none_iff (uses : List Use) (c : Channel) :
    ((run uses).1.take c).1 = none ↔ 2 ^ 32 ∣ (accepted 0 (intake c uses).pending).length :=
  ((tracks_run uses).counts c).average_eq_none_iff

/-- When an average is lost. However an accumulator was used: there is no average of a channel just
where the number of its codes counted is a multiple of `2 ^ 32`, and otherwise it is their sum
divided by the rest of that number. So with fewer codes than that it is missing just where nothing
was counted, and it lies between two of the codes; and there are always fewer if none is zero. -/
theorem averages_until_wrap (uses : List Use) (c : Channel) :
    let codes := accepted 0 (intake c uses).pending
    let average := ((run uses).1.take c).1
    (average = none ↔ 2 ^ 32 ∣ codes.length) ∧
    (∀ value, average = some value →
      value.toNat = codes.sum / (codes.length % 2 ^ 32) % 2 ^ 16) ∧
    (codes.length < 2 ^ 32 → (average = none ↔ codes = []) ∧
      ∀ value, average = some value →
        (∃ low ∈ codes, low ≤ value.toNat) ∧ ∃ high ∈ codes, value.toNat ≤ high) ∧
    (0 ∉ codes → codes.length < 2 ^ 32) := by
  intro codes average
  have hcounts := (tracks_run uses).counts c
  have hnone : average = none ↔ 2 ^ 32 ∣ codes.length := average_run_eq_none_iff uses c
  have hsum : codes.sum < 2 ^ 32 := by
    simpa using sum_accepted_lt (by decide : 0 < 2 ^ 32) (intake c uses).pending
  refine ⟨hnone, fun value => hcounts.toNat_average, fun hlt => ⟨?_, fun value hvalue => ?_⟩,
    fun h => Nat.lt_of_le_of_lt (length_le_sum h) hsum⟩
  · rw [hnone]
    refine ⟨fun hdvd => ?_, fun hnil => hnil ▸ Nat.dvd_zero _⟩
    exact List.length_eq_zero_iff.1 (Nat.eq_zero_of_dvd_of_lt hdvd hlt)
  · have hne : codes ≠ [] := by
      intro hnil
      have := hnone.2 (hnil ▸ Nat.dvd_zero _)
      rw [this] at hvalue
      cases hvalue
    obtain ⟨value', hvalue', hexact, -⟩ :=
      (hcounts.average hlt fun _ => lt_of_mem_pending).2 hne
    obtain rfl : value' = value := Option.some.inj (hvalue'.symm.trans hvalue)
    rw [hexact]
    exact average_between hne

/-- Two codes counted, with an average between them. -/
theorem averages_until_wrap_two_codes :
    let use : Use := .accumulate (Frame.encode [⟨0, 3, 100⟩, ⟨0, 3, 201⟩])
    ∃ value, ((run [use]).1.take 3).1 = some value ∧
      (∃ low ∈ [100, 201], low ≤ value.toNat) ∧ ∃ high ∈ [100, 201], value.toNat ≤ high := by
  intro use
  have hcodes : accepted 0 (intake 3 [use]).pending = [100, 201] := by decide
  obtain ⟨hnone, hvalue⟩ := (averages_until_wrap [use] 3).2.2.1 (hcodes ▸ by decide)
  cases haverage : ((run [use]).1.take 3).1 with
  | none => exact absurd (hcodes ▸ hnone.1 haverage) (by decide)
  | some value => exact ⟨value, rfl, hcodes ▸ hvalue value haverage⟩

/-- On a channel stuck at zero the average is lost: `2 ^ 32` codes were counted, all of them zero,
and there is none. -/
theorem average_lost_when_stuck :
    let uses : List Use := List.replicate (2 ^ 28) (.accumulate (List.replicate 64 0))
    accepted 0 (intake 0 uses).pending = List.replicate (2 ^ 32) 0 ∧
      accepted 0 (intake 0 uses).pending ≠ [] ∧ ((run uses).1.take 0).1 = none := by
  intro uses
  have hsize : 2 ^ 32 = 2 ^ 28 * 16 := by decide
  have hcodes : accepted 0 (intake 0 uses).pending = List.replicate (2 ^ 32) 0 := by
    rw [hsize]
    exact accepted_stuck (2 ^ 28) 16
  have hlength : (accepted 0 (intake 0 uses).pending).length = 2 ^ 32 := by
    rw [hcodes, List.length_replicate]
  refine ⟨hcodes, fun hnil => ?_, ?_⟩
  · rw [hnil] at hlength
    exact absurd hlength (by decide)
  · exact (average_run_eq_none_iff uses 0).2 (hlength ▸ Nat.dvd_refl _)

end SharedAdc.Accumulator
