/-
Counting the same frame over and over. Where all of its codes fit into the sums, however often it
is counted, they are added up at once; that comes to the same as counting it one time after the
other.
-/
import Mathlib.Algebra.Order.Ring.Nat
import Mathlib.Data.List.Induction
import SharedAdc.Frame.Accumulator

namespace SharedAdc

/-! ## Tallies -/

namespace Tally

@[simp] theorem plus_zero (t : Tally) : t.plus 0 0 = t := by
  simp [plus]

theorem plus_plus (t : Tally) (sum count sum' count' : Nat) :
    (t.plus sum count).plus sum' count' = t.plus (sum + sum') (count + count') := by
  simp [plus, UInt32.ofNat_add, UInt32.add_assoc]

/-- A sum that fits does not wrap. -/
theorem toNat_sum_plus {t : Tally} {sum : Nat} (h : t.sum.toNat + sum < UInt32.size) (count : Nat) :
    (t.plus sum count).sum.toNat = t.sum.toNat + sum := by
  have hsum : sum < UInt32.size := by omega
  rw [plus, UInt32.toNat_add, UInt32.toNat_ofNat', Nat.mod_eq_of_lt hsum]
  exact Nat.mod_eq_of_lt h

/-- A code that fits is added. -/
theorem add_eq_plus {t : Tally} {raw : UInt16} (h : t.sum.toNat + raw.toNat < UInt32.size) :
    t.add? raw = some (t.plus raw.toNat 1) := by
  rw [add?, if_pos h, plus, UInt32.ofNat_uInt16ToNat]
  rfl

end Tally

namespace Accumulator

variable {a : Accumulator} {records : List Record} {times : Nat}

@[simp] theorem total_eq_sum (c : Channel) (records : List Record) :
    total c records = (records.flatMap (codeFor c)).sum :=
  List.sum_eq_foldr.symm

theorem eq_of_tally_eq {a b : Accumulator} (h : ∀ c, a.tally c = b.tally c) : a = b := by
  cases a
  cases b
  congr 1
  exact Vector.ext fun i hi => h ⟨⟨i, hi⟩⟩

@[simp] theorem plus_nil (a : Accumulator) (times : Nat) : a.plus [] times = a :=
  eq_of_tally_eq fun c => by simp

@[simp] theorem plus_zero (a : Accumulator) (records : List Record) : a.plus records 0 = a :=
  eq_of_tally_eq fun c => by simp

/-! ## Records in turn -/

theorem fits_append {more : List Record} : a.Fits (records ++ more) 1 ↔
    a.Fits records 1 ∧ (a.plus records 1).Fits more 1 := by
  simp only [Fits, Channel.mem_all, forall_const, Nat.one_mul, total_eq_sum, List.flatMap_append,
    List.sum_append, tally_plus]
  constructor
  · intro h
    have hfirst : ∀ c, (a.tally c).sum.toNat + (records.flatMap (codeFor c)).sum < UInt32.size :=
      fun c => by have := h c; omega
    refine ⟨hfirst, fun c => ?_⟩
    rw [Tally.toNat_sum_plus (hfirst c), Nat.add_assoc]
    exact h c
  · rintro ⟨hfirst, hmore⟩ c
    rw [← Nat.add_assoc, ← Tally.toNat_sum_plus (hfirst c)]
    exact hmore c

theorem plus_append (a : Accumulator) (records more : List Record) :
    (a.plus records 1).plus more 1 = a.plus (records ++ more) 1 :=
  eq_of_tally_eq fun c => by simp [Tally.plus_plus]

/-- A record that fits is added. -/
theorem add_eq_plus {r : Record} (h : a.Fits [r] 1) :
    a.add r = (a.plus [r] 1, r.channel?.isSome) := by
  unfold add
  cases hr : r.channel? with
  | none =>
    have hsame : a.plus [r] 1 = a := eq_of_tally_eq fun d => by simp [codeFor, hr]
    rw [hsame]
    rfl
  | some c =>
    have hfits : (a.tally c).sum.toNat + r.raw.toNat < UInt32.size := by
      simpa [codeFor, hr] using h c (Channel.mem_all c)
    simp only [Tally.add_eq_plus hfits, Option.isSome_some, Prod.mk.injEq, and_true]
    refine eq_of_tally_eq fun d => ?_
    rw [tally_set, tally_plus]
    by_cases hd : c = d
    · subst hd
      simp [codeFor, hr]
    · simp [codeFor, hr, hd]

/-- Records that fit are added up. -/
theorem addAll_eq_plus (h : a.Fits records 1) :
    a.addAll records = (a.plus records 1, known records) := by
  -- on the records from their end: the last is added to what the others have made
  induction records using List.reverseRecOn with
  | nil => simp [addAll, known]
  | append_singleton records r ih =>
    obtain ⟨hrecords, hlast⟩ := fits_append.1 h
    rw [addAll_concat, ih hrecords, add_eq_plus hlast, plus_append]
    cases hr : r.channel?.isSome <;> simp [known, hr]

/-! ## A frame over and over -/

theorem fits_of_le {more : Nat} (h : a.Fits records more) (hle : times ≤ more) :
    a.Fits records times := by
  intro c hc
  have := Nat.mul_le_mul_right (total c records) hle
  have := h c hc
  omega

/-- Where one time more fits, it fits on top of the others. -/
theorem fits_succ (h : a.Fits records (times + 1)) : (a.plus records times).Fits records 1 := by
  intro c hc
  have hsum := h c hc
  have htimes := fits_of_le h (Nat.le_succ times) c hc
  rw [tally_plus, Tally.toNat_sum_plus htimes, Nat.one_mul, Nat.add_assoc, ← Nat.succ_mul]
  exact hsum

theorem plus_succ (a : Accumulator) (records : List Record) (times : Nat) :
    (a.plus records times).plus records 1 = a.plus records (times + 1) :=
  eq_of_tally_eq fun c => by simp [Tally.plus_plus, Nat.succ_mul]

/-- Counting a frame `times` over is counting it that many times one after the other. -/
theorem accumulateRepeated_eq_fold (a : Accumulator) (frame : Frame) (times : Nat) :
    a.accumulateRepeated frame times = times.fold
      (fun _ _ s => ((s.1.accumulate frame).1, s.2 + (s.1.accumulate frame).2)) (a, 0) := by
  unfold accumulateRepeated
  dsimp only
  split
  · next hfits =>
    induction times with
    | zero => simp
    | succ times ih =>
      rw [Nat.fold_succ, ← ih (fits_of_le hfits (Nat.le_succ times))]
      simp only [accumulate, addAll_eq_plus (fits_succ hfits), plus_succ, Nat.succ_mul]
  · rfl

end Accumulator

end SharedAdc
