/-
Reserving and releasing without a controller, as a history tells it. The reservation keeps no more than a
mask, and the empty one stands for nobody; told by the history, a mask is outstanding from the latest
reservation that has succeeded until a release succeeds. The two agree after every sequence of attempts,
so each answer can be told from the history.
-/
import Mathlib.Data.List.Induction
import SharedAdc.Proofs.History
import SharedAdc.Proofs.Mask
import SharedAdc.Reservation

namespace SharedAdc

namespace Reservation

/-! ## Attempts -/

/-- What is asked of a reservation, with any mask. -/
inductive Attempt where
  | reserve (mask : Mask)
  | release (mask : Mask)
  deriving DecidableEq

def attempt (r : Reservation) : Attempt → Bool × Reservation
  | .reserve mask => r.tryReserve mask
  | .release mask => r.tryRelease mask

/-- The reservation after some attempts. -/
def through (r : Reservation) (attempts : List Attempt) : Reservation :=
  attempts.foldl (fun r a => (r.attempt a).2) r

/-- The attempts with what came of each. -/
def answered (r : Reservation) : List Attempt → List (Attempt × Bool)
  | [] => []
  | a :: attempts => (a, (r.attempt a).1) :: (r.attempt a).2.answered attempts

theorem through_append (r : Reservation) (attempts later : List Attempt) :
    r.through (attempts ++ later) = (r.through attempts).through later := by
  simp [through]

theorem answered_concat (r : Reservation) (attempts : List Attempt) (a : Attempt) :
    r.answered (attempts ++ [a]) =
      r.answered attempts ++ [(a, ((r.through attempts).attempt a).1)] := by
  induction attempts generalizing r with
  | nil => rfl
  | cons first attempts ih => exact congrArg ((first, (r.attempt first).1) :: ·) (ih _)

/-! ## What is outstanding -/

/-- The mask was reserved, and that was the latest success. Refusals in between do not count. -/
def Outstanding (history : List (Attempt × Bool)) (mask : Mask) : Prop :=
  IsLatest (fun mask row => row = (.reserve mask, true))
    (fun row => ∃ mask, row = (Attempt.release mask, true)) mask history

/-- What a reservation can look like, by the history of its attempts. -/
inductive Shows (history : List (Attempt × Bool)) : Reservation → Prop where
  | nobody (hnone : ∀ mask, ¬ Outstanding history mask) : Shows history idle
  | held (mask : Mask) (hmask : mask ≠ .empty) (honly : ∀ m, Outstanding history m ↔ m = mask) :
    Shows history ⟨mask, .reserved⟩

variable {history : List (Attempt × Bool)} {r : Reservation} {mask held : Mask}

theorem outstanding_refused {a : Attempt} :
    Outstanding (history ++ [(a, false)]) mask ↔ Outstanding history mask := by
  simp [Outstanding, isLatest_concat]

theorem outstanding_reserve {m : Mask} :
    Outstanding (history ++ [(.reserve m, true)]) mask ↔ mask = m := by
  simp [Outstanding, isLatest_concat, eq_comm]

theorem not_outstanding_release {m : Mask} :
    ¬ Outstanding (history ++ [(.release m, true)]) mask := by
  simp [Outstanding, isLatest_concat]

/-! ## The answers -/

theorem tryReserve_empty (r : Reservation) : r.tryReserve .empty = (false, r) := rfl

theorem tryReserve_idle (hmask : mask ≠ .empty) :
    idle.tryReserve mask = (true, ⟨mask, .reserved⟩) := by
  unfold tryReserve
  rw [if_neg (mt Mask.isEmpty_iff.1 hmask), grant_idle]

theorem tryRelease_idle (mask : Mask) : idle.tryRelease mask = (false, idle) := by
  unfold tryRelease
  by_cases hmask : mask = .empty
  · rw [if_pos (Mask.isEmpty_iff.2 hmask)]
  · have hactive : ¬ idle.active = mask := Ne.symm hmask
    rw [if_neg (mt Mask.isEmpty_iff.1 hmask), if_neg hactive]

theorem tryReserve_held (hheld : held ≠ .empty) (session : Session) :
    (⟨held, session⟩ : Reservation).tryReserve mask = (decide (mask = held), ⟨held, session⟩) := by
  have hbusy : ¬ (⟨held, session⟩ : Reservation).isIdle = true := mt Mask.isEmpty_iff.1 hheld
  by_cases hsame : mask = held
  · subst hsame
    simp [tryReserve, grant, hbusy, mt Mask.isEmpty_iff.1 hheld]
  · unfold tryReserve
    rw [decide_eq_false hsame]
    split <;> simp [grant, hbusy, Ne.symm hsame]

theorem tryRelease_held (hheld : held ≠ .empty) (session : Session) :
    (⟨held, session⟩ : Reservation).tryRelease mask =
      if mask = held then (true, idle) else (false, ⟨held, session⟩) := by
  by_cases hsame : mask = held
  · subst hsame
    simp [tryRelease, mt Mask.isEmpty_iff.1 hheld]
  · unfold tryRelease
    split <;> simp [Ne.symm hsame]

/-! ## The law of the history -/

/-- An attempt takes the reservation to what the longer history shows. -/
theorem Shows.attempt (h : Shows history r) (a : Attempt) :
    Shows (history ++ [(a, (r.attempt a).1)]) (r.attempt a).2 := by
  have refused {r : Reservation} (h : Shows history r) : Shows (history ++ [(a, false)]) r := by
    cases h with
    | nobody hnone => exact .nobody fun m => mt outstanding_refused.1 (hnone m)
    | held mask hmask honly => exact .held mask hmask fun m => outstanding_refused.trans (honly m)
  cases a with
  | reserve m =>
    change Shows (history ++ [(_, (r.tryReserve m).1)]) (r.tryReserve m).2
    cases h with
    | nobody hnone =>
      by_cases hm : m = .empty
      · rw [hm, tryReserve_empty]
        exact hm ▸ refused (.nobody hnone)
      · rw [tryReserve_idle hm]
        exact .held m hm fun _ => outstanding_reserve
    | held mask hmask honly =>
      rw [tryReserve_held hmask]
      by_cases hsame : m = mask
      · rw [decide_eq_true hsame]
        exact .held mask hmask fun _ => hsame ▸ outstanding_reserve
      · rw [decide_eq_false hsame]
        exact refused (.held mask hmask honly)
  | release m =>
    change Shows (history ++ [(_, (r.tryRelease m).1)]) (r.tryRelease m).2
    cases h with
    | nobody hnone =>
      rw [tryRelease_idle]
      exact refused (.nobody hnone)
    | held mask hmask honly =>
      rw [tryRelease_held hmask]
      split
      · exact .nobody fun _ => not_outstanding_release
      · exact refused (.held mask hmask honly)

theorem shows_through (attempts : List Attempt) :
    Shows (idle.answered attempts) (idle.through attempts) := by
  induction attempts using List.reverseRecOn with
  | nil => exact .nobody fun _ => not_isLatest_nil
  | append_singleton attempts a ih =>
    rw [answered_concat, through_append]
    exact ih.attempt a

/-- How a reservation answers, by the history of its attempts. -/
structure Abides (history : List (Attempt × Bool)) (r : Reservation) : Prop where
  reserve : ∀ mask, (r.tryReserve mask).1 = true ↔
    mask ≠ .empty ∧ ((∀ m, ¬ Outstanding history m) ∨ Outstanding history mask)
  release : ∀ mask, (r.tryRelease mask).1 = true ↔ mask ≠ .empty ∧ Outstanding history mask
  /-- A refusal changes nothing. -/
  refused : ∀ a, (r.attempt a).1 = false → (r.attempt a).2 = r
  held : ∀ mask, Outstanding history mask → r = ⟨mask, .reserved⟩
  nobody : (∀ mask, ¬ Outstanding history mask) → r = idle
  /-- However often a mask is reserved again, it is given back once. -/
  reentry : ∀ mask, (r.tryReserve mask).1 = true → ∀ n,
    (r.through (.replicate (n + 1) (.reserve mask))).tryRelease mask = (true, idle)

theorem attempt_refused (r : Reservation) {a : Attempt} (h : (r.attempt a).1 = false) :
    (r.attempt a).2 = r := by
  cases a with
  | reserve mask =>
    revert h
    change (r.tryReserve mask).1 = false → (r.tryReserve mask).2 = r
    unfold tryReserve
    split
    · exact fun _ => rfl
    · split <;> simp
  | release mask =>
    revert h
    change (r.tryRelease mask).1 = false → (r.tryRelease mask).2 = r
    unfold tryRelease
    split
    · exact fun _ => rfl
    · split <;> simp

/-- Reserving what is held leaves it held. -/
theorem through_reentries (hheld : held ≠ .empty) (session : Session) (n : Nat) :
    (⟨held, session⟩ : Reservation).through (.replicate n (.reserve held)) = ⟨held, session⟩ := by
  induction n with
  | zero => rfl
  | succ n ih =>
    have hagain : ((⟨held, session⟩ : Reservation).attempt (.reserve held)).2 = ⟨held, session⟩ :=
      congrArg Prod.snd (tryReserve_held hheld session)
    rw [List.replicate_succ]
    change Reservation.through (Reservation.attempt _ _).2 _ = _
    rw [hagain, ih]

/-- A mask that is granted to a reservation without a session is held in it. -/
theorem Shows.granted (h : Shows history r) (hgrant : (r.tryReserve mask).1 = true) :
    mask ≠ .empty ∧ (r.tryReserve mask).2 = ⟨mask, .reserved⟩ := by
  have hmask : mask ≠ .empty := by
    rintro rfl
    cases hgrant
  refine ⟨hmask, ?_⟩
  cases h with
  | nobody hnone => rw [tryReserve_idle hmask]
  | held other hother honly =>
    rw [tryReserve_held hother] at hgrant ⊢
    rw [of_decide_eq_true hgrant]

theorem Shows.abides (h : Shows history r) : Abides history r where
  reserve mask := by
    cases h with
    | nobody hnone =>
      by_cases hmask : mask = .empty
      · simp [hmask, tryReserve_empty]
      · simp [tryReserve_idle hmask, hmask, hnone]
    | held other hother honly =>
      have hsome : ¬ ∀ m, ¬ Outstanding history m := fun hnone => hnone other ((honly other).2 rfl)
      rw [tryReserve_held hother, honly mask]
      simp only [decide_eq_true_eq, hsome, false_or]
      exact ⟨fun hsame => ⟨hsame ▸ hother, hsame⟩, And.right⟩
  release mask := by
    cases h with
    | nobody hnone => simp [tryRelease_idle, hnone]
    | held other hother honly =>
      rw [tryRelease_held hother, honly mask]
      by_cases hsame : mask = other <;> simp [hsame, hother]
  refused _ := r.attempt_refused
  held mask hmask := by
    cases h with
    | nobody hnone => exact absurd hmask (hnone mask)
    | held other hother honly => rw [(honly mask).1 hmask]
  nobody hnone := by
    cases h with
    | nobody => rfl
    | held other hother honly => exact absurd ((honly other).2 rfl) (hnone other)
  reentry mask hgrant n := by
    obtain ⟨hmask, hheld⟩ := h.granted hgrant
    rw [List.replicate_succ]
    change (Reservation.through (r.tryReserve mask).2 _).tryRelease mask = _
    rw [hheld, through_reentries hmask, tryRelease_held hmask, if_pos rfl]

/-- After every sequence of attempts a reservation answers as its history says, and what is outstanding
is what it shows. -/
theorem reservation_abides (attempts : List Attempt) :
    Abides (idle.answered attempts) (idle.through attempts) :=
  (shows_through attempts).abides

example : idle.answered [.reserve ⟨3⟩, .reserve ⟨6⟩, .reserve ⟨3⟩, .release ⟨1⟩, .release ⟨3⟩,
    .release ⟨3⟩, .reserve .empty] = [(.reserve ⟨3⟩, true), (.reserve ⟨6⟩, false),
    (.reserve ⟨3⟩, true), (.release ⟨1⟩, false), (.release ⟨3⟩, true), (.release ⟨3⟩, false),
    (.reserve .empty, false)] := by decide

end Reservation

end SharedAdc
