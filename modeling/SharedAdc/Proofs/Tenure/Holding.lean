/-
Reserving, releasing and starting afresh keep the rules of tenure.
-/
import SharedAdc.Proofs.Tenure.Basic

namespace SharedAdc.Controller

variable {κ φ : Type} {i : Nat} {command : Command φ}

/-- A reservation that succeeds has put back a reservation of its channels, and nothing else. -/
theorem tryReserve_tenure (mask : Mask) (hlock : command.entersLock = true) :
    (tryReserve mask : Operation κ φ _).Obeys (tenure i command) {} fun result t =>
      result = .ok () →
        checkMask mask = .ok () ∧ ∃ session, t.account.left = [⟨mask, session⟩] := by
  unfold tryReserve
  split
  · simp
  · rename_i hmask
    simp only [Program.bind_eq, Program.obeys_bind]
    refine Turn.obeys_locked hlock fun held f hheld _ _ _ => ?_
    rcases grant_cases hheld mask with
      ⟨prior, hp, rfl, hgrant⟩ | ⟨rfl, -, hgrant⟩ | ⟨-, -, hgrant⟩
    · rw [hgrant]
      refine ⟨.of_ne rfl (by simp) fun hidle => .inl (Turn.active_before hp hidle).symm, ?_⟩
      simp only [Program.obeys_bind, Turn.obeys_note]
      exact fun _ => ⟨hmask, _, rfl⟩
    · rw [hgrant]
      refine ⟨.unchanged rfl, ?_⟩
      simp only [Program.obeys_bind, Turn.obeys_note]
      exact fun _ => ⟨hmask, _, rfl⟩
    · rw [hgrant]
      refine ⟨.unchanged rfl, ?_⟩
      simp only [Program.obeys_bind, Turn.obeys_note]
      simp

/-- Taking down the path of a session leaves the caller under the lock with what it found there. -/
theorem teardown_tenure (session : Session) {a : Account κ φ} {f : Fitting} :
    (teardown session : Operation κ φ _).Obeys (tenure i command) ⟨a, some f⟩ fun _ t =>
      t.account.entry = a.entry ∧ ∃ f', t.fitting = some f' := by
  cases session with
  | continuous =>
    simp only [teardown, Program.bind_eq, Program.obeys_bind, Turn.obeys_ask_clearCallback]
    rw [Turn.obeys_hardware_inside]
    refine ⟨trivial, fun hfit _ => hfit, fun stopped => ?_⟩
    rw [Turn.obeys_hardware_inside]
    exact ⟨trivial, fun hfit _ => hfit, fun deinit => ⟨rfl, _, rfl⟩⟩
  | timeCritical channel =>
    simp only [teardown, Program.bind_eq, Program.obeys_bind, Turn.obeys_ask_arm]
    refine ⟨fun _ => Fitting.fit_of_disarmed rfl, ?_⟩
    rw [Turn.obeys_hardware_inside]
    exact ⟨trivial, fun _ _ => Fitting.fit_of_disarmed rfl, fun deleted => ⟨rfl, _, rfl⟩⟩
  | oneShot | idle | reserved => exact ⟨rfl, _, rfl⟩

theorem release_tenure (mask : Mask) :
    (release mask : Operation κ φ _).Obeys (tenure i (.release mask)) {} fun _ _ => True := by
  unfold release
  split
  · trivial
  · refine Turn.obeys_section rfl (fun held f _ _ _ => ?_) (by rintro (e | ⟨⟩) t <;> simp)
    split
    · exact .unchanged rfl
    · rename_i hmask
      split
      · exact .unchanged rfl
      · simp only [Program.bind_eq, Program.obeys_bind]
        refine (teardown_tenure held.session).mono fun result t ht => ?_
        exact .of_ne ht.1 (by simp [Reservation.idle]) fun _ =>
          .inr (Decidable.of_not_not hmask).symm

theorem reinit_tenure :
    (reinit : Operation κ φ _).Obeys (tenure i .reinit) {} fun _ _ => True := by
  unfold reinit
  refine Turn.obeys_section rfl (fun held f _ _ _ => ?_) fun result t => ?_
  · split
    · exact .unchanged rfl
    · simp only [Program.bind_eq, Program.obeys_bind]
      refine (teardown_tenure held.session).mono ?_
      rintro result ⟨a, _⟩ ⟨hentry, f', rfl⟩
      simp only [Turn.obeys_ask_clearCallback, Turn.obeys_ask_arm]
      refine ⟨fun _ => Fitting.fit_of_disarmed rfl, ?_⟩
      exact .of_ne hentry (by simp [Reservation.idle]) fun _ => .inr trivial
  · split <;> simp

end SharedAdc.Controller
