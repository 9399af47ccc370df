/-
Reserving, releasing and starting afresh keep the rules of conduct, whatever the hardware replies.
-/
import SharedAdc.Proofs.Callers.Sections

namespace SharedAdc.Controller

open Mode Standing

variable {κ φ : Type}

theorem tryReserve_behaves (mask : Mask) : Behaves (tryReserve mask : Operation κ φ _) := by
  unfold tryReserve
  split
  · exact behaves_done _
  · rename_i hm
    refine behaves_locked (fun s hs => ?_) fun result => ?_
    · split
      · exact endsWell_unchanged hs _
      · rename_i prior held hg
        by_cases hp : prior = .idle
        · obtain ⟨rfl, rfl⟩ := hs.vacant hg (.inl hp)
          subst hp
          exact endsWell_sound (by simp [Reservation.before, Reservation.idle]) (.reserved hm)
            (by simp) _
        · rw [Sound.granted_eq hg hp]
          exact endsWell_unchanged hs _
    · cases result <;> exact behaves_note _ _

/-- What taking down the path of a session leaves behind: no path, no armed channel, no
callback. -/
theorem teardown_obeys {s : Standing φ} (hs : s.Sound) (hne : s.reservation.session ≠ .oneShot) :
    (teardown s.reservation.session : Operation κ φ _).Obeys conduct (.inside none s s)
      fun _ mode => mode = .inside none s ⟨s.reservation, none, none, {}⟩ := by
  cases hs with
  | idle => rfl
  | reserved hm => rfl
  | oneShot c => exact absurd rfl hne
  | timeCritical c =>
    simp only [teardown, Program.bind_eq, Program.obeys_bind, obeys_ask_arm]
    refine ⟨hne, ?_⟩
    rw [obeys_hardware_inside]
    exact ⟨⟨rfl, fun h => absurd h hne, .inl rfl⟩, fun reply => rfl⟩
  | continuous hm callback =>
    simp only [teardown, Program.bind_eq, Program.obeys_bind, obeys_ask_clearCallback]
    refine ⟨hne, ?_⟩
    rw [obeys_hardware_inside]
    refine ⟨⟨rfl, fun h => absurd h hne, .inl rfl⟩, fun stopped => ?_⟩
    rw [obeys_hardware_inside]
    exact ⟨⟨rfl, fun h => absurd h hne, .inl rfl⟩, fun deinit => rfl⟩

theorem release_behaves (mask : Mask) : Behaves (release mask : Operation κ φ _) := by
  unfold release
  split
  · exact behaves_done _
  · refine behaves_locked (fun s hs => ?_) fun result => ?_
    · split
      · exact endsWell_unchanged hs _
      · split
        · exact endsWell_unchanged hs _
        · rename_i hne
          simp only [Program.bind_eq, Program.obeys_bind]
          refine (teardown_obeys hs hne).mono ?_
          rintro result _ rfl
          exact endsWell_sound hne .idle (by simp [Reservation.idle]) _
    · cases result <;> exact behaves_note _ _

theorem reinit_behaves : Behaves (reinit : Operation κ φ _) := by
  unfold reinit
  refine behaves_locked (fun s hs => ?_) fun result => ?_
  · split
    · exact endsWell_unchanged hs _
    · rename_i hne
      simp only [Program.bind_eq, Program.obeys_bind]
      refine (teardown_obeys hs hne).mono ?_
      rintro result _ rfl
      rw [obeys_ask_clearCallback]
      refine ⟨hne, ?_⟩
      rw [obeys_ask_arm]
      exact ⟨hne, endsWell_sound hne .idle (by simp [Reservation.idle]) _⟩
  · split <;> exact behaves_note _ _

end SharedAdc.Controller
