/-
Sections under the lock, from every sound standing that they can find: what a section may end with,
what a request for channels meets, and how the operation around a section behaves.
-/
import SharedAdc.Proofs.Callers.Conduct

namespace SharedAdc.Controller

open Mode Standing

variable {κ φ α β : Type}

/-! ## Sections under the lock -/

theorem Mode.MayLeave.unchanged {entry : Standing φ} (h : entry.Sound) :
    MayLeave none entry entry entry.reservation where
  sound := h
  ends := by simp
  keeps _ _ := rfl
  opens _ he ho := absurd ho he

/-- Where no burst is under way, the lock is left with any sound standing. Only a reservation that
can be granted turns into a burst. -/
theorem Mode.MayLeave.sound_of_ne {entry now : Standing φ} {held : Reservation}
    (he : entry.reservation.session ≠ .oneShot) (hs : Sound { now with reservation := held })
    (hopens : held.session = .oneShot →
      entry.reservation = .idle ∨ entry.reservation = ⟨held.active, .reserved⟩) :
    MayLeave none entry now held where
  sound := hs
  ends := by simp
  keeps _ h := absurd h he
  opens _ _ := hopens

/-- A section that came to `entry` may end with the reservation of `r`, and opens no burst. -/
def EndsWell (entry : Standing φ) (r : α × Reservation) (mode : Mode φ) : Prop :=
  ∃ now, mode = .inside none entry now ∧ MayLeave none entry now r.2 ∧ opened none entry r.2 = none

theorem endsWell_unchanged {entry : Standing φ} (h : entry.Sound) (a : α) :
    EndsWell entry (a, entry.reservation) (.inside none entry entry) :=
  ⟨entry, rfl, .unchanged h, by simp [opened]⟩

/-- Where no burst is under way, a section may end in any sound standing that shows none. -/
theorem endsWell_sound {entry now : Standing φ} {held : Reservation}
    (he : entry.reservation.session ≠ .oneShot) (hs : Sound { now with reservation := held })
    (hn : held.session ≠ .oneShot) (a : α) :
    EndsWell entry (a, held) (.inside none entry now) :=
  ⟨now, rfl, .sound_of_ne he hs fun ho => absurd ho hn, by simp [opened, hn]⟩

/-- An operation behaves when its section ends well and what comes after it behaves. -/
theorem behaves_locked {body : Reservation → Operation κ φ (α × Reservation)}
    {tail : α → Operation κ φ β}
    (hbody : ∀ s : Standing φ, s.Sound →
      (body s.reservation).Obeys conduct (.inside none s s) (EndsWell s))
    (htail : ∀ a, Behaves (tail a)) : Behaves ((locked body).bind tail) := by
  unfold Behaves
  rw [Program.obeys_bind]
  apply obeys_locked
  intro s hs _
  refine (hbody s hs).mono ?_
  rintro ⟨a, held⟩ _ ⟨now, rfl, hleave, hopened⟩
  refine ⟨now, rfl, hleave, ?_⟩
  rw [hopened]
  exact htail a

theorem behaves_done (a : α) : Behaves (.done a : Operation κ φ α) := ⟨none, rfl⟩

theorem behaves_note (notice : Notice) (a : α) :
    Behaves ((note notice : Operation κ φ Unit).bind fun _ => .done a) := by
  unfold Behaves
  simp

theorem Behaves.map {p : Operation κ φ α} (h : Behaves p) (f : α → β) :
    Behaves (p.bind fun a => .done (f a)) := by
  unfold Behaves
  rw [Program.obeys_bind]
  exact h

/-! ## Grants -/

/-- A grant finds the unit free, or it shows the reservation that holds exactly the mask. -/
theorem grant_ok {r granted : Reservation} {mask : Mask} {prior : Session}
    (h : r.grant mask = .ok (prior, granted)) :
    (r.isIdle = true ∧ prior = .idle ∧ granted = ⟨mask, .reserved⟩) ∨
      (r.isIdle = false ∧ r = ⟨mask, prior⟩ ∧ granted = r) := by
  unfold Reservation.grant at h
  split at h
  · rename_i hidle
    cases h
    exact .inl ⟨hidle, rfl, rfl⟩
  · rename_i hidle
    split at h
    · rename_i hm
      cases h
      subst hm
      exact .inr ⟨by simpa using hidle, rfl, rfl⟩
    · cases h

namespace Standing.Sound

variable {s : Standing φ}

/-- Where a grant meets no session under way, nothing is armed, installed or open, and the
reservation it met can be told from what it shows. -/
theorem vacant (hs : s.Sound) {mask : Mask} {prior : Session} {granted : Reservation}
    (h : s.reservation.grant mask = .ok (prior, granted)) (hp : prior = .idle ∨ prior = .reserved) :
    s = ⟨.before mask prior, none, none, {}⟩ ∧ granted = ⟨mask, .reserved⟩ := by
  obtain ⟨hidle, rfl, rfl⟩ | ⟨-, hr, rfl⟩ := grant_ok h
  · exact ⟨hs.eq_idle hidle, rfl⟩
  · cases hs <;> cases hr
    · -- the idle reservation holds the empty mask, and is free rather than held by it
      exact absurd h (by simp [Reservation.grant, Reservation.isIdle, Reservation.idle,
        Mask.isEmpty, Mask.empty])
    · exact ⟨rfl, rfl⟩
    all_goals simp at hp

theorem granted_eq {mask : Mask} {prior : Session} {granted : Reservation}
    (h : s.reservation.grant mask = .ok (prior, granted)) (hp : prior ≠ .idle) :
    granted = s.reservation := by
  obtain ⟨-, rfl, -⟩ | ⟨-, -, h⟩ := grant_ok h
  · exact absurd rfl hp
  · exact h

end Standing.Sound

theorem before_not_oneShot (mask : Mask) {prior : Session}
    (hp : prior = .idle ∨ prior = .reserved) :
    (Reservation.before mask prior).session ≠ .oneShot := by
  obtain rfl | rfl := hp <;> simp [Reservation.before, Reservation.idle]

/-- What is put back where a vacant unit could not be set up, or is taken down again. -/
theorem sound_before {channel : Channel} {prior : Session}
    (hp : prior = .idle ∨ prior = .reserved) :
    Sound (⟨.before (.single channel) prior, none, none, {}⟩ : Standing φ) := by
  obtain rfl | rfl := hp
  · exact .idle
  · exact .reserved (single_proper channel)

end SharedAdc.Controller
