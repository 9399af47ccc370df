/-
What a controller shows between the sections under its lock: the reserved channels, the session,
the armed channel and the frame slot tell the same story.
-/
import SharedAdc.Proofs.Callers.Run

namespace SharedAdc.Controller

variable {κ φ : Type} {machine : Machine κ}

/-- The parts of the shared state tell the same story. -/
structure State.Coherent (s : State φ) : Prop where
  idle : s.reservation.active.isEmpty = true ↔ s.reservation.session = .idle
  within : ∀ n, s.reservation.active.bits.getLsbD n = true → n < 10
  oneShot : s.reservation.session = .oneShot → ∃ c, s.reservation.active = .single c
  timeCritical : ∀ c, s.reservation.session = .timeCritical c → s.reservation.active = .single c
  armed : ∀ c, s.armed = some c ↔ s.reservation.session = .timeCritical c
  slot : s.slot.isArmed = true ↔ s.reservation.session = .continuous

theorem World.coherent_of_sound {w : World machine φ} (h : w.standing.Sound) :
    w.shared.Coherent where
  idle := by
    rcases h.active with hidle | ⟨hm, hne⟩
    · have hr : w.shared.reservation = .idle := hidle
      simp [hr, Reservation.idle, Mask.isEmpty, Mask.empty]
    · have he : w.shared.reservation.active.isEmpty = false := (checkMask_ok hm).1
      have hsession : w.shared.reservation.session ≠ .idle := hne
      simp [he, hsession]
  within n hn := by
    rcases h.active with hidle | ⟨hm, -⟩
    · have hr : w.shared.reservation = .idle := hidle
      simp [hr, Reservation.idle, Mask.empty] at hn
    · exact Mask.getLsbD_of_isWithinUnit (checkMask_ok hm).2 hn
  oneShot := h.active_single
  timeCritical c hc := congrArg (·.reservation.active) (h.eq_timeCritical hc)
  armed := h.armed_iff
  slot := h.callback_iff

/-- Whenever the lock is free, the shared state is coherent: after any actions of any callers, with
any replies of the hardware. -/
theorem World.coherent_of_free (config : Config) (memory : machine.Memory)
    (actions : List (Action machine φ))
    (h : ((World.new memory).run config actions).shared.locked = false) :
    ((World.new memory).run config actions).shared.Coherent :=
  coherent_of_sound ((kept_run config memory actions).sound h)

/-- Two callers on one channel: while the burst of the first is under way, with the lock free, the
second is turned down. -/
theorem World.coherent_burst :
    let w := (World.new {} : World Machine.recording Unit).run {}
      (.call (.sampleOnce ⟨3⟩ .db12 2) :: .call .reinit ::
        (List.replicate 4 (.advance 0) ++ List.replicate 2 (.advance 1)))
    w.shared.locked = false ∧ w.shared.Coherent :=
  ⟨by decide, World.coherent_of_free _ _ _ (by decide)⟩

end SharedAdc.Controller
