/-
How a controller and its hardware stand with each other: the reservation, the armed channel, the
installed callback, and the hardware paths that the calls so far have left open. The standings
that a section under the lock may leave behind are the five of `Sound`.
-/
import SharedAdc.Proofs.Callers.World
import SharedAdc.Proofs.Request

namespace SharedAdc.Controller

variable {κ φ : Type}

/-! ## Open paths -/

/-- Which paths of the hardware are open. -/
structure Paths where
  /-- The one-shot unit has been created and not been deleted since. -/
  unit : Bool := false
  /-- The continuous driver, which has been created and not been deinitialized since: whether it
  has been started. -/
  driver : Option Bool := none
  deriving DecidableEq

namespace Paths

/-- The paths after a call. A path is given up with the call that closes it, even if that fails. -/
def after (p : Paths) : (call : HardwareCall κ) → call.Reply → Paths
  | .createOneShotUnit, .ok () => { p with unit := true }
  | .deleteOneShotUnit, _ => { p with unit := false }
  | .createContinuous _ _, .ok () => { p with driver := some false }
  | .startContinuous, .ok () => { p with driver := p.driver.map fun _ => true }
  | .deinitContinuous, _ => { p with driver := none }
  | _, _ => p

/-- The calls that are in order while these paths are open. -/
def Admits (p : Paths) : HardwareCall κ → Prop
  | .createOneShotUnit | .createContinuous _ _ => p.unit = false ∧ p.driver = none
  | .configureOneShotChannel _ _ | .deleteOneShotUnit => p.unit = true
  | .configureContinuous _ _ | .registerFrameSlot | .startContinuous | .deinitContinuous =>
    p.driver.isSome = true
  | .stopContinuous => p.driver = some true
  | .readOneShot _ | .createCalibration _ _ | .applyCalibration _ _ | .deleteCalibration _ => True

/-- The paths after one more exchange. -/
def afterExchange (p : Paths) : Exchange κ φ → Paths
  | ⟨_, .hardware call, reply⟩ => p.after call reply
  | _ => p

/-- The paths that a history leaves open. -/
def ofHistory (history : List (Exchange κ φ)) : Paths := history.foldl afterExchange {}

theorem ofHistory_concat (history : List (Exchange κ φ)) (e : Exchange κ φ) :
    ofHistory (history ++ [e]) = (ofHistory history).afterExchange e := by
  simp [ofHistory]

end Paths

/-! ## Standings -/

/-- How controller and hardware stand with each other. -/
structure Standing (φ : Type) where
  reservation : Reservation := .idle
  armed : Option Channel := none
  callback : Option φ := none
  paths : Paths := {}

namespace Standing

instance : Inhabited (Standing φ) := ⟨{}⟩

/-- The standing after a question is answered. -/
def after (s : Standing φ) : (q : Question κ φ) → Answer q → Standing φ
  | .leave held, _ => { s with reservation := held }
  | .arm channel, _ => { s with armed := channel }
  | .installCallback callback, _ => { s with callback := some callback }
  | .clearCallback, _ => { s with callback := none }
  | .hardware call, reply => { s with paths := s.paths.after call reply }
  | _, _ => s

/-- The standings that may be left behind: what is armed, what is installed and what is open are
those of the session. -/
inductive Sound : Standing φ → Prop where
  | idle : Sound ⟨.idle, none, none, {}⟩
  | reserved {m : Mask} (hm : checkMask m = .ok ()) : Sound ⟨⟨m, .reserved⟩, none, none, {}⟩
  | oneShot (c : Channel) : Sound ⟨⟨.single c, .oneShot⟩, none, none, { unit := true }⟩
  | timeCritical (c : Channel) :
    Sound ⟨⟨.single c, .timeCritical c⟩, some c, none, { unit := true }⟩
  | continuous {m : Mask} (hm : checkMask m = .ok ()) (callback : φ) :
    Sound ⟨⟨m, .continuous⟩, none, some callback, { driver := some true }⟩

namespace Sound

variable {s : Standing φ}

/-! ## What a sound standing shows -/

theorem active (hs : s.Sound) : s.reservation = .idle ∨
    checkMask s.reservation.active = .ok () ∧ s.reservation.session ≠ .idle := by
  cases hs with
  | idle => exact .inl rfl
  | reserved hm => exact .inr ⟨hm, by simp⟩
  | oneShot c => exact .inr ⟨single_proper c, by simp⟩
  | timeCritical c => exact .inr ⟨single_proper c, by simp⟩
  | continuous hm callback => exact .inr ⟨hm, by simp⟩

theorem active_single (hs : s.Sound) (h : s.reservation.session = .oneShot) :
    ∃ c, s.reservation.active = .single c := by
  cases hs with
  | oneShot c => exact ⟨c, rfl⟩
  | _ => cases h

theorem armed_iff (hs : s.Sound) (c : Channel) :
    s.armed = some c ↔ s.reservation.session = .timeCritical c := by
  cases hs <;> simp [Reservation.idle]

theorem callback_iff (hs : s.Sound) :
    s.callback.isSome = true ↔ s.reservation.session = .continuous := by
  cases hs <;> simp [Reservation.idle]

theorem unit_iff (hs : s.Sound) : s.paths.unit = true ↔
    s.reservation.session = .oneShot ∨ ∃ c, s.reservation.session = .timeCritical c := by
  cases hs <;> simp [Reservation.idle]

theorem driver_iff (hs : s.Sound) :
    s.paths.driver.isSome = true ↔ s.reservation.session = .continuous := by
  cases hs <;> simp [Reservation.idle]

/-! ## The standing that shows a session -/

theorem eq_idle (hs : s.Sound) (h : s.reservation.isIdle = true) :
    s = ⟨.idle, none, none, {}⟩ := by
  rcases hs.active with hidle | ⟨hm, -⟩
  · have hsession : s.reservation.session = .idle := congrArg Reservation.session hidle
    cases hs <;> first | rfl | cases hsession
  · rw [Reservation.isIdle, (checkMask_ok hm).1] at h
    cases h

theorem eq_oneShot (hs : s.Sound) {mask : Mask} (h : s.reservation = ⟨mask, .oneShot⟩) :
    s = ⟨⟨mask, .oneShot⟩, none, none, { unit := true }⟩ := by
  cases hs <;> cases h
  rfl

theorem eq_timeCritical (hs : s.Sound) {c : Channel} (h : s.reservation.session = .timeCritical c) :
    s = ⟨⟨.single c, .timeCritical c⟩, some c, none, { unit := true }⟩ := by
  cases hs <;> cases h
  rfl

theorem eq_continuous (hs : s.Sound) (h : s.reservation.session = .continuous) :
    checkMask s.reservation.active = .ok () ∧ ∃ callback, s =
      ⟨⟨s.reservation.active, .continuous⟩, none, some callback, { driver := some true }⟩ := by
  cases hs <;> cases h
  rename_i m hm callback
  exact ⟨hm, callback, rfl⟩

end Sound

end Standing

namespace World

variable {machine : Machine κ}

/-- How controller and hardware of a world stand with each other. -/
def standing (w : World machine φ) : Standing φ :=
  ⟨w.shared.reservation, w.shared.armed, w.shared.slot.callback, .ofHistory w.history⟩

theorem standing_answered (w : World machine φ) (i : Nat) (command : Command φ) (q : Question κ φ)
    (next : Answer q → Operation κ φ Result) :
    (w.answered i command q next).standing = w.standing.after q (w.answer q).1 := by
  unfold standing
  cases q <;> simp only [answered, Paths.ofHistory_concat] <;> rfl

end World

end SharedAdc.Controller
