/-
How callers behave. Outside the lock a caller converts only on a channel that it holds a burst on
or has found armed, and calibrates. Under the lock it makes only calls that are in order, touches
nothing while a burst of somebody else is under way, and leaves a sound standing behind; whoever
ends its own burst puts back the reservation that the burst found.
-/
import SharedAdc.Proofs.Callers.Standing
import SharedAdc.Proofs.Program.Rules

namespace SharedAdc

/-- The calls that convert codes to millivolts. -/
def HardwareCall.IsCalibration {κ : Type} : HardwareCall κ → Prop
  | .createCalibration _ _ | .applyCalibration _ _ | .deleteCalibration _ => True
  | _ => False

namespace Controller

variable {κ φ α : Type}

/-! ## Modes -/

/-- A burst under way: the channels that it holds, and the reservation that it found. -/
structure Burst where
  mask : Mask
  found : Reservation

/-- Where a caller is. -/
inductive Mode (φ : Type) where
  /-- Outside the lock, with a burst of its own or a channel that it found armed. -/
  | away (burst : Option Burst) (cleared : Option Channel)
  /-- Under the lock, with the standing that it came to and the present one. -/
  | inside (burst : Option Burst) (entry now : Standing φ)

namespace Mode

/-- The burst that the caller has under way. -/
@[simp] def burst : Mode φ → Option Burst
  | .away burst _ => burst
  | .inside burst _ _ => burst

/-- Whether the caller is outside the lock. -/
def IsAway : Mode φ → Prop
  | .away _ _ => True
  | .inside _ _ _ => False

/-- Whether the caller may put `held` back: what its own burst found, or what it came to if a burst
of somebody else is under way. A burst is opened only on a free unit or on what was reserved for
it. -/
structure MayLeave (burst : Option Burst) (entry now : Standing φ) (held : Reservation) : Prop where
  sound : Standing.Sound { now with reservation := held }
  ends : ∀ b, burst = some b → held = b.found
  keeps : burst = none → entry.reservation.session = .oneShot → held = entry.reservation
  opens : burst = none → entry.reservation.session ≠ .oneShot → held.session = .oneShot →
    entry.reservation = .idle ∨ entry.reservation = ⟨held.active, .reserved⟩

/-- Whether the caller may make a call under the lock. Calls that set up or take down the
continuous driver find the slot empty. -/
def MayCall (burst : Option Burst) (entry now : Standing φ) (call : HardwareCall κ) : Prop :=
  now.paths.Admits call ∧
    (entry.reservation.session = .oneShot → burst.isSome = true ∧ call = .deleteOneShotUnit) ∧
    (now.callback = none ∨ call = .registerFrameSlot ∨ call = .startContinuous)

/-- What a caller may ask. With a burst under way it only converts, and then ends the burst. -/
def Allows : Mode φ → Question κ φ → Prop
  | .away _ _, .enter => True
  | .away burst _, .armed | .away burst _, .frameCounts | .away burst _, .note _ => burst = none
  | .away burst cleared, .hardware call =>
    burst = none ∧ call.IsCalibration ∨ ∃ c, call = .readOneShot c ∧
      (burst.map Burst.mask = some (.single c) ∨ burst = none ∧ cleared = some c)
  | .away _ _, _ => False
  | .inside burst entry now, .leave held => MayLeave burst entry now held
  | .inside burst entry now, .hardware call => MayCall burst entry now call
  | .inside burst _ _, .note _ => burst = none
  | .inside _ entry _, .arm _ | .inside _ entry _, .installCallback _
  | .inside _ entry _, .clearCallback | .inside _ entry _, .resetFrameCounts =>
    entry.reservation.session ≠ .oneShot
  | .inside _ _ _, _ => False

/-- The burst of a caller that leaves `held` behind: one it has just opened, if any. -/
def opened (burst : Option Burst) (entry : Standing φ) (held : Reservation) : Option Burst :=
  if burst = none ∧ entry.reservation.session ≠ .oneShot ∧ held.session = .oneShot then
    some ⟨held.active, entry.reservation⟩
  else none

/-- Where a caller is after an answer. Whoever comes under the lock meets the standing `s`. -/
def next (s : Standing φ) : Mode φ → (q : Question κ φ) → Answer q → Mode φ
  | .away burst _, .enter, _ => .inside burst s s
  | .away burst _, .armed, channel => .away burst channel
  | .away burst cleared, _, _ => .away burst cleared
  | .inside burst entry _, .leave held, _ => .away (opened burst entry held) none
  | .inside burst entry now, q, reply => .inside burst entry (now.after q reply)

/-- What may be met: under the lock a sound standing, and whoever has a burst meets it there. -/
def Meets (s : Standing φ) : Mode φ → (q : Question κ φ) → Answer q → Prop
  | .away burst _, .enter, held =>
    s.Sound ∧ s.reservation = held ∧ ∀ b, burst = some b → held = ⟨b.mask, .oneShot⟩
  | _, _, _ => True

/-- Where an answer can lead. -/
def Leads (mode : Mode φ) (q : Question κ φ) (a : Answer q) (mode' : Mode φ) : Prop :=
  ∃ s : Standing φ, mode.Meets s q a ∧ mode' = mode.next s q a

end Mode

/-- The rules that every operation of a controller keeps to. -/
def conduct : Rules (Question κ φ) Answer (Mode φ) := ⟨Mode.Allows, Mode.Leads⟩

/-- The operation keeps the rules from outside the lock, and ends outside of it with no burst
under way. -/
def Behaves (p : Operation κ φ α) : Prop :=
  p.Obeys conduct (.away none none) fun _ mode => ∃ cleared, mode = .away none cleared

/-! ## Single questions -/

section

variable {burst : Option Burst} {cleared : Option Channel} {entry now : Standing φ}

theorem obeys_ask (q : Question κ φ) (mode : Mode φ) (post : Answer q → Mode φ → Prop) :
    (ask q : Operation κ φ (Answer q)).Obeys conduct mode post ↔
      mode.Allows q ∧ ∀ a s, mode.Meets s q a → post a (mode.next s q a) := by
  refine (Program.obeys_query ..).trans (and_congr_right fun _ => ?_)
  constructor
  · intro h a s hmeets
    exact h a _ ⟨s, hmeets, rfl⟩
  · rintro h a _ ⟨s, hmeets, rfl⟩
    exact h a s hmeets

/-- Short of leaving, a caller under the lock stays there, and meets what the answer makes of the
standing. -/
theorem obeys_ask_inside {q : Question κ φ} (hq : ∀ held, q ≠ .leave held)
    (post : Answer q → Mode φ → Prop) :
    (ask q : Operation κ φ (Answer q)).Obeys conduct (.inside burst entry now) post ↔
      (Mode.inside burst entry now).Allows q ∧
        ∀ a, post a (.inside burst entry (now.after q a)) := by
  rw [obeys_ask]
  refine and_congr_right fun _ => forall_congr' fun a => ?_
  have hnext : ∀ s, (Mode.inside burst entry now).next s q a =
      .inside burst entry (now.after q a) := by
    intro s
    cases q with
    | leave held => exact absurd rfl (hq held)
    | _ => rfl
  have hmeets : ∀ s, (Mode.inside burst entry now).Meets s q a := by
    intro s
    cases q <;> trivial
  simp only [hnext, hmeets, forall_const]

@[simp] theorem obeys_note (notice : Notice) (mode : Mode φ) (post : Unit → Mode φ → Prop) :
    (note notice : Operation κ φ Unit).Obeys conduct mode post ↔
      mode.burst = none ∧ post () mode := by
  refine (obeys_ask ..).trans ?_
  cases mode <;> exact and_congr_right fun _ => ⟨fun h => h () default trivial, fun h _ _ _ => h⟩

@[simp] theorem obeys_ask_armed (post : Option Channel → Mode φ → Prop) :
    @Program.Obeys (Question κ φ) Answer _ (Option Channel) conduct (ask .armed)
        (.away none cleared) post ↔
      ∀ channel, post channel (.away none channel) := by
  refine (obeys_ask ..).trans ?_
  exact ⟨fun h channel => h.2 channel default trivial, fun h => ⟨rfl, fun channel _ _ => h channel⟩⟩

@[simp] theorem obeys_ask_frameCounts (post : UInt32 × UInt32 → Mode φ → Prop) :
    @Program.Obeys (Question κ φ) Answer _ (UInt32 × UInt32) conduct (ask .frameCounts)
        (.away none cleared) post ↔
      ∀ counts, post counts (.away none cleared) := by
  refine (obeys_ask ..).trans ?_
  exact ⟨fun h counts => h.2 counts default trivial, fun h => ⟨rfl, fun counts _ _ => h counts⟩⟩

theorem obeys_hardware_away (call : HardwareCall κ) (post : call.Reply → Mode φ → Prop) :
    (hardware call : Operation κ φ call.Reply).Obeys conduct (.away burst cleared) post ↔
      (burst = none ∧ call.IsCalibration ∨ ∃ c, call = .readOneShot c ∧
        (burst.map Burst.mask = some (.single c) ∨ burst = none ∧ cleared = some c)) ∧
      ∀ reply, post reply (.away burst cleared) := by
  refine (obeys_ask ..).trans (and_congr_right fun _ => ?_)
  exact ⟨fun h reply => h reply default trivial, fun h reply _ _ => h reply⟩

theorem obeys_hardware_inside (call : HardwareCall κ) (post : call.Reply → Mode φ → Prop) :
    (hardware call : Operation κ φ call.Reply).Obeys conduct (.inside burst entry now) post ↔
      Mode.MayCall burst entry now call ∧ ∀ reply,
        post reply (.inside burst entry { now with paths := now.paths.after call reply }) :=
  obeys_ask_inside (q := .hardware call) (by simp) post

@[simp] theorem obeys_ask_arm (channel : Option Channel) (post : Unit → Mode φ → Prop) :
    @Program.Obeys (Question κ φ) Answer _ Unit conduct (ask (.arm channel))
        (.inside burst entry now) post ↔
      entry.reservation.session ≠ .oneShot ∧
      post () (.inside burst entry { now with armed := channel }) :=
  (obeys_ask_inside (q := .arm channel) (by simp) post).trans
    (and_congr_right fun _ => ⟨fun h => h (), fun h _ => h⟩)

@[simp] theorem obeys_ask_installCallback (callback : φ) (post : Unit → Mode φ → Prop) :
    @Program.Obeys (Question κ φ) Answer _ Unit conduct (ask (.installCallback callback))
        (.inside burst entry now) post ↔
      entry.reservation.session ≠ .oneShot ∧
      post () (.inside burst entry { now with callback := some callback }) :=
  (obeys_ask_inside (q := .installCallback callback) (by simp) post).trans
    (and_congr_right fun _ => ⟨fun h => h (), fun h _ => h⟩)

@[simp] theorem obeys_ask_clearCallback (post : Unit → Mode φ → Prop) :
    @Program.Obeys (Question κ φ) Answer _ Unit conduct (ask .clearCallback)
        (.inside burst entry now) post ↔
      entry.reservation.session ≠ .oneShot ∧
      post () (.inside burst entry { now with callback := none }) :=
  (obeys_ask_inside (q := .clearCallback) (by simp) post).trans
    (and_congr_right fun _ => ⟨fun h => h (), fun h _ => h⟩)

@[simp] theorem obeys_ask_resetFrameCounts (post : Unit → Mode φ → Prop) :
    @Program.Obeys (Question κ φ) Answer _ Unit conduct (ask .resetFrameCounts)
        (.inside burst entry now) post ↔
      entry.reservation.session ≠ .oneShot ∧
      post () (.inside burst entry now) :=
  (obeys_ask_inside (q := .resetFrameCounts) (by simp) post).trans
    (and_congr_right fun _ => ⟨fun h => h (), fun h _ => h⟩)

/-- A section under the lock is entered from outside with a sound standing, and what it ends with
has to be fit to be put back. -/
theorem obeys_locked {body : Reservation → Operation κ φ (α × Reservation)}
    {post : α → Mode φ → Prop}
    (h : ∀ s : Standing φ, s.Sound → (∀ b, burst = some b → s.reservation = ⟨b.mask, .oneShot⟩) →
      (body s.reservation).Obeys conduct (.inside burst s s) fun r mode =>
        ∃ now, mode = .inside burst s now ∧ Mode.MayLeave burst s now r.2 ∧
          post r.1 (.away (Mode.opened burst s r.2) none)) :
    (locked body).Obeys conduct (.away burst cleared) post := by
  unfold locked
  simp only [Program.bind_eq, Program.obeys_bind, ask, Program.obeys_query]
  refine ⟨trivial, ?_⟩
  rintro _ _ ⟨s, ⟨hs, rfl, hb⟩, rfl⟩
  refine (h s hs hb).mono ?_
  rintro ⟨result, held⟩ _ ⟨now, rfl, hleave, hpost⟩
  refine ⟨hleave, ?_⟩
  rintro _ _ ⟨_, -, rfl⟩
  exact hpost

end

end Controller

end SharedAdc
