/-
Sampling in phases. Setting a channel up, converting on it and releasing it again are three operations
with checks of their own, and a burst does the same in one; from the idle state they come to the same
calls, the same state and the same result, wherever the hardware fails.
-/
import SharedAdc.Proofs.Callers.Closing
import SharedAdc.Proofs.Program.Larger

namespace SharedAdc.Controller

variable {κ φ α : Type} {machine : Machine κ}

/-! ## Phases -/

/-- The first of two errors, else the value that was sampled. -/
def firstErrorOrValue (sampled : Except AdcError α) (released : Except AdcError Unit) :
    Except AdcError α :=
  match sampled, released with
  | .error e, _ => .error e
  | .ok _, .error e => .error e
  | .ok value, .ok () => .ok value

/-- The average of `count` conversions, with the path set up and taken down by calls of their own. A
channel that could be set up is released whatever converting on it comes to. -/
def sampleInPhases (config : Config) (channel : Channel) (attenuation : Attenuation)
    (count : UInt32) : Operation κ φ (Except AdcError UInt16) := do
  match ← setupTimeCritical config channel attenuation with
  | .error e => return .error e
  | .ok () =>
    let sampled ← sampleTimeCritical channel count
    let released ← releaseTimeCritical channel
    return firstErrorOrValue sampled released

/-! ## Operations of calls alone -/

/-- Only calls to the hardware. -/
def callsOnly : Rules (Question κ φ) Answer Unit where
  allows _ q := ∃ call, q = .hardware call
  leads _ _ _ _ := True

theorem callsOnly_hardware (call : HardwareCall κ) :
    (hardware call : Operation κ φ call.Reply).Respects callsOnly :=
  ⟨⟨call, rfl⟩, fun _ _ _ => trivial⟩

theorem callsOnly_configureOneShot (channel : Channel) (range : Range) :
    (configureOneShot channel range : Operation κ φ _).Respects callsOnly := by
  refine (callsOnly_hardware .createOneShotUnit).bind fun created => ?_
  rcases created with fault | ⟨⟩
  · trivial
  · refine (callsOnly_hardware (.configureOneShotChannel channel range)).bind fun configured => ?_
    rcases configured with fault | ⟨⟩
    · exact (callsOnly_hardware .deleteOneShotUnit).bind fun _ => trivial
    · trivial

theorem callsOnly_readSum (channel : Channel) (n : Nat) (sum : UInt64) :
    (readSum channel n sum : Operation κ φ _).Respects callsOnly := by
  induction n generalizing sum with
  | zero => trivial
  | succ n ih =>
    refine (callsOnly_hardware (.readOneShot channel)).bind fun reading => ?_
    rcases reading with fault | raw
    · trivial
    · exact ih _

theorem callsOnly_readAverage (channel : Channel) (count : UInt32) :
    (readAverage channel count : Operation κ φ _).Respects callsOnly := by
  refine (callsOnly_readSum channel count.toNat 0).bind fun sum => ?_
  cases sum <;> trivial

namespace Site

variable {traffic : Traffic machine} {s : Site machine φ}

/-- The site with another reservation, lock and armed channel. -/
def guard (s : Site machine φ) (held : Reservation) (locked : Bool) (armed : Option Channel) :
    Site machine φ :=
  { s with shared := { s.shared with reservation := held, locked, armed } }

/-- Calls neither see nor touch the reservation, the lock and the armed channel. -/
theorem after_guard {p : Operation κ φ α} (h : p.Respects callsOnly) (s : Site machine φ)
    (held : Reservation) (locked : Bool) (armed : Option Channel) :
    (s.guard held locked armed).after traffic p =
      ((s.after traffic p).1, (s.after traffic p).2.guard held locked armed) := by
  induction p generalizing s with
  | done a => rfl
  | ask q next ih =>
    obtain ⟨⟨call, rfl⟩, hnext⟩ := h
    exact ih _ (hnext _ () trivial) (s.perform traffic call).2

theorem guarded_after {p : Operation κ φ α} (h : p.Respects callsOnly) (s : Site machine φ) :
    (s.after traffic p).2.guard s.shared.reservation s.shared.locked s.shared.armed =
      (s.after traffic p).2 :=
  (congrArg Prod.snd (after_guard h s s.shared.reservation s.shared.locked s.shared.armed)).symm

variable (traffic) in
/-- The frames that come while calls are made leave the callback in place. -/
theorem callback_after {p : Operation κ φ α} (h : p.Respects callsOnly) (s : Site machine φ) :
    (s.after traffic p).2.shared.slot.callback = s.shared.slot.callback := by
  induction p generalizing s with
  | done a => rfl
  | ask q next ih =>
    obtain ⟨⟨call, rfl⟩, hnext⟩ := h
    refine (ih _ (hnext _ () trivial) (s.perform traffic call).2).trans ?_
    exact s.shared.slot.callback_deliverMany _

/-! ## The common course -/

section

variable (traffic) (config : Config) (channel : Channel) (attenuation : Attenuation)
  (count : UInt32)

/-- A channel is set up, converted on and released, from the idle state back to it: what this comes to,
and the site after it. -/
def bracketed (s : Site machine φ) : Except AdcError UInt16 × Site machine φ :=
  let configured := s.enter.after traffic (configureOneShot channel ⟨attenuation, config.width⟩)
  match configured.1 with
  | .error fault => (.error (.hardware fault), configured.2.guard .idle false none)
  | .ok () =>
    let reading := configured.2.after traffic (readAverage channel count)
    let deleted := reading.2.perform traffic .deleteOneShotUnit
    (firstErrorOrValue (reading.1.mapError .hardware) (deleted.1.mapError .hardware),
      deleted.2.guard .idle false none)

end

variable {config : Config} {channel : Channel} {attenuation : Attenuation} {count : UInt32}

theorem isIdle_bracketed (hempty : s.shared.slot.callback = none) :
    (s.bracketed traffic config channel attenuation count).2.shared.IsIdle := by
  have hconfigured := callback_after traffic
    (callsOnly_configureOneShot channel ⟨attenuation, config.width⟩) s.enter
  unfold bracketed
  generalize s.enter.after traffic (configureOneShot channel ⟨attenuation, config.width⟩) =
    configured at hconfigured ⊢
  obtain ⟨fault | ⟨⟩, t⟩ := configured
  · exact ⟨rfl, rfl, rfl, hconfigured.trans hempty⟩
  · have hreading := callback_after traffic (callsOnly_readAverage channel count) t
    refine ⟨rfl, rfl, rfl, ?_⟩
    refine (FrameSlot.callback_deliverMany ..).trans ?_
    exact hreading.trans (hconfigured.trans hempty)

/-! ## The ways to take it -/

/-- A section that sets the path up arms no channel with it. -/
theorem leave_configured {range : Range} (hidle : s.shared.IsIdle) (held : Reservation) :
    let configured := s.enter.after traffic (configureOneShot channel range)
    configured.2.leave held = configured.2.guard held false none := by
  intro configured
  have harmed : configured.2.shared.armed = none := by
    have hguarded : configured.2.guard .idle true s.shared.armed = configured.2 := by
      rw [← hidle.reservation]
      exact guarded_after (callsOnly_configureOneShot channel range) s.enter
    rw [← hguarded]
    exact hidle.armed
  rw [← harmed]
  rfl

theorem openBurst_idle {range : Range} (hidle : s.shared.IsIdle) :
    s.after traffic (openBurst channel range) =
      let configured := s.enter.after traffic (configureOneShot channel range)
      match configured.1 with
      | .error fault => (.error (.hardware fault), configured.2.guard .idle false none)
      | .ok () => (.ok .idle, configured.2.guard ⟨.single channel, .oneShot⟩ false none) := by
  unfold openBurst
  rw [after_locked, hidle.reservation, Reservation.grant_idle]
  simp only [Program.bind_eq, after_bind, ← leave_configured hidle]
  rcases (s.enter.after traffic (configureOneShot channel range)).1 with fault | ⟨⟩ <;> rfl

theorem closeBurst_own : (s.guard ⟨.single channel, .oneShot⟩ false none).after traffic
    (closeBurst channel .idle) =
      let deleted := s.perform traffic .deleteOneShotUnit
      (deleted.1.mapError .hardware, deleted.2.guard .idle false none) := by
  unfold closeBurst
  rw [after_locked, if_neg (by simp [guard])]
  rfl

theorem sampleOnce_bracketed (hcount : count ≠ 0) (hidle : s.shared.IsIdle) :
    s.after traffic (sampleOnce config channel attenuation count) =
      s.bracketed traffic config channel attenuation count := by
  have hcheck : checkCount count = .ok () := if_neg hcount
  simp only [sampleOnce, hcheck, Program.bind_eq, after_bind, openBurst_idle hidle]
  unfold bracketed
  generalize s.enter.after traffic (configureOneShot channel ⟨attenuation, config.width⟩) =
    configured
  obtain ⟨fault | ⟨⟩, t⟩ := configured
  · rfl
  · dsimp only
    rw [after_bind, after_guard (callsOnly_readAverage channel count), after_bind, closeBurst_own]
    generalize t.after traffic (readAverage channel count) = reading
    obtain ⟨fault | value, u⟩ := reading
    · rfl
    · dsimp only
      generalize u.perform traffic .deleteOneShotUnit = deleted
      obtain ⟨fault | ⟨⟩, v⟩ := deleted <;> rfl

theorem setupTimeCritical_idle (hidle : s.shared.IsIdle) :
    s.after traffic (setupTimeCritical config channel attenuation) =
      let configured := s.enter.after traffic (configureOneShot channel ⟨attenuation, config.width⟩)
      match configured.1 with
      | .error fault => (.error (.hardware fault), configured.2.guard .idle false none)
      | .ok () => (.ok (), configured.2.guard ⟨.single channel, .timeCritical channel⟩ false
          (some channel)) := by
  unfold setupTimeCritical
  refine (after_announced fun result t => by cases result <;> rfl).trans ?_
  rw [after_locked, hidle.reservation, Reservation.grant_idle]
  simp only [Program.bind_eq, after_bind, ← leave_configured hidle]
  rcases (s.enter.after traffic (configureOneShot channel _)).1 with fault | ⟨⟩ <;> rfl

/-- On the armed channel a conversion is just its readings. -/
theorem sampleTimeCritical_armed (hcount : count ≠ 0) (harmed : s.shared.armed = some channel) :
    s.after traffic (sampleTimeCritical channel count) =
      let reading := s.after traffic (readAverage channel count)
      (reading.1.mapError .hardware, reading.2) := by
  have hcheck : checkCount count = .ok () := if_neg hcount
  have hshown : @after κ φ (Option Channel) machine traffic s (ask .armed) = (some channel, s) := by
    rw [← harmed]
    rfl
  simp only [sampleTimeCritical, hcheck, Program.bind_eq, after_bind, hshown, if_true,
    Program.pure_eq, after_done]

theorem sampleInPhases_bracketed (hcount : count ≠ 0) (hidle : s.shared.IsIdle) :
    s.after traffic (sampleInPhases config channel attenuation count) =
      s.bracketed traffic config channel attenuation count := by
  simp only [sampleInPhases, Program.bind_eq, after_bind, setupTimeCritical_idle hidle]
  unfold bracketed
  generalize s.enter.after traffic (configureOneShot channel ⟨attenuation, config.width⟩) =
    configured
  obtain ⟨fault | ⟨⟩, t⟩ := configured
  · rfl
  · dsimp only
    rw [after_bind, sampleTimeCritical_armed hcount rfl,
      after_guard (callsOnly_readAverage channel count), after_bind, releaseTimeCritical_closes rfl]
    rfl

/-- From the idle state, whatever the hardware replies: to set a channel up, to convert on it and to
release it again comes to what a burst comes to. The calls and their replies are the same, the result is
the same, which is the first error of the three operations if there is one, and the same state is left
behind, with an idle controller. -/
theorem phases_agree (config : Config) (channel : Channel) (attenuation : Attenuation)
    {count : UInt32} (hcount : count ≠ 0) (traffic : Traffic machine) {s : Site machine φ}
    (hidle : s.shared.IsIdle) :
    let once := s.after traffic (sampleOnce config channel attenuation count)
    s.after traffic (sampleInPhases config channel attenuation count) = once ∧
      once.2.shared.IsIdle := by
  intro once
  have honce : once = s.bracketed traffic config channel attenuation count :=
    sampleOnce_bracketed hcount hidle
  rw [honce]
  exact ⟨sampleInPhases_bracketed hcount hidle, isIdle_bracketed hidle.callback⟩

/-- Where neither reading nor deleting the unit works, either way reads once, tries to delete the unit
and reports that reading has failed. -/
theorem phases_agree_failing :
    let s : Site Machine.recording Unit :=
      { shared := {}, memory := { failing := [.readOneShot, .deleteOneShotUnit] } }
    let once := s.after (fun _ _ => 0) (sampleOnce {} ⟨3⟩ .db12 4)
    s.after (fun _ _ => 0) (sampleInPhases {} ⟨3⟩ .db12 4) = once ∧
      once.1 = .error (.hardware ⟨.readOneShot, HardwareFault.failed⟩) ∧
      once.2.calls.map AnsweredCall.call = [.createOneShotUnit,
        .configureOneShotChannel ⟨3⟩ ⟨.db12, .bits12⟩, .readOneShot ⟨3⟩, .deleteOneShotUnit] ∧
      once.2.shared.IsIdle := by
  intro s
  obtain ⟨hphases, hidle⟩ := phases_agree {} ⟨3⟩ .db12 (by decide : (4 : UInt32) ≠ 0) (fun _ _ => 0)
    (s := s) ⟨rfl, rfl, rfl, rfl⟩
  exact ⟨hphases, rfl, by decide +kernel, hidle⟩

end Site

end SharedAdc.Controller
