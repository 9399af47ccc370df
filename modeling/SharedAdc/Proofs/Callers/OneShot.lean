/-
Bursts and time-critical sampling keep the rules of conduct, whatever the hardware replies. A unit
is open exactly while it is in use: every failure on the way deletes it.
-/
import SharedAdc.Proofs.Callers.Sections

namespace SharedAdc.Controller

open Mode Standing

variable {κ φ : Type} {channel : Channel} {range : Range} {entry now : Standing φ}
variable {burst : Option Burst} {cleared : Option Channel}

/-! ## Setting up a one-shot unit -/

/-- A unit that cannot be set up is not left open. -/
theorem configureOneShot_obeys (he : entry.reservation.session ≠ .oneShot)
    (hc : now.callback = none) (hp : now.paths = {}) :
    (configureOneShot channel range : Operation κ φ _).Obeys conduct (.inside none entry now)
      fun result mode =>
        mode = .inside none entry { now with paths := { unit := result.isOk } } := by
  obtain ⟨held, armed, callback, paths⟩ := now
  subst hc hp
  unfold configureOneShot
  simp only [Program.bind_eq, Program.obeys_bind]
  rw [obeys_hardware_inside]
  refine ⟨⟨⟨rfl, rfl⟩, fun h => absurd h he, .inl rfl⟩, ?_⟩
  rintro (fault | ⟨⟩)
  · rfl
  · simp only [Program.obeys_bind]
    rw [obeys_hardware_inside]
    refine ⟨⟨rfl, fun h => absurd h he, .inl rfl⟩, ?_⟩
    rintro (fault | ⟨⟩)
    · simp only [Program.obeys_bind]
      rw [obeys_hardware_inside]
      exact ⟨⟨rfl, fun h => absurd h he, .inl rfl⟩, fun deleted => rfl⟩
    · rfl

/-- A unit that does not take a new setting is disarmed and not left open. -/
theorem reconfigureArmed_obeys (he : entry.reservation.session ≠ .oneShot)
    (hc : now.callback = none) (hp : now.paths = { unit := true }) :
    (reconfigureArmed channel range : Operation κ φ _).Obeys conduct (.inside none entry now)
      fun result mode => mode = .inside none entry
        (if result.isOk then now else { now with armed := none, paths := {} }) := by
  obtain ⟨held, armed, callback, paths⟩ := now
  subst hc hp
  unfold reconfigureArmed
  simp only [Program.bind_eq, Program.obeys_bind]
  rw [obeys_hardware_inside]
  refine ⟨⟨rfl, fun h => absurd h he, .inl rfl⟩, ?_⟩
  rintro (fault | ⟨⟩)
  · simp only [Program.obeys_bind, obeys_ask_arm]
    refine ⟨he, ?_⟩
    rw [obeys_hardware_inside]
    exact ⟨⟨rfl, fun h => absurd h he, .inl rfl⟩, fun deleted => rfl⟩
  · rfl

/-- A set-up that succeeded ends armed, and one that failed with its fallback. -/
theorem finishArming_obeys {held fallback : Reservation}
    {configured : Except HardwareFault Unit} (he : entry.reservation.session ≠ .oneShot)
    (hf : fallback.session ≠ .oneShot)
    (hok : configured.isOk = true → Sound { now with
      reservation := { held with session := .timeCritical channel }, armed := some channel })
    (herr : configured.isOk = false → Sound { now with reservation := fallback }) :
    (finishArming channel held fallback configured : Operation κ φ _).Obeys conduct
      (.inside none entry now) (EndsWell entry) := by
  cases configured with
  | error fault => exact endsWell_sound he (herr rfl) hf _
  | ok _ =>
    simp only [finishArming, Program.bind_eq, Program.obeys_bind, obeys_ask_arm]
    exact ⟨he, endsWell_sound he (hok rfl) (by simp) _⟩

/-! ## Conversions outside the lock -/

theorem readSum_obeys
    (h : burst.map Burst.mask = some (.single channel) ∨ burst = none ∧ cleared = some channel)
    (n : Nat) (sum : UInt64) :
    (readSum channel n sum : Operation κ φ _).Obeys conduct (.away burst cleared)
      fun _ mode => mode = .away burst cleared := by
  induction n generalizing sum with
  | zero => rfl
  | succ n ih =>
    unfold readSum
    simp only [Program.bind_eq, Program.obeys_bind]
    rw [obeys_hardware_away]
    refine ⟨.inr ⟨channel, rfl, h⟩, ?_⟩
    rintro (fault | raw)
    · rfl
    · exact ih _

theorem readAverage_obeys
    (h : burst.map Burst.mask = some (.single channel) ∨ burst = none ∧ cleared = some channel)
    (count : UInt32) :
    (readAverage channel count : Operation κ φ _).Obeys conduct (.away burst cleared)
      fun _ mode => mode = .away burst cleared := by
  unfold readAverage
  simp only [Program.bind_eq, Program.obeys_bind]
  refine (readSum_obeys h _ _).mono ?_
  rintro (fault | sum) _ rfl <;> rfl

/-! ## Bursts -/

/-- Where the first section of a burst leaves its caller: with nothing if it was refused, else
with the channel and with the reservation that is to be put back. -/
def OpenEnds (channel : Channel) : Except AdcError Session → Mode φ → Prop
  | .error _, mode => mode = .away none none
  | .ok prior, mode => (prior = .idle ∨ prior = .reserved) ∧
    mode = .away (some ⟨.single channel, .before (.single channel) prior⟩) none

theorem openBurst_refused (hs : now.Sound) (e : AdcError) :
    ∃ now' : Standing φ, Mode.inside none now now = .inside none now now' ∧
      MayLeave none now now' now.reservation ∧
        OpenEnds channel (.error e) (.away (opened none now now.reservation) none : Mode φ) :=
  ⟨now, rfl, .unchanged hs, by simp [OpenEnds, opened]⟩

/-- A burst is begun with the channel granted to it, as soon as the unit is set up. -/
theorem openBurst_granted {prior : Session} {granted : Reservation} (hs : now.Sound)
    (hg : now.reservation.grant (.single channel) = .ok (prior, granted))
    (hp : prior = .idle ∨ prior = .reserved) :
    ((configureOneShot channel range : Operation κ φ _).bind fun result => match result with
      | .error fault => .done ((.error (.hardware fault) : Except AdcError Session),
        .before (.single channel) prior)
      | .ok () => .done (.ok prior, { granted with session := .oneShot })).Obeys conduct
      (.inside none now now) fun r mode => ∃ now', mode = .inside none now now' ∧
        MayLeave none now now' r.2 ∧
          OpenEnds channel r.1 (.away (opened none now r.2) none : Mode φ) := by
  obtain ⟨rfl, rfl⟩ := hs.vacant hg hp
  have he := before_not_oneShot (.single channel) hp
  rw [Program.obeys_bind]
  refine (configureOneShot_obeys he rfl rfl).mono ?_
  rintro (fault | ⟨⟩) _ rfl
  · exact openBurst_refused hs _
  · refine ⟨_, rfl, .sound_of_ne he (.oneShot channel) fun _ => ?_, hp, by simp [opened, he]⟩
    rcases hp with rfl | rfl
    · exact .inl rfl
    · exact .inr rfl

theorem openBurst_obeys :
    (openBurst channel range : Operation κ φ _).Obeys conduct (.away none cleared)
      (OpenEnds channel) := by
  unfold openBurst
  refine obeys_locked fun s hs _ => ?_
  split
  · exact openBurst_refused hs _
  · rename_i prior granted hg
    split
    · exact openBurst_granted hs hg (.inl rfl)
    · exact openBurst_granted hs hg (.inr rfl)
    · -- the grant met a session under way, and shows it unchanged
      rename_i hidle _
      rw [Sound.granted_eq hg hidle]
      exact openBurst_refused hs _

/-- A burst that ends finds its own session, and puts back what it found. -/
theorem closeBurst_obeys {prior : Session} (hp : prior = .idle ∨ prior = .reserved) :
    (closeBurst channel prior : Operation κ φ _).Obeys conduct
      (.away (some ⟨.single channel, .before (.single channel) prior⟩) cleared)
      fun _ mode => mode = .away none none := by
  unfold closeBurst
  refine obeys_locked fun s hs hb => ?_
  -- the reservation is still that of the burst, so the check for a mismatch passes
  have hr := hb _ rfl
  obtain rfl := hs.eq_oneShot hr
  simp only [ne_eq, not_true_eq_false, or_self, if_false, Program.bind_eq, Program.obeys_bind]
  rw [obeys_hardware_inside]
  refine ⟨⟨rfl, fun _ => ⟨rfl, rfl⟩, .inl rfl⟩, fun deleted => ?_⟩
  refine ⟨_, rfl, ⟨sound_before hp, ?_, by simp, by simp⟩, by simp [opened]⟩
  rintro b ⟨⟩
  rfl

theorem sampleOnce_behaves (config : Config) (channel : Channel) (attenuation : Attenuation)
    (count : UInt32) :
    Behaves (sampleOnce config channel attenuation count : Operation κ φ _) := by
  unfold sampleOnce
  split
  · exact behaves_done _
  · unfold Behaves
    simp only [Program.bind_eq, Program.obeys_bind]
    refine openBurst_obeys.mono ?_
    rintro (e | prior) mode h
    · obtain rfl := h
      simp
    · obtain ⟨hp, rfl⟩ := h
      simp only [Program.obeys_bind]
      refine (readAverage_obeys (.inl rfl) count).mono ?_
      rintro reading _ rfl
      refine (closeBurst_obeys hp).mono ?_
      rintro closing _ rfl
      split <;> simp

/-! ## Time-critical sampling -/

theorem arming_granted {prior : Session} {granted : Reservation} (hs : now.Sound)
    (hg : now.reservation.grant (.single channel) = .ok (prior, granted))
    (hp : prior = .idle ∨ prior = .reserved) :
    ((configureOneShot channel range : Operation κ φ _).bind
      (finishArming channel granted (.before (.single channel) prior))).Obeys conduct
      (.inside none now now) (EndsWell now) := by
  obtain ⟨rfl, rfl⟩ := hs.vacant hg hp
  have he := before_not_oneShot (.single channel) hp
  rw [Program.obeys_bind]
  refine (configureOneShot_obeys he rfl rfl).mono ?_
  rintro configured _ rfl
  refine finishArming_obeys he he (fun hok => ?_) fun herr => ?_
  · rw [hok]
    exact .timeCritical channel
  · rw [herr]
    exact hs

/-- A channel that is armed already takes a new setting, or is given up. -/
theorem arming_again {granted : Reservation} (hs : now.Sound)
    (hg : now.reservation.grant (.single channel) = .ok (.timeCritical channel, granted)) :
    ((reconfigureArmed channel range : Operation κ φ _).bind
      (finishArming channel granted .idle)).Obeys conduct (.inside none now now)
      (EndsWell now) := by
  obtain rfl := Sound.granted_eq hg (by simp)
  obtain ⟨-, h, -⟩ | ⟨-, hr, -⟩ := grant_ok hg
  · cases h
  have he : now.reservation.session ≠ .oneShot := by simp [hr]
  obtain rfl := hs.eq_timeCritical (c := channel) (by simp [hr])
  rw [Program.obeys_bind]
  refine (reconfigureArmed_obeys he rfl rfl).mono ?_
  rintro configured _ rfl
  refine finishArming_obeys he (by simp [Reservation.idle]) (fun hok => ?_) fun herr => ?_
  · rw [hok]
    exact hs
  · rw [herr]
    exact .idle

theorem setupTimeCritical_behaves (config : Config) (channel : Channel)
    (attenuation : Attenuation) :
    Behaves (setupTimeCritical config channel attenuation : Operation κ φ _) := by
  unfold setupTimeCritical
  refine behaves_locked (fun s hs => ?_) fun result => ?_
  · split
    · exact endsWell_unchanged hs _
    · rename_i prior granted hg
      split
      · exact arming_granted hs hg (.inl rfl)
      · exact arming_granted hs hg (.inr rfl)
      · rename_i armed
        -- only the channel that is armed already is set up again
        split
        · rename_i harmed
          subst harmed
          exact arming_again hs hg
        · rw [Sound.granted_eq hg (by simp)]
          exact endsWell_unchanged hs _
      · rename_i hidle _ _
        rw [Sound.granted_eq hg hidle]
        exact endsWell_unchanged hs _
  · cases result <;> exact behaves_note _ _

theorem releaseTimeCritical_behaves (channel : Channel) :
    Behaves (releaseTimeCritical channel : Operation κ φ _) := by
  unfold releaseTimeCritical
  refine behaves_locked (fun s hs => ?_) fun result => ?_
  · split
    · exact endsWell_unchanged hs _
    · rename_i hheld
      obtain ⟨-, htc⟩ : s.reservation.active = .single channel ∧
          s.reservation.session = .timeCritical channel := by simpa using hheld
      have he : s.reservation.session ≠ .oneShot := by simp [htc]
      obtain rfl := hs.eq_timeCritical htc
      simp only [Program.bind_eq, Program.obeys_bind]
      rw [obeys_ask_arm]
      refine ⟨he, ?_⟩
      rw [obeys_hardware_inside]
      refine ⟨⟨rfl, fun h => absurd h he, .inl rfl⟩, fun deleted => ?_⟩
      exact endsWell_sound he .idle (by simp [Reservation.idle]) _
  · cases result <;> exact behaves_note _ _

theorem sampleTimeCritical_behaves (channel : Channel) (count : UInt32) :
    Behaves (sampleTimeCritical channel count : Operation κ φ _) := by
  unfold sampleTimeCritical
  split
  · exact behaves_done _
  · unfold Behaves
    simp only [Program.bind_eq, Program.obeys_bind, obeys_ask_armed]
    rintro (_ | armed)
    · exact ⟨none, rfl⟩
    · by_cases harmed : armed = channel
      · subst harmed
        simp only [if_true, Program.obeys_bind]
        refine (readAverage_obeys (.inr ⟨rfl, rfl⟩) count).mono ?_
        rintro reading _ rfl
        exact ⟨some armed, rfl⟩
      · simp only [harmed, if_false]
        exact ⟨some armed, rfl⟩

end SharedAdc.Controller
