/-
How bursts and time-critical sampling end for a party that keeps watch, whatever the hardware
replies. A burst leaves everything as it was for everybody who counts on what lasts.
-/
import SharedAdc.Proofs.Watch.Holding

namespace SharedAdc.Controller

open Standing

variable {κ φ : Type} {custom : Custom φ} {last now : View φ} {channel : Channel} {range : Range}

/-! ## Conversions -/

theorem readSum_watched (n : Nat) (sum : UInt64) :
    (readSum channel n sum : Operation κ φ _).Obeys (watch custom) (.away last)
      fun _ mode => mode = .away last := by
  induction n generalizing sum with
  | zero => rfl
  | succ n ih =>
    unfold readSum
    simp only [Program.bind_eq, Program.obeys_bind]
    rw [watch_hardware_away]
    rintro (fault | raw)
    · rfl
    · exact ih _

theorem readAverage_watched (count : UInt32) :
    (readAverage channel count : Operation κ φ _).Obeys (watch custom) (.away last)
      fun _ mode => mode = .away last := by
  unfold readAverage
  simp only [Program.bind_eq, Program.obeys_bind]
  refine (readSum_watched _ _).mono ?_
  rintro (fault | sum) _ rfl <;> rfl

/-! ## Bursts -/

/-- A unit that cannot be set up is not left open. -/
theorem configureOneShot_watched {tried : Bool} (hp : now.paths = {}) :
    (configureOneShot channel range : Operation κ φ _).Obeys (watch custom) (.inside now tried)
      fun result mode => ∃ tried',
        mode = .inside { now with paths := { unit := result.isOk } } tried' := by
  have hkeeps : ∀ (v : View φ) (call : HardwareCall κ) reply,
      call.tableAfter v.table reply = v.table →
        custom.keeps v (v.after (.hardware call) reply) :=
    fun v call reply h => custom.keeps_of_steady (.of_hardware h)
  obtain ⟨⟨held, armed, callback, paths⟩, table⟩ := now
  obtain rfl : paths = {} := hp
  unfold configureOneShot
  simp only [Program.bind_eq, Program.obeys_bind]
  rw [watch_hardware]
  refine ⟨fun _ => hkeeps _ _ _ rfl, trivial, ?_⟩
  rintro (fault | ⟨⟩)
  · exact ⟨_, rfl⟩
  · simp only [Program.obeys_bind]
    rw [watch_hardware]
    refine ⟨fun _ => hkeeps _ _ _ rfl, trivial, ?_⟩
    rintro (fault | ⟨⟩)
    · simp only [Program.obeys_bind]
      rw [watch_hardware]
      exact ⟨fun _ => hkeeps _ _ _ rfl, trivial, fun deleted => ⟨_, rfl⟩⟩
    · exact ⟨_, rfl⟩

/-- How the first section of a burst ends: nobody else is concerned, and a burst that was opened can
put back what it has found. -/
def Opens (custom : Custom φ) (channel : Channel) (result : Except AdcError Session)
    (v v' : View φ) : Prop :=
  v.Steady v' ∧ ∀ prior, result = .ok prior → (prior = .idle ∨ prior = .reserved) ∧
    custom.fair (.before (.single channel) prior)

theorem Opens.refused {e : AdcError} (v : View φ) : Opens custom channel (.error e) v v :=
  ⟨.refl v, by simp⟩

theorem openBurst_granted_watched {v : View φ} {prior : Session} {granted : Reservation}
    (hs : v.Sound) (hfair : custom.fair v.reservation)
    (hg : v.reservation.grant (.single channel) = .ok (prior, granted))
    (hp : prior = .idle ∨ prior = .reserved) :
    ((configureOneShot channel range : Operation κ φ _).bind fun result => match result with
      | .error fault => .done ((.error (.hardware fault) : Except AdcError Session),
        .before (.single channel) prior)
      | .ok () => .done (.ok prior, { granted with session := .oneShot })).Obeys (watch custom)
      (.inside v false) fun r mode => custom.Puts (Opens custom channel r.1 v) r.2 mode := by
  obtain ⟨hvacant, rfl⟩ := hs.vacant hg hp
  have hshort := View.not_lasts_of_vacant hvacant hp
  have hback := not_lasts_before (.single channel) hp
  have hr : v.reservation = .before (.single channel) prior := congrArg Standing.reservation hvacant
  rw [hr] at hfair
  rw [Program.obeys_bind]
  refine (configureOneShot_watched (congrArg Standing.paths hvacant)).mono ?_
  rintro (fault | ⟨⟩) _ ⟨tried, rfl⟩
  · exact ⟨_, tried, rfl, hfair,
      custom.keeps_of_steady (.of_not_lasts rfl rfl rfl hshort hback),
      .of_not_lasts rfl rfl rfl hshort hback, by simp⟩
  · refine ⟨_, tried, rfl, custom.fair_of_ne (by simp),
      custom.keeps_of_steady (.of_not_lasts rfl rfl rfl hshort id),
      .of_not_lasts rfl rfl rfl hshort id, ?_⟩
    rintro _ ⟨⟩
    exact ⟨hp, hfair⟩

theorem openBurst_watched :
    (openBurst channel range : Operation κ φ _).Obeys (watch custom) (.away last)
      (custom.Ends last (Opens custom channel)) := by
  unfold openBurst
  refine watch_body fun v hs hfair => ?_
  split
  · exact Custom.puts_unchanged hfair (.refused v)
  · rename_i prior granted hg
    split
    · exact openBurst_granted_watched hs hfair hg (.inl rfl)
    · exact openBurst_granted_watched hs hfair hg (.inr rfl)
    · -- the grant met a session under way, and shows it unchanged
      rename_i hidle _
      rw [Sound.granted_eq hg hidle]
      exact Custom.puts_unchanged hfair (.refused v)

theorem closeBurst_watched {prior : Session} (hp : prior = .idle ∨ prior = .reserved)
    (hback : custom.fair (.before (.single channel) prior)) :
    (closeBurst channel prior : Operation κ φ _).Obeys (watch custom) (.away last)
      (custom.Ends last fun _ v v' => v.Steady v') := by
  unfold closeBurst
  refine watch_body fun v hs hfair => ?_
  split
  · exact Custom.puts_unchanged hfair (.refl v)
  · rename_i hheld
    obtain ⟨-, hone⟩ : v.reservation.active = .single channel ∧ v.session = .oneShot := by
      simpa using hheld
    have hshort : ¬v.session.Lasts := by
      rw [hone]
      exact id
    have hshort' := not_lasts_before (.single channel) hp
    simp only [Program.bind_eq, Program.obeys_bind]
    rw [watch_hardware]
    refine ⟨fun _ => custom.keeps_of_steady (.of_hardware rfl), trivial, fun deleted => ?_⟩
    exact ⟨_, _, rfl, hback,
      custom.keeps_of_steady (.of_not_lasts rfl rfl rfl hshort hshort'),
      .of_not_lasts rfl rfl rfl hshort hshort'⟩

/-- Whatever comes of a burst, it is as if the party had only looked on. -/
theorem sampleOnce_watched (config : Config) (channel : Channel) (attenuation : Attenuation)
    (count : UInt32) :
    (sampleOnce config channel attenuation count : Operation κ φ _).Obeys (watch custom)
      (.away last) (custom.Ends last fun _ v v' => v.Steady v') := by
  unfold sampleOnce
  split
  · exact Custom.ends_unchanged (.refl last)
  · simp only [Program.bind_eq, Program.obeys_bind]
    refine openBurst_watched.mono ?_
    rintro (e | prior) _ ⟨v, v', hv, ⟨hsteady, hprior⟩, rfl⟩
    · simp only [Program.obeys_bind, watch_note]
      exact ⟨v, v', hv, hsteady, rfl⟩
    · obtain ⟨hp, hback⟩ := hprior prior rfl
      simp only [Program.obeys_bind]
      refine (readAverage_watched count).mono ?_
      rintro reading _ rfl
      refine (closeBurst_watched hp hback).mono ?_
      rintro closing _ ⟨u, u', hu, hsteady', rfl⟩
      -- what others did between the two sections is what the party counts on anyway
      have hends : custom.relies last u :=
        custom.trans hv (custom.trans (custom.relies_of_steady hsteady) hu)
      split <;> simp only [Program.obeys_bind, watch_note] <;> exact ⟨u, u', hends, hsteady', rfl⟩

/-! ## Time-critical sampling -/

/-- How setting up ends: refused, failed, given up on the armed channel, or armed. -/
inductive Arms (channel : Channel) : Except AdcError Unit → View φ → View φ → Prop where
  | refused {e : AdcError} {v : View φ} (he : e.requiresReinit = false) :
    Arms channel (.error e) v v
  | failed {fault : HardwareFault} {v : View φ} : Arms channel (.error (.hardware fault)) v v
  | disarmed {fault : HardwareFault} {v : View φ} (h : v.session = .timeCritical channel) :
    Arms channel (.error (.hardware fault)) v { table := v.table }
  | armed {v : View φ} (h : ¬v.session.Lasts ∨ v.session = .timeCritical channel) :
    Arms channel (.ok ()) v
      { reservation := ⟨.single channel, .timeCritical channel⟩
        armed := some channel
        paths := { unit := true }
        table := v.table }

theorem finishArming_watched (hfree : custom.Free) {held fallback : Reservation} {tried : Bool}
    {configured : Except HardwareFault Unit} (deal : Except AdcError Unit → View φ → Prop)
    (hfair : custom.fair fallback)
    (herr : ∀ fault, configured = .error fault →
      deal (.error (.hardware fault)) { now with reservation := fallback })
    (hok : configured = .ok () → deal (.ok ()) { now with
      reservation := ⟨held.active, .timeCritical channel⟩, armed := some channel }) :
    (finishArming channel held fallback configured : Operation κ φ _).Obeys (watch custom)
      (.inside now tried) fun r mode => custom.Puts (deal r.1) r.2 mode := by
  cases configured with
  | error fault => exact ⟨now, tried, rfl, hfair, hfree _ _, herr fault rfl⟩
  | ok _ =>
    simp only [finishArming, Program.bind_eq, Program.obeys_bind]
    rw [watch_arm]
    exact ⟨hfree _ _, _, tried, rfl, custom.fair_of_ne (by simp), hfree _ _, hok rfl⟩

theorem arming_granted_watched (hfree : custom.Free) {v : View φ} {prior : Session}
    {granted : Reservation} (hs : v.Sound) (hfair : custom.fair v.reservation)
    (hg : v.reservation.grant (.single channel) = .ok (prior, granted))
    (hp : prior = .idle ∨ prior = .reserved) :
    ((configureOneShot channel range : Operation κ φ _).bind
      (finishArming channel granted (.before (.single channel) prior))).Obeys (watch custom)
      (.inside v false) fun r mode => custom.Puts (Arms channel r.1 v) r.2 mode := by
  obtain ⟨hvacant, rfl⟩ := hs.vacant hg hp
  have hshort := View.not_lasts_of_vacant hvacant hp
  obtain ⟨⟨held, armed, callback, paths⟩, table⟩ := v
  cases hvacant
  rw [Program.obeys_bind]
  refine (configureOneShot_watched rfl).mono ?_
  rintro configured _ ⟨tried, rfl⟩
  refine finishArming_watched hfree (fun r => Arms channel r _) hfair ?_ ?_
  · rintro fault rfl
    exact .failed
  · rintro rfl
    exact .armed (.inl hshort)

/-- A channel that is armed already takes a new setting, or is given up. -/
theorem arming_again_watched (hfree : custom.Free) {v : View φ} {granted : Reservation}
    (hs : v.Sound)
    (hg : v.reservation.grant (.single channel) = .ok (.timeCritical channel, granted)) :
    ((reconfigureArmed channel range : Operation κ φ _).bind
      (finishArming channel granted .idle)).Obeys (watch custom)
      (.inside v false) fun r mode => custom.Puts (Arms channel r.1 v) r.2 mode := by
  obtain rfl := Sound.granted_eq hg (by simp)
  obtain ⟨-, h, -⟩ | ⟨-, hr, -⟩ := grant_ok hg
  · cases h
  have hsession : v.session = .timeCritical channel := by rw [View.session, hr]
  obtain ⟨standing, table⟩ := v
  obtain rfl := hs.eq_timeCritical hsession
  have hidle : custom.fair .idle := custom.fair_of_ne (by simp [Reservation.idle])
  unfold reconfigureArmed
  simp only [Program.bind_eq, Program.obeys_bind]
  rw [watch_hardware]
  refine ⟨fun _ => hfree _ _, trivial, ?_⟩
  rintro (fault | ⟨⟩)
  · simp only [Program.obeys_bind]
    rw [watch_arm]
    refine ⟨hfree _ _, ?_⟩
    rw [watch_hardware]
    refine ⟨fun _ => hfree _ _, trivial, fun deleted => ?_⟩
    refine finishArming_watched hfree (fun r => Arms channel r _) hidle ?_ ?_
    · rintro _ ⟨⟩
      exact .disarmed hsession
    · rintro ⟨⟩
  · refine finishArming_watched hfree (fun r => Arms channel r _) hidle ?_ ?_
    · rintro _ ⟨⟩
    · rintro -
      exact .armed (.inr hsession)

theorem setupTimeCritical_watched (hfree : custom.Free) (config : Config) (channel : Channel)
    (attenuation : Attenuation) :
    (setupTimeCritical config channel attenuation : Operation κ φ _).Obeys (watch custom)
      (.away last) (custom.Ends last (Arms channel)) := by
  unfold setupTimeCritical
  refine watch_section (fun v hs hv => ?_) fun result v => ?_
  · split
    · rename_i e hg
      rw [grant_error hg]
      exact Custom.puts_unchanged hv (.refused rfl)
    · rename_i prior granted hg
      split
      · exact arming_granted_watched hfree hs hv hg (.inl rfl)
      · exact arming_granted_watched hfree hs hv hg (.inr rfl)
      · rename_i armed
        split
        · rename_i harmed
          subst harmed
          exact arming_again_watched hfree hs hg
        · rw [Sound.granted_eq hg (by simp)]
          exact Custom.puts_unchanged hv (.refused rfl)
      · rename_i hidle _ _
        rw [Sound.granted_eq hg hidle]
        exact Custom.puts_unchanged hv (.refused rfl)
  · cases result <;> exact watch_note_done _ _ _

/-- How ending time-critical sampling ends: refused where the channel is not sampled so, or with
nothing left. -/
inductive Disarms (channel : Channel) : Except AdcError Unit → View φ → View φ → Prop where
  | refused {e : AdcError} {v : View φ} (he : e.requiresReinit = false) (hs : v.Sound)
    (h : v.session ≠ .timeCritical channel) : Disarms channel (.error e) v v
  | disarmed {result : Except AdcError Unit} {v : View φ} (h : v.session = .timeCritical channel) :
    Disarms channel result v { table := v.table }

theorem releaseTimeCritical_watched (hfree : custom.Free) (channel : Channel) :
    (releaseTimeCritical channel : Operation κ φ _).Obeys (watch custom) (.away last)
      (custom.Ends last (Disarms channel)) := by
  unfold releaseTimeCritical
  refine watch_section (fun v hs hv => ?_) fun result v => ?_
  · split
    · rename_i hheld
      refine Custom.puts_unchanged hv (.refused rfl hs fun hsession => ?_)
      -- such a session holds exactly its channel
      have hactive := congrArg (·.reservation.active) (hs.eq_timeCritical hsession)
      rcases hheld with hmask | hother
      · exact hmask hactive
      · exact hother hsession
    · rename_i hheld
      obtain ⟨-, hsession⟩ : v.reservation.active = .single channel ∧
          v.session = .timeCritical channel := by simpa using hheld
      obtain ⟨standing, table⟩ := v
      obtain rfl := hs.eq_timeCritical hsession
      simp only [Program.bind_eq, Program.obeys_bind]
      rw [watch_arm]
      refine ⟨hfree _ _, ?_⟩
      rw [watch_hardware]
      refine ⟨fun _ => hfree _ _, trivial, fun deleted => ?_⟩
      exact Custom.Ebbs.puts_idle hfree.ebbs (.disarmed hsession)
  · cases result <;> exact watch_note_done _ _ _

/-- How time-critical sampling ends: it has only looked at the armed channel, and an error that asks
for no fresh start says that it was another one, or that nothing was to be sampled. -/
def Reads (channel : Channel) (count : UInt32) (result : Except AdcError UInt16)
    (v v' : View φ) : Prop :=
  v' = v ∧ ∀ e, result = .error e → e.requiresReinit = false → count = 0 ∨ v.armed ≠ some channel

theorem sampleTimeCritical_watched (channel : Channel) (count : UInt32) :
    (sampleTimeCritical channel count : Operation κ φ _).Obeys (watch custom) (.away last)
      (custom.Ends last (Reads channel count)) := by
  unfold sampleTimeCritical
  split
  · rename_i e hcount
    refine Custom.ends_unchanged ⟨rfl, fun _ _ _ => .inl ?_⟩
    by_cases hzero : count = 0
    · exact hzero
    · simp [checkCount, hzero] at hcount
  · simp only [Program.bind_eq, Program.obeys_bind]
    refine watch_armed fun v hv => ?_
    split
    · rename_i armed hsome
      split
      · simp only [Program.obeys_bind]
        refine (readAverage_watched count).mono ?_
        rintro reading _ rfl
        refine ⟨v, v, hv, ⟨rfl, fun e he hkind => ?_⟩, rfl⟩
        -- a conversion that failed is a fault of the hardware
        cases reading <;> cases he
        cases hkind
      · rename_i hother
        refine ⟨v, v, hv, ⟨rfl, fun _ _ _ => .inr ?_⟩, rfl⟩
        rw [hsome]
        simpa using hother
    · rename_i hnone
      refine ⟨v, v, hv, ⟨rfl, fun _ _ _ => .inr ?_⟩, rfl⟩
      rw [hnone]
      simp

end SharedAdc.Controller
