/-
Bursts and time-critical sampling keep the rules of tenure: a unit is set up for its channel before
a burst is left behind or the channel is armed.
-/
import SharedAdc.Proofs.Tenure.Basic

namespace SharedAdc.Controller

variable {κ φ : Type} {i : Nat} {command : Command φ} {channel : Channel} {range : Range}
variable {a : Account κ φ} {f : Fitting} {config : Config} {attenuation : Attenuation}
  {count : UInt32}

/-! ## Setting up a one-shot unit -/

/-- A unit that could be set up is the caller's own, and is set up for the channel. -/
theorem configureOneShot_tenure (harmed : f.armed = none) :
    (configureOneShot channel range : Operation κ φ _).Obeys (tenure i command) ⟨a, some f⟩
      fun result t => ∃ made f', t = ⟨{ a with calls := a.calls ++ made }, some f'⟩ ∧
        (result.isOk = true → ∃ n, f'.unit = some ⟨n, i, some channel⟩) := by
  unfold configureOneShot
  simp only [Program.bind_eq, Program.obeys_bind]
  rw [Turn.obeys_hardware_inside]
  refine ⟨trivial, fun _ reply => Fitting.fit_of_disarmed (by cases reply <;> exact harmed), ?_⟩
  rintro (fault | ⟨⟩)
  · exact ⟨_, _, rfl, by rintro ⟨⟩⟩
  · simp only [Program.obeys_bind]
    rw [Turn.obeys_hardware_inside]
    -- the unit has just been created, and was not set up yet
    refine ⟨by rintro _ _ ⟨⟩ ⟨⟩, fun _ reply =>
      Fitting.fit_of_disarmed (by cases reply <;> exact harmed), ?_⟩
    rintro (fault | ⟨⟩)
    · simp only [Program.obeys_bind]
      rw [Turn.obeys_hardware_inside]
      refine ⟨trivial, fun _ reply => Fitting.fit_of_disarmed harmed, fun deleted => ?_⟩
      exact ⟨_, _, by simp only [List.append_assoc]; rfl, by rintro ⟨⟩⟩
    · exact ⟨_, _, by simp only [List.append_assoc]; rfl, fun _ => ⟨_, rfl⟩⟩

/-- An armed unit that takes a new setting stays set up for its channel; if it does not take it,
that is a failure. -/
theorem reconfigureArmed_tenure (harmed : f.armed = some channel) (hfit : f.Fit) :
    (reconfigureArmed channel range : Operation κ φ _).Obeys (tenure i command) ⟨a, some f⟩
      fun result t => ∃ made quiet f', t = ⟨{ a with calls := a.calls ++ made, quiet }, some f'⟩ ∧
        (result.isOk = true → f'.Serves channel) ∧
        (result.isOk = false → (AnsweredCall.firstFault? made).isSome = true) := by
  obtain ⟨u, hunit, hchannel⟩ := hfit channel harmed
  have htakes : f.Takes (.configureOneShotChannel channel range : HardwareCall κ) := by
    intro u' c hunit' hc
    rw [hunit] at hunit'
    cases hunit'
    exact Option.some.inj (hc.symm.trans hchannel)
  have hserves : ∀ reply, (f.after i (.hardware (.configureOneShotChannel channel range) :
      Question κ φ) reply).Serves channel := by
    rintro (fault | ⟨⟩)
    · exact hfit channel harmed
    · exact ⟨{ u with channel := some channel }, by simp [Fitting.after, hunit], rfl⟩
  have hafter : ∀ reply, (f.after i (.hardware (.configureOneShotChannel channel range) :
      Question κ φ) reply).Fit := by
    intro reply c hc
    have hsame : (f.after i (.hardware (.configureOneShotChannel channel range) :
        Question κ φ) reply).armed = f.armed := by cases reply <;> rfl
    rw [hsame, harmed] at hc
    cases hc
    exact hserves reply
  unfold reconfigureArmed
  simp only [Program.bind_eq, Program.obeys_bind]
  rw [Turn.obeys_hardware_inside]
  refine ⟨htakes, fun _ => hafter, ?_⟩
  rintro (fault | ⟨⟩)
  · simp only [Program.obeys_bind, Turn.obeys_ask_arm]
    refine ⟨fun _ => Fitting.fit_of_disarmed rfl, ?_⟩
    rw [Turn.obeys_hardware_inside]
    refine ⟨trivial, fun _ _ => Fitting.fit_of_disarmed rfl, fun deleted => ?_⟩
    exact ⟨_, _, _, by simp only [List.append_assoc]; rfl, by rintro ⟨⟩, fun _ => rfl⟩
  · exact ⟨_, _, _, rfl, fun _ => hserves (.ok ()), by rintro ⟨⟩⟩

/-! ## Conversions -/

theorem readSum_tenure (n : Nat) (sum : UInt64) :
    (readSum channel n sum : Operation κ φ _).Obeys (tenure i command) ⟨a, none⟩
      fun _ t => ∃ calls, t = ⟨{ a with calls }, none⟩ := by
  induction n generalizing sum a with
  | zero => exact ⟨_, rfl⟩
  | succ n ih =>
    unfold readSum
    simp only [Program.bind_eq, Program.obeys_bind]
    rw [Turn.obeys_hardware_away]
    rintro (fault | raw)
    · exact ⟨_, rfl⟩
    · exact (ih _).mono fun _ _ h => h

theorem readAverage_tenure :
    (readAverage channel count : Operation κ φ _).Obeys (tenure i command) ⟨a, none⟩
      fun _ t => ∃ calls, t = ⟨{ a with calls }, none⟩ := by
  unfold readAverage
  simp only [Program.bind_eq, Program.obeys_bind]
  refine (readSum_tenure _ _).mono ?_
  rintro (fault | sum) t h <;> exact h

/-! ## Bursts -/

/-- A burst that begins where no session was found under way has a unit for its channel. -/
theorem openBurst_vacant_tenure {prior : Session} (hp : prior = .idle ∨ prior = .reserved)
    (harmed : f.armed = none) :
    ((configureOneShot channel range : Operation κ φ _).bind fun result => match result with
      | .error fault => .done ((.error (.hardware fault) : Except AdcError Session),
        .before (.single channel) prior)
      | .ok () => .done (.ok prior, ⟨.single channel, .oneShot⟩)).Obeys (tenure i command)
      ⟨{ entry := some (.before (.single channel) prior),
         found := some (.before (.single channel) prior) }, some f⟩
      fun r t => t.MayLeave i command r.2 ∧ ∃ a : Account κ φ,
        (⟨t.account.after (.leave r.2) (), none⟩ : Turn κ φ) = ⟨a, none⟩ ∧
          (r.1.isOk = true → a.burst = some (.single channel)) := by
  have hne := before_not_oneShot (.single channel) hp
  rw [Program.obeys_bind]
  refine (configureOneShot_tenure harmed).mono ?_
  rintro (fault | ⟨⟩) _ ⟨made, f', rfl, hunit⟩
  · exact ⟨.unchanged rfl, _, rfl, by rintro ⟨⟩⟩
  · obtain ⟨n, hunit⟩ := hunit rfl
    refine ⟨⟨?_, ?_⟩, _, rfl, fun _ => by simp [Account.after, Account.opened, hne]⟩
    · rintro _ ⟨⟩ - hidle
      exact .inl (Turn.active_before hp hidle).symm
    · intro mask hmask
      have hsingle : mask = .single channel := by
        simpa [Account.opened, hne] using hmask.symm
      exact ⟨f', n, channel, rfl, hsingle, hunit⟩

/-- A burst that is begun is that of the caller, and has a unit for its channel. -/
theorem openBurst_tenure (hlock : command.entersLock = true) :
    (openBurst channel range : Operation κ φ _).Obeys (tenure i command) {}
      fun result t => ∃ a, t = ⟨a, none⟩ ∧
        (result.isOk = true → a.burst = some (.single channel)) := by
  unfold openBurst
  refine Turn.obeys_locked hlock fun held f hheld _ _ harmed => ?_
  rcases grant_cases hheld (.single channel) with
    ⟨prior, hp, rfl, hgrant⟩ | ⟨-, hvacant, hgrant⟩ | ⟨-, -, hgrant⟩
  · have hdisarmed := harmed.trans (Turn.armed_before hp _)
    rw [hgrant]
    rcases hp with rfl | rfl
    · exact openBurst_vacant_tenure (.inl rfl) hdisarmed
    · exact openBurst_vacant_tenure (.inr rfl) hdisarmed
  · rw [hgrant]
    dsimp only
    split
    · exact absurd (.inl ‹_›) hvacant
    · exact absurd (.inr ‹_›) hvacant
    · exact ⟨.unchanged rfl, _, rfl, by rintro ⟨⟩⟩
  · rw [hgrant]
    exact ⟨.unchanged rfl, _, rfl, by rintro ⟨⟩⟩

/-- A burst that ends finds its own session, with nothing armed. -/
theorem closeBurst_tenure {prior : Session} (hlock : command.entersLock = true)
    (hburst : a.burst = some (.single channel)) :
    (closeBurst channel prior : Operation κ φ _).Obeys (tenure i command) ⟨a, none⟩
      fun _ _ => True := by
  unfold closeBurst
  refine Turn.obeys_locked hlock fun held f _ hown _ harmed => ?_
  obtain rfl := hown _ hburst
  simp only [ne_eq, not_true_eq_false, or_self, if_false, Program.bind_eq, Program.obeys_bind]
  rw [Turn.obeys_hardware_inside]
  refine ⟨trivial, fun _ _ => Fitting.fit_of_disarmed harmed, fun deleted => ?_⟩
  exact ⟨.of_burst hburst, trivial⟩

theorem sampleOnce_tenure (hlock : command.entersLock = true) :
    (sampleOnce config channel attenuation count : Operation κ φ _).Obeys (tenure i command) {}
      fun _ _ => True := by
  unfold sampleOnce
  split
  · trivial
  · simp only [Program.bind_eq, Program.obeys_bind]
    refine (openBurst_tenure hlock).mono ?_
    rintro (e | prior) _ ⟨a, rfl, hburst⟩
    · simp
    · simp only [Program.obeys_bind]
      refine readAverage_tenure.mono ?_
      rintro reading _ ⟨calls, rfl⟩
      refine (closeBurst_tenure hlock (by exact hburst rfl)).mono fun closing t _ => ?_
      split <;> simp

/-! ## Time-critical sampling -/

/-- The channel is armed once the unit serves it, and what is put back has its channels. -/
theorem finishArming_tenure {entry held fallback : Reservation}
    {configured : Except HardwareFault Unit} (hentry : a.entry = some entry)
    (hserves : configured.isOk = true → f.Serves channel)
    (hok : entry.isIdle = false → held.active = entry.active)
    (hfallback : configured.isOk = false → (⟨a, some f⟩ : Turn κ φ).MayLeave i command fallback) :
    (finishArming channel held fallback configured : Operation κ φ _).Obeys (tenure i command)
      ⟨a, some f⟩ fun r t => t.MayLeave i command r.2 := by
  cases configured with
  | error fault => exact hfallback rfl
  | ok u =>
    simp only [finishArming, Program.bind_eq, Program.obeys_bind, Turn.obeys_ask_arm]
    refine ⟨fun _ c hc => ?_, .of_ne hentry (by simp) fun hidle => .inl (hok hidle)⟩
    cases hc
    exact hserves rfl

theorem setupTimeCritical_tenure :
    (setupTimeCritical config channel attenuation : Operation κ φ _).Obeys
      (tenure i (.setupTimeCritical channel attenuation)) {} fun _ _ => True := by
  unfold setupTimeCritical
  refine Turn.obeys_section rfl (fun held f hheld hfit harmed => ?_) (by rintro (e | ⟨⟩) t <;> simp)
  rcases grant_cases hheld (.single channel) with
    ⟨prior, hp, rfl, hgrant⟩ | ⟨hmask, hvacant, hgrant⟩ | ⟨-, -, hgrant⟩
  · have hdisarmed := harmed.trans (Turn.armed_before hp _)
    have harm : ((configureOneShot channel ⟨attenuation, config.width⟩ : Operation κ φ _).bind
        (finishArming channel ⟨.single channel, .reserved⟩ (.before (.single channel) prior))).Obeys
        (tenure i (.setupTimeCritical channel attenuation))
        ⟨{ entry := some (.before (.single channel) prior),
           found := some (.before (.single channel) prior) }, some f⟩
        fun r t => t.MayLeave i (.setupTimeCritical channel attenuation) r.2 := by
      rw [Program.obeys_bind]
      refine (configureOneShot_tenure hdisarmed).mono ?_
      rintro configured _ ⟨made, f', rfl, hunit⟩
      refine finishArming_tenure rfl (fun hok => ?_) (fun hidle => ?_) fun _ => .unchanged rfl
      · obtain ⟨n, hunit⟩ := hunit hok
        exact ⟨_, hunit, rfl⟩
      · exact (Turn.active_before hp hidle).symm
    rw [hgrant]
    rcases hp with rfl | rfl <;> exact harm
  · rw [hgrant]
    cases hheld with
    | idle => exact absurd (.inl rfl) hvacant
    | reserved => exact absurd (.inr rfl) hvacant
    | oneShot | continuous => exact .unchanged rfl
    | timeCritical c =>
      obtain rfl := single_inj hmask
      simp only [if_true, Program.bind_eq, Program.obeys_bind]
      refine (reconfigureArmed_tenure harmed hfit).mono ?_
      rintro configured _ ⟨made, quiet, f', rfl, hserves, hfault⟩
      refine finishArming_tenure rfl hserves (fun _ => rfl) fun hfailed => ?_
      -- a channel that does not take its new setting is given up
      exact .of_ne rfl (by simp [Reservation.idle]) fun _ => .inr ⟨rfl, hfault hfailed⟩
  · rw [hgrant]
    exact .unchanged rfl

theorem releaseTimeCritical_tenure :
    (releaseTimeCritical channel : Operation κ φ _).Obeys
      (tenure i (.releaseTimeCritical channel)) {} fun _ _ => True := by
  unfold releaseTimeCritical
  refine Turn.obeys_section rfl (fun held f _ _ _ => ?_) (by rintro (e | ⟨⟩) t <;> simp)
  split
  · exact .unchanged rfl
  · rename_i hheld
    obtain ⟨hmask, -⟩ : held.active = .single channel ∧
        held.session = .timeCritical channel := by simpa using hheld
    simp only [Program.bind_eq, Program.obeys_bind, Turn.obeys_ask_arm]
    refine ⟨fun _ => Fitting.fit_of_disarmed rfl, ?_⟩
    rw [Turn.obeys_hardware_inside]
    refine ⟨trivial, fun _ _ => Fitting.fit_of_disarmed rfl, fun deleted => ?_⟩
    exact .of_ne rfl (by simp [Reservation.idle]) fun _ => .inr hmask.symm

theorem sampleTimeCritical_tenure :
    (sampleTimeCritical channel count : Operation κ φ _).Obeys
      (tenure i (.sampleTimeCritical channel count)) {} fun _ _ => True := by
  unfold sampleTimeCritical
  split
  · trivial
  · simp only [Program.bind_eq, Program.obeys_bind]
    rw [Turn.obeys_ask_armed]
    refine ⟨⟨rfl, rfl⟩, ?_⟩
    rintro (_ | armed)
    · trivial
    · dsimp only
      split
      · simp only [Program.obeys_bind]
        exact readAverage_tenure.mono fun _ _ _ => trivial
      · trivial

end SharedAdc.Controller
