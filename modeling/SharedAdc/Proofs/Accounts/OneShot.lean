/-
How bursts and time-critical sampling end. Each set-up that fails has made the call that failed, and
the deletion that follows a failure does not hide it.
-/
import SharedAdc.Proofs.Accounts.Ending

namespace SharedAdc.Controller

variable {κ φ : Type} {config : Config} {command : Command φ} {channel : Channel} {range : Range}
variable {attenuation : Attenuation} {count : UInt32} {a : Account κ φ}

theorem firstFault?_append (cs ds : List (AnsweredCall κ)) :
    AnsweredCall.firstFault? (cs ++ ds) =
      (AnsweredCall.firstFault? cs).or (AnsweredCall.firstFault? ds) :=
  List.findSome?_append ..

/-! ## Setting up a one-shot unit -/

/-- The calls of a burst of `n` conversions: those of the bracket in turn up to the first that fails,
and the deletion of a unit that was created. -/
inductive BurstCalls (channel : Channel) (range : Range) (n : Nat) : List (AnsweredCall κ) → Prop where
  | notCreated (fault : HardwareFault) :
    BurstCalls channel range n [⟨.createOneShotUnit, .error fault⟩]
  | deleted {made : List (AnsweredCall κ)} {last : Option HardwareFault}
    (deletion : Except HardwareFault Unit)
    (h : AnsweredCall.Carried
      (.configureOneShotChannel channel range :: List.replicate n (.readOneShot channel)) made last) :
    BurstCalls channel range n
      (⟨.createOneShotUnit, .ok ()⟩ :: made ++ [⟨.deleteOneShotUnit, deletion⟩])

/-- What setting up a unit comes to, by the calls made: a unit with the channel set up, or all that is
ever called for a burst. -/
def Configures (channel : Channel) (range : Range) (result : Except HardwareFault Unit)
    (made : List (AnsweredCall κ)) : Prop :=
  match result with
  | .ok () => made =
    [⟨.createOneShotUnit, .ok ()⟩, ⟨.configureOneShotChannel channel range, .ok ()⟩]
  | .error _ => ∀ n, BurstCalls channel range n made

theorem configureOneShot_account :
    (configureOneShot channel range : Operation κ φ _).Obeys (accounting command) a
      fun result a' => ∃ made, a' = { a with calls := a.calls ++ made } ∧
        AnsweredCall.firstFault? made = errorOf result ∧ Configures channel range result made := by
  unfold configureOneShot
  simp only [Program.bind_eq, Program.obeys_bind]
  rw [Account.obeys_hardware]
  rintro (fault | ⟨⟩)
  · exact ⟨_, rfl, rfl, fun _ => .notCreated fault⟩
  · simp only [Program.obeys_bind]
    rw [Account.obeys_hardware]
    rintro (fault | ⟨⟩)
    · simp only [Program.obeys_bind]
      rw [Account.obeys_hardware]
      intro deletion
      exact ⟨_, by simp only [List.append_assoc]; rfl, rfl, fun _ => .deleted deletion (.failed rfl)⟩
    · exact ⟨_, by simp only [List.append_assoc]; rfl, rfl, rfl⟩

theorem reconfigureArmed_account :
    (reconfigureArmed channel range : Operation κ φ _).Obeys (accounting command) a
      fun result a' => ∃ made quiet, a' = { a with calls := a.calls ++ made, quiet } ∧
        AnsweredCall.firstFault? made = errorOf result ∧
        (result.isOk = false → made.countP AnsweredCall.isDeletion = 1) := by
  unfold reconfigureArmed
  simp only [Program.bind_eq, Program.obeys_bind]
  rw [Account.obeys_hardware]
  rintro (fault | ⟨⟩)
  · simp only [Program.obeys_bind, Account.obeys_ask_arm]
    rw [Account.obeys_hardware]
    intro deleted
    exact ⟨_, _, by simp only [List.append_assoc]; rfl, rfl, fun _ => rfl⟩
  · exact ⟨_, _, rfl, rfl, fun h => by cases h⟩

/-! ## Conversions -/

theorem readSum_account (n : Nat) (sum : UInt64) :
    (readSum channel n sum : Operation κ φ _).Obeys (accounting command) a
      fun result a' => ∃ made, a' = { a with calls := a.calls ++ made } ∧
        AnsweredCall.Carried (List.replicate n (.readOneShot channel)) made (errorOf result) ∧
        ∀ total, result = .ok total →
          total = sum + UInt64.ofNat (AnsweredCall.codes made).sum := by
  -- on the conversions to come; one that fails is the last
  induction n generalizing sum a with
  | zero =>
    refine ⟨[], by rw [List.append_nil], .nil, ?_⟩
    rintro _ ⟨⟩
    exact (UInt64.add_zero sum).symm
  | succ n ih =>
    unfold readSum
    simp only [Program.bind_eq, Program.obeys_bind]
    rw [Account.obeys_hardware]
    rintro (fault | raw)
    · exact ⟨_, rfl, .failed rfl, fun _ h => by cases h⟩
    · refine ih _ |>.mono ?_
      rintro result _ ⟨made, rfl, hmade, htotal⟩
      refine ⟨⟨.readOneShot channel, .ok raw⟩ :: made, by simp only [List.append_assoc]; rfl,
        .cons rfl hmade, fun total h => ?_⟩
      rw [htotal total h, UInt64.add_assoc, ← UInt64.ofNat_uInt16ToNat, ← UInt64.ofNat_add]
      rfl

/-- Dividing a sum of codes loses nothing but what rounding down does. -/
theorem toNat_average {total : UInt64} {count : UInt32} (h : total.toNat ≤ count.toNat * 65535) :
    (min (total / count.toUInt64) 65535).toUInt16.toNat = total.toNat / count.toNat := by
  have hquotient : (total / count.toUInt64).toNat = total.toNat / count.toNat := by
    rw [UInt64.toNat_div, UInt32.toNat_toUInt64]
  have hle : total.toNat / count.toNat ≤ 65535 := Nat.div_le_of_le_mul h
  have hclamp : min (total / count.toUInt64) 65535 = total / count.toUInt64 :=
    if_pos (UInt64.le_iff_toNat_le.2 (by rw [hquotient]; exact hle))
  rw [hclamp, UInt64.toNat_toUInt16, hquotient]
  exact Nat.mod_eq_of_lt (Nat.lt_succ_of_le hle)

/-- An average is that of the codes read, rounded down: neither their sum nor what is left of it once it
is divided loses anything. -/
theorem readAverage_account (count : UInt32) :
    (readAverage channel count : Operation κ φ _).Obeys (accounting command) a
      fun result a' => ∃ made, a' = { a with calls := a.calls ++ made } ∧
        AnsweredCall.Carried (List.replicate count.toNat (.readOneShot channel)) made
          (errorOf result) ∧
        ∀ value, result = .ok value →
          value.toNat = (AnsweredCall.codes made).sum / count.toNat := by
  unfold readAverage
  simp only [Program.bind_eq, Program.obeys_bind]
  refine (readSum_account _ _).mono ?_
  rintro (fault | total) _ ⟨made, rfl, hmade, htotal⟩
  · exact ⟨made, rfl, hmade, fun _ h => by cases h⟩
  · refine ⟨made, rfl, hmade, ?_⟩
    rintro _ ⟨⟩
    have hsum := AnsweredCall.sum_codes_le made
    rw [hmade.length_codes] at hsum
    have hcount : count.toNat < 2 ^ 32 := count.toNat_lt
    have htotal : total.toNat = (AnsweredCall.codes made).sum := by
      rw [htotal total rfl, UInt64.zero_add, UInt64.toNat_ofNat']
      exact Nat.mod_eq_of_lt (by omega)
    rw [← htotal]
    exact toNat_average (htotal ▸ hsum)

/-! ## Bursts -/

/-- The operation has a burst under way on a channel where it found `found`, and has set the channel
up. -/
structure Account.HasBurst (a : Account κ φ) (channel : Channel) (range : Range)
    (found : Reservation) : Prop where
  burst : a.burst = some (.single channel)
  found : a.found = some found
  calls : a.calls =
    [⟨.createOneShotUnit, .ok ()⟩, ⟨.configureOneShotChannel channel range, .ok ()⟩]

/-- How a burst ends that is admitted: with the first failure among its calls, or else with the average
of the codes read. -/
structure BurstEnding (channel : Channel) (range : Range) (count : UInt32)
    (result : Except AdcError UInt16) (calls : List (AnsweredCall κ)) : Prop where
  bracket : BurstCalls channel range count.toNat calls
  result : match AnsweredCall.firstFault? calls with
    | some fault => result = .error (.hardware fault)
    | none => ∃ value, result = .ok value ∧ (AnsweredCall.codes calls).length = count.toNat ∧
      value.toNat = (AnsweredCall.codes calls).sum / count.toNat

/-- How a burst ends: as its command does, and if it is admitted, so. -/
structure SampleAccount (config : Config) (channel : Channel) (attenuation : Attenuation)
    (count : UInt32) (result : Except AdcError UInt16) (a : Account κ φ) : Prop where
  ending : Ending config (.sampleOnce channel attenuation count) (errorOf result) a
  burst : ∀ found, a.found = some found →
    (Command.sampleOnce channel attenuation count : Command φ).refusal found = none →
      BurstEnding channel ⟨attenuation, config.width⟩ count result a.calls

/-- How the first section of a burst ends. -/
def OpenAccount (config : Config) (channel : Channel) (attenuation : Attenuation) (count : UInt32)
    (result : Except AdcError Session) (a : Account κ φ) : Prop :=
  match result with
  | .error e => SampleAccount config channel attenuation count (.error e) a
  | .ok prior => (prior = .idle ∨ prior = .reserved) ∧
      a.HasBurst channel ⟨attenuation, config.width⟩ (.before (.single channel) prior)

/-- A burst that is turned down is not admitted. -/
theorem sampleAccount_refused {a : Account κ φ} {e : AdcError} {found : Reservation}
    (h : Ending config (.sampleOnce channel attenuation count) (some e) a)
    (hfound : a.found = some found)
    (hrefusal : (Command.sampleOnce channel attenuation count : Command φ).refusal found = some e) :
    SampleAccount config channel attenuation count (.error e) a := by
  refine ⟨h, fun found' hfound' hadmitted => ?_⟩
  obtain rfl : found = found' := Option.some.inj (hfound.symm.trans hfound')
  cases hrefusal.symm.trans hadmitted


theorem sampleOnce_admitted {prior : Session} (hp : prior = .idle ∨ prior = .reserved) :
    (Command.sampleOnce channel attenuation count : Command φ).refusal
      (.before (.single channel) prior) = none := by
  rw [Command.refusal, refusal_before hp _ (by simp)]

/-- A burst that has failed before it was under way. -/
theorem sampleAccount_failed {a : Account κ φ} {fault : HardwareFault}
    (h : Ending config (.sampleOnce channel attenuation count) (some (.hardware fault)) a)
    (hcalls : BurstCalls channel ⟨attenuation, config.width⟩ count.toNat a.calls) :
    SampleAccount config channel attenuation count (.error (.hardware fault)) a := by
  refine ⟨h, fun _ _ _ => ⟨hcalls, ?_⟩⟩
  have hfault : AnsweredCall.firstFault? a.calls = some fault := h.of_fault.1
  rw [hfault]

/-- A burst is begun where no session was found under way. -/
theorem openBurst_vacant {prior : Session} (hp : prior = .idle ∨ prior = .reserved) :
    ((configureOneShot channel ⟨attenuation, config.width⟩ : Operation κ φ _).bind fun result =>
      match result with
      | .error fault => .done ((.error (.hardware fault) : Except AdcError Session),
        .before (.single channel) prior)
      | .ok () => .done (.ok prior, ⟨.single channel, .oneShot⟩)).Obeys (accounting command)
      { entry := some (.before (.single channel) prior),
        found := some (.before (.single channel) prior) }
      fun r a => OpenAccount config channel attenuation count r.1 (a.after (.leave r.2) ()) := by
  have hvacant := isVacant_before hp (.single channel)
  have hne := before_not_oneShot (.single channel) hp
  rw [Program.obeys_bind]
  refine configureOneShot_account.mono ?_
  rintro (fault | ⟨⟩) _ ⟨made, rfl, hfault, hconfigured⟩
  · exact sampleAccount_failed (ending_restored hvacant rfl (sampleOnce_admitted hp) (if_pos hvacant)
      hfault rfl) (hconfigured count.toNat)
  · exact ⟨hp, by simp [Account.after, Account.opened, hne], rfl, hconfigured⟩

theorem openBurst_account (config : Config) (attenuation : Attenuation) (count : UInt32) :
    (openBurst channel ⟨attenuation, config.width⟩ : Operation κ φ _).Obeys (accounting command) {}
      (OpenAccount config channel attenuation count) := by
  unfold openBurst
  refine Account.obeys_locked fun held hheld _ => ?_
  have hrefused : (Command.sampleOnce channel attenuation count : Command φ).refusal held =
      some (held.busy (.single channel)) → OpenAccount config channel attenuation count
        (.error (held.busy (.single channel)))
        (({ entry := some held, found := some held } : Account κ φ).after (.leave held) ()) :=
    fun hrefusal => sampleAccount_refused (ending_refused hrefusal) rfl hrefusal
  rcases grant_cases hheld (.single channel) with
    ⟨prior, hp, rfl, hgrant⟩ | ⟨hmask, hvacant, hgrant⟩ | ⟨hidle, hmask, hgrant⟩
  · rw [hgrant]
    rcases hp with rfl | rfl
    · exact openBurst_vacant (.inl rfl)
    · exact openBurst_vacant (.inr rfl)
  · -- the channel is held by a session under way
    rw [hgrant]
    dsimp only
    split
    · exact absurd (.inl ‹_›) hvacant
    · exact absurd (.inr ‹_›) hvacant
    · exact hrefused (by rw [Command.refusal, refusal_underway hheld hvacant (by simp)])
  · rw [hgrant]
    exact hrefused (by rw [Command.refusal, refusal_elsewhere hheld hidle hmask])

/-- A burst that ends finds its own session, and reports what deleting the unit comes to. -/
theorem closeBurst_account {prior : Session} (hburst : a.burst = some (.single channel))
    {found : Reservation} (hfound : a.found = some found) :
    (closeBurst channel prior : Operation κ φ _).Obeys (accounting command) a
      fun result a' => ∃ deleted : Except HardwareFault Unit,
        result = deleted.mapError .hardware ∧ a'.found = some found ∧
        a'.calls = a.calls ++ [⟨.deleteOneShotUnit, deleted⟩] ∧
        a'.left.head? = some (.before (.single channel) prior) := by
  unfold closeBurst
  refine Account.obeys_locked fun held hheld hown => ?_
  obtain rfl := hown _ hburst
  simp only [ne_eq, not_true_eq_false, or_self, if_false, Program.bind_eq, Program.obeys_bind]
  rw [Account.obeys_hardware]
  intro deleted
  exact ⟨deleted, rfl, by simp [Account.after, hfound], rfl, rfl⟩

/-- The calls of a burst that has converted: what has failed first, and the codes read. -/
theorem burst_calls {n : Nat} {reads calls : List (AnsweredCall κ)} {last : Option HardwareFault}
    {deletion : Except HardwareFault Unit}
    (hreads : AnsweredCall.Carried (List.replicate n (.readOneShot channel)) reads last)
    (hcalls : calls =
      [⟨.createOneShotUnit, .ok ()⟩, ⟨.configureOneShotChannel channel range, .ok ()⟩] ++ reads ++
        [⟨.deleteOneShotUnit, deletion⟩]) :
    BurstCalls channel range n calls ∧
      AnsweredCall.firstFault? calls = last.or (errorOf deletion) ∧
      AnsweredCall.codes calls = AnsweredCall.codes reads := by
  subst hcalls
  refine ⟨.deleted deletion (.cons rfl hreads), ?_, ?_⟩
  · rw [firstFault?_append, firstFault?_append, hreads.firstFault?_eq]
    cases deletion <;> rfl
  · rw [AnsweredCall.codes_append, AnsweredCall.codes_append]
    exact List.append_nil _

theorem sampleOnce_account :
    (sampleOnce config channel attenuation count : Operation κ φ _).Obeys (accounting command) {}
      (SampleAccount config channel attenuation count) := by
  unfold sampleOnce
  split
  · rename_i e he
    obtain ⟨reason, rfl⟩ := checkCount_error he
    exact ⟨.invalid reason (by simp [Command.WellFormed, he]), nofun⟩
  · simp only [Program.bind_eq, Program.obeys_bind]
    refine (openBurst_account config attenuation count).mono ?_
    rintro (e | prior) opened h
    · simp only [Program.obeys_bind, Account.obeys_note]
      exact h
    · obtain ⟨hp, hopened⟩ := h
      simp only [Program.obeys_bind]
      refine (readAverage_account count).mono ?_
      rintro reading _ ⟨reads, rfl, hreads, hvalue⟩
      refine (closeBurst_account (by exact hopened.burst) (by exact hopened.found)).mono ?_
      rintro _ closed ⟨deletion, rfl, hfound, hcalls, hleft⟩
      have hvacant := isVacant_before hp (.single channel)
      have hrefusal : (Command.sampleOnce channel attenuation count : Command φ).refusal
          (.before (.single channel) prior) = none := sampleOnce_admitted hp
      -- the first fault is that of a conversion, if one failed, else that of the deletion
      obtain ⟨hbracket, hfault, hcodes⟩ := burst_calls hreads (hopened.calls ▸ hcalls)
      have hfailed : ∀ fault, closed.fault? = some fault →
          SampleAccount config channel attenuation count (.error (.hardware fault)) closed :=
        fun fault h => sampleAccount_failed
          (ending_restored hvacant hfound hrefusal (if_pos hvacant) h hleft) hbracket
      cases reading with
      | error fault =>
        simp only [Program.obeys_bind, Account.obeys_note]
        exact hfailed fault hfault
      | ok value =>
        cases deletion with
        | error fault =>
          have hmap : (.error fault : Except HardwareFault Unit).mapError AdcError.hardware =
              .error (.hardware fault) := rfl
          simp only [hmap, Program.obeys_bind, Account.obeys_note]
          exact hfailed fault hfault
        | ok u =>
          have hmap : (.ok u : Except HardwareFault Unit).mapError AdcError.hardware = .ok u := rfl
          simp only [hmap, Program.obeys_bind, Account.obeys_note]
          refine ⟨.completed hfound hrefusal, fun _ _ _ => ⟨hbracket, ?_⟩⟩
          rw [hfault]
          exact ⟨value, rfl, by rw [hcodes, hreads.length_codes], by rw [hcodes, hvalue value rfl]⟩

theorem sampleOnce_ending :
    (sampleOnce config channel attenuation count : Operation κ φ _).Obeys (accounting command) {}
      fun result => Ending config (.sampleOnce channel attenuation count) (errorOf result) :=
  sampleOnce_account.mono fun _ _ h => h.ending

/-! ## Time-critical sampling -/

/-- Arming puts the session in place, and the fallback where the set-up has failed. -/
theorem finishArming_account {held fallback : Reservation}
    (configured : Except HardwareFault Unit) :
    (finishArming channel held fallback configured : Operation κ φ _).Obeys (accounting command) a
      fun r a' => ∃ quiet, a' = { a with quiet } ∧ r.1 = configured.mapError .hardware ∧
        (configured.isOk = false → r.2 = fallback) := by
  cases configured with
  | error fault => exact ⟨_, rfl, rfl, fun _ => rfl⟩
  | ok u =>
    simp only [finishArming, Program.bind_eq, Program.obeys_bind, Account.obeys_ask_arm]
    exact ⟨_, rfl, rfl, fun h => by cases h⟩

theorem setupTimeCritical_admitted {prior : Session} (hp : prior = .idle ∨ prior = .reserved) :
    (Command.setupTimeCritical channel attenuation : Command φ).refusal
      (.before (.single channel) prior) = none := by
  rw [Command.refusal, refusal_before hp _ (by simp)]

theorem arming_vacant {prior : Session} (hp : prior = .idle ∨ prior = .reserved)
    {granted : Reservation} :
    ((configureOneShot channel range : Operation κ φ _).bind
      (finishArming channel granted (.before (.single channel) prior))).Obeys (accounting command)
      { entry := some (.before (.single channel) prior),
        found := some (.before (.single channel) prior) }
      fun r a => Ending config (.setupTimeCritical channel attenuation) (errorOf r.1)
        (a.after (.leave r.2) ()) := by
  rw [Program.obeys_bind]
  refine configureOneShot_account.mono ?_
  rintro configured _ ⟨made, rfl, hfault, -⟩
  refine (finishArming_account configured).mono ?_
  rintro ⟨_, held⟩ _ ⟨quiet, rfl, rfl, hheld⟩
  cases configured with
  | error fault =>
    obtain rfl : held = _ := hheld rfl
    have hvacant := isVacant_before hp (.single channel)
    exact ending_restored hvacant rfl (setupTimeCritical_admitted hp) (if_pos hvacant) hfault rfl
  | ok u => exact .completed rfl (setupTimeCritical_admitted hp)

/-- A channel that is armed already takes a new setting, or is given up with its unit deleted. -/
theorem arming_armed {granted : Reservation} :
    ((reconfigureArmed channel range : Operation κ φ _).bind
      (finishArming channel granted .idle)).Obeys (accounting command)
      { entry := some ⟨.single channel, .timeCritical channel⟩,
        found := some ⟨.single channel, .timeCritical channel⟩ }
      fun r a => Ending config (.setupTimeCritical channel attenuation) (errorOf r.1)
        (a.after (.leave r.2) ()) := by
  have hrefusal : (Command.setupTimeCritical channel attenuation : Command φ).refusal
      ⟨.single channel, .timeCritical channel⟩ = none := by
    simp [Command.refusal, Reservation.refusal]
  rw [Program.obeys_bind]
  refine reconfigureArmed_account.mono ?_
  rintro configured _ ⟨made, quiet, rfl, hfault, hdeleted⟩
  refine (finishArming_account configured).mono ?_
  rintro ⟨_, held⟩ _ ⟨quiet, rfl, rfl, hheld⟩
  cases configured with
  | error fault =>
    obtain rfl : held = _ := hheld rfl
    exact .failed rfl hrefusal hfault (by simp [Account.after, Command.fallback, Reservation.IsVacant])
      fun c _ => hdeleted rfl
  | ok u => exact .completed rfl hrefusal

theorem setupTimeCritical_ending :
    (setupTimeCritical config channel attenuation : Operation κ φ _).Obeys (accounting command) {}
      fun result => Ending config (.setupTimeCritical channel attenuation) (errorOf result) := by
  unfold setupTimeCritical
  refine obeys_section (fun held hheld => ?_) (by rintro (e | ⟨⟩) a <;> simp)
  rcases grant_cases hheld (.single channel) with
    ⟨prior, hp, rfl, hgrant⟩ | ⟨hmask, hvacant, hgrant⟩ | ⟨hidle, hmask, hgrant⟩
  · rw [hgrant]
    rcases hp with rfl | rfl
    · exact arming_vacant (.inl rfl)
    · exact arming_vacant (.inr rfl)
  · rw [hgrant]
    have hunwelcome : held.session ≠ .timeCritical channel →
        (Command.setupTimeCritical channel attenuation : Command φ).refusal held =
          some (held.busy (.single channel)) := by
      intro hne
      rw [Command.refusal, refusal_underway hheld hvacant (by simp [hne])]
    cases hheld with
    | idle => exact absurd (.inl rfl) hvacant
    | reserved => exact absurd (.inr rfl) hvacant
    | oneShot c => exact ending_refused (hunwelcome (by simp))
    | continuous => exact ending_refused (hunwelcome (by simp))
    | timeCritical c =>
      -- what is armed is the channel that is held
      obtain rfl := single_inj hmask
      simp only [if_true]
      exact arming_armed
  · rw [hgrant]
    exact ending_refused (by rw [Command.refusal, refusal_elsewhere hheld hidle hmask])

theorem releaseTimeCritical_ending :
    (releaseTimeCritical channel : Operation κ φ _).Obeys (accounting command) {}
      fun result => Ending config (.releaseTimeCritical channel) (errorOf result) := by
  unfold releaseTimeCritical
  refine obeys_section (fun held _ => ?_) (by rintro (e | ⟨⟩) a <;> simp)
  split
  · rename_i hheld
    exact ending_refused (by rw [Command.refusal, endRefusal_mismatch hheld])
  · rename_i hheld
    obtain ⟨hmask, hsession⟩ : held.active = .single channel ∧
        held.session = .timeCritical channel := by simpa using hheld
    have hrefusal : (Command.releaseTimeCritical channel : Command φ).refusal held = none := by
      simp [Command.refusal, Reservation.endRefusal, hmask, hsession]
    simp only [Program.bind_eq, Program.obeys_bind, Account.obeys_ask_arm]
    rw [Account.obeys_hardware]
    intro deleted
    exact ending_of_teardown rfl hrefusal rfl (by cases deleted <;> rfl) fun c _ => rfl

/-- How a conversion on the armed channel ends. -/
inductive Converted (channel : Channel) (count : UInt32) :
    Option AdcError → Account κ φ → Prop where
  | invalid (reason : BadArgument) (hcount : count = 0) :
    Converted channel count (some (.invalidArgument reason)) {}
  | refused {armed : Option Channel} {e : AdcError} (he : armedRefusal armed channel = some e) :
    Converted channel count (some e) { armed := some armed }
  | read {calls : List (AnsweredCall κ)} (hreads : ∀ c ∈ calls, c.call = .readOneShot channel)
    (hsome : calls ≠ []) :
    Converted channel count ((AnsweredCall.firstFault? calls).map .hardware)
      { armed := some (some channel), calls }

theorem sampleTimeCritical_ending :
    (sampleTimeCritical channel count : Operation κ φ _).Obeys (accounting command) {}
      fun result => Converted channel count (errorOf result) := by
  unfold sampleTimeCritical checkCount
  by_cases hcount : count = 0
  · rw [if_pos hcount]
    exact .invalid _ hcount
  · simp only [hcount, if_false, Program.bind_eq, Program.obeys_bind, Account.obeys_ask_armed]
    rintro (_ | armed)
    · exact .refused rfl
    · by_cases harmed : armed = channel
      · subst harmed
        simp only [if_true, Program.obeys_bind]
        refine (readAverage_account count).mono ?_
        rintro result _ ⟨made, rfl, hmade, -⟩
        have hsome : made ≠ [] := hmade.ne_nil <| List.ne_nil_of_length_pos <| by
          rw [List.length_replicate]
          exact Nat.pos_of_ne_zero fun hzero => hcount (UInt32.toNat_inj.1 hzero)
        have hread : Converted (φ := φ) armed count _ _ :=
          .read (fun c hc => List.eq_of_mem_replicate (hmade.call_mem c hc)) hsome
        rw [hmade.firstFault?_eq] at hread
        cases result <;> exact hread
      · simp only [harmed, if_false]
        exact .refused (by simp [armedRefusal, harmed])

/-- A conversion is turned down just as what it was shown as armed has it, and else reads. -/
theorem Converted.rejected_iff {error : Option AdcError} (h : Converted channel count error a)
    {armed : Option Channel} (harmed : a.armed = some armed) {e : AdcError}
    (he : e.isRejection = true) : error = some e ↔ armedRefusal armed channel = some e := by
  cases h with
  | invalid => cases harmed
  | refused hrefusal =>
    cases harmed
    rw [hrefusal]
  | read =>
    cases harmed
    refine ⟨fun h => ?_, fun h => by simp [armedRefusal] at h⟩
    obtain ⟨fault, -, rfl⟩ := Option.map_eq_some_iff.1 h
    cases he

theorem Converted.reads {error : Option AdcError} (h : Converted channel count error a)
    {armed : Option Channel} (harmed : a.armed = some armed)
    (hadmitted : armedRefusal armed channel = none) :
    a.calls ≠ [] ∧ ∀ c ∈ a.calls, c.call = .readOneShot channel := by
  cases h with
  | invalid => cases harmed
  | refused hrefusal =>
    cases harmed
    rw [hadmitted] at hrefusal
    cases hrefusal
  | read hreads hsome => exact ⟨hsome, hreads⟩

theorem Converted.aside {error : Option AdcError} (h : Converted channel count error a) :
    EndsAside error a := by
  cases h with
  | invalid reason => exact .rejected _ rfl rfl (by simp)
  | @refused armed e he =>
    refine .rejected _ rfl rfl fun fault h => ?_
    cases h
    cases Command.armedRefusal_isRejection he
  | read => exact .of_fault rfl rfl

end SharedAdc.Controller
