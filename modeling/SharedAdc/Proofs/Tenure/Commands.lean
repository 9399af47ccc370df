/-
The operation of every command keeps the rules of tenure, whatever the hardware replies.
-/
import SharedAdc.Proofs.Tenure.Holding
import SharedAdc.Proofs.Tenure.OneShot

namespace SharedAdc.Controller

variable {κ φ α β : Type} {i : Nat} {command : Command φ} {config : Config} {a : Account κ φ}
  {f : Fitting}

/-! ## Streams -/

/-- A stream is set up beside the one-shot unit. -/
theorem launch_tenure {rate : UInt32} {pattern : List PatternEntry} {callback : φ} :
    (launch rate pattern callback : Operation κ φ _).Obeys (tenure i command) ⟨a, some f⟩
      fun _ t => t.account.entry = a.entry ∧ t.fitting = some f := by
  unfold launch
  simp only [Program.bind_eq, Program.obeys_bind]
  rw [Turn.obeys_hardware_inside]
  refine ⟨trivial, fun hfit _ => hfit, ?_⟩
  rintro (fault | ⟨⟩)
  · exact ⟨rfl, rfl⟩
  · simp only [Program.obeys_bind, Turn.obeys_ask_resetFrameCounts,
      Turn.obeys_ask_installCallback]
    rw [Turn.obeys_hardware_inside]
    refine ⟨trivial, fun hfit _ => hfit, ?_⟩
    rintro (fault | ⟨⟩)
    · exact ⟨rfl, rfl⟩
    · dsimp only
      rw [Turn.obeys_hardware_inside]
      exact ⟨trivial, fun hfit _ => hfit, fun started => ⟨rfl, rfl⟩⟩

theorem configureStream_tenure {rate : UInt32} {pattern : List PatternEntry} {frameBytes : UInt32}
    {callback : φ} :
    (configureStream rate pattern frameBytes callback : Operation κ φ _).Obeys (tenure i command)
      ⟨a, some f⟩ fun _ t => t.account.entry = a.entry := by
  unfold configureStream
  simp only [Program.bind_eq, Program.obeys_bind]
  rw [Turn.obeys_hardware_inside]
  refine ⟨trivial, fun hfit _ => hfit, ?_⟩
  rintro (fault | ⟨⟩)
  · rfl
  · simp only [Program.obeys_bind]
    refine launch_tenure.mono ?_
    rintro (fault | ⟨⟩) ⟨a', _⟩ ⟨hentry, rfl⟩
    · simp only [Program.obeys_bind, Turn.obeys_ask_clearCallback]
      rw [Turn.obeys_hardware_inside]
      exact ⟨trivial, fun hfit _ => hfit, fun deinit => hentry⟩
    · exact hentry

/-- A stream that starts where no session was found under way keeps the channels that were found. -/
theorem startContinuous_vacant_tenure {request : ContinuousRequest φ} {prior : Session}
    {frameBytes : UInt32} {callback : φ} (hp : prior = .idle ∨ prior = .reserved) :
    ((configureStream request.rate (request.pattern config) frameBytes callback :
      Operation κ φ _).bind fun result => match result with
        | .error fault => .done (.error (.hardware fault), .before request.mask prior)
        | .ok () => .done ((.ok () : Except AdcError Unit), ⟨request.mask, .continuous⟩)).Obeys
      (tenure i command)
      ⟨{ entry := some (.before request.mask prior), found := some (.before request.mask prior) },
        some f⟩
      fun r t => t.MayLeave i command r.2 := by
  rw [Program.obeys_bind]
  refine configureStream_tenure.mono ?_
  rintro (fault | ⟨⟩) t hentry
  · exact .unchanged hentry
  · exact .of_ne hentry (by simp) fun hidle => .inl (Turn.active_before hp hidle).symm

theorem startContinuous_tenure {request : ContinuousRequest φ} (hlock : command.entersLock = true) :
    (startContinuous config request : Operation κ φ _).Obeys (tenure i command) {}
      fun _ _ => True := by
  unfold startContinuous
  split
  · trivial
  · trivial
  · trivial
  · rename_i frameBytes callback _ _ _
    refine Turn.obeys_section hlock (fun held f hheld _ _ => ?_) (by rintro (e | ⟨⟩) t <;> simp)
    rcases grant_cases hheld request.mask with
      ⟨prior, hp, rfl, hgrant⟩ | ⟨-, hvacant, hgrant⟩ | ⟨-, -, hgrant⟩
    · rw [hgrant]
      rcases hp with rfl | rfl
      · exact startContinuous_vacant_tenure (.inl rfl)
      · exact startContinuous_vacant_tenure (.inr rfl)
    · rw [hgrant]
      cases hheld with
      | idle => exact absurd (.inl rfl) hvacant
      | reserved => exact absurd (.inr rfl) hvacant
      | oneShot | timeCritical => exact .unchanged rfl
      | continuous hm =>
        simp only [Program.bind_eq, Program.obeys_bind, Turn.obeys_ask_installCallback,
          Turn.obeys_note]
        exact .unchanged rfl
    · rw [hgrant]
      exact .unchanged rfl

theorem stopContinuous_tenure (mask : Mask) :
    (stopContinuous mask : Operation κ φ _).Obeys (tenure i (.stopContinuous mask)) {}
      fun _ _ => True := by
  unfold stopContinuous
  split
  · trivial
  · refine Turn.obeys_section rfl (fun held f _ _ _ => ?_) (by rintro (e | ⟨⟩) t <;> simp)
    split
    · exact .unchanged rfl
    · rename_i hheld
      obtain ⟨hmask, -⟩ : held.active = mask ∧ held.session = .continuous := by simpa using hheld
      simp only [Program.bind_eq, Program.obeys_bind]
      refine (teardown_tenure .continuous).mono fun result t ht => ?_
      exact .of_ne ht.1 (by simp [Reservation.idle]) fun _ => .inr hmask.symm

/-! ## Calibration -/

theorem convertEach_tenure (context : κ) (raws : List UInt16) :
    (convertEach context raws : Operation κ φ _).Obeys (tenure i command) ⟨a, none⟩
      fun _ t => t.fitting = none := by
  induction raws generalizing a with
  | nil => rfl
  | cons raw raws ih =>
    unfold convertEach
    simp only [Program.bind_eq, Program.obeys_bind]
    rw [Turn.obeys_hardware_away]
    exact fun converted => ih.mono fun _ _ h => h

theorem convertInScope_tenure (channel : Channel) (range : Range) (raws : List UInt16) :
    (convertInScope channel range raws : Operation κ φ _).Obeys (tenure i command) ⟨a, none⟩
      fun _ _ => True := by
  unfold convertInScope withCalibration
  simp only [Program.bind_eq, Program.obeys_bind]
  rw [Turn.obeys_hardware_away]
  rintro (fault | context)
  · trivial
  · simp only [Program.obeys_bind]
    refine (convertEach_tenure context raws).mono ?_
    rintro results ⟨a', _⟩ rfl
    rw [Turn.obeys_hardware_away]
    exact fun deleted => trivial

theorem calibrate_tenure (channel : Channel) (attenuation : Attenuation) (samples : List UInt16) :
    (calibrate config channel attenuation samples : Operation κ φ _).Obeys (tenure i command)
      ⟨a, none⟩ fun _ _ => True := by
  unfold calibrate
  split
  · trivial
  · simp only [Program.bind_eq, Program.obeys_bind]
    refine (convertInScope_tenure _ _ _).mono ?_
    rintro (fault | results) t -
    · trivial
    · dsimp only
      split <;> trivial

/-! ## Commands -/

/-- What is known of the end of a command: a reservation that has succeeded has put back a
reservation of its channels, and nothing else. -/
def Command.Reserves (command : Command φ) (result : Result) (t : Turn κ φ) : Prop :=
  ∀ mask, command = .reserve mask → result = .done (.ok ()) →
    checkMask mask = .ok () ∧ ∃ session, t.account.left = [⟨mask, session⟩]

/-- Of the end of any other command nothing is asked. -/
theorem obeys_map {p : Operation κ φ α} {f : α → Result}
    (h : p.Obeys (tenure i command) {} fun _ _ => True)
    (hreserve : ∀ mask, command ≠ .reserve mask) :
    (p.bind fun a => .done (f a)).Obeys (tenure i command) {} command.Reserves :=
  h.map _ fun _ _ _ mask hmask => absurd hmask (hreserve mask)

theorem startSampling_tenure (request : SamplingRequest φ) :
    (startSampling config request : Operation κ φ _).Obeys (tenure i (.submit request)) {}
      fun _ _ => True := by
  unfold startSampling
  split
  · trivial
  · simp only [Program.bind_eq, Program.obeys_bind, Turn.obeys_note]
    cases request with
    | oneShot r => exact (sampleOnce_tenure rfl).map _ fun _ _ _ => trivial
    | continuous r => exact (startContinuous_tenure rfl).map _ fun _ _ _ => trivial

theorem operation_tenure (config : Config) (i : Nat) (command : Command φ) :
    (command.operation config : Operation κ φ Result).Obeys (tenure i command) {}
      command.Reserves := by
  cases command with
  | reserve mask =>
    refine (tryReserve_tenure mask rfl).map _ fun result t h => ?_
    rintro _ ⟨⟩ ⟨⟩
    exact h rfl
  | release mask => exact obeys_map (release_tenure mask) (by simp)
  | sampleOnce channel attenuation count => exact obeys_map (sampleOnce_tenure rfl) (by simp)
  | setupTimeCritical channel attenuation => exact obeys_map setupTimeCritical_tenure (by simp)
  | sampleTimeCritical channel count => exact obeys_map sampleTimeCritical_tenure (by simp)
  | releaseTimeCritical channel => exact obeys_map releaseTimeCritical_tenure (by simp)
  | startContinuous request => exact obeys_map (startContinuous_tenure rfl) (by simp)
  | stopContinuous mask => exact obeys_map (stopContinuous_tenure mask) (by simp)
  | reinit => exact obeys_map reinit_tenure (by simp)
  | submit request => exact obeys_map (startSampling_tenure request) (by simp)
  | calibrate channel attenuation samples => exact obeys_map (calibrate_tenure _ _ _) (by simp)
  | calibrateIndex index attenuation samples =>
    refine obeys_map ?_ (by simp)
    unfold calibrateIndex
    split
    · trivial
    · exact calibrate_tenure _ _ _
  | convertInScope channel range raws => exact obeys_map (convertInScope_tenure _ _ _) (by simp)
  | config => exact fun _ h => by cases h
  | malformed call reason => exact fun _ h => by cases h

end SharedAdc.Controller
