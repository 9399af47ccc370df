/-
The operation of every command makes its calls in order, whatever the hardware replies.
-/
import SharedAdc.Proofs.Accounts.Commands
import SharedAdc.Proofs.Errands.Basic

namespace SharedAdc.Controller

variable {κ φ α β : Type} {config : Config} {i : Nat} {command : Command φ} {t : Errand κ}
  {d : Driver}

namespace Errand

/-- Under the lock, with a driver that is not stopped. -/
def Inside (t : Errand κ) : Prop := ∃ d : Driver, t = ⟨some d, []⟩ ∧ d.stage ≠ some .stopped

/-- An operation of one section, which afterwards asks for nothing more of the kind, makes its calls in
order if the section does. -/
theorem obeys_section {body : Reservation → Operation κ φ (α × Reservation)}
    {tail : α → Operation κ φ β}
    (hbody : ∀ held d, d.stage ≠ some .stopped →
      (body held).Obeys (errand config i command) ⟨some d, []⟩ fun _ t => t.Inside)
    (htail : ∀ result, (tail result).Obeys (errand config i command) {} fun _ t => t = {}) :
    ((locked body).bind tail).Obeys (errand config i command) {} fun _ t => t = {} := by
  rw [Program.obeys_bind]
  refine obeys_locked fun held d hd => (hbody held d hd).mono ?_
  rintro r _ ⟨d', rfl, hd'⟩
  refine ⟨?_, rfl, htail _⟩
  rintro _ ⟨⟩
  exact hd'

theorem obeys_unchanged (result : α) (hd : d.stage ≠ some .stopped) :
    (Program.done result : Operation κ φ α).Obeys (errand config i command) ⟨some d, []⟩
      fun _ t => t.Inside :=
  ⟨d, rfl, hd⟩

end Errand

/-! ## Reservations -/

theorem tryReserve_errand (mask : Mask) :
    (tryReserve mask : Operation κ φ _).Obeys (errand config i command) {} fun _ t => t = {} := by
  unfold tryReserve
  split
  · rfl
  · refine Errand.obeys_section (fun held d hd => ?_) (by rintro (e | ⟨⟩) <;> simp)
    split <;> exact Errand.obeys_unchanged _ hd

/-- A stream is stopped and then given up. -/
theorem teardown_errand (session : Session) (hd : d.stage ≠ some .stopped) :
    (teardown session : Operation κ φ _).Obeys (errand config i command) ⟨some d, []⟩
      fun _ t => t.Inside := by
  cases session with
  | continuous =>
    simp only [teardown, Program.bind_eq, Program.obeys_bind, Errand.obeys_ask_clearCallback]
    rw [Errand.obeys_hardware]
    refine ⟨⟨d, rfl, hd⟩, fun stopped => ?_⟩
    rw [Errand.obeys_hardware]
    exact ⟨trivial, fun deinit => ⟨_, rfl, by simp [Driver.after]⟩⟩
  | timeCritical channel =>
    simp only [teardown, Program.bind_eq, Program.obeys_bind, Errand.obeys_ask_arm]
    rw [Errand.obeys_hardware_aside rfl]
    exact fun deleted => ⟨d, rfl, hd⟩
  | oneShot | idle | reserved => exact ⟨d, rfl, hd⟩

theorem release_errand (mask : Mask) :
    (release mask : Operation κ φ _).Obeys (errand config i command) {} fun _ t => t = {} := by
  unfold release
  split
  · rfl
  · refine Errand.obeys_section (fun held d hd => ?_) (by rintro (e | ⟨⟩) <;> simp)
    split
    · exact Errand.obeys_unchanged _ hd
    · split
      · exact Errand.obeys_unchanged _ hd
      · exact (teardown_errand held.session hd).map _ fun _ _ h => h

theorem reinit_errand :
    (reinit : Operation κ φ _).Obeys (errand config i command) {} fun _ t => t = {} := by
  unfold reinit
  refine Errand.obeys_section (fun held d hd => ?_) fun result => ?_
  · split
    · exact Errand.obeys_unchanged _ hd
    · simp only [Program.bind_eq, Program.obeys_bind]
      refine (teardown_errand held.session hd).mono fun result t hinside => ?_
      simp only [Errand.obeys_ask_clearCallback, Errand.obeys_ask_arm]
      exact hinside
  · split <;> simp

/-! ## The one-shot path -/

section

variable {channel : Channel} {range : Range} {attenuation : Attenuation} {count : UInt32}

theorem configureOneShot_errand :
    (configureOneShot channel range : Operation κ φ _).Obeys (errand config i command) t
      fun _ t' => t' = t := by
  unfold configureOneShot
  simp only [Program.bind_eq, Program.obeys_bind]
  rw [Errand.obeys_hardware_aside rfl]
  rintro (fault | ⟨⟩)
  · rfl
  · simp only [Program.obeys_bind]
    rw [Errand.obeys_hardware_aside rfl]
    rintro (fault | ⟨⟩)
    · simp only [Program.obeys_bind]
      rw [Errand.obeys_hardware_aside rfl]
      exact fun deleted => rfl
    · rfl

theorem reconfigureArmed_errand :
    (reconfigureArmed channel range : Operation κ φ _).Obeys (errand config i command) t
      fun _ t' => t' = t := by
  unfold reconfigureArmed
  simp only [Program.bind_eq, Program.obeys_bind]
  rw [Errand.obeys_hardware_aside rfl]
  rintro (fault | ⟨⟩)
  · simp only [Program.obeys_bind, Errand.obeys_ask_arm]
    rw [Errand.obeys_hardware_aside rfl]
    exact fun deleted => rfl
  · rfl

theorem readSum_errand (n : Nat) (sum : UInt64) :
    (readSum channel n sum : Operation κ φ _).Obeys (errand config i command) t
      fun _ t' => t' = t := by
  induction n generalizing sum with
  | zero => rfl
  | succ n ih =>
    unfold readSum
    simp only [Program.bind_eq, Program.obeys_bind]
    rw [Errand.obeys_hardware_aside rfl]
    rintro (fault | raw)
    · rfl
    · exact ih _

theorem readAverage_errand :
    (readAverage channel count : Operation κ φ _).Obeys (errand config i command) t
      fun _ t' => t' = t := by
  unfold readAverage
  simp only [Program.bind_eq, Program.obeys_bind]
  refine (readSum_errand _ _).mono ?_
  rintro (fault | sum) _ rfl <;> rfl

theorem openBurst_errand :
    (openBurst channel range : Operation κ φ _).Obeys (errand config i command) {}
      fun _ t => t = {} := by
  rw [← Program.bind_pure (openBurst channel range)]
  refine Errand.obeys_section (fun held d hd => ?_) fun _ => rfl
  split
  · exact Errand.obeys_unchanged _ hd
  · split
    · simp only [Program.bind_eq, Program.obeys_bind]
      refine configureOneShot_errand.mono ?_
      rintro (fault | ⟨⟩) _ rfl <;> exact Errand.obeys_unchanged _ hd
    · simp only [Program.bind_eq, Program.obeys_bind]
      refine configureOneShot_errand.mono ?_
      rintro (fault | ⟨⟩) _ rfl <;> exact Errand.obeys_unchanged _ hd
    · exact Errand.obeys_unchanged _ hd

theorem closeBurst_errand (prior : Session) :
    (closeBurst channel prior : Operation κ φ _).Obeys (errand config i command) {}
      fun _ t => t = {} := by
  rw [← Program.bind_pure (closeBurst channel prior)]
  refine Errand.obeys_section (fun held d hd => ?_) fun _ => rfl
  split
  · exact Errand.obeys_unchanged _ hd
  · simp only [Program.bind_eq, Program.obeys_bind]
    rw [Errand.obeys_hardware_aside rfl]
    exact fun deleted => Errand.obeys_unchanged _ hd

theorem sampleOnce_errand :
    (sampleOnce config channel attenuation count : Operation κ φ _).Obeys (errand config i command)
      {} fun _ t => t = {} := by
  unfold sampleOnce
  split
  · rfl
  · simp only [Program.bind_eq, Program.obeys_bind]
    refine openBurst_errand.mono ?_
    rintro (e | prior) _ rfl
    · simp
    · simp only [Program.obeys_bind]
      refine readAverage_errand.mono ?_
      rintro reading _ rfl
      refine (closeBurst_errand prior).mono ?_
      rintro closing _ rfl
      split <;> simp

theorem finishArming_errand (held fallback : Reservation) (configured : Except HardwareFault Unit) :
    (finishArming channel held fallback configured : Operation κ φ _).Obeys
      (errand config i command) t fun _ t' => t' = t := by
  cases configured with
  | error fault => rfl
  | ok u => simp [finishArming]

theorem setupTimeCritical_errand :
    (setupTimeCritical config channel attenuation : Operation κ φ _).Obeys
      (errand config i command) {} fun _ t => t = {} := by
  unfold setupTimeCritical
  refine Errand.obeys_section (fun held d hd => ?_) (by rintro (e | ⟨⟩) <;> simp)
  have hinside : (⟨some d, []⟩ : Errand κ).Inside := ⟨d, rfl, hd⟩
  -- a set-up under the lock is about the one-shot path alone
  have harm : ∀ {p : Operation κ φ (Except HardwareFault Unit)} (held fallback : Reservation),
      p.Obeys (errand config i command) ⟨some d, []⟩ (fun _ t => t = ⟨some d, []⟩) →
      (p.bind (finishArming channel held fallback)).Obeys (errand config i command) ⟨some d, []⟩
        fun _ t => t.Inside := by
    intro p held fallback hp
    rw [Program.obeys_bind]
    refine hp.mono ?_
    rintro configured _ rfl
    refine (finishArming_errand held fallback configured).mono ?_
    rintro _ _ rfl
    exact hinside
  split
  · exact hinside
  · split
    · exact harm _ _ configureOneShot_errand
    · exact harm _ _ configureOneShot_errand
    · split
      · exact harm _ _ reconfigureArmed_errand
      · exact hinside
    · exact hinside

theorem releaseTimeCritical_errand :
    (releaseTimeCritical channel : Operation κ φ _).Obeys (errand config i command) {}
      fun _ t => t = {} := by
  unfold releaseTimeCritical
  refine Errand.obeys_section (fun held d hd => ?_) (by rintro (e | ⟨⟩) <;> simp)
  split
  · exact Errand.obeys_unchanged _ hd
  · simp only [Program.bind_eq, Program.obeys_bind, Errand.obeys_ask_arm]
    rw [Errand.obeys_hardware_aside rfl]
    exact fun deleted => Errand.obeys_unchanged _ hd

theorem sampleTimeCritical_errand :
    (sampleTimeCritical channel count : Operation κ φ _).Obeys (errand config i command) {}
      fun _ t => t = {} := by
  unfold sampleTimeCritical
  split
  · rfl
  · simp only [Program.bind_eq, Program.obeys_bind, Errand.obeys_ask_armed]
    rintro (_ | armed)
    · rfl
    · dsimp only
      split
      · exact readAverage_errand.map _ fun _ _ h => h
      · rfl

end

/-! ## Streams -/

section

variable {request : ContinuousRequest φ}

/-- A driver that was just created is configured, told its slot and started, as far as that works. -/
theorem launch_errand (hasks : command.AsksFor config request) (callback : φ) :
    (launch request.rate (request.pattern config) callback : Operation κ φ _).Obeys
      (errand config i command) ⟨some ⟨some i, some .created⟩, []⟩ fun _ t => t.Inside := by
  unfold launch
  simp only [Program.bind_eq, Program.obeys_bind]
  rw [Errand.obeys_hardware]
  refine ⟨⟨rfl, request, hasks, rfl, rfl⟩, ?_⟩
  rintro (fault | ⟨⟩)
  · exact ⟨_, rfl, by simp [Driver.after]⟩
  · simp only [Program.obeys_bind, Errand.obeys_ask_resetFrameCounts,
      Errand.obeys_ask_installCallback]
    rw [Errand.obeys_hardware]
    refine ⟨rfl, ?_⟩
    rintro (fault | ⟨⟩)
    · exact ⟨_, rfl, by simp [Driver.after, Stage.configure]⟩
    · dsimp only
      rw [Errand.obeys_hardware]
      refine ⟨rfl, ?_⟩
      rintro (fault | ⟨⟩) <;>
        exact ⟨_, rfl, by simp [Driver.after, Stage.configure, Stage.register]⟩

theorem configureStream_errand (hasks : command.AsksFor config request) {bytes : UInt32}
    (hbytes : request.frameBytes config = .ok bytes) (callback : φ) (hd : d.stage ≠ some .stopped) :
    (configureStream request.rate (request.pattern config) bytes callback :
      Operation κ φ _).Obeys (errand config i command) ⟨some d, []⟩ fun _ t => t.Inside := by
  unfold configureStream
  simp only [Program.bind_eq, Program.obeys_bind]
  rw [Errand.obeys_hardware]
  refine ⟨⟨rfl, request, hasks, hbytes⟩, ?_⟩
  rintro (fault | ⟨⟩)
  · exact ⟨d, rfl, hd⟩
  · simp only [Program.obeys_bind]
    refine (launch_errand hasks callback).mono ?_
    rintro (fault | ⟨⟩) _ ⟨d', rfl, hd'⟩
    · simp only [Program.obeys_bind, Errand.obeys_ask_clearCallback]
      rw [Errand.obeys_hardware]
      exact ⟨trivial, fun deinit => ⟨_, rfl, by simp [Driver.after]⟩⟩
    · exact ⟨d', rfl, hd'⟩

theorem startContinuous_errand (hasks : command.request? = some request) :
    (startContinuous config request : Operation κ φ _).Obeys (errand config i command) {}
      fun _ t => t = {} := by
  unfold startContinuous
  split
  · rfl
  · rfl
  · rfl
  · rename_i bytes callback hcheck hbytes _
    have hstart : ∀ {d : Driver} (f : Except HardwareFault Unit → Operation κ φ
        (Except AdcError Unit × Reservation)), d.stage ≠ some .stopped →
        (∀ result (t : Errand κ), t.Inside →
          (f result).Obeys (errand config i command) t fun _ t => t.Inside) →
        ((configureStream request.rate (request.pattern config) bytes callback).bind f).Obeys
          (errand config i command) ⟨some d, []⟩ fun _ t => t.Inside := by
      intro d f hd hf
      rw [Program.obeys_bind]
      exact (configureStream_errand ⟨hasks, hcheck⟩ hbytes callback hd).mono hf
    refine Errand.obeys_section (fun held d hd => ?_) (by rintro (e | ⟨⟩) <;> simp)
    split
    · exact Errand.obeys_unchanged _ hd
    · split
      · simp only [Program.bind_eq, Program.obeys_bind, Errand.obeys_ask_installCallback,
          Errand.obeys_note]
        exact Errand.obeys_unchanged _ hd
      · exact hstart _ hd (by rintro (fault | ⟨⟩) t h <;> exact h)
      · exact hstart _ hd (by rintro (fault | ⟨⟩) t h <;> exact h)
      · exact Errand.obeys_unchanged _ hd

theorem stopContinuous_errand (mask : Mask) :
    (stopContinuous mask : Operation κ φ _).Obeys (errand config i command) {}
      fun _ t => t = {} := by
  unfold stopContinuous
  split
  · rfl
  · refine Errand.obeys_section (fun held d hd => ?_) (by rintro (e | ⟨⟩) <;> simp)
    split
    · exact Errand.obeys_unchanged _ hd
    · exact (teardown_errand .continuous hd).map _ fun _ _ h => h

theorem startSampling_errand {request : SamplingRequest φ} (hasks : command = .submit request) :
    (startSampling config request : Operation κ φ _).Obeys (errand config i command) {}
      fun _ t => t = {} := by
  unfold startSampling
  split
  · rfl
  · simp only [Program.bind_eq, Program.obeys_bind, Errand.obeys_note]
    cases request with
    | oneShot r => exact sampleOnce_errand.map _ fun _ _ h => h
    | continuous r =>
      exact (startContinuous_errand (by rw [hasks]; rfl)).map _ fun _ _ h => h

end

/-! ## Calibration -/

section

variable {range : Range} {codes : List UInt16}

theorem convertEach_errand {context : κ} (hopen : (context, range) ∈ t.contexts)
    (hconverts : command.converts? config = some (range.width, codes)) (raws : List UInt16)
    (hraws : raws ⊆ codes) :
    (convertEach context raws : Operation κ φ _).Obeys (errand config i command) t
      fun _ t' => t' = t := by
  induction raws with
  | nil => rfl
  | cons raw raws ih =>
    unfold convertEach
    simp only [Program.bind_eq, Program.obeys_bind]
    obtain ⟨hraw, hrest⟩ := List.cons_subset.1 hraws
    show Program.Obeys _ (ask (.hardware (.applyCalibration context raw))) _ _
    rw [Errand.obeys_ask]
    refine ⟨⟨codes, range, hopen, hconverts, hraw⟩, fun converted d _ => ?_⟩
    have hsame : t.next i d (.hardware (.applyCalibration context raw) : Question κ φ) converted =
        t := by
      obtain ⟨driver, contexts⟩ := t
      cases driver <;> rfl
    rw [hsame]
    exact ih hrest

theorem convertInScope_errand (channel : Channel)
    (hconverts : command.converts? config = some (range.width, codes)) :
    (convertInScope channel range codes : Operation κ φ _).Obeys (errand config i command) {}
      fun r t => t.driver = none ∧ ∀ fault, r = .error fault → t.contexts = [] := by
  unfold convertInScope withCalibration
  simp only [Program.bind_eq, Program.obeys_bind]
  show Program.Obeys _ (ask (.hardware (.createCalibration channel range))) _ _
  rw [Errand.obeys_ask]
  refine ⟨⟨codes, hconverts⟩, ?_⟩
  rintro (fault | context) d -
  · exact ⟨rfl, fun _ _ => rfl⟩
  · simp only [Program.obeys_bind]
    have hopen : (context, range) ∈ [(context, range)] := List.mem_cons_self
    refine (convertEach_errand hopen hconverts codes (List.Subset.refl _)).mono ?_
    rintro results _ rfl
    show Program.Obeys _ (ask (.hardware (.deleteCalibration context))) _ _
    rw [Errand.obeys_ask]
    exact ⟨⟨range, hopen⟩, fun _ _ _ => ⟨rfl, fun _ h => by cases h⟩⟩

theorem calibrate_errand (channel : Channel) (attenuation : Attenuation)
    (hconverts : command.converts? config = some (config.width, codes)) :
    (calibrate config channel attenuation codes : Operation κ φ _).Obeys
      (errand config i command) {} fun _ t => t.driver = none := by
  unfold calibrate
  split
  · rfl
  · simp only [Program.bind_eq, Program.obeys_bind]
    refine (convertInScope_errand channel hconverts).mono ?_
    rintro (fault | results) t ⟨hdriver, -⟩
    · exact hdriver
    · dsimp only
      split <;> exact hdriver

theorem calibrateIndex_errand (index : Nat) (attenuation : Attenuation)
    (hconverts : command.converts? config = some (config.width, codes)) :
    (calibrateIndex config index attenuation codes : Operation κ φ _).Obeys
      (errand config i command) {} fun _ t => t.driver = none := by
  unfold calibrateIndex
  split
  · rfl
  · exact calibrate_errand _ attenuation hconverts

end

/-! ## Commands -/

theorem Command.converts?_of_buffer {samples : List UInt16} (h : command.buffer? = some samples)
    (config : Config) : command.converts? config = some (config.width, samples) := by
  cases command <;> cases h <;> rfl

/-- How the operation of a command ends: outside the lock. If it reports an error, it has opened no
context, or converts a buffer. -/
structure Errand.Ends (command : Command φ) (result : Result) (t : Errand κ) : Prop where
  away : t.driver = none
  failed : command.buffer? = none → result.error? ≠ none → t.contexts = []

theorem Errand.ends_empty (command : Command φ) (result : Result) :
    Errand.Ends command result ({} : Errand κ) := ⟨rfl, fun _ _ => rfl⟩

/-- The operation of a command makes its calls in order. -/
theorem operation_errand (config : Config) (i : Nat) (command : Command φ) :
    (command.operation config : Operation κ φ Result).Obeys (errand config i command) {}
      (Errand.Ends command) := by
  have haside : ∀ {α : Type} {p : Operation κ φ α} (f : α → Result),
      p.Obeys (errand config i command) {} (fun _ t => t = {}) →
      (p.bind fun a => .done (f a)).Obeys (errand config i command) {} (Errand.Ends command) := by
    intro α p f hp
    refine hp.map f ?_
    rintro _ _ rfl
    exact Errand.ends_empty ..
  cases command with
  | reserve mask => exact haside _ (tryReserve_errand mask)
  | release mask => exact haside _ (release_errand mask)
  | sampleOnce channel attenuation count => exact haside _ sampleOnce_errand
  | setupTimeCritical channel attenuation => exact haside _ setupTimeCritical_errand
  | sampleTimeCritical channel count => exact haside _ sampleTimeCritical_errand
  | releaseTimeCritical channel => exact haside _ releaseTimeCritical_errand
  | startContinuous request => exact haside _ (startContinuous_errand rfl)
  | stopContinuous mask => exact haside _ (stopContinuous_errand mask)
  | reinit => exact haside _ reinit_errand
  | submit request => exact haside _ (startSampling_errand rfl)
  | calibrate channel attenuation samples =>
    exact (calibrate_errand channel attenuation rfl).map _ fun _ _ h => ⟨h, nofun⟩
  | calibrateIndex index attenuation samples =>
    exact (calibrateIndex_errand index attenuation rfl).map _ fun _ _ h => ⟨h, nofun⟩
  | convertInScope channel range raws =>
    refine (convertInScope_errand channel rfl).map _ ?_
    rintro (fault | results) t ⟨hdriver, hnone⟩
    · exact ⟨hdriver, fun _ _ => hnone fault rfl⟩
    · exact ⟨hdriver, fun _ herror => absurd rfl herror⟩
  | config => exact Errand.ends_empty ..
  | malformed call reason => exact Errand.ends_empty ..

end SharedAdc.Controller
