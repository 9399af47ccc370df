/-
How every command ends, by its result and its account.
-/
import SharedAdc.Proofs.Accounts.Calibration
import SharedAdc.Proofs.Accounts.Continuous

namespace SharedAdc.Controller

variable {κ φ α : Type} {config : Config} {command : Command φ} {a : Account κ φ}

/-! ## Commands -/

/-- The error that a call reports, if it has failed. -/
def Result.error? : Result → Option AdcError
  | .done result | .calibrated result _ => errorOf result
  | .value result => errorOf result
  | .outcome result => errorOf result
  | .conversions result => (errorOf result).map .hardware
  | .config _ => none

namespace Command

/-- Whether the operation of the command comes under the lock. -/
def entersLock : Command φ → Bool
  | .sampleTimeCritical .. | .calibrate .. | .calibrateIndex .. | .convertInScope .. | .config
  | .malformed .. => false
  | _ => true

/-- Whether the command starts a stream. -/
def isStart : Command φ → Bool
  | .startContinuous _ | .submit (.continuous _) => true
  | _ => false

/-- The buffer that the command converts. -/
def buffer? : Command φ → Option (List UInt16)
  | .calibrate _ _ samples | .calibrateIndex _ _ samples => some samples
  | _ => none

/-- How the operation of a command ends. -/
structure Ends (config : Config) (command : Command φ) (result : Result) (a : Account κ φ) :
    Prop where
  locking : command.entersLock = true → Ending config command result.error? a
  aside : command.entersLock = false → EndsAside result.error? a
  reserved : ∀ mask, command = .reserve mask → a.calls = []
  converted : ∀ channel count, command = .sampleTimeCritical channel count →
    Converted channel count result.error? a
  streams : command.isStart = true → Streams command.callback? result.error? a
  buffer : ∀ e samples, result.error? = some e → e.isRejection = true →
    command.buffer? = some samples → result = .calibrated (.error e) samples

namespace Ends

variable {result : Result}

theorem of_ending (h : Ending config command result.error? a) (hlock : command.entersLock = true)
    (hstart : command.isStart = false) (hbuffer : command.buffer? = none)
    (hreserved : ∀ mask, command = .reserve mask → a.calls = []) :
    Ends config command result a where
  locking _ := h
  aside hopen := by simp [hlock] at hopen
  reserved := hreserved
  converted channel count heq := by
    rw [heq] at hlock
    cases hlock
  streams hs := by simp [hstart] at hs
  buffer e samples _ _ hb := by simp [hbuffer] at hb

theorem of_start (h : Ending config command result.error? a)
    (hstreams : Streams command.callback? result.error? a) (hstart : command.isStart = true)
    (hlock : command.entersLock = true) (hbuffer : command.buffer? = none) :
    Ends config command result a where
  locking _ := h
  aside hopen := by simp [hlock] at hopen
  reserved mask heq := by
    rw [heq] at hstart
    cases hstart
  converted channel count heq := by
    rw [heq] at hstart
    cases hstart
  streams _ := hstreams
  buffer e samples _ _ hb := by simp [hbuffer] at hb

theorem of_aside (h : EndsAside result.error? a) (hlock : command.entersLock = false)
    (hread : ∀ channel count, command ≠ .sampleTimeCritical channel count)
    (hbuffer : ∀ e samples, result.error? = some e → e.isRejection = true →
      command.buffer? = some samples → result = .calibrated (.error e) samples) :
    Ends config command result a where
  locking hin := by simp [hlock] at hin
  aside _ := h
  reserved mask heq := by
    rw [heq] at hlock
    cases hlock
  converted channel count heq := absurd heq (hread channel count)
  streams hstart := by
    cases command with
    | startContinuous | submit => cases hlock
    | _ => cases hstart
  buffer := hbuffer

/-- A command that reports a failure of the hardware reports the first one. -/
theorem fault (h : Ends config command result a) {fault : HardwareFault}
    (he : result.error? = some (.hardware fault)) : a.fault? = some fault := by
  cases hlock : command.entersLock with
  | false => exact (h.aside hlock).fault fault he
  | true =>
    have hending := h.locking hlock
    rw [he] at hending
    exact hending.of_fault.1

/-- A command that is turned down has asked nothing of the hardware and changed nothing. -/
theorem rejected (h : Ends config command result a) {e : AdcError} (he : result.error? = some e)
    (hrejection : e.isRejection = true) : a.quiet = true ∧ a.calls = [] := by
  cases hlock : command.entersLock with
  | false =>
    have haside := h.aside hlock
    exact ⟨haside.quiet, haside.calls e he hrejection⟩
  | true =>
    have hending := h.locking hlock
    rw [he] at hending
    cases hending with
    | invalid => exact ⟨rfl, rfl⟩
    | refused _ _ hquiet hcalls => exact ⟨hquiet, hcalls⟩
    | failed => cases hrejection

end Ends

end Command

/-- Commands that are admitted, checked and fall back alike end alike. -/
theorem Ending.congr {command' : Command φ} {error : Option AdcError}
    (h : Ending config command error a)
    (hargs : command'.WellFormed config → command.WellFormed config)
    (hrefusal : ∀ held, command'.refusal held = command.refusal held)
    (hfallback : ∀ found, command'.fallback found = command.fallback found) :
    Ending config command' error a := by
  cases h with
  | invalid reason hinvalid => exact .invalid reason (hinvalid ∘ hargs)
  | refused hfound he hquiet hcalls => exact .refused hfound (by rw [hrefusal, he]) hquiet hcalls
  | failed hfound hnone hfault hleft hdeleted =>
    exact .failed hfound (by rw [hrefusal, hnone]) hfault (by rw [hfallback, hleft]) hdeleted
  | completed hfound hnone => exact .completed hfound (by rw [hrefusal, hnone])

/-- A request ends as the operation does that serves it. -/
theorem startSampling_ends (request : SamplingRequest φ) :
    (startSampling config request : Operation κ φ _).Obeys (accounting (.submit request)) {}
      fun result => Command.Ends config (.submit request) (.outcome result) := by
  unfold startSampling
  cases request with
  | oneShot r =>
    dsimp only [SamplingRequest.check, OneShotRequest.check]
    split
    · rename_i e he
      obtain ⟨reason, rfl⟩ := checkCount_error he
      exact .of_ending (.invalid reason (by simp [Command.WellFormed, he])) rfl rfl rfl (by simp)
    · simp only [Program.bind_eq, Program.obeys_bind, Account.obeys_note]
      refine sampleOnce_ending.mono ?_
      intro result a h
      refine .of_ending ?_ rfl rfl rfl (by simp)
      rw [Result.error?, errorOf_map]
      exact h.congr id (fun _ => rfl) fun _ => rfl
  | continuous r =>
    dsimp only [SamplingRequest.check]
    split
    · rename_i e he
      obtain ⟨reason, rfl⟩ := ContinuousRequest.check_error he
      exact .of_start (.invalid reason (by simp [Command.WellFormed, he]))
        ⟨by simp, by rintro ⟨⟩, by rintro _ ⟨⟩⟩ rfl rfl rfl
    · simp only [Program.bind_eq, Program.obeys_bind, Account.obeys_note]
      refine (startContinuous_ending rfl).mono ?_
      rintro result a ⟨h, hstreams⟩
      refine .of_start ?_ ?_ rfl rfl rfl
      · rw [Result.error?, errorOf_map]
        exact h.congr id (fun _ => rfl) fun _ => rfl
      · rw [Result.error?, errorOf_map]
        exact hstreams

theorem ends_calibrated {samples : List UInt16} {r : Except AdcError Unit × List UInt16}
    (h : CalibrationEnding samples r a) (hlock : command.entersLock = false)
    (hbuffer : command.buffer? = some samples) :
    command.Ends config (.calibrated r.1 r.2) a := by
  obtain ⟨result, after⟩ := r
  refine .of_aside h.1 hlock (fun channel count heq => ?_) fun e samples' he hrejection hs => ?_
  · rw [heq] at hbuffer
    cases hbuffer
  · obtain rfl : samples = samples' := by simpa [hbuffer] using hs
    cases result with
    | ok u => cases he
    | error e' =>
      cases he
      obtain rfl : after = samples := h.2 e rfl hrejection
      rfl

/-- Whatever the hardware replies and whatever the others do meanwhile, every command ends so. -/
theorem operation_ends (config : Config) (command : Command φ) :
    (command.operation config : Operation κ φ Result).Obeys (accounting command) {}
      (command.Ends config) := by
  unfold Command.operation
  cases command with
  | reserve mask =>
    exact (tryReserve_ending mask).map _ fun _ _ h => .of_ending h.1 rfl rfl rfl fun _ _ => h.2
  | release mask => exact (release_ending mask).map _ fun _ _ h => .of_ending h rfl rfl rfl nofun
  | sampleOnce channel attenuation count =>
    exact sampleOnce_ending.map _ fun _ _ h => .of_ending h rfl rfl rfl nofun
  | setupTimeCritical channel attenuation =>
    exact setupTimeCritical_ending.map _ fun _ _ h => .of_ending h rfl rfl rfl nofun
  | sampleTimeCritical channel count =>
    refine sampleTimeCritical_ending.map _ fun _ _ h => ?_
    exact {
      locking := nofun
      aside := fun _ => h.aside
      reserved := nofun
      converted := by
        rintro _ _ ⟨⟩
        exact h
      streams := nofun
      buffer := nofun }
  | releaseTimeCritical channel =>
    exact releaseTimeCritical_ending.map _ fun _ _ h => .of_ending h rfl rfl rfl nofun
  | startContinuous request =>
    exact (startContinuous_ending rfl).map _ fun _ _ h => .of_start h.1 h.2 rfl rfl rfl
  | stopContinuous mask =>
    exact (stopContinuous_ending mask).map _ fun _ _ h => .of_ending h rfl rfl rfl nofun
  | reinit => exact reinit_ending.map _ fun _ _ h => .of_ending h rfl rfl rfl nofun
  | submit request => exact (startSampling_ends request).map _ fun _ _ h => h
  | calibrate channel attenuation samples =>
    exact (calibrate_ending channel attenuation samples).map _ fun _ _ h =>
      ends_calibrated h rfl rfl
  | calibrateIndex index attenuation samples =>
    exact (calibrateIndex_ending index attenuation samples).map _ fun _ _ h =>
      ends_calibrated h rfl rfl
  | convertInScope channel range raws =>
    refine (convertInScope_account channel range raws).map _ ?_
    rintro result a ⟨hquiet, hcalls⟩
    refine .of_aside ?_ rfl nofun nofun
    cases result with
    | error fault => exact .of_fault hquiet hcalls.firstFault?_eq
    | ok results => exact ⟨hquiet, nofun, nofun⟩
  | config => exact .of_aside (.rejected none rfl rfl nofun) rfl nofun nofun
  | malformed call reason => exact .of_aside (.rejected _ rfl rfl nofun) rfl nofun nofun

end SharedAdc.Controller
