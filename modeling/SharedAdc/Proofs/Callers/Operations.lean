/-
Every operation of a controller keeps the rules of conduct, whatever the hardware replies.
-/
import SharedAdc.Proofs.Callers.Continuous
import SharedAdc.Proofs.Callers.OneShot

namespace SharedAdc.Controller

open Mode Standing

variable {κ φ : Type} {cleared : Option Channel}

/-! ## Calibration -/

theorem convertEach_obeys (context : κ) (raws : List UInt16) :
    (convertEach context raws : Operation κ φ _).Obeys conduct (.away none cleared)
      fun _ mode => mode = .away none cleared := by
  induction raws with
  | nil => rfl
  | cons raw raws ih =>
    unfold convertEach
    simp only [Program.bind_eq, Program.obeys_bind]
    rw [obeys_hardware_away]
    refine ⟨.inl ⟨rfl, trivial⟩, fun reply => ih.mono ?_⟩
    rintro rest _ rfl
    rfl

theorem convertInScope_behaves (channel : Channel) (range : Range) (raws : List UInt16) :
    Behaves (convertInScope channel range raws : Operation κ φ _) := by
  unfold Behaves convertInScope withCalibration
  simp only [Program.bind_eq, Program.obeys_bind]
  rw [obeys_hardware_away]
  refine ⟨.inl ⟨rfl, trivial⟩, ?_⟩
  rintro (fault | context)
  · exact ⟨none, rfl⟩
  · simp only [Program.obeys_bind]
    refine (convertEach_obeys context raws).mono ?_
    rintro results _ rfl
    rw [obeys_hardware_away]
    exact ⟨.inl ⟨rfl, trivial⟩, fun _ => ⟨none, rfl⟩⟩

theorem calibrate_behaves (config : Config) (channel : Channel) (attenuation : Attenuation)
    (samples : List UInt16) :
    Behaves (calibrate config channel attenuation samples : Operation κ φ _) := by
  unfold calibrate
  split
  · exact behaves_done _
  · unfold Behaves
    simp only [Program.bind_eq, Program.obeys_bind]
    refine (convertInScope_behaves _ _ _).mono ?_
    rintro (fault | results) mode hmode
    · exact hmode
    · dsimp only
      split <;> exact hmode

theorem calibrateIndex_behaves (config : Config) (index : Nat) (attenuation : Attenuation)
    (samples : List UInt16) :
    Behaves (calibrateIndex config index attenuation samples : Operation κ φ _) := by
  unfold calibrateIndex
  split
  · exact behaves_done _
  · exact calibrate_behaves _ _ _ _

/-! ## Commands -/

theorem startSampling_behaves (config : Config) (request : SamplingRequest φ) :
    Behaves (startSampling config request : Operation κ φ _) := by
  unfold startSampling
  split
  · exact behaves_done _
  · unfold Behaves
    simp only [Program.bind_eq, Program.obeys_bind, obeys_note]
    refine ⟨rfl, ?_⟩
    cases request with
    | oneShot r => exact (sampleOnce_behaves config _ _ _).map _
    | continuous r => exact (startContinuous_behaves config r).map _

theorem operation_behaves (config : Config) (command : Command φ) :
    Behaves (command.operation config : Operation κ φ Result) := by
  cases command with
  | reserve mask => exact (tryReserve_behaves mask).map _
  | release mask => exact (release_behaves mask).map _
  | sampleOnce channel attenuation count => exact (sampleOnce_behaves _ _ _ _).map _
  | setupTimeCritical channel attenuation => exact (setupTimeCritical_behaves _ _ _).map _
  | sampleTimeCritical channel count => exact (sampleTimeCritical_behaves _ _).map _
  | releaseTimeCritical channel => exact (releaseTimeCritical_behaves _).map _
  | startContinuous request => exact (startContinuous_behaves _ _).map _
  | stopContinuous mask => exact (stopContinuous_behaves _).map _
  | reinit => exact reinit_behaves.map _
  | submit request => exact (startSampling_behaves _ _).map _
  | calibrate channel attenuation samples => exact (calibrate_behaves _ _ _ _).map _
  | calibrateIndex index attenuation samples => exact (calibrateIndex_behaves _ _ _ _).map _
  | convertInScope channel range raws => exact (convertInScope_behaves _ _ _).map _
  | config => exact behaves_done _
  | malformed call reason => exact behaves_done _

end SharedAdc.Controller
