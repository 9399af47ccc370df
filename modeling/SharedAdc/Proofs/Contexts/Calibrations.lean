/-
Calibrations from their first call to their last, in every run. Whoever calibrates comes to an end by
itself and has made the calls of one scope, whatever the hardware replies and whatever the others do
meanwhile; and where no calibration is in progress, each context that was opened has been deleted.
-/
import SharedAdc.Proofs.Contexts.Scopes

namespace SharedAdc.Controller

variable {κ φ : Type} {machine : Machine κ} {config : Config}

/-- What a command that converts codes results in, and the calls that it makes. The number of a channel
that the unit does not have is turned down before any call. -/
def Command.ConvertsBy (config : Config) :
    Command φ → Result → List (AnsweredCall κ) → Prop
  | .calibrate channel attenuation samples, result, calls => ∃ status after,
    result = .calibrated status after ∧
      Calibrated channel ⟨attenuation, config.width⟩ samples status after calls
  | .calibrateIndex index attenuation samples, result, calls => ∃ status after,
    result = .calibrated status after ∧
      (9 < index → status = .error (.invalidArgument .channelOutOfRange) ∧ after = samples ∧
        calls = []) ∧
      ∀ channel : Channel, channel.number = index →
        Calibrated channel ⟨attenuation, config.width⟩ samples status after calls
  | .convertInScope channel range raws, result, calls => ∃ outcome,
    result = .conversions outcome ∧ ScopeCalls channel range raws outcome calls
  | _, _, _ => True

theorem calibrateIndex_account (index : Nat) (attenuation : Attenuation) (samples : List UInt16) :
    (calibrateIndex config index attenuation samples : Operation κ φ _).Obeys (accounting command) {}
      fun r a => (9 < index → r.1 = .error (.invalidArgument .channelOutOfRange) ∧ r.2 = samples ∧
          a.calls = []) ∧
        ∀ channel : Channel, channel.number = index →
          Calibrated channel ⟨attenuation, config.width⟩ samples r.1 r.2 a.calls := by
  unfold calibrateIndex
  split
  · rename_i hnone
    have hindex := Channel.ofIndex?_eq_none_iff.1 hnone
    refine ⟨fun _ => ⟨rfl, rfl, rfl⟩, fun channel hchannel => ?_⟩
    have hlt := channel.number_lt
    omega
  · rename_i channel hsome
    have hindex := Channel.ofIndex?_eq_some_iff.1 hsome
    refine (calibrate_account channel attenuation samples).mono ?_
    rintro r a ⟨-, hcalibrated⟩
    refine ⟨fun hlt => ?_, fun channel' hchannel => ?_⟩
    · have hindex := channel.number_lt
      omega
    · rwa [Channel.number_inj (hchannel.trans hindex)]

theorem operation_convertsBy (config : Config) (command : Command φ) :
    (command.operation config : Operation κ φ Result).Obeys (accounting command) {}
      fun result a => command.ConvertsBy config result a.calls := by
  cases command with
  | calibrate channel attenuation samples =>
    exact (calibrate_account channel attenuation samples).map _ fun r _ h => ⟨r.1, r.2, rfl, h.2⟩
  | calibrateIndex index attenuation samples =>
    exact (calibrateIndex_account index attenuation samples).map _ fun r _ h => ⟨r.1, r.2, rfl, h⟩
  | convertInScope channel range raws =>
    exact (convertInScope_account channel range raws).map _ fun outcome _ h => ⟨outcome, rfl, h.2⟩
  | _ => exact (operation_ends config _).mono fun _ _ _ => trivial

namespace World

/-- Calibrations are followed by their accounts. -/
def calibrations (config : Config) : Follower κ φ (Account κ φ) where
  rules _ := accounting
  mode := Account.of
  ends command result a := command.ConvertsBy config result a.calls

theorem calibrations_fits (config : Config) :
    (calibrations config : Follower κ φ _).Fits config where
  starts {i history} command hnew := by
    show Program.Obeys _ _ (Account.of i history) _
    rw [Account.of_eq_empty hnew]
    exact operation_convertsBy config command
  leads := (accounts_fits config).leads
  others := (accounts_fits config).others

/-- Calibrations end to end, in every run on any hardware, with any other calls in between their own.
Whoever calibrates comes to an end by going on alone. Who is finished has made the calls of one scope:
none for an empty buffer or the number of no channel, a single creation if that failed, and else one
conversion for each code in turn, between the creation of the context and its deletion. Each code has
become its converted value, or is as it was if its conversion failed, and the result is the first
failure, if any. Every context that was opened was deleted just once, or is held by a calibration in
progress. -/
theorem calibrations_decided (config : Config) (memory : machine.Memory)
    (actions : List (Action machine φ)) :
    let w := (new memory).run config actions
    (∀ {i : Nat} {command : Command φ} {rest : Operation κ φ Result},
      w.callers[i]? = some ⟨command, rest⟩ → command.calibrates = true →
        ∃ n result, (w.run config (List.replicate n (.advance i))).callers[i]? =
          some ⟨command, .done result⟩) ∧
    (∀ {i : Nat} {command : Command φ} {result : Result},
      w.callers[i]? = some ⟨command, .done result⟩ →
        command.ConvertsBy config result (callsOf i w.history)) ∧
    w.openedContexts.Perm (w.deletedContexts ++ w.heldContexts) ∧
    (∀ i, ¬ w.Calibrating i → heldBy i w.history = []) ∧
    ((∀ i, ¬ w.Calibrating i) → w.openedContexts.Perm w.deletedContexts) := by
  intro w
  have hscopes : w.Followed scopes := scopes_run config memory actions
  have hends : w.Followed (calibrations config) :=
    (followed_new _ memory).run (calibrations_fits config) actions
  have hperm := hscopes.openedContexts_perm
  refine ⟨fun hi hcommand => hscopes.calibration_finishes config hi hcommand, ?_, hperm,
    fun i hi => hscopes.heldBy_eq_nil hi, fun hnone => ?_⟩
  · intro i command result hi
    have hconverts : command.ConvertsBy config result (Account.of i w.history).calls :=
      hends.finished hi
    rwa [Account.calls_of] at hconverts
  · have hheld : w.heldContexts = [] :=
      List.flatMap_eq_nil_iff.2 fun i _ => hscopes.heldBy_eq_nil (hnone i)
    rwa [hheld, List.append_nil] at hperm

/-- A buffer whose second code cannot be converted is calibrated, and in the middle of it a scope of
another caller is opened. -/
def nested : List (Action Machine.recording Unit) :=
  .call (.calibrate 1 .db12 [0, 2048, 4095]) :: List.replicate 2 (.advance 0) ++
    .call (.convertInScope 2 ⟨.db0, .bits12⟩ [4095]) :: List.replicate 2 (.advance 1) ++
    List.replicate 2 (.advance 0) ++ [.advance 1, .advance 0]

/-- That code stays as it was, and both contexts are deleted. -/
theorem calibrations_decided_nested :
    let w := (new { failingCodes := [2048] } : World Machine.recording Unit).run {} nested
    Calibrated 1 ⟨.db12, .bits12⟩ [0, 2048, 4095] (.error (.hardware ⟨.applyCalibration, -1⟩))
        [0, 2048, 3100] (callsOf 0 w.history) ∧
      w.openedContexts.Perm w.deletedContexts := by
  intro w
  obtain ⟨-, hends, -, -, hnone⟩ :=
    @calibrations_decided _ _ Machine.recording {} { failingCodes := [2048] } nested
  have hdone : w.callers[0]? = some ⟨.calibrate 1 .db12 [0, 2048, 4095],
      .done (.calibrated (.error (.hardware ⟨.applyCalibration, -1⟩)) [0, 2048, 3100])⟩ := rfl
  obtain ⟨_, _, ⟨⟩, hcalibrated⟩ := hends hdone
  refine ⟨hcalibrated, hnone ?_⟩
  rintro i ⟨caller, hi, -, hbusy, -⟩
  have hquiet : w.callers.all Caller.isFinished = true := rfl
  have hfinished := List.all_eq_true.1 hquiet caller (List.mem_of_getElem? hi)
  rw [hbusy] at hfinished
  cases hfinished

end World

end SharedAdc.Controller
