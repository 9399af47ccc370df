/-
An operation that is turned down is as good as not made: it has left the hardware alone, and what
the callers share and the buffer of its own caller are as they were.
-/
import SharedAdc.Proofs.Accounts.Steps

namespace SharedAdc.Controller.World

variable {κ φ : Type} {machine : Machine κ}

/-- Whatever the callers ask for, whatever the hardware replies and in whatever order everybody goes
on: who is turned down has made no call to the hardware, has changed nothing that is shared, and
gets the buffer back unchanged. -/
theorem rejection_changes_nothing (config : Config) (memory : machine.Memory)
    (actions : List (Action machine φ)) {i : Nat} {command : Command φ} {result : Result}
    {e : AdcError}
    (hi : ((new memory).run config actions).callers[i]? = some ⟨command, .done result⟩)
    (he : result.error? = some e) (hrejection : e.isRejection = true) :
    callsOf i ((new memory).run config actions).history = [] ∧
      (new memory).Undisturbed config actions i ∧
      ∀ samples, command.buffer? = some samples → result = .calibrated (.error e) samples := by
  have hends := (accounted_run config memory actions).finished hi
  obtain ⟨hquiet, hcalls⟩ := hends.rejected he hrejection
  rw [Account.calls_of] at hcalls
  exact ⟨hcalls, undisturbed_of_quiet hquiet, fun samples => hends.buffer e samples he hrejection⟩

/-- A fresh start is turned down while a burst of another caller is under way. -/
theorem refused_reinit_changes_nothing :
    let start : World Machine.recording Unit := new {}
    let actions := .call (.sampleOnce ⟨3⟩ .db12 2) :: .call .reinit ::
      (List.replicate 5 (.advance 0) ++ List.replicate 3 (.advance 1))
    callsOf 1 (start.run {} actions).history = [] ∧ start.Undisturbed {} actions 1 := by
  have hrefused : ((new {} : World Machine.recording Unit).run {}
      (.call (.sampleOnce ⟨3⟩ .db12 2) :: .call .reinit ::
        (List.replicate 5 (.advance 0) ++ List.replicate 3 (.advance 1)))).callers[1]? =
      some ⟨.reinit, .done (.done (.error (.resourceBusy (.single ⟨3⟩) (.single ⟨3⟩))))⟩ := by
    rfl
  obtain ⟨hcalls, hundisturbed, -⟩ := rejection_changes_nothing _ _ _ hrefused rfl rfl
  exact ⟨hcalls, hundisturbed⟩

end SharedAdc.Controller.World
