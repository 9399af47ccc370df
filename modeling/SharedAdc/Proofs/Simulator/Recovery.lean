/-
What a fresh start gives back. The controller is idle after it in any case, but a path whose closing
has failed stays taken on the unit: the controller gave it up, nobody closes it any more, and
nothing can be opened in its place.
-/
import SharedAdc.Proofs.Simulator.Continuous
import SharedAdc.Proofs.Simulator.OneShot

namespace SharedAdc.Simulator

open Controller

/-! ## Commands at a rig -/

namespace Rig

/-- A rig with the controller and the unit of a world. -/
def of (w : World machine Consumer) : Rig where
  config := {}
  sim := w.memory
  shared := w.shared

/-- What comes back from a command. -/
def result (r : Rig) (c : Command Consumer) : Result := ((command c).run r).1

/-- The rig after a command. -/
def after (r : Rig) (c : Command Consumer) : Rig := ((command c).run r).2

theorem config_run {α : Type} (p : Operation Range Consumer α) (r : Rig) :
    ((p.run answer).run r).2.config = r.config := by
  induction p generalizing r with
  | done a => rfl
  | ask q next ih =>
    have hask : ((answer q).run r).2.config = r.config := by cases q <;> rfl
    exact (ih _ _).trans hask

section

variable {α : Type} {p : Operation Range Consumer α} {wrap : α → Result} {r : Rig}
  {c : Command Consumer} {post : α → State Consumer × machine.Memory → Prop}

/-- A command comes to what its operation comes to when it is followed alone. -/
theorem command_obeys (hc : c.operation r.config = p.bind fun a => .done (wrap a))
    (h : p.Obeys (solo machine) r.core post) :
    ∃ a, r.result c = wrap a ∧ post a (r.after c).core := by
  have hend : (c.operation r.config).Obeys (solo machine) r.core
      fun result t => ∃ a, result = wrap a ∧ post a t := by
    rw [hc, Program.obeys_bind]
    exact h.mono fun a t hpost => ⟨a, rfl, hpost⟩
  have hrun := (Program.obeys_ofState ..).1 hend
  rw [← core_run] at hrun
  exact hrun

end

end Rig

/-! ## After a fresh start -/

section

variable {r : Rig} {unitLost driverLost : Bool} (h : Afresh unitLost driverLost r.core)

include h

theorem Afresh.sampleOnce_iff (c : Channel) (attenuation : Attenuation) {count : UInt32}
    (hcount : count ≠ 0) :
    (∃ value, r.result (.sampleOnce c attenuation count) = .value (.ok value)) ↔
      unitLost = false := by
  obtain ⟨hs, hf, hcoupled⟩ := h
  obtain ⟨result, hresult, hiff⟩ := Rig.command_obeys (c := .sampleOnce c attenuation count) rfl
    (sampleOnce_solo hs hf r.config c attenuation hcount)
  rw [hcoupled.unit.taken] at hiff
  rw [hresult]
  simpa using hiff

theorem Afresh.setupTimeCritical_iff (c : Channel) (attenuation : Attenuation) :
    r.result (.setupTimeCritical c attenuation) = .done (.ok ()) ↔ unitLost = false := by
  obtain ⟨hs, hf, hcoupled⟩ := h
  obtain ⟨result, hresult, hiff⟩ := Rig.command_obeys (c := .setupTimeCritical c attenuation) rfl
    (setupTimeCritical_solo hs hf r.config c attenuation)
  rw [hcoupled.unit.taken] at hiff
  rw [hresult]
  simpa using hiff

theorem Afresh.startContinuous_iff (hconfig : r.config = {})
    {request : ContinuousRequest Consumer} {bytes : UInt32} (hcheck : request.check {} = .ok ())
    (hbytes : request.frameBytes {} = .ok bytes) :
    r.result (.startContinuous request) = .done (.ok ()) ↔ driverLost = false := by
  obtain ⟨hs, hf, hcoupled⟩ := h
  obtain ⟨result, hresult, hiff⟩ := Rig.command_obeys (r := r) (c := .startContinuous request)
    (by rw [hconfig]; rfl) (startContinuous_solo hs hf hcoupled.producer hcheck hbytes)
  rw [hcoupled.driver.taken] at hiff
  rw [hresult]
  simpa using hiff

end

/-! ## After any run -/

/-- After any actions of any callers, once everybody is finished and no fault is pending, a fresh
start makes the unit usable again just for what has not been given up on the way. -/
theorem usable_after_reinit_iff (settings : Settings) (actions : List (Action machine Consumer))
    (hquiet : ((started settings).run {} actions).callers.all Caller.isFinished = true)
    (hfault : Simulator.fault ((started settings).run {} actions).memory = false) :
    let w := (started settings).run {} actions
    let again := (Rig.of w).after .reinit
    (∀ c attenuation count, count ≠ 0 →
      ((∃ value, again.result (.sampleOnce c attenuation count) = .value (.ok value)) ↔
        w.history.any unitGivenUp = false)) ∧
    (∀ c attenuation, again.result (.setupTimeCritical c attenuation) = .done (.ok ()) ↔
      w.history.any unitGivenUp = false) ∧
    (∀ request bytes, request.check {} = .ok () → request.frameBytes {} = .ok bytes →
      (again.result (.startContinuous request) = .done (.ok ()) ↔
        w.history.any driverGivenUp = false)) := by
  intro w again
  have hkept : w.Kept := World.kept_run {} (started settings).memory actions
  obtain ⟨hfree, hne⟩ := hkept.quiet hquiet
  have hcoupled : CoupledTo w.memory w.history := coupledTo_run settings {} actions
  have hsolo := reinit_solo (hkept.sound hfree) hne hcoupled hfault
  obtain ⟨-, -, hafresh⟩ := Rig.command_obeys (r := .of w) (c := .reinit) rfl hsolo
  have hconfig : again.config = {} := Rig.config_run _ _
  refine ⟨?_, ?_, ?_⟩
  · intro c attenuation count hcount
    exact hafresh.sampleOnce_iff c attenuation hcount
  · exact hafresh.setupTimeCritical_iff
  · intro request bytes hcheck hbytes
    exact hafresh.startContinuous_iff hconfig hcheck hbytes

/-- A channel is set up, and the fault meets the call that deletes the unit again. -/
def failedRelease : List (Action machine Consumer) :=
  .call (.setupTimeCritical 3 .db12) :: (List.replicate 8 (.advance 0) ++
    .happen .fault :: .call (.releaseTimeCritical 3) :: List.replicate 8 (.advance 1))

/-- After a failed release a fresh start brings back streams, but not the one-shot unit. -/
theorem usable_after_failedRelease :
    let w := (started {}).run {} failedRelease
    let again := (Rig.of w).after .reinit
    w.callers.all Caller.isFinished = true ∧ Simulator.fault w.memory = false ∧
    (∀ c attenuation count, count ≠ 0 →
      ¬∃ value, again.result (.sampleOnce c attenuation count) = .value (.ok value)) ∧
    (∀ request bytes, request.check {} = .ok () → request.frameBytes {} = .ok bytes →
      again.result (.startContinuous request) = .done (.ok ())) := by
  have hquiet : ((started {}).run {} failedRelease).callers.all Caller.isFinished = true := by
    decide
  have hfault : Simulator.fault ((started {}).run {} failedRelease).memory = false := by decide
  obtain ⟨hburst, -, hstream⟩ := usable_after_reinit_iff {} failedRelease hquiet hfault
  refine ⟨hquiet, hfault, ?_, ?_⟩
  · intro c attenuation count hcount hvalue
    have hlost := (hburst c attenuation count hcount).1 hvalue
    exact absurd hlost (by decide)
  · intro request bytes hcheck hbytes
    exact (hstream request bytes hcheck hbytes).2 (by decide)

/-- The unit that was given up is in the way of the next burst. -/
theorem refused_after_failedRelease :
    let w := (started {}).run {} failedRelease
    w.callers.all Caller.isFinished = true ∧ Simulator.fault w.memory = false ∧
    ((Rig.of w).after .reinit).result (.sampleOnce 3 .db12 1) =
      .value (.error (.hardware ⟨.createOneShotUnit, HardwareFault.invalidState⟩)) :=
  ⟨by decide, by decide, rfl⟩

end SharedAdc.Simulator
