/-
What a fresh start does to the simulated unit while no fault is pending: it closes what the
controller has left open, and leaves alone what was given up before.
-/
import SharedAdc.Proofs.Callers.Solo
import SharedAdc.Proofs.Simulator.Machine

namespace SharedAdc.Simulator

open Controller

/-! ## Calls while no fault is pending -/

section

variable {sim : Simulator} {p : Paths} {unitLost driverLost : Bool}

theorem perform_healthy (hf : sim.fault = false) (call : Call) :
    sim.perform call = sim.carryOut call := by
  simp [perform, attempt, hf]

theorem perform_delete {ranges : Vector (Option Range) 10} (hf : sim.fault = false)
    (hunit : sim.oneShot = some ranges) :
    sim.perform .deleteOneShotUnit = (.ok (), [], { sim with oneShot := none }) := by
  rw [perform_healthy hf]
  simp only [Simulator.carryOut, hunit]

theorem perform_deinit {bytes : UInt32} (hf : sim.fault = false)
    (hcreated : sim.stream.frameBytes = some bytes) :
    sim.perform .deinitContinuous =
      (.ok (), endEntries sim.stream.producer, { sim with stream := {} }) := by
  rw [perform_healthy hf]
  simp only [Simulator.carryOut, hcreated]

theorem Coupled.delete (h : Coupled sim p unitLost driverLost) (hf : sim.fault = false)
    (hopen : p.unit = true) :
    (sim.perform .deleteOneShotUnit).2.2.fault = false ∧
      Coupled (sim.perform .deleteOneShotUnit).2.2 { p with unit := false } unitLost
        driverLost := by
  have htaken := h.unit.taken
  rw [hopen] at htaken
  obtain ⟨ranges, hunit⟩ := Option.isSome_iff_exists.1 (htaken.trans (Bool.true_or _))
  have hadmits : p.Admits (.deleteOneShotUnit : Call) := hopen
  have hdone := h.perform hadmits
  rw [perform_delete hf hunit] at hdone ⊢
  simp only [losesUnit, losesDriver, Paths.after, Bool.or_false] at hdone
  exact ⟨hf, hdone⟩

theorem Coupled.deinit (h : Coupled sim p unitLost driverLost) (hf : sim.fault = false)
    (hopen : p.driver.isSome = true) :
    (sim.perform .deinitContinuous).2.2.fault = false ∧
      Coupled (sim.perform .deinitContinuous).2.2 { p with driver := none } unitLost
        driverLost := by
  have htaken := h.driver.taken
  rw [hopen] at htaken
  obtain ⟨bytes, hdriver⟩ := Option.isSome_iff_exists.1 (htaken.trans (Bool.true_or _))
  have hadmits : p.Admits (.deinitContinuous : Call) := hopen
  have hdone := h.perform hadmits
  rw [perform_deinit hf hdriver] at hdone ⊢
  simp only [losesUnit, losesDriver, Paths.after, Bool.or_false] at hdone
  exact ⟨hf, hdone⟩

/-- Stopping a stream neither frees nor loses its driver. -/
theorem Coupled.stop (h : Coupled sim p unitLost driverLost) (hf : sim.fault = false)
    (hopen : p.driver = some true) :
    (sim.perform .stopContinuous).2.2.fault = false ∧
      Coupled (sim.perform .stopContinuous).2.2 p unitLost driverLost := by
  have hadmits : p.Admits (.stopContinuous : Call) := hopen
  have hdone := h.perform hadmits
  simp only [losesUnit, losesDriver, Paths.after, Bool.or_false] at hdone
  exact ⟨fault_perform hf _, hdone⟩

end

/-- A call alone comes to what the unit makes of it. -/
theorem solo_call {s : State Consumer} {sim : machine.Memory} {call : Call} {reply : call.Reply}
    {log : List LogEntry} {sim' : Simulator} (h : Simulator.perform sim call = (reply, log, sim'))
    (post : call.Reply → State Consumer × machine.Memory → Prop) :
    (hardware call : Operation Range Consumer call.Reply).Obeys (solo machine) (s, sim) post ↔
      post reply (s, sim') := by
  rw [solo_hardware]
  show post (Simulator.perform sim call).1 (s, (Simulator.perform sim call).2.2) ↔ _
  rw [h]

/-! ## Starting afresh -/

section

variable {s : State Consumer} {sim : machine.Memory} {p : Paths} {unitLost driverLost : Bool}

/-- What a fresh start leaves behind: an idle controller, no fault, and no path open; what has been
lost before stays lost. -/
def Afresh (unitLost driverLost : Bool) (t : State Consumer × machine.Memory) : Prop :=
  t.1.reservation = .idle ∧ Simulator.fault t.2 = false ∧ Coupled t.2 {} unitLost driverLost

theorem teardown_solo (hs : Standing.Sound ⟨s.reservation, s.armed, s.slot.callback, p⟩)
    (hne : s.reservation.session ≠ .oneShot) (hc : Coupled sim p unitLost driverLost)
    (hf : Simulator.fault sim = false) :
    (teardown s.reservation.session : Operation Range Consumer _).Obeys (solo machine) (s, sim)
      fun _ t => Simulator.fault t.2 = false ∧ Coupled t.2 {} unitLost driverLost := by
  generalize hstanding : (⟨s.reservation, s.armed, s.slot.callback, p⟩ : Standing Consumer) =
    standing at hs
  have hr : s.reservation = standing.reservation := congrArg Standing.reservation hstanding
  have hp : p = standing.paths := congrArg Standing.paths hstanding
  rw [hr]
  rw [hp] at hc
  cases hs with
  | idle => exact ⟨hf, hc⟩
  | reserved hm => exact ⟨hf, hc⟩
  | oneShot c => exact absurd (congrArg Reservation.session hr) hne
  -- with no fault pending, each call that closes a path that is open closes it
  | timeCritical c =>
    simp only [teardown, Program.bind_eq, Program.obeys_bind, solo_arm]
    rw [solo_hardware]
    exact Coupled.delete hc hf rfl
  | continuous hm callback =>
    simp only [teardown, Program.bind_eq, Program.obeys_bind, solo_clearCallback]
    rw [solo_hardware]
    obtain ⟨hstop, hstopped⟩ := Coupled.stop hc hf rfl
    rw [solo_hardware]
    exact Coupled.deinit hstopped hstop rfl

theorem reinit_solo (hs : Standing.Sound ⟨s.reservation, s.armed, s.slot.callback, p⟩)
    (hne : s.reservation.session ≠ .oneShot) (hc : Coupled sim p unitLost driverLost)
    (hf : Simulator.fault sim = false) :
    (reinit : Operation Range Consumer _).Obeys (solo machine) (s, sim)
      fun _ t => Afresh unitLost driverLost t := by
  unfold reinit
  simp only [Program.bind_eq, Program.obeys_bind]
  refine solo_locked ?_
  rw [if_neg hne]
  simp only [Program.obeys_bind]
  have hdown := teardown_solo (s := { s with locked := true }) hs hne hc hf
  refine hdown.mono ?_
  rintro result ⟨s', sim'⟩ ⟨hhealthy, hcoupled⟩
  simp only [solo_clearCallback, solo_arm, Program.pure_eq, Program.obeys_done]
  split
  all_goals
    rw [Program.obeys_bind, solo_note]
    exact ⟨rfl, hhealthy, hcoupled⟩

end

end SharedAdc.Simulator
