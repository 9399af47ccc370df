/-
Streams on the simulated unit while no fault is pending. An idle controller starts any stream whose
request passes its checks, just when the driver is free.
-/
import SharedAdc.Proofs.Request
import SharedAdc.Proofs.Simulator.Reinit

namespace SharedAdc.Simulator

open Controller

/-! ## Drivers that do not run yet -/

/-- The driver is created and does not run, and no fault is pending. -/
structure Created (sim : Simulator) : Prop where
  fault : sim.fault = false
  frameBytes : sim.stream.frameBytes.isSome = true
  producer : sim.stream.producer = none

section

variable {sim : Simulator} {bytes : UInt32}

/-- A free driver is created with a buffer of one frame, if a frame holds whole records. -/
theorem perform_createContinuous (hf : sim.fault = false) (hfree : sim.stream.frameBytes = none)
    (hstopped : sim.stream.producer = none) (hne : bytes ≠ 0) (hwhole : bytes.toNat % 4 = 0) :
    ∃ sim', sim.perform (.createContinuous bytes bytes) = (.ok (), [], sim') ∧ Created sim' := by
  have hsize : ¬(bytes = 0 ∨ bytes < bytes ∨ bytes.toNat % Record.size ≠ 0) := by
    rintro (hzero | hlt | hpart)
    · exact hne hzero
    · exact UInt32.lt_irrefl bytes hlt
    · exact hpart hwhole
  rw [perform_healthy hf]
  simp only [carryOut, if_neg hsize, hfree]
  exact ⟨_, rfl, hf, rfl, hstopped⟩

theorem perform_createContinuous_taken (hf : sim.fault = false)
    (htaken : sim.stream.frameBytes.isSome = true) :
    ∃ fault, sim.perform (.createContinuous bytes bytes) = (.error fault, [], sim) := by
  obtain ⟨size, hsome⟩ := Option.isSome_iff_exists.1 htaken
  rw [perform_healthy hf]
  simp only [carryOut, hsome]
  split <;> exact ⟨_, rfl⟩

theorem Created.configure (h : Created sim) {rate : UInt32} (hrate : rate ≠ 0)
    {pattern : List PatternEntry} (hpattern : pattern ≠ []) :
    ∃ sim', sim.perform (.configureContinuous rate pattern) = (.ok (), [], sim') ∧
      Created sim' ∧ sim'.stream.pattern = pattern := by
  obtain ⟨hf, hcreated, hstopped⟩ := h
  obtain ⟨bytes, hsome⟩ := Option.isSome_iff_exists.1 hcreated
  have hset : ¬(pattern.isEmpty = true ∨ rate = 0) := by
    rintro (hempty | hzero)
    · exact hpattern (List.isEmpty_iff.1 hempty)
    · exact hrate hzero
  rw [perform_healthy hf]
  simp only [carryOut, if_neg hset, hsome]
  exact ⟨_, rfl, ⟨hf, rfl, hstopped⟩, rfl⟩

theorem Created.register (h : Created sim) :
    ∃ sim', sim.perform .registerFrameSlot = (.ok (), [], sim') ∧ Created sim' ∧
      sim'.stream.pattern = sim.stream.pattern ∧ sim'.stream.slot = some .controller := by
  obtain ⟨hf, hcreated, hstopped⟩ := h
  obtain ⟨bytes, hsome⟩ := Option.isSome_iff_exists.1 hcreated
  rw [perform_healthy hf]
  simp only [carryOut, registerSlot, hsome]
  exact ⟨_, rfl, ⟨hf, rfl, hstopped⟩, rfl, rfl⟩

theorem Created.start (h : Created sim) (hpattern : sim.stream.pattern ≠ []) {target : SlotName}
    (hslot : sim.stream.slot = some target) :
    ∃ log sim', sim.perform .startContinuous = (.ok (), log, sim') := by
  obtain ⟨hf, hcreated, hstopped⟩ := h
  rw [perform_healthy hf]
  rcases sim.startStream_cases with ⟨_, _, _, _, -, -, -, -, hstart⟩ | ⟨hunset, -⟩
  · exact ⟨_, _, hstart⟩
  · exact absurd ⟨hcreated, Option.isSome_of_mem hslot, hpattern, hstopped⟩ hunset

end

/-! ## Operations -/

section

variable {s : State Consumer} {sim : machine.Memory} {bytes : UInt32}

theorem launch_created (h : Created sim) {rate : UInt32} (hrate : rate ≠ 0)
    {pattern : List PatternEntry} (hpattern : pattern ≠ []) (callback : Consumer) :
    (launch rate pattern callback : Operation Range Consumer _).Obeys (solo machine) (s, sim)
      fun r _ => r = .ok () := by
  obtain ⟨(sim₁ : machine.Memory), hconfigure, hcreated₁, rfl⟩ := h.configure hrate hpattern
  obtain ⟨sim₂, hregister, hcreated₂, hsame, hslot⟩ := hcreated₁.register
  rw [← hsame] at hpattern
  obtain ⟨log, sim₃, hstart⟩ := hcreated₂.start hpattern hslot
  unfold launch
  simp only [Program.bind_eq, Program.obeys_bind]
  rw [solo_call hconfigure]
  simp only [Program.obeys_bind, solo_resetFrameCounts, solo_installCallback]
  rw [solo_call hregister]
  simp only
  rw [solo_call hstart]

/-- An idle controller starts the stream of a request that passes its checks just when the driver is
free. -/
theorem startContinuous_solo (hs : s.reservation = .idle) (hf : Simulator.fault sim = false)
    (hstopped : (Simulator.stream sim).frameBytes = none →
      (Simulator.stream sim).producer = none) {request : ContinuousRequest Consumer}
    (hcheck : request.check {} = .ok ()) (hbytes : request.frameBytes {} = .ok bytes) :
    (startContinuous {} request : Operation Range Consumer _).Obeys (solo machine) (s, sim)
      fun r _ => r = .ok () ↔ (Simulator.stream sim).frameBytes.isSome = false := by
  obtain ⟨hmask, -, -, hcallback, hrate, -⟩ := ContinuousRequest.check_ok hcheck
  obtain ⟨hne, hwhole⟩ := ContinuousRequest.frameBytes_ok rfl hcheck hbytes
  obtain ⟨callback, hsome⟩ := Option.isSome_iff_exists.1 hcallback
  have hpattern : request.pattern {} ≠ [] := fun h =>
    toList_ne_nil hmask (List.map_eq_nil_iff.1 h)
  unfold startContinuous
  simp only [hcheck, hbytes, hsome, Program.bind_eq, Program.obeys_bind]
  refine solo_locked ?_
  rw [hs]
  simp only [Reservation.grant_idle, configureStream, Program.bind_eq, Program.obeys_bind]
  cases hdriver : (Simulator.stream sim).frameBytes with
  | none =>
    obtain ⟨sim', hcreate, hcreated⟩ :=
      perform_createContinuous hf hdriver (hstopped hdriver) hne hwhole
    rw [solo_call hcreate]
    simp only [Program.obeys_bind]
    refine (launch_created hcreated hrate hpattern callback).mono ?_
    rintro _ t rfl
    simp
  | some size =>
    obtain ⟨fault, hcreate⟩ :=
      @perform_createContinuous_taken sim bytes hf (by rw [hdriver]; rfl)
    rw [solo_call hcreate]
    simp

end

end SharedAdc.Simulator
