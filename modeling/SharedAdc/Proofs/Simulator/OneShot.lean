/-
One-shot conversions on the simulated unit while no fault is pending. An idle controller sets up a
channel, and completes any burst, just when the unit is free.
-/
import SharedAdc.Proofs.Simulator.Reinit

namespace SharedAdc.Simulator

open Controller

/-! ## Units set up for a channel -/

/-- The unit is set up for a channel, and no fault is pending. -/
def SetUp (sim : Simulator) (c : Channel) : Prop :=
  sim.fault = false ∧ ∃ ranges range, sim.oneShot = some ranges ∧ ranges.get c.index = some range

/-- A channel that is set up with a range is read with it. -/
theorem perform_read {sim : Simulator} {c : Channel} {range : Range} (hf : sim.fault = false)
    (hset : (sim.oneShot.bind fun ranges => ranges.get c.index) = some range) :
    sim.perform (.readOneShot c) =
      (.ok (convert (sim.input c) range (sim.generator.within sim.noise).1), [],
        { sim with generator := (sim.generator.within sim.noise).2 }) := by
  rw [perform_healthy hf]
  simp only [Simulator.carryOut, hset]

theorem SetUp.read {sim : Simulator} {c : Channel} (h : SetUp sim c) :
    ∃ raw sim', sim.perform (.readOneShot c) = (.ok raw, [], sim') ∧ SetUp sim' c := by
  obtain ⟨hf, ranges, range, hunit, hrange⟩ := h
  rw [perform_read hf (by rw [hunit]; exact hrange)]
  exact ⟨_, _, rfl, hf, ranges, range, hunit, hrange⟩

theorem perform_create {sim : Simulator} (hf : sim.fault = false) (hunit : sim.oneShot = none) :
    sim.perform .createOneShotUnit =
      (.ok (), [], { sim with oneShot := some (Vector.replicate 10 none) }) := by
  rw [perform_healthy hf]
  simp only [Simulator.carryOut, hunit]

theorem perform_create_taken {sim : Simulator} (hf : sim.fault = false)
    (hunit : sim.oneShot.isSome = true) : sim.perform .createOneShotUnit =
      (.error ⟨.createOneShotUnit, HardwareFault.invalidState⟩, [], sim) := by
  obtain ⟨ranges, hsome⟩ := Option.isSome_iff_exists.1 hunit
  rw [perform_healthy hf]
  simp only [Simulator.carryOut, hsome]

theorem perform_configure {sim : Simulator} (hf : sim.fault = false)
    (hunit : sim.oneShot.isSome = true) (c : Channel) (range : Range) :
    ∃ sim', sim.perform (.configureOneShotChannel c range) = (.ok (), [], sim') ∧ SetUp sim' c := by
  obtain ⟨ranges, hsome⟩ := Option.isSome_iff_exists.1 hunit
  rw [perform_healthy hf]
  simp only [Simulator.carryOut, hsome]
  exact ⟨_, rfl, hf, _, range, rfl, Vector.getElem_set_self c.number_lt⟩

theorem SetUp.delete {sim : Simulator} {c : Channel} (h : SetUp sim c) :
    ∃ sim', sim.perform .deleteOneShotUnit = (.ok (), [], sim') := by
  obtain ⟨hf, ranges, range, hunit, -⟩ := h
  exact ⟨_, perform_delete hf hunit⟩

/-! ## Operations -/

section

variable {s : State Consumer} {sim : machine.Memory} {c : Channel} {range : Range}

/-- A free unit is created and set up with the range that was asked for. -/
theorem configureOneShot_sets (hf : Simulator.fault sim = false)
    (hunit : Simulator.oneShot sim = none) :
    (configureOneShot c range : Operation Range Consumer _).Obeys (solo machine) (s, sim)
      fun r t => r = .ok () ∧ ∃ ranges : Vector (Option Range) 10, ranges.get c.index = some range ∧
        t = (s, { (sim : Simulator) with oneShot := some ranges }) := by
  unfold configureOneShot
  simp only [Program.bind_eq, Program.obeys_bind]
  rw [solo_call (perform_create hf hunit)]
  simp only [Program.obeys_bind]
  rw [solo_call (perform_healthy (by exact hf) _)]
  exact ⟨rfl, _, Vector.getElem_set_self c.number_lt, rfl⟩

theorem configureOneShot_free (hf : Simulator.fault sim = false)
    (hunit : Simulator.oneShot sim = none) :
    (configureOneShot c range : Operation Range Consumer _).Obeys (solo machine) (s, sim)
      fun r t => r = .ok () ∧ t.1 = s ∧ SetUp t.2 c := by
  refine (configureOneShot_sets hf hunit).mono ?_
  rintro _ _ ⟨rfl, ranges, hrange, rfl⟩
  exact ⟨rfl, rfl, hf, ranges, range, rfl, hrange⟩

theorem configureOneShot_taken (hf : Simulator.fault sim = false)
    (hunit : (Simulator.oneShot sim).isSome = true) :
    (configureOneShot c range : Operation Range Consumer _).Obeys (solo machine) (s, sim)
      fun r _ => ∃ fault, r = .error fault := by
  unfold configureOneShot
  simp only [Program.bind_eq, Program.obeys_bind]
  rw [solo_call (perform_create_taken hf hunit)]
  exact ⟨_, rfl⟩

theorem readSum_setUp (h : SetUp sim c) (n : Nat) (sum : UInt64) :
    (readSum c n sum : Operation Range Consumer _).Obeys (solo machine) (s, sim)
      fun r t => (∃ total, r = .ok total) ∧ t.1 = s ∧ SetUp t.2 c := by
  -- on the conversions to come; each leaves the unit set up
  induction n generalizing sum sim with
  | zero => exact ⟨⟨sum, rfl⟩, rfl, h⟩
  | succ n ih =>
    obtain ⟨raw, sim', hread, hready⟩ := h.read
    unfold readSum
    simp only [Program.bind_eq, Program.obeys_bind]
    rw [solo_call hread]
    exact ih hready _

theorem readAverage_setUp (h : SetUp sim c) (count : UInt32) :
    (readAverage c count : Operation Range Consumer _).Obeys (solo machine) (s, sim)
      fun r t => (∃ value, r = .ok value) ∧ t.1 = s ∧ SetUp t.2 c := by
  unfold readAverage
  simp only [Program.bind_eq, Program.obeys_bind]
  refine (readSum_setUp h _ _).mono ?_
  rintro _ t ⟨⟨total, rfl⟩, hs, hready⟩
  exact ⟨⟨_, rfl⟩, hs, hready⟩

/-- An idle controller completes a burst just when the unit is free. -/
theorem sampleOnce_solo (hs : s.reservation = .idle) (hf : Simulator.fault sim = false)
    (config : Config) (c : Channel) (attenuation : Attenuation) {count : UInt32}
    (hcount : count ≠ 0) :
    (sampleOnce config c attenuation count : Operation Range Consumer _).Obeys (solo machine)
      (s, sim) fun r _ => (∃ value, r = .ok value) ↔ (Simulator.oneShot sim).isSome = false := by
  unfold sampleOnce openBurst closeBurst
  simp only [checkCount, hcount, if_false, Program.bind_eq, Program.obeys_bind]
  refine solo_locked ?_
  rw [hs]
  simp only [Reservation.grant_idle, Program.obeys_bind]
  cases hunit : Simulator.oneShot sim with
  | none =>
    refine (configureOneShot_free hf hunit).mono ?_
    rintro _ ⟨s', sim'⟩ ⟨rfl, rfl, hready⟩
    simp only [Program.pure_eq, Program.obeys_done, Program.obeys_bind]
    refine (readAverage_setUp hready count).mono ?_
    rintro _ ⟨s', sim'⟩ ⟨⟨value, rfl⟩, rfl, hready'⟩
    refine solo_locked ?_
    obtain ⟨sim'', hdelete⟩ := hready'.delete
    simp only [ne_eq, not_true_eq_false, or_self, if_false, Program.obeys_bind]
    rw [solo_call hdelete]
    simp [Except.mapError]
  | some ranges =>
    refine (configureOneShot_taken hf (by rw [hunit]; rfl)).mono ?_
    rintro _ t ⟨fault, rfl⟩
    simp

/-- An idle controller sets up a channel just when the unit is free. -/
theorem setupTimeCritical_solo (hs : s.reservation = .idle) (hf : Simulator.fault sim = false)
    (config : Config) (c : Channel) (attenuation : Attenuation) :
    (setupTimeCritical config c attenuation : Operation Range Consumer _).Obeys (solo machine)
      (s, sim) fun r _ => r = .ok () ↔ (Simulator.oneShot sim).isSome = false := by
  unfold setupTimeCritical
  simp only [Program.bind_eq, Program.obeys_bind]
  refine solo_locked ?_
  rw [hs]
  simp only [Reservation.grant_idle, Program.obeys_bind]
  cases hunit : Simulator.oneShot sim with
  | none =>
    refine (configureOneShot_free hf hunit).mono ?_
    rintro _ ⟨s', sim'⟩ ⟨rfl, rfl, hready⟩
    simp [finishArming]
  | some ranges =>
    refine (configureOneShot_taken hf (by rw [hunit]; rfl)).mono ?_
    rintro _ t ⟨fault, rfl⟩
    simp [finishArming]

end

end SharedAdc.Simulator
