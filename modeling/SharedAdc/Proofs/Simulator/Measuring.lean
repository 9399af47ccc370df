/-
Measurements on the simulated unit, from the voltage at a channel to the voltage that is reported. A burst
and a read of the armed channel both answer with the average code of the voltage under the noise that the
generator draws, and calibrating the code succeeds.
-/
import SharedAdc.Proofs.Accounts.OneShot
import SharedAdc.Proofs.Simulator.Accuracy
import SharedAdc.Proofs.Simulator.Recovery

namespace SharedAdc.Simulator

open Controller

/-! ## Conversions -/

section

variable {s : State Consumer} {sim : machine.Memory} {c : Channel} {range : Range} {count : UInt32}

/-- The noise that the unit draws for its next conversions. -/
def nextDraws (sim : Simulator) (n : Nat) : List Int32 := (sim.generator.draws sim.noise n).1

/-- The unit after it has drawn noise for some conversions. -/
def afterDraws (sim : Simulator) (n : Nat) : Simulator :=
  { sim with generator := (sim.generator.draws sim.noise n).2 }

/-- What the unit measures next at channel `c`. -/
def nextAverage (sim : Simulator) (c : Channel) (range : Range) (count : UInt32) : Nat :=
  averageCode range (nextDraws sim count.toNat) (sim.input c)

theorem readSum_draws (hf : Simulator.fault sim = false) (hset : SetTo sim c range) (n : Nat)
    (sum : UInt64) : (readSum c n sum : Operation Range Consumer _).Obeys (solo machine) (s, sim)
      fun r t => r = .ok (sum + UInt64.ofNat
          (codesOf range (nextDraws sim n) (Simulator.input sim c)).sum) ∧
        t = (s, afterDraws sim n) := by
  -- on the conversions to come; each leaves the unit set up as it was
  induction n generalizing sum sim with
  | zero => exact ⟨congrArg Except.ok (UInt64.add_zero sum).symm, rfl⟩
  | succ n ih =>
    obtain ⟨ranges, hunit, hrange⟩ := hset
    unfold readSum
    simp only [Program.bind_eq, Program.obeys_bind]
    rw [solo_call (perform_read hf (by rw [hunit]; exact hrange))]
    refine (@ih { (sim : Simulator) with
      generator := (Simulator.generator sim |>.within (Simulator.noise sim)).2 }
      hf ⟨ranges, hunit, hrange⟩ _).mono ?_
    rintro _ t ⟨rfl, rfl⟩
    refine ⟨?_, rfl⟩
    rw [UInt64.add_assoc, ← UInt64.ofNat_uInt16ToNat, ← UInt64.ofNat_add]
    rfl

theorem length_nextDraws (sim : Simulator) (n : Nat) : (nextDraws sim n).length = n :=
  sim.generator.length_draws sim.noise n

theorem readAverage_draws (hf : Simulator.fault sim = false) (hset : SetTo sim c range)
    (count : UInt32) : (readAverage c count : Operation Range Consumer _).Obeys (solo machine)
      (s, sim) fun r t => ∃ code, r = .ok code ∧ code.toNat = nextAverage sim c range count ∧
        t = (s, afterDraws sim count.toNat) := by
  unfold readAverage
  simp only [Program.bind_eq, Program.obeys_bind]
  refine (readSum_draws hf hset _ _).mono ?_
  rintro _ t ⟨rfl, rfl⟩
  refine ⟨_, rfl, ?_, rfl⟩
  have hsum := sum_codesOf_le range (nextDraws sim count.toNat) (Simulator.input sim c)
  have hcount : count.toNat < 2 ^ 32 := count.toNat_lt
  have hlength := length_nextDraws sim count.toNat
  rw [hlength] at hsum
  have htotal : (0 + UInt64.ofNat
      (codesOf range (nextDraws sim count.toNat) (Simulator.input sim c)).sum).toNat =
        (codesOf range (nextDraws sim count.toNat) (Simulator.input sim c)).sum := by
    rw [UInt64.zero_add, UInt64.toNat_ofNat']
    exact Nat.mod_eq_of_lt (by omega)
  rw [toNat_average (by rw [htotal]; exact hsum), htotal]
  unfold nextAverage averageCode
  rw [hlength]

end

/-! ## Operations -/

section

variable {s : State Consumer} {sim : machine.Memory} {c : Channel} {range : Range}
  {config : Config} {attenuation : Attenuation} {count : UInt32}

theorem solo_armed (post : Option Channel → State Consumer × machine.Memory → Prop) :
    @Program.Obeys (Question Range Consumer) Answer _ _ (solo machine) (ask .armed) (s, sim) post ↔
      post s.armed (s, sim) :=
  Program.obeys_query_ofState ..

/-- Nothing is reserved, or just channel `c` is, by a caller that has set nothing up. -/
def IsOpenTo (held : Reservation) (c : Channel) : Prop :=
  held = .idle ∨ held = ⟨.single c, .reserved⟩

theorem IsOpenTo.grant {held : Reservation} (h : IsOpenTo held c) :
    ∃ prior, (prior = .idle ∨ prior = .reserved) ∧
      held.grant (.single c) = .ok (prior, ⟨.single c, .reserved⟩) ∧
      .before (.single c) prior = held := by
  rcases h with rfl | rfl
  · exact ⟨.idle, .inl rfl, rfl, rfl⟩
  · refine ⟨.reserved, .inr rfl, ?_, rfl⟩
    have hne : (Mask.single c).isEmpty = false := (checkMask_ok (single_proper c)).1
    simp [Reservation.grant, Reservation.isIdle, hne]

/-- A burst on a channel that is free for it completes, and leaves the unit closed. -/
theorem sampleOnce_draws (hheld : IsOpenTo s.reservation c) (hf : Simulator.fault sim = false)
    (hunit : Simulator.oneShot sim = none) (hcount : count ≠ 0) :
    (sampleOnce config c attenuation count : Operation Range Consumer _).Obeys (solo machine)
      (s, sim) fun r t => ∃ code, r = .ok code ∧
        code.toNat = nextAverage sim c ⟨attenuation, config.width⟩ count ∧
        t.1.reservation = s.reservation ∧ t.2 = afterDraws sim count.toNat := by
  obtain ⟨prior, hprior, hgrant, hbefore⟩ := hheld.grant
  unfold sampleOnce openBurst closeBurst
  simp only [checkCount, hcount, if_false, Program.bind_eq, Program.obeys_bind]
  refine solo_locked ?_
  rw [hgrant]
  -- either way the burst goes on alike, and puts back what was found
  rcases hprior with rfl | rfl
  all_goals
    simp only [Program.obeys_bind]
    refine (configureOneShot_sets hf hunit).mono ?_
    rintro _ _ ⟨rfl, ranges, hrange, rfl⟩
    simp only [Program.pure_eq, Program.obeys_done, Program.obeys_bind]
    refine (readAverage_draws (by exact hf) ⟨ranges, rfl, hrange⟩ count).mono ?_
    rintro _ _ ⟨code, rfl, hcode, rfl⟩
    refine solo_locked ?_
    simp only [ne_eq, not_true_eq_false, or_self, if_false, Program.obeys_bind]
    rw [solo_call (perform_delete (by exact hf) rfl)]
    simp only [Except.mapError, Program.obeys_done, Program.obeys_bind, solo_note]
    exact ⟨code, rfl, hcode, hbefore, by rw [← hunit]; rfl⟩

theorem sampleTimeCritical_draws (harmed : s.armed = some c) (hf : Simulator.fault sim = false)
    (hset : SetTo sim c range) (hcount : count ≠ 0) :
    (sampleTimeCritical c count : Operation Range Consumer _).Obeys (solo machine) (s, sim)
      fun r t => ∃ code, r = .ok code ∧ code.toNat = nextAverage sim c range count ∧
        t = (s, afterDraws sim count.toNat) := by
  unfold sampleTimeCritical
  simp only [checkCount, hcount, if_false, Program.bind_eq, Program.obeys_bind]
  rw [solo_armed, harmed]
  simp only [if_true, Program.obeys_bind]
  refine (readAverage_draws hf hset count).mono ?_
  rintro _ t ⟨code, rfl, hcode, rfl⟩
  exact ⟨code, rfl, hcode, rfl⟩

/-- Setting up a channel that is free for it arms it with the range that was asked for. -/
theorem setupTimeCritical_sets (hheld : IsOpenTo s.reservation c) (hf : Simulator.fault sim = false)
    (hunit : Simulator.oneShot sim = none) :
    (setupTimeCritical config c attenuation : Operation Range Consumer _).Obeys (solo machine)
      (s, sim) fun r t => r = .ok () ∧ t.1.armed = some c ∧ Simulator.fault t.2 = false ∧
        SetTo t.2 c ⟨attenuation, config.width⟩ := by
  obtain ⟨prior, hprior, hgrant, -⟩ := hheld.grant
  unfold setupTimeCritical
  simp only [Program.bind_eq, Program.obeys_bind]
  refine solo_locked ?_
  rw [hgrant]
  rcases hprior with rfl | rfl
  all_goals
    simp only [Program.obeys_bind]
    refine (configureOneShot_sets hf hunit).mono ?_
    rintro _ _ ⟨rfl, ranges, hrange, rfl⟩
    simp only [finishArming, Program.bind_eq, Program.obeys_bind]
    refine (solo_arm _ _).2 ?_
    simp only [Program.pure_eq, Program.obeys_done, Program.obeys_bind, solo_note]
    exact ⟨trivial, trivial, hf, ranges, rfl, hrange⟩

/-! ## Calibration -/

/-- Each code has its own voltage in place of it. -/
def AreVoltages (range : Range) (raws mvs : List UInt16) : Prop :=
  List.Forall₂ (fun raw mv : UInt16 => mv.toNat = range.voltageOf raw.toNat) raws mvs

theorem AreVoltages.converted {raws mvs : List UInt16} (h : AreVoltages range raws mvs) :
    converted raws (mvs.map .ok) = mvs ∧ firstFault (mvs.map .ok) = none := by
  induction h with
  | nil => exact ⟨rfl, rfl⟩
  | cons _ _ ih => exact ⟨congrArg (_ :: ·) ih.1, ih.2⟩

theorem convertEach_voltages (hf : Simulator.fault sim = false) {raws : List UInt16}
    (hraws : ∀ raw ∈ raws, raw.toNat ≤ range.maxCode) :
    (convertEach range raws : Operation Range Consumer _).Obeys (solo machine) (s, sim)
      fun r t => (∃ mvs, r = mvs.map .ok ∧ AreVoltages range raws mvs) ∧ t = (s, sim) := by
  induction raws with
  | nil => exact ⟨⟨[], rfl, .nil⟩, rfl⟩
  | cons raw raws ih =>
    obtain ⟨mv, hmv, hvoltage⟩ := exists_millivolts (hraws raw List.mem_cons_self)
    have hcall : Simulator.perform sim (.applyCalibration range raw) = (.ok mv, [], sim) := by
      rw [perform_healthy hf]
      simp only [Simulator.carryOut, hmv]
      rfl
    unfold convertEach
    simp only [Program.bind_eq, Program.obeys_bind]
    rw [solo_call hcall]
    refine (ih fun raw hraw => hraws raw (List.mem_cons_of_mem _ hraw)).mono ?_
    rintro _ _ ⟨⟨mvs, rfl, hmvs⟩, rfl⟩
    exact ⟨⟨mv :: mvs, rfl, .cons hvoltage hmvs⟩, rfl⟩

/-- Codes of the range are calibrated without a failure. -/
theorem calibrate_voltages (hf : Simulator.fault sim = false) {raws : List UInt16}
    (hne : raws ≠ [])
    (hraws : ∀ raw ∈ raws, raw.toNat ≤ Range.maxCode ⟨attenuation, config.width⟩) :
    (calibrate config c attenuation raws : Operation Range Consumer _).Obeys (solo machine)
      (s, sim) fun r t => (∃ mvs, r = (.ok (), mvs) ∧
        AreVoltages ⟨attenuation, config.width⟩ raws mvs) ∧ t = (s, sim) := by
  have hcreate : Simulator.perform sim (.createCalibration c ⟨attenuation, config.width⟩) =
      (.ok ⟨attenuation, config.width⟩, [], sim) := perform_healthy hf _
  have hdelete : Simulator.perform sim (.deleteCalibration ⟨attenuation, config.width⟩) =
      ((), [], sim) := perform_healthy hf _
  unfold calibrate convertInScope withCalibration
  rw [if_neg (by simpa using hne)]
  simp only [Program.bind_eq, Program.obeys_bind]
  rw [solo_call hcreate]
  simp only [Program.obeys_bind]
  refine (convertEach_voltages hf hraws).mono ?_
  rintro _ _ ⟨⟨mvs, rfl, hmvs⟩, rfl⟩
  rw [solo_call hdelete]
  obtain ⟨hconverted, hfault⟩ := hmvs.converted
  simp only [Program.pure_eq, Program.obeys_done, hfault, hconverted]
  exact ⟨⟨mvs, rfl, hmvs⟩, trivial⟩

end

/-! ## At a rig -/

namespace Rig

/-- The rig with another voltage at channel `c`. -/
def atInput (r : Rig) (c : Channel) (mv : UInt32) : Rig := { r with sim := r.sim.setInput c mv }

/-- A command that measures at channel `c` and cannot be refused: a burst that finds the unit closed and
the channel free for it, or a read of the channel that the unit is set up for. -/
inductive Measures (r : Rig) (c : Channel) (attenuation : Attenuation) (count : UInt32) :
    Command Consumer → Prop where
  | burst (hheld : IsOpenTo r.shared.reservation c) (hunit : r.sim.oneShot = none) :
    r.Measures c attenuation count (.sampleOnce c attenuation count)
  | armed (harmed : r.shared.armed = some c) (hset : SetTo r.sim c ⟨attenuation, r.config.width⟩) :
    r.Measures c attenuation count (.sampleTimeCritical c count)

variable {r : Rig} {c : Channel} {attenuation : Attenuation} {count : UInt32}
  {command : Command Consumer}

theorem Measures.atInput (h : r.Measures c attenuation count command) (mv : UInt32) :
    (r.atInput c mv).Measures c attenuation count command := by
  cases h with
  | burst hheld hunit => exact .burst hheld hunit
  | armed harmed hset => exact .armed harmed hset

theorem input_atInput (r : Rig) (c : Channel) (mv : UInt32) : (r.atInput c mv).sim.input c = mv :=
  Vector.getElem_set_self c.number_lt

/-- What a measurement answers, and that the unit is in order after it. -/
theorem Measures.result (h : r.Measures c attenuation count command)
    (hfault : r.sim.fault = false) (hcount : count ≠ 0) :
    ∃ code, r.result command = .value (.ok code) ∧
      code.toNat = nextAverage r.sim c ⟨attenuation, r.config.width⟩ count ∧
      (r.after command).sim.fault = false := by
  cases h with
  | burst hheld hunit =>
    obtain ⟨_, hresult, code, rfl, hcode, -, hsim⟩ :=
      command_obeys (r := r) (c := .sampleOnce c attenuation count) rfl
        (sampleOnce_draws hheld hfault hunit hcount)
    exact ⟨code, hresult, hcode, (congrArg Simulator.fault hsim).trans hfault⟩
  | armed harmed hset =>
    obtain ⟨_, hresult, code, rfl, hcode, hcore⟩ :=
      command_obeys (r := r) (c := .sampleTimeCritical c count) rfl
        (sampleTimeCritical_draws harmed hfault hset hcount)
    exact ⟨code, hresult, hcode,
      (congrArg (fun t : State Consumer × Simulator => t.2.fault) hcore).trans hfault⟩

/-- Setting up a channel that is free for it makes the channel ready to be read. -/
theorem measures_after_setup (hheld : IsOpenTo r.shared.reservation c) (hfault : r.sim.fault = false)
    (hunit : r.sim.oneShot = none) (attenuation : Attenuation) (count : UInt32) :
    let armed := r.after (.setupTimeCritical c attenuation)
    armed.sim.fault = false ∧ armed.Measures c attenuation count (.sampleTimeCritical c count) := by
  intro armed
  obtain ⟨_, -, -, harmed, hfault', hset⟩ :=
    command_obeys (r := r) (c := .setupTimeCritical c attenuation) rfl
      (setupTimeCritical_sets hheld hfault hunit)
  have hconfig : armed.config = r.config := config_run _ _
  refine ⟨hfault', .armed harmed ?_⟩
  rw [hconfig]
  exact hset

/-- A code of the range is calibrated to its voltage. -/
theorem calibrate_code {code : UInt16} (hfault : r.sim.fault = false) (c : Channel)
    (hcode : code.toNat ≤ Range.maxCode ⟨attenuation, r.config.width⟩) :
    ∃ mv, r.result (.calibrate c attenuation [code]) = .calibrated (.ok ()) [mv] ∧
      mv.toNat = Range.voltageOf ⟨attenuation, r.config.width⟩ code.toNat := by
  have hoperation : ((Command.calibrate c attenuation [code]).operation r.config :
      Operation Range Consumer Result) =
        (calibrate r.config c attenuation [code]).bind fun a => .done (.calibrated a.1 a.2) := rfl
  obtain ⟨_, hresult, ⟨mvs, rfl, hmvs⟩, -⟩ := command_obeys hoperation
    (calibrate_voltages hfault (List.cons_ne_nil _ _) (by simpa using hcode))
  cases hmvs with
  | cons hmv hnil =>
    cases hnil
    exact ⟨_, hresult, hmv⟩

end Rig

/-- A measurement that cannot be refused, while no fault is pending. There are draws of noise, one for
each conversion and none beyond the peak of the unit, such that for every voltage at the channel it
answers with the average code of the voltage under these draws, and calibrating the code answers with its
voltage. Whatever the draws are: the average is off by no more than their peak and is a code of the range,
and it follows the voltage; its own voltage is one of the range, and without noise it is short of what was
measured by at most one step of the code; and no word on the way overflows. -/
theorem measurement_accurate {r : Rig} {c : Channel} {attenuation : Attenuation} {count : UInt32}
    {command : Command Consumer} (hfault : r.sim.fault = false) (hcount : count ≠ 0)
    (hmeasures : r.Measures c attenuation count command) :
    let range : Range := ⟨attenuation, r.config.width⟩
    (∃ draws : List Int32, draws.length = count.toNat ∧
      (∀ noise ∈ draws, Generator.IsWithin r.sim.noise noise) ∧
      Accurate range r.sim.noise draws ∧
      ∀ input, NoOverflow range draws input ∧ ∃ code reported : UInt16,
        (r.atInput c input).result command = .value (.ok code) ∧
        code.toNat = averageCode range draws input ∧
        ((r.atInput c input).after command).result (.calibrate c attenuation [code]) =
          .calibrated (.ok ()) [reported] ∧
        reported.toNat = range.voltageOf (averageCode range draws input)) ∧
    ∀ (peak : UInt16) (draws : List Int32), draws ≠ [] → draws.length < 2 ^ 32 →
      (∀ noise ∈ draws, Generator.IsWithin peak noise) →
      Accurate range peak draws ∧ ∀ input, NoOverflow range draws input := by
  intro range
  have hlength := length_nextDraws r.sim count.toNat
  have hne : nextDraws r.sim count.toNat ≠ [] := by
    have hpos : count.toNat ≠ 0 := fun hzero => hcount (UInt32.toNat_inj.1 hzero)
    rw [← List.length_pos_iff, hlength]
    omega
  have hdraws : ∀ noise ∈ nextDraws r.sim count.toNat, Generator.IsWithin r.sim.noise noise :=
    fun noise => Generator.isWithin_of_mem_draws
  have haccurate : Accurate range r.sim.noise (nextDraws r.sim count.toNat) :=
    accurate_of_isWithin hne hdraws
  refine ⟨⟨_, hlength, hdraws, haccurate, fun input => ⟨?_, ?_⟩⟩,
    fun peak draws hne' hlength' hdraws' =>
      ⟨accurate_of_isWithin hne' hdraws', noOverflow_of_isWithin hne' hlength' hdraws'⟩⟩
  · exact noOverflow_of_isWithin hne (by rw [hlength]; exact count.toNat_lt) hdraws input
  · obtain ⟨code, hresult, hcode, hfault'⟩ := (hmeasures.atInput input).result hfault hcount
    have haverage : code.toNat = averageCode range (nextDraws r.sim count.toNat) input := by
      rw [hcode, nextAverage, Rig.input_atInput]
      rfl
    have hconfig : ((r.atInput c input).after command).config = r.config := Rig.config_run _ _
    have hscale : code.toNat ≤
        Range.maxCode ⟨attenuation, ((r.atInput c input).after command).config.width⟩ := by
      rw [hconfig, haverage]
      exact (haccurate.upper input).trans (Nat.min_le_left _ _)
    obtain ⟨reported, hcalibrated, hreported⟩ := Rig.calibrate_code hfault' c hscale
    rw [hconfig, haverage] at hreported
    exact ⟨code, reported, hresult, haverage, hcalibrated, hreported⟩

/-- A unit without noise, measured by bursts and through an armed channel: at the standard width the
voltage is recovered up to a millivolt. Beside it, three draws of noise of at most ten steps. -/
theorem measurement_accurate_quiet :
    let r := Rig.new {} { noise := 0 }
    let armed := r.after (.setupTimeCritical 5 .db6)
    (∀ input, ∃ code reported : UInt16,
      (r.atInput 5 input).result (.sampleOnce 5 .db6 4) = .value (.ok code) ∧
      ((r.atInput 5 input).after (.sampleOnce 5 .db6 4)).result (.calibrate 5 .db6 [code]) =
        .calibrated (.ok ()) [reported] ∧
      reported.toNat ≤ min input.toNat 1750 ∧ min input.toNat 1750 - reported.toNat ≤ 1) ∧
    (∀ input, ∃ code reported : UInt16,
      (armed.atInput 5 input).result (.sampleTimeCritical 5 4) = .value (.ok code) ∧
      ((armed.atInput 5 input).after (.sampleTimeCritical 5 4)).result (.calibrate 5 .db6 [code]) =
        .calibrated (.ok ()) [reported] ∧
      reported.toNat ≤ min input.toNat 1750 ∧ min input.toNat 1750 - reported.toNat ≤ 1) ∧
    Accurate ⟨.db6, .bits12⟩ 10 [10, -10, 3] := by
  intro r armed
  have hrecovers : ∀ {q : Rig} {command : Command Consumer}, q.sim.fault = false →
      q.sim.noise = 0 → q.config = {} → q.Measures 5 .db6 4 command →
      ∀ input, ∃ code reported : UInt16,
        (q.atInput 5 input).result command = .value (.ok code) ∧
        ((q.atInput 5 input).after command).result (.calibrate 5 .db6 [code]) =
          .calibrated (.ok ()) [reported] ∧
        reported.toNat ≤ min input.toNat 1750 ∧ min input.toNat 1750 - reported.toNat ≤ 1 := by
    intro q command hfault hquiet hconfig hmeasures input
    obtain ⟨⟨draws, -, -, haccurate, hmeasured⟩, -⟩ :=
      measurement_accurate hfault (by decide) hmeasures
    obtain ⟨-, code, reported, hresult, -, hcalibrated, hreported⟩ := hmeasured input
    obtain ⟨hle, -, hstep⟩ := haccurate.recovered hquiet input
    rw [← hreported] at hle hstep
    exact ⟨code, reported, hresult, hcalibrated, hle, hstep (by rw [hconfig]; decide)⟩
  obtain ⟨hfault, hmeasures⟩ := Rig.measures_after_setup (r := r) (c := 5) (.inl rfl) rfl rfl .db6 4
  obtain ⟨-, hany⟩ := measurement_accurate hfault (by decide) hmeasures
  have hwithin : ∀ noise ∈ ([10, -10, 3] : List Int32), Generator.IsWithin 10 noise :=
    List.forall_iff_forall_mem.1 ⟨by decide, by decide, by decide⟩
  exact ⟨hrecovers rfl rfl rfl (.burst (.inl rfl) rfl), hrecovers hfault rfl rfl hmeasures,
    (hany 10 [10, -10, 3] (by decide) (by decide) hwithin).1⟩

end SharedAdc.Simulator
