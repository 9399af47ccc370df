/-
What a call does to a simulated unit. A call fails if a fault is pending or the unit is not set up for
it, and then it changes nothing, save that no fault is pending any more. Otherwise it has the effect of
its kind, told here once for all that follows from calls.
-/
import SharedAdc.Proofs.Accounts.Basic
import SharedAdc.Simulator.Basic

namespace SharedAdc

namespace Simulator

/-! ## Requests -/

/-- A call to a simulated unit. -/
abbrev Request := SlottedCall Range

/-- Makes a call, whatever slot it hands over. -/
def make (sim : Simulator) : (r : Request) → r.call.Reply × List LogEntry × Simulator
  | ⟨.registerFrameSlot, slot⟩ => sim.register slot
  | ⟨call, _⟩ => sim.perform call

/-- Carries out a call that is not made to fail. -/
def effect (sim : Simulator) : (r : Request) → r.call.Reply × List LogEntry × Simulator
  | ⟨.registerFrameSlot, slot⟩ =>
    let (reply, sim) := sim.registerSlot slot
    (reply, [], sim)
  | ⟨call, _⟩ => sim.carryOut call

theorem make_controller (sim : Simulator) (call : Call) :
    sim.make ⟨call, .controller⟩ = sim.perform call := by
  cases call <;> rfl

theorem make_spare (sim : Simulator) :
    sim.make ⟨.registerFrameSlot, .spare 0⟩ = sim.registerSpare := rfl

theorem make_eq_attempt (sim : Simulator) (r : Request) :
    sim.make r = sim.attempt r.call fun sim => sim.effect r := by
  obtain ⟨call, slot⟩ := r
  cases call <;> rfl

/-! ## Effects -/

/-- The effect of a call that does not fail: what it needs of the unit, what it replies and what it
leaves. -/
inductive Does (sim : Simulator) (slot : SlotName) : (call : Call) → call.Reply → Simulator → Prop
  | createUnit (hfree : sim.oneShot = none) :
    Does sim slot .createOneShotUnit (.ok ())
      { sim with oneShot := some (Vector.replicate 10 none) }
  | configureUnit {ranges : Vector (Option Range) 10} (hopen : sim.oneShot = some ranges)
    (channel : Channel) (range : Range) :
    Does sim slot (.configureOneShotChannel channel range) (.ok ())
      { sim with oneShot := some (ranges.set channel.number (some range) channel.number_lt) }
  | read {channel : Channel} {range : Range}
    (hset : (sim.oneShot.bind fun ranges => ranges.get channel.index) = some range) :
    Does sim slot (.readOneShot channel)
      (.ok (convert (sim.input channel) range (sim.generator.within sim.noise).1))
      { sim with generator := (sim.generator.within sim.noise).2 }
  | deleteUnit {ranges : Vector (Option Range) 10} (hopen : sim.oneShot = some ranges) :
    Does sim slot .deleteOneShotUnit (.ok ()) { sim with oneShot := none }
  | create {buffer bytes : UInt32} (hne : bytes ≠ 0) (hroom : ¬ buffer < bytes)
    (hwhole : bytes.toNat % Record.size = 0) (hfree : sim.stream.frameBytes = none) :
    Does sim slot (.createContinuous buffer bytes) (.ok ())
      { sim with stream := { sim.stream with frameBytes := some bytes } }
  | configure {bytes rate : UInt32} {pattern : List PatternEntry} (hpattern : pattern ≠ [])
    (hrate : rate ≠ 0) (hcreated : sim.stream.frameBytes = some bytes) :
    Does sim slot (.configureContinuous rate pattern) (.ok ())
      { sim with stream := { sim.stream with rate, pattern } }
  | register {bytes : UInt32} (hcreated : sim.stream.frameBytes = some bytes) :
    Does sim slot .registerFrameSlot (.ok ())
      { sim with stream := { sim.stream with slot := some slot } }
  | start {bytes : UInt32} {target : SlotName} (own generator : Generator)
    (hcreated : sim.stream.frameBytes = some bytes) (hslot : sim.stream.slot = some target)
    (hpattern : sim.stream.pattern ≠ []) (hidle : sim.stream.producer = none) :
    Does sim slot .startContinuous (.ok ())
      { sim with
        generator
        stream := { sim.stream with
          producer := some {
            pattern := sim.stream.pattern, frameBytes := bytes, target, noise := sim.noise
            generator := own } } }
  | stop {p : Producer} (hproducer : sim.stream.producer = some p) :
    Does sim slot .stopContinuous (.ok ())
      { sim with stream := { sim.stream with producer := none } }
  | deinit {bytes : UInt32} (hcreated : sim.stream.frameBytes = some bytes) :
    Does sim slot .deinitContinuous (.ok ()) { sim with stream := {} }
  | openContext (channel : Channel) (range : Range) :
    Does sim slot (.createCalibration channel range) (.ok range) sim
  | convert {range : Range} {raw mv : UInt16} (hmv : millivolts? range raw = some mv) :
    Does sim slot (.applyCalibration range raw) (.ok mv) sim
  | closeContext (range : Range) : Does sim slot (.deleteCalibration range) () sim

/-- The unit is not set up for the call. -/
def Refuses (sim : Simulator) (slot : SlotName) (call : Call) : Prop :=
  ∀ reply sim', ¬ sim.Does slot call reply sim'

section

variable {sim sim' : Simulator} {slot : SlotName} {call : Call} {reply : call.Reply}

theorem Does.fault_eq (h : sim.Does slot call reply sim') : sim'.fault = sim.fault := by
  cases h <;> rfl

theorem Does.inputs_eq (h : sim.Does slot call reply sim') : sim'.inputs = sim.inputs := by
  cases h <;> rfl

theorem Does.reply_openContext {channel : Channel} {range : Range}
    {reply : (.createCalibration channel range : Call).Reply}
    (h : sim.Does slot (.createCalibration channel range) reply sim') : reply = .ok range := by
  cases h
  rfl

theorem Does.reply_convert {range : Range} {raw : UInt16}
    {reply : (.applyCalibration range raw : Call).Reply}
    (h : sim.Does slot (.applyCalibration range raw) reply sim') :
    ∃ mv, reply = .ok mv ∧ millivolts? range raw = some mv := by
  cases h with
  | convert hmv => exact ⟨_, rfl, hmv⟩

/-- What has its effect reports no fault. -/
theorem Does.fault?_eq_none (h : sim.Does slot call reply sim') :
    AnsweredCall.fault? ⟨call, reply⟩ = none := by
  cases h <;> rfl

end

/-! ## What becomes of a call -/

/-- A stream starts just on a driver that is set up and idle, with the table and the slot that are there
by then. -/
theorem startStream_cases (sim : Simulator) :
    (∃ bytes target own generator, sim.stream.frameBytes = some bytes ∧
      sim.stream.slot = some target ∧ sim.stream.pattern ≠ [] ∧ sim.stream.producer = none ∧
      sim.startStream = (.ok (), [⟨.debug, "Frame producer started, one frame every "
          ++ Text.microseconds (sim.frameInterval bytes sim.stream.rate)⟩],
        { sim with
          generator
          stream := { sim.stream with
            producer := some {
              pattern := sim.stream.pattern, frameBytes := bytes, target, noise := sim.noise
              generator := own } } })) ∨
    ¬ (sim.stream.frameBytes.isSome = true ∧ sim.stream.slot.isSome = true ∧
        sim.stream.pattern ≠ [] ∧ sim.stream.producer = none) ∧
      sim.startStream = (.error ⟨.startContinuous, HardwareFault.invalidState⟩, [], sim) := by
  unfold startStream
  split
  · rename_i bytes rate pattern target hstream
    rw [hstream]
    split
    · rename_i hempty
      exact .inr ⟨fun ⟨_, _, hne, _⟩ => hne (List.isEmpty_iff.1 hempty), rfl⟩
    · rename_i hset
      exact .inl ⟨bytes, target, _, _, rfl, rfl, mt List.isEmpty_iff.2 hset, rfl, rfl⟩
  · rename_i hother
    refine .inr ⟨fun ⟨hbytes, hslot, _, hidle⟩ => ?_, rfl⟩
    obtain ⟨bytes, hbytes⟩ := Option.isSome_iff_exists.1 hbytes
    obtain ⟨target, hslot⟩ := Option.isSome_iff_exists.1 hslot
    exact hother bytes sim.stream.rate sim.stream.pattern target (by rw [← hbytes, ← hslot, ← hidle])

/-- A call that is carried out has its effect, or is refused. -/
theorem effect_cases (sim : Simulator) (r : Request) :
    sim.Does r.slot r.call (sim.effect r).1 (sim.effect r).2.2 ∨
      (∃ code, sim.effect r = (r.call.fail code, [], sim)) ∧ r.call.op?.isSome = true ∧
        sim.Refuses r.slot r.call := by
  obtain ⟨call, slot⟩ := r
  cases call with
  | createOneShotUnit =>
    simp only [effect, carryOut]
    split
    · rename_i htaken
      refine .inr ⟨⟨_, rfl⟩, rfl, ?_⟩
      intro _ _ h
      cases h with | createUnit hfree =>
        cases htaken.symm.trans hfree
    · exact .inl (.createUnit ‹_›)
  | configureOneShotChannel channel range =>
    simp only [effect, carryOut]
    split
    · rename_i hfree
      refine .inr ⟨⟨_, rfl⟩, rfl, ?_⟩
      intro _ _ h
      cases h with | configureUnit hopen =>
        cases hfree.symm.trans hopen
    · exact .inl (.configureUnit ‹_› channel range)
  | readOneShot channel =>
    simp only [effect, carryOut]
    split
    · rename_i hunset
      refine .inr ⟨⟨_, rfl⟩, rfl, ?_⟩
      intro _ _ h
      cases h with | read hset =>
        cases hunset.symm.trans hset
    · exact .inl (.read ‹_›)
  | deleteOneShotUnit =>
    simp only [effect, carryOut]
    split
    · rename_i hfree
      refine .inr ⟨⟨_, rfl⟩, rfl, ?_⟩
      intro _ _ h
      cases h with | deleteUnit hopen =>
        cases hfree.symm.trans hopen
    · exact .inl (.deleteUnit ‹_›)
  | createContinuous buffer bytes =>
    simp only [effect, carryOut]
    split
    · rename_i hbad
      refine .inr ⟨⟨_, rfl⟩, rfl, ?_⟩
      intro _ _ h
      cases h with | create hne hroom hwhole _ =>
        exact hbad.elim hne fun h => h.elim hroom fun hpart => hpart hwhole
    · rename_i hgood
      obtain ⟨hne, hroom, hwhole⟩ := by simpa only [not_or] using hgood
      split
      · rename_i htaken
        refine .inr ⟨⟨_, rfl⟩, rfl, ?_⟩
        intro _ _ h
        cases h with | create _ _ _ hfree =>
          cases htaken.symm.trans hfree
      · exact .inl (.create hne hroom (not_not.1 hwhole) ‹_›)
  | configureContinuous rate pattern =>
    simp only [effect, carryOut]
    split
    · rename_i hbad
      refine .inr ⟨⟨_, rfl⟩, rfl, ?_⟩
      intro _ _ h
      cases h with | configure hpattern hrate _ =>
        exact hbad.elim (fun hempty => hpattern (List.isEmpty_iff.1 hempty)) hrate
    · rename_i hgood
      obtain ⟨hpattern, hrate⟩ := not_or.1 hgood
      split
      · rename_i hfree
        refine .inr ⟨⟨_, rfl⟩, rfl, ?_⟩
        intro _ _ h
        cases h with | configure _ _ hcreated =>
          cases hfree.symm.trans hcreated
      · exact .inl (.configure (mt List.isEmpty_iff.2 hpattern) hrate ‹_›)
  | registerFrameSlot =>
    simp only [effect, registerSlot]
    split
    · rename_i hfree
      refine .inr ⟨⟨_, rfl⟩, rfl, ?_⟩
      intro _ _ h
      cases h with | register hcreated =>
        cases hfree.symm.trans hcreated
    · exact .inl (.register ‹_›)
  | startContinuous =>
    simp only [effect, carryOut]
    rcases sim.startStream_cases with
      ⟨bytes, target, own, generator, hcreated, hslot, hpattern, hidle, hstart⟩ | ⟨hunset, hstart⟩
    · rw [hstart]
      exact .inl (.start own generator hcreated hslot hpattern hidle)
    · rw [hstart]
      refine .inr ⟨⟨_, rfl⟩, rfl, ?_⟩
      intro _ _ h
      cases h with | start _ _ hcreated hslot hpattern hidle =>
        exact hunset ⟨Option.isSome_of_mem hcreated, Option.isSome_of_mem hslot, hpattern, hidle⟩
  | stopContinuous =>
    simp only [effect, carryOut]
    split
    · rename_i hidle
      refine .inr ⟨⟨_, rfl⟩, rfl, ?_⟩
      intro _ _ h
      cases h with | stop hproducer =>
        cases hidle.symm.trans hproducer
    · exact .inl (.stop ‹_›)
  | deinitContinuous =>
    simp only [effect, carryOut]
    split
    · rename_i hfree
      refine .inr ⟨⟨_, rfl⟩, rfl, ?_⟩
      intro _ _ h
      cases h with | deinit hcreated =>
        cases hfree.symm.trans hcreated
    · exact .inl (.deinit ‹_›)
  | createCalibration channel range => exact .inl (.openContext channel range)
  | applyCalibration range raw =>
    simp only [effect, carryOut]
    split
    · rename_i hnone
      refine .inr ⟨⟨_, rfl⟩, rfl, ?_⟩
      intro _ _ h
      cases h with | convert hmv =>
        cases hnone.symm.trans hmv
    · exact .inl (.convert ‹_›)
  | deleteCalibration range => exact .inl (.closeContext range)

/-- A fault that is pending meets every call that can fail; other calls are carried out. -/
theorem attempt_cases (sim : Simulator) (call : Call)
    (effect : Simulator → call.Reply × List LogEntry × Simulator) :
    (sim.fault = true ∧ call.op?.isSome = true ∧ sim.attempt call effect =
      (call.fail HardwareFault.failed, [], { sim with fault := false })) ∨
      sim.attempt call effect = effect sim ∧ (call.op?.isSome = true → sim.fault = false) := by
  unfold attempt
  split
  · rename_i h
    obtain ⟨hfault, hop⟩ := Bool.and_eq_true_iff.1 h
    exact .inl ⟨hfault, hop, rfl⟩
  · rename_i h
    refine .inr ⟨rfl, fun hop => ?_⟩
    rw [hop, Bool.and_true] at h
    simpa using h

/-- A call has its effect, with no fault pending if it can fail; or it fails and changes nothing. -/
theorem make_cases (sim : Simulator) (r : Request) :
    sim.Does r.slot r.call (sim.make r).1 (sim.make r).2.2 ∧
        (r.call.op?.isSome = true → sim.fault = false) ∨
      (∃ code, sim.make r = (r.call.fail code, [], { sim with fault := false })) ∧
        r.call.op?.isSome = true ∧ (sim.fault = true ∨ sim.Refuses r.slot r.call) := by
  rw [make_eq_attempt]
  rcases sim.attempt_cases r.call fun sim => sim.effect r with
    ⟨hfault, hop, hfail⟩ | ⟨hdone, hcalm⟩
  · exact .inr ⟨⟨_, hfail⟩, hop, .inl hfault⟩
  · rw [hdone]
    rcases sim.effect_cases r with hdoes | ⟨⟨code, hrefused⟩, hop, hrefuses⟩
    · exact .inl ⟨hdoes, hcalm⟩
    · have hsame : { sim with fault := false } = sim := by rw [← hcalm hop]
      exact .inr ⟨⟨code, by rw [hrefused, hsame]⟩, hop, .inr hrefuses⟩

theorem perform_cases (sim : Simulator) (call : Call) :
    sim.Does .controller call (sim.perform call).1 (sim.perform call).2.2 ∧
        (call.op?.isSome = true → sim.fault = false) ∨
      (∃ code, sim.perform call = (call.fail code, [], { sim with fault := false })) ∧
        call.op?.isSome = true ∧ (sim.fault = true ∨ sim.Refuses .controller call) := by
  rw [← make_controller]
  exact sim.make_cases ⟨call, .controller⟩

/-- A call leaves no fault pending where there was none. -/
theorem fault_perform {sim : Simulator} (h : sim.fault = false) (call : Call) :
    (sim.perform call).2.2.fault = false := by
  rcases sim.perform_cases call with ⟨hdoes, -⟩ | ⟨⟨code, hfail⟩, -⟩
  · exact hdoes.fault_eq.trans h
  · rw [hfail]

end Simulator

end SharedAdc
