/-
Faults and the continuous path at a rig, where calls come from the commands of a controller and from
steps by hand. Whatever a step does to the unit comes to a list of acts, so what holds after every list of
acts holds after all steps. A fault that is pending when a call is made by hand is used up by that call.
-/
import SharedAdc.Proofs.Simulator.Setup
import SharedAdc.Proofs.Simulator.Stream

namespace SharedAdc.Simulator

open Controller

/-! ## What steps do to the unit -/

/-- There are acts that lead from one unit to the other. -/
def Reaches (sim sim' : Simulator) : Prop := ∃ acts, sim.through acts = sim'

section

variable {sim sim' sim'' : Simulator}

theorem Reaches.refl (sim : Simulator) : sim.Reaches sim := ⟨[], rfl⟩

theorem Reaches.trans (h : sim.Reaches sim') (h' : sim'.Reaches sim'') : sim.Reaches sim'' := by
  obtain ⟨acts, rfl⟩ := h
  obtain ⟨late, rfl⟩ := h'
  exact ⟨acts ++ late, sim.through_append acts late⟩

theorem reaches_act (sim : Simulator) (a : Act) : sim.Reaches (sim.act a) := ⟨[a], rfl⟩

theorem reaches_perform (sim : Simulator) (call : Call) :
    sim.Reaches (sim.perform call).2.2 := by
  rw [← make_controller]
  exact sim.reaches_act (.call ⟨call, .controller⟩)

theorem reaches_nextFrame {slot : SlotName} {frame : Frame}
    (h : sim.nextFrame = some (slot, frame, sim')) : sim.Reaches sim' := by
  have hframe : sim.act (.happen .frame) = sim' := by
    show sim.meet .frame = sim'
    simp only [meet, h]
  rw [← hframe]
  exact sim.reaches_act _

end

theorem Rig.reaches_answer (r : Rig) (q : Question Range Consumer) :
    r.sim.Reaches ((Rig.answer q).run r).2.sim := by
  cases q with
  | hardware call => exact r.sim.reaches_perform call
  | _ => exact .refl _

theorem Rig.reaches_run {α : Type} (r : Rig) (p : Operation Range Consumer α) :
    r.sim.Reaches ((p.run Rig.answer).run r).2.sim := by
  induction p generalizing r with
  | done a => exact .refl _
  | ask q next ih => exact (r.reaches_answer q).trans (ih _ _)

theorem Rig.reaches_deliverNext (r : Rig) : r.sim.Reaches (Rig.deliverNext.run r).2.sim := by
  rcases r.deliverNext_cases with hsame | ⟨slot, frame, sim, hframe, hspare | ⟨sim', hsim, hhanded⟩⟩
  · rw [hsame]
    exact .refl _
  · rw [hspare]
    exact reaches_nextFrame hframe
  · rw [hhanded]
    rcases hsim with rfl | rfl
    · exact reaches_nextFrame hframe
    · exact (reaches_nextFrame hframe).trans (sim.reaches_act (.happen .breakdown))

theorem Rig.reaches_deliverFrames (r : Rig) (n : Nat) :
    r.sim.Reaches ((Rig.deliverFrames n).run r).2.sim := by
  induction n generalizing r with
  | zero => exact .refl _
  | succ n ih => exact r.reaches_deliverNext.trans (ih _)

theorem Rig.reaches_awaitFrames (r : Rig) (n : Nat) :
    r.sim.Reaches ((Rig.awaitFrames n).run r).2.sim :=
  Rig.reaches_deliverFrames { r with feed := { r.feed with captured := #[] } } n

theorem Step.run_nextFrame (r : Rig) :
    Step.nextFrame.perform.run r = if r.isDelivering = true then
      (.frames (some ((Rig.awaitFrames 1).run r).1), ((Rig.awaitFrames 1).run r).2)
    else (.frames none, r) := by
  show StateT.run (if _ then _ else _ : StateM Rig Reply) r = _
  split <;> rfl

theorem Rig.reaches_step (r : Rig) (step : Step) : r.sim.Reaches (step.perform.run r).2.sim := by
  cases step with
  | command c => exact r.reaches_run (c.operation r.config)
  | stream c frames =>
    have hcommand : r.sim.Reaches ((Rig.command c).run r).2.sim :=
      r.reaches_run (c.operation r.config)
    show r.sim.Reaches (StateT.run (if _ then _ else _ : StateM Rig Reply)
      ((Rig.command c).run r).2).2.sim
    split
    · exact hcommand.trans (Rig.reaches_awaitFrames _ frames)
    · exact hcommand
  | nextFrame =>
    rw [Step.run_nextFrame]
    split
    · exact r.reaches_awaitFrames 1
    · exact .refl _
  | setInput channel mv => exact r.sim.reaches_act (.happen (.input channel mv))
  | injectFault => exact r.sim.reaches_act (.happen .fault)
  | inputs | look => exact .refl _
  | byHand call => exact r.sim.reaches_perform call
  | registerSpare => exact r.sim.reaches_act (.call ⟨.registerFrameSlot, .spare 0⟩)

/-- Steps one after the other do nothing to the unit but acts. -/
theorem Rig.reaches_through (r : Rig) (steps : List Step) : r.sim.Reaches (r.through steps).sim := by
  induction steps generalizing r with
  | nil => exact .refl _
  | cons step steps ih => exact (r.reaches_step step).trans (ih _)

/-- After all steps at a new rig, by its controller and by hand, the continuous path fits together; its
start never divides by zero or overflows on the time between two frames, and no producer runs out of
entries. -/
theorem Rig.path_consistent (config : Config) (settings : Settings) (steps : List Step) :
    let sim := ((Rig.new config settings).through steps).sim
    sim.stream.Consistent ∧ sim.StartsTimed ∧ sim.Feeds := by
  obtain ⟨acts, hacts⟩ := (Rig.new config settings).reaches_through steps
  have h : ((Rig.new config settings).sim.through acts).stream.Consistent :=
    consistent_through Stream.consistent_empty acts
  rw [hacts] at h
  exact ⟨h, h.startsTimed, h.feeds⟩

/-! ## A fault that is pending -/

namespace Step

/-- The step makes no call that can fail. -/
def waits : Step → Bool
  | .setInput .. | .inputs | .injectFault | .look | .nextFrame => true
  | .byHand call => call.op?.isNone
  | .command _ | .stream .. | .registerSpare => false

def isInjection : Step → Bool
  | .injectFault => true
  | _ => false

end Step

/-- The rig with a fault pending. -/
def Rig.faulted (r : Rig) : Rig := { r with sim := r.sim.injectFault }

section

variable {r : Rig} {call : Call} {fault : HardwareFault}

/-- What logs nothing on the unit changes nothing but the unit. -/
theorem Rig.run_onUnit {α : Type} (f : Simulator → α × List LogEntry × Simulator) {a : α}
    {sim : Simulator} (h : f r.sim = (a, [], sim)) :
    (Rig.onUnit f).run r = (a, { r with sim }) := by
  show ((f r.sim).1, { r with
    sim := (f r.sim).2.2
    log := r.log ++ (f r.sim).2.1.toArray }) = _
  rw [h]
  simp

theorem Step.run_byHand {reply : call.Reply} {sim : Simulator}
    (h : r.sim.perform call = (reply, [], sim)) :
    (Step.byHand call).perform.run r = (.response (call.respond reply), { r with sim }) := by
  have hmade : (Rig.hardware call).run r = (reply, { r with sim }) :=
    Rig.run_onUnit (fun sim => sim.perform call) h
  exact congrArg (fun made => (Reply.response (call.respond made.1), made.2)) hmade

theorem Step.run_registerSpare {reply : Except HardwareFault Unit} {sim : Simulator}
    (h : r.sim.registerSpare = (reply, [], sim)) :
    Step.registerSpare.perform.run r = (.response (.status reply), { r with sim }) := by
  have hmade := Rig.run_onUnit Simulator.registerSpare h
  exact congrArg (fun made => (Reply.response (.status made.1), made.2)) hmade

/-- A call by hand that reports a fault leaves the rig as it was, with no fault pending. -/
theorem Rig.byHand_of_fault
    (h : AnsweredCall.fault? ⟨call, (r.sim.perform call).1⟩ = some fault) :
    ((Step.byHand call).perform.run r).2 = { r with sim := { r.sim with fault := false } } ∧
      call.op? = some fault.op := by
  obtain ⟨hleft, hop⟩ := perform_of_fault h
  exact ⟨congrArg Prod.snd (Step.run_byHand (Prod.ext rfl hleft)), hop⟩

theorem Rig.registerSpare_of_fault (h : r.sim.registerSpare.1 = .error fault) :
    (Step.registerSpare.perform.run r).2 = { r with sim := { r.sim with fault := false } } ∧
      fault.op = .registerFrameSlot := by
  obtain ⟨hleft, hop⟩ := Simulator.registerSpare_of_fault h
  exact ⟨congrArg Prod.snd (Step.run_registerSpare (Prod.ext rfl hleft)), hop⟩

/-- A call by hand that cannot fail does nothing, whatever is pending. -/
theorem Step.byHand_of_waits (h : call.op? = none) (r : Rig) :
    (Step.byHand call).perform.run r = (.response (.status (.ok ())), r) := by
  cases call <;> cases h
  rename_i context
  have hdone : r.sim.perform (.deleteCalibration context) = ((), [], r.sim) := by
    rw [← make_controller]
    exact r.sim.make_deleteCalibration context .controller
  exact Step.run_byHand hdone

theorem Rig.deliverNext_faulted (r : Rig) :
    Rig.deliverNext.run r.faulted = ((), (Rig.deliverNext.run r).2.faulted) := by
  simp only [Rig.deliverNext, Rig.faulted, modify, modifyGet, MonadStateOf.modifyGet,
    StateT.modifyGet, StateT.run, nextFrame_injectFault]
  cases r.sim.nextFrame with
  | none => rfl
  | some made =>
    obtain ⟨slot, frame, sim⟩ := made
    cases slot with
    | spare => rfl
    | controller =>
      simp only [Option.map_some]
      cases (r.shared.slot.handOver frame r.feed).1 <;> rfl

theorem Rig.deliverFrames_faulted (r : Rig) (n : Nat) :
    (Rig.deliverFrames n).run r.faulted = ((), ((Rig.deliverFrames n).run r).2.faulted) := by
  induction n generalizing r with
  | zero => rfl
  | succ n ih =>
    show (Rig.deliverFrames n).run (Rig.deliverNext.run r.faulted).2 = _
    rw [r.deliverNext_faulted]
    exact ih _

theorem Rig.awaitFrames_faulted (r : Rig) (n : Nat) :
    (Rig.awaitFrames n).run r.faulted =
      (((Rig.awaitFrames n).run r).1, ((Rig.awaitFrames n).run r).2.faulted) := by
  have hdelivered :=
    Rig.deliverFrames_faulted { r with feed := { r.feed with captured := #[] } } n
  exact congrArg (fun made : Unit × Rig => (made.2.feed.captured.toList, made.2)) hdelivered

theorem Rig.fault_deliverNext (r : Rig) : (Rig.deliverNext.run r).2.sim.fault = r.sim.fault := by
  rcases r.deliverNext_cases with hsame | ⟨slot, frame, sim, hframe, hspare | ⟨sim', hsim, hhanded⟩⟩
  · rw [hsame]
  · obtain ⟨_, _, -, -, -, rfl⟩ := nextFrame_some hframe
    rw [hspare]
  · obtain ⟨_, _, -, -, -, rfl⟩ := nextFrame_some hframe
    rw [hhanded]
    rcases hsim with rfl | rfl <;> rfl

/-- A step that makes no call that can fail goes on while a fault is pending, and leaves it pending. -/
theorem Step.perform_faulted {step : Step} (h : step.waits = true) (r : Rig) :
    step.perform.run r.faulted =
      ((step.perform.run r).1, (step.perform.run r).2.faulted) := by
  cases step with
  | setInput | inputs | injectFault | look => rfl
  | nextFrame =>
    have hsame : r.faulted.isDelivering = r.isDelivering := rfl
    rw [run_nextFrame, run_nextFrame, hsame, Rig.awaitFrames_faulted]
    split <;> rfl
  | byHand call =>
    have hnone : call.op? = none := Option.isNone_iff_eq_none.1 h
    rw [byHand_of_waits hnone, byHand_of_waits hnone]
  | command | stream | registerSpare => cases h

/-- Of steps that make no call that can fail, only a fault that is made to happen is pending after them. -/
theorem Step.fault_perform {step : Step} (h : step.waits = true) (hother : step.isInjection = false)
    (r : Rig) : (step.perform.run r).2.sim.fault = r.sim.fault := by
  cases step with
  | setInput | inputs | look => rfl
  | injectFault => cases hother
  | nextFrame =>
    rw [run_nextFrame]
    split
    · exact Rig.fault_deliverNext { r with feed := { r.feed with captured := #[] } }
    · rfl
  | byHand call => rw [byHand_of_waits (Option.isNone_iff_eq_none.1 h)]
  | command | stream | registerSpare => cases h

/-- A pending fault waits through steps that make no call that can fail, and more faults do not add
to it. -/
theorem Rig.through_faulted (r : Rig) {waiting : List Step} (h : ∀ step ∈ waiting, step.waits = true) :
    r.faulted.through waiting = (r.through (waiting.filter fun step => !step.isInjection)).faulted ∧
      (r.through (waiting.filter fun step => !step.isInjection)).sim.fault = r.sim.fault := by
  induction waiting generalizing r with
  | nil => exact ⟨rfl, rfl⟩
  | cons step waiting ih =>
    have hwaits : step.waits = true := h step List.mem_cons_self
    have hrest : ∀ step ∈ waiting, step.waits = true := fun s hs => h s (List.mem_cons_of_mem _ hs)
    cases hinjection : step.isInjection with
    | true =>
      rw [List.filter_cons_of_neg (by simp [hinjection])]
      obtain rfl : step = .injectFault := by
        unfold Step.isInjection at hinjection
        split at hinjection
        · rfl
        · cases hinjection
      exact ih r hrest
    | false =>
      rw [List.filter_cons_of_pos (by simp [hinjection])]
      obtain ⟨hthrough, hfault⟩ := ih (step.perform.run r).2 hrest
      refine ⟨?_, hfault.trans (Step.fault_perform hwaits hinjection r)⟩
      show (step.perform.run r.faulted).2.through waiting = _
      rw [Step.perform_faulted hwaits]
      exact hthrough

/-- A fault that is made to happen at a rig meets the next call by hand that can fail. It is told as a
failure of its own operation, and the rig is as it would be without the fault and without the call. -/
theorem Rig.byHand_spends_fault {op : HardwareOp} (hop : call.op? = some op)
    (hcalm : r.sim.fault = false) {waiting : List Step} (h : ∀ step ∈ waiting, step.waits = true) :
    (Step.byHand call).perform.run (r.through (.injectFault :: waiting)) =
      (.response (call.respond (call.fail HardwareFault.failed)),
        r.through (waiting.filter fun step => !step.isInjection)) := by
  obtain ⟨hthrough, hfault⟩ := r.through_faulted h
  show (Step.byHand call).perform.run (r.faulted.through waiting) = _
  rw [hthrough]
  exact Step.run_byHand (perform_injectFault hop (hfault.trans hcalm))

theorem Rig.registerSpare_spends_fault (hcalm : r.sim.fault = false) {waiting : List Step}
    (h : ∀ step ∈ waiting, step.waits = true) :
    Step.registerSpare.perform.run (r.through (.injectFault :: waiting)) =
      (.response (.status (.error ⟨.registerFrameSlot, HardwareFault.failed⟩)),
        r.through (waiting.filter fun step => !step.isInjection)) := by
  obtain ⟨hthrough, hfault⟩ := r.through_faulted h
  show Step.registerSpare.perform.run (r.faulted.through waiting) = _
  rw [hthrough]
  exact Step.run_registerSpare (registerSpare_injectFault (hfault.trans hcalm))

end

end SharedAdc.Simulator
