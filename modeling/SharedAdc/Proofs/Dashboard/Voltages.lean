/-
The voltages at a desk. Keys set no voltage beyond the highest one, and nothing else sets any.
-/
import SharedAdc.Proofs.Dashboard.Desk
import SharedAdc.Proofs.Simulator.Machine

namespace SharedAdc.Dashboard

open SharedAdc.Controller (Crew)

/-! ## What parties see to -/

/-- The dashboard sets no voltage beyond the highest one, as long as it finds none. -/
def modest : Rules (Question Range) Answer Unit where
  allows _ q :=
    match q with
    | .setInput _ mv => mv ≤ maxInput
    | _ => True
  leads _ q a _ :=
    match q, a with
    | .input _, mv => mv ≤ maxInput
    | _, _ => True

/-- No voltage is beyond the highest one. -/
def Rig.Modest (r : Rig) : Prop := ∀ c, r.rig.sim.input c ≤ maxInput

section

variable {α : Type} (config : Config) (d : Dashboard)

theorem operate_modest (p : Controller.Operation Range Consumer α) :
    (operate p).Respects modest := by
  induction p with
  | done a => exact Program.respects_done a
  | ask q next ih =>
    have hasked : (ask (.controller q) : Action Range _).Respects modest :=
      ⟨trivial, fun _ _ _ => trivial⟩
    exact hasked.bind ih

theorem say_modest (level : LogLevel) (message : String) :
    (say level message : Action Range Unit).Respects modest :=
  ⟨trivial, fun _ _ _ => trivial⟩

theorem raiseInput_modest : (d.raiseInput : Action Range Change).Respects modest := by
  refine ⟨trivial, fun mv _ _ => ⟨?_, fun _ _ _ => trivial⟩⟩
  exact UInt32.le_iff_toNat_le.2 (by rw [UInt32.toNat_min]; exact Nat.min_le_right _ _)

theorem lowerInput_modest : (d.lowerInput : Action Range Change).Respects modest := by
  refine ⟨trivial, fun mv _ hmv => ⟨?_, fun _ _ _ => trivial⟩⟩
  have hmv : mv ≤ maxInput := hmv
  show (if mv < inputStep then 0 else mv - inputStep) ≤ maxInput
  split
  · exact UInt32.zero_le
  · rename_i hge
    exact UInt32.le_trans (UInt32.sub_le (UInt32.not_lt.1 hge)) hmv

theorem sampleSelected_modest : (d.sampleSelected config : Action Range Change).Respects modest := by
  refine (operate_modest _).bind fun result => ?_
  cases result with
  | error e => exact Program.respects_done _
  | ok raw =>
    refine (operate_modest _).bind ?_
    rintro ⟨_ | _, samples⟩
    · exact Program.respects_done _
    · exact (say_modest _ _).bind fun _ => Program.respects_done _

theorem toggleStream_modest : (d.toggleStream config : Action Range Change).Respects modest := by
  unfold toggleStream
  split
  · exact (operate_modest _).bind fun _ => Program.respects_done _
  · have hreset : (ask .resetAverages : Action Range Unit).Respects modest :=
      ⟨trivial, fun _ _ _ => trivial⟩
    refine hreset.bind fun _ => ?_
    refine (operate_modest _).bind fun result => ?_
    cases result <;> exact Program.respects_done _

theorem toggleTimeCritical_modest :
    (d.toggleTimeCritical config : Action Range Change).Respects modest := by
  unfold toggleTimeCritical
  split
  · exact (operate_modest _).bind fun _ => Program.respects_done _
  · refine (operate_modest _).bind fun result => ?_
    cases result <;> exact Program.respects_done _

theorem handleKey_modest (key : Key) :
    (d.handleKey config key : Action Range Change).Respects modest := by
  cases key with
  | left => exact lowerInput_modest d
  | right => exact raiseInput_modest d
  | escape | up | down | enter | tab => exact Program.respects_done _
  | char c control =>
    simp only [handleKey]
    split
    · exact Program.respects_done _
    · split
      · exact (say_modest _ _).bind fun _ => Program.respects_done _
      · split
        · exact lowerInput_modest d
        · exact raiseInput_modest d
        · exact raiseInput_modest d
        · exact Program.respects_done _
        · exact (say_modest _ _).bind fun _ => Program.respects_done _
        · exact sampleSelected_modest config d
        · exact toggleStream_modest config d
        · exact toggleTimeCritical_modest config d
        · have hinject : (ask .injectFault : Action Range Unit).Respects modest :=
            ⟨trivial, fun _ _ _ => trivial⟩
          exact (say_modest _ _).bind fun _ => hinject.bind fun _ => Program.respects_done _
        · exact (operate_modest _).bind fun _ => Program.respects_done _
        · exact Program.respects_done _

theorem readStream_modest (channels : List Channel) :
    (d.readStream config channels : Action Range Change).Respects modest := by
  induction channels generalizing d with
  | nil => exact Program.respects_done _
  | cons channel channels ih =>
    have htake : (ask (.takeAverage channel) : Action Range (Option UInt16)).Respects modest :=
      ⟨trivial, fun _ _ _ => trivial⟩
    refine htake.bind fun average => ?_
    cases average with
    | none => exact ih d
    | some raw =>
      refine (operate_modest _).bind ?_
      rintro ⟨_ | _, samples⟩
      · exact Program.respects_done _
      · exact ih _

theorem tick_modest : (d.tick config : Action Range Change).Respects modest := by
  refine (readStream_modest config d _).bind ?_
  rintro ⟨_ | _, d⟩
  · exact Program.respects_done _
  · show (d.readTimeCritical : Action Range Change).Respects modest
    unfold readTimeCritical
    split
    · exact Program.respects_done _
    · refine (operate_modest _).bind fun result => ?_
      cases result <;> exact Program.respects_done _

theorem report_modest (result : Except AdcError Unit) :
    (report result : Action Range Unit).Respects modest := by
  unfold report
  split
  · exact Program.respects_done _
  · split <;> exact say_modest _ _

theorem play_modest (inputs : List Input) :
    (d.play config inputs : Action Range Dashboard).Respects modest := by
  induction inputs generalizing d with
  | nil => exact Program.respects_done _
  | cons input inputs ih =>
    have hinput : (input.change config d : Action Range Change).Respects modest := by
      cases input with
      | key pressed => exact handleKey_modest config d pressed
      | tick => exact tick_modest config d
    refine hinput.bind ?_
    rintro ⟨result, d⟩
    exact (report_modest result).bind fun _ => ih d

end

/-! ## What becomes of the voltages -/

theorem inputs_perform (sim : Simulator) (call : Simulator.Call) :
    (sim.perform call).2.2.inputs = sim.inputs := by
  rcases sim.perform_cases call with ⟨hdoes, -⟩ | ⟨⟨code, hfail⟩, -⟩
  · exact hdoes.inputs_eq
  · rw [hfail]

theorem inputs_deliverNext (r : Simulator.Rig) :
    ((Simulator.Rig.deliverNext).run r).2.sim.inputs = r.sim.inputs := by
  rcases r.deliverNext_cases with hsame | ⟨slot, frame, sim, hframe, hrest⟩
  · rw [hsame]
  · have hinputs : sim.inputs = r.sim.inputs := by
      obtain ⟨-, producer, -, -, -, rfl⟩ := Simulator.nextFrame_some hframe
      rfl
    rcases hrest with hspare | ⟨sim', rfl | rfl, hhanded⟩
    · rw [hspare]
      exact hinputs
    · rw [hhanded]
      exact hinputs
    · rw [hhanded]
      exact hinputs

theorem modest_onRig {α : Type} {r : Rig} {action : StateM Simulator.Rig α}
    (h : (action.run r.rig).2.sim.inputs = r.rig.sim.inputs) (hr : r.Modest) :
    ((Rig.onRig action).run r).2.Modest := by
  intro c
  show ((action.run r.rig).2.sim.inputs).get c.index ≤ maxInput
  rw [h]
  exact hr c

/-- A question that the rules allow leaves no voltage beyond the highest one. -/
theorem modest_answer {r : Rig} (hr : r.Modest) {q : Question Range} (hq : modest.allows () q) :
    ((Rig.answer q).run r).2.Modest := by
  cases q with
  | controller q =>
    refine modest_onRig ?_ hr
    cases q with
    | hardware call => exact inputs_perform _ call
    | _ => rfl
  | input | injectFault | takeAverage | resetAverages | say => exact hr
  | setInput channel mv =>
    intro c
    have hlt := c.number_lt
    show (r.rig.sim.inputs.set channel.number mv channel.number_lt)[c.number] ≤ maxInput
    rw [Vector.getElem_set]
    split
    · exact hq
    · exact hr c

/-- Nothing that the crew does or meets raises a voltage beyond the highest one. -/
theorem modest_run {config : Config} {settings : Simulator.Settings}
    (hinput : settings.input ≤ maxInput) (inputs : List Input) (bursts : List Burst)
    (actions : List (Crew.Action desk)) :
    ((crew config settings inputs bursts).run actions).state.Modest := by
  have hask : ∀ (r : Rig) (q : Question Range), r.Modest → modest.allows () q →
      modest.leads () q ((Rig.answer q).run r).1 () ∧ ((Rig.answer q).run r).2.Modest := by
    intro r q hr hq
    refine ⟨?_, modest_answer hr hq⟩
    cases q with
    | input channel => exact hr channel
    | _ => trivial
  have hmeet : ∀ (r : Rig) event, r.Modest → (r.meet event).Modest := by
    intro r event hr
    cases event with
    | frame => exact modest_onRig (inputs_deliverNext r.rig) hr
    | fault => exact hr
  have hparties : ∀ p ∈ (crew config settings inputs bursts).parties, p.Respects modest := by
    intro p hp
    rcases List.mem_cons.1 hp with rfl | hp
    · exact (play_modest config {} inputs).bind fun d => Program.respects_done _
    · obtain ⟨b, -, rfl⟩ := List.mem_map.1 hp
      exact (operate_modest _).bind fun _ => Program.respects_done _
  refine Crew.run_respects hask hmeet (fun c => ?_) hparties actions
  have hlt := c.number_lt
  show (Vector.replicate 10 settings.input)[c.number] ≤ maxInput
  rw [Vector.getElem_replicate]
  exact hinput

end SharedAdc.Dashboard
