/-
What a fault that is made to happen does to a simulated unit, over every sequence of calls and happenings.
The fault waits for the next call that can fail, and that call uses it up before anything else is looked
at; nothing else on the unit depends on it. So a run with such a fault goes as the run without the fault and
without the call that it has met.
-/
import SharedAdc.Proofs.Simulator.Machine

namespace SharedAdc

namespace Simulator

/-! ## Calls -/

/-- The end of a calibration context cannot fail, whatever is pending. -/
theorem make_deleteCalibration (sim : Simulator) (context : Range) (slot : SlotName) :
    sim.make ⟨.deleteCalibration context, slot⟩ = ((), [], sim) := by
  rw [make_eq_attempt]
  unfold attempt
  rw [HardwareCall.op?, Option.isSome_none, Bool.and_false, if_neg Bool.false_ne_true]
  rfl

/-- The fault that the reply to a call reports. -/
def fault? (sim : Simulator) (r : Request) : Option HardwareFault :=
  AnsweredCall.fault? ⟨r.call, (sim.make r).1⟩

section

variable {sim : Simulator} {r : Request} {fault : HardwareFault}

/-- A call that reports a fault names its own operation and leaves the unit as it was, with no fault
pending. -/
theorem make_of_fault (h : sim.fault? r = some fault) :
    (sim.make r).2 = ([], { sim with fault := false }) ∧ r.call.op? = some fault.op := by
  unfold fault? at h
  rcases sim.make_cases r with ⟨hdoes, -⟩ | ⟨⟨code, hfail⟩, -⟩
  · rw [hdoes.fault?_eq_none] at h
    cases h
  · rw [hfail] at h ⊢
    rw [AnsweredCall.fault?_fail] at h
    obtain ⟨op, hop, rfl⟩ := Option.map_eq_some_iff.1 h
    exact ⟨rfl, hop⟩

end

theorem perform_of_fault {sim : Simulator} {call : Call} {fault : HardwareFault}
    (h : AnsweredCall.fault? ⟨call, (sim.perform call).1⟩ = some fault) :
    (sim.perform call).2 = ([], { sim with fault := false }) ∧ call.op? = some fault.op := by
  rw [← make_controller] at h ⊢
  exact make_of_fault h

theorem registerSpare_of_fault {sim : Simulator} {fault : HardwareFault}
    (h : sim.registerSpare.1 = .error fault) :
    sim.registerSpare.2 = ([], { sim with fault := false }) ∧ fault.op = .registerFrameSlot := by
  rw [← make_spare] at h ⊢
  have hfault : sim.fault? ⟨.registerFrameSlot, .spare 0⟩ = some fault := by
    rw [fault?, h]
    rfl
  obtain ⟨hleft, hop⟩ := make_of_fault hfault
  exact ⟨hleft, (Option.some.inj hop).symm⟩

/-! ## Runs -/

/-- What can be done with a unit. -/
inductive Act where
  | call (r : Request)
  | happen (event : Happening)

namespace Act

/-- A fault that is pending can meet it. -/
def canFail : Act → Bool
  | .call r => r.call.op?.isSome
  | .happen _ => false

def isInjection : Act → Bool
  | .happen .fault => true
  | _ => false

end Act

/-- What can be seen of a unit: the reply to a call and what it logs, and the frames of a stream. -/
inductive Sight where
  | call (call : AnsweredCall Range) (log : List LogEntry)
  | frame (frame : Option (SlotName × Frame))

def act (sim : Simulator) : Act → Simulator
  | .call r => (sim.make r).2.2
  | .happen event => sim.meet event

def seen (sim : Simulator) : Act → List Sight
  | .call r => [.call ⟨r.call, (sim.make r).1⟩ (sim.make r).2.1]
  | .happen .frame => [.frame (sim.nextFrame.map fun made => (made.1, made.2.1))]
  | .happen _ => []

def through (sim : Simulator) (acts : List Act) : Simulator := acts.foldl act sim

/-- What is seen in a run. -/
def sights (sim : Simulator) : List Act → List Sight
  | [] => []
  | a :: acts => sim.seen a ++ (sim.act a).sights acts

theorem through_append (sim : Simulator) (acts late : List Act) :
    sim.through (acts ++ late) = (sim.through acts).through late :=
  List.foldl_append

theorem sights_append (sim : Simulator) (acts late : List Act) :
    sim.sights (acts ++ late) = sim.sights acts ++ (sim.through acts).sights late := by
  induction acts generalizing sim with
  | nil => rfl
  | cons a acts ih =>
    show sim.seen a ++ (sim.act a).sights (acts ++ late) = _
    rw [ih, ← List.append_assoc]
    rfl

/-! ## A fault that is pending -/

section

variable {sim : Simulator} {a : Act} {r : Request}

theorem nextFrame_injectFault (sim : Simulator) : sim.injectFault.nextFrame =
    sim.nextFrame.map fun made => (made.1, made.2.1, made.2.2.injectFault) := by
  unfold nextFrame injectFault
  dsimp only
  split
  · rfl
  · split <;> rfl

theorem fault_meet {event : Happening} (h : event ≠ .fault) :
    (sim.meet event).fault = sim.fault := by
  cases event with
  | fault => exact absurd rfl h
  | frame =>
    unfold meet
    dsimp only
    split
    · rfl
    · rename_i hframe
      obtain ⟨_, _, -, -, -, rfl⟩ := nextFrame_some hframe
      rfl
  | input | breakdown => rfl

/-- What happens besides calls goes on while a fault is pending. -/
theorem act_injectFault (sim : Simulator) (hwaits : a.canFail = false) (hother : a.isInjection = false) :
    sim.injectFault.act a = (sim.act a).injectFault ∧ sim.injectFault.seen a = sim.seen a ∧
      (sim.act a).fault = sim.fault := by
  cases a with
  | call r =>
    obtain ⟨call, slot⟩ := r
    cases call <;> cases hwaits
    rename_i context
    simp only [act, seen, make_deleteCalibration, and_self]
  | happen event =>
    refine ⟨?_, ?_, fault_meet fun h => by subst h; cases hother⟩
    · cases event with
      | frame =>
        simp only [act, meet, nextFrame_injectFault]
        cases sim.nextFrame <;> rfl
      | fault | input | breakdown => rfl
    · cases event with
      | frame =>
        simp only [seen, nextFrame_injectFault, Option.map_map]
        rfl
      | fault | input | breakdown => rfl

/-- A pending fault waits through everything that cannot fail, and more faults do not add to it. -/
theorem injectFault_waits (sim : Simulator) {waiting : List Act} (h : ∀ a ∈ waiting, a.canFail = false) :
    sim.injectFault.through waiting =
        (sim.through (waiting.filter fun a => !a.isInjection)).injectFault ∧
      sim.injectFault.sights waiting = sim.sights (waiting.filter fun a => !a.isInjection) ∧
      (sim.through (waiting.filter fun a => !a.isInjection)).fault = sim.fault := by
  induction waiting generalizing sim with
  | nil => exact ⟨rfl, rfl, rfl⟩
  | cons a waiting ih =>
    have hrest : ∀ a ∈ waiting, a.canFail = false := fun a ha => h a (List.mem_cons_of_mem _ ha)
    cases hinjection : a.isInjection with
    | true =>
      rw [List.filter_cons_of_neg (by simp [hinjection])]
      obtain rfl : a = .happen .fault := by
        unfold Act.isInjection at hinjection
        split at hinjection
        · rfl
        · cases hinjection
      exact ih sim hrest
    | false =>
      rw [List.filter_cons_of_pos (by simp [hinjection])]
      obtain ⟨hact, hseen, hfault⟩ := sim.act_injectFault (h a List.mem_cons_self) hinjection
      obtain ⟨hthrough, hsights, hlater⟩ := ih (sim.act a) hrest
      refine ⟨?_, ?_, hlater.trans hfault⟩
      · show (sim.injectFault.act a).through waiting = _
        rw [hact]
        exact hthrough
      · show sim.injectFault.seen a ++ (sim.injectFault.act a).sights waiting = _
        rw [hact, hseen, hsights]
        rfl

/-- The call that a pending fault meets fails, and the unit is as it was before the fault. -/
theorem make_injectFault {op : HardwareOp} (hop : r.call.op? = some op) (hcalm : sim.fault = false) :
    sim.injectFault.make r = (r.call.fail HardwareFault.failed, [], sim) := by
  rcases sim.injectFault.attempt_cases r.call fun sim => sim.effect r with
    ⟨-, -, hfail⟩ | ⟨-, hpending⟩
  · rw [make_eq_attempt, hfail, ← hcalm]
    rfl
  · exact nomatch hpending (by rw [hop]; rfl)

theorem perform_injectFault {call : Call} {op : HardwareOp} (hop : call.op? = some op)
    (hcalm : sim.fault = false) :
    sim.injectFault.perform call = (call.fail HardwareFault.failed, [], sim) := by
  rw [← make_controller]
  exact make_injectFault hop hcalm

theorem registerSpare_injectFault (hcalm : sim.fault = false) :
    sim.injectFault.registerSpare =
      (.error ⟨.registerFrameSlot, HardwareFault.failed⟩, [], sim) := by
  rw [← make_spare]
  exact make_injectFault rfl hcalm

end

/-- A fault that is made to happen affects just one call, wherever it comes in a sequence that leaves no
other pending. Between the fault and the call `x` that it meets there may be more such faults and anything
else that cannot fail. Then `x` fails with the code -1 under its own operation; all else is seen, and the
unit comes out, as without the faults and without `x`. And whatever fault a call reports, it names the
operation of the call, and the call logs nothing and leaves the unit as it was, with no fault pending. -/
theorem fault_spent (sim : Simulator) (early waiting late : List Act) {x : Request} {op : HardwareOp}
    (hop : x.call.op? = some op) (hcalm : (sim.through early).fault = false)
    (hwaits : ∀ a ∈ waiting, a.canFail = false) :
    let kept := early ++ waiting.filter fun a => !a.isInjection
    let faulted := early ++ .happen .fault :: waiting ++ .call x :: late
    (∃ reply, AnsweredCall.fault? ⟨x.call, reply⟩ = some ⟨op, -1⟩ ∧
      sim.sights faulted =
        sim.sights kept ++ .call ⟨x.call, reply⟩ [] :: (sim.through kept).sights late) ∧
    sim.sights (kept ++ late) = sim.sights kept ++ (sim.through kept).sights late ∧
    sim.through faulted = sim.through (kept ++ late) ∧
    ∀ (unit : Simulator) (r : Request) (fault : HardwareFault), unit.fault? r = some fault →
      (unit.make r).2 = ([], { unit with fault := false }) ∧ r.call.op? = some fault.op := by
  intro kept faulted
  obtain ⟨hthrough, hsights, hfault⟩ := (sim.through early).injectFault_waits hwaits
  rw [← through_append] at hthrough hfault
  have hpending : sim.through (early ++ .happen .fault :: waiting) =
      (sim.through kept).injectFault := by
    rw [through_append]
    exact hthrough
  have hsame : sim.sights (early ++ .happen .fault :: waiting) = sim.sights kept := by
    rw [sights_append, sights_append, ← hsights]
    rfl
  have hmade : (sim.through kept).injectFault.make x =
      (x.call.fail HardwareFault.failed, [], sim.through kept) :=
    make_injectFault hop (hfault.trans hcalm)
  refine ⟨⟨x.call.fail HardwareFault.failed, ?_, ?_⟩, sights_append .., ?_,
    fun _ _ _ => make_of_fault⟩
  · rw [AnsweredCall.fault?_fail, hop]
    rfl
  · rw [sights_append, hsame, hpending]
    simp only [sights, seen, act, hmade, List.singleton_append]
  · rw [through_append, hpending, sim.through_append kept late]
    show ((sim.through kept).injectFault.make x).2.2.through late = _
    rw [hmade]

/-- Sets a channel up for reads. -/
def settingUp : List Act :=
  [.call ⟨.createOneShotUnit, .controller⟩,
    .call ⟨.configureOneShotChannel 4 ⟨.db12, .bits12⟩, .controller⟩]

/-- Two faults in a row fail one read; the next draws the noise that this one would have drawn. -/
theorem fault_spent_read :
    let sim := ofSettings {}
    let read : Request := ⟨.readOneShot 4, .controller⟩
    let faulted := settingUp ++ [.happen .fault, .happen .fault, .call read, .call read]
    sim.sights faulted = sim.sights settingUp ++
        .call ⟨.readOneShot 4, .error ⟨.readOneShot, -1⟩⟩ [] ::
          (sim.through settingUp).sights [.call read] ∧
      sim.through faulted = sim.through (settingUp ++ [.call read]) := by
  intro sim read faulted
  have hread : read.call.op? = some .readOneShot := rfl
  have hcalm : (sim.through settingUp).fault = false := rfl
  obtain ⟨⟨reply, hreply, hsights⟩, -, hthrough, -⟩ :=
    fault_spent sim settingUp [.happen .fault] [.call read] hread hcalm (by simp [Act.canFail])
  cases reply with
  | ok raw => cases hreply
  | error fault =>
    cases hreply
    exact ⟨hsights, hthrough⟩

end Simulator

end SharedAdc
