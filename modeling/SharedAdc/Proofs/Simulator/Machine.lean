/-
The simulated unit as a machine behind the calls of many callers, and what connects it with the
controller in front of it: a path of the unit is taken while the calls so far have left it open,
and for good once closing it has failed.
-/
import SharedAdc.Proofs.Callers.Exclusion
import SharedAdc.Proofs.Simulator.Calls
import SharedAdc.Simulator.Rig

namespace SharedAdc

namespace Simulator

open Controller

/-! ## The machine -/

/-- What happens to a simulated unit besides calls. -/
inductive Happening where
  /-- The next call is made to fail. -/
  | fault
  | input (channel : Channel) (mv : UInt32)
  /-- A running stream makes a frame. -/
  | frame
  /-- A callback breaks the producer of frames. -/
  | breakdown

/-- The unit after a happening. -/
def meet (sim : Simulator) : Happening → Simulator
  | .fault => sim.injectFault
  | .input channel mv => sim.setInput channel mv
  | .frame =>
    match sim.nextFrame with
    | none => sim
    | some (_, _, sim) => sim
  | .breakdown => sim.breakProducer

/-- A simulated unit. -/
def machine : Machine Range where
  Memory := Simulator
  Event := Happening
  perform sim call := ((sim.perform call).1, (sim.perform call).2.2)
  happen := meet

/-- What a rig has in common with a world. -/
def Rig.core (r : Rig) : State Consumer × machine.Memory := (r.shared, r.sim)

/-- An operation on a rig goes as it does on the machine; only the log is the rig's own. -/
theorem core_run {α : Type} (p : Operation Range Consumer α) (r : Rig) :
    ((p.run Rig.answer).run r).map id Rig.core = (p.run (World.respond machine)).run r.core :=
  p.run_view Rig.core (fun q r => by cases q <;> rfl) r

/-! ## Paths that are lost -/

/-- A path is taken while it is open, or for good once it is lost; what is lost is not opened. -/
structure Accounted (taken isOpen lost : Bool) : Prop where
  taken : taken = (isOpen || lost)
  once : (isOpen && lost) = false

/-- What a controller has left open on a unit, and what it has given up without closing it, is what
is taken there. -/
structure Coupled (sim : Simulator) (p : Paths) (unitLost driverLost : Bool) : Prop where
  unit : Accounted sim.oneShot.isSome p.unit unitLost
  driver : Accounted sim.stream.frameBytes.isSome p.driver.isSome driverLost
  /-- Frames are made only on a driver that was created. -/
  producer : sim.stream.frameBytes = none → sim.stream.producer = none

/-- The call gives up the unit without deleting it. -/
def losesUnit : (call : Call) → call.Reply → Bool
  | .deleteOneShotUnit, .error _ => true
  | _, _ => false

/-- The call gives up the driver without deinitializing it. -/
def losesDriver : (call : Call) → call.Reply → Bool
  | .deinitContinuous, .error _ => true
  | _, _ => false

section

variable {sim : Simulator} {p : Paths} {unitLost driverLost : Bool}

theorem Accounted.keep {taken isOpen lost : Bool} (h : Accounted taken isOpen lost) :
    Accounted taken isOpen (lost || false) := by
  rw [Bool.or_false]
  exact h

theorem Accounted.lose {taken isOpen lost : Bool} (h : Accounted taken isOpen lost)
    (hopen : isOpen = true) : Accounted taken false (lost || true) := by
  obtain ⟨rfl, -⟩ := h
  subst hopen
  exact ⟨by simp, rfl⟩

theorem Accounted.open {isOpen lost : Bool} (h : Accounted false isOpen lost) :
    Accounted true true (lost || false) := by
  obtain ⟨htaken, -⟩ := h
  cases lost
  · exact ⟨rfl, rfl⟩
  · simp at htaken

theorem Accounted.close {taken isOpen lost : Bool} (h : Accounted taken isOpen lost)
    (hopen : isOpen = true) : Accounted false false (lost || false) := by
  obtain ⟨-, honce⟩ := h
  subst hopen
  cases lost
  · exact ⟨rfl, rfl⟩
  · cases honce

theorem Coupled.fail (h : Coupled sim p unitLost driverLost) {call : Call}
    (hadmits : p.Admits call) (code : Int32) :
    Coupled { sim with fault := false } (p.after call (call.fail code))
      (unitLost || losesUnit call (call.fail code))
      (driverLost || losesDriver call (call.fail code)) := by
  obtain ⟨hunit, hdriver, hproducer⟩ := h
  cases call with
  | deleteOneShotUnit => exact ⟨hunit.lose hadmits, hdriver.keep, hproducer⟩
  | deinitContinuous => exact ⟨hunit.keep, hdriver.lose hadmits, hproducer⟩
  | _ => exact ⟨hunit.keep, hdriver.keep, hproducer⟩

/-- A call that has its effect takes what it opens, and frees what it closes. -/
theorem Coupled.does (h : Coupled sim p unitLost driverLost) {slot : SlotName} {call : Call}
    (hadmits : p.Admits call) {reply : call.Reply} {sim' : Simulator}
    (hdoes : sim.Does slot call reply sim') :
    Coupled sim' (p.after call reply) (unitLost || losesUnit call reply)
      (driverLost || losesDriver call reply) := by
  obtain ⟨hunit, hdriver, hproducer⟩ := h
  cases hdoes with
  | createUnit hfree =>
    rw [hfree] at hunit
    exact ⟨hunit.open, hdriver.keep, hproducer⟩
  | configureUnit hopen =>
    rw [hopen] at hunit
    exact ⟨hunit.keep, hdriver.keep, hproducer⟩
  | deleteUnit => exact ⟨hunit.close hadmits, hdriver.keep, hproducer⟩
  | create _ _ _ hfree =>
    rw [hfree] at hdriver
    exact ⟨hunit.keep, hdriver.open, nofun⟩
  | start _ _ hcreated =>
    -- a driver that is started is the one that was there
    refine ⟨hunit.keep, ?_, fun hnone => nomatch hcreated.symm.trans hnone⟩
    have hmap : (p.driver.map fun _ => true).isSome = p.driver.isSome := by simp
    show Accounted _ (p.driver.map fun _ => true).isSome _
    rw [hmap]
    exact hdriver.keep
  | stop => exact ⟨hunit.keep, hdriver.keep, fun _ => rfl⟩
  | deinit => exact ⟨hunit.keep, hdriver.close hadmits, fun _ => rfl⟩
  | read | configure | register | openContext | convert | closeContext =>
    exact ⟨hunit.keep, hdriver.keep, hproducer⟩

theorem Coupled.perform (h : Coupled sim p unitLost driverLost) {call : Call}
    (hadmits : p.Admits call) :
    Coupled (sim.perform call).2.2 (p.after call (sim.perform call).1)
      (unitLost || losesUnit call (sim.perform call).1)
      (driverLost || losesDriver call (sim.perform call).1) := by
  rcases sim.perform_cases call with ⟨hdoes, -⟩ | ⟨⟨code, hfail⟩, -⟩
  · exact h.does hadmits hdoes
  · rw [hfail]
    exact h.fail hadmits code

/-- A frame is made by the producer of a running stream. -/
theorem nextFrame_some {slot : SlotName} {frame : Frame} {sim' : Simulator}
    (h : sim.nextFrame = some (slot, frame, sim')) : ∃ p p', sim.stream.producer = some p ∧
      p.makeFrame sim.inputs = (frame, p') ∧ slot = p'.target ∧
      sim' = { sim with stream := { sim.stream with producer := some p' } } := by
  unfold nextFrame at h
  split at h
  · cases h
  · rename_i p hproducer
    split at h <;> cases h
    exact ⟨p, _, hproducer, rfl, rfl, rfl⟩

/-- Nothing that happens besides calls takes or frees a path. -/
theorem Coupled.meet (h : Coupled sim p unitLost driverLost) (event : Happening) :
    Coupled (sim.meet event) p unitLost driverLost := by
  obtain ⟨hunit, hdriver, hproducer⟩ := h
  cases event with
  | fault => exact ⟨hunit, hdriver, hproducer⟩
  | input channel mv => exact ⟨hunit, hdriver, hproducer⟩
  | frame =>
    show Coupled (match sim.nextFrame with | none => sim | some (_, _, sim) => sim) _ _ _
    split
    · exact ⟨hunit, hdriver, hproducer⟩
    · rename_i hframe
      obtain ⟨p, p', hmaking, -, -, rfl⟩ := nextFrame_some hframe
      refine ⟨hunit, hdriver, fun hnone => ?_⟩
      rw [hproducer hnone] at hmaking
      cases hmaking
  | breakdown =>
    refine ⟨hunit, hdriver, fun hnone => ?_⟩
    show sim.stream.producer.map _ = none
    rw [hproducer hnone]
    rfl

end

/-! ## Runs -/

/-- The unit was given up in an exchange without being deleted. -/
def unitGivenUp : Exchange Range Consumer → Bool
  | ⟨_, .hardware call, reply⟩ => losesUnit call reply
  | _ => false

/-- The driver was given up in an exchange without being deinitialized. -/
def driverGivenUp : Exchange Range Consumer → Bool
  | ⟨_, .hardware call, reply⟩ => losesDriver call reply
  | _ => false

/-- What is taken on the unit is what the history left open or gave up. -/
def CoupledTo (sim : Simulator) (history : List (Exchange Range Consumer)) : Prop :=
  sim.Coupled (.ofHistory history) (history.any unitGivenUp) (history.any driverGivenUp)

theorem CoupledTo.answered {w : World machine Consumer} (h : CoupledTo w.memory w.history)
    {i : Nat} {command : Command Consumer} {q : Question Range Consumer}
    {next : Answer q → Operation Range Consumer Result}
    (hadmits : ∀ call, q = .hardware call → (Paths.ofHistory w.history).Admits call) :
    CoupledTo (w.answered i command q next).memory (w.answered i command q next).history := by
  unfold CoupledTo
  simp only [World.answered, Paths.ofHistory_concat, List.any_append, List.any_cons, List.any_nil,
    Bool.or_false]
  cases q with
  | hardware call => exact Coupled.perform h (hadmits call rfl)
  | _ =>
    simp only [unitGivenUp, driverGivenUp, Bool.or_false]
    exact h

theorem CoupledTo.step {w : World machine Consumer} (hkept : w.Kept)
    (h : CoupledTo w.memory w.history) (config : Config) (act : Action machine Consumer) :
    CoupledTo (w.step config act).memory (w.step config act).history := by
  cases act with
  | call command => exact h
  | deliver => exact h
  | happen event => exact Coupled.meet h event
  | advance i =>
    -- the call was in order, since the history is legal with it
    have hlegal := (hkept.step config (.advance i)).legal
    rcases w.advance_cases i with hsame | ⟨command, q, next, hi, hq, hanswered⟩
    · show CoupledTo (w.advance i).memory (w.advance i).history
      rw [hsame]
      exact h
    · show CoupledTo (w.advance i).memory (w.advance i).history
      have hhistory : (w.step config (.advance i)).history =
          w.history ++ ⟨i, q, (w.answer q).1⟩ :: [] := congrArg World.history hanswered
      rw [hanswered]
      exact h.answered fun call hcall => hlegal hhistory hcall

/-- A controller on a new unit. -/
def started (settings : Settings) : World machine Consumer :=
  { memory := Simulator.ofSettings settings }

theorem coupledTo_run (settings : Settings) (config : Config)
    (actions : List (Action machine Consumer)) :
    CoupledTo ((started settings).run config actions).memory
      ((started settings).run config actions).history := by
  have hnew : CoupledTo (started settings).memory (started settings).history :=
    ⟨⟨rfl, rfl⟩, ⟨rfl, rfl⟩, fun _ => rfl⟩
  have hboth := World.run_induction
    (P := fun w : World machine Consumer => w.Kept ∧ CoupledTo w.memory w.history)
    config ⟨World.kept_new _, hnew⟩
    (fun w act h => ⟨h.1.step config act, h.2.step h.1 config act⟩) actions
  exact hboth.2

end Simulator

end SharedAdc
