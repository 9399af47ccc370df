/-
The board: the main task and the battery monitors at work on one controller with a vendor's driver.
The driver follows any script, and completes a frame of the stream whenever it likes.
-/
import SharedAdc.Firmware.Device
import SharedAdc.Proofs.Crew.Keeps

namespace SharedAdc.Firmware

open SharedAdc.Controller (Crew Setting)
open SharedAdc.Vendor (Handle Rig)

/-! ## Surroundings -/

/-- Answers the questions of a routine. A delay is only noted: what comes to pass in it can come to
pass between any two questions. -/
def answer : (q : Question Handle) → StateM Rig (Answer q)
  | .controller q => Rig.answer q
  | .delay ms => Rig.onDriver fun d => d.mark ⟨"delay_ms", [ms]⟩
  | .takeAverage channel => modifyGet fun r =>
      let (average, averages) := r.feed.averages.take channel
      (average, { r with feed := { r.feed with averages } })
  | .resetAverages => modify fun r => { r with feed := { r.feed with averages := .empty } }
  | .say entry => Rig.say entry

/-- The device answers so, where its delays bring neither frames nor other tasks along. -/
theorem device_answer (q : Question Handle) :
    Device.answer (fun ms => Device.mark "delay_ms" [ms]) q = Device.onRig (answer q) := by
  cases q <;> rfl

/-- A frame changes nothing that the callers share but the counts of the slot. -/
theorem same_complete (r : Rig) (frame : Frame) :
    r.shared.Same ((Rig.complete frame).run r).2.shared := by
  simp only [Rig.complete, StateT.run_bind, StateT.run_get, pure_bind]
  cases r.backend.driver.registered with
  | none => exact ⟨fun _ => rfl, rfl⟩
  | some slot =>
    cases slot with
    | spare => exact ⟨fun _ => rfl, rfl⟩
    | controller => exact r.shared.same_of_callback (r.shared.slot.callback_handOver frame r.feed)

/-- The board: the rig of a vendor's driver as surroundings, in which frames are completed. -/
def board : Setting Handle Consumer where
  Question := Question Handle
  Answer := Answer
  State := Rig
  Event := Frame
  concern
    | .controller q => some ⟨q, id⟩
    | _ => none
  shared := Rig.shared
  answer := answer
  happen r frame := ((Rig.complete frame).run r).2
  answers := by
    intro r q c hq
    cases q with
    | controller q =>
      cases hq
      cases q <;> exact ⟨fun _ => rfl, rfl, fun _ => by first | rfl | trivial⟩
    | delay | takeAverage | resetAverages | say => cases hq
  beside := by
    intro r q hq
    cases q with
    | controller q => cases hq
    | delay | takeAverage | resetAverages | say => exact ⟨fun _ => rfl, rfl⟩
  events := same_complete

theorem board_wording : board.Wording fun q => ask (.controller q) := by
  intro T rules free q mode post h
  have hput : board.concern (.controller q) = some ⟨q, id⟩ := rfl
  exact Program.Obeys.asked hput h

/-! ## Parties -/

/-- The main task up to the end of a cycle: so many turns of the main loop, and the stream of one
more turn if `streamed` holds. -/
def mainTask {κ : Type} (config : Config) (turns : Nat) (streamed : Bool) : Routine κ Unit := do
  mainLoop config turns
  if streamed then
    let _ ← recovering (streamCycle config)

theorem mainLoop_add {κ : Type} (config : Config) (turns more : Nat) :
    (mainLoop config (turns + more) : Routine κ Unit) =
      (mainLoop config turns).bind fun _ => mainLoop config more := by
  induction turns with
  | zero => rw [Nat.zero_add]; rfl
  | succ turns ih =>
    rw [Nat.add_right_comm]
    simp only [mainLoop, Program.bind_eq, Program.bind_assoc, ih]

/-- The main loop goes on from there: the main task is how every longer loop begins. -/
theorem mainLoop_begins {κ : Type} (config : Config) (turns more : Nat) (streamed : Bool) :
    ∃ rest, (mainLoop config (turns + (more + 1)) : Routine κ Unit) =
      (mainTask config turns streamed).bind rest := by
  rw [mainLoop_add]
  cases streamed with
  | false =>
    refine ⟨fun _ => mainLoop config (more + 1), ?_⟩
    simp [mainTask, Program.bind_assoc]
  | true =>
    refine ⟨fun _ => (recovering (loudnessCycle config)).bind fun _ => mainLoop config more, ?_⟩
    simp [mainTask, mainLoop, Program.bind_assoc]

/-- The main task on a new controller, next to battery monitors of so many rounds each. -/
def crew (config : Config) (driver : Vendor.Driver) (turns : Nat) (streamed : Bool)
    (monitors : List Nat) : Crew board Unit where
  state := .new config driver
  parties := mainTask config turns streamed :: monitors.map (batteryMonitor config)

end SharedAdc.Firmware
