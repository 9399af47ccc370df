/-
A dashboard at work next to others. Its keys and ticks are played one after the other, while other
parties make bursts on the same controller, frames are delivered and faults are injected, at any
time between two questions.
-/
import SharedAdc.Dashboard.Rig
import SharedAdc.Proofs.Crew.Keeps
import SharedAdc.Proofs.Simulator.Bench

namespace SharedAdc.Dashboard

open SharedAdc.Controller (Pact Setting Crew View)

/-! ## Surroundings -/

/-- What happens at the desk besides questions. -/
inductive Happening where
  /-- The stream delivers its next frame. -/
  | frame
  | fault

/-- The rig after a happening. -/
def Rig.meet (r : Rig) : Happening → Rig
  | .frame => ((onRig Simulator.Rig.deliverNext).run r).2
  | .fault => ((answer .injectFault).run r).2

/-- The desk: the rig of a dashboard as surroundings. -/
def desk : Setting Range Consumer where
  Question := Question Range
  Answer := Answer
  State := Rig
  Event := Happening
  concern
    | .controller q => some ⟨q, id⟩
    | _ => none
  shared r := r.rig.shared
  answer := Rig.answer
  happen := Rig.meet
  answers := by
    intro r q c hq
    cases q with
    | controller q =>
      cases hq
      cases q <;> exact ⟨fun _ => rfl, rfl, fun _ => by first | rfl | trivial⟩
    | input | setInput | injectFault | takeAverage | resetAverages | say => cases hq
  beside := by
    intro r q hq
    cases q with
    | controller q => cases hq
    | input | setInput | injectFault | takeAverage | resetAverages | say =>
      exact ⟨fun _ => rfl, rfl⟩
  events := by
    intro r event
    cases event with
    | fault => exact ⟨fun _ => rfl, rfl⟩
    | frame => exact Simulator.same_deliverNext r.rig

theorem desk_wording : desk.Wording fun q => ask (.controller q) := by
  intro T rules free q mode post h
  have hput : desk.concern (.controller q) = some ⟨q, id⟩ := rfl
  exact Program.Obeys.asked hput h

/-! ## Parties -/

/-- An input of the dashboard. -/
inductive Input where
  | key (key : Key)
  | tick

/-- What an input makes of the dashboard. -/
def Input.change {κ : Type} (config : Config) (d : Dashboard) : Input → Action κ Change
  | .key pressed => d.handleKey config pressed
  | .tick => d.tick config

/-- Plays inputs in turn, and reports the result of each. -/
def play {κ : Type} (config : Config) (d : Dashboard) : List Input → Action κ Dashboard
  | [] => return d
  | input :: inputs => do
    let (result, d) ← input.change config d
    report result
    d.play config inputs

/-- A burst that somebody else makes. -/
structure Burst where
  channel : Channel
  attenuation : Attenuation
  count : UInt32

def Burst.party (config : Config) (b : Burst) : Action Range (Option Dashboard) := do
  let _ ← operate (Controller.sampleOnce config b.channel b.attenuation b.count)
  return none

/-- A new dashboard, which plays inputs on a new controller with a new unit while others make
bursts. It ends with what has become of the dashboard. -/
def crew (config : Config) (settings : Simulator.Settings) (inputs : List Input)
    (bursts : List Burst) : Crew desk (Option Dashboard) where
  state := { rig := .new config settings }
  parties := (do return some (← ({} : Dashboard).play config inputs)) ::
    bursts.map (Burst.party config)

end SharedAdc.Dashboard
