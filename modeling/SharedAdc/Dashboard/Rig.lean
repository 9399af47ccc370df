/-
A dashboard on a controller with a simulated unit, worked step by step together with other
callers of the same controller.
-/
import SharedAdc.Dashboard.Screen
import SharedAdc.Simulator.Rig

namespace SharedAdc.Dashboard

open SharedAdc.Controller (Command State)

/-! ## The rig -/

/-- A dashboard on a controller with a simulated unit. -/
structure Rig where
  rig : Simulator.Rig
  dashboard : Dashboard := {}
  pane : LogPane := { filter := some .debug }

namespace Rig

/-- Runs an action of the controller's rig; what it logs goes to the pane. -/
def onRig {α : Type} (action : StateM Simulator.Rig α) : StateM Rig α :=
  modifyGet fun r =>
    let ((a, log), rig) := (do return (← action, ← Simulator.Rig.takeLog)).run r.rig
    (a, { r with rig, pane := log.foldl LogPane.record r.pane })

/-- Answers the questions of the dashboard. -/
def answer : (q : Question Range) → StateM Rig (Answer q)
  | .controller q => onRig (Simulator.Rig.answer q)
  | .input channel => return (← get).rig.sim.input channel
  | .setInput channel mv =>
    onRig <| modify fun r => { r with sim := r.sim.setInput channel mv }
  | .injectFault => onRig <| modify fun r => { r with sim := r.sim.injectFault }
  | .takeAverage channel =>
    onRig <| modifyGet fun r =>
      let (average, averages) := r.feed.averages.take channel
      (average, { r with feed := { r.feed with averages } })
  | .resetAverages => onRig <| modify fun r => { r with feed := { r.feed with averages := .empty } }
  | .say entry => onRig (Simulator.Rig.say entry)

/-- Runs an action that changes the dashboard, and reports its result. -/
def run (change : Config → Dashboard → Action Range Change) : StateM Rig (Except AdcError Unit) := do
  let r ← get
  let (result, dashboard) ← (change r.rig.config r.dashboard).run answer
  modify fun r => { r with dashboard }
  (report result).run answer
  return result

/-- Lets the stream of the dashboard begin a new average, with one frame in it. -/
def awaitFreshAverage : StateM Rig Unit := do
  if (← get).dashboard.streaming.isSome then
    answer .resetAverages
    if (← get).rig.isDelivering then onRig Simulator.Rig.deliverNext

end Rig

/-! ## Steps -/

/-- A step at the dashboard or beside it. -/
inductive Step where
  | press (key : Key)
  | tick
  | collect
  | draw (width height : Nat)
  | setInput (channel : Channel) (mv : UInt32)
  | inputs
  | injectFault
  /-- Another caller uses the controller. -/
  | command (command : Command Consumer)

/-- What a step answers. -/
inductive Reply where
  | done
  | result (result : Controller.Result)
  | inputs (mv : List UInt32)
  | screen (screen : Screen)

/-- Runs a step. -/
def Step.perform : Step → StateM Rig Reply
  | .press key => return .result (.done (← Rig.run fun config d => d.handleKey config key))
  | .tick => do
    Rig.awaitFreshAverage
    return .result (.done (← Rig.run fun config d => d.tick config))
  | .collect => do
    modify fun r => { r with pane := r.pane.collect }
    return .done
  | .draw width height => do
    let r ← get
    return .screen (r.dashboard.draw width height r.rig.shared.reservation r.rig.sim.input
      r.pane.shown)
  | .setInput channel mv => do
    Rig.answer (.setInput channel mv)
    return .done
  | .inputs => return .inputs (← get).rig.sim.inputs.toList
  | .injectFault => do
    Rig.answer .injectFault
    return .done
  | .command c => return .result (← Rig.onRig (Simulator.Rig.command c))

/-- What a step answered, and how things stood after it. -/
structure Row where
  reply : Reply
  dashboard : Dashboard
  shared : State Consumer
  live : Bool
  shownCount : Nat

/-- Runs a step and collects its row. -/
def row (step : Step) : StateM Rig Row := do
  let reply ← step.perform
  let r ← get
  return { reply
           dashboard := r.dashboard
           shared := r.rig.shared
           live := r.rig.sim.isStreaming
           shownCount := r.pane.shown.length }

/-- Works through a list of steps on a new dashboard: a row for each step, and what the pane
shows once everything is collected. -/
def work (config : Config) (settings : Simulator.Settings) (steps : List Step) :
    List Row × List LogEntry :=
  let session : StateM Rig (List Row) := do
    Rig.onRig (pure ())
    steps.mapM row
  let (rows, r) := session.run { rig := .new config settings }
  (rows, r.pane.collect.shown)

end SharedAdc.Dashboard
