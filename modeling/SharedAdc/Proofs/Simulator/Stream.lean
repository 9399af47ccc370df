/-
The stream of a simulated unit and the session of its controller, through commands that are given one
after the other with faults, frames and changes of the voltages in between. Frames are made just while
the session is a stream, from the table of the request that has started it.
-/
import Mathlib.Data.List.Induction
import SharedAdc.Proofs.Simulator.Bench
import SharedAdc.Proofs.Watch.Commands

namespace SharedAdc.Simulator

open Controller

/-! ## Steps one after the other -/

namespace Step

/-- The step calls the unit past the controller. -/
def bypasses : Step → Bool
  | .byHand _ | .registerSpare => true
  | _ => false

/-- The stream that the step asks the controller for. -/
def request? : Step → Option (ContinuousRequest Consumer)
  | .command c | .stream c _ => c.request?
  | _ => none

end Step

/-- A rig after steps that are made in turn. -/
def Rig.through (r : Rig) (steps : List Step) : Rig :=
  steps.foldl (fun r step => (step.perform.run r).2) r

theorem Rig.through_concat (r : Rig) (steps : List Step) (step : Step) :
    r.through (steps ++ [step]) = (step.perform.run (r.through steps)).2 := by
  simp [Rig.through]

/-! ## Single steps -/

/-- A stream that runs after a step was there before it, or the step has asked for it. -/
def Step.Streams (config : Config) (step : Step) (v v' : View Consumer) : Prop :=
  v'.session = .continuous →
    (v'.reservation = v.reservation ∧ v'.table = v.table) ∨
      (v.session ≠ .continuous ∧ ∃ request, step.request? = some request ∧
        v'.reservation.active = request.mask ∧ v'.table = request.pattern config)

section

variable {config : Config} {r r' : Rig} {v : View Consumer}

/-- The controller is at rest, and the unit fits its view. -/
abbrev Rig.Rests (config : Config) : Rig → View Consumer → Prop :=
  bench.Rests .steady (Rig.Fits config)

theorem Rig.Rests.command (h : r.Rests config v) (c : Command Consumer) :
    ∃ v', ((Rig.command c).run r).2.Rests config v' ∧ c.Streams config v v' := by
  have hkeeps : bench.Keeps (Pact.leader .steady) (c.operation config) v fun _ v' =>
      ∃ u, v.Steady u ∧ c.Streams config u v' := by
    rw [← Program.lift_query (c.operation config)]
    exact Setting.Keeps.operate_ends bench_wording (operation_behaves config c)
      (operation_watched (Pact.leader_free .steady) (fun _ => trivial) config c)
  obtain ⟨last, v', hrests, hsteady, u, hu, hstreams⟩ := hkeeps.alone (bench_fitting config) h
  have hrun : ((Rig.command c).run r).2 = (((c.operation config).run Rig.answer).run r).2 := by
    rw [← h.fits.config]
    rfl
  rw [hrun]
  exact ⟨v', hrests, hstreams.steady hu hsteady⟩

/-- The voltages, the log and a fault for the next call are no concern of the controller. -/
theorem Rig.Rests.of_unit (h : r.Rests config v) (hconfig : r'.config = r.config)
    (hshared : r'.shared = r.shared) (hstream : r'.sim.stream = r.sim.stream) :
    r'.Rests config v := by
  refine Setting.Rests.of_same h ⟨fun _ => ?_, ?_⟩ ⟨hconfig.trans h.fits.config, nofun, ?_⟩
  · exact congrArg (State.standing · _) hshared
  · exact congrArg State.locked hshared
  · rw [hstream]
    exact h.fits.unit.stream

theorem Rig.Rests.deliverFrames (h : r.Rests config v) (n : Nat) :
    ((Rig.deliverFrames n).run r).2.Rests config v := by
  induction n generalizing r with
  | zero => exact h
  | succ n ih => exact ih (Setting.Rests.of_same h (same_deliverNext r) h.fits.deliverNext)

theorem Rig.Rests.awaitFrames (h : r.Rests config v) (n : Nat) :
    ((Rig.awaitFrames n).run r).2.Rests config v :=
  have hcleared : Rig.Rests config { r with feed := { r.feed with captured := #[] } } v :=
    h.of_unit rfl rfl rfl
  hcleared.deliverFrames n

/-- Short of a command, a step leaves the view of the controller as it is. -/
theorem Step.streams_unchanged (step : Step) : step.Streams config v v := fun _ => .inl ⟨rfl, rfl⟩

theorem Rig.Rests.step (h : r.Rests config v) {step : Step} (hplain : step.bypasses = false) :
    ∃ v', (step.perform.run r).2.Rests config v' ∧ step.Streams config v v' := by
  cases step with
  | command c => exact h.command c
  | stream c frames =>
    obtain ⟨v', hrests, hstreams⟩ := h.command c
    refine ⟨v', ?_, hstreams⟩
    show Rig.Rests config (StateT.run (if _ then _ else _ : StateM Rig Reply)
      ((Rig.command c).run r).2).2 v'
    split
    · exact hrests.awaitFrames frames
    · exact hrests
  | nextFrame =>
    refine ⟨v, ?_, Step.streams_unchanged _⟩
    show Rig.Rests config (StateT.run (if _ then _ else _ : StateM Rig Reply) r).2 v
    split
    · exact h.awaitFrames 1
    · exact h
  | setInput | injectFault => exact ⟨v, h.of_unit rfl rfl rfl, Step.streams_unchanged _⟩
  | inputs | look => exact ⟨v, h, Step.streams_unchanged _⟩
  | byHand | registerSpare => cases hplain

end

/-! ## Runs -/

/-- The session is a stream. -/
def Rig.Streaming (r : Rig) : Prop := r.shared.reservation.session = .continuous

/-- The stream that there is after `steps` was asked for with `request` by a step that found none,
and has been there ever since. -/
def Rig.StartedBy (r : Rig) (steps : List Step) (request : ContinuousRequest Consumer) : Prop :=
  ∃ before step later, steps = before ++ step :: later ∧ step.request? = some request ∧
    ¬(r.through before).Streaming ∧
    ∀ between, between <+: later → (r.through (before ++ step :: between)).Streaming

section

variable {config : Config} {r : Rig} {steps : List Step}

theorem Rig.StartedBy.concat {request : ContinuousRequest Consumer}
    (h : r.StartedBy steps request) {step : Step} (hgoes : (r.through (steps ++ [step])).Streaming) :
    r.StartedBy (steps ++ [step]) request := by
  obtain ⟨before, first, later, rfl, hrequest, hnone, hsince⟩ := h
  refine ⟨before, first, later ++ [step], by simp, hrequest, hnone, fun between hprefix => ?_⟩
  rcases List.prefix_concat_iff.1 hprefix with rfl | hprefix
  · simpa using hgoes
  · exact hsince between hprefix

theorem Rig.StartedBy.now {request : ContinuousRequest Consumer} {step : Step}
    (hrequest : step.request? = some request) (hnone : ¬(r.through steps).Streaming)
    (hgoes : (r.through (steps ++ [step])).Streaming) : r.StartedBy (steps ++ [step]) request := by
  refine ⟨steps, step, [], rfl, hrequest, hnone, fun between hprefix => ?_⟩
  obtain rfl := List.prefix_nil.1 hprefix
  exact hgoes

theorem Rig.Rests.streaming_iff {v : View Consumer} (h : r.Rests config v) :
    r.Streaming ↔ v.session = .continuous := by
  have hres : r.shared.reservation = v.reservation := congrArg Standing.reservation h.standing
  rw [View.session, ← hres]
  rfl

/-- The controller is at rest after every step, and a stream goes through the table of the request
that it was started with. -/
theorem Rig.Rests.through (h : r.Rests config {}) (hplain : ∀ step ∈ steps, step.bypasses = false) :
    ∃ v, (r.through steps).Rests config v ∧ (v.session = .continuous → ∃ request,
      r.StartedBy steps request ∧ v.reservation.active = request.mask ∧
        v.table = request.pattern config) := by
  -- step by step, from the last one back
  induction steps using List.reverseRecOn with
  | nil => exact ⟨{}, h, nofun⟩
  | append_singleton steps step ih =>
    obtain ⟨v, hrests, hstarted⟩ := ih fun step hstep => hplain step (by simp [hstep])
    obtain ⟨v', hrests', hstreams⟩ := hrests.step (hplain step (by simp))
    rw [← Rig.through_concat] at hrests'
    refine ⟨v', hrests', fun hsession => ?_⟩
    have hgoes := hrests'.streaming_iff.2 hsession
    rcases hstreams hsession with ⟨hsame, htable⟩ | ⟨hnone, request, hrequest, hactive, htable⟩
    · have hbefore : v.session = .continuous := by
        rw [View.session, ← hsame]
        exact hsession
      obtain ⟨request, hby, hactive, hpattern⟩ := hstarted hbefore
      refine ⟨request, hby.concat hgoes, ?_, htable.trans hpattern⟩
      rw [hsame]
      exact hactive
    · refine ⟨request, .now hrequest (fun hs => hnone (hrests.streaming_iff.1 hs)) hgoes,
        hactive, htable⟩

/-- Frames are made from the table of the request that a stream was started with. -/
theorem Rig.Rests.makes {v : View Consumer} {request : ContinuousRequest Consumer}
    (h : r.Rests config v) (hsession : v.session = .continuous)
    (hactive : v.reservation.active = request.mask) (htable : v.table = request.pattern config) :
    ∃ producer, r.sim.stream.producer = some producer ∧
      producer.pattern = v.reservation.active.toList.map
        (⟨·, ⟨request.attenuation, config.width⟩⟩) ∧
      r.sim.stream.pattern = producer.pattern := by
  have hchannels := toList_ne_nil (h.sound.eq_continuous hsession).1
  have hne : v.table ≠ [] := by
    rw [htable, ContinuousRequest.pattern, ← hactive]
    simpa using hchannels
  obtain ⟨-, hgoes⟩ := h.fits.unit.at_rest h.sound
  obtain ⟨hpattern, producer, hproducer, hmade⟩ := hgoes hsession hne
  refine ⟨producer, hproducer, ?_, hpattern.trans hmade.symm⟩
  rw [hmade, htable, hactive]
  rfl

/-- After any commands one after the other, with faults at any points in between, the unit makes
frames just while the session is a stream; the table that it goes through then has one entry for each
channel of the session, with the attenuation of the request that has started it. In every other
session the continuous path is reset. -/
theorem stream_follows_session (config : Config) (settings : Settings) (steps : List Step)
    (hplain : ∀ step ∈ steps, step.bypasses = false) :
    let start := Rig.new config settings
    let r := start.through steps
    (r.sim.isStreaming = true ↔ r.shared.reservation.session = .continuous) ∧
    (r.shared.reservation.session = .continuous → ∃ request producer,
      start.StartedBy steps request ∧ r.shared.reservation.active = request.mask ∧
      r.sim.stream.producer = some producer ∧
      producer.pattern = r.shared.reservation.active.toList.map
        (⟨·, ⟨request.attenuation, config.width⟩⟩) ∧
      r.sim.stream.pattern = producer.pattern) ∧
    (r.shared.reservation.session ≠ .continuous → r.sim.stream = {}) := by
  intro start r
  have hnew : start.Rests config {} :=
    ⟨rfl, rfl, .idle, nofun, trivial, ⟨rfl, nofun, rfl⟩⟩
  obtain ⟨v, hrests, hstarted⟩ := hnew.through hplain
  have hres : r.shared.reservation = v.reservation := congrArg Standing.reservation hrests.standing
  obtain ⟨hreset, -⟩ := hrests.fits.unit.at_rest hrests.sound
  rw [hres]
  have hlive : v.session = .continuous → ∃ request producer,
      start.StartedBy steps request ∧ v.reservation.active = request.mask ∧
      r.sim.stream.producer = some producer ∧ producer.pattern = v.reservation.active.toList.map
        (⟨·, ⟨request.attenuation, config.width⟩⟩) ∧
      r.sim.stream.pattern = producer.pattern := by
    intro hsession
    obtain ⟨request, hby, hactive, htable⟩ := hstarted hsession
    obtain ⟨producer, hmakes⟩ := hrests.makes hsession hactive htable
    exact ⟨request, producer, hby, hactive, hmakes⟩
  refine ⟨⟨fun hstreaming => ?_, fun hsession => ?_⟩, hlive, hreset⟩
  · by_cases hsession : v.session = .continuous
    · exact hsession
    · have hstream : r.sim.stream = {} := hreset hsession
      rw [Simulator.isStreaming, hstream] at hstreaming
      cases hstreaming
  · obtain ⟨request, producer, -, -, hproducer, -⟩ := hlive hsession
    rw [Simulator.isStreaming, hproducer]
    rfl

/-- A fault meets the first attempt at a stream, which is then started; another one meets its end. -/
def interruptedStream : List Step :=
  let request : ContinuousRequest Consumer := ⟨.ofList [2, 7], .db6, 16, 1000, some .quiet⟩
  [.injectFault, .command (.startContinuous request), .stream (.startContinuous request) 2,
    .injectFault, .command (.stopContinuous (.ofList [2, 7]))]

/-- Both faults leave nothing behind: in between frames are made, and in the end nothing is set up. -/
theorem stream_follows_interrupted :
    let start := Rig.new {} {}
    (start.through (interruptedStream.take 3)).sim.isStreaming = true ∧
      (start.through interruptedStream).sim.stream = {} := by
  obtain ⟨⟨-, hruns⟩, -, -⟩ :=
    stream_follows_session {} {} (interruptedStream.take 3) (by decide)
  obtain ⟨-, -, hreset⟩ := stream_follows_session {} {} interruptedStream (by decide)
  exact ⟨hruns (by decide +kernel), hreset (by decide +kernel)⟩

end

end SharedAdc.Simulator
