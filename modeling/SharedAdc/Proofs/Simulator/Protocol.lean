/-
The order in which the simulated unit takes calls. While no call is made to fail and the calls to the
controller are made in turn, the unit serves every call: what a call needs was set up by others before
it, and is still there.
-/
import SharedAdc.Proofs.Callers.Turns
import SharedAdc.Proofs.Simulator.Frames
import SharedAdc.Proofs.Simulator.Recovery

namespace SharedAdc.Simulator

open Controller

/-! ## Calls that are served -/

/-- The unit replies to the call without a fault, unless it is to convert a code above its range. -/
def Served : (call : Call) → call.Reply → Prop
  | .createCalibration _ range, reply => reply = .ok range
  | .applyCalibration range raw, reply => (∃ mv, reply = .ok mv) ∨ range.width.maxRaw < raw
  | call, reply => (⟨call, reply⟩ : AnsweredCall Range).fault? = none

/-- Every call of a history was served. -/
def AllServed (history : List (Exchange Range Consumer)) : Prop :=
  ∀ e ∈ history, ∀ c, e.call? = some c → Served c.call c.reply

/-- No path is given up without being closed. -/
theorem AllServed.nothing_lost {history : List (Exchange Range Consumer)} (h : AllServed history) :
    history.any unitGivenUp = false ∧ history.any driverGivenUp = false := by
  have hnone : ∀ e ∈ history, unitGivenUp e = false ∧ driverGivenUp e = false := by
    rintro ⟨i, q, answer⟩ he
    cases q with
    | hardware call =>
      have hserved := h _ he _ rfl
      cases call with
      | deleteOneShotUnit =>
        cases answer with
        | error fault => cases hserved
        | ok => exact ⟨rfl, rfl⟩
      | deinitContinuous =>
        cases answer with
        | error fault => cases hserved
        | ok => exact ⟨rfl, rfl⟩
      | _ => exact ⟨rfl, rfl⟩
    | _ => exact ⟨rfl, rfl⟩
  constructor
  · rw [List.any_eq_false]
    exact fun e he => by simp [(hnone e he).1]
  · rw [List.any_eq_false]
    exact fun e he => by simp [(hnone e he).2]

/-! ## What calls need -/

section

variable {sim : Simulator} {c : Channel} {call : Call}

theorem Stream.Serves.not_running {config : Config} {request : ContinuousRequest Consumer}
    {bytes : UInt32} {stage : Option Stage} (h : sim.stream.Serves config request bytes stage)
    (hf : sim.fault = false) (hstopped : sim.stream.producer = none) : Created sim :=
  ⟨hf, by rw [h.created]; rfl, hstopped⟩

/-- A channel stays set up until the unit is deleted. -/
theorem SetUp.perform (h : SetUp sim c) (hkept : call ≠ .deleteOneShotUnit) :
    SetUp (sim.perform call).2.2 c := by
  refine ⟨fault_perform h.1 call, ?_⟩
  obtain ⟨-, ranges, range, hunit, hrange⟩ := h
  rcases sim.perform_cases call with ⟨hdoes, -⟩ | ⟨⟨code, hfail⟩, -⟩
  · revert hdoes
    generalize (sim.perform call).1 = reply, (sim.perform call).2.2 = sim'
    intro hdoes
    cases hdoes with
    | createUnit hfree => cases hfree.symm.trans hunit
    | configureUnit hopen channel range' =>
      cases hunit.symm.trans hopen
      by_cases hc : channel = c
      · subst hc
        exact ⟨_, range', rfl, Vector.getElem_set_self channel.number_lt⟩
      · refine ⟨_, range, rfl, ?_⟩
        have hne : channel.number ≠ c.number := fun hnumber => hc (Channel.number_inj hnumber)
        exact (Vector.getElem_set_ne channel.number_lt c.number_lt hne).trans hrange
    | deleteUnit => exact absurd rfl hkept
    | _ => exact ⟨ranges, range, hunit, hrange⟩
  · rw [hfail]
    exact ⟨ranges, range, hunit, hrange⟩

/-- What happens to the unit, short of a fault, is no concern of the one-shot path. -/
theorem meet_oneShot (sim : Simulator) {event : Happening} (hspares : event ≠ .fault) :
    (sim.meet event).fault = sim.fault ∧ (sim.meet event).oneShot = sim.oneShot := by
  cases event with
  | fault => exact absurd rfl hspares
  | input | breakdown => exact ⟨rfl, rfl⟩
  | frame =>
    simp only [Simulator.meet]
    split
    · exact ⟨rfl, rfl⟩
    · rename_i hframe
      obtain ⟨p, p', -, -, -, rfl⟩ := nextFrame_some hframe
      exact ⟨rfl, rfl⟩

theorem SetUp.meet (h : SetUp sim c) {event : Happening} (hspares : event ≠ .fault) :
    SetUp (sim.meet event) c := by
  obtain ⟨hfault, hunit⟩ := sim.meet_oneShot hspares
  unfold SetUp
  rw [hfault, hunit]
  exact h

end

/-! ## What holds all the time -/

/-- What holds of a unit and its callers all the time, while the calls are made in turn and none is made
to fail. -/
structure Calm (config : Config) (w : World machine Consumer) : Prop where
  follows : w.Followed (errands config)
  holds : w.Followed tenures
  belongs : StreamBelongs config w
  coupled : CoupledTo w.memory w.history
  healthy : Simulator.fault w.memory = false
  served : AllServed w.history
  /-- The channel that the unit was set up for last can be converted. -/
  ready : ∀ u c, (Fitting.ofHistory w.history).unit = some u → u.channel = some c →
    SetUp w.memory c
  turn : w.InTurn

namespace Calm

variable {config : Config} {w : World machine Consumer}

theorem unit_taken (h : Calm config w) :
    (Simulator.oneShot w.memory).isSome = (Paths.ofHistory w.history).unit := by
  have htaken := h.coupled.unit.taken
  rwa [h.served.nothing_lost.1, Bool.or_false] at htaken

theorem driver_taken (h : Calm config w) : (Simulator.stream w.memory).frameBytes.isSome =
    (Paths.ofHistory w.history).driver.isSome := by
  have htaken := h.coupled.driver.taken
  rwa [h.served.nothing_lost.2, Bool.or_false] at htaken

/-- An open driver is that of a request. -/
theorem serves_of_stage (h : Calm config w) {stage : Stage}
    (hstage : (Driver.ofHistory w.history).stage = some stage) : ∃ request bytes,
      request.check config = .ok () ∧
        (Simulator.stream w.memory).Serves config request bytes (some stage) := by
  rcases h.belongs with hnone | ⟨i, caller, request, bytes, -, -, hasks, hserves⟩
  · have htaken := h.driver_taken
    rw [hnone, Driver.paths_driver, hstage] at htaken
    cases htaken
  · rw [hstage] at hserves
    exact ⟨request, bytes, hasks.2, hserves⟩

/-- The driver that a caller knows is the one that there is. -/
theorem stage_of_knows {i : Nat} {d : Driver} {stage : Stage}
    (h : (Errand.of i w.history).driver = some d) (hstage : d.stage = some stage) :
    (Driver.ofHistory w.history).stage = some stage := by
  rw [← Errand.eq_of_driver h, hstage]

/-- The unit serves every call that is in order, when it is next for its caller. -/
theorem serves (h : Calm config w) (hrecord : config.bytesPerSample = 4) {i : Nat}
    {command : Command Consumer} {call : Call} {next : call.Reply → Operation Range Consumer Result}
    (hi : w.callers[i]? = some ⟨command, .ask (.hardware call) next⟩)
    (hholds : (w.answered i command (.hardware call) next).Followed tenures)
    (hadmits : (Paths.ofHistory w.history).Admits call) :
    Served call (Simulator.perform w.memory call).1 := by
  have hf := h.healthy
  have hunit := h.unit_taken
  have hdriver := h.driver_taken
  obtain ⟨hmay, -⟩ := h.follows.rest hi
  cases call with
  | createOneShotUnit =>
    rw [hadmits.1] at hunit
    rw [perform_create hf (by simpa using hunit)]
    rfl
  | configureOneShotChannel channel range =>
    obtain ⟨sim, hconfigure, -⟩ := perform_configure hf (hunit.trans hadmits) channel range
    rw [hconfigure]
    rfl
  | readOneShot channel =>
    obtain ⟨u, hopen, hchannel⟩ := h.turn.converts hi hholds
    obtain ⟨raw, sim, hread, -⟩ := (h.ready u channel hopen hchannel).read
    rw [hread]
    rfl
  | deleteOneShotUnit =>
    obtain ⟨ranges, hranges⟩ := Option.isSome_iff_exists.1 (hunit.trans hadmits)
    rw [perform_delete hf hranges]
    rfl
  | createContinuous buffer frame =>
    obtain ⟨rfl, request, hasks, hsize⟩ := hmay
    obtain ⟨hne, hwhole⟩ := ContinuousRequest.frameBytes_ok hrecord hasks.2 hsize
    rw [hadmits.2] at hdriver
    have hfree : (Simulator.stream w.memory).frameBytes = none := by simpa using hdriver
    obtain ⟨sim, hcreate, -⟩ :=
      perform_createContinuous hf hfree (h.coupled.producer hfree) hne hwhole
    rw [hcreate]
    rfl
  | configureContinuous rate pattern =>
    obtain ⟨hknows, request, hasks, rfl, rfl⟩ := hmay
    obtain ⟨request', bytes, -, hserves⟩ := h.serves_of_stage (stage_of_knows hknows rfl)
    have hcreated := hserves.not_running hf hserves.ready
    obtain ⟨-, -, -, -, hrate, -⟩ := ContinuousRequest.check_ok hasks.2
    obtain ⟨sim, hconfigure, -⟩ :=
      hcreated.configure hrate (ContinuousRequest.pattern_ne_nil hasks.2)
    rw [hconfigure]
    rfl
  | registerFrameSlot =>
    obtain ⟨request, bytes, -, hserves⟩ := h.serves_of_stage (stage_of_knows hmay rfl)
    have hcreated := hserves.not_running hf hserves.ready.1
    obtain ⟨sim, hregister, -⟩ := hcreated.register
    rw [hregister]
    rfl
  | startContinuous =>
    obtain ⟨request, bytes, hcheck, hserves⟩ := h.serves_of_stage (stage_of_knows hmay rfl)
    obtain ⟨hstopped, hpattern, hslot⟩ := hserves.ready
    have hcreated := hserves.not_running hf hstopped
    have hne : (Simulator.stream w.memory).pattern ≠ [] := by
      rw [hpattern]
      exact ContinuousRequest.pattern_ne_nil hcheck
    obtain ⟨log, sim, hstart⟩ := hcreated.start hne hslot
    rw [hstart]
    rfl
  | stopContinuous =>
    -- a driver that was started and not stopped since has a producer
    obtain ⟨d, hknows, hrunning⟩ := hmay
    obtain rfl := Errand.eq_of_driver hknows
    have hstarted : (Driver.ofHistory w.history).stage = some .started := by
      have hopen : (Paths.ofHistory w.history).driver = some true := hadmits
      rw [Driver.paths_driver] at hopen
      obtain ⟨stage, hstage, hstarted⟩ := Option.map_eq_some_iff.1 hopen
      cases stage with
      | started => exact hstage
      | stopped => exact absurd hstage hrunning
      | _ => cases hstarted
    obtain ⟨request, bytes, -, hserves⟩ := h.serves_of_stage hstarted
    obtain ⟨p, hp⟩ := Option.isSome_iff_exists.1 hserves.ready
    rw [perform_healthy hf]
    simp only [Simulator.carryOut, hp]
    rfl
  | deinitContinuous =>
    obtain ⟨bytes, hbytes⟩ := Option.isSome_iff_exists.1 (hdriver.trans hadmits)
    rw [perform_deinit hf hbytes]
    rfl
  | createCalibration channel range =>
    rw [perform_healthy hf]
    rfl
  | applyCalibration range raw =>
    rw [perform_healthy hf]
    show (∃ mv, _ = _) ∨ _
    by_cases hraw : raw ≤ range.width.maxRaw
    · left
      simp only [Simulator.carryOut, millivolts?, if_pos hraw]
      exact ⟨_, rfl⟩
    · exact .inr (UInt16.not_le.1 hraw)
  | deleteCalibration range => rfl

/-- The channel that a unit was set up for last stays ready. -/
theorem ready_after (h : Calm config w) {i : Nat} {call : Call}
    (hadmits : (Paths.ofHistory w.history).Admits call) (u : OpenUnit) (c : Channel)
    (hu : ((Fitting.ofHistory w.history).after i (.hardware call : Question Range Consumer)
      (Simulator.perform w.memory call).1).unit = some u) (hc : u.channel = some c) :
    SetUp (Simulator.perform w.memory call).2.2 c := by
  rcases Fitting.unit_cases (Fitting.ofHistory w.history) i
      (.hardware call : Question Range Consumer) (Simulator.perform w.memory call).1 with
    ⟨-, hsame⟩ | ⟨-, -, hcreated⟩ | ⟨channel, range, hq, -, hset⟩ | ⟨-, -, hdeleted⟩
  · have hkept : call ≠ .deleteOneShotUnit := by
      rintro rfl
      cases hu
    exact (h.ready u c (hsame.symm.trans hu) hc).perform hkept
  · cases hcreated.symm.trans hu
    cases hc
  · obtain ⟨v, -, rfl⟩ := Option.map_eq_some_iff.1 (hset.symm.trans hu)
    cases hq
    obtain rfl : channel = c := Option.some.inj hc
    obtain ⟨sim, hconfigure, hready⟩ :=
      perform_configure h.healthy (h.unit_taken.trans hadmits) channel range
    rw [hconfigure]
    exact hready
  · cases hdeleted.symm.trans hu

theorem answered (h : Calm config w) (hrecord : config.bytesPerSample = 4) {i : Nat}
    {command : Command Consumer} {q : Question Range Consumer}
    {next : Answer q → Operation Range Consumer Result}
    (hi : w.callers[i]? = some ⟨command, .ask q next⟩) (hq : q.waits w.shared = false)
    (hturn : w.inTurn (.advance i) = true) : Calm config (w.answered i command q next) := by
  have hholds := h.holds.answered (tenures_fits config) hi hq
  have hadmits : ∀ call, q = .hardware call → (Paths.ofHistory w.history).Admits call :=
    fun call hcall => (hholds.kept.legal rfl hcall : (Paths.ofHistory w.history).Admits call)
  refine ⟨h.follows.answered (errands_fits config) hi hq, hholds, h.belongs.answered h.follows hi,
    h.coupled.answered hadmits, ?_, ?_, ?_, h.turn.answered hi hturn⟩
  · cases q with
    | hardware call => exact fault_perform h.healthy call
    | _ => exact h.healthy
  · intro e he c hc
    rcases List.mem_append.1 he with hbefore | hnow
    · exact h.served e hbefore c hc
    · obtain rfl := List.mem_singleton.1 hnow
      cases q with
      | hardware call =>
        cases hc
        exact h.serves hrecord hi hholds (hadmits call rfl)
      | _ => cases hc
  · intro u c hu hc
    simp only [World.answered, Fitting.ofHistory_concat] at hu
    cases q with
    | hardware call => exact h.ready_after (hadmits call rfl) u c hu hc
    | _ => exact h.ready u c hu hc

end Calm

/-! ## Runs in turn -/

/-- Whether the next call can be carried out after an action as before it. -/
def sparesCalls : Action machine Consumer → Bool
  | .happen .fault => false
  | _ => true

section

variable {config : Config} {w : World machine Consumer}

theorem Calm.happen (h : Calm config w) (hrecord : config.bytesPerSample = 4) {event : Happening}
    (hspares : event ≠ .fault) : Calm config (w.step config (.happen event)) where
  follows := h.follows.step (errands_fits config) _
  holds := h.holds.step (tenures_fits config) _
  belongs := h.belongs.step hrecord h.follows _
  coupled := h.coupled.meet event
  healthy := (Simulator.meet_oneShot w.memory hspares).1.trans h.healthy
  served := h.served
  ready u c hu hc := (h.ready u c hu hc).meet hspares
  turn := h.turn

theorem Calm.step (h : Calm config w) (hrecord : config.bytesPerSample = 4)
    {act : Action machine Consumer} (hturn : w.inTurn act = true)
    (hspares : sparesCalls act = true) : Calm config (w.step config act) := by
  cases act with
  | call command =>
    exact ⟨h.follows.call (errands_fits config) command, h.holds.call (tenures_fits config) command,
      h.belongs.step hrecord h.follows _, h.coupled, h.healthy, h.served, h.ready,
      h.turn.step (fun e he => h.holds.allowed.caller_lt he) hturn⟩
  | deliver =>
    exact ⟨h.follows.step (errands_fits config) _, h.holds.step (tenures_fits config) _, h.belongs,
      h.coupled, h.healthy, h.served, h.ready, h.turn⟩
  | happen event =>
    refine h.happen hrecord ?_
    rintro rfl
    cases hspares
  | advance i =>
    show Calm config (w.advance i)
    rcases w.advance_cases i with hsame | ⟨command, q, next, hi, hq, hanswered⟩
    · rw [hsame]
      exact h
    · rw [hanswered]
      exact h.answered hrecord hi hq hturn

theorem Calm.run (h : Calm config w) (hrecord : config.bytesPerSample = 4)
    {actions : List (Action machine Consumer)} (hturn : w.runsInTurn config actions = true)
    (hspares : ∀ act ∈ actions, sparesCalls act = true) : Calm config (w.run config actions) := by
  induction actions generalizing w with
  | nil => exact h
  | cons act actions ih =>
    obtain ⟨hnow, hlater⟩ := Bool.and_eq_true_iff.1 hturn
    obtain ⟨hspares, hrest⟩ := List.forall_mem_cons.1 hspares
    exact ih (h.step hrecord hnow hspares) hlater hrest

theorem calm_started (config : Config) (settings : Settings) : Calm config (started settings) where
  follows := World.followed_new _ (started settings).memory
  holds := World.followed_new _ (started settings).memory
  belongs := streamBelongs_started config settings
  coupled := coupledTo_run settings config []
  healthy := rfl
  served := List.forall_mem_nil _
  ready _ _ hu := by cases hu
  turn := World.inTurn_new (started settings).memory

end

/-! ## Failures that are reported -/

/-- A context of the unit is the range that it was opened for. -/
theorem AllServed.context_eq {history : List (Exchange Range Consumer)} (h : AllServed history)
    {i : Nat} {context range : Range} (hopen : (context, range) ∈ Errand.contextsOf i history) :
    context = range := by
  induction history using List.reverseRecOn with
  | nil => cases hopen
  | append_singleton history e ih =>
    have hbefore : AllServed history := fun e' he' => h e' (List.mem_append_left _ he')
    obtain ⟨j, q, answer⟩ := e
    rw [Errand.contextsOf_concat] at hopen
    split at hopen
    · cases q with
      | hardware call =>
        cases call with
        | createCalibration channel range' =>
          obtain rfl : answer = .ok range' :=
            h ⟨j, .hardware (.createCalibration channel range'), answer⟩ (by simp) _ rfl
          rcases List.mem_cons.1 hopen with hnow | hearlier
          · cases hnow
            rfl
          · exact ih hbefore hearlier
        | _ => exact ih hbefore hopen
      | _ => exact ih hbefore hopen
    · exact ih hbefore hopen

/-- A call that has failed in a history where all were served was to convert a code above its range. -/
theorem Served.of_fault {call : Call} {reply : call.Reply} (h : Served call reply)
    {fault : HardwareFault} (hfault : (⟨call, reply⟩ : AnsweredCall Range).fault? = some fault) :
    ∃ range raw, call = .applyCalibration range raw ∧ range.width.maxRaw < raw := by
  cases call with
  | applyCalibration range raw =>
    rcases h with ⟨mv, rfl⟩ | hlt
    · cases hfault
    · exact ⟨range, raw, rfl, hlt⟩
  | createCalibration channel range =>
    cases h
    cases hfault
  | _ => cases h.symm.trans hfault

/-- A caller that reports a failure of the hardware has made a call that has failed. -/
theorem exists_failed {history : List (Exchange Range Consumer)} {i : Nat} {fault : HardwareFault}
    (h : (Account.of i history).fault? = some fault) : ∃ before call reply later,
      history = before ++ ⟨i, .hardware call, reply⟩ :: later ∧
        (⟨call, reply⟩ : AnsweredCall Range).fault? = some fault := by
  rw [Account.fault?, Account.calls_of] at h
  obtain ⟨c, hc, hfault⟩ := List.exists_of_findSome?_eq_some h
  obtain ⟨⟨j, q, answer⟩, he, hcall⟩ := List.mem_filterMap.1 hc
  obtain ⟨hmem, hi⟩ := List.mem_filter.1 he
  obtain rfl : j = i := by simpa using hi
  cases q with
  | hardware call =>
    cases hcall
    obtain ⟨before, later, hsplit⟩ := List.append_of_mem hmem
    exact ⟨before, call, answer, later, hsplit, hfault⟩
  | _ => cases hcall

namespace Calm

variable {config : Config} {w : World machine Consumer}

/-- The only failures that callers report are those of codes above the range of a buffer. -/
theorem reported (h : Calm config w) (haccounts : w.Accounted config) {i : Nat}
    {command : Command Consumer} {result : Result} {fault : HardwareFault}
    (hi : w.callers[i]? = some ⟨command, .done result⟩)
    (he : result.error? = some (.hardware fault)) :
    ∃ samples, command.buffer? = some samples ∧ ∃ raw ∈ samples, config.width.maxRaw < raw := by
  obtain ⟨before, call, reply, later, hsplit, hfault⟩ :=
    exists_failed ((haccounts.finished hi).fault he)
  have hserved := h.served ⟨i, .hardware call, reply⟩ (by rw [hsplit]; simp) _ rfl
  obtain ⟨context, raw, rfl, habove⟩ := hserved.of_fault hfault
  obtain ⟨caller, hcaller, codes, range, hopen, hconverts, hraw⟩ := h.follows.allowed hsplit
  obtain rfl := Option.some.inj (hcaller.symm.trans hi)
  have hopen' : (context, range) ∈ Errand.contextsOf i w.history := by
    rw [hsplit]
    exact Errand.contextsOf_append hopen
  obtain rfl := h.served.context_eq hopen'
  -- it has opened a context, so what has failed is the conversion of a buffer
  cases hbuffer : command.buffer? with
  | none =>
    have hnone := (h.follows.finished hi).failed hbuffer (by rw [he]; simp)
    rw [show Errand.contextsOf i w.history = [] from hnone] at hopen'
    cases hopen'
  | some samples =>
    rw [Command.converts?_of_buffer hbuffer config] at hconverts
    obtain ⟨hwidth, rfl⟩ := Prod.mk.inj (Option.some.inj hconverts)
    rw [← hwidth] at habove
    exact ⟨samples, rfl, raw, hraw, habove⟩

end Calm

/-- While the calls to the controller are made one after the other, or in between the conversions of
bursts, and no call is made to fail, the unit serves every call that the controller makes: none comes
out of order or has arguments that the unit refuses. So no caller reports a failure of the hardware,
unless it calibrates a buffer with a code above the range. -/
theorem serves_calls_in_turn (config : Config) (hrecord : config.bytesPerSample = 4)
    (settings : Settings) (actions : List (Action machine Consumer))
    (hturn : (started settings).runsInTurn config actions = true)
    (hspares : ∀ act ∈ actions, sparesCalls act = true) :
    let w := (started settings).run config actions
    AllServed w.history ∧ ∀ (i : Nat) (command : Command Consumer) (result : Result)
      (fault : HardwareFault), w.callers[i]? = some ⟨command, .done result⟩ →
        result.error? = some (.hardware fault) →
        ∃ samples, command.buffer? = some samples ∧ ∃ raw ∈ samples, config.width.maxRaw < raw := by
  have hcalm := (calm_started config settings).run hrecord hturn hspares
  exact ⟨hcalm.served, fun i command result fault hi he =>
    hcalm.reported (World.accounted_run config _ actions) hi he⟩

/-- Between the two conversions of a burst, a code above the range is calibrated, and somebody asks for
the channel of the burst. -/
def interruptedBurst : List (Action machine Consumer) :=
  .call (.sampleOnce 3 .db12 2) :: (List.replicate 5 (.advance 0) ++
    .call (.calibrate 2 .db12 [5000]) :: (List.replicate 3 (.advance 1) ++
      .call (.setupTimeCritical 3 .db0) :: (List.replicate 3 (.advance 2) ++
        List.replicate 5 (.advance 0))))

/-- Everybody is served, and the calibration reports that one code. -/
theorem serves_interrupted_burst :
    let w := (started {}).run {} interruptedBurst
    w.callers.all Caller.isFinished = true ∧ AllServed w.history ∧
      (∃ fault, w.callers[1]? = some ⟨.calibrate 2 .db12 [5000],
        .done (.calibrated (.error (.hardware fault)) [5000])⟩) ∧
      ∃ raw ∈ [(5000 : UInt16)], BitWidth.bits12.maxRaw < raw := by
  intro w
  have hfinished : w.callers.all Caller.isFinished = true := by decide +kernel
  obtain ⟨hserved, hfails⟩ := serves_calls_in_turn {} rfl {} interruptedBurst (by decide +kernel)
    (by decide)
  have hcalibrated : w.callers[1]? = some ⟨.calibrate 2 .db12 [5000], .done (.calibrated
      (.error (.hardware ⟨.applyCalibration, HardwareFault.invalidArgument⟩)) [5000])⟩ := rfl
  obtain ⟨samples, hbuffer, hraw⟩ := hfails 1 _ _ _ hcalibrated rfl
  cases hbuffer
  exact ⟨hfinished, hserved, ⟨_, hcalibrated⟩, hraw⟩

end SharedAdc.Simulator
