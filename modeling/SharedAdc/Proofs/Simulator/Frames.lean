/-
The frames of the streams that callers have asked a controller for. The stream of the unit is always
that of the caller who has created the driver last, as far as the driver has come; so each of its
frames has the size that the request was worked out to, and goes through the channels of the request
as often as samples were asked for.
-/
import SharedAdc.Proofs.Errands.Run
import SharedAdc.Proofs.Simulator.Machine
import SharedAdc.Proofs.Simulator.Producer

namespace SharedAdc

/-! ## Frames of a request -/

namespace ContinuousRequest

variable {φ : Type} {config : Config} {request : ContinuousRequest φ} {bytes : UInt32}

theorem length_pattern : (request.pattern config).length = request.mask.count := by
  rw [pattern, List.length_map, Mask.count_eq_length]

theorem pattern_ne_nil (h : request.check config = .ok ()) : request.pattern config ≠ [] :=
  fun hnil => toList_ne_nil (check_ok h).1 (List.map_eq_nil_iff.1 hnil)

/-- A frame holds one record for each sample of each channel. -/
theorem records_frameBytes (hrecord : config.bytesPerSample = 4)
    (h : request.frameBytes config = .ok bytes) : bytes.toNat / Record.size =
      (request.pattern config).length * request.samplesPerChannel.toNat := by
  rw [toNat_frameBytes hrecord h, Record.size, Nat.mul_div_cancel _ (by decide), length_pattern,
    Nat.mul_comm]

end ContinuousRequest

namespace Simulator

open Controller

section

variable {config : Config} {request : ContinuousRequest Consumer} {bytes : UInt32}

/-! ## Producers of a request -/

/-- A producer that makes frames of a request, and has gone through the table of the request a whole
number of times. -/
structure Producer.Serves (config : Config) (request : ContinuousRequest Consumer) (bytes : UInt32)
    (p : Producer) : Prop where
  pattern : p.pattern = request.pattern config
  frameBytes : p.frameBytes = bytes
  target : p.target = .controller
  rounds : ∃ n, p.made = p.pattern.length * n

section

variable {p : Producer} (h : p.Serves config request bytes) (hrecord : config.bytesPerSample = 4)
  (hsize : request.frameBytes config = .ok bytes)

include h hrecord hsize

theorem Producer.Serves.perFrame_eq :
    p.perFrame = p.pattern.length * request.samplesPerChannel.toNat := by
  rw [Producer.perFrame, h.frameBytes, h.pattern,
    ContinuousRequest.records_frameBytes hrecord hsize]

variable (hne : p.pattern ≠ []) (inputs : Vector UInt32 10)

include hne

/-- A frame goes through the table as often as samples were asked for. -/
theorem Producer.Serves.makeFrame :
    ∃ frame p', p.makeFrame inputs = (frame, p') ∧ p'.Serves config request bytes ∧
      frame.length = request.samplesPerChannel.toNat * request.mask.count * 4 ∧
      frame.channels =
        (List.replicate request.samplesPerChannel.toNat (request.mask.toList.map some)).flatten ∧
      ∀ r ∈ Frame.decode frame, r.unit = 0 := by
  have hperFrame := h.perFrame_eq hrecord hsize
  have hchannels := p.channels_makeFrame inputs hne
  have hunit := fun r => @p.exists_entry inputs hne r
  obtain ⟨frame, generator, hframe, hlength, -⟩ := p.makeFrame_turns inputs hne
  rw [hframe] at hchannels hunit
  obtain ⟨hpattern, hbytes, htarget, n, hmade⟩ := h
  have htable : (p.pattern.map fun entry => some entry.channel) =
      request.mask.toList.map some := by
    rw [hpattern, ContinuousRequest.pattern, List.map_map]
    rfl
  refine ⟨frame, _, hframe, ⟨hpattern, hbytes, htarget, n + request.samplesPerChannel.toNat, ?_⟩,
    ?_, ?_, ?_⟩
  · rw [hmade, hperFrame, Nat.mul_add]
  · rw [hlength, hperFrame, hpattern, ContinuousRequest.length_pattern, Record.size, Nat.mul_comm 4,
      Nat.mul_comm request.mask.count]
  · rw [hchannels, hmade, hperFrame, ← htable,
      ← List.length_map (f := fun entry : PatternEntry => some entry.channel)]
    exact turns_rounds ..
  · intro r hr
    obtain ⟨entry, -, hconverts⟩ := hunit r hr
    exact hconverts.unit

end

/-! ## Streams of a request -/

/-- What is set up on a stream for a request when the driver has come to a stage. -/
def Stream.Ready (config : Config) (request : ContinuousRequest Consumer) (stream : Stream) :
    Option Stage → Prop
  | some .created => stream.producer = none
  | some .configured => stream.producer = none ∧ stream.pattern = request.pattern config
  | some .registered => stream.producer = none ∧ stream.pattern = request.pattern config ∧
    stream.slot = some .controller
  | some .started => stream.producer.isSome = true
  | _ => True

/-- A stream whose driver was created for a request and has come to a stage. A driver that was given
up without being deinitialized can go on making frames. -/
structure Stream.Serves (config : Config) (request : ContinuousRequest Consumer) (bytes : UInt32)
    (stage : Option Stage) (stream : Stream) : Prop where
  size : request.frameBytes config = .ok bytes
  created : stream.frameBytes = some bytes
  ready : stream.Ready config request stage
  producer : ∀ p, stream.producer = some p → p.Serves config request bytes

section

variable {stage : Option Stage} {stream : Stream}

theorem Stream.Serves.stop (h : stream.Serves config request bytes stage) :
    stream.Serves config request bytes (stage.map .stop) := by
  refine ⟨h.size, h.created, ?_, h.producer⟩
  have hready := h.ready
  cases stage with
  | none => trivial
  | some stage => cases stage <;> first | exact hready | trivial

theorem Stream.Serves.giveUp (h : stream.Serves config request bytes stage) :
    stream.Serves config request bytes none :=
  ⟨h.size, h.created, trivial, h.producer⟩

end

/-! ## Calls -/

variable {sim : Simulator} {d : Driver} {i : Nat} {command : Command Consumer} {t : Errand Range}
  {call : Call}

/-- A call that fails changes nothing on the stream. -/
theorem Stream.Serves.fail (h : sim.stream.Serves config request bytes d.stage) (i : Nat)
    (call : Call) (code : Int32) :
    sim.stream.Serves config request bytes
        (d.after i (.hardware call : Question Range Consumer) (call.fail code)).stage ∧
      (d.after i (.hardware call : Question Range Consumer) (call.fail code)).creator = d.creator := by
  cases call with
  | stopContinuous => exact ⟨h.stop, rfl⟩
  | deinitContinuous => exact ⟨h.giveUp, rfl⟩
  | _ => exact ⟨h, rfl⟩

/-- A call that has its effect on a stream that was created keeps to what it is for. -/
theorem Stream.Serves.does (h : sim.stream.Serves config request bytes d.stage)
    (hknows : ∀ d', t.driver = some d' → d' = d)
    (hown : d.creator = some i → command.request? = some request)
    (hmay : t.MayCall config i command call) {reply : call.Reply} {sim' : Simulator}
    (hdoes : sim.Does .controller call reply sim') :
    sim'.stream = {} ∨ sim'.stream.Serves config request bytes
        (d.after i (.hardware call : Question Range Consumer) reply).stage ∧
      (d.after i (.hardware call : Question Range Consumer) reply).creator = d.creator := by
  obtain ⟨hsize, hcreated, hready, hproducer⟩ := h
  cases hdoes with
  | create _ _ _ hfree => cases hcreated.symm.trans hfree
  | configure =>
    obtain ⟨hdriver, request', ⟨hrequest', -⟩, -, rfl⟩ := hmay
    obtain rfl := hknows _ hdriver
    obtain rfl : request = request' := by
      have hrequest := hown rfl
      rw [hrequest'] at hrequest
      exact (Option.some.inj hrequest).symm
    exact .inr ⟨⟨hsize, hcreated, ⟨hready, rfl⟩, hproducer⟩, rfl⟩
  | register =>
    obtain rfl := hknows _ hmay
    exact .inr ⟨⟨hsize, hcreated, ⟨hready.1, hready.2, rfl⟩, hproducer⟩, rfl⟩
  | start _ _ hbytes htarget =>
    obtain rfl := hknows _ hmay
    obtain ⟨-, hpattern, hslot⟩ := hready
    cases hcreated.symm.trans hbytes
    cases hslot.symm.trans htarget
    refine .inr ⟨⟨hsize, hcreated, rfl, ?_⟩, rfl⟩
    rintro p ⟨⟩
    exact ⟨hpattern, rfl, rfl, 0, rfl⟩
  | stop =>
    -- nothing is left that could make a frame, and no stage after a stop needs it
    refine .inr ⟨⟨hsize, hcreated, ?_, nofun⟩, rfl⟩
    obtain ⟨creator, stage⟩ := d
    rcases stage with _ | _ | _ | _ | _ | _
    · trivial
    · rfl
    · exact ⟨rfl, hready.2⟩
    · exact ⟨rfl, hready.2⟩
    · trivial
    · trivial
  | deinit => exact .inl rfl
  | createUnit | configureUnit | read | deleteUnit | openContext | convert | closeContext =>
    exact .inr ⟨⟨hsize, hcreated, hready, hproducer⟩, rfl⟩

/-- There is no driver on a stream, or it was created for the caller who has created one last. -/
def Stream.Belongs (config : Config) (callers : List (Caller Range Consumer)) (d : Driver)
    (stream : Stream) : Prop :=
  stream = {} ∨ ∃ i caller request bytes, d.creator = some i ∧ callers[i]? = some caller ∧
    caller.command.AsksFor config request ∧ stream.Serves config request bytes d.stage

variable {callers : List (Caller Range Consumer)} {caller : Caller Range Consumer}

/-- Where there is no driver, a call changes nothing on the stream but to create one. -/
theorem Stream.belongs_does (h : sim.stream = {}) (hi : callers[i]? = some caller)
    (hmay : t.MayCall config i caller.command call) {slot : SlotName} {reply : call.Reply}
    {sim' : Simulator} (hdoes : sim.Does slot call reply sim') :
    sim'.stream.Belongs config callers
      (d.after i (.hardware call : Question Range Consumer) reply) := by
  cases hdoes with
  | create =>
    obtain ⟨-, request, hasks, hsize⟩ := hmay
    refine .inr ⟨i, caller, request, _, rfl, hi, hasks, hsize, rfl, ?_, ?_⟩
    · exact congrArg Stream.producer h
    · rw [h]
      exact nofun
  | configure _ _ hcreated | register hcreated | start _ _ hcreated | deinit hcreated =>
    rw [h] at hcreated
    cases hcreated
  | stop hproducer =>
    rw [h] at hproducer
    cases hproducer
  | createUnit | configureUnit | read | deleteUnit | openContext | convert | closeContext =>
    exact .inl h

theorem Stream.Belongs.perform (h : sim.stream.Belongs config callers d)
    (hi : callers[i]? = some caller) (hknows : ∀ d', t.driver = some d' → d' = d)
    (hmay : t.MayCall config i caller.command call) :
    (sim.perform call).2.2.stream.Belongs config callers
      (d.after i (.hardware call : Question Range Consumer) (sim.perform call).1) := by
  rcases h with hnone | ⟨j, creator, request, bytes, hj, hcreator, hasks, hserves⟩
  · rcases sim.perform_cases call with ⟨hdoes, -⟩ | ⟨⟨code, hfail⟩, -⟩
    · exact Stream.belongs_does hnone hi hmay hdoes
    · rw [hfail]
      exact .inl hnone
  · have hown : d.creator = some i → caller.command.request? = some request := by
      intro hd
      obtain rfl : j = i := Option.some.inj (hj.symm.trans hd)
      obtain rfl : creator = caller := Option.some.inj (hcreator.symm.trans hi)
      exact hasks.1
    rcases sim.perform_cases call with ⟨hdoes, -⟩ | ⟨⟨code, hfail⟩, -⟩
    · rcases hserves.does hknows hown hmay hdoes with hnone | ⟨hserves', hsame⟩
      · exact .inl hnone
      · exact .inr ⟨j, creator, request, bytes, hsame.trans hj, hcreator, hasks, hserves'⟩
    · rw [hfail]
      obtain ⟨hserves', hsame⟩ := hserves.fail i call code
      exact .inr ⟨j, creator, request, bytes, hsame.trans hj, hcreator, hasks, hserves'⟩

/-- What belongs to callers belongs to them while they go on with their commands. -/
theorem Stream.Belongs.transfer {stream : Stream} {callers' : List (Caller Range Consumer)}
    (h : stream.Belongs config callers d) (hcallers : ∀ {j : Nat} {caller : Caller Range Consumer},
      callers[j]? = some caller →
        ∃ caller', callers'[j]? = some caller' ∧ caller'.command = caller.command) :
    stream.Belongs config callers' d := by
  rcases h with hnone | ⟨i, caller, request, bytes, hi, hcaller, hasks, hserves⟩
  · exact .inl hnone
  · obtain ⟨caller', hcaller', hcommand⟩ := hcallers hcaller
    exact .inr ⟨i, caller', request, bytes, hi, hcaller', by rwa [hcommand], hserves⟩

/-! ## Happenings -/

/-- Producers go on serving the request. -/
theorem Stream.Serves.replace {stage : Option Stage} {stream : Stream} {p p' : Producer}
    (h : stream.Serves config request bytes stage) (hp : stream.producer = some p)
    (hserves : p'.Serves config request bytes) :
    Stream.Serves config request bytes stage { stream with producer := some p' } := by
  obtain ⟨hsize, hcreated, hready, -⟩ := h
  refine ⟨hsize, hcreated, ?_, fun q hq => ?_⟩
  · rcases stage with _ | _ | _ | _ | _ | _
    · trivial
    · exact absurd (hp.symm.trans hready) (by simp)
    · exact absurd (hp.symm.trans hready.1) (by simp)
    · exact absurd (hp.symm.trans hready.1) (by simp)
    · rfl
    · trivial
  · cases hq
    exact hserves

theorem Stream.Belongs.meet (hrecord : config.bytesPerSample = 4)
    (h : sim.stream.Belongs config callers d) (event : Happening) :
    (sim.meet event).stream.Belongs config callers d := by
  rcases h with hnone | ⟨i, caller, request, bytes, hi, hcaller, hasks, hserves⟩
  · left
    cases event with
    | fault | input => exact hnone
    | frame => simp only [Simulator.meet, nextFrame, hnone]
    | breakdown => simp only [Simulator.meet, breakProducer, hnone, Option.map_none]
  · refine .inr ⟨i, caller, request, bytes, hi, hcaller, hasks, ?_⟩
    cases event with
    | fault | input => exact hserves
    | frame =>
      simp only [Simulator.meet]
      split
      · exact hserves
      · rename_i hframe
        obtain ⟨p, p', hp, hmade, -, rfl⟩ := nextFrame_some hframe
        have hserved := hserves.producer p hp
        have hne : p.pattern ≠ [] := by
          rw [hserved.pattern]
          exact ContinuousRequest.pattern_ne_nil hasks.2
        obtain ⟨frame, q, hmade', hserved', -⟩ :=
          hserved.makeFrame hrecord hserves.size hne sim.inputs
        obtain ⟨-, rfl⟩ := Prod.mk.inj (hmade'.symm.trans hmade)
        exact hserves.replace hp hserved'
    | breakdown =>
      simp only [Simulator.meet, breakProducer]
      cases hp : sim.stream.producer with
      | none =>
        have hsame : { sim.stream with producer := none } = sim.stream := by rw [← hp]
        rw [Option.map_none, hsame]
        exact hserves
      | some p =>
        obtain ⟨hpattern, hbytes, htarget, hrounds⟩ := hserves.producer p hp
        exact hserves.replace hp ⟨hpattern, hbytes, htarget, hrounds⟩

end

/-! ## Runs -/

section

variable {config : Config} {w : World machine Consumer}

/-- The stream of the unit belongs to one of the callers of the controller in front of it. -/
def StreamBelongs (config : Config) (w : World machine Consumer) : Prop :=
  (Simulator.stream w.memory).Belongs config w.callers (.ofHistory w.history)

theorem StreamBelongs.answered (h : StreamBelongs config w) (hfollowed : w.Followed (errands config))
    {i : Nat} {command : Command Consumer} {q : Question Range Consumer}
    {next : Answer q → Operation Range Consumer Result}
    (hi : w.callers[i]? = some ⟨command, .ask q next⟩) :
    StreamBelongs config (w.answered i command q next) := by
  refine Stream.Belongs.transfer ?_ (World.command_answered hi)
  obtain ⟨hallow, -⟩ := hfollowed.rest hi
  simp only [World.answered, Driver.ofHistory_concat]
  cases q with
  | hardware call =>
    exact Stream.Belongs.perform h hi (fun d hd => Errand.eq_of_driver hd) hallow
  | _ => exact h

theorem StreamBelongs.step (hrecord : config.bytesPerSample = 4) (h : StreamBelongs config w)
    (hfollowed : w.Followed (errands config)) (act : Action machine Consumer) :
    StreamBelongs config (w.step config act) := by
  cases act with
  | call command =>
    exact h.transfer fun hj =>
      ⟨_, (List.getElem?_append_left (List.getElem?_eq_some_iff.1 hj).1).trans hj, rfl⟩
  | deliver => exact h
  | happen event => exact Stream.Belongs.meet hrecord h event
  | advance i =>
    show StreamBelongs config (w.advance i)
    rcases w.advance_cases i with hsame | ⟨command, q, next, hi, -, hanswered⟩
    · rw [hsame]
      exact h
    · rw [hanswered]
      exact h.answered hfollowed hi

theorem streamBelongs_started (config : Config) (settings : Settings) :
    StreamBelongs config (started settings) := .inl rfl

theorem streamBelongs_run (hrecord : config.bytesPerSample = 4) (settings : Settings)
    (actions : List (Action machine Consumer)) :
    StreamBelongs config ((started settings).run config actions) := by
  have hboth := World.run_induction
    (P := fun w : World machine Consumer => w.Followed (errands config) ∧ StreamBelongs config w)
    config ⟨World.followed_new _ _, streamBelongs_started config settings⟩
    (fun w act h => ⟨h.1.step (errands_fits config) act, h.2.step hrecord h.1 act⟩) actions
  exact hboth.2

end

/-- Whatever the callers ask for and whatever happens to the unit, every frame that a stream makes has
the size that its request comes to, and decodes to the channels of the request in ascending order, as
often as samples were asked for. The request is that of the caller who has created the driver. And any
producer with a table makes frames of as many whole records as fit, and goes through its table again and
again, across the ends of its frames. -/
theorem frames_repeat_channels (config : Config) (hrecord : config.bytesPerSample = 4)
    (settings : Settings) (actions : List (Action machine Consumer)) :
    let w := (started settings).run config actions
    (∀ slot frame sim', Simulator.nextFrame w.memory = some (slot, frame, sim') →
      ∃ i caller request, (Driver.ofHistory w.history).creator = some i ∧
        w.callers[i]? = some caller ∧ caller.command.AsksFor config request ∧
        slot = .controller ∧
        frame.length = request.samplesPerChannel.toNat * request.mask.count * 4 ∧
        frame.channels =
          (List.replicate request.samplesPerChannel.toNat (request.mask.toList.map some)).flatten ∧
        ∀ r ∈ Frame.decode frame, r.unit = 0) ∧
    ∀ (p : Producer) (times : List (Vector UInt32 10)), p.pattern ≠ [] → p.made = 0 →
      (∀ frame ∈ (p.makeFrames times).1, frame.length = 4 * (p.frameBytes.toNat / 4)) ∧
      ∃ rounds, (p.makeFrames times).1.flatMap Frame.channels <+:
        (List.replicate rounds (p.pattern.map fun entry => some entry.channel)).flatten := by
  intro w
  refine ⟨fun slot frame sim' hframe => ?_, fun p times hne hnew => ?_⟩
  · obtain ⟨p, p', hp, hmade, rfl, -⟩ := nextFrame_some hframe
    rcases streamBelongs_run hrecord settings actions with
      hnone | ⟨i, caller, request, bytes, hi, hcaller, hasks, hserves⟩
    · rw [hnone] at hp
      cases hp
    · have hserved := hserves.producer p hp
      have hne : p.pattern ≠ [] := by
        rw [hserved.pattern]
        exact ContinuousRequest.pattern_ne_nil hasks.2
      obtain ⟨frame', q, hmade', hserved', hlength, hchannels, hunit⟩ :=
        hserved.makeFrame hrecord hserves.size hne (Simulator.inputs w.memory)
      obtain ⟨rfl, rfl⟩ := Prod.mk.inj (hmade'.symm.trans hmade)
      exact ⟨i, caller, request, hi, hcaller, hasks, hserved'.target, hlength, hchannels, hunit⟩
  · obtain ⟨hlengths, hchannels⟩ := p.makeFrames_turns hne times
    refine ⟨hlengths, p.perFrame * times.length, ?_⟩
    rw [hchannels, hnew]
    refine turns_prefix _ (Nat.le_mul_of_pos_left _ ?_)
    rw [List.length_map]
    exact List.length_pos_iff.2 hne

/-- Two samples of two channels are asked for, and one frame was made of them. -/
def framedPair : List (Action machine Consumer) :=
  .call (.startContinuous ⟨.ofList [2, 7], .db6, 2, 1000, some .quiet⟩) ::
    (List.replicate 12 (.advance 0) ++ [.happen .frame])

/-- A table of three channels, for frames of two records and a rest. -/
def unevenTable : Producer where
  pattern := [⟨0, ⟨.db12, .bits12⟩⟩, ⟨1, ⟨.db12, .bits12⟩⟩, ⟨2, ⟨.db12, .bits12⟩⟩]
  frameBytes := 10
  noise := 0
  generator := .ofSeed 0
  target := .controller

/-- The next frame of the stream has two samples of either channel, one after the other; frames that
the table does not fit into go on where the one before has ended. -/
theorem frames_repeat_channels_pair :
    let w := (started {}).run {} framedPair
    (∃ frame sim', Simulator.nextFrame w.memory = some (.controller, frame, sim') ∧
      frame.length = 16 ∧ frame.channels = [some 2, some 7, some 2, some 7]) ∧
    ∀ times, (∀ frame ∈ (unevenTable.makeFrames times).1, frame.length = 8) ∧
      ∃ rounds, (unevenTable.makeFrames times).1.flatMap Frame.channels <+:
        (List.replicate rounds [some 0, some 1, some 2]).flatten := by
  intro w
  have hcreator : (Driver.ofHistory w.history).creator = some 0 := by decide +kernel
  have hcommand : w.callers[0]?.map Caller.command =
      some (.startContinuous ⟨.ofList [2, 7], .db6, 2, 1000, some .quiet⟩) := rfl
  have hmakes : (Simulator.nextFrame w.memory).isSome = true := by decide +kernel
  obtain ⟨⟨slot, frame, sim'⟩, hframe⟩ := Option.isSome_iff_exists.1 hmakes
  obtain ⟨hframes, hproducers⟩ := frames_repeat_channels {} rfl {} framedPair
  obtain ⟨i, caller, request, hi, hcaller, ⟨hasks, -⟩, rfl, hlength, hchannels, -⟩ :=
    hframes slot frame sim' hframe
  obtain rfl : 0 = i := Option.some.inj (hcreator.symm.trans hi)
  rw [hcaller] at hcommand
  rw [Option.some.inj hcommand] at hasks
  obtain rfl := Option.some.inj hasks
  exact ⟨⟨frame, sim', hframe, hlength, hchannels⟩,
    fun times => hproducers unevenTable times (by simp [unevenTable]) rfl⟩

end Simulator

end SharedAdc
