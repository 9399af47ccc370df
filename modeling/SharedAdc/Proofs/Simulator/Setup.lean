/-
What is set up on the continuous path of a simulated unit, over every sequence of calls and happenings.
The calls may come in any order, so that a path is set up anew while it runs or told where to route
frames before anything else; still what is there fits together. So starting never divides by a rate of
zero, and a producer has an entry for every record of every frame.
-/
import SharedAdc.Proofs.Simulator.Faults
import SharedAdc.Proofs.Simulator.Producer

namespace SharedAdc

namespace Simulator

/-! ## Paths that fit together -/

/-- What is set up on a continuous path fits together. -/
structure Stream.Consistent (s : Stream) : Prop where
  size : ∀ bytes, s.frameBytes = some bytes → 0 < bytes.toNat ∧ 4 ∣ bytes.toNat
  /-- Nothing is there without a frame size. -/
  created : s.frameBytes = none → s.pattern = [] ∧ s.slot = none ∧ s.producer = none
  rate : s.pattern ≠ [] → s.rate ≠ 0
  routed : s.producer.isSome = true → s.slot.isSome = true ∧ s.pattern ≠ []
  /-- The table of a producer need not be the one that is set up by now, but its frames have the size
  that is. -/
  producer : ∀ p, s.producer = some p → s.frameBytes = some p.frameBytes ∧ p.pattern ≠ []

section

variable {s : Stream}

theorem Stream.consistent_empty : ({} : Stream).Consistent :=
  ⟨nofun, fun _ => ⟨rfl, rfl, rfl⟩, fun hne => absurd rfl hne, nofun, nofun⟩

theorem Stream.Consistent.create (h : s.Consistent) (hfree : s.frameBytes = none) {bytes : UInt32}
    (hne : bytes ≠ 0) (hwhole : bytes.toNat % Record.size = 0) :
    ({ s with frameBytes := some bytes } : Stream).Consistent := by
  obtain ⟨-, -, hidle⟩ := h.created hfree
  refine ⟨?_, nofun, h.rate, h.routed, fun p hp => ?_⟩
  · rintro _ ⟨⟩
    exact ⟨Nat.pos_of_ne_zero (fun hzero => hne (UInt32.toNat_inj.1 hzero)), Nat.dvd_of_mod_eq_zero hwhole⟩
  · rw [hidle] at hp
    cases hp

theorem Stream.Consistent.configure (h : s.Consistent) {bytes : UInt32}
    (hcreated : s.frameBytes = some bytes) {rate : UInt32} {pattern : List PatternEntry}
    (hrate : rate ≠ 0) (hpattern : pattern ≠ []) :
    ({ s with rate, pattern } : Stream).Consistent := by
  refine ⟨h.size, fun hnone => ?_, fun _ => hrate, fun hp => ⟨(h.routed hp).1, hpattern⟩, h.producer⟩
  cases hcreated.symm.trans hnone

theorem Stream.Consistent.register (h : s.Consistent) {bytes : UInt32}
    (hcreated : s.frameBytes = some bytes) (slot : SlotName) :
    ({ s with slot := some slot } : Stream).Consistent := by
  refine ⟨h.size, fun hnone => ?_, h.rate, fun hp => ⟨rfl, (h.routed hp).2⟩, h.producer⟩
  cases hcreated.symm.trans hnone

/-- A producer can be put on a path that is set up. -/
theorem Stream.Consistent.put (h : s.Consistent) {p : Producer} (hslot : s.slot.isSome = true)
    (hpattern : s.pattern ≠ []) (hsize : s.frameBytes = some p.frameBytes) (hturn : p.pattern ≠ []) :
    ({ s with producer := some p } : Stream).Consistent := by
  refine ⟨h.size, fun hnone => ?_, h.rate, fun _ => ⟨hslot, hpattern⟩, ?_⟩
  · cases hsize.symm.trans hnone
  · rintro _ ⟨⟩
    exact ⟨hsize, hturn⟩

/-- The producer of a path can go over into one with the same table for the same size. -/
theorem Stream.Consistent.replace (h : s.Consistent) {p p' : Producer} (hp : s.producer = some p)
    (hsize : p'.frameBytes = p.frameBytes) (hpattern : p'.pattern = p.pattern) :
    ({ s with producer := some p' } : Stream).Consistent := by
  obtain ⟨hslot, hset⟩ := h.routed (Option.isSome_of_mem hp)
  obtain ⟨hcreated, hturn⟩ := h.producer p hp
  exact h.put hslot hset (hsize ▸ hcreated) (hpattern ▸ hturn)

theorem Stream.Consistent.stop (h : s.Consistent) :
    ({ s with producer := none } : Stream).Consistent := by
  refine ⟨h.size, fun hnone => ?_, h.rate, nofun, nofun⟩
  obtain ⟨hpattern, hslot, -⟩ := h.created hnone
  exact ⟨hpattern, hslot, rfl⟩

end

/-! ## Along a run -/

section

variable {sim : Simulator}

/-- Whatever effect a call has, the path fits together again. -/
theorem Stream.Consistent.does (h : sim.stream.Consistent) {slot : SlotName} {call : Call}
    {reply : call.Reply} {sim' : Simulator} (hdoes : sim.Does slot call reply sim') :
    sim'.stream.Consistent := by
  cases hdoes with
  | create hne _ hwhole hfree => exact h.create hfree hne hwhole
  | configure hpattern hrate hcreated => exact h.configure hcreated hrate hpattern
  | register hcreated => exact h.register hcreated slot
  | start own generator hcreated hslot hpattern =>
    exact h.put (Option.isSome_of_mem hslot) hpattern hcreated hpattern
  | stop => exact h.stop
  | deinit => exact Stream.consistent_empty
  | createUnit | configureUnit | read | deleteUnit | openContext | convert | closeContext => exact h

theorem Stream.Consistent.make (h : sim.stream.Consistent) (r : Request) :
    (sim.make r).2.2.stream.Consistent := by
  rcases sim.make_cases r with ⟨hdoes, -⟩ | ⟨⟨code, hfail⟩, -⟩
  · exact h.does hdoes
  · rw [hfail]
    exact h

theorem Stream.Consistent.meet (h : sim.stream.Consistent) (event : Happening) :
    (sim.meet event).stream.Consistent := by
  cases event with
  | fault | input => exact h
  | frame =>
    unfold Simulator.meet
    dsimp only
    split
    · exact h
    · rename_i hframe
      obtain ⟨p, p', hp, hmade, -, rfl⟩ := nextFrame_some hframe
      obtain ⟨frame, generator, hturns, -, -⟩ := p.makeFrame_turns sim.inputs (h.producer p hp).2
      obtain rfl := congrArg Prod.snd (hmade.symm.trans hturns)
      exact h.replace hp rfl rfl
  | breakdown =>
    cases hp : sim.stream.producer with
    | none =>
      have hsame : (sim.meet .breakdown).stream = sim.stream := by
        simp only [Simulator.meet, breakProducer, hp, Option.map_none]
        rw [← hp]
      rw [hsame]
      exact h
    | some p =>
      have hbroken : (sim.meet .breakdown).stream =
          { sim.stream with producer := some { p with broken := true } } := by
        simp only [Simulator.meet, breakProducer, hp, Option.map_some]
      rw [hbroken]
      exact h.replace hp rfl rfl

theorem consistent_through (h : sim.stream.Consistent) (acts : List Act) :
    (sim.through acts).stream.Consistent := by
  induction acts generalizing sim with
  | nil => exact h
  | cons a acts ih =>
    cases a with
    | call r => exact ih (h.make r)
    | happen event => exact ih (h.meet event)

end

/-! ## Starting -/

/-- The records of a frame leave room for their time in microseconds. -/
theorem micros_lt (bytes : UInt32) : bytes.toNat / 4 * 1000000 < 2 ^ 64 := by
  have hlt := bytes.toNat_lt
  omega

/-- The time of a frame is worked out without overflow. -/
theorem toNat_framePeriod (bytes rate : UInt32) :
    (framePeriod bytes rate).toNat = bytes.toNat / 4 * 1000000 / rate.toNat := by
  have hrecords : (bytes.toUInt64 / 4).toNat = bytes.toNat / 4 := by
    rw [UInt64.toNat_div, UInt32.toNat_toUInt64]
    rfl
  have hmicros : (bytes.toUInt64 / 4 * 1000000).toNat = bytes.toNat / 4 * 1000000 := by
    rw [UInt64.toNat_mul, hrecords]
    exact Nat.mod_eq_of_lt (micros_lt bytes)
  rw [framePeriod, UInt64.toNat_div, hmicros, UInt32.toNat_toUInt64]

/-- The call that starts gets past every check just when the path is set up and idle and no fault is
pending. It then works the time between two frames out from a rate that is not zero, with no overflow. -/
structure StartsTimed (sim : Simulator) : Prop where
  starts : (sim.perform .startContinuous).1 = .ok () ↔ sim.fault = false ∧
    sim.stream.slot.isSome = true ∧ sim.stream.pattern ≠ [] ∧ sim.stream.producer = none
  interval : ∀ log next, sim.perform .startContinuous = (.ok (), log, next) →
    ∃ bytes, sim.stream.frameBytes = some bytes ∧ sim.stream.rate ≠ 0 ∧
      bytes.toNat / 4 * 1000000 < 2 ^ 64 ∧
      log = [⟨.debug, "Frame producer started, one frame every " ++ Text.microseconds
        (max (bytes.toNat / 4 * 1000000 / sim.stream.rate.toNat) sim.minInterval)⟩]

/-- The producer of a running stream has an entry for each record, however many it is to make, and its
frames are as long as the size that is set up. -/
structure Feeds (sim : Simulator) : Prop where
  records : ∀ p, sim.stream.producer = some p →
    ∀ inputs n, (p.makeRecords inputs n).1.length = n
  frames : ∀ slot frame next, sim.nextFrame = some (slot, frame, next) →
    sim.stream.frameBytes.map UInt32.toNat = some frame.length

section

variable {sim : Simulator}

theorem perform_startContinuous (sim : Simulator) :
    sim.perform .startContinuous =
      if sim.fault = true then
        (.error ⟨.startContinuous, HardwareFault.failed⟩, [], { sim with fault := false })
      else sim.startStream := by
  unfold perform attempt
  rw [HardwareCall.op?, Option.isSome_some, Bool.and_true]
  rfl

theorem Stream.Consistent.startsTimed (h : sim.stream.Consistent) : sim.StartsTimed := by
  have hperform := sim.perform_startContinuous
  cases hfault : sim.fault with
  | true =>
    rw [hfault, if_pos rfl] at hperform
    constructor
    · rw [hperform, hfault]
      simp
    · rintro log next hstart
      cases hperform.symm.trans hstart
  | false =>
    rw [hfault, if_neg Bool.false_ne_true] at hperform
    rcases sim.startStream_cases with
      ⟨bytes, target, own, generator, hbytes, hslot, hset, hidle, hstart⟩ | ⟨hunset, hstart⟩
    · rw [hstart] at hperform
      constructor
      · rw [hperform]
        exact ⟨fun _ => ⟨hfault, Option.isSome_of_mem hslot, hset, hidle⟩, fun _ => rfl⟩
      · rintro log next hlog
        cases hperform.symm.trans hlog
        refine ⟨bytes, hbytes, h.rate hset, micros_lt bytes, ?_⟩
        rw [frameInterval, toNat_framePeriod]
    · rw [hstart] at hperform
      constructor
      · rw [hperform]
        refine ⟨nofun, fun ⟨_, hslot, hset, hidle⟩ => absurd ⟨?_, hslot, hset, hidle⟩ hunset⟩
        -- there is no table without a frame size
        rw [Option.isSome_iff_ne_none]
        exact fun hnone => hset (h.created hnone).1
      · rintro log next hlog
        cases hperform.symm.trans hlog

theorem Stream.Consistent.feeds (h : sim.stream.Consistent) : sim.Feeds where
  records p hp inputs n := by
    obtain ⟨-, hturn⟩ := h.producer p hp
    obtain ⟨records, generator, hrecords, hconverts⟩ := p.makeRecords_turns inputs hturn n
    rw [hrecords, ← List.length_map Record.cut, ← hconverts.length_eq, length_turns hturn]
  frames slot frame next hframe := by
    obtain ⟨p, p', hp, hmade, -, -⟩ := nextFrame_some hframe
    obtain ⟨hsize, hturn⟩ := h.producer p hp
    obtain ⟨frame', generator, hturns, hlength, -⟩ := p.makeFrame_turns sim.inputs hturn
    obtain rfl := congrArg Prod.fst (hmade.symm.trans hturns)
    rw [hsize, hlength, Producer.perFrame, Record.size, Nat.mul_div_cancel' (h.size _ hsize).2]
    rfl

end

/-- Whatever calls are made of a new unit in whatever order, and whatever else happens to it, its
continuous path fits together. So no start divides by zero or overflows on the time between two frames,
and no producer runs out of entries. -/
theorem continuous_path_consistent (settings : Settings) (acts : List Act) :
    let sim := (ofSettings settings).through acts
    sim.stream.Consistent ∧ sim.StartsTimed ∧ sim.Feeds := by
  intro sim
  have h : sim.stream.Consistent := consistent_through Stream.consistent_empty acts
  exact ⟨h, h.startsTimed, h.feeds⟩

/-- Sets a path up out of order, and anew while it runs. -/
def settingUpAnew : List Act :=
  let call (call : Call) : Act := .call ⟨call, .controller⟩
  let entry (c : Channel) : PatternEntry := ⟨c, .db12, .bits12⟩
  [call .registerFrameSlot, call (.createContinuous 64 8), call .startContinuous,
    .call ⟨.registerFrameSlot, .spare 3⟩, .happen .fault, call (.configureContinuous 1000 [entry 2]),
    call (.configureContinuous 1000 [entry 2]), call .startContinuous, .happen .frame,
    call (.configureContinuous 20 [entry 1, entry 0]), call .registerFrameSlot]

/-- A path that was set up anew while it ran is not started again, and its frames still have the size
that it was created for. Once it is stopped, it starts at the new rate. -/
theorem continuous_path_consistent_anew :
    let sim := (ofSettings {}).through settingUpAnew
    (sim.perform .startContinuous).1 ≠ .ok () ∧
    (∃ slot frame next, sim.nextFrame = some (slot, frame, next) ∧ frame.length = 8) ∧
    ((sim.perform .stopContinuous).2.2.perform .startContinuous).1 = .ok () := by
  intro sim
  obtain ⟨-, hstart, hfeeds⟩ := continuous_path_consistent {} settingUpAnew
  obtain ⟨-, hagain, -⟩ :=
    continuous_path_consistent {} (settingUpAnew ++ [.call ⟨.stopContinuous, .controller⟩])
  have hruns : sim.stream.producer.isSome = true := by decide +kernel
  have hmakes : sim.nextFrame.isSome = true := by decide +kernel
  refine ⟨fun hok => ?_, ?_, ?_⟩
  · rw [(hstart.starts.1 hok).2.2.2] at hruns
    cases hruns
  · obtain ⟨⟨slot, frame, next⟩, hframe⟩ := Option.isSome_iff_exists.1 hmakes
    refine ⟨slot, frame, next, hframe, ?_⟩
    have hsize : sim.stream.frameBytes.map UInt32.toNat = some 8 := by decide +kernel
    exact Option.some.inj ((hfeeds.frames slot frame next hframe).symm.trans hsize)
  · rw [through_append] at hagain
    refine hagain.starts.2 ⟨?_, ?_, ?_, ?_⟩ <;> decide +kernel

end Simulator

end SharedAdc
