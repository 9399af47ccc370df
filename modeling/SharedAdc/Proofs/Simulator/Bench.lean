/-
The simulated unit behind a controller that is used by one caller after the other: what its driver is
set up with and whether frames are made is what the calls so far have come to.
-/
import SharedAdc.Proofs.Crew.Alone
import SharedAdc.Proofs.Crew.Keeps
import SharedAdc.Proofs.Simulator.Machine

namespace SharedAdc.Simulator

open Controller

/-! ## Frames -/

/-- What can become of the next frame: there is none, it goes to the spare slot, or it is handed to the
slot of the controller, where it may break the producer. -/
theorem Rig.deliverNext_cases (r : Rig) :
    ((Rig.deliverNext).run r).2 = r ∨
      ∃ slot frame sim, r.sim.nextFrame = some (slot, frame, sim) ∧
        (((Rig.deliverNext).run r).2 = { r with sim } ∨
          ∃ sim', (sim' = sim ∨ sim' = sim.breakProducer) ∧
            ((Rig.deliverNext).run r).2 =
              { r with
                sim := sim'
                feed := (r.shared.slot.handOver frame r.feed).2.2
                shared := { r.shared with
                  slot := (r.shared.slot.handOver frame r.feed).2.1 } }) := by
  simp only [Rig.deliverNext, modify, modifyGet, MonadStateOf.modifyGet, StateT.modifyGet,
    StateT.run]
  split
  · exact .inl rfl
  · rename_i sim hframe
    exact .inr ⟨_, _, sim, hframe, .inl rfl⟩
  · rename_i frame sim hframe
    refine .inr ⟨_, frame, sim, hframe, .inr ⟨_, ?_, rfl⟩⟩
    cases (r.shared.slot.handOver frame r.feed).1 with
    | broken => exact .inr rfl
    | returned => exact .inl rfl

/-- A frame is counted in the slot, and changes nothing else that callers share. -/
theorem same_deliverNext (r : Rig) :
    r.shared.Same ((Rig.deliverNext).run r).2.shared := by
  rcases r.deliverNext_cases with hsame | ⟨slot, frame, sim, -, hspare | ⟨sim', -, hhanded⟩⟩
  · rw [hsame]
    exact ⟨fun _ => rfl, rfl⟩
  · rw [hspare]
    exact ⟨fun _ => rfl, rfl⟩
  · rw [hhanded]
    exact r.shared.same_of_callback (r.shared.slot.callback_handOver frame r.feed)

/-- A producer that has made a frame goes on with the same table. -/
theorem Producer.pattern_makeRecords (p : Producer) (inputs : Vector UInt32 10) (n : Nat) :
    (p.makeRecords inputs n).2.pattern = p.pattern := by
  induction n generalizing p with
  | zero => rfl
  | succ n ih =>
    unfold makeRecords
    cases hmake : p.makeRecord inputs with
    | none => rfl
    | some made =>
      obtain ⟨record, next⟩ := made
      have hnext : next.pattern = p.pattern := by
        unfold makeRecord at hmake
        obtain ⟨entry, -, hentry⟩ := Option.map_eq_some_iff.1 hmake
        cases hentry
        rfl
      exact (ih next).trans hnext

/-! ## What a driver follows -/

/-- The continuous path as the calls have left it: without a driver there is nothing; a driver that was
created is set up with the table, and one that was started makes frames from it. -/
def Stream.Follows (s : Stream) (table : List PatternEntry) : Option Bool → Prop
  | none => s = {}
  | some false => s.frameBytes.isSome = true ∧ s.pattern = table ∧ s.producer = none
  | some true => s.frameBytes.isSome = true ∧ (table ≠ [] → s.pattern = table ∧
    ∃ producer, s.producer = some producer ∧ producer.pattern = table)

section

variable {s : Stream} {table : List PatternEntry} {driver : Option Bool}

theorem Stream.Follows.created (h : s.Follows table driver) (hd : driver.isSome = true) :
    s.frameBytes.isSome = true := by
  match driver, hd with
  | some false, _ => exact h.1
  | some true, _ => exact h.1

/-- It does not matter which frames the slot gets, or which frames were made already. -/
theorem Stream.Follows.congr {s' : Stream} (h : s.Follows table driver)
    (hbytes : s'.frameBytes = s.frameBytes) (hpattern : s'.pattern = s.pattern)
    (hproducer : s'.producer.map Producer.pattern = s.producer.map Producer.pattern)
    (hnone : driver = none → s' = s) : s'.Follows table driver := by
  match driver with
  | none =>
    rw [hnone rfl]
    exact h
  | some false =>
    obtain ⟨hcreated, htable, hidle⟩ := h
    refine ⟨by rw [hbytes]; exact hcreated, hpattern.trans htable, ?_⟩
    rw [hidle] at hproducer
    simpa using hproducer
  | some true =>
    obtain ⟨hcreated, hruns⟩ := h
    refine ⟨by rw [hbytes]; exact hcreated, fun hne => ?_⟩
    obtain ⟨htable, producer, hp, hpt⟩ := hruns hne
    rw [hp] at hproducer
    obtain ⟨producer', hp', hpt'⟩ := Option.map_eq_some_iff.1 hproducer
    exact ⟨hpattern.trans htable, producer', hp', hpt'.trans hpt⟩

end

/-- A unit fits a view of its controller. Under the lock, once a call was made that could fail, no
fault is pending any more. -/
structure Fits {φ : Type} (sim : Simulator) (v : View φ) (tried : Bool) : Prop where
  spent : tried = true → sim.fault = false
  stream : sim.stream.Follows v.table v.paths.driver

section

variable {φ : Type} {sim : Simulator} {v : View φ} {tried : Bool}

/-- A call that fails leaves the driver as it is. It is not the one that takes the driver down, since
by then the fault has met another call and the driver is still there. -/
theorem Fits.fail (h : Fits sim v tried) {call : Call}
    (hmet : sim.fault = true ∨ sim.Refuses .controller call) (hadmits : v.paths.Admits call)
    (hawaits : v.Awaits tried call) (code : Int32) :
    Fits { sim with fault := false } (v.after (.hardware call) (call.fail code))
      (tried || call.op?.isSome) := by
  obtain ⟨hspent, hstream⟩ := h
  refine ⟨fun _ => rfl, ?_⟩
  cases call with
  | deinitContinuous =>
    obtain ⟨bytes, hcreated⟩ := Option.isSome_iff_exists.1 (hstream.created hadmits)
    rcases hmet with hfault | hrefuses
    · rw [hspent hawaits] at hfault
      cases hfault
    · exact absurd (.deinit hcreated) (hrefuses _ _)
  | stopContinuous =>
    -- a driver that is not counted on any more may go on
    have hd : v.paths.driver = some true := hadmits
    show sim.stream.Follows [] v.paths.driver
    rw [hd] at hstream ⊢
    exact ⟨hstream.1, fun hne => absurd rfl hne⟩
  | _ => exact hstream

/-- A call that has its effect has the one on the driver that the view shows. -/
theorem Stream.Follows.does (h : sim.stream.Follows v.table v.paths.driver) {slot : SlotName}
    {call : Call} (hadmits : v.paths.Admits call) (hawaits : v.Awaits tried call)
    {reply : call.Reply} {sim' : Simulator} (hdoes : sim.Does slot call reply sim') :
    sim'.stream.Follows (call.tableAfter v.table reply) (v.paths.after call reply).driver := by
  cases hdoes with
  | create =>
    have hd : v.paths.driver = none := hadmits.2
    rw [hd] at h
    have hnew : sim.stream = {} := h
    exact ⟨rfl, congrArg Stream.pattern hnew, congrArg Stream.producer hnew⟩
  | configure =>
    have hd : v.paths.driver = some false := hawaits
    show Stream.Follows _ _ v.paths.driver
    rw [hd] at h ⊢
    exact ⟨h.1, rfl, h.2.2⟩
  | register =>
    refine Stream.Follows.congr h rfl rfl rfl fun hd => ?_
    have hd : v.paths.driver = none := hd
    have hsome : v.paths.driver.isSome = true := hadmits
    rw [hd] at hsome
    cases hsome
  | start _ _ hcreated _ _ hidle =>
    have hd : v.paths.driver.isSome = true := hadmits
    show Stream.Follows _ _ (v.paths.driver.map fun _ => true)
    match hdriver : v.paths.driver with
    | none =>
      rw [hdriver] at hd
      cases hd
    | some false =>
      rw [hdriver] at h
      exact ⟨Option.isSome_of_mem hcreated, fun _ => ⟨h.2.1, _, rfl, h.2.1⟩⟩
    | some true =>
      -- a driver that makes frames is not started again, and no other is counted on
      rw [hdriver] at h
      refine ⟨Option.isSome_of_mem hcreated, fun hne => ?_⟩
      obtain ⟨-, producer, hp, -⟩ := h.2 hne
      cases hp.symm.trans hidle
  | stop =>
    have hd : v.paths.driver = some true := hadmits
    show Stream.Follows _ [] v.paths.driver
    rw [hd] at h ⊢
    exact ⟨h.1, fun hne => absurd rfl hne⟩
  | deinit => rfl
  | createUnit | configureUnit | read | deleteUnit | openContext | convert | closeContext => exact h

theorem Fits.perform (h : Fits sim v tried) {call : Call} (hadmits : v.paths.Admits call)
    (hawaits : v.Awaits tried call) :
    Fits (sim.perform call).2.2 (v.after (.hardware call) (sim.perform call).1)
      (tried || call.op?.isSome) := by
  rcases sim.perform_cases call with ⟨hdoes, hcalm⟩ | ⟨⟨code, hfail⟩, -, hmet⟩
  · refine ⟨fun htried => ?_, h.stream.does hadmits hawaits hdoes⟩
    rw [hdoes.fault_eq]
    rcases Bool.or_eq_true_iff.1 htried with ht | ht
    · exact h.spent ht
    · exact hcalm ht
  · rw [hfail]
    exact h.fail hmet hadmits hawaits code

/-- A frame that is made leaves the driver as it is. -/
theorem Fits.nextFrame (h : Fits sim v tried) {slot : SlotName} {frame : Frame} {sim' : Simulator}
    (hframe : sim.nextFrame = some (slot, frame, sim')) : Fits sim' v tried := by
  unfold Simulator.nextFrame at hframe
  split at hframe
  · cases hframe
  · rename_i producer hproducer
    split at hframe <;> cases hframe
    refine ⟨h.spent, h.stream.congr rfl rfl ?_ fun hd => ?_⟩
    · rw [hproducer]
      exact congrArg some (producer.pattern_makeRecords _ _)
    · have hstream := h.stream
      rw [hd] at hstream
      rw [show sim.stream = {} from hstream] at hproducer
      cases hproducer

theorem Fits.breakProducer (h : Fits sim v tried) : Fits sim.breakProducer v tried := by
  refine ⟨h.spent, h.stream.congr rfl rfl ?_ fun hd => ?_⟩
  · show (sim.stream.producer.map _).map _ = _
    rw [Option.map_map]
    rfl
  · have hstream := h.stream
    rw [hd] at hstream
    have hnone : sim.stream = {} := hstream
    simp only [Simulator.breakProducer, hnone]
    rfl

end

/-- Where the controller stands soundly, frames are made just while the session is a stream, and
otherwise nothing is left of the continuous path. -/
theorem Fits.at_rest {φ : Type} {sim : Simulator} {v : View φ} {tried : Bool}
    (h : Simulator.Fits sim v tried) (hs : v.Sound) :
    (v.session ≠ .continuous → sim.stream = {}) ∧
      (v.session = .continuous → v.table ≠ [] → sim.stream.pattern = v.table ∧
        ∃ producer, sim.stream.producer = some producer ∧ producer.pattern = v.table) := by
  have hfollows := h.stream
  constructor
  · intro hsession
    have hd : v.paths.driver = none := by
      cases hdriver : v.paths.driver with
      | none => rfl
      | some started => exact absurd (hs.driver_iff.1 (by rw [hdriver]; rfl)) hsession
    rw [hd] at hfollows
    exact hfollows
  · intro hsession hne
    obtain ⟨-, callback, heq⟩ := hs.eq_continuous hsession
    have hd : v.paths.driver = some true := congrArg Paths.driver (congrArg Standing.paths heq)
    rw [hd] at hfollows
    exact hfollows.2 hne

/-! ## A rig by itself -/

/-- A rig with some settings, whose unit fits the view. -/
structure Rig.Fits (config : Config) (r : Rig) (v : View Consumer) (tried : Bool) : Prop where
  config : r.config = config
  unit : Simulator.Fits r.sim v tried

theorem Rig.Fits.forget {config : Config} {r : Rig} {v : View Consumer} {tried : Bool}
    (h : r.Fits config v tried) : r.Fits config v false :=
  ⟨h.config, nofun, h.unit.stream⟩

theorem Rig.Fits.answered {config : Config} {r : Rig} {v : View Consumer} {tried : Bool}
    (h : r.Fits config v tried) {q : Question Range Consumer}
    (hcalls : ∀ call, q = .hardware call → v.paths.Admits call ∧ v.Awaits tried call) :
    ((Rig.answer q).run r).2.Fits config (v.after q ((Rig.answer q).run r).1)
      (tried || q.tries) := by
  cases q with
  | hardware call =>
    obtain ⟨hadmits, hawaits⟩ := hcalls call rfl
    exact ⟨h.config, h.unit.perform hadmits hawaits⟩
  | _ =>
    refine ⟨h.config, fun htried => h.unit.spent ?_, h.unit.stream⟩
    exact (Bool.or_false tried).symm.trans htried

theorem Rig.Fits.deliverNext {config : Config} {r : Rig} {v : View Consumer} {tried : Bool}
    (h : r.Fits config v tried) : ((Rig.deliverNext).run r).2.Fits config v tried := by
  rcases r.deliverNext_cases with hsame | ⟨slot, frame, sim, hframe, hspare | ⟨sim', hsim, hhanded⟩⟩
  · rw [hsame]
    exact h
  · rw [hspare]
    exact ⟨h.config, h.unit.nextFrame hframe⟩
  · rw [hhanded]
    have hmade := h.unit.nextFrame hframe
    rcases hsim with rfl | rfl
    · exact ⟨h.config, hmade⟩
    · exact ⟨h.config, hmade.breakProducer⟩

/-- A rig as surroundings, where nothing happens besides questions. -/
def bench : Setting Range Consumer where
  Question := Question Range Consumer
  Answer := Answer
  State := Rig
  Event := Empty
  concern q := some ⟨q, id⟩
  shared := Rig.shared
  answer := Rig.answer
  happen _ := nofun
  answers := by
    intro r q c hq
    cases hq
    cases q <;> exact ⟨fun _ => rfl, rfl, fun _ => by first | rfl | trivial⟩
  beside := by
    intro r q hq
    cases hq
  events _ := nofun

theorem bench_wording : bench.Wording .query := by
  intro T rules free q mode post h
  have hput : bench.concern q = some ⟨q, id⟩ := rfl
  exact Program.Obeys.asked hput h

theorem bench_fitting (config : Config) : bench.Fitting (Rig.Fits config) where
  forget := Rig.Fits.forget
  beside hq := by cases hq
  answers {r v tried q c} hq hcalls h := by
    cases hq
    exact h.answered hcalls

end SharedAdc.Simulator
