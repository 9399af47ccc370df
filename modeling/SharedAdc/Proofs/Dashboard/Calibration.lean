/-
The calibration of stream readings. A tick calibrates with the attenuation that is set at the dashboard
by then, while frames are made with the one that was set when the stream was started; the two are the
same just when the attenuation key was pressed a multiple of four times in between.
-/
import Mathlib.Dynamics.PeriodicPts.Defs
import SharedAdc.Proofs.Dashboard.Readings
import SharedAdc.Proofs.Dashboard.Sessions

namespace SharedAdc

/-- The range after its attenuation was turned on a number of times. -/
def Range.turned (range : Range) (turns : Nat) : Range :=
  ⟨Attenuation.next^[turns] range.attenuation, range.width⟩

/-- There are four attenuations to turn through. -/
theorem Range.turned_eq_iff (range : Range) (turns : Nat) :
    range.turned turns = range ↔ turns % 4 = 0 := by
  obtain ⟨a, width⟩ := range
  have hround : Function.IsPeriodicPt Attenuation.next 4 a := by cases a <;> rfl
  have hless : ∀ n : Fin 4, Attenuation.next^[n.val] a = a ↔ n.val = 0 := by
    cases a <;> decide
  have hmod := hround.iterate_mod_apply turns
  rw [Range.turned, ← hmod, Range.mk.injEq]
  exact (and_iff_left rfl).trans (hless ⟨turns % 4, Nat.mod_lt _ (by decide)⟩)

namespace Dashboard

open Controller (Pact Setting View)
open Simulator (millivolts?)

/-! ## A dashboard by itself -/

/-- The rig of a dashboard, whose unit fits the view. -/
abbrev Rig.Fits (config : Config) (r : Rig) (v : View Consumer) (tried : Bool) : Prop :=
  r.rig.Fits config v tried

theorem desk_fitting (config : Config) : desk.Fitting (Rig.Fits config) where
  forget := Simulator.Rig.Fits.forget
  beside {r v q} hq h := by
    cases q with
    | controller q => cases hq
    | input | setInput | injectFault | takeAverage | resetAverages | say =>
      exact ⟨h.config, nofun, h.unit.stream⟩
  answers {r v tried q c} hq hcalls h := by
    cases q with
    | controller q =>
      cases hq
      have hafter := h.answered hcalls
      exact ⟨hafter.config, hafter.unit⟩
    | input | setInput | injectFault | takeAverage | resetAverages | say => cases hq

/-- The controller is at rest, and the unit fits its view. -/
abbrev Rig.Rests (config : Config) : Rig → View Consumer → Prop :=
  desk.Rests .steady (Rig.Fits config)

/-- What is done at a desk, or happens there in between. -/
inductive Move where
  | give (input : Input)
  | happen (event : Happening)

/-- The presses of the attenuation key since the stream key was pressed, after one more move. -/
def Move.turns (turns : Nat) : Move → Nat
  | .give input => input.turns turns
  | .happen _ => turns

def Rig.make (r : Rig) : Move → Rig
  | .give input => ((Rig.run fun config d => input.change config d).run r).2
  | .happen event => r.meet event

/-- The rig after moves that are made in turn. -/
def Rig.through (r : Rig) (moves : List Move) : Rig := moves.foldl Rig.make r

/-- A new dashboard on a new controller with a new unit. -/
def Rig.new (config : Config) (settings : Simulator.Settings) : Rig :=
  { rig := .new config settings }

section

variable {config : Config} {turns : Nat} {r : Rig} {v : View Consumer}

theorem dashboard_run {α : Type} (p : Action Range α) (r : Rig) :
    ((p.run Rig.answer).run r).2.dashboard = r.dashboard := by
  induction p generalizing r with
  | done a => rfl
  | ask q next ih =>
    have hq : ((Rig.answer q).run r).2.dashboard = r.dashboard := by cases q <;> rfl
    exact (ih _ _).trans hq

/-- What an input makes of the dashboard, and the rig before that is shown. -/
def Rig.changed (r : Rig) (input : Input) : Change × Rig :=
  ((input.change r.rig.config r.dashboard).run Rig.answer).run r

theorem Rig.make_give (r : Rig) (input : Input) :
    r.make (.give input) = (((report (r.changed input).1.1).run Rig.answer).run
      { (r.changed input).2 with dashboard := (r.changed input).1.2 }).2 := rfl

theorem Rig.dashboard_make_give (r : Rig) (input : Input) :
    (r.make (.give input)).dashboard = (r.changed input).1.2 := by
  rw [Rig.make_give, dashboard_run]

/-- After an input the controller is at rest again, and the dashboard agrees with it. -/
theorem Rig.Rests.give (h : r.Rests config v) (hd : Agrees config turns r.dashboard v)
    (input : Input) : ∃ v', (r.make (.give input)).Rests config v' ∧
      Agrees config (input.turns turns) (r.make (.give input)).dashboard v' := by
  have hchange : desk.Keeps (Pact.leader .steady) (input.change r.rig.config r.dashboard) v
      fun c v => Agrees config (input.turns turns) c.2 v := by
    rw [h.fits.config]
    exact change_agrees hd input
  obtain ⟨last, v₁, hrests, hsteady, hagrees⟩ := hchange.alone (desk_fitting config) h
  have hshown : Rig.Rests config
      { (r.changed input).2 with dashboard := (r.changed input).1.2 } v₁ :=
    hrests.of_same ⟨fun _ => rfl, rfl⟩ hrests.fits
  obtain ⟨_, v₂, hrests₂, hsteady₂, rfl⟩ :=
    (report_keeps (r.changed input).1.1).alone (desk_fitting config) hshown
  refine ⟨v₂, hrests₂, ?_⟩
  rw [Rig.dashboard_make_give]
  exact (hagrees.steady hsteady).steady hsteady₂

theorem Rig.Rests.happen (h : r.Rests config v) (event : Happening) :
    (r.meet event).Rests config v := by
  refine Setting.Rests.of_same h (desk.events r event) ?_
  cases event with
  | frame =>
    have hframe := h.fits.deliverNext
    exact ⟨hframe.config, hframe.unit⟩
  | fault => exact ⟨h.fits.config, nofun, h.fits.unit.stream⟩

theorem Rig.Rests.through (h : r.Rests config v) (hd : Agrees config turns r.dashboard v)
    (moves : List Move) : ∃ v', (r.through moves).Rests config v' ∧
      Agrees config (moves.foldl Move.turns turns) (r.through moves).dashboard v' := by
  induction moves generalizing r v turns with
  | nil => exact ⟨v, h, hd⟩
  | cons move moves ih =>
    cases move with
    | give input =>
      obtain ⟨v', h', hd'⟩ := h.give hd input
      exact ih h' hd'
    | happen event =>
      have hsame : (r.meet event).dashboard = r.dashboard := by cases event <;> rfl
      refine ih (h.happen event) ?_
      show Agrees config turns (r.meet event).dashboard v
      rw [hsame]
      exact hd

/-! ## Readings of a stream -/

/-- The table that frames are made from. -/
def Rig.running (r : Rig) : List PatternEntry :=
  (r.rig.sim.stream.producer.map Simulator.Producer.pattern).getD []

/-- The channels that a tick reads. -/
def Rig.channels (r : Rig) : List Channel := (r.dashboard.streaming.map Mask.toList).getD []

/-- Frames are made just of the channels that a tick reads, with the attenuation that was set when the
stream was started. -/
theorem Rig.Rests.running (h : r.Rests config v) (hd : Agrees config turns r.dashboard v) :
    ∃ a, r.running = r.channels.map (⟨·, ⟨a, config.width⟩⟩) ∧
      (r.channels ≠ [] → r.dashboard.attenuation = Attenuation.next^[turns] a) := by
  obtain ⟨hreset, hgoes⟩ := h.fits.unit.at_rest h.sound
  unfold Rig.running Rig.channels
  cases hs : r.dashboard.streaming with
  | none =>
    have hsession : v.session ≠ .continuous := by
      intro hsession
      have hsome := (hd.streaming v.reservation.active).2 (by rw [← hsession])
      rw [hs] at hsome
      cases hsome
    rw [hreset hsession]
    exact ⟨.db0, rfl, fun hne => absurd rfl hne⟩
  | some m =>
    obtain ⟨a, htable, hturned⟩ := hd.table m hs
    have hsession : v.session = .continuous := congrArg Reservation.session ((hd.streaming m).1 hs)
    have hne : v.table ≠ [] := by
      rw [htable]
      simpa using toList_ne_nil (hd.proper m hs)
    obtain ⟨-, producer, hproducer, hmade⟩ := hgoes hsession hne
    rw [hproducer]
    exact ⟨a, hmade.trans htable, fun _ => hturned⟩

/-- A tick reads just the channels of the table, and by the range of each entry as it is turned by
then. -/
theorem Rig.Rests.entries (h : r.Rests config v) (hd : Agrees config turns r.dashboard v) :
    (∀ entry ∈ r.running, entry.channel ∈ r.channels ∧
      (⟨r.dashboard.attenuation, config.width⟩ : Range) = entry.range.turned turns) ∧
    ∀ c ∈ r.channels, ∃ entry ∈ r.running, entry.channel = c := by
  obtain ⟨a, hrunning, hturned⟩ := h.running hd
  rw [hrunning]
  refine ⟨fun entry hentry => ?_, fun c hc => ⟨_, List.mem_map_of_mem hc, rfl⟩⟩
  obtain ⟨c, hc, rfl⟩ := List.mem_map.1 hentry
  rw [hturned (List.ne_nil_of_mem hc)]
  exact ⟨hc, rfl⟩

end

/-- After any inputs, with frames and faults in between, a tick calibrates the average of a channel with
the range that the running stream converts it with, turned on by as many attenuations as the key was
pressed since the stream key. What it shows is the voltage by that range, which is the range of the
conversions just for a multiple of four presses. -/
theorem tick_calibrates_turned (config : Config) (settings : Simulator.Settings)
    (moves : List Move) :
    let r := (Rig.new config settings).through moves
    let turns := moves.foldl Move.turns 0
    (r.dashboard.tick config : Action Range Change).Obeys (reading fun c range =>
      ∃ entry ∈ r.running, entry.channel = c ∧ range = entry.range.turned turns) r.averages
      (fun _ _ => True) ∧
    (((Rig.run fun config d => d.tick config).run r).1 = .ok () →
      ∀ entry ∈ r.running, ∀ raw, (r.averages.take entry.channel).1 = some raw →
        ∃ mv, millivolts? (entry.range.turned turns) raw = some mv ∧
          (r.make (.give .tick)).dashboard.streamed entry.channel = some mv) ∧
    ∀ entry ∈ r.running, entry.range.turned turns = entry.range ↔ turns % 4 = 0 := by
  intro r turns
  have hnew : (Rig.new config settings).Rests config {} :=
    ⟨rfl, rfl, .idle, nofun, trivial, ⟨rfl, nofun, rfl⟩⟩
  obtain ⟨v, hrests, hagrees⟩ : ∃ v, r.Rests config v ∧ Agrees config turns r.dashboard v :=
    hnew.through agrees_new moves
  obtain ⟨hset, hlisted⟩ := hrests.entries hagrees
  have hallowed : ∀ c ∈ r.channels, ∃ entry ∈ r.running, entry.channel = c ∧
      (⟨r.dashboard.attenuation, config.width⟩ : Range) = entry.range.turned turns := by
    intro c hc
    obtain ⟨entry, hentry, hchannel⟩ := hlisted c hc
    exact ⟨entry, hentry, hchannel, (hset entry hentry).2⟩
  have htick : (r.dashboard.tick config : Action Range Change).Obeys (reading fun c range =>
      ∃ entry ∈ r.running, entry.channel = c ∧ range = entry.range.turned turns) r.averages
      fun changed _ => changed.1 = .ok () → Reads r.channels
        ⟨r.dashboard.attenuation, config.width⟩ r.averages r.dashboard changed.2 :=
    tick_reads r.dashboard hallowed
  refine ⟨htick.mono fun _ _ _ => trivial, fun hok entry hentry raw hraw => ?_,
    fun entry _ => entry.range.turned_eq_iff turns⟩
  obtain ⟨hchannel, hrange⟩ := hset entry hentry
  have hrun : r.changed .tick = ((r.dashboard.tick config).run Rig.answer).run r := by
    rw [← hrests.fits.config]
    rfl
  have hresult : (r.changed .tick).1.1 = .ok () := hok
  have hread := Program.Obeys.run (reading_answer _) htick
  rw [← hrun] at hread
  obtain ⟨mv, hmv, hshown⟩ := (hread hresult).read _ hchannel raw hraw
  rw [hrange] at hmv
  refine ⟨mv, hmv, ?_⟩
  rw [Rig.dashboard_make_give]
  exact hshown

/-- The stream key, then the attenuation key `presses` times; a frame arrives. -/
def turnedStream (presses : Nat) : List Move :=
  .give (.key (.char 'c' false)) ::
    (List.replicate presses (.give (.key (.char 'a' false))) ++ [.happen .frame])

/-- After four presses the attenuation is that of the stream again. -/
theorem tick_calibrates_full_turn :
    let r := (Rig.new {} { noise := 0 }).through (turnedStream 4)
    ∃ mv, millivolts? ⟨.db12, .bits12⟩ 2179 = some mv ∧
      (r.make (.give .tick)).dashboard.streamed 0 = some mv := by
  obtain ⟨-, hshown, hturned⟩ := tick_calibrates_turned {} { noise := 0 } (turnedStream 4)
  have hentry : (⟨0, ⟨.db12, .bits12⟩⟩ : PatternEntry) ∈
      ((Rig.new {} { noise := 0 }).through (turnedStream 4)).running := by decide +kernel
  obtain ⟨mv, hmv, hread⟩ := hshown (by decide +kernel) _ hentry 2179 (by decide +kernel)
  rw [(hturned _ hentry).2 (by decide)] at hmv
  exact ⟨mv, hmv, hread⟩

/-- After one press the reading of the stream is off: 505 are shown where 1649 millivolts were
converted. -/
theorem stream_misread_after_turn :
    let r := (Rig.new {} { noise := 0 }).through (turnedStream 1)
    (⟨0, ⟨.db12, .bits12⟩⟩ : PatternEntry) ∈ r.running ∧ (r.averages.take 0).1 = some 2179 ∧
      millivolts? ⟨.db12, .bits12⟩ 2179 = some 1649 ∧
      (r.make (.give .tick)).dashboard.streamed 0 = some 505 := by
  decide +kernel

end Dashboard

end SharedAdc
