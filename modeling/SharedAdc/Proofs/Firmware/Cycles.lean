/-
The cycles of the main task clean up after themselves. A cycle that fails leaves its session as it
is, and only a fault of the hardware is answered with a fresh start. That is enough: any other error
that a cycle can meet while its session is live says that a battery monitor has started afresh in the
meantime, and nothing of the session is left.
-/
import SharedAdc.Proofs.Firmware.Board

namespace SharedAdc.Firmware

open SharedAdc.Controller (Arms Behaves Crew Disarms Pact Restarts Setting Standing Starts Stops View)

/-! ## What a cycle can count on -/

/-- No callback is installed, no channel is armed and no stream runs. -/
structure Tidy (v : View Consumer) : Prop where
  armed : v.armed = none
  callback : v.callback = none
  session : v.session ≠ .continuous

/-- The main task is streaming: if a session lasts, it is the stream. -/
def Streaming (v : View Consumer) : Prop :=
  v.session.Lasts → v.reservation = ⟨streamMask, .continuous⟩

/-- The main task is polling: if a channel is armed, it is the microphone. -/
structure Polling (v : View Consumer) : Prop where
  armed : ∀ c, v.armed = some c → c = microphone
  callback : v.callback = none
  session : v.session ≠ .continuous

section

variable {v v' : View Consumer}

theorem ne_continuous_of_ebbing (h : v.session ≠ .continuous) (hv : v.Ebbing v') :
    v'.session ≠ .continuous := by
  intro hsession
  have hsame := hv.lasting (by rw [hsession]; trivial)
  exact h ((congrArg Reservation.session hsame).symm.trans hsession)

namespace Tidy

theorem fresh (table : List PatternEntry) : Tidy { table } := ⟨rfl, rfl, nofun⟩

theorem of_sound (hs : v.Sound) (h : ¬v.session.Lasts) : Tidy v := by
  obtain ⟨standing, table⟩ := v
  cases hs with
  | idle => exact ⟨rfl, rfl, nofun⟩
  | reserved | oneShot => exact ⟨rfl, rfl, nofun⟩
  | timeCritical | continuous => exact absurd trivial h

theorem ebbing (h : Tidy v) (hv : v.Ebbing v') : Tidy v' where
  armed := by simpa [h.armed] using hv.armed
  callback := by simpa [h.callback] using hv.callback
  session := ne_continuous_of_ebbing h.session hv

/-- Where nobody is under the lock, no session lasts. -/
theorem not_lasts (h : Tidy v) (hs : v.Sound) : ¬v.session.Lasts := by
  have harmed := hs.armed_iff
  cases hsession : v.session with
  | timeCritical c =>
    have hc := (harmed c).2 hsession
    rw [h.armed] at hc
    cases hc
  | continuous => exact absurd hsession h.session
  | idle | reserved | oneShot => exact id

/-- With no burst under way and nothing reserved in advance, the unit is idle. -/
theorem idle (h : Tidy v) (hs : v.Sound) (hburst : v.session ≠ .oneShot)
    (hreserved : v.session ≠ .reserved) : v.reservation = .idle := by
  have hshort := h.not_lasts hs
  obtain ⟨standing, table⟩ := v
  cases hs with
  | idle => rfl
  | reserved => exact absurd rfl hreserved
  | oneShot => exact absurd rfl hburst
  | timeCritical | continuous => exact absurd trivial hshort

end Tidy

theorem Streaming.ebbing (h : Streaming v) (hv : v.Ebbing v') : Streaming v' := by
  intro hlasts
  have hsame := hv.lasting hlasts
  rw [View.session, hsame] at hlasts
  rw [hsame]
  exact h hlasts

namespace Polling

theorem ebbing (h : Polling v) (hv : v.Ebbing v') : Polling v' where
  armed c hc := by
    rcases hv.armed with hsame | hnone
    · exact h.armed c (hsame.symm.trans hc)
    · rw [hnone] at hc
      cases hc
  callback := by simpa [h.callback] using hv.callback
  session := ne_continuous_of_ebbing h.session hv

/-- Where the microphone is not armed, nothing is left of the polling. -/
theorem tidy (h : Polling v) (hne : v.armed ≠ some microphone) : Tidy v where
  armed := by
    cases hv : v.armed with
    | none => rfl
    | some c =>
      obtain rfl := h.armed c hv
      exact absurd hv hne
  callback := h.callback
  session := h.session

end Polling

end

/-- What a cycle leaves is tidy, unless its error asks for a fresh start. -/
def Leaves {α : Type} (result : Except AdcError α) (v : View Consumer) : Prop :=
  (∀ e, result = .error e → e.requiresReinit = false) → Tidy v

theorem Leaves.of_tidy {α : Type} {result : Except AdcError α} {v : View Consumer} (h : Tidy v) :
    Leaves result v := fun _ => h

theorem Leaves.of_fault {α : Type} {e : AdcError} {v : View Consumer}
    (h : e.requiresReinit = true) : Leaves (.error e : Except AdcError α) v := fun hnone => by
  rw [hnone e rfl] at h
  cases h

/-! ## Single steps -/

section

variable {config : Config} {custom : Controller.Custom Consumer} {last : View Consumer}

/-- What the controller is asked to do for a routine, and what comes of it. -/
theorem operate_keeps {α : Type} {p : Controller.Operation Vendor.Handle Consumer α}
    (hp : Behaves p) {deal : α → View Consumer → View Consumer → Prop}
    (h : p.Obeys (Controller.watch custom) (.away last) (custom.Ends last deal)) :
    board.Keeps custom (operate p) last fun a v' => ∃ v, custom.relies last v ∧ deal a v v' :=
  Setting.Keeps.operate_ends board_wording hp h

theorem calibrate_keeps (channel : Channel) (attenuation : Attenuation) (samples : List UInt16) :
    board.Keeps custom (operate (Controller.calibrate config channel attenuation samples)) last
      fun r v => v = last ∧ ∀ e, r.1 = .error e → samples = [] ∨ e.requiresReinit = true :=
  Setting.Keeps.calibrate board_wording config channel attenuation samples

theorem say_keeps {α : Type} (level : LogLevel) (message : String)
    {f : Unit → Routine Vendor.Handle α} {post : α → View Consumer → Prop}
    (h : board.Keeps custom (f ()) last post) :
    board.Keeps custom ((say level message).bind f) last post :=
  Setting.Keeps.beside (S := board) (q := .say ⟨level, message⟩) rfl fun _ => h

theorem warn_keeps (level : LogLevel) (message : String) :
    board.Keeps custom (say level message) last fun _ v => v = last := by
  have h : board.Keeps custom ((say level message).bind .done) last fun _ v => v = last :=
    say_keeps level message (.done rfl)
  rwa [Program.bind_pure] at h

theorem frameCounts_keeps :
    board.Keeps custom (operate (Controller.ask .frameCounts)) last fun _ v => v = last := by
  refine Setting.Keeps.operate board_wording (Controller.obeys_ask_frameCounts _ |>.2 ?_) ?_
  · exact fun _ => ⟨none, rfl⟩
  · exact (Controller.watch_frameCounts _).2 fun _ => ⟨last, rfl, rfl⟩

/-- A fresh start leaves nothing, whatever there was; it is turned down only during a burst. -/
theorem reinit_keeps (hebbs : custom.Ebbs) :
    board.Keeps custom (operate Controller.reinit) last fun _ v => Tidy v := by
  refine (operate_keeps Controller.reinit_behaves (Controller.reinit_watched hebbs)).mono ?_
  rintro result v' ⟨v, -, hrestart⟩
  cases hrestart with
  | refused hs hone => exact .of_sound hs (by rw [hone]; exact id)
  | restarted table => exact .fresh table

theorem recover_keeps (hebbs : custom.Ebbs) (e : AdcError) :
    board.Keeps custom (recover e) last
      fun _ v => Tidy v ∨ e.requiresReinit = false ∧ v = last := by
  unfold recover
  split
  · refine say_keeps _ _ ((reinit_keeps hebbs).bind ?_)
    rintro result v hv
    exact .done (.inl hv)
  · rename_i hkind
    refine (warn_keeps _ _).mono ?_
    rintro _ _ rfl
    exact .inr ⟨by simpa using hkind, rfl⟩

/-- A cycle that leaves things tidy or asks for a fresh start is tidied up after. -/
theorem recovering_keeps (hebbs : custom.Ebbs)
    {cycle : Routine Vendor.Handle (Except AdcError Unit)}
    (h : board.Keeps custom cycle last Leaves) :
    board.Keeps custom (recovering cycle) last fun _ v => Tidy v := by
  refine h.bind ?_
  rintro (e | ⟨⟩) v hv
  · refine (recover_keeps hebbs e).bind ?_
    rintro _ v' (hv' | ⟨hkind, rfl⟩)
    · exact .done hv'
    · refine .done (hv ?_)
      rintro _ ⟨⟩
      exact hkind
  · exact .done (hv nofun)

end

/-! ## Streaming -/

section

variable {config : Config} {last : View Consumer}

/-- A report leaves the stream alone, and fails only by a fault of the hardware. -/
theorem reportChannels_keeps {custom : Controller.Custom Consumer} (channels : List Channel) :
    board.Keeps custom (reportChannels config channels) last
      fun r v => v = last ∧ ∀ e, r = .error e → e.requiresReinit = true := by
  induction channels with
  | nil => exact .done ⟨rfl, nofun⟩
  | cons channel channels ih =>
    refine Setting.Keeps.beside (S := board) (q := .takeAverage channel) rfl fun average => ?_
    cases average with
    | none => exact say_keeps _ _ ih
    | some raw =>
      refine (calibrate_keeps channel attenuation [raw]).bind ?_
      rintro ⟨e | ⟨⟩, samples⟩ _ ⟨rfl, hfault⟩
      · refine .done ⟨rfl, ?_⟩
        rintro _ ⟨⟩
        exact (hfault e rfl).resolve_left (by simp)
      · exact say_keeps _ _ ih

theorem reportSeconds_keeps {custom : Controller.Custom Consumer} (n : Nat) :
    board.Keeps custom (reportSeconds config n) last
      fun r v => v = last ∧ ∀ e, r = .error e → e.requiresReinit = true := by
  induction n with
  | zero => exact .done ⟨rfl, nofun⟩
  | succ n ih =>
    refine Setting.Keeps.beside (S := board) (q := .delay 1000) rfl fun _ => ?_
    refine (reportChannels_keeps _).bind ?_
    rintro (e | ⟨⟩) _ ⟨rfl, hfault⟩
    · exact .done ⟨rfl, hfault⟩
    · exact ih

theorem streamStarted_leaves (h : Tidy last) {v v' : View Consumer} {result : Except AdcError Unit}
    (hv : last.Ebbing v) (hstart : Starts config streamRequest result v v') :
    match result with
    | .error e => Leaves (.error e : Except AdcError Unit) v'
    | .ok () => Streaming v' := by
  cases hstart with
  | refused he => exact .of_tidy (h.ebbing hv)
  | failed hshort table => exact .of_fault rfl
  | swapped hs hr callback =>
    exact absurd (congrArg Reservation.session hr) (h.ebbing hv).session
  | started hm hshort callback => exact fun _ => rfl

/-- Stopping is refused only where a fresh start was made before. -/
theorem streamStopped_tidy (h : Streaming last) {v v' : View Consumer}
    {result : Except AdcError Unit} (hv : last.Ebbing v) (hstop : Stops streamMask result v v') :
    Tidy v' := by
  cases hstop with
  | refused he hnot =>
    obtain ⟨hs, hne⟩ := hnot rfl
    exact .of_sound hs fun hlasts => hne (h.ebbing hv hlasts)
  | stopped hr table => exact .fresh table

theorem streamCycle_leaves (h : Tidy last) :
    board.Keeps (Pact.leader .ebbing) (streamCycle config) last Leaves := by
  refine Setting.Keeps.beside (S := board) (q := .resetAverages) rfl fun _ => ?_
  refine (operate_keeps (Controller.startContinuous_behaves _ _)
    (Controller.startContinuous_watched (Pact.leader_free _) _ _)).bind ?_
  rintro (e | ⟨⟩) v' ⟨v, hv, hstart⟩
  · exact .done (streamStarted_leaves h hv hstart)
  · have hstreaming : Streaming v' := streamStarted_leaves h hv hstart
    refine (reportSeconds_keeps 5).bind ?_
    rintro (e | ⟨⟩) _ ⟨rfl, hfault⟩
    · exact .done (.of_fault (hfault e rfl))
    · refine (operate_keeps (Controller.stopContinuous_behaves _)
        (Controller.stopContinuous_watched (Pact.leader_free _).ebbs _)).bind ?_
      rintro result u' ⟨u, hu, hstop⟩
      have htidy : Tidy u' := streamStopped_tidy hstreaming hu hstop
      cases result with
      | error e => exact .done (.of_tidy htidy)
      | ok =>
        refine frameCounts_keeps.bind ?_
        rintro ⟨delivered, dropped⟩ _ rfl
        exact say_keeps _ _ (.done (.of_tidy htidy))

/-! ## Loudness -/

theorem pollWindow_keeps (h : Polling last) (n : Nat) (low high : UInt16) :
    board.Keeps (Pact.leader .ebbing) (pollWindow n low high) last
      fun r v => match r with
        | .error e => Leaves (.error e : Except AdcError Unit) v
        | .ok _ => Polling v := by
  induction n generalizing last low high with
  | zero => exact .done h
  | succ n ih =>
    refine (operate_keeps (Controller.sampleTimeCritical_behaves _ _)
      (Controller.sampleTimeCritical_watched _ _)).bind ?_
    rintro (e | raw) _ ⟨v, hv, rfl, hother⟩
    · refine .done fun hkind => ?_
      rcases hother e rfl (hkind e rfl) with hzero | hne
      · cases hzero
      · exact (h.ebbing hv).tidy hne
    · exact Setting.Keeps.beside (S := board) (q := .delay 10) rfl fun _ => ih (h.ebbing hv) _ _

theorem micArmed_leaves (h : Tidy last) {v v' : View Consumer} {result : Except AdcError Unit}
    (hv : last.Ebbing v) (harm : Arms microphone result v v') :
    match result with
    | .error e => Leaves (.error e : Except AdcError Unit) v'
    | .ok () => Polling v' := by
  cases harm with
  | refused he => exact .of_tidy (h.ebbing hv)
  | failed => exact .of_fault rfl
  | disarmed hsession => exact .of_fault rfl
  | armed hwas => exact ⟨fun c hc => (Option.some.inj hc).symm, rfl, nofun⟩

/-- Releasing is refused only where a fresh start was made before. -/
theorem micReleased_tidy (h : Polling last) {v v' : View Consumer} {result : Except AdcError Unit}
    (hv : last.Ebbing v) (hdisarm : Disarms microphone result v v') : Tidy v' := by
  cases hdisarm with
  | refused he hs hne =>
    exact (h.ebbing hv).tidy fun harmed => hne ((hs.armed_iff microphone).1 harmed)
  | disarmed => exact .fresh _

theorem loudnessCycle_leaves (h : Tidy last) :
    board.Keeps (Pact.leader .ebbing) (loudnessCycle config) last Leaves := by
  refine (operate_keeps (Controller.setupTimeCritical_behaves _ _ _)
    (Controller.setupTimeCritical_watched (Pact.leader_free _) _ _ _)).bind ?_
  rintro (e | ⟨⟩) v' ⟨v, hv, harm⟩
  · exact .done (micArmed_leaves h hv harm)
  · refine (pollWindow_keeps (micArmed_leaves h hv harm) 100 65535 0).bind ?_
    rintro (e | ⟨low, high⟩) w hw
    · exact .done hw
    · refine (operate_keeps (Controller.releaseTimeCritical_behaves _)
        (Controller.releaseTimeCritical_watched (Pact.leader_free _) _)).bind ?_
      rintro result u' ⟨u, hu, hdisarm⟩
      have htidy : Tidy u' := micReleased_tidy hw hu hdisarm
      cases result with
      | error e => exact .done (.of_tidy htidy)
      | ok => exact say_keeps _ _ (.done (.of_tidy htidy))

/-! ## The main loop -/

theorem streamed_tidy (h : Tidy last) :
    board.Keeps (Pact.leader .ebbing) (recovering (streamCycle config)) last fun _ v => Tidy v :=
  recovering_keeps (Pact.leader_free _).ebbs (streamCycle_leaves h)

theorem mainLoop_tidy (h : Tidy last) (turns : Nat) :
    board.Keeps (Pact.leader .ebbing) (mainLoop config turns) last fun _ v => Tidy v := by
  induction turns generalizing last with
  | zero => exact .done h
  | succ turns ih =>
    refine (streamed_tidy h).bind ?_
    rintro _ v hv
    refine (recovering_keeps (Pact.leader_free _).ebbs (loudnessCycle_leaves hv)).bind ?_
    rintro _ v' hv'
    exact ih hv'

theorem mainTask_tidy (h : Tidy last) (turns : Nat) (streamed : Bool) :
    board.Keeps (Pact.leader .ebbing) (mainTask config turns streamed) last fun _ v => Tidy v := by
  refine (mainLoop_tidy h turns).bind ?_
  rintro _ v hv
  cases streamed with
  | false => exact .done hv
  | true =>
    refine (streamed_tidy hv).bind ?_
    rintro _ v' hv'
    exact .done hv'

/-! ## The battery monitor -/

/-- A monitor begins no session that lasts, and takes one down only to start afresh. -/
theorem batteryRound_keeps :
    board.Keeps (Pact.other .ebbing) (batteryRound config) last fun _ _ => True := by
  refine (operate_keeps (Controller.sampleOnce_behaves _ _ _ _)
    (Controller.sampleOnce_watched _ _ _ _)).bind ?_
  rintro (e | raw) v -
  · dsimp only
    split
    · exact (warn_keeps _ _).mono fun _ _ _ => trivial
    · exact (recover_keeps id e).mono fun _ _ _ => trivial
  · refine (calibrate_keeps _ _ _).bind ?_
    rintro ⟨e | ⟨⟩, samples⟩ _ ⟨rfl, -⟩
    · exact (warn_keeps _ _).mono fun _ _ _ => trivial
    · exact (warn_keeps _ _).mono fun _ _ _ => trivial

theorem batteryMonitor_keeps (rounds : Nat) :
    board.Keeps (Pact.other .ebbing) (batteryMonitor config rounds) last fun _ _ => True := by
  induction rounds generalizing last with
  | zero => exact .done trivial
  | succ rounds ih =>
    refine Setting.Keeps.beside (S := board) (q := .delay batteryPeriod) rfl fun _ => ?_
    exact batteryRound_keeps.bind fun _ _ _ => ih

end

/-! ## Runs -/

section

variable {config : Config} {driver : Vendor.Driver} {turns : Nat} {streamed : Bool}
  {monitors : List Nat}

theorem crew_keeps {i : Nat} {p : board.Party Unit}
    (hi : (crew config driver turns streamed monitors).parties[i]? = some p) :
    board.Keeps (Pact.customs .ebbing i) p {} fun _ v => i = 0 → Tidy v := by
  cases i with
  | zero =>
    cases hi
    exact (mainTask_tidy (.fresh []) turns streamed).mono fun _ _ hv _ => hv
  | succ i =>
    have hm : (monitors.map (batteryMonitor config))[i]? = some p := hi
    obtain ⟨rounds, -, rfl⟩ := List.mem_map.1 (List.mem_of_getElem? hm)
    exact (batteryMonitor_keeps rounds).mono fun _ _ _ hzero => absurd hzero (Nat.succ_ne_zero i)

/-- Once the main task is through, things are tidy and stay so. -/
theorem tidy_run {actions : List (Crew.Action board)}
    (hdone : ((crew config driver turns streamed monitors).run actions).result? 0 = some ()) :
    ∃ g, Crew.Watched (Pact.customs .ebbing) (fun i _ v => i = 0 → Tidy v)
      ((crew config driver turns streamed monitors).run actions) g ∧ Tidy g.view := by
  obtain ⟨g, hg⟩ := Crew.watched_run (Pact.compatible .ebbing) (S := board)
    (c := crew config driver turns streamed monitors) rfl crew_keeps actions
  obtain ⟨-, last, hlast, hpost⟩ := hg.finished hdone
  exact ⟨g, hg, (hpost rfl).ebbing hlast⟩

/-- Whatever the driver replies and however the monitors come in between: whenever the main task has
come to the end of a cycle, the slot is empty, no channel is armed and no stream runs. Nor does
whoever gets the lock find a time-critical session, and without the lock nobody can look at the
session; only while a monitor is still starting afresh under the lock, the session that it ends is
written down. Without monitors the unit is idle. -/
theorem cycle_cleaned_up (config : Config) (driver : Vendor.Driver) (turns : Nat) (streamed : Bool)
    (monitors : List Nat) (actions : List (Crew.Action board))
    (hdone : ((crew config driver turns streamed monitors).run actions).result? 0 = some ()) :
    let shared := ((crew config driver turns streamed monitors).run actions).state.shared
    shared.slot.callback = none ∧ shared.armed = none ∧
      shared.reservation.session ≠ .continuous ∧
      (shared.locked = false → ∀ c, shared.reservation.session ≠ .timeCritical c) ∧
      (monitors = [] → shared.reservation = .idle) := by
  obtain ⟨g, hg, htidy⟩ := tidy_run hdone
  dsimp only
  have hparties := Crew.length_run (crew config driver turns streamed monitors) actions
  generalize (crew config driver turns streamed monitors).run actions = c at hdone hg hparties ⊢
  have hshared : c.state.shared.standing g.view.paths = g.view.toStanding := hg.standing
  have hr : c.state.shared.reservation = g.view.reservation := congrArg Standing.reservation hshared
  refine ⟨(congrArg Standing.callback hshared).trans htidy.callback,
    (congrArg Standing.armed hshared).trans htidy.armed, ?_, fun hfree channel hsession => ?_,
    fun halone => ?_⟩
  · rw [hr]
    exact htidy.session
  · refine htidy.not_lasts (hg.sound hfree) ?_
    rw [View.session, ← hr, hsession]
    trivial
  · subst halone
    have hone : c.parties.length = 1 := hparties
    have hquiet : ∀ i < c.parties.length, (c.result? i).isSome = true := by
      intro i hi
      obtain rfl : i = 0 := by omega
      rw [hdone]
      rfl
    obtain ⟨hfree, hburst⟩ := hg.quiet hquiet
    rw [hr]
    exact htidy.idle (hg.sound hfree) hburst (hg.fair 0)

/-- The stream cannot be created, and a monitor whose burst has failed starts afresh when the
microphone has just been armed: the main task finds it disarmed, and starts nothing afresh itself. -/
theorem cycle_cleaned_up_after_monitor :
    let shared := ((crew {} { script := [⟨.newStream, 1, -1⟩, ⟨.read, 1, 0x107⟩] } 1 false [1]).run
      (List.replicate 11 (.advance 1) ++ List.replicate 17 (.advance 0) ++
        List.replicate 7 (.advance 1) ++ List.replicate 2 (.advance 0))).state.shared
    shared.slot.callback = none ∧ shared.armed = none ∧
      shared.reservation.session ≠ .continuous ∧
      ∀ c, shared.reservation.session ≠ .timeCritical c := by
  have hdone : ((crew {} { script := [⟨.newStream, 1, -1⟩, ⟨.read, 1, 0x107⟩] } 1 false [1]).run
      (List.replicate 11 (.advance 1) ++ List.replicate 17 (.advance 0) ++
        List.replicate 7 (.advance 1) ++ List.replicate 2 (.advance 0))).result? 0 = some () := rfl
  obtain ⟨hslot, harmed, hstream, htime, -⟩ := cycle_cleaned_up _ _ _ _ _ _ hdone
  exact ⟨hslot, harmed, hstream, htime rfl⟩

/-- In the middle of that fresh start the main task can already be through: its conversion does not wait
for the lock, and finds the microphone disarmed while the session that is being ended is still written
down. -/
theorem time_critical_while_starting_afresh :
    let c := (crew {} { script := [⟨.newStream, 1, -1⟩, ⟨.read, 1, 0x107⟩] } 1 false [1]).run
      (List.replicate 11 (.advance 1) ++ List.replicate 17 (.advance 0) ++
        List.replicate 2 (.advance 1) ++ List.replicate 2 (.advance 0))
    c.result? 0 = some () ∧ c.state.shared.locked = true ∧
      c.state.shared.reservation.session = .timeCritical microphone := ⟨rfl, rfl, rfl⟩

end

end SharedAdc.Firmware
