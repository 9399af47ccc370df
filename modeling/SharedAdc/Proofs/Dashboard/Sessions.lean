/-
The dashboard's own account of the live session. Every input, whatever comes of its calls, leaves
the account in agreement with the controller, and what others do in between does not touch it: their
bursts neither begin nor end a session that lasts.
-/
import Mathlib.Logic.Function.Iterate
import SharedAdc.Proofs.Dashboard.Voltages

namespace SharedAdc.Dashboard

open SharedAdc.Controller (Arms Behaves Crew Disarms Pact Reads Restarts Setting Starts Stops View)

/-! ## Agreement -/

/-- The dashboard agrees with a view of the controller on the live session. Since the stream was
started, the attenuation has been turned on `turns` times. -/
structure Agrees (config : Config) (turns : Nat) (d : Dashboard) (v : View Consumer) : Prop where
  streaming : ∀ m, d.streaming = some m ↔ v.reservation = ⟨m, .continuous⟩
  proper : ∀ m, d.streaming = some m → checkMask m = .ok ()
  timeCritical : ∀ c, d.timeCritical = some c ↔ v.session = .timeCritical c
  within : d.streamMask.isWithinUnit = true
  table : ∀ m, d.streaming = some m → ∃ a, v.table = m.toList.map (⟨·, ⟨a, config.width⟩⟩) ∧
    d.attenuation = Attenuation.next^[turns] a

namespace Agrees

variable {config : Config} {turns : Nat} {d : Dashboard} {v v' : View Consumer}

/-- Nobody's burst comes in between. -/
theorem steady (h : Agrees config turns d v) (hv : v.Steady v') : Agrees config turns d v' where
  streaming m :=
    (h.streaming m).trans (hv.reservation_eq_iff (r := ⟨m, .continuous⟩) trivial).symm
  proper := h.proper
  timeCritical c :=
    (h.timeCritical c).trans (hv.session_eq_iff (s := .timeCritical c) trivial).symm
  within := h.within
  table m hm := by
    rw [hv.table]
    exact h.table m hm

/-- Readings, the selected channel and the wish to quit do not matter. -/
theorem congr {d' : Dashboard} (h : Agrees config turns d v) (hs : d'.streaming = d.streaming)
    (ht : d'.timeCritical = d.timeCritical) (hm : d'.streamMask = d.streamMask)
    (ha : d'.attenuation = d.attenuation) : Agrees config turns d' v := by
  obtain ⟨hstreaming, hproper, htimeCritical, hwithin, htable⟩ := h
  constructor
  · rwa [hs]
  · rwa [hs]
  · rwa [ht]
  · rwa [hm]
  · rwa [hs, ha]

/-- Without a session that lasts there is nothing to agree on. -/
theorem of_none (hs : d.streaming = none) (ht : d.timeCritical = none)
    (hm : d.streamMask.isWithinUnit = true) (hv : ¬v.session.Lasts) : Agrees config turns d v where
  streaming m := by
    rw [hs]
    refine ⟨(by cases ·), ?_⟩
    intro hr
    rw [View.session, hr] at hv
    exact absurd trivial hv
  proper m hsome := by
    rw [hs] at hsome
    cases hsome
  timeCritical c := by
    rw [ht]
    refine ⟨(by cases ·), ?_⟩
    intro hsession
    rw [hsession] at hv
    exact absurd trivial hv
  within := hm
  table m hsome := by
    rw [hs] at hsome
    cases hsome

theorem streaming_none (h : Agrees config turns d v) (hv : v.session ≠ .continuous) :
    d.streaming = none := by
  cases hs : d.streaming with
  | none => rfl
  | some m => exact absurd (congrArg Reservation.session ((h.streaming m).1 hs)) hv

theorem timeCritical_none (h : Agrees config turns d v) (hv : ∀ c, v.session ≠ .timeCritical c) :
    d.timeCritical = none := by
  cases ht : d.timeCritical with
  | none => rfl
  | some c => exact absurd ((h.timeCritical c).1 ht) (hv c)

theorem not_both (h : Agrees config turns d v) :
    ¬(d.streaming.isSome = true ∧ d.timeCritical.isSome = true) := by
  rintro ⟨hs, ht⟩
  obtain ⟨m, hm⟩ := Option.isSome_iff_exists.1 hs
  obtain ⟨c, hc⟩ := Option.isSome_iff_exists.1 ht
  have hsession := (h.timeCritical c).1 hc
  rw [View.session, (h.streaming m).1 hm] at hsession
  cases hsession

end Agrees

/-! ## Single actions -/

/-- The presses of the attenuation key since the stream key was pressed, after one more input. -/
def Input.turns (turns : Nat) : Input → Nat
  | .key (.char c control) =>
    if c = 'a' then turns + 1 else if c = 'c' && !control then 0 else turns
  | _ => turns

section

variable {config : Config} {turns : Nat} {d : Dashboard} {last : View Consumer}

/-- What the controller is asked to do for the dashboard, and what comes of it. -/
theorem operate_keeps {α : Type} {p : Controller.Operation Range Consumer α} (hp : Behaves p)
    {deal : α → View Consumer → View Consumer → Prop}
    (h : p.Obeys (Controller.watch (Pact.leader .steady)) (.away last)
      (Controller.Custom.Ends (Pact.leader .steady) last deal)) :
    desk.Keeps (Pact.leader .steady) (operate p) last fun a v' => ∃ v, last.Steady v ∧ deal a v v' :=
  Setting.Keeps.operate_ends desk_wording hp h

/-- A session stays as it is while samples are calibrated. -/
theorem calibrate_keeps (channel : Channel) (attenuation : Attenuation) (samples : List UInt16) :
    desk.Keeps (Pact.leader .steady)
      (operate (Controller.calibrate config channel attenuation samples)) last
      fun _ v => v = last :=
  (Setting.Keeps.calibrate desk_wording config channel attenuation samples).mono fun _ _ h => h.1

theorem say_keeps {α : Type} (level : LogLevel) (message : String) {f : Unit → Action Range α}
    {post : α → View Consumer → Prop} (h : desk.Keeps (Pact.leader .steady) (f ()) last post) :
    desk.Keeps (Pact.leader .steady) ((say level message).bind f) last post :=
  Setting.Keeps.beside (S := desk) (q := .say ⟨level, message⟩) rfl fun _ => h

theorem sampleSelected_agrees (h : Agrees config turns d last) :
    desk.Keeps (Pact.leader .steady) (d.sampleSelected config) last
      fun r v => Agrees config turns r.2 v := by
  refine (operate_keeps (Controller.sampleOnce_behaves _ _ _ _)
    (Controller.sampleOnce_watched _ _ _ _)).bind ?_
  rintro (e | raw) v ⟨u, hu, hv⟩
  · exact .done ((h.steady hu).steady hv)
  · refine (calibrate_keeps _ _ _).bind ?_
    rintro ⟨_ | _, samples⟩ _ rfl
    · exact .done ((h.steady hu).steady hv)
    · have hlast := (h.steady hu).steady hv
      exact say_keeps _ _ (.done (hlast.congr rfl rfl rfl rfl))

theorem stopping_agrees {m : Mask} {v v' : View Consumer} {result : Except AdcError Unit}
    (h : Agrees config turns d v) (hd : d.streaming = some m) (hstop : Stops m result v v') :
    Agrees config 0 { d with streaming := none } v' := by
  have hr := (h.streaming m).1 hd
  have ht : d.timeCritical = none := h.timeCritical_none fun c hc => by
    rw [View.session, hr] at hc
    cases hc
  cases hstop with
  | refused he hnot => exact absurd hr (hnot (h.proper m hd)).2
  | stopped hr table => exact .of_none rfl ht h.within id

/-- The dashboard that a request of its own for a stream leaves. -/
theorem starting_agrees {v v' : View Consumer} {result : Except AdcError Unit}
    (h : Agrees config turns d v) (hd : d.streaming = none)
    (hstart : Starts config d.streamRequest result v v') :
    Agrees config 0 (match result with
      | .error _ => d
      | .ok () => { d with streaming := some d.streamMask }) v' := by
  have hnot : ∀ m, v.reservation ≠ ⟨m, .continuous⟩ := by
    intro m hr
    have hm := (h.streaming m).2 hr
    rw [hd] at hm
    cases hm
  have hsame : Agrees config 0 d v := by
    refine ⟨h.streaming, h.proper, h.timeCritical, h.within, fun m hm => ?_⟩
    rw [hd] at hm
    cases hm
  cases hstart with
  | refused he => exact hsame
  | failed hshort table =>
    refine ⟨hsame.streaming, hsame.proper, hsame.timeCritical, hsame.within, fun m hm => ?_⟩
    rw [hd] at hm
    cases hm
  | swapped hs hr callback => exact absurd hr (hnot _)
  | started hm hshort callback =>
    have ht : d.timeCritical = none := h.timeCritical_none fun c hc => by
      rw [hc] at hshort
      exact hshort trivial
    refine ⟨fun m => ?_, ?_, fun c => ?_, h.within, ?_⟩
    · show some d.streamMask = some m ↔ Reservation.mk d.streamMask .continuous = ⟨m, .continuous⟩
      simp
    · rintro _ ⟨⟩
      exact hm
    · show d.timeCritical = some c ↔ Session.continuous = .timeCritical c
      simp [ht]
    · rintro _ ⟨⟩
      exact ⟨d.attenuation, rfl, rfl⟩

theorem toggleStream_agrees (h : Agrees config turns d last) :
    desk.Keeps (Pact.leader .steady) (d.toggleStream config) last
      fun r v => Agrees config 0 r.2 v := by
  unfold toggleStream
  split
  · rename_i m hd
    refine (operate_keeps (Controller.stopContinuous_behaves _)
      (Controller.stopContinuous_watched (Pact.leader_free _).ebbs _)).bind ?_
    rintro result v' ⟨v, hv, hstop⟩
    exact .done (stopping_agrees (h.steady hv) hd hstop)
  · rename_i hd
    refine Setting.Keeps.beside (S := desk) (q := .resetAverages) rfl fun _ => ?_
    refine (operate_keeps (Controller.startContinuous_behaves _ _)
      (Controller.startContinuous_watched (Pact.leader_free _) _ _)).bind ?_
    rintro result v' ⟨v, hv, hstart⟩
    have hend := starting_agrees (h.steady hv) hd hstart
    cases result <;> exact .done hend

theorem disarming_agrees {c : Channel} {v v' : View Consumer} {result : Except AdcError Unit}
    (h : Agrees config turns d v) (hd : d.timeCritical = some c) (hdisarm : Disarms c result v v') :
    Agrees config turns { d with timeCritical := none } v' := by
  have hsession := (h.timeCritical c).1 hd
  have hs : d.streaming = none := h.streaming_none (by rw [hsession]; simp)
  cases hdisarm with
  | refused he hsound hnot => exact absurd hsession hnot
  | disarmed => exact .of_none hs rfl h.within id

theorem arming_agrees {v v' : View Consumer} {result : Except AdcError Unit}
    (h : Agrees config turns d v) (hd : d.timeCritical = none)
    (harm : Arms d.selected result v v') :
    Agrees config turns (match result with
      | .error _ => d
      | .ok () => { d with timeCritical := some d.selected }) v' := by
  have hnot : ∀ c, v.session ≠ .timeCritical c := by
    intro c hc
    have ht := (h.timeCritical c).2 hc
    rw [hd] at ht
    cases ht
  cases harm with
  | refused | failed => exact h
  | disarmed harmed => exact absurd harmed (hnot _)
  | armed hwas =>
    have hs : d.streaming = none := h.streaming_none fun hc => by
      rcases hwas with hshort | harmed
      · rw [hc] at hshort
        exact hshort trivial
      · exact hnot _ harmed
    refine ⟨fun m => ?_, fun m hm => ?_, fun c => ?_, h.within, fun m hm => ?_⟩
    · show d.streaming = some m ↔ Reservation.mk _ _ = _
      simp [hs]
    · exact absurd (hs.symm.trans hm) (by simp)
    · show some d.selected = some c ↔ Session.timeCritical d.selected = .timeCritical c
      simp
    · exact absurd (hs.symm.trans hm) (by simp)

theorem toggleTimeCritical_agrees (h : Agrees config turns d last) :
    desk.Keeps (Pact.leader .steady) (d.toggleTimeCritical config) last
      fun r v => Agrees config turns r.2 v := by
  unfold toggleTimeCritical
  split
  · rename_i c hd
    refine (operate_keeps (Controller.releaseTimeCritical_behaves _)
      (Controller.releaseTimeCritical_watched (Pact.leader_free _) _)).bind ?_
    rintro result v' ⟨v, hv, hdisarm⟩
    exact .done (disarming_agrees (h.steady hv) hd hdisarm)
  · rename_i hd
    refine (operate_keeps (Controller.setupTimeCritical_behaves _ _ _)
      (Controller.setupTimeCritical_watched (Pact.leader_free _) _ _ _)).bind ?_
    rintro result v' ⟨v, hv, harm⟩
    have hend := arming_agrees (h.steady hv) hd harm
    cases result <;> exact .done hend

theorem reinit_agrees (h : Agrees config turns d last) :
    desk.Keeps (Pact.leader .steady) d.reinit last fun r v => Agrees config turns r.2 v := by
  refine (operate_keeps Controller.reinit_behaves
    (Controller.reinit_watched (Pact.leader_free _).ebbs)).bind ?_
  rintro result v' ⟨v, hv, hrestart⟩
  refine .done (.of_none rfl rfl h.within ?_)
  cases hrestart with
  | refused hs hone =>
    rw [hone]
    exact id
  | restarted table => exact id

/-! ## Keys and ticks -/

theorem toggleInMask_within (h : d.streamMask.isWithinUnit = true) :
    d.toggleInMask.streamMask.isWithinUnit = true := by
  have hbit : ∀ i : Fin 10, Mask.bit ⟨i⟩ &&& ~~~Mask.unitBits = 0 := by decide
  have hstray : d.streamMask.bits &&& ~~~Mask.unitBits = 0 := by simpa [Mask.isWithinUnit] using h
  show (if d.streamMask.contains d.selected then d.streamMask.erase d.selected
    else d.streamMask.insert d.selected).isWithinUnit = true
  split
  · show (d.streamMask.bits &&& ~~~Mask.bit d.selected &&& ~~~Mask.unitBits == 0) = true
    rw [BitVec.and_assoc, BitVec.and_comm (~~~Mask.bit d.selected), ← BitVec.and_assoc, hstray]
    simp
  · show ((d.streamMask.bits ||| Mask.bit d.selected) &&& ~~~Mask.unitBits == 0) = true
    rw [BitVec.and_or_distrib_right, hstray, show Mask.bit d.selected &&& _ = _ from hbit _]
    rfl

/-- What an input does beside the controller, or not at all, leaves the session alone. -/
theorem raiseInput_agrees (h : Agrees config turns d last) :
    desk.Keeps (Pact.leader .steady) d.raiseInput last fun r v => Agrees config turns r.2 v := by
  refine Setting.Keeps.beside (S := desk) (q := .input d.selected) rfl fun mv => ?_
  exact Setting.Keeps.beside (S := desk) (q := .setInput _ _) rfl fun _ => .done h

theorem lowerInput_agrees (h : Agrees config turns d last) :
    desk.Keeps (Pact.leader .steady) d.lowerInput last fun r v => Agrees config turns r.2 v := by
  refine Setting.Keeps.beside (S := desk) (q := .input d.selected) rfl fun mv => ?_
  exact Setting.Keeps.beside (S := desk) (q := .setInput _ _) rfl fun _ => .done h

theorem cycleAttenuation_agrees (h : Agrees config turns d last) :
    desk.Keeps (Pact.leader .steady) d.cycleAttenuation last
      fun r v => Agrees config (turns + 1) r.2 v := by
  refine say_keeps _ _ (.done ⟨h.streaming, h.proper, h.timeCritical, h.within, fun m hm => ?_⟩)
  obtain ⟨a, htable, hturned⟩ := h.table m hm
  refine ⟨a, htable, ?_⟩
  rw [Function.iterate_succ_apply', ← hturned]

theorem handleKey_agrees (h : Agrees config turns d last) (key : Key) :
    desk.Keeps (Pact.leader .steady) (d.handleKey config key) last
      fun r v => Agrees config (Input.turns turns (.key key)) r.2 v := by
  cases key with
  | left => exact lowerInput_agrees h
  | right => exact raiseInput_agrees h
  | enter | tab => exact .done h
  | escape | up | down => exact .done (h.congr rfl rfl rfl rfl)
  | char c control =>
    simp only [handleKey, Input.turns]
    split
    · rename_i hc
      subst hc
      exact .done (h.congr rfl rfl rfl rfl)
    · split
      · rename_i hc
        obtain ⟨rfl, rfl⟩ : c = 'c' ∧ control = true := by simpa using hc
        exact say_keeps _ _ (.done (h.congr rfl rfl rfl rfl))
      · rename_i hcontrol
        split
        · exact lowerInput_agrees h
        · exact raiseInput_agrees h
        · exact raiseInput_agrees h
        · exact .done ⟨h.streaming, h.proper, h.timeCritical, toggleInMask_within h.within, h.table⟩
        · exact cycleAttenuation_agrees h
        · exact sampleSelected_agrees h
        · -- without the control key held it is the stream key
          obtain rfl : control = false := by simpa using hcontrol
          exact toggleStream_agrees h
        · exact toggleTimeCritical_agrees h
        · refine say_keeps _ _ ?_
          exact Setting.Keeps.beside (S := desk) (q := .injectFault) rfl fun _ => .done h
        · exact reinit_agrees h
        · rename_i ha _ hc _ _ _
          rw [if_neg ha, if_neg (by simp [show c ≠ 'c' from hc])]
          exact .done h

theorem readStream_agrees (h : Agrees config turns d last) (channels : List Channel) :
    desk.Keeps (Pact.leader .steady) (d.readStream config channels) last
      fun r v => Agrees config turns r.2 v := by
  induction channels generalizing d with
  | nil => exact .done h
  | cons channel channels ih =>
    refine Setting.Keeps.beside (S := desk) (q := .takeAverage channel) rfl fun average => ?_
    cases average with
    | none => exact ih h
    | some raw =>
      refine (calibrate_keeps channel d.attenuation [raw]).bind ?_
      rintro ⟨_ | _, samples⟩ _ rfl
      · exact .done h
      · exact ih (h.congr rfl rfl rfl rfl)

theorem tick_agrees (h : Agrees config turns d last) :
    desk.Keeps (Pact.leader .steady) (d.tick config) last fun r v => Agrees config turns r.2 v := by
  refine (readStream_agrees h _).bind ?_
  rintro ⟨_ | _, d⟩ v hv
  · exact .done hv
  · show desk.Keeps _ d.readTimeCritical v _
    unfold readTimeCritical
    split
    · exact .done hv
    · refine (operate_keeps (Controller.sampleTimeCritical_behaves _ _)
        (Controller.sampleTimeCritical_watched _ _)).bind ?_
      rintro (_ | _) v' ⟨u, hu, rfl, -⟩
      · exact .done (hv.steady hu)
      · exact .done ((hv.steady hu).congr rfl rfl rfl rfl)

theorem change_agrees (h : Agrees config turns d last) (input : Input) :
    desk.Keeps (Pact.leader .steady) (input.change config d) last
      fun r v => Agrees config (input.turns turns) r.2 v := by
  cases input with
  | key pressed => exact handleKey_agrees h pressed
  | tick => exact tick_agrees h

theorem report_keeps (result : Except AdcError Unit) :
    desk.Keeps (Pact.leader .steady) (report result) last fun _ v => v = last := by
  unfold report
  split
  · exact .done rfl
  · split <;> exact say_keeps _ _ (.done rfl)

/-! ## Runs -/

/-- However many inputs there are, the dashboard agrees with the controller after them. -/
theorem play_agrees (h : Agrees config turns d last) (inputs : List Input) :
    desk.Keeps (Pact.leader .steady) (d.play config inputs) last
      fun d v => Agrees config (inputs.foldl Input.turns turns) d v := by
  induction inputs generalizing d last turns with
  | nil => exact .done h
  | cons input inputs ih =>
    refine (change_agrees h input).bind ?_
    rintro ⟨result, d⟩ v hv
    refine (report_keeps result).bind ?_
    rintro _ _ rfl
    exact ih hv

theorem agrees_new : Agrees config 0 {} {} :=
  .of_none rfl rfl (by decide) id

end

/-- A burst of somebody else is none of the dashboard's business. -/
theorem burst_keeps (config : Config) (b : Burst) :
    desk.Keeps (Pact.other .steady) (b.party config) {} fun _ _ => True := by
  refine (Setting.Keeps.operate_ends desk_wording (Controller.sampleOnce_behaves _ _ _ _)
    (Controller.sampleOnce_watched config b.channel b.attenuation b.count)).bind ?_
  rintro result v -
  exact .done trivial

section

variable {config : Config} {settings : Simulator.Settings} {inputs : List Input}
  {bursts : List Burst}

theorem crew_keeps {i : Nat} {p : desk.Party (Option Dashboard)}
    (hi : (crew config settings inputs bursts).parties[i]? = some p) :
    desk.Keeps (Pact.customs .steady i) p {} fun a v => i = 0 →
      ∃ d, a = some d ∧ Agrees config (inputs.foldl Input.turns 0) d v := by
  cases i with
  | zero =>
    cases hi
    refine (play_agrees agrees_new inputs).bind ?_
    intro d v hv
    exact .done fun _ => ⟨d, rfl, hv⟩
  | succ i =>
    have hb : (bursts.map (Burst.party config))[i]? = some p := hi
    obtain ⟨b, -, rfl⟩ := List.mem_map.1 (List.mem_of_getElem? hb)
    exact (burst_keeps config b).mono fun _ _ _ hzero => absurd hzero (Nat.succ_ne_zero i)

/-- Once the dashboard has played its inputs, it agrees with the view of the controller. -/
theorem agrees_run {actions : List (Crew.Action desk)} {d : Dashboard}
    (hdone : ((crew config settings inputs bursts).run actions).result? 0 = some (some d)) :
    ∃ v : View Consumer, Agrees config (inputs.foldl Input.turns 0) d v ∧
      v.reservation =
        ((crew config settings inputs bursts).run actions).state.rig.shared.reservation := by
  obtain ⟨g, hg⟩ := Crew.watched_run (Pact.compatible .steady) (S := desk)
    (c := crew config settings inputs bursts) rfl crew_keeps actions
  obtain ⟨-, last, hlast, hpost⟩ := hg.finished hdone
  obtain ⟨_, ⟨⟩, hagrees⟩ := hpost rfl
  have hsteady : last.Steady g.view := hlast
  exact ⟨g.view, hagrees.steady hsteady, (congrArg Controller.Standing.reservation hg.standing).symm⟩

/-- The dashboard and the controller agree on the live session after any inputs, with frames, faults
and bursts of others at any time in between; and none of the settings leaves its bounds. -/
theorem session_agreed (hinput : settings.input ≤ maxInput) (inputs : List Input)
    (bursts : List Burst) (actions : List (Crew.Action desk)) {d : Dashboard}
    (hdone : ((crew config settings inputs bursts).run actions).result? 0 = some (some d)) :
    let rig := ((crew config settings inputs bursts).run actions).state.rig
    (∀ m, d.streaming = some m ↔ rig.shared.reservation = ⟨m, .continuous⟩) ∧
      (∀ c, d.timeCritical = some c ↔ rig.shared.reservation.session = .timeCritical c) ∧
      ¬(d.streaming.isSome = true ∧ d.timeCritical.isSome = true) ∧
      d.selected.number < 10 ∧ d.streamMask.isWithinUnit = true ∧
      ∀ c, rig.sim.input c ≤ maxInput := by
  obtain ⟨v, hagrees, hr⟩ := agrees_run hdone
  dsimp only
  rw [← hr]
  exact ⟨hagrees.streaming, hagrees.timeCritical, hagrees.not_both, d.selected.number_lt,
    hagrees.within, modest_run hinput inputs bursts actions⟩

/-- While somebody's burst is under way the stream key is of no avail; pressed again it starts the
stream. -/
theorem session_agreed_across_burst :
    let streamKey : Input := .key (.char 'c' false)
    let rig := ((crew {} {} [streamKey, streamKey] [⟨9, .db12, 1⟩]).run
      (List.replicate 4 (.advance 1) ++ List.replicate 5 (.advance 0) ++ [.happen .frame] ++
        List.replicate 5 (.advance 1) ++ List.replicate 10 (.advance 0))).state.rig
    rig.shared.reservation = ⟨.ofList [0, 1], .continuous⟩ ∧ ∀ c, rig.sim.input c ≤ maxInput := by
  have hdone : ((crew {} {} [.key (.char 'c' false), .key (.char 'c' false)] [⟨9, .db12, 1⟩]).run
      (List.replicate 4 (.advance 1) ++ List.replicate 5 (.advance 0) ++ [.happen .frame] ++
        List.replicate 5 (.advance 1) ++ List.replicate 10 (.advance 0))).result? 0 =
      some (some { ({} : Dashboard) with streaming := some (.ofList [0, 1]) }) := rfl
  obtain ⟨hstream, -, -, -, -, hinputs⟩ := session_agreed (by decide) _ _ _ hdone
  exact ⟨(hstream _).1 rfl, hinputs⟩

end

end SharedAdc.Dashboard
