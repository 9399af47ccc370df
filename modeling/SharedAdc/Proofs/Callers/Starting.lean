/-
Starting a stream, from the first check to the state that is left behind. A request is turned down for
the first objection to it before anything is touched. One that is admitted has its calls made in turn,
each with what the request asks for; the first of them that fails is the last but for the call that
takes a created driver down again.
-/
import SharedAdc.Proofs.Accounts.Ending
import SharedAdc.Proofs.Callers.Closing

namespace SharedAdc.Controller

variable {κ φ : Type} {machine : Machine κ}

/-- The calls of a start, and the fault that ends it, if there is one. A driver that was created and
cannot be started is deinitialized once. -/
inductive StartCalls (rate : UInt32) (table : List PatternEntry) (bytes : UInt32) :
    List (AnsweredCall κ) → Option HardwareFault → Prop where
  | notCreated (fault : HardwareFault) :
    StartCalls rate table bytes [⟨.createContinuous bytes bytes, .error fault⟩] (some fault)
  | notStarted {made : List (AnsweredCall κ)} {fault : HardwareFault}
    (deinit : Except HardwareFault Unit)
    (h : AnsweredCall.Carried [.configureContinuous rate table, .registerFrameSlot, .startContinuous]
      made (some fault)) :
    StartCalls rate table bytes
      (⟨.createContinuous bytes bytes, .ok ()⟩ :: made ++ [⟨.deinitContinuous, deinit⟩]) (some fault)
  | started {made : List (AnsweredCall κ)}
    (h : AnsweredCall.Carried [.configureContinuous rate table, .registerFrameSlot, .startContinuous]
      made none) :
    StartCalls rate table bytes (⟨.createContinuous bytes bytes, .ok ()⟩ :: made) none

/-- Only one objection is the first. -/
theorem firstObjection_unique {request : ContinuousRequest φ} {config : Config}
    {reason reason' : BadArgument} (h : request.FirstObjection config reason)
    (h' : request.FirstObjection config reason') : reason = reason' := by
  obtain ⟨before, after, hsplit, hobjection, hbefore⟩ := h
  obtain ⟨before', after', hsplit', hobjection', hbefore'⟩ := h'
  rcases append_cons_cases (hsplit.symm.trans hsplit') with
    ⟨mid, rfl, -⟩ | ⟨-, hsame, -⟩ | ⟨mid, rfl, -⟩
  · exact absurd hobjection (hbefore' reason (by simp))
  · exact hsame
  · exact absurd hobjection' (hbefore reason' (by simp))

/-- Whoever holds channels gets the same channels again. -/
theorem grant_own {held : Reservation} (h : held.Proper) (hidle : held ≠ .idle) :
    held.grant held.active = .ok (held.session, held) := by
  rw [grant_proper h, if_neg hidle, if_pos rfl]

/-- A session that a start does not go on with. -/
theorem session_elsewhere {held : Reservation} (h : held.Proper) (hidle : held ≠ .idle)
    (hreserved : held ≠ ⟨held.active, .reserved⟩) (hrunning : held ≠ ⟨held.active, .continuous⟩) :
    held.session ∉ [.idle, .reserved, .continuous] := by
  cases h with
  | idle => exact absurd rfl hidle
  | reserved => exact absurd rfl hreserved
  | oneShot | timeCritical => simp
  | continuous => exact absurd rfl hrunning

namespace Site

variable {s : Site machine φ} {traffic : Traffic machine}

@[simp] theorem after_resetFrameCounts : @after κ φ Unit machine traffic s (ask .resetFrameCounts) =
    ((), { s with shared := { s.shared with slot := s.shared.slot.resetCounts } }) := rfl

@[simp] theorem after_installCallback (callback : φ) :
    @after κ φ Unit machine traffic s (ask (.installCallback callback)) =
      ((), { s with shared := { s.shared with slot := s.shared.slot.install callback } }) := rfl

/-- From `s` the calls `made` have been made, and nothing else of what callers share has changed but
the slot, in which `callback` is installed by now. -/
structure Advanced (s : Site machine φ) (made : List (AnsweredCall κ)) (callback : Option φ)
    (t : Site machine φ) : Prop where
  calls : t.calls = s.calls ++ made
  slot : t.shared.slot.callback = callback
  shared : t.shared = { s.shared with slot := t.shared.slot }

namespace Advanced

variable {t : Site machine φ} {made : List (AnsweredCall κ)} {callback : Option φ}

theorem refl (s : Site machine φ) : s.Advanced [] s.shared.slot.callback s :=
  ⟨(List.append_nil _).symm, rfl, rfl⟩

theorem call (h : s.Advanced made callback t) (traffic : Traffic machine) (call : HardwareCall κ) :
    s.Advanced (made ++ [⟨call, (t.after traffic (hardware call)).1⟩]) callback
      (t.after traffic (hardware call)).2 where
  calls := by rw [← List.append_assoc, ← h.calls]; rfl
  slot := (t.shared.slot.callback_deliverMany _).trans h.slot
  shared := congrArg (fun shared : State φ => { shared with
    slot := (t.after traffic (hardware call)).2.shared.slot }) h.shared

theorem setSlot (h : s.Advanced made callback t) (slot : FrameSlot φ) :
    s.Advanced made slot.callback { t with shared := { t.shared with slot } } where
  calls := h.calls
  slot := rfl
  shared := congrArg (fun shared : State φ => { shared with slot }) h.shared

/-- What is left behind under another reservation. -/
theorem leave (h : s.enter.Advanced made callback t) (hfree : s.shared.locked = false)
    (held : Reservation) :
    (t.leave held).shared = { s.shared with reservation := held, slot := t.shared.slot } := by
  have harmed : t.shared.armed = s.shared.armed := by
    rw [h.shared]
    rfl
  simp only [Site.leave, harmed, ← hfree]

end Advanced

/-! ## The calls of a start -/

section

variable {s₀ : Site machine φ} {made : List (AnsweredCall κ)} {prior : Option φ}

/-- A created driver is configured, registered with the slot and started, each only if what comes before
has worked. -/
theorem launch_carried (traffic : Traffic machine) (h : s₀.Advanced made prior s) (rate : UInt32)
    (table : List PatternEntry) (callback : φ) :
    let ended := s.after traffic (launch rate table callback)
    ∃ more installed, AnsweredCall.Carried
        [.configureContinuous rate table, .registerFrameSlot, .startContinuous] more
        (errorOf ended.1) ∧
      s₀.Advanced (made ++ more) installed ended.2 ∧
      (ended.1 = .ok () → installed = some callback) := by
  unfold launch
  simp only [Program.bind_eq, after_bind]
  have hconfigured := h.call traffic (.configureContinuous rate table)
  generalize s.after traffic (hardware (.configureContinuous rate table)) = configured at hconfigured ⊢
  obtain ⟨fault | ⟨⟩, t⟩ := configured
  · exact ⟨_, _, .failed rfl, hconfigured, nofun⟩
  simp only [after_bind, after_resetFrameCounts, after_installCallback]
  have hregistered := (hconfigured.setSlot (t.shared.slot.resetCounts.install callback)).call
    traffic .registerFrameSlot
  generalize after traffic _ (hardware .registerFrameSlot) = registered at hregistered ⊢
  obtain ⟨fault | ⟨⟩, u⟩ := registered
  · rw [List.append_assoc] at hregistered
    exact ⟨_, _, .cons rfl (.failed rfl), hregistered, nofun⟩
  have hstarted := hregistered.call traffic .startContinuous
  generalize u.after traffic (hardware .startContinuous) = started at hstarted ⊢
  rw [List.append_assoc, List.append_assoc] at hstarted
  refine ⟨_, _, .cons rfl (.cons rfl ?_), hstarted, fun _ => rfl⟩
  rcases started with ⟨fault | ⟨⟩, v⟩
  · exact .failed rfl
  · exact .cons rfl .nil

/-- A driver that was created and is not started is taken down again, and with it the callback. -/
theorem configureStream_carried (s : Site machine φ) (traffic : Traffic machine) (rate : UInt32)
    (table : List PatternEntry) (bytes : UInt32) (callback : φ) :
    let ended := s.after traffic (configureStream rate table bytes callback)
    ∃ made installed, StartCalls rate table bytes made (errorOf ended.1) ∧
      s.Advanced made installed ended.2 ∧ (ended.1 = .ok () → installed = some callback) ∧
      (s.shared.slot.callback = none → ended.1 ≠ .ok () → installed = none) := by
  unfold configureStream
  simp only [Program.bind_eq, after_bind]
  have hcreated := (Advanced.refl s).call traffic (.createContinuous bytes bytes)
  generalize s.after traffic (hardware (.createContinuous bytes bytes)) = created at hcreated ⊢
  obtain ⟨fault | ⟨⟩, t⟩ := created
  · exact ⟨_, _, .notCreated fault, hcreated, nofun, fun hnone _ => hnone⟩
  simp only [after_bind]
  obtain ⟨made, installed, hmade, hlaunched, hinstalled⟩ :=
    launch_carried traffic hcreated rate table callback
  generalize t.after traffic (launch rate table callback) = launched at hmade hlaunched hinstalled ⊢
  obtain ⟨fault | ⟨⟩, u⟩ := launched
  · have hdeinit := (hlaunched.setSlot u.shared.slot.clear).call traffic .deinitContinuous
    simp only [after_bind, after_clearCallback]
    generalize after traffic _ (hardware .deinitContinuous) = deinit at hdeinit ⊢
    exact ⟨_, _, .notStarted deinit.1 hmade, hdeinit, nofun, fun _ _ => rfl⟩
  · exact ⟨_, _, .started hmade, hlaunched, hinstalled, fun _ h => absurd rfl h⟩

end

/-! ## A start -/

section

variable {config : Config} {request : ContinuousRequest φ}

/-- A request that is objected to touches nothing. -/
theorem startContinuous_objected (hsize : config.bytesPerSample.toNat ≤ 2 ^ 28) {reason : BadArgument}
    (hfirst : request.FirstObjection config reason) :
    s.after traffic (startContinuous config request) = (.error (.invalidArgument reason), s) := by
  unfold startContinuous
  rcases ContinuousRequest.checks_decided hsize with
    ⟨reason', hfirst', hcheck | ⟨hcheck, hbytes⟩⟩ | ⟨hnone, -⟩
  · obtain rfl := firstObjection_unique hfirst hfirst'
    simp only [hcheck]
    rfl
  · obtain rfl := firstObjection_unique hfirst hfirst'
    simp only [hcheck, hbytes]
    rfl
  · exact absurd hfirst.applies (hnone reason)

variable {bytes : UInt32} {callback : φ}

/-- The request passes its checks, with frames of that size and with that callback. -/
structure Passes (config : Config) (request : ContinuousRequest φ) (bytes : UInt32) (callback : φ) :
    Prop where
  check : request.check config = .ok ()
  frameBytes : request.frameBytes config = .ok bytes
  callback : request.callback = some callback

/-- Where no session is under way, the stream is set up under the lock, and what was found is put back
where that fails. -/
theorem startContinuous_vacant (h : Passes config request bytes callback) {prior : Session}
    (hp : prior = .idle ∨ prior = .reserved)
    (hheld : s.shared.reservation = .before request.mask prior)
    (hgrant : s.shared.reservation.grant request.mask = .ok (prior, ⟨request.mask, .reserved⟩)) :
    s.after traffic (startContinuous config request) =
      let ended := s.enter.after traffic
        (configureStream request.rate (request.pattern config) bytes callback)
      (ended.1.mapError .hardware, ended.2.leave
        (if ended.1.isOk then ⟨request.mask, .continuous⟩ else s.shared.reservation)) := by
  unfold startContinuous
  simp only [h.check, h.frameBytes, h.callback]
  refine (after_announced fun result t => by rcases result with _ | ⟨⟩ <;> rfl).trans ?_
  rw [after_locked, hgrant, hheld]
  obtain rfl | rfl := hp <;>
  · simp only [Program.bind_eq, after_bind]
    generalize s.enter.after traffic (configureStream ..) = ended
    obtain ⟨_ | ⟨⟩, t⟩ := ended <;> rfl

/-- On the running mask only the callback is replaced. -/
theorem startContinuous_again (h : Passes config request bytes callback)
    (hfree : s.shared.locked = false)
    (hgrant : s.shared.reservation.grant request.mask = .ok (.continuous, s.shared.reservation)) :
    s.after traffic (startContinuous config request) = (.ok (), { s with
      shared := { s.shared with slot := s.shared.slot.install callback } }) := by
  unfold startContinuous
  simp only [h.check, h.frameBytes, h.callback]
  refine (after_announced fun result t => by rcases result with _ | ⟨⟩ <;> rfl).trans ?_
  rw [after_locked, hgrant]
  simp only [Program.bind_eq, Program.pure_eq, after_bind, after_installCallback, after_note,
    after_done, enter, leave, ← hfree]

/-- Where the unit is held otherwise, nothing is touched. -/
theorem startContinuous_refused (h : Passes config request bytes callback)
    (hfree : s.shared.locked = false)
    (hgrant : s.shared.reservation.grant request.mask =
        .error (s.shared.reservation.busy request.mask) ∨
      s.shared.reservation.grant request.mask =
          .ok (s.shared.reservation.session, s.shared.reservation) ∧
        s.shared.reservation.session ∉ [.idle, .reserved, .continuous]) :
    s.after traffic (startContinuous config request) =
      (.error (s.shared.reservation.busy request.mask), s) := by
  have hsame : s.enter.leave s.shared.reservation = s := by
    simp only [enter, leave, ← hfree]
  unfold startContinuous
  simp only [h.check, h.frameBytes, h.callback]
  refine (after_announced fun result t => by rcases result with _ | ⟨⟩ <;> rfl).trans ?_
  rw [after_locked]
  rcases hgrant with hgrant | ⟨hgrant, hsession⟩
  · rw [hgrant]
    exact congrArg (Prod.mk _) hsame
  · rw [hgrant]
    generalize s.shared.reservation.session = session at hsession
    cases session with
    | idle | reserved | continuous => simp at hsession
    | oneShot | timeCritical => exact congrArg (Prod.mk _) hsame

end

/-- How a start ends that nothing is objected to, by the reservation that it finds. -/
structure Starts (s : Site machine φ) (request : ContinuousRequest φ) (callback : φ)
    (bytes : UInt32) (table : List PatternEntry) (outcome : Except AdcError Unit × Site machine φ) :
    Prop where
  /-- No session is under way: the stream is set up, or what was found is put back. -/
  vacant : s.shared.reservation = .idle ∨ s.shared.reservation = ⟨request.mask, .reserved⟩ →
    ∃ made fault? slot, StartCalls request.rate table bytes made fault? ∧
      outcome.2.calls = s.calls ++ made ∧
      match fault? with
      | none => outcome.1 = .ok () ∧ slot.callback = some callback ∧
        outcome.2.shared = { s.shared with reservation := ⟨request.mask, .continuous⟩, slot }
      | some fault => outcome.1 = .error (.hardware fault) ∧ slot.callback = none ∧
        outcome.2.shared = { s.shared with slot }
  /-- The stream runs already: it goes on with the new callback. -/
  running : s.shared.reservation = ⟨request.mask, .continuous⟩ → outcome = (.ok (), { s with
    shared := { s.shared with slot := s.shared.slot.install callback } })
  /-- The unit is held otherwise: nothing is touched. -/
  elsewhere : s.shared.reservation ≠ .idle → s.shared.reservation ≠ ⟨request.mask, .reserved⟩ →
    s.shared.reservation ≠ ⟨request.mask, .continuous⟩ →
      outcome = (.error (.resourceBusy s.shared.reservation.active request.mask), s)

theorem Starts.not_invalid {request : ContinuousRequest φ} {callback : φ} {bytes : UInt32}
    {table : List PatternEntry} {outcome : Except AdcError Unit × Site machine φ}
    (h : s.Starts request callback bytes table outcome) (reason : BadArgument) :
    outcome.1 ≠ .error (.invalidArgument reason) := by
  by_cases hvacant : s.shared.reservation = .idle ∨ s.shared.reservation = ⟨request.mask, .reserved⟩
  · obtain ⟨_, fault?, _, _, _, hresult⟩ := h.vacant hvacant
    cases fault? <;>
    · rw [hresult.1]
      nofun
  by_cases hrunning : s.shared.reservation = ⟨request.mask, .continuous⟩
  · rw [h.running hrunning]
    nofun
  · rw [not_or] at hvacant
    rw [h.elsewhere hvacant.1 hvacant.2 hrunning]
    nofun

/-- A start that passes its checks, on a site where the lock is free and what is held is sound. -/
theorem starts_of_passes {config : Config} {request : ContinuousRequest φ} {bytes : UInt32}
    {callback : φ} (h : Passes config request bytes callback) (hfree : s.shared.locked = false)
    (hproper : s.shared.reservation.Proper)
    (hempty : s.shared.reservation.IsVacant → s.shared.slot.callback = none) :
    s.Starts request callback bytes (request.pattern config)
      (s.after traffic (startContinuous config request)) := by
  refine ⟨fun hvacant => ?_, fun hrunning => ?_, fun hidle hreserved hrunning => ?_⟩
  · obtain ⟨prior, hp, hheld, hgrant⟩ : ∃ prior, (prior = .idle ∨ prior = .reserved) ∧
        s.shared.reservation = .before request.mask prior ∧
        s.shared.reservation.grant request.mask = .ok (prior, ⟨request.mask, .reserved⟩) := by
      rcases hvacant with hheld | hheld
      · exact ⟨.idle, .inl rfl, hheld, by rw [hheld, Reservation.grant_idle]⟩
      · refine ⟨.reserved, .inr rfl, hheld, ?_⟩
        simpa [hheld] using grant_own hproper (by simp [hheld, Reservation.idle])
    have hslot : s.enter.shared.slot.callback = none :=
      hempty (hheld ▸ isVacant_before hp request.mask)
    rw [startContinuous_vacant h hp hheld hgrant]
    obtain ⟨made, installed, hmade, hadvanced, hinstalled, hcleared⟩ :=
      configureStream_carried s.enter traffic request.rate (request.pattern config) bytes callback
    generalize s.enter.after traffic (configureStream request.rate (request.pattern config) bytes
      callback) = ended at hmade hadvanced hinstalled hcleared
    refine ⟨made, _, ended.2.shared.slot, hmade, hadvanced.calls, ?_⟩
    obtain ⟨fault | ⟨⟩, t⟩ := ended
    · refine ⟨rfl, hadvanced.slot.trans (hcleared hslot fun h => by cases h), ?_⟩
      exact hadvanced.leave hfree s.shared.reservation
    · refine ⟨rfl, hadvanced.slot.trans (hinstalled rfl), ?_⟩
      exact hadvanced.leave hfree ⟨request.mask, .continuous⟩
  · refine startContinuous_again h hfree ?_
    simpa [hrunning] using grant_own hproper (by simp [hrunning, Reservation.idle])
  · refine startContinuous_refused h hfree ?_
    by_cases hmask : s.shared.reservation.active = request.mask
    · rw [← hmask] at hreserved hrunning ⊢
      exact .inr ⟨grant_own hproper hidle, session_elsewhere hproper hidle hreserved hrunning⟩
    · exact .inl (by rw [grant_proper hproper, if_neg hidle, if_neg hmask])

end Site

/-! ## Starts in a run -/

namespace World

/-- Starting a stream, whatever the callers have asked for before and whatever the hardware replies,
then and now, while the lock is free. The request is turned down just for the first objection to it,
and then nothing is touched. If there is none, frames have the size that multiplying it out gives,
the table has the channels of the mask in ascending order, and what is held decides what becomes of
the start. -/
theorem start_decided (config : Config) (memory : machine.Memory)
    (actions : List (Action machine φ)) (traffic : Traffic machine) (request : ContinuousRequest φ)
    (hsize : config.bytesPerSample.toNat ≤ 2 ^ 28)
    (hfree : ((new memory).run config actions).shared.locked = false) :
    let w := (new memory).run config actions
    let outcome := w.site.after traffic (startContinuous config request)
    ((∃ reason, outcome.1 = .error (.invalidArgument reason)) ↔
      ∃ reason, request.Objection config reason) ∧
    (∀ reason, outcome.1 = .error (.invalidArgument reason) ↔
      request.FirstObjection config reason) ∧
    (∀ reason, request.FirstObjection config reason → outcome.2 = w.site) ∧
    ((∀ reason, ¬ request.Objection config reason) → ∃ callback bytes table,
      request.callback = some callback ∧
      bytes.toNat =
        request.samplesPerChannel.toNat * request.mask.toList.length * config.bytesPerSample.toNat ∧
      request.Tabulates config table ∧ w.site.Starts request callback bytes table outcome) := by
  intro w outcome
  have hsound : w.standing.Sound := (kept_run config memory actions).sound hfree
  have hobjected : ∀ {reason}, request.FirstObjection config reason →
      outcome = (.error (.invalidArgument reason), w.site) :=
    fun hfirst => Site.startContinuous_objected hsize hfirst
  rcases ContinuousRequest.checks_decided hsize (r := request) with
    ⟨reason, hfirst, -⟩ | ⟨hnone, hcheck, bytes, hbytes, hproduct⟩
  · have houtcome := hobjected hfirst
    refine ⟨⟨fun _ => ⟨reason, hfirst.applies⟩, fun _ => ⟨reason, congrArg Prod.fst houtcome⟩⟩,
      fun reason' => ⟨fun h => ?_, fun h => congrArg Prod.fst (hobjected h)⟩,
      fun _ h => congrArg Prod.snd (hobjected h), fun h => absurd hfirst.applies (h reason)⟩
    rw [houtcome] at h
    cases h
    exact hfirst
  · obtain ⟨callback, hcallback⟩ : ∃ callback, request.callback = some callback :=
      Option.ne_none_iff_exists'.1 (hnone .noCallback)
    have hempty : w.shared.reservation.IsVacant → w.shared.slot.callback = none := by
      intro hvacant
      refine Option.not_isSome_iff_eq_none.1 fun hsome => ?_
      have hrunning : w.shared.reservation.session = .continuous := hsound.callback_iff.1 hsome
      rcases hvacant with hvacant | hvacant <;> cases hvacant.symm.trans hrunning
    have hstarts : w.site.Starts request callback bytes (request.pattern config) outcome :=
      Site.starts_of_passes ⟨hcheck, hbytes, hcallback⟩ hfree hsound.proper hempty
    have hfirst : ∀ reason, ¬ request.FirstObjection config reason :=
      fun reason h => hnone reason h.applies
    exact ⟨⟨fun ⟨reason, h⟩ => absurd h (hstarts.not_invalid reason),
        fun ⟨reason, h⟩ => absurd h (hnone reason)⟩,
      fun reason => ⟨fun h => absurd h (hstarts.not_invalid reason), fun h => absurd h (hfirst reason)⟩,
      fun reason h => absurd h (hfirst reason), fun _ => ⟨callback, bytes, _, hcallback, hproduct,
        request.tabulates_pattern config, hstarts⟩⟩

/-- Where the frame slot cannot be registered, the driver is taken down again, and the controller is
idle. -/
theorem start_decided_unregistered :
    let request : ContinuousRequest Unit := ⟨.ofList [3, 1], .db12, 16, 1000, some ()⟩
    let w := (new { failing := [.registerFrameSlot] } : World Machine.recording Unit).run {} []
    let outcome := w.site.after (fun _ _ => 1) (startContinuous {} request)
    errorOf outcome.1 = some (.hardware ⟨.registerFrameSlot, HardwareFault.failed⟩) ∧
      outcome.2.calls.map AnsweredCall.call = [.createContinuous 128 128,
        .configureContinuous 1000 [⟨1, ⟨.db12, .bits12⟩⟩, ⟨3, ⟨.db12, .bits12⟩⟩],
        .registerFrameSlot, .deinitContinuous] ∧
      outcome.2.shared.reservation = .idle := by
  intro request w outcome
  obtain ⟨hinvalid, -, -, hdecided⟩ := @start_decided _ _ Machine.recording {}
    { failing := [.registerFrameSlot] } [] (fun _ _ => 1) request (by decide) rfl
  have hresult : errorOf outcome.1 =
      some (.hardware ⟨.registerFrameSlot, HardwareFault.failed⟩) := by decide +kernel
  have hnone : ∀ reason, ¬ request.Objection {} reason := by
    intro reason h
    obtain ⟨_, herror⟩ := hinvalid.2 ⟨reason, h⟩
    cases hresult.symm.trans (congrArg errorOf herror)
  obtain ⟨callback, bytes, table, -, -, -, hstarts⟩ := hdecided hnone
  obtain ⟨made, fault?, slot, -, -, hended⟩ := hstarts.vacant (.inl rfl)
  cases fault? with
  | none => cases hresult.symm.trans (congrArg errorOf hended.1)
  | some fault => exact ⟨hresult, by decide +kernel, congrArg State.reservation hended.2.2⟩

end World

end SharedAdc.Controller
