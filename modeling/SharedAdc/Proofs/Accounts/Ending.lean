/-
How the operations that come under the lock can end. The reservation that such an operation finds
decides whether it is admitted; one that is turned down has changed nothing, and one that the
hardware fails reports the first failure and puts back a reservation that is known beforehand.
-/
import SharedAdc.Proofs.Accounts.Basic
import SharedAdc.Proofs.Callers.Sections

namespace SharedAdc

/-! ## Who is admitted -/

/-- The channel that a session has armed. -/
def Session.armed : Session → Option Channel
  | .timeCritical channel => some channel
  | _ => none

namespace Reservation

/-- The refusal of a request for `mask`. A free unit takes everybody; one that is held takes only
who names exactly what is held, and comes to a session that it can go on with. -/
def refusal (r : Reservation) (mask : Mask) (welcomes : Session → Bool) : Option AdcError :=
  if r.active.isEmpty || (decide (r.active = mask) && welcomes r.session) then none
  else some (.resourceBusy r.active mask)

/-- The refusal of an attempt to end what is held on `mask`. -/
def endRefusal (r : Reservation) (mask : Mask) (ends : Session → Bool) : Option AdcError :=
  if decide (r.active = mask) && ends r.session then none
  else some (.stateMismatch r.active mask)

end Reservation

namespace Controller

variable {κ φ α : Type}

theorem Standing.Sound.armed_eq {s : Standing φ} (h : s.Sound) :
    s.armed = s.reservation.session.armed := by
  cases h <;> rfl

/-- The refusal of a conversion on `channel` by what is armed. -/
def armedRefusal (armed : Option Channel) (channel : Channel) : Option AdcError :=
  match armed with
  | some c => if c = channel then none else some (.resourceBusy (.single c) (.single channel))
  | none => some (.stateMismatch .empty (.single channel))

namespace Command

/-- The arguments of the command pass its checks. -/
def WellFormed (config : Config) : Command φ → Prop
  | .reserve mask | .release mask | .stopContinuous mask => checkMask mask = .ok ()
  | .sampleOnce _ _ count | .sampleTimeCritical _ count | .submit (.oneShot ⟨_, _, count⟩) =>
    checkCount count = .ok ()
  | .startContinuous request | .submit (.continuous request) =>
    request.check config = .ok () ∧ ∃ bytes, request.frameBytes config = .ok bytes
  | .calibrate _ _ samples => samples ≠ []
  | .calibrateIndex index _ samples => (Channel.ofIndex? index).isSome = true ∧ samples ≠ []
  | .malformed _ _ => False
  | _ => True

/-- The error that turns the command down where `held` is reserved, if it is not admitted. -/
def refusal (held : Reservation) : Command φ → Option AdcError
  | .reserve mask => held.refusal mask fun _ => true
  | .sampleOnce channel _ _ | .submit (.oneShot ⟨channel, _, _⟩) =>
    held.refusal (.single channel) fun s => s = .reserved
  | .setupTimeCritical channel _ =>
    held.refusal (.single channel) fun s => s = .reserved || s = .timeCritical channel
  | .startContinuous request | .submit (.continuous request) =>
    held.refusal request.mask fun s => s = .reserved || s = .continuous
  | .release mask =>
    if held.active = mask ∧ held.session = .oneShot then some (.resourceBusy held.active mask)
    else held.endRefusal mask fun _ => true
  | .sampleTimeCritical channel _ => armedRefusal held.session.armed channel
  | .stopContinuous mask => held.endRefusal mask fun s => s = .continuous
  | .releaseTimeCritical channel =>
    held.endRefusal (.single channel) fun s => s = .timeCritical channel
  | .reinit =>
    if held.session = .oneShot then some (.resourceBusy held.active held.active) else none
  | _ => none

theorem armedRefusal_isRejection {armed : Option Channel} {channel : Channel} {e : AdcError}
    (h : armedRefusal armed channel = some e) : e.isRejection = true := by
  unfold armedRefusal at h
  repeat' split at h
  all_goals cases h
  all_goals rfl

theorem refusal_isRejection {command : Command φ} {held : Reservation} {e : AdcError}
    (h : command.refusal held = some e) : e.isRejection = true := by
  have hrefusal : ∀ {mask welcomes}, held.refusal mask welcomes = some e → e.isRejection = true := by
    intro mask welcomes h
    unfold Reservation.refusal at h
    split at h <;> cases h
    rfl
  have hend : ∀ {mask ends}, held.endRefusal mask ends = some e → e.isRejection = true := by
    intro mask ends h
    unfold Reservation.endRefusal at h
    split at h <;> cases h
    rfl
  cases command with
  | reserve | sampleOnce | setupTimeCritical | startContinuous =>
    dsimp only [refusal] at h
    exact hrefusal h
  | submit request =>
    cases request <;>
    · dsimp only [refusal] at h
      exact hrefusal h
  | release mask =>
    -- turned down by a burst under way, or as an end of what is not held
    dsimp only [refusal] at h
    split at h
    · cases h
      rfl
    · exact hend h
  | stopContinuous | releaseTimeCritical =>
    dsimp only [refusal] at h
    exact hend h
  | sampleTimeCritical => exact armedRefusal_isRejection h
  | reinit =>
    dsimp only [refusal] at h
    split at h <;> cases h
    rfl
  | calibrate | calibrateIndex | convertInScope | config | malformed => cases h

/-- The reservation that the command leaves where it found `found` and the hardware failed it. -/
def fallback (found : Reservation) : Command φ → Reservation
  | .sampleOnce _ _ _ | .setupTimeCritical _ _ | .startContinuous _ | .submit _ =>
    if found.IsVacant then found else .idle
  | _ => .idle

end Command

/-! ## Endings -/

/-- How the operation of a command that comes under the lock ends, by the error that it reports, if
any, and its account. -/
inductive Ending (config : Config) (command : Command φ) :
    Option AdcError → Account κ φ → Prop where
  /-- The arguments are turned down before anything is asked. -/
  | invalid (reason : BadArgument) (hargs : ¬ command.WellFormed config) :
    Ending config command (some (.invalidArgument reason)) {}
  | refused {a : Account κ φ} {found : Reservation} {e : AdcError} (hfound : a.found = some found)
    (hrefusal : command.refusal found = some e) (hquiet : a.quiet = true) (hcalls : a.calls = []) :
    Ending config command (some e) a
  | failed {a : Account κ φ} {found : Reservation} {fault : HardwareFault}
    (hfound : a.found = some found) (hrefusal : command.refusal found = none)
    (hfault : a.fault? = some fault) (hleft : a.left.head? = some (command.fallback found))
    (hdeleted : ∀ c, found.session = .timeCritical c →
      a.calls.countP AnsweredCall.isDeletion = 1) :
    Ending config command (some (.hardware fault)) a
  | completed {a : Account κ φ} {found : Reservation} (hfound : a.found = some found)
    (hrefusal : command.refusal found = none) : Ending config command none a

theorem Ending.of_fault {config : Config} {command : Command φ} {fault : HardwareFault}
    {a : Account κ φ} (h : Ending config command (some (.hardware fault)) a) :
    a.fault? = some fault ∧ ∃ found, a.found = some found ∧
      a.left.head? = some (command.fallback found) ∧
      ∀ c, found.session = .timeCritical c → a.calls.countP AnsweredCall.isDeletion = 1 := by
  cases h with
  | refused _ hrefusal => cases Command.refusal_isRejection hrefusal
  | failed hfound _ hfault hleft hdeleted => exact ⟨hfault, _, hfound, hleft, hdeleted⟩

/-- An operation that has come to `found` is turned down just as `found` has it. -/
theorem Ending.rejected_iff {config : Config} {command : Command φ} {error : Option AdcError}
    {a : Account κ φ} (h : Ending config command error a) {found : Reservation}
    (hfound : a.found = some found) {e : AdcError} (he : e.isRejection = true) :
    error = some e ↔ command.refusal found = some e := by
  cases h with
  | invalid => cases hfound
  | refused hfound' hrefusal =>
    rw [hfound] at hfound'
    cases hfound'
    rw [hrefusal]
  | failed hfound' hrefusal =>
    rw [hfound] at hfound'
    cases hfound'
    rw [hrefusal]
    refine ⟨fun h => ?_, nofun⟩
    cases h
    cases he
  | completed hfound' hrefusal =>
    rw [hfound] at hfound'
    cases hfound'
    rw [hrefusal]

/-- How an operation that stays outside the lock ends. -/
structure EndsAside (error : Option AdcError) (a : Account κ φ) : Prop where
  quiet : a.quiet = true
  calls : ∀ e, error = some e → e.isRejection = true → a.calls = []
  fault : ∀ fault, error = some (.hardware fault) → a.fault? = some fault

namespace EndsAside

theorem rejected {a : Account κ φ} (error : Option AdcError) (hquiet : a.quiet = true)
    (hcalls : a.calls = []) (herror : ∀ fault, error ≠ some (.hardware fault)) :
    EndsAside error a :=
  ⟨hquiet, fun _ _ _ => hcalls, fun fault h => absurd h (herror fault)⟩

theorem of_fault {a : Account κ φ} {fault? : Option HardwareFault} (hquiet : a.quiet = true)
    (hfault : a.fault? = fault?) : EndsAside (fault?.map .hardware) a where
  quiet := hquiet
  calls e h hrejection := by
    obtain ⟨fault, -, rfl⟩ := Option.map_eq_some_iff.1 h
    cases hrejection
  fault fault h := by
    obtain ⟨_, hsome, h⟩ := Option.map_eq_some_iff.1 h
    cases h
    exact hfault.trans hsome

end EndsAside

/-! ## What proper reservations grant -/

section

variable {held : Reservation} (h : held.Proper)

include h

theorem proper_isEmpty : held.active.isEmpty = decide (held = .idle) := by
  cases h with
  | idle => rfl
  | reserved hm => simp [(checkMask_ok hm).1, Reservation.idle]
  | oneShot c => simp [(checkMask_ok (single_proper c)).1, Reservation.idle]
  | timeCritical c => simp [(checkMask_ok (single_proper c)).1, Reservation.idle]
  | continuous hm => simp [(checkMask_ok hm).1, Reservation.idle]

theorem grant_proper (mask : Mask) : held.grant mask =
    if held = .idle then .ok (.idle, ⟨mask, .reserved⟩)
    else if held.active = mask then .ok (held.session, held)
    else .error (held.busy mask) := by
  simp [Reservation.grant, Reservation.isIdle, proper_isEmpty h]

theorem refusal_proper (mask : Mask) (welcomes : Session → Bool) : held.refusal mask welcomes =
    if held = .idle ∨ held.active = mask ∧ welcomes held.session = true then none
    else some (held.busy mask) := by
  simp [Reservation.refusal, Reservation.busy, proper_isEmpty h]

/-- A request finds no session under way and is granted, or comes back to the session that holds
its mask, or is refused. -/
theorem grant_cases (mask : Mask) :
    (∃ prior, (prior = .idle ∨ prior = .reserved) ∧ held = .before mask prior ∧
      held.grant mask = .ok (prior, ⟨mask, .reserved⟩)) ∨
    (held.active = mask ∧ ¬ held.IsVacant ∧ held.grant mask = .ok (held.session, held)) ∨
    (held ≠ .idle ∧ held.active ≠ mask ∧ held.grant mask = .error (held.busy mask)) := by
  by_cases hidle : held = .idle
  · exact .inl ⟨.idle, .inl rfl, hidle, by rw [grant_proper h, if_pos hidle]⟩
  by_cases hmask : held.active = mask
  · have hgrant : held.grant mask = .ok (held.session, held) := by
      simp [grant_proper h, hidle, hmask]
    subst hmask
    cases h with
    | idle => exact absurd rfl hidle
    | reserved hm => exact .inl ⟨.reserved, .inr rfl, rfl, hgrant⟩
    | oneShot c => exact .inr (.inl ⟨rfl, by simp [Reservation.IsVacant], hgrant⟩)
    | timeCritical c => exact .inr (.inl ⟨rfl, by simp [Reservation.IsVacant], hgrant⟩)
    | continuous hm => exact .inr (.inl ⟨rfl, by simp [Reservation.IsVacant], hgrant⟩)
  · exact .inr (.inr ⟨hidle, hmask, by simp [grant_proper h, hidle, hmask]⟩)

/-- Who comes to a session that it cannot go on with is refused. -/
theorem refusal_underway {mask : Mask} {welcomes : Session → Bool} (hvacant : ¬ held.IsVacant)
    (hunwelcome : held.session ≠ .reserved → welcomes held.session = false) :
    held.refusal mask welcomes = some (held.busy mask) := by
  have hidle : held ≠ .idle := fun hidle => hvacant (hidle ▸ .inl rfl)
  have hreserved : held.session ≠ .reserved := fun hreserved => hvacant (.inr hreserved)
  simp [refusal_proper h, hidle, hunwelcome hreserved]

theorem refusal_elsewhere {mask : Mask} {welcomes : Session → Bool} (hidle : held ≠ .idle)
    (hmask : held.active ≠ mask) : held.refusal mask welcomes = some (held.busy mask) := by
  simp [refusal_proper h, hidle, hmask]

end

theorem endRefusal_mismatch {r : Reservation} {mask : Mask} {session : Session}
    (h : r.active ≠ mask ∨ r.session ≠ session) :
    (r.endRefusal mask fun s => s = session) = some (r.mismatch mask) := by
  rcases h with h | h <;> simp [Reservation.endRefusal, Reservation.mismatch, h]

section

variable {prior : Session} (hp : prior = .idle ∨ prior = .reserved) (mask : Mask)

include hp

theorem isVacant_before : (Reservation.before mask prior).IsVacant := by
  obtain rfl | rfl := hp
  · exact .inl rfl
  · exact .inr rfl

theorem refusal_before {welcomes : Session → Bool} (hwelcome : welcomes .reserved = true) :
    (Reservation.before mask prior).refusal mask welcomes = none := by
  obtain rfl | rfl := hp
  · rfl
  · simp [Reservation.before, Reservation.refusal, hwelcome]

end

/-! ## Sections -/

section

variable {config : Config} {command : Command φ} {held : Reservation}

/-- An operation of one section, which afterwards only reports the result of the section, ends as
the section does. -/
theorem obeys_section {body : Reservation → Operation κ φ (Except AdcError α × Reservation)}
    {tail : Except AdcError α → Operation κ φ (Except AdcError α)}
    {post : Except AdcError α → Account κ φ → Prop}
    (hbody : ∀ held : Reservation, held.Proper → (body held).Obeys (accounting command)
      { entry := some held, found := some held } fun r a => post r.1 (a.after (.leave r.2) ()))
    (htail : ∀ result a, (tail result).Obeys (accounting command) a fun result' a' =>
      result' = result ∧ a' = a) :
    ((locked body).bind tail).Obeys (accounting command) {} post := by
  rw [Program.obeys_bind]
  refine Account.obeys_locked fun held hheld _ => (hbody held hheld).mono ?_
  intro r a h
  refine (htail _ _).mono ?_
  rintro _ _ ⟨rfl, rfl⟩
  exact h

theorem ending_refused {e : AdcError} (hrefusal : command.refusal held = some e) :
    Ending config command (some e)
      (({ entry := some held, found := some held } : Account κ φ).after (.leave held) ()) :=
  .refused rfl hrefusal (by simp [Account.after]) rfl

/-- An operation that found no session under way, and puts back what it found. -/
theorem ending_restored {a : Account κ φ} {fault : HardwareFault} (hvacant : held.IsVacant)
    (hfound : a.found = some held) (hrefusal : command.refusal held = none)
    (hfallback : command.fallback held = held) (hfault : a.fault? = some fault)
    (hleft : a.left.head? = some held) :
    Ending config command (some (.hardware fault)) a := by
  refine .failed hfound hrefusal hfault (by rw [hfallback, hleft]) fun c hc => ?_
  rcases hvacant with hv | hv <;> simp [hv] at hc

/-- An operation that takes down what it found ends with the idle reservation, and with the first
failure of the teardown. -/
theorem ending_of_teardown {a : Account κ φ} {result : Except HardwareFault Unit}
    (hfound : a.found = some held) (hrefusal : command.refusal held = none)
    (hfallback : command.fallback held = .idle) (hfault : a.fault? = errorOf result)
    (hdeleted : ∀ c, held.session = .timeCritical c →
      a.calls.countP AnsweredCall.isDeletion = 1) :
    Ending config command (errorOf (result.mapError .hardware)) (a.after (.leave .idle) ()) := by
  cases result with
  | error fault => exact .failed hfound hrefusal hfault (by rw [hfallback]; rfl) hdeleted
  | ok value => exact .completed hfound hrefusal

end

end Controller

end SharedAdc
