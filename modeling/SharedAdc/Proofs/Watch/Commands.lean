/-
How every operation of a controller ends for a party that keeps watch. A stream that runs after an
operation either ran before it, on the same channels and the same table, or the operation has
started it on the table of its request.
-/
import SharedAdc.Proofs.Watch.Continuous
import SharedAdc.Proofs.Watch.OneShot

namespace SharedAdc.Controller

variable {κ φ α β : Type} {custom : Custom φ} {last : View φ}

/-! ## Calibration -/

theorem convertEach_watched (context : κ) (raws : List UInt16) :
    (convertEach context raws : Operation κ φ _).Obeys (watch custom) (.away last)
      fun _ mode => mode = .away last := by
  induction raws with
  | nil => rfl
  | cons raw raws ih =>
    unfold convertEach
    simp only [Program.bind_eq, Program.obeys_bind]
    rw [watch_hardware_away]
    intro reply
    refine ih.mono ?_
    rintro rest _ rfl
    rfl

theorem convertInScope_watched (channel : Channel) (range : Range) (raws : List UInt16) :
    (convertInScope channel range raws : Operation κ φ _).Obeys (watch custom) (.away last)
      fun _ mode => mode = .away last := by
  unfold convertInScope withCalibration
  simp only [Program.bind_eq, Program.obeys_bind]
  rw [watch_hardware_away]
  rintro (fault | context)
  · rfl
  · simp only [Program.obeys_bind]
    refine (convertEach_watched context raws).mono ?_
    rintro results _ rfl
    rw [watch_hardware_away]
    exact fun _ => rfl

/-- Calibrating changes nothing, and fails with a fault of the hardware unless there is nothing to
calibrate. -/
theorem calibrate_watched (config : Config) (channel : Channel) (attenuation : Attenuation)
    (samples : List UInt16) :
    (calibrate config channel attenuation samples : Operation κ φ _).Obeys (watch custom)
      (.away last) fun r mode => mode = .away last ∧
        ∀ e, r.1 = .error e → samples = [] ∨ e.requiresReinit = true := by
  unfold calibrate
  split
  · rename_i hempty
    exact ⟨rfl, fun _ _ => .inl (List.isEmpty_iff.1 hempty)⟩
  · simp only [Program.bind_eq, Program.obeys_bind]
    refine (convertInScope_watched _ _ _).mono ?_
    rintro (fault | results) _ rfl
    · refine ⟨rfl, ?_⟩
      rintro _ ⟨⟩
      exact .inr rfl
    · dsimp only
      split
      · refine ⟨rfl, ?_⟩
        rintro _ ⟨⟩
        exact .inr rfl
      · exact ⟨rfl, by simp⟩

/-! ## Commands -/

/-- The request of a command for a stream. -/
def Command.request? : Command φ → Option (ContinuousRequest φ)
  | .startContinuous request => some request
  | .submit (.continuous request) => some request
  | _ => none

/-- A stream that runs after a command was there before it, or is the one that it has started. -/
def Command.Streams (config : Config) (c : Command φ) (v v' : View φ) : Prop :=
  v'.session = .continuous →
    (v'.reservation = v.reservation ∧ v'.table = v.table) ∨
      (v.session ≠ .continuous ∧ ∃ request, c.request? = some request ∧
        v'.reservation.active = request.mask ∧ v'.table = request.pattern config)

namespace Command.Streams

variable {config : Config} {c : Command φ} {v v' : View φ}

theorem unchanged : c.Streams config v v := fun _ => .inl ⟨rfl, rfl⟩

theorem ended {table : List PatternEntry} : c.Streams config v { table } := fun h => by cases h

theorem of_steady (h : v.Steady v') : c.Streams config v v' := fun hsession =>
  .inl ⟨h.lasting (.inr (by rw [hsession]; trivial)), h.table⟩

/-- What bursts do before and after makes no difference. -/
theorem steady {u w : View φ} (h : c.Streams config v v') (hu : u.Steady v) (hw : v'.Steady w) :
    c.Streams config u w := by
  intro hsession
  have hlasts : (Session.continuous).Lasts := trivial
  have hmiddle : v'.session = .continuous := (hw.session_eq_iff hlasts).1 hsession
  have hres : w.reservation = v'.reservation := hw.lasting (.inl (by rw [hmiddle]; trivial))
  rcases h hmiddle with ⟨hsame, htable⟩ | ⟨hnot, request, hc, hactive, htable⟩
  · have hbefore : v.session = .continuous := by rw [View.session, ← hsame]; exact hmiddle
    have hfound : v.reservation = u.reservation := hu.lasting (.inr (by rw [hbefore]; trivial))
    exact .inl ⟨hres.trans (hsame.trans hfound), hw.table.trans (htable.trans hu.table)⟩
  · refine .inr ⟨fun hs => hnot ((hu.session_eq_iff hlasts).2 hs), request, hc, ?_,
      hw.table.trans htable⟩
    rw [hres]
    exact hactive

theorem of_starts {request : ContinuousRequest φ} {result : Except AdcError Unit}
    (hc : c.request? = some request) (h : Starts config request result v v') :
    c.Streams config v v' := by
  cases h with
  | refused he => exact .unchanged
  | failed hshort table =>
    intro hsession
    rw [show v.session = .continuous from hsession] at hshort
    exact absurd trivial hshort
  | swapped hs hr callback => exact fun _ => .inl ⟨rfl, rfl⟩
  | started hm hshort callback =>
    refine fun _ => .inr ⟨fun hsession => ?_, request, hc, rfl, rfl⟩
    rw [hsession] at hshort
    exact hshort trivial

theorem of_arms {channel : Channel} {result : Except AdcError Unit}
    (h : Arms channel result v v') : c.Streams config v v' := by
  cases h with
  | refused | failed => exact .unchanged
  | disarmed => exact .ended
  | armed => exact fun hsession => by cases hsession

end Command.Streams

theorem watch_map {p : Operation κ φ α} {deal : α → View φ → View φ → Prop}
    {deal' : View φ → View φ → Prop}
    (h : p.Obeys (watch custom) (.away last) (custom.Ends last deal)) (f : α → β)
    (himp : ∀ a v v', deal a v v' → deal' v v') :
    (p.bind fun a => .done (f a)).Obeys (watch custom) (.away last)
      (custom.Ends last fun _ => deal') := by
  refine h.map f ?_
  rintro a _ ⟨v, v', hv, hdeal, rfl⟩
  exact ⟨v, v', hv, himp a v v' hdeal, rfl⟩

theorem startSampling_watched (hfree : custom.Free) (config : Config)
    (request : SamplingRequest φ) :
    (startSampling config request : Operation κ φ _).Obeys (watch custom) (.away last)
      (custom.Ends last fun _ => (Command.submit request).Streams config) := by
  unfold startSampling
  split
  · exact Custom.ends_unchanged .unchanged
  · simp only [Program.bind_eq, Program.obeys_bind, watch_note]
    cases request with
    | oneShot r => exact watch_map (sampleOnce_watched config _ _ _) _ fun _ _ _ h => .of_steady h
    | continuous r =>
      exact watch_map (startContinuous_watched hfree config r) _ fun _ _ _ h => .of_starts rfl h

theorem operation_watched (hfree : custom.Free) (hfair : ∀ r, custom.fair r) (config : Config)
    (c : Command φ) :
    (c.operation config : Operation κ φ Result).Obeys (watch custom) (.away last)
      (custom.Ends last fun _ => c.Streams config) := by
  have hebbs : custom.Ebbs := hfree.ebbs
  have hlooked : ∀ {γ : Type} {p : Operation κ φ γ} (f : γ → Result),
      (p.Obeys (watch custom) (.away last) fun _ mode => mode = .away last) →
        (p.bind fun a => .done (f a)).Obeys (watch custom) (.away last)
          (custom.Ends last fun _ => c.Streams config) := by
    intro γ p f h
    refine h.map f ?_
    rintro a _ rfl
    exact Custom.ends_unchanged .unchanged
  cases c with
  | reserve mask =>
    exact watch_map (tryReserve_watched (fun m => hfair _) mask) _ fun _ _ _ h => .of_steady h
  | release mask =>
    refine watch_map (release_watched hebbs mask) _ fun _ _ _ h => ?_
    cases h with
    | refused => exact .unchanged
    | released => exact .ended
  | sampleOnce channel attenuation count =>
    exact watch_map (sampleOnce_watched _ _ _ _) _ fun _ _ _ h => .of_steady h
  | setupTimeCritical channel attenuation =>
    exact watch_map (setupTimeCritical_watched hfree _ _ _) _ fun _ _ _ h => .of_arms h
  | sampleTimeCritical channel count =>
    refine watch_map (sampleTimeCritical_watched _ _) _ fun _ _ _ h => ?_
    obtain ⟨rfl, -⟩ := h
    exact .unchanged
  | releaseTimeCritical channel =>
    refine watch_map (releaseTimeCritical_watched hfree _) _ fun _ _ _ h => ?_
    cases h with
    | refused => exact .unchanged
    | disarmed => exact .ended
  | startContinuous request =>
    exact watch_map (startContinuous_watched hfree _ _) _ fun _ _ _ h => .of_starts rfl h
  | stopContinuous mask =>
    refine watch_map (stopContinuous_watched hebbs _) _ fun _ _ _ h => ?_
    cases h with
    | refused => exact .unchanged
    | stopped => exact .ended
  | reinit =>
    refine watch_map (reinit_watched hebbs) _ fun _ _ _ h => ?_
    cases h with
    | refused => exact .unchanged
    | restarted => exact .ended
  | submit request => exact watch_map (startSampling_watched hfree _ _) _ fun _ _ _ h => h
  | calibrate channel attenuation samples =>
    exact hlooked _ ((calibrate_watched config channel attenuation samples).mono
      fun _ _ h => h.1)
  | calibrateIndex index attenuation samples =>
    simp only [Command.operation, calibrateIndex]
    split
    · exact Custom.ends_unchanged .unchanged
    · exact hlooked _ ((calibrate_watched config _ attenuation samples).mono fun _ _ h => h.1)
  | convertInScope channel range raws => exact hlooked _ (convertInScope_watched channel range raws)
  | config => exact Custom.ends_unchanged .unchanged
  | malformed call reason => exact Custom.ends_unchanged .unchanged

end SharedAdc.Controller
