/-
How reserving, releasing and starting afresh end for a party that keeps watch, whatever the hardware
replies.
-/
import SharedAdc.Proofs.Callers.Sections
import SharedAdc.Proofs.Watch.Basic

namespace SharedAdc.Controller

open Standing

variable {κ φ α : Type}

/-! ## Sections that end as agreed -/

namespace Custom

variable {custom : Custom φ}

/-- A section may put `held` back, and what it leaves behind is as `deal` has it. -/
def Puts (custom : Custom φ) (deal : View φ → Prop) (held : Reservation) (mode : Outlook φ) : Prop :=
  ∃ now tried, mode = .inside now tried ∧ custom.fair held ∧
    custom.keeps now { now with reservation := held } ∧ deal { now with reservation := held }

/-- An operation has found what the party could count on, and has left what `deal` makes of it. -/
def Ends (custom : Custom φ) (last : View φ) (deal : α → View φ → View φ → Prop) (a : α)
    (mode : Outlook φ) : Prop :=
  ∃ v v', custom.relies last v ∧ deal a v v' ∧ mode = .away v'

/-- The party may take down whatever there is. -/
def Ebbs (custom : Custom φ) : Prop := ∀ {v v' : View φ}, v.Ebbing v' → custom.keeps v v'

theorem Free.ebbs (h : custom.Free) : custom.Ebbs := fun _ => h _ _

theorem puts_unchanged {deal : View φ → Prop} {v : View φ} {tried : Bool}
    (hfair : custom.fair v.reservation) (h : deal v) :
    custom.Puts deal v.reservation (.inside v tried) :=
  ⟨v, tried, rfl, hfair, custom.keeps_of_steady (.refl v), h⟩

theorem ends_unchanged {deal : α → View φ → View φ → Prop} {last : View φ} {a : α}
    (h : deal a last last) : custom.Ends last deal a (.away last) :=
  ⟨last, last, custom.refl last, h, rfl⟩

end Custom

section

variable {custom : Custom φ} {last : View φ}

/-- A section ends as agreed when its body does, from whatever sound view it can find. -/
theorem watch_body {body : Reservation → Operation κ φ (α × Reservation)}
    {deal : α → View φ → View φ → Prop}
    (hbody : ∀ v : View φ, v.Sound → custom.fair v.reservation →
      (body v.reservation).Obeys (watch custom) (.inside v false) fun r mode =>
        custom.Puts (deal r.1 v) r.2 mode) :
    (locked body).Obeys (watch custom) (.away last) (custom.Ends last deal) := by
  apply watch_locked
  intro v hv hs hfair
  refine (hbody v hs hfair).mono ?_
  rintro ⟨a, held⟩ _ ⟨now, tried, rfl, hput, hkeeps, hdeal⟩
  exact ⟨now, tried, rfl, hput, hkeeps, v, _, hv, hdeal, rfl⟩

/-- An operation ends as its section does, if what comes after the section only passes the result
on. -/
theorem watch_section {body : Reservation → Operation κ φ (α × Reservation)}
    {tail : α → Operation κ φ α} {deal : α → View φ → View φ → Prop}
    (hbody : ∀ v : View φ, v.Sound → custom.fair v.reservation →
      (body v.reservation).Obeys (watch custom) (.inside v false) fun r mode =>
        custom.Puts (deal r.1 v) r.2 mode)
    (htail : ∀ a v, (tail a).Obeys (watch custom) (.away v) fun b mode =>
      b = a ∧ mode = .away v) :
    ((locked body).bind tail).Obeys (watch custom) (.away last) (custom.Ends last deal) := by
  rw [Program.obeys_bind]
  refine (watch_body hbody).mono ?_
  rintro a _ ⟨v, v', hv, hdeal, rfl⟩
  refine (htail a v').mono ?_
  rintro _ _ ⟨rfl, rfl⟩
  exact ⟨v, v', hv, hdeal, rfl⟩

theorem watch_note_done (notice : Notice) (a : α) (v : View φ) :
    ((note notice : Operation κ φ Unit).bind fun _ => .done a).Obeys (watch custom) (.away v)
      fun b mode => b = a ∧ mode = .away v := by
  rw [Program.obeys_bind, watch_note]
  exact ⟨rfl, rfl⟩

/-! ## Reserving -/

theorem grant_error {r : Reservation} {mask : Mask} {e : AdcError} (h : r.grant mask = .error e) :
    e = r.busy mask := by
  unfold Reservation.grant at h
  split at h
  · cases h
  · split at h <;> cases h
    rfl

theorem not_lasts_before (mask : Mask) {prior : Session} (hp : prior = .idle ∨ prior = .reserved) :
    ¬(Reservation.before mask prior).session.Lasts := by
  obtain rfl | rfl := hp <;> exact id

theorem View.not_lasts_of_vacant {v : View φ} {mask : Mask} {prior : Session}
    (h : v.toStanding = ⟨.before mask prior, none, none, {}⟩)
    (hp : prior = .idle ∨ prior = .reserved) : ¬v.session.Lasts := by
  have hr : v.reservation = .before mask prior := congrArg Standing.reservation h
  rw [View.session, hr]
  exact not_lasts_before mask hp

/-- Where sessions may be only reserved, reserving disturbs nobody. -/
theorem tryReserve_watched (hfair : ∀ mask, custom.fair ⟨mask, .reserved⟩) (mask : Mask) :
    (tryReserve mask : Operation κ φ _).Obeys (watch custom) (.away last)
      (custom.Ends last fun _ v v' => v.Steady v') := by
  unfold tryReserve
  split
  · exact Custom.ends_unchanged (.refl last)
  · refine watch_section (fun v hs hv => ?_) fun result v => ?_
    · split
      · exact Custom.puts_unchanged hv (.refl v)
      · rename_i prior held hg
        by_cases hp : prior = .idle
        · obtain ⟨hvacant, rfl⟩ := hs.vacant hg (.inl hp)
          subst hp
          have hshort := View.not_lasts_of_vacant hvacant (.inl rfl)
          have hsteady : v.Steady { v with reservation := ⟨mask, .reserved⟩ } :=
            .of_not_lasts rfl rfl rfl hshort id
          exact ⟨v, false, rfl, hfair mask, custom.keeps_of_steady hsteady, hsteady⟩
        · rw [Sound.granted_eq hg hp]
          exact Custom.puts_unchanged hv (.refl v)
    · cases result <;> exact watch_note_done _ _ _

/-! ## Taking down -/

/-- What there is of a session is taken down: no path, no armed channel, no callback. -/
theorem teardown_watched (hebbs : custom.Ebbs) {v : View φ} (hs : v.Sound)
    (hne : v.session ≠ .oneShot) (tried : Bool) :
    (teardown v.session : Operation κ φ _).Obeys (watch custom) (.inside v tried)
      fun _ mode => ∃ table tried', mode =
        .inside { reservation := v.reservation, table } tried' := by
  have hcall : ∀ (u : View φ) (call : HardwareCall κ) reply,
      custom.keeps u (u.after (.hardware call) reply) :=
    fun u call reply => hebbs ⟨.inl rfl, .inl rfl, fun _ => rfl⟩
  obtain ⟨standing, table⟩ := v
  cases hs with
  | idle => exact ⟨table, tried, rfl⟩
  | reserved hm => exact ⟨table, tried, rfl⟩
  | oneShot c => exact absurd rfl hne
  | timeCritical c =>
    simp only [teardown, Program.bind_eq, Program.obeys_bind]
    rw [watch_arm]
    refine ⟨hebbs ⟨.inr rfl, .inl rfl, fun _ => rfl⟩, ?_⟩
    rw [watch_hardware]
    exact ⟨hcall _ _, trivial, fun reply => ⟨_, _, rfl⟩⟩
  | continuous hm callback =>
    simp only [teardown, Program.bind_eq, Program.obeys_bind]
    rw [watch_clearCallback]
    refine ⟨hebbs ⟨.inl rfl, .inr rfl, fun _ => rfl⟩, ?_⟩
    rw [watch_hardware]
    refine ⟨hcall _ _, trivial, fun stopped => ?_⟩
    -- by now a call has been made that could fail
    rw [watch_hardware]
    exact ⟨hcall _ _, Bool.or_true tried, fun deinit => ⟨_, _, rfl⟩⟩

/-- What is left where a session was taken down and its reservation given up. -/
theorem Custom.Ebbs.puts_idle (hebbs : custom.Ebbs) {deal : View φ → Prop} {held : Reservation}
    {table : List PatternEntry} {tried : Bool} (h : deal { table }) :
    custom.Puts deal .idle (.inside { reservation := held, table } tried) :=
  ⟨_, tried, rfl, custom.fair_of_ne (by simp [Reservation.idle]),
    hebbs ⟨.inl rfl, .inl rfl, fun hlast => hlast.elim⟩, h⟩

/-- How releasing ends: nothing is changed, or the session is taken down. -/
inductive Releases : Except AdcError Unit → View φ → View φ → Prop where
  | refused {e : AdcError} {v : View φ} : Releases (.error e) v v
  | released {result : Except AdcError Unit} {v : View φ} (table : List PatternEntry) :
    Releases result v { table }

theorem release_watched (hebbs : custom.Ebbs) (mask : Mask) :
    (release mask : Operation κ φ _).Obeys (watch custom) (.away last)
      (custom.Ends last Releases) := by
  unfold release
  split
  · exact Custom.ends_unchanged .refused
  · refine watch_section (fun v hs hv => ?_) fun result v => ?_
    · split
      · exact Custom.puts_unchanged hv .refused
      · split
        · exact Custom.puts_unchanged hv .refused
        · rename_i hne
          simp only [Program.bind_eq, Program.obeys_bind]
          refine (teardown_watched hebbs hs hne _).mono ?_
          rintro result _ ⟨table, tried, rfl⟩
          exact hebbs.puts_idle (.released table)
    · cases result <;> exact watch_note_done _ _ _

/-- How a fresh start ends: it is turned down during a burst, and else nothing is left. -/
inductive Restarts : Except AdcError Unit → View φ → View φ → Prop where
  | refused {e : AdcError} {v : View φ} (hs : v.Sound) (h : v.session = .oneShot) :
    Restarts (.error e) v v
  | restarted {result : Except AdcError Unit} {v : View φ} (table : List PatternEntry) :
    Restarts result v { table }

theorem reinit_watched (hebbs : custom.Ebbs) :
    (reinit : Operation κ φ _).Obeys (watch custom) (.away last)
      (custom.Ends last Restarts) := by
  unfold reinit
  refine watch_section (fun v hs hv => ?_) fun result v => ?_
  · split
    · rename_i hone
      exact Custom.puts_unchanged hv (.refused hs hone)
    · rename_i hne
      simp only [Program.bind_eq, Program.obeys_bind]
      refine (teardown_watched hebbs hs hne _).mono ?_
      rintro result _ ⟨table, tried, rfl⟩
      rw [watch_clearCallback]
      refine ⟨hebbs ⟨.inl rfl, .inr rfl, fun _ => rfl⟩, ?_⟩
      rw [watch_arm]
      exact ⟨hebbs ⟨.inr rfl, .inl rfl, fun _ => rfl⟩, hebbs.puts_idle (.restarted table)⟩
  · split <;> exact watch_note_done _ _ _

end

end SharedAdc.Controller
