/-
Starting and stopping a stream keeps the rules of conduct, whatever the hardware replies. The driver
is set up and taken down with the slot empty.
-/
import SharedAdc.Proofs.Callers.Holding

namespace SharedAdc.Controller

open Mode Standing

variable {κ φ : Type} {entry now : Standing φ}

/-- A driver that is launched ends with the callback in place and started; one that is not still
needs to be taken down. -/
theorem launch_obeys {rate : UInt32} {pattern : List PatternEntry} {callback : φ}
    (he : entry.reservation.session ≠ .oneShot) (hc : now.callback = none)
    (hp : now.paths = { driver := some false }) :
    (launch rate pattern callback : Operation κ φ _).Obeys conduct (.inside none entry now)
      fun result mode => ∃ installed, mode = .inside none entry { now with
        callback := installed, paths := { driver := some result.isOk } } ∧
        (result.isOk = true → installed = some callback) := by
  obtain ⟨held, armed, installed, paths⟩ := now
  subst hc hp
  unfold launch
  simp only [Program.bind_eq, Program.obeys_bind]
  rw [obeys_hardware_inside]
  refine ⟨⟨rfl, fun h => absurd h he, .inl rfl⟩, ?_⟩
  rintro (fault | ⟨⟩)
  · exact ⟨none, rfl, fun h => by cases h⟩
  · simp only [Program.obeys_bind, obeys_ask_resetFrameCounts, obeys_ask_installCallback]
    refine ⟨he, he, ?_⟩
    rw [obeys_hardware_inside]
    refine ⟨⟨rfl, fun h => absurd h he, .inr (.inl rfl)⟩, ?_⟩
    rintro (fault | ⟨⟩)
    · exact ⟨some callback, rfl, fun h => by cases h⟩
    · dsimp only
      rw [obeys_hardware_inside]
      refine ⟨⟨rfl, fun h => absurd h he, .inr (.inr rfl)⟩, ?_⟩
      rintro (fault | ⟨⟩) <;> exact ⟨some callback, rfl, fun _ => rfl⟩

/-- A stream that is not started leaves no driver open. -/
theorem configureStream_obeys {rate : UInt32} {pattern : List PatternEntry} {frameBytes : UInt32}
    {callback : φ} (he : entry.reservation.session ≠ .oneShot) (hc : now.callback = none)
    (hp : now.paths = {}) :
    (configureStream rate pattern frameBytes callback : Operation κ φ _).Obeys conduct
      (.inside none entry now) fun result mode => mode = .inside none entry
        (if result.isOk then
          { now with callback := some callback, paths := { driver := some true } }
        else now) := by
  obtain ⟨held, armed, installed, paths⟩ := now
  subst hc hp
  unfold configureStream
  simp only [Program.bind_eq, Program.obeys_bind]
  rw [obeys_hardware_inside]
  refine ⟨⟨⟨rfl, rfl⟩, fun h => absurd h he, .inl rfl⟩, ?_⟩
  rintro (fault | ⟨⟩)
  · rfl
  · simp only [Program.obeys_bind]
    refine (launch_obeys he rfl rfl).mono ?_
    rintro (fault | ⟨⟩) _ ⟨installed, rfl, hinstalled⟩
    · simp only [Program.obeys_bind, obeys_ask_clearCallback]
      refine ⟨he, ?_⟩
      rw [obeys_hardware_inside]
      exact ⟨⟨rfl, fun h => absurd h he, .inl rfl⟩, fun deinit => rfl⟩
    · obtain rfl := hinstalled rfl
      rfl

/-- Channels that are granted for a stream are held by it once it runs, and are as free as before
if it cannot be started. -/
theorem startContinuous_granted {request : ContinuousRequest φ} {config : Config} {prior : Session}
    {granted : Reservation} {frameBytes : UInt32} {callback : φ} (hs : now.Sound)
    (hm : checkMask request.mask = .ok ())
    (hg : now.reservation.grant request.mask = .ok (prior, granted))
    (hp : prior = .idle ∨ prior = .reserved) :
    ((configureStream request.rate (request.pattern config) frameBytes callback :
      Operation κ φ _).bind fun result => match result with
        | .error fault => .done (.error (.hardware fault), .before request.mask prior)
        | .ok () => .done ((.ok () : Except AdcError Unit),
          { granted with session := .continuous })).Obeys conduct
      (.inside none now now) (EndsWell now) := by
  obtain ⟨rfl, rfl⟩ := hs.vacant hg hp
  have he := before_not_oneShot request.mask hp
  rw [Program.obeys_bind]
  refine (configureStream_obeys he rfl rfl).mono ?_
  rintro (fault | ⟨⟩) _ rfl
  · exact endsWell_unchanged hs _
  · exact endsWell_sound he (.continuous hm callback) (by simp) _

theorem startContinuous_behaves (config : Config) (request : ContinuousRequest φ) :
    Behaves (startContinuous config request : Operation κ φ _) := by
  unfold startContinuous
  split
  · exact behaves_done _
  · exact behaves_done _
  · exact behaves_done _
  · rename_i hcheck _ _
    have hm := (ContinuousRequest.check_ok hcheck).1
    refine behaves_locked (fun s hs => ?_) fun result => ?_
    · split
      · exact endsWell_unchanged hs _
      · rename_i prior granted hg
        split
        · obtain rfl := Sound.granted_eq hg (by simp)
          obtain ⟨-, h, -⟩ | ⟨-, hr, -⟩ := grant_ok hg
          · cases h
          have he : s.reservation.session ≠ .oneShot := by simp [hr]
          obtain ⟨hactive, installed, hs'⟩ := hs.eq_continuous (by simp [hr])
          simp only [Program.bind_eq, Program.obeys_bind]
          rw [obeys_ask_installCallback]
          refine ⟨he, ?_⟩
          rw [obeys_note]
          refine ⟨rfl, endsWell_sound he ?_ (by simp [hr]) _⟩
          rw [hs']
          exact .continuous hactive _
        · exact startContinuous_granted hs hm hg (.inl rfl)
        · exact startContinuous_granted hs hm hg (.inr rfl)
        · rename_i hidle _ _
          rw [Sound.granted_eq hg (by assumption)]
          exact endsWell_unchanged hs _
    · cases result <;> exact behaves_note _ _

theorem stopContinuous_behaves (mask : Mask) :
    Behaves (stopContinuous mask : Operation κ φ _) := by
  unfold stopContinuous
  split
  · exact behaves_done _
  · refine behaves_locked (fun s hs => ?_) fun result => ?_
    · split
      · exact endsWell_unchanged hs _
      · rename_i hheld
        obtain ⟨-, hcont⟩ : s.reservation.active = mask ∧ s.reservation.session = .continuous := by
          simpa using hheld
        have he : s.reservation.session ≠ .oneShot := by simp [hcont]
        have hdown := teardown_obeys (κ := κ) hs he
        rw [hcont] at hdown
        simp only [Program.bind_eq, Program.obeys_bind]
        refine hdown.mono ?_
        rintro result _ rfl
        exact endsWell_sound he .idle (by simp [Reservation.idle]) _
    · split
      · unfold Behaves
        simp
      · exact behaves_note _ _

end SharedAdc.Controller
