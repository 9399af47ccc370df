/-
How starting and stopping a stream ends for a party that keeps watch, whatever the hardware replies.
A stream that was started runs on the table of its request.
-/
import SharedAdc.Proofs.Watch.Holding

namespace SharedAdc.Controller

open Standing

variable {κ φ : Type} {custom : Custom φ} {last now : View φ}

/-! ## Starting -/

/-- A driver that is launched ends with the callback in place, set up with the table and started. -/
theorem launch_watched (hfree : custom.Free) {rate : UInt32} {pattern : List PatternEntry}
    {callback : φ} {tried : Bool} (hp : now.paths = { driver := some false }) :
    (launch rate pattern callback : Operation κ φ _).Obeys (watch custom) (.inside now tried)
      fun result mode => ∃ installed table, mode = .inside
        { now with callback := installed, paths := { driver := some result.isOk }, table } true ∧
        (result.isOk = true → installed = some callback ∧ table = pattern) := by
  obtain ⟨⟨held, armed, installed, paths⟩, table⟩ := now
  obtain rfl : paths = { driver := some false } := hp
  unfold launch
  simp only [Program.bind_eq, Program.obeys_bind]
  rw [watch_hardware]
  refine ⟨fun _ => hfree _ _, rfl, ?_⟩
  have htried : ∀ b, (tried || b || true) = true := fun b => Bool.or_true _
  rintro (fault | ⟨⟩)
  · exact ⟨installed, table, congrArg (Outlook.inside _) (Bool.or_true tried), fun h => by cases h⟩
  · simp only [Program.obeys_bind]
    rw [watch_resetFrameCounts, watch_installCallback]
    refine ⟨hfree _ _, ?_⟩
    rw [watch_hardware]
    refine ⟨fun _ => hfree _ _, trivial, ?_⟩
    rintro (fault | ⟨⟩)
    · exact ⟨some callback, pattern, congrArg (Outlook.inside _) (htried _), fun h => by cases h⟩
    · dsimp only
      rw [watch_hardware]
      refine ⟨fun _ => hfree _ _, trivial, ?_⟩
      rintro (fault | ⟨⟩) <;>
        exact ⟨some callback, pattern, congrArg (Outlook.inside _) (Bool.or_true _),
          fun _ => ⟨rfl, rfl⟩⟩

/-- A stream that is not started leaves nothing but the table of its attempt. -/
theorem configureStream_watched (hfree : custom.Free) {rate : UInt32} {pattern : List PatternEntry}
    {frameBytes : UInt32} {callback : φ} {tried : Bool} (hc : now.callback = none)
    (hp : now.paths = {}) :
    (configureStream rate pattern frameBytes callback : Operation κ φ _).Obeys (watch custom)
      (.inside now tried) fun result mode => match result with
        | .error _ => ∃ table, mode = .inside { now with table } true
        | .ok () => mode = .inside { now with
            callback := some callback, paths := { driver := some true }, table := pattern } true := by
  obtain ⟨⟨held, armed, installed, paths⟩, table⟩ := now
  obtain rfl : installed = none := hc
  obtain rfl : paths = {} := hp
  unfold configureStream
  simp only [Program.bind_eq, Program.obeys_bind]
  rw [watch_hardware]
  refine ⟨fun _ => hfree _ _, trivial, ?_⟩
  rintro (fault | ⟨⟩)
  · exact ⟨table, congrArg (Outlook.inside _) (Bool.or_true tried)⟩
  · simp only [Program.obeys_bind]
    refine (launch_watched hfree rfl).mono ?_
    rintro (fault | ⟨⟩) _ ⟨installed, table', rfl, hok⟩
    · simp only [Program.obeys_bind]
      rw [watch_clearCallback]
      refine ⟨hfree _ _, ?_⟩
      rw [watch_hardware]
      exact ⟨fun _ => hfree _ _, rfl, fun deinit => ⟨table', rfl⟩⟩
    · obtain ⟨rfl, rfl⟩ := hok rfl
      rfl

/-- How starting a stream ends: refused, failed with nothing of it left, a new callback on the
running stream, or a new stream. -/
inductive Starts (config : Config) (request : ContinuousRequest φ) :
    Except AdcError Unit → View φ → View φ → Prop where
  | refused {e : AdcError} {v : View φ} (he : e.requiresReinit = false) :
    Starts config request (.error e) v v
  | failed {fault : HardwareFault} {v : View φ} (h : ¬v.session.Lasts)
    (table : List PatternEntry) :
    Starts config request (.error (.hardware fault)) v { v with table }
  | swapped {v : View φ} (hs : v.Sound) (h : v.reservation = ⟨request.mask, .continuous⟩)
    (callback : φ) : Starts config request (.ok ()) v { v with callback := some callback }
  | started {v : View φ} (hm : checkMask request.mask = .ok ()) (h : ¬v.session.Lasts)
    (callback : φ) : Starts config request (.ok ()) v
      { reservation := ⟨request.mask, .continuous⟩
        callback := some callback
        paths := { driver := some true }
        table := request.pattern config }

theorem startContinuous_granted_watched (hfree : custom.Free) {config : Config}
    {request : ContinuousRequest φ} {v : View φ} {prior : Session} {granted : Reservation}
    {frameBytes : UInt32} {callback : φ} (hs : v.Sound) (hfair : custom.fair v.reservation)
    (hm : checkMask request.mask = .ok ())
    (hg : v.reservation.grant request.mask = .ok (prior, granted))
    (hp : prior = .idle ∨ prior = .reserved) :
    ((configureStream request.rate (request.pattern config) frameBytes callback :
      Operation κ φ _).bind fun result => match result with
        | .error fault => .done (.error (.hardware fault), .before request.mask prior)
        | .ok () => .done ((.ok () : Except AdcError Unit),
          { granted with session := .continuous })).Obeys (watch custom)
      (.inside v false) fun r mode => custom.Puts (Starts config request r.1 v) r.2 mode := by
  obtain ⟨hvacant, rfl⟩ := hs.vacant hg hp
  have hshort := View.not_lasts_of_vacant hvacant hp
  obtain ⟨standing, table⟩ := v
  obtain rfl : standing = _ := hvacant
  rw [Program.obeys_bind]
  refine (configureStream_watched hfree rfl rfl).mono ?_
  rintro (fault | ⟨⟩) mode hmode
  · obtain ⟨table', rfl⟩ := hmode
    exact ⟨_, true, rfl, hfair, hfree _ _, .failed hshort table'⟩
  · obtain rfl := hmode
    exact ⟨_, true, rfl, custom.fair_of_ne (by simp), hfree _ _, .started hm hshort callback⟩

theorem startContinuous_watched (hfree : custom.Free) (config : Config)
    (request : ContinuousRequest φ) :
    (startContinuous config request : Operation κ φ _).Obeys (watch custom) (.away last)
      (custom.Ends last (Starts config request)) := by
  unfold startContinuous
  split
  · rename_i e _ _ hcheck
    obtain ⟨reason, rfl⟩ := ContinuousRequest.check_error hcheck
    exact Custom.ends_unchanged (.refused rfl)
  · rename_i e _ _ hbytes
    obtain ⟨reason, rfl⟩ := ContinuousRequest.frameBytes_error hbytes
    exact Custom.ends_unchanged (.refused rfl)
  · exact Custom.ends_unchanged (.refused rfl)
  · rename_i hcheck _ _
    have hm := (ContinuousRequest.check_ok hcheck).1
    refine watch_section (fun v hs hv => ?_) fun result v => ?_
    · split
      · rename_i e hg
        rw [grant_error hg]
        exact Custom.puts_unchanged hv (.refused rfl)
      · rename_i prior granted hg
        split
        · obtain rfl := Sound.granted_eq hg (by simp)
          obtain ⟨-, h, -⟩ | ⟨-, hr, -⟩ := grant_ok hg
          · cases h
          simp only [Program.bind_eq, Program.obeys_bind]
          rw [watch_installCallback]
          refine ⟨hfree _ _, ?_⟩
          rw [watch_note_inside]
          exact ⟨_, false, rfl, hv, hfree _ _, .swapped hs hr _⟩
        · exact startContinuous_granted_watched hfree hs hv hm hg (.inl rfl)
        · exact startContinuous_granted_watched hfree hs hv hm hg (.inr rfl)
        · rename_i hidle _ _
          rw [Sound.granted_eq hg (by assumption)]
          exact Custom.puts_unchanged hv (.refused rfl)
    · cases result <;> exact watch_note_done _ _ _

/-! ## Stopping -/

/-- How stopping ends: refused where no such stream runs, or with nothing left. -/
inductive Stops (mask : Mask) : Except AdcError Unit → View φ → View φ → Prop where
  | refused {e : AdcError} {v : View φ} (he : e.requiresReinit = false)
    (h : checkMask mask = .ok () → v.Sound ∧ v.reservation ≠ ⟨mask, .continuous⟩) :
    Stops mask (.error e) v v
  | stopped {result : Except AdcError Unit} {v : View φ}
    (h : v.reservation = ⟨mask, .continuous⟩) (table : List PatternEntry) :
    Stops mask result v { table }

theorem stopContinuous_watched (hebbs : custom.Ebbs) (mask : Mask) :
    (stopContinuous mask : Operation κ φ _).Obeys (watch custom) (.away last)
      (custom.Ends last (Stops mask)) := by
  unfold stopContinuous
  split
  · rename_i e hmask
    obtain ⟨reason, rfl⟩ := checkMask_error hmask
    refine Custom.ends_unchanged (.refused rfl fun hok => ?_)
    rw [hmask] at hok
    cases hok
  · refine watch_section (fun v hs hv => ?_) fun result v => ?_
    · split
      · rename_i hheld
        refine Custom.puts_unchanged hv (.refused rfl fun _ => ⟨hs, fun hr => ?_⟩)
        rw [hr] at hheld
        simp at hheld
      · rename_i hheld
        obtain ⟨hmask, hsession⟩ : v.reservation.active = mask ∧ v.session = .continuous := by
          simpa using hheld
        have hr : v.reservation = ⟨mask, .continuous⟩ := by rw [← hmask, ← hsession]
        have hne : v.session ≠ .oneShot := by simp [hsession]
        have hdown := teardown_watched (κ := κ) hebbs hs hne false
        rw [hsession] at hdown
        simp only [Program.bind_eq, Program.obeys_bind]
        refine hdown.mono ?_
        rintro result _ ⟨table, tried, rfl⟩
        exact Custom.Ebbs.puts_idle hebbs (.stopped hr table)
    · split
      · simp only [Program.bind_eq, Program.obeys_bind, watch_frameCounts]
        intro counts
        exact watch_note_done _ _ _
      · exact watch_note_done _ _ _

end SharedAdc.Controller
