/-
What a tick reads. It calibrates the averages of the streamed channels that have one, every one with
the attenuation that is set at the dashboard by then, and shows the voltages that come of it.
-/
import SharedAdc.Dashboard.Rig
import SharedAdc.Proofs.Mask
import SharedAdc.Proofs.Program.Larger
import SharedAdc.Proofs.Simulator.Machine

namespace SharedAdc.Dashboard

open SharedAdc.Simulator (millivolts?)

/-! ## Rules -/

/-- How a desk answers while nothing else happens: the averages are those that were counted, and a
calibration goes by its range. No calibration is asked for but the allowed ones. -/
def reading (allowed : Channel → Range → Prop) : Rules (Question Range) Answer Accumulator where
  allows _ q :=
    match q with
    | .controller (.hardware (.createCalibration c range)) => allowed c range
    | .resetAverages => False
    | _ => True
  leads averages q answer next :=
    match q, answer with
    | .takeAverage c, average => average = (averages.take c).1 ∧ next = (averages.take c).2
    | .controller (.hardware (.createCalibration _ range)), .ok context =>
      context = range ∧ next = averages
    | .controller (.hardware (.applyCalibration context raw)), .ok mv =>
      millivolts? context raw = some mv ∧ next = averages
    | _, _ => next = averages

/-- The averages that wait to be taken. -/
def Rig.averages (r : Rig) : Accumulator := r.rig.feed.averages

theorem createCalibration_cases (sim : Simulator) (c : Channel) (range : Range) :
    (∃ fault, (sim.perform (.createCalibration c range)).1 = .error fault) ∨
      (sim.perform (.createCalibration c range)).1 = .ok range := by
  rcases sim.perform_cases (.createCalibration c range) with ⟨hdoes, -⟩ | ⟨⟨code, hfail⟩, -⟩
  · exact .inr hdoes.reply_openContext
  · rw [hfail]
    exact .inl ⟨_, rfl⟩

theorem applyCalibration_cases (sim : Simulator) (range : Range) (raw : UInt16) :
    (∃ fault, (sim.perform (.applyCalibration range raw)).1 = .error fault) ∨
      ∃ mv, (sim.perform (.applyCalibration range raw)).1 = .ok mv ∧
        millivolts? range raw = some mv := by
  rcases sim.perform_cases (.applyCalibration range raw) with ⟨hdoes, -⟩ | ⟨⟨code, hfail⟩, -⟩
  · exact .inr hdoes.reply_convert
  · rw [hfail]
    exact .inl ⟨_, rfl⟩

theorem reading_answer (allowed : Channel → Range → Prop) (q : Question Range) (r : Rig)
    (hq : (reading allowed).allows r.averages q) :
    (reading allowed).leads r.averages q ((Rig.answer q).run r).1
      ((Rig.answer q).run r).2.averages := by
  cases q with
  | resetAverages => exact hq.elim
  | takeAverage c => exact ⟨rfl, rfl⟩
  | input | setInput | injectFault | say => rfl
  | controller q =>
    cases q with
    | hardware call =>
      cases call with
      | createCalibration c range =>
        show (reading allowed).leads r.averages (.controller (.hardware (.createCalibration c range)))
          (r.rig.sim.perform (.createCalibration c range)).1 r.averages
        rcases createCalibration_cases r.rig.sim c range with ⟨fault, herr⟩ | hok
        · rw [herr]
          rfl
        · rw [hok]
          exact ⟨rfl, rfl⟩
      | applyCalibration context raw =>
        show (reading allowed).leads r.averages
          (.controller (.hardware (.applyCalibration context raw)))
          (r.rig.sim.perform (.applyCalibration context raw)).1 r.averages
        rcases applyCalibration_cases r.rig.sim context raw with ⟨fault, herr⟩ | ⟨mv, hok, hmv⟩
        · rw [herr]
          rfl
        · rw [hok]
          exact ⟨hmv, rfl⟩
      | _ => rfl
    | _ => rfl

/-! ## Single actions -/

variable {allowed : Channel → Range → Prop} {config : Config} {averages : Accumulator}

theorem calibrate_reads {channel : Channel} {attenuation : Attenuation}
    (h : allowed channel ⟨attenuation, config.width⟩) (raw : UInt16) :
    (operate (Controller.calibrate config channel attenuation [raw])).Obeys (reading allowed)
      averages fun r next => next = averages ∧ (r.1 = .ok () → ∃ mv, r.2 = [mv] ∧
        millivolts? ⟨attenuation, config.width⟩ raw = some mv) := by
  refine ⟨h, ?_⟩
  rintro (fault | context) next hnext
  · obtain rfl : next = averages := hnext
    exact ⟨rfl, nofun⟩
  · obtain ⟨rfl, rfl⟩ : context = _ ∧ next = averages := hnext
    refine ⟨trivial, ?_⟩
    rintro (fault | mv) next' hnext'
    · obtain rfl : next' = next := hnext'
      refine ⟨trivial, ?_⟩
      rintro _ _ rfl
      exact ⟨rfl, nofun⟩
    · obtain ⟨hmv, rfl⟩ : millivolts? _ raw = some mv ∧ next' = next := hnext'
      refine ⟨trivial, ?_⟩
      rintro _ _ rfl
      exact ⟨rfl, fun _ => ⟨mv, rfl, hmv⟩⟩

/-- The voltage that is shown for the stream of a channel. -/
def streamed (d : Dashboard) (c : Channel) : Option UInt16 := (d.readouts.get c.index).stream

theorem streamed_updateReadout (d : Dashboard) (c c' : Channel) (f : Readout → Readout) :
    (d.updateReadout c f).streamed c' =
      if c = c' then (f (d.readouts.get c.index)).stream else d.streamed c' := by
  have hlt := c'.number_lt
  show ((d.readouts.set c.number (f (d.readouts.get c.index)) c.number_lt)[c'.number]).stream = _
  rw [Vector.getElem_set]
  by_cases h : c = c'
  · subst h
    simp
  · have hne : c.number ≠ c'.number := fun e => h (Channel.number_inj e)
    rw [if_neg hne, if_neg h]
    rfl

/-- What is shown after the averages of some channels were read: the calibrated average of every one
that has an average, and what was shown before of all others. -/
structure Reads (channels : List Channel) (range : Range) (averages : Accumulator)
    (d d' : Dashboard) : Prop where
  read : ∀ c ∈ channels, ∀ raw, (averages.take c).1 = some raw →
    ∃ mv, millivolts? range raw = some mv ∧ d'.streamed c = some mv
  kept : ∀ c, (c ∈ channels → (averages.take c).1 = none) → d'.streamed c = d.streamed c

theorem average_take {c c' : Channel} (h : c ≠ c') (averages : Accumulator) :
    ((averages.take c).2.take c').1 = (averages.take c').1 := by
  show ((averages.take c).2.tally c').average? = (averages.tally c').average?
  rw [Accumulator.tally_take, if_neg h]

theorem Reads.skip {d d' : Dashboard} {channel : Channel} {channels : List Channel} {range : Range}
    (h : Reads channels range (averages.take channel).2 d d') (hnew : channel ∉ channels)
    (hnone : (averages.take channel).1 = none) :
    Reads (channel :: channels) range averages d d' where
  read c hc raw hraw := by
    rcases List.mem_cons.1 hc with rfl | hc
    · rw [hnone] at hraw
      cases hraw
    · have hne : channel ≠ c := fun heq => hnew (heq ▸ hc)
      exact h.read c hc raw ((average_take hne averages).trans hraw)
  kept c hc := by
    refine h.kept c fun hmem => ?_
    have hne : channel ≠ c := fun heq => hnew (heq ▸ hmem)
    exact (average_take hne averages).trans (hc (List.mem_cons_of_mem _ hmem))

theorem Reads.take {d d' : Dashboard} {channel : Channel} {channels : List Channel} {range : Range}
    {raw mv : UInt16} (h : Reads channels range (averages.take channel).2
      (d.updateReadout channel fun r => { r with stream := some mv }) d')
    (hnew : channel ∉ channels) (hraw : (averages.take channel).1 = some raw)
    (hmv : millivolts? range raw = some mv) :
    Reads (channel :: channels) range averages d d' where
  read c hc raw' hraw' := by
    rcases List.mem_cons.1 hc with rfl | hc
    · obtain rfl : raw = raw' := Option.some.inj (hraw.symm.trans hraw')
      refine ⟨mv, hmv, ?_⟩
      rw [h.kept c fun hmem => absurd hmem hnew, streamed_updateReadout, if_pos rfl]
    · have hne : channel ≠ c := fun heq => hnew (heq ▸ hc)
      exact h.read c hc raw' ((average_take hne averages).trans hraw')
  kept c hc := by
    have hne : channel ≠ c := by
      rintro rfl
      rw [hc (List.mem_cons_self ..)] at hraw
      cases hraw
    rw [h.kept c fun hmem => (average_take hne averages).trans (hc (List.mem_cons_of_mem _ hmem)),
      streamed_updateReadout, if_neg hne]

theorem readStream_reads (d : Dashboard) {channels : List Channel} (hnodup : channels.Nodup)
    (h : ∀ c ∈ channels, allowed c ⟨d.attenuation, config.width⟩) :
    (d.readStream config channels : Action Range Change).Obeys (reading allowed) averages
      fun r _ => r.1 = .ok () → Reads channels ⟨d.attenuation, config.width⟩ averages d r.2 := by
  induction channels generalizing d averages with
  | nil =>
    intro _
    exact ⟨fun c hc => absurd hc List.not_mem_nil, fun _ _ => rfl⟩
  | cons channel channels ih =>
    obtain ⟨hnew, hnodup⟩ := List.nodup_cons.1 hnodup
    have hrest : ∀ c ∈ channels, allowed c ⟨d.attenuation, config.width⟩ :=
      fun c hc => h c (List.mem_cons_of_mem _ hc)
    unfold readStream
    simp only [Program.bind_eq, Program.obeys_bind]
    refine (Program.obeys_query ..).2 ⟨trivial, ?_⟩
    rintro average next ⟨haverage, rfl⟩
    cases average with
    | none => exact (ih d hnodup hrest).mono fun _ _ hr hok => (hr hok).skip hnew haverage.symm
    | some raw =>
      simp only [Program.obeys_bind]
      refine (calibrate_reads (h channel (List.mem_cons_self ..)) raw).mono ?_
      rintro ⟨result | _, samples⟩ _ ⟨rfl, hmv⟩
      · rintro ⟨⟩
      · obtain ⟨mv, rfl, hvoltage⟩ := hmv rfl
        refine Program.Obeys.mono (ih (d.updateReadout channel fun r => { r with stream := some mv })
          hnodup hrest) ?_
        exact fun _ _ hr hok => (hr hok).take hnew haverage.symm hvoltage

/-- The operation asks for no calibration. -/
def uncalibrated : Rules (Controller.Question Range Consumer) Controller.Answer Unit where
  allows _ q := ∀ c range, q ≠ .hardware (.createCalibration c range)
  leads _ _ _ _ := True

theorem operate_reads {α : Type} {p : Controller.Operation Range Consumer α}
    (h : p.Respects uncalibrated) :
    (operate p).Obeys (reading allowed) averages fun _ _ => True := by
  induction p generalizing averages with
  | done a => trivial
  | ask q next ih =>
    obtain ⟨hq, hnext⟩ := h
    refine ⟨?_, fun a next' _ => ih a (hnext a () trivial)⟩
    cases q with
    | hardware call =>
      cases call with
      | createCalibration c range => exact absurd rfl (hq c range)
      | _ => trivial
    | _ => trivial

theorem readSum_uncalibrated (channel : Channel) (n : Nat) (sum : UInt64) :
    (Controller.readSum channel n sum : Controller.Operation Range Consumer _).Respects
      uncalibrated := by
  induction n generalizing sum with
  | zero => trivial
  | succ n ih =>
    refine ⟨fun _ _ => nofun, ?_⟩
    rintro (fault | raw) - -
    · trivial
    · exact ih _

theorem sampleTimeCritical_uncalibrated (channel : Channel) (count : UInt32) :
    (Controller.sampleTimeCritical channel count : Controller.Operation Range Consumer _).Respects
      uncalibrated := by
  unfold Controller.sampleTimeCritical
  split
  · trivial
  · refine ⟨fun _ _ => nofun, ?_⟩
    rintro (_ | armed) - -
    · trivial
    · show Program.Respects uncalibrated (if _ then _ else _)
      split
      · refine (Program.Respects.bind (readSum_uncalibrated _ _ _) ?_).bind fun _ => trivial
        rintro (fault | sum) <;> trivial
      · trivial

/-- A reading of the armed channel is no concern of the stream. -/
theorem readTimeCritical_reads (d : Dashboard) :
    (d.readTimeCritical : Action Range Change).Obeys (reading allowed) averages
      fun r _ => ∀ c, r.2.streamed c = d.streamed c := by
  unfold readTimeCritical
  split
  · exact fun _ => rfl
  · rename_i channel _
    simp only [Program.bind_eq, Program.obeys_bind]
    refine (operate_reads (sampleTimeCritical_uncalibrated channel 4)).mono ?_
    rintro (e | raw) _ -
    · exact fun _ => rfl
    · intro c
      rw [streamed_updateReadout]
      split
      · rename_i hc
        rw [hc]
        rfl
      · rfl

/-- A tick reads the averages of the streamed channels. -/
theorem tick_reads (d : Dashboard)
    (h : ∀ c ∈ (d.streaming.map Mask.toList).getD [], allowed c ⟨d.attenuation, config.width⟩) :
    (d.tick config : Action Range Change).Obeys (reading allowed) averages fun r _ =>
      r.1 = .ok () → Reads ((d.streaming.map Mask.toList).getD []) ⟨d.attenuation, config.width⟩
        averages d r.2 := by
  have hnodup : ((d.streaming.map Mask.toList).getD []).Nodup := by
    cases d.streaming with
    | none => exact .nil
    | some m => exact m.nodup_toList
  unfold tick
  simp only [Program.bind_eq, Program.obeys_bind]
  refine (readStream_reads d hnodup h).mono ?_
  rintro ⟨_ | _, d'⟩ next hread
  · rintro ⟨⟩
  · refine (readTimeCritical_reads d').mono fun r _ hsame _ => ?_
    obtain ⟨hread, hkept⟩ := hread rfl
    refine ⟨fun c hc raw hraw => ?_, fun c hc => (hsame c).trans (hkept c hc)⟩
    rw [hsame]
    exact hread c hc raw hraw

end SharedAdc.Dashboard
