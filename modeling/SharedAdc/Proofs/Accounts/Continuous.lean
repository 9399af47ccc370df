/-
How starting and stopping a stream end. A start that succeeds has its callback in place as it comes
out from under the lock, and one that fails has none.
-/
import SharedAdc.Proofs.Accounts.Holding
import SharedAdc.Proofs.Accounts.OneShot

namespace SharedAdc.Controller

variable {κ φ : Type} {config : Config} {command : Command φ} {request : ContinuousRequest φ}
variable {callback : φ} {a : Account κ φ}

/-! ## Starting -/

theorem launch_account {rate : UInt32} {pattern : List PatternEntry} {found : Reservation}
    (hcommand : command.callback? = some callback) (hfound : a.found = some found)
    (hvacant : found.IsVacant) :
    (launch rate pattern callback : Operation κ φ _).Obeys (accounting command) a
      fun result a' => ∃ made quiet callback',
        a' = { a with calls := a.calls ++ made, quiet, callback := callback' } ∧
        AnsweredCall.firstFault? made = errorOf result ∧
        (result.isOk = true → callback' = some (some callback)) := by
  unfold launch
  simp only [Program.bind_eq, Program.obeys_bind]
  rw [Account.obeys_hardware]
  rintro (fault | ⟨⟩)
  · exact ⟨_, _, _, rfl, rfl, by rintro ⟨⟩⟩
  · simp only [Program.obeys_bind, Account.obeys_ask_resetFrameCounts,
      Account.obeys_ask_installCallback]
    refine ⟨⟨by simp [hcommand], ⟨_, List.getLast?_concat, rfl⟩, found, hfound, hvacant⟩, hcommand, ?_⟩
    rw [Account.obeys_hardware]
    rintro (fault | ⟨⟩)
    · exact ⟨_, _, _, by simp only [List.append_assoc]; rfl, rfl, by rintro ⟨⟩⟩
    · dsimp only
      rw [Account.obeys_hardware]
      intro started
      refine ⟨_, _, _, by simp only [List.append_assoc]; rfl, ?_, fun _ => rfl⟩
      cases started <;> rfl

/-- A driver that is not started is taken down, with no callback left in place. -/
theorem configureStream_account {rate : UInt32} {pattern : List PatternEntry} {frameBytes : UInt32}
    {found : Reservation} (hcommand : command.callback? = some callback)
    (hfound : a.found = some found) (hvacant : found.IsVacant) :
    (configureStream rate pattern frameBytes callback : Operation κ φ _).Obeys (accounting command)
      a fun result a' => ∃ made quiet callback',
        a' = { a with calls := a.calls ++ made, quiet, callback := callback' } ∧
        AnsweredCall.firstFault? made = errorOf result ∧
        (result.isOk = true → callback' = some (some callback)) ∧
        (result.isOk = false → callback' = a.callback ∨ callback' = some none) := by
  unfold configureStream
  simp only [Program.bind_eq, Program.obeys_bind]
  rw [Account.obeys_hardware]
  rintro (fault | ⟨⟩)
  · exact ⟨_, _, _, rfl, rfl, by rintro ⟨⟩, fun _ => .inl rfl⟩
  · simp only [Program.obeys_bind]
    refine (launch_account hcommand (by exact hfound) hvacant).mono ?_
    rintro (fault | ⟨⟩) _ ⟨made, quiet, callback', rfl, hfault, hinstalled⟩
    · simp only [Program.obeys_bind, Account.obeys_ask_clearCallback]
      rw [Account.obeys_hardware]
      intro deinit
      refine ⟨_, _, _, by simp only [List.append_assoc]; rfl, ?_, by rintro ⟨⟩,
        fun _ => .inr rfl⟩
      rw [firstFault?_append, firstFault?_append, hfault]
      rfl
    · refine ⟨_, _, _, by simp only [List.append_assoc]; rfl, ?_, hinstalled,
        by rintro ⟨⟩⟩
      rw [firstFault?_append, hfault]
      rfl

/-- What a start makes of the callback that it brings, by the error that it reports. -/
structure Streams (brought : Option φ) (error : Option AdcError) (a : Account κ φ) : Prop where
  /-- It comes under the lock at most once. -/
  once : a.left.length ≤ 1
  installs : error = none → ∃ callback, brought = some callback ∧ a.callback = some (some callback)
  clears : ∀ callback, a.callback = some (some callback) → error = none

/-- How a start ends. -/
def StartEnding (config : Config) (request : ContinuousRequest φ) (error : Option AdcError)
    (a : Account κ φ) : Prop :=
  Ending config (.startContinuous request) error a ∧ Streams request.callback error a

theorem startEnding_invalid (reason : BadArgument)
    (hargs : ¬ (Command.startContinuous request).WellFormed config) :
    StartEnding config request (some (.invalidArgument reason)) ({} : Account κ φ) :=
  ⟨.invalid reason hargs, by simp, nofun, nofun⟩

theorem startEnding_refused {held : Reservation} {e : AdcError}
    (hrefusal : (Command.startContinuous request).refusal held = some e) :
    StartEnding config request (some e)
      (({ entry := some held, found := some held } : Account κ φ).after (.leave held) ()) :=
  ⟨ending_refused hrefusal, by simp [Account.after], nofun, nofun⟩

theorem startContinuous_vacant {prior : Session} {frameBytes : UInt32}
    (hcommand : command.callback? = some callback) (hcallback : request.callback = some callback)
    (hp : prior = .idle ∨ prior = .reserved) :
    ((configureStream request.rate (request.pattern config) frameBytes callback :
      Operation κ φ _).bind fun result => match result with
        | .error fault => .done (.error (.hardware fault), .before request.mask prior)
        | .ok () => .done ((.ok () : Except AdcError Unit), ⟨request.mask, .continuous⟩)).Obeys
      (accounting command)
      { entry := some (.before request.mask prior), found := some (.before request.mask prior) }
      fun r a => StartEnding config request (errorOf r.1) (a.after (.leave r.2) ()) := by
  have hvacant := isVacant_before hp request.mask
  have hrefusal : (Command.startContinuous request).refusal (.before request.mask prior) = none := by
    rw [Command.refusal, refusal_before hp _ (by simp)]
  rw [Program.obeys_bind]
  refine (configureStream_account hcommand rfl hvacant).mono ?_
  rintro (fault | ⟨⟩) _ ⟨made, quiet, callback', rfl, hfault, hinstalled, hcleared⟩
  · refine ⟨ending_restored hvacant rfl hrefusal (if_pos hvacant) hfault rfl, ?_⟩
    refine ⟨by simp [Account.after], by rintro ⟨⟩, fun installed h => ?_⟩
    -- a start that fails has not touched the callback, or has cleared it in the end
    rcases hcleared rfl with rfl | rfl <;> cases h
  · obtain rfl := hinstalled rfl
    exact ⟨.completed rfl hrefusal, by simp [Account.after], fun _ => ⟨callback, hcallback, rfl⟩,
      fun _ _ => rfl⟩

theorem startContinuous_ending (hcommand : command.callback? = request.callback) :
    (startContinuous config request : Operation κ φ _).Obeys (accounting command) {}
      fun result => StartEnding config request (errorOf result) := by
  unfold startContinuous
  split
  · rename_i e _ _ he
    obtain ⟨reason, rfl⟩ := ContinuousRequest.check_error he
    exact startEnding_invalid reason (by simp [Command.WellFormed, he])
  · rename_i e _ hcheck he
    obtain ⟨reason, rfl⟩ := ContinuousRequest.frameBytes_error he
    exact startEnding_invalid reason (by simp [Command.WellFormed, he])
  · rename_i hcheck _ hnone
    have hsome := (ContinuousRequest.check_ok hcheck).2.2.2.1
    rw [hnone] at hsome
    cases hsome
  · rename_i frameBytes callback hcheck hbytes hcallback
    rw [hcallback] at hcommand
    refine obeys_section (fun held hheld => ?_) (by rintro (e | ⟨⟩) a <;> simp)
    rcases grant_cases hheld request.mask with
      ⟨prior, hp, rfl, hgrant⟩ | ⟨hmask, hvacant, hgrant⟩ | ⟨hidle, hmask, hgrant⟩
    · rw [hgrant]
      rcases hp with rfl | rfl
      · exact startContinuous_vacant hcommand hcallback (.inl rfl)
      · exact startContinuous_vacant hcommand hcallback (.inr rfl)
    · rw [hgrant]
      have hunwelcome : held.session ≠ .continuous →
          (Command.startContinuous request).refusal held = some (held.busy request.mask) := by
        intro hne
        rw [Command.refusal, refusal_underway hheld hvacant (by simp [hne])]
      cases hheld with
      | idle => exact absurd (.inl rfl) hvacant
      | reserved => exact absurd (.inr rfl) hvacant
      | oneShot c => exact startEnding_refused (hunwelcome (by simp))
      | timeCritical c => exact startEnding_refused (hunwelcome (by simp))
      | continuous hm =>
        -- the stream runs already, and takes the new callback
        simp only [Program.bind_eq, Program.obeys_bind, Account.obeys_ask_installCallback,
          Account.obeys_note]
        refine ⟨hcommand, .completed rfl ?_, by simp [Account.after],
          fun _ => ⟨callback, hcallback, rfl⟩, fun _ _ => rfl⟩
        simpa [Command.refusal, Reservation.refusal] using fun _ => hmask
    · rw [hgrant]
      exact startEnding_refused (by rw [Command.refusal, refusal_elsewhere hheld hidle hmask])

/-! ## Stopping -/

theorem stopContinuous_ending (mask : Mask) :
    (stopContinuous mask : Operation κ φ _).Obeys (accounting command) {}
      fun result => Ending config (.stopContinuous mask) (errorOf result) := by
  unfold stopContinuous
  split
  · rename_i e he
    obtain ⟨reason, rfl⟩ := checkMask_error he
    exact .invalid reason (by simp [Command.WellFormed, he])
  · refine obeys_section (fun held _ => ?_) (by rintro (e | ⟨⟩) a <;> simp)
    split
    · rename_i hheld
      exact ending_refused (by rw [Command.refusal, endRefusal_mismatch hheld])
    · rename_i hheld
      obtain ⟨hmask, hsession⟩ : held.active = mask ∧ held.session = .continuous := by
        simpa using hheld
      have hrefusal : (Command.stopContinuous mask : Command φ).refusal held = none := by
        simp [Command.refusal, Reservation.endRefusal, hmask, hsession]
      simp only [Program.bind_eq, Program.obeys_bind]
      refine (teardown_account .continuous).mono ?_
      rintro result _ ⟨made, quiet, callback, rfl, hfault, -⟩
      exact ending_of_teardown rfl hrefusal rfl hfault (by simp [hsession])

end SharedAdc.Controller
