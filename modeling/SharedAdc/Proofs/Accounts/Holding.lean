/-
How reserving, releasing and starting afresh end.
-/
import SharedAdc.Proofs.Accounts.Ending

namespace SharedAdc.Controller

variable {κ φ : Type} {config : Config} {command : Command φ}

/-- A reservation makes no call to the hardware, so it cannot be failed by it. -/
theorem tryReserve_ending (mask : Mask) :
    (tryReserve mask : Operation κ φ _).Obeys (accounting command) {} fun result a =>
      Ending config (.reserve mask) (errorOf result) a ∧ a.calls = [] := by
  unfold tryReserve
  split
  · rename_i e he
    obtain ⟨reason, rfl⟩ := checkMask_error he
    exact ⟨.invalid reason (by simp [Command.WellFormed, he]), rfl⟩
  · refine obeys_section (fun held hheld => ?_) (by rintro (e | ⟨⟩) a <;> simp)
    rcases grant_cases hheld mask with
      ⟨prior, hp, rfl, hgrant⟩ | ⟨hmask, -, hgrant⟩ | ⟨hidle, hmask, hgrant⟩
    · rw [hgrant]
      exact ⟨.completed rfl (by rw [Command.refusal, refusal_before hp _ rfl]), rfl⟩
    · rw [hgrant]
      exact ⟨.completed rfl (by simp [Command.refusal, refusal_proper hheld, hmask]), rfl⟩
    · rw [hgrant]
      exact ⟨ending_refused (by rw [Command.refusal, refusal_elsewhere hheld hidle hmask]), rfl⟩

/-- Taking down the path of a session makes the calls that close it, and reports the first that
fails. -/
theorem teardown_account {a : Account κ φ} (session : Session) :
    (teardown session : Operation κ φ _).Obeys (accounting command) a fun result a' =>
      ∃ made quiet callback, a' = { a with calls := a.calls ++ made, quiet, callback } ∧
        AnsweredCall.firstFault? made = errorOf result ∧
        ∀ c, session = .timeCritical c → made.countP AnsweredCall.isDeletion = 1 := by
  cases session with
  | continuous =>
    simp only [teardown, Program.bind_eq, Program.obeys_bind, Account.obeys_ask_clearCallback]
    rw [Account.obeys_hardware]
    intro stopped
    rw [Account.obeys_hardware]
    intro deinit
    refine ⟨_, _, _, by rw [List.append_assoc], ?_, fun c h => by cases h⟩
    cases stopped <;> cases deinit <;> rfl
  | timeCritical channel =>
    simp only [teardown, Program.bind_eq, Program.obeys_bind, Account.obeys_ask_arm]
    rw [Account.obeys_hardware]
    intro deleted
    refine ⟨_, _, _, rfl, ?_, fun c _ => rfl⟩
    cases deleted <;> rfl
  | oneShot => exact ⟨[], _, _, by rw [List.append_nil], rfl, fun c h => by cases h⟩
  | idle => exact ⟨[], _, _, by rw [List.append_nil], rfl, fun c h => by cases h⟩
  | reserved => exact ⟨[], _, _, by rw [List.append_nil], rfl, fun c h => by cases h⟩

theorem release_ending (mask : Mask) :
    (release mask : Operation κ φ _).Obeys (accounting command) {}
      fun result => Ending config (.release mask) (errorOf result) := by
  unfold release
  split
  · rename_i e he
    obtain ⟨reason, rfl⟩ := checkMask_error he
    exact .invalid reason (by simp [Command.WellFormed, he])
  · refine obeys_section (fun held hheld => ?_) (by rintro (e | ⟨⟩) a <;> simp)
    by_cases hmask : held.active = mask
    · by_cases hone : held.session = .oneShot
      · simp only [hmask, hone, ne_eq, not_true_eq_false, if_true, if_false]
        exact ending_refused (by simp [Command.refusal, Reservation.busy, hmask, hone])
      · simp only [hmask, hone, ne_eq, not_true_eq_false, if_false, Program.bind_eq,
          Program.obeys_bind]
        refine (teardown_account held.session).mono ?_
        rintro result _ ⟨made, quiet, callback, rfl, hfault, hdeleted⟩
        have hrefusal : (Command.release mask : Command φ).refusal held = none := by
          simp [Command.refusal, Reservation.endRefusal, hmask, hone]
        exact ending_of_teardown rfl hrefusal rfl hfault hdeleted
    · simp only [hmask, ne_eq, not_false_eq_true, if_true]
      exact ending_refused
        (by simp [Command.refusal, Reservation.endRefusal, Reservation.mismatch, hmask])

theorem reinit_ending :
    (reinit : Operation κ φ _).Obeys (accounting command) {}
      fun result => Ending config .reinit (errorOf result) := by
  unfold reinit
  refine obeys_section (fun held hheld => ?_) fun result a => ?_
  · by_cases hone : held.session = .oneShot
    · simp only [hone, if_true]
      exact ending_refused (by simp [Command.refusal, Reservation.busy, hone])
    · simp only [hone, if_false, Program.bind_eq, Program.obeys_bind]
      refine (teardown_account held.session).mono ?_
      rintro result _ ⟨made, quiet, callback, rfl, hfault, hdeleted⟩
      have hrefusal : (Command.reinit : Command φ).refusal held = none := by
        simp [Command.refusal, hone]
      simp only [Account.obeys_ask_clearCallback, Account.obeys_ask_arm]
      exact ending_of_teardown rfl hrefusal rfl hfault hdeleted
  · split <;> simp

end SharedAdc.Controller
