/-
Who is admitted. An operation is admitted or turned down by what is reserved, or armed, as it asks
its first question, whatever happens later on; and called while the lock is free, it comes to its
end.
-/
import SharedAdc.Proofs.Accounts.Steps
import SharedAdc.Proofs.Callers.Progress

namespace SharedAdc.Controller

variable {κ φ : Type} {machine : Machine κ} {config : Config} {command : Command φ}

/-! ## First questions -/

/-- Whether the command asks for admission with its first question. A request of either kind is
logged before it is passed on, and nobody is admitted to calibrate. -/
def Command.isDirect : Command φ → Bool
  | .submit _ | .calibrate .. | .calibrateIndex .. | .convertInScope .. | .config
  | .malformed .. => false
  | _ => true

/-- Of the commands that ask for admission, only time-critical conversions stay outside the lock. -/
theorem Command.eq_sampleTimeCritical (command : Command φ) (hdirect : command.isDirect = true)
    (hopen : command.entersLock = false) :
    ∃ channel count, command = .sampleTimeCritical channel count := by
  cases command with
  | sampleTimeCritical channel count => exact ⟨channel, count, rfl⟩
  | submit | calibrate | calibrateIndex | convertInScope | config | malformed => cases hdirect
  | _ => cases hopen

theorem asks_enter (hdirect : command.isDirect = true) (hlock : command.entersLock = true)
    (hargs : command.WellFormed config) :
    ∃ next, (command.operation config : Operation κ φ Result) = .ask .enter next := by
  cases command with
  | reserve mask =>
    have hmask : checkMask mask = .ok () := hargs
    simp only [Command.operation, tryReserve, hmask]
    exact ⟨_, rfl⟩
  | release mask =>
    have hmask : checkMask mask = .ok () := hargs
    simp only [Command.operation, release, hmask]
    exact ⟨_, rfl⟩
  | stopContinuous mask =>
    have hmask : checkMask mask = .ok () := hargs
    simp only [Command.operation, stopContinuous, hmask]
    exact ⟨_, rfl⟩
  | sampleOnce channel attenuation count =>
    have hcount : checkCount count = .ok () := hargs
    simp only [Command.operation, sampleOnce, hcount]
    exact ⟨_, rfl⟩
  | startContinuous request =>
    obtain ⟨hcheck, bytes, hbytes⟩ := hargs
    obtain ⟨callback, hcallback⟩ :=
      Option.isSome_iff_exists.1 (ContinuousRequest.check_ok hcheck).2.2.2.1
    simp only [Command.operation, startContinuous, hcheck, hbytes, hcallback]
    exact ⟨_, rfl⟩
  | setupTimeCritical | releaseTimeCritical | reinit => exact ⟨_, rfl⟩
  | sampleTimeCritical | convertInScope => cases hlock
  | submit | calibrate | calibrateIndex | config | malformed => cases hdirect

theorem asks_armed (config : Config) {channel : Channel} {count : UInt32}
    (hcount : checkCount count = .ok ()) :
    ∃ next, ((Command.sampleTimeCritical channel count : Command φ).operation config :
      Operation κ φ Result) = .ask .armed next := by
  simp only [Command.operation, sampleTimeCritical, hcount]
  exact ⟨_, rfl⟩

/-! ## What was found stays -/

namespace Account

variable {i : Nat} {before later : List (Exchange κ φ)}

theorem found_append {found : Reservation} (h : (of i before).found = some found) :
    (of i (before ++ later)).found = some found := by
  refine of_append_induction (P := fun a => a.found = some found) (fun a q answer ha => ?_) h
  rcases found_after (i := i) a q answer with ⟨hfound, -⟩ | ⟨held, -, hfound⟩
  · exact hfound.trans ha
  · rw [hfound, ha]
    rfl

theorem armed_append {armed : Option Channel} (h : (of i before).armed = some armed) :
    (of i (before ++ later)).armed = some armed := by
  refine of_append_induction (P := fun a => a.armed = some armed) (fun a q answer ha => ?_) h
  cases q with
  | armed =>
    show a.armed.or (some answer) = some armed
    rw [ha]
    rfl
  | _ => exact ha

end Account

/-! ## Runs -/

namespace World

variable {w : World machine φ}

/-- How a call ends that names channels while `held` is reserved: it is turned down just as the
reservation has it. A reservation that is admitted succeeds, and a time-critical conversion that is
admitted reads, and makes no other call. -/
structure Decided (command : Command φ) (held : Reservation) (result : Result)
    (calls : List (AnsweredCall κ)) : Prop where
  rejected : ∀ e : AdcError, e.isRejection = true →
    (result.error? = some e ↔ command.refusal held = some e)
  reserved : ∀ mask, command = .reserve mask → command.refusal held = none →
    result.error? = none
  reads : ∀ channel count, command = .sampleTimeCritical channel count →
    command.refusal held = none → calls ≠ [] ∧ ∀ c ∈ calls, c.call = .readOneShot channel

theorem decided_of_found {result : Result} {a : Account κ φ} {held : Reservation}
    (hends : command.Ends config result a) (hlock : command.entersLock = true)
    (hfound : a.found = some held) : Decided command held result a.calls where
  rejected _ := (hends.locking hlock).rejected_iff hfound
  reserved mask hmask hadmitted := by
    have hending := hends.locking hlock
    have hcalls := hends.reserved mask hmask
    cases herror : result.error? with
    | none => rfl
    | some e =>
      -- it is not turned down, and with no call made the hardware has not failed it
      have hiff := hending.rejected_iff hfound (e := e)
      rw [herror] at hending hiff
      cases e with
      | hardware fault =>
        have hfault := hending.of_fault.1
        rw [Account.fault?, hcalls] at hfault
        cases hfault
      | _ =>
        have hrefused := (hiff rfl).1 rfl
        rw [hadmitted] at hrefused
        cases hrefused
  reads channel count heq _ := by
    rw [heq] at hlock
    cases hlock

theorem decided_of_armed {result : Result} {a : Account κ φ} {held : Reservation}
    {channel : Channel} {count : UInt32}
    (hends : (Command.sampleTimeCritical channel count).Ends config result a)
    (harmed : a.armed = some held.session.armed) :
    Decided (.sampleTimeCritical channel count : Command φ) held result a.calls where
  rejected _ := (hends.converted channel count rfl).rejected_iff harmed
  reserved := nofun
  reads := by
    rintro _ _ ⟨⟩ hadmitted
    exact (hends.converted channel count rfl).reads harmed hadmitted

/-- A caller whose first question is for the lock comes to what is reserved as it asks. -/
theorem found_run_advance {i : Nat} (hnew : ∀ e ∈ w.history, e.caller ≠ i)
    {next : Answer (.enter : Question κ φ) → Operation κ φ Result}
    (hi : w.callers[i]? = some ⟨command, .ask .enter next⟩) (hfree : w.shared.locked = false)
    (config : Config) (later : List (Action machine φ)) :
    (Account.of i (w.run config (.advance i :: later)).history).found =
      some w.shared.reservation := by
  obtain ⟨after, hafter⟩ := history_run_advance hi hfree config later
  rw [hafter]
  refine Account.found_append ?_
  rw [Account.of_concat_first hnew]
  rfl

/-- Whatever has happened before, a caller that has asked nothing yet while the lock is free comes to
its end by itself, and is decided by what is reserved, whatever happens after its first question. -/
theorem admission_decided (config : Config) (memory : machine.Memory)
    (past : List (Action machine φ)) {i : Nat} {command : Command φ}
    (hi : ((new memory).run config past).callers[i]? = some ⟨command, command.operation config⟩)
    (hnew : ∀ e ∈ ((new memory).run config past).history, e.caller ≠ i)
    (hfree : ((new memory).run config past).shared.locked = false)
    (hdirect : command.isDirect = true) (hargs : command.WellFormed config) :
    let w := (new memory).run config past
    (∃ n result, (w.run config (List.replicate n (.advance i))).callers[i]? =
      some ⟨command, .done result⟩) ∧
    ∀ later result, (w.run config (.advance i :: later)).callers[i]? =
        some ⟨command, .done result⟩ →
      Decided command w.shared.reservation result
        (callsOf i (w.run config (.advance i :: later)).history) := by
  generalize hw : (new memory).run config past = w at hi hnew hfree
  have haccounted : w.Accounted config := hw ▸ accounted_run config memory past
  refine ⟨haccounted.kept.finishes_alone hfree config hi, fun later result hresult => ?_⟩
  have hends := (haccounted.run (.advance i :: later)).finished hresult
  rw [← Account.calls_of]
  -- the first question is answered by what is shared then
  cases hlock : command.entersLock with
  | true =>
    obtain ⟨next, hask⟩ := asks_enter (κ := κ) hdirect hlock hargs
    rw [hask] at hi
    exact decided_of_found hends hlock (found_run_advance hnew hi hfree config later)
  | false =>
    obtain ⟨channel, count, rfl⟩ := command.eq_sampleTimeCritical hdirect hlock
    obtain ⟨next, hask⟩ := asks_armed (κ := κ) (φ := φ) config hargs
    rw [hask] at hi
    obtain ⟨after, hafter⟩ := history_run_advance hi rfl config later
    refine decided_of_armed hends ?_
    rw [hafter]
    refine Account.armed_append ?_
    rw [Account.of_concat_first hnew]
    exact congrArg some (haccounted.kept.sound hfree).armed_eq

/-- While a burst on one channel converts, a stream on another is turned down. -/
theorem admission_decided_burst :
    let w := (new {} : World Machine.recording Unit).run {}
      (.call (.sampleOnce ⟨3⟩ .db12 2) :: List.replicate 4 (.advance 0) ++
        [.call (.startContinuous ⟨.single ⟨1⟩, .db12, 16, 20000, some ()⟩)])
    (∃ n result, (w.run {} (List.replicate n (.advance 1))).callers[1]? =
      some ⟨.startContinuous ⟨.single ⟨1⟩, .db12, 16, 20000, some ()⟩, .done result⟩) ∧
    ∀ later result, (w.run {} (.advance 1 :: later)).callers[1]? =
        some ⟨.startContinuous ⟨.single ⟨1⟩, .db12, 16, 20000, some ()⟩, .done result⟩ →
      Decided (.startContinuous ⟨.single ⟨1⟩, .db12, 16, 20000, some ()⟩ : Command Unit)
        w.shared.reservation result (callsOf 1 (w.run {} (.advance 1 :: later)).history) :=
  admission_decided _ _ _ rfl (by decide) (by decide) rfl ⟨by decide, 64, by decide⟩

end World

end SharedAdc.Controller
