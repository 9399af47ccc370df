/-
What an operation leaves behind that the hardware has failed. Wherever the failure strikes, and
whether or not the calls that clean up after it fail as well: the reservation is the one that was
found, or the idle one, nothing is armed and no callback is installed, and the error reported is that
of the call that failed first.
-/
import SharedAdc.Proofs.Accounts.Steps

namespace SharedAdc.Controller

variable {κ φ : Type} {machine : Machine κ}

/-! ## What is left behind -/

/-- Where no session is under way, nothing is armed and no callback is installed. -/
theorem Standing.Sound.disarmed {s : Standing φ} (h : s.Sound) (hvacant : s.reservation.IsVacant) :
    s.armed = none ∧ s.callback = none := by
  cases h with
  | idle => exact ⟨rfl, rfl⟩
  | reserved hm => exact ⟨rfl, rfl⟩
  | oneShot | timeCritical | continuous => simp [Reservation.IsVacant] at hvacant

theorem Command.isVacant_fallback (command : Command φ) (found : Reservation) :
    (command.fallback found).IsVacant := by
  have hidle : Reservation.idle.IsVacant := .inl rfl
  unfold Command.fallback
  split
  all_goals first
    | exact hidle
    | split
      · assumption
      · exact hidle

namespace World

variable {config : Config} {start w : World machine φ} {actions : List (Action machine φ)} {i : Nat}

/-! ## First and last sections -/

/-- In the world `w` of a run caller `i` takes the lock for the first time. -/
structure EntersFirst (config : Config) (start : World machine φ)
    (actions : List (Action machine φ)) (i : Nat) (w : World machine φ) : Prop where
  passed : ∃ early late, actions = early ++ .advance i :: late ∧ start.run config early = w
  enters : (w.advance i).history = w.history ++ [⟨i, .enter, w.shared.reservation⟩]
  first : ∀ e ∈ w.history, e.caller = i → e.question ≠ .enter

/-- In the world `w` of a run caller `i` has just given up the lock for the last time. -/
structure LeavesLast (config : Config) (start : World machine φ)
    (actions : List (Action machine φ)) (i : Nat) (w : World machine φ) : Prop where
  passed : ∃ early late, actions = early ++ .advance i :: late ∧
    (start.run config early).advance i = w ∧
    w.history = (start.run config early).history ++ [⟨i, .leave w.shared.reservation, ()⟩]
  last : ∃ later, (start.run config actions).history = w.history ++ later ∧
    ∀ e ∈ later, ¬ e.IsLeaveOf i

theorem exists_entersFirst {memory : machine.Memory} {found : Reservation}
    (h : (Account.of i ((new memory).run config actions).history).found = some found) :
    ∃ first, EntersFirst config (new memory) actions i first ∧
      first.shared.reservation = found := by
  obtain ⟨before, later, hsplit, hbefore⟩ := Account.exists_first h
  obtain ⟨early, late, command, next, hactions, rfl, hi, hq, hanswer⟩ := exists_step hsplit
  refine ⟨_, ⟨⟨early, late, hactions, rfl⟩, ?_, hbefore⟩, hanswer⟩
  rw [advance_eq hi hq]
  rfl

/-- Whoever gives up the lock leaves it free, with a sound standing. -/
theorem exists_leavesLast {memory : machine.Memory} {held : Reservation}
    (h : (Account.of i ((new memory).run config actions).history).left.head? = some held) :
    ∃ last, LeavesLast config (new memory) actions i last ∧ last.shared.reservation = held ∧
      last.standing.Sound := by
  obtain ⟨before, later, hsplit, hlater⟩ := Account.exists_last h
  obtain ⟨early, late, command, next, hactions, rfl, hi, hq, -⟩ := exists_step hsplit
  have hadvance := advance_eq hi hq
  have hkept := (kept_run config memory early).answered hi hq
  refine ⟨_, ⟨⟨early, late, hactions, hadvance, rfl⟩, later, ?_, hlater⟩, rfl, hkept.sound rfl⟩
  rw [hsplit]
  simp [answered]

/-! ## Failures -/

/-- What is left behind by an operation of caller `i` that reports `fault`. -/
structure RollsBack (config : Config) (start : World machine φ)
    (actions : List (Action machine φ)) (i : Nat) (command : Command φ) (fault : HardwareFault) :
    Prop where
  reported : AnsweredCall.firstFault? (callsOf i (start.run config actions).history) = some fault
  aside : command.entersLock = false → start.Undisturbed config actions i
  locking : command.entersLock = true → ∃ first last, EntersFirst config start actions i first ∧
    LeavesLast config start actions i last ∧
    last.shared.reservation = command.fallback first.shared.reservation ∧
    last.shared.armed = none ∧ last.shared.slot.callback = none ∧
    ∀ c, first.shared.reservation.session = .timeCritical c →
      (callsOf i (start.run config actions).history).countP AnsweredCall.isDeletion = 1

/-- Whatever the callers ask for, whichever calls to the hardware fail and in whatever order
everybody goes on: an operation that reports a failure of the hardware has rolled back. -/
theorem failure_rolls_back (config : Config) (memory : machine.Memory)
    (actions : List (Action machine φ)) {i : Nat} {command : Command φ} {result : Result}
    {fault : HardwareFault}
    (hi : ((new memory).run config actions).callers[i]? = some ⟨command, .done result⟩)
    (he : result.error? = some (.hardware fault)) :
    RollsBack config (new memory) actions i command fault := by
  have hends := (accounted_run config memory actions).finished hi
  cases hlock : command.entersLock with
  | false =>
    have haside := hends.aside hlock
    refine ⟨?_, fun _ => undisturbed_of_quiet haside.quiet, fun h => ?_⟩
    · rw [← Account.calls_of]
      exact haside.fault fault he
    · rw [hlock] at h
      cases h
  | true =>
    have hending := hends.locking hlock
    rw [he] at hending
    obtain ⟨hfault, found, hfound, hleft, hdeleted⟩ := hending.of_fault
    obtain ⟨first, hfirst, rfl⟩ := exists_entersFirst hfound
    obtain ⟨last, hlast, hheld, hsound⟩ := exists_leavesLast hleft
    have hvacant : last.standing.reservation.IsVacant := by
      show last.shared.reservation.IsVacant
      rw [hheld]
      exact command.isVacant_fallback _
    obtain ⟨harmed, hcallback⟩ := hsound.disarmed hvacant
    rw [Account.calls_of] at hdeleted
    exact {
      reported := by
        rw [← Account.calls_of]
        exact hfault
      aside := fun h => by
        rw [hlock] at h
        cases h
      locking := fun _ => ⟨first, last, hfirst, hlast, hheld, harmed, hcallback, hdeleted⟩ }

/-- A channel that is armed already does not take a new setting, and the unit cannot even be deleted:
the failed setting is reported. -/
theorem failed_setting_rolls_back :
    let start : World Machine.recording Unit := new {}
    let actions := .call (.setupTimeCritical ⟨3⟩ .db12) :: (List.replicate 6 (.advance 0) ++
      .happen [.configureOneShotChannel, .deleteOneShotUnit] ::
        .call (.setupTimeCritical ⟨3⟩ .db0) :: List.replicate 6 (.advance 1))
    RollsBack {} start actions 1 (.setupTimeCritical ⟨3⟩ .db0)
      ⟨.configureOneShotChannel, HardwareFault.failed⟩ := by
  have hfailed : ((new {} : World Machine.recording Unit).run {}
      (.call (.setupTimeCritical ⟨3⟩ .db12) :: (List.replicate 6 (.advance 0) ++
        .happen [.configureOneShotChannel, .deleteOneShotUnit] ::
          .call (.setupTimeCritical ⟨3⟩ .db0) :: List.replicate 6 (.advance 1)))).callers[1]? =
      some ⟨.setupTimeCritical ⟨3⟩ .db0, .done (.done (.error (.hardware
        ⟨.configureOneShotChannel, HardwareFault.failed⟩)))⟩ := by
    rfl
  exact failure_rolls_back _ _ _ hfailed rfl

end World

end SharedAdc.Controller
