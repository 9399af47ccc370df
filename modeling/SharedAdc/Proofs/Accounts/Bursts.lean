/-
A burst from its first question to its result. Whoever is admitted to a burst makes the calls of the
bracket and no others, whatever the others do meanwhile, and gets the exact average of the codes that
it has read, or the first failure among its own calls.
-/
import SharedAdc.Proofs.Accounts.Admission

namespace SharedAdc.Controller

variable {κ φ : Type} {machine : Machine κ}

/-! ## Following bursts -/

/-- What is known of the end of a burst that was admitted. -/
def Command.EndsBurst (config : Config) (command : Command φ) (result : Result) (a : Account κ φ) :
    Prop :=
  ∀ channel attenuation count, command = .sampleOnce channel attenuation count →
    ∀ found, a.found = some found → command.refusal found = none → ∃ reading,
      result = .value reading ∧
        BurstEnding channel ⟨attenuation, config.width⟩ count reading a.calls

theorem operation_endsBurst (config : Config) (command : Command φ) :
    (command.operation config : Operation κ φ Result).Obeys (accounting command) {}
      (command.EndsBurst config) := by
  cases command with
  | sampleOnce channel attenuation count =>
    refine sampleOnce_account.map _ fun reading a h => ?_
    rintro _ _ _ ⟨⟩ found hfound hadmitted
    exact ⟨reading, rfl, h.burst found hfound hadmitted⟩
  | _ => exact (operation_ends config _).mono fun _ _ _ => nofun

namespace World

variable {w : World machine φ}

/-- Bursts are followed by their accounts. -/
def bursts (config : Config) : Follower κ φ (Account κ φ) where
  rules _ := accounting
  mode := Account.of
  ends := Command.EndsBurst config

theorem bursts_fits (config : Config) : (bursts config : Follower κ φ _).Fits config where
  starts {i history} command hnew := by
    show Program.Obeys _ _ (Account.of i history) _
    rw [Account.of_eq_empty hnew]
    exact operation_endsBurst config command
  leads := (accounts_fits config).leads
  others := (accounts_fits config).others

/-- A burst from one end to the other, whatever has happened before and whatever the hardware replies.
A caller that has asked nothing yet while the lock is free, and finds the unit idle or its own channel
reserved, comes to its end by itself. However it gets there, and whatever the others do meanwhile: it
creates the unit, sets the channel up and converts as often as it was asked to, or up to the first
failure, and it deletes a unit that it has created just once. It reports the first failure among its
calls; if there is none, it has read all codes, and results in their average, exactly rounded down. -/
theorem burst_decided (config : Config) (memory : machine.Memory)
    (past : List (Action machine φ)) {i : Nat} {channel : Channel} {attenuation : Attenuation}
    {count : UInt32} (hcount : count ≠ 0)
    (hi : ((new memory).run config past).callers[i]? = some ⟨.sampleOnce channel attenuation count,
      (Command.sampleOnce channel attenuation count : Command φ).operation config⟩)
    (hnew : ∀ e ∈ ((new memory).run config past).history, e.caller ≠ i)
    (hfree : ((new memory).run config past).shared.locked = false)
    (hadmitted : ((new memory).run config past).shared.reservation = .idle ∨
      ((new memory).run config past).shared.reservation = ⟨.single channel, .reserved⟩) :
    let w := (new memory).run config past
    (∃ n result, (w.run config (List.replicate n (.advance i))).callers[i]? =
      some ⟨.sampleOnce channel attenuation count, .done result⟩) ∧
    ∀ later result, (w.run config (.advance i :: later)).callers[i]? =
        some ⟨.sampleOnce channel attenuation count, .done result⟩ →
      let calls := callsOf i (w.run config (.advance i :: later)).history
      BurstCalls channel ⟨attenuation, config.width⟩ count.toNat calls ∧
      match AnsweredCall.firstFault? calls with
      | some fault => result = .value (.error (.hardware fault))
      | none => ∃ value, result = .value (.ok value) ∧
        (AnsweredCall.codes calls).length = count.toNat ∧
        value.toNat = (AnsweredCall.codes calls).sum / count.toNat := by
  generalize hw : (new memory).run config past = w at hi hnew hfree hadmitted
  have hfollowed : w.Followed (bursts config) :=
    hw ▸ (followed_new _ memory).run (bursts_fits config) past
  refine ⟨hfollowed.kept.finishes_alone hfree config hi, fun later result hresult => ?_⟩
  have hends : (Command.sampleOnce channel attenuation count).EndsBurst config result
      (Account.of i (w.run config (.advance i :: later)).history) :=
    (hfollowed.run (bursts_fits config) (.advance i :: later)).finished hresult
  have hargs : (Command.sampleOnce channel attenuation count : Command φ).WellFormed config :=
    if_neg hcount
  -- what it comes to as it takes the lock is what is reserved now
  obtain ⟨next, hask⟩ := asks_enter (κ := κ) rfl rfl hargs
  rw [hask] at hi
  have hfound := found_run_advance hnew hi hfree config later
  have hrefusal : (Command.sampleOnce channel attenuation count : Command φ).refusal
      w.shared.reservation = none := by
    rcases hadmitted with hheld | hheld
    · rw [hheld]
      exact sampleOnce_admitted (.inl rfl)
    · rw [hheld]
      exact sampleOnce_admitted (.inr rfl)
  obtain ⟨reading, rfl, hbracket, hreading⟩ := hends _ _ _ rfl _ hfound hrefusal
  rw [Account.calls_of] at hbracket hreading
  refine ⟨hbracket, ?_⟩
  generalize AnsweredCall.firstFault? _ = fault? at hreading ⊢
  cases fault? with
  | some fault => exact congrArg Result.value hreading
  | none =>
    obtain ⟨value, rfl, hcodes, hvalue⟩ := hreading
    exact ⟨value, rfl, hcodes, hvalue⟩

/-- A burst of two conversions is asked for. -/
def asked : World Machine.recording Unit :=
  (new { reads := [100, 203] } : World Machine.recording Unit).run {}
    [.call (.sampleOnce 3 .db12 2)]

/-- It goes on, and another caller asks for its channel meanwhile. -/
def meanwhile : List (Action Machine.recording Unit) :=
  List.replicate 5 (.advance 0) ++ .call (.reserve (.single 3)) :: List.replicate 4 (.advance 1) ++
    List.replicate 7 (.advance 0)

theorem asked_meanwhile : (asked.run {} (.advance 0 :: meanwhile)).callers[0]? =
    some ⟨.sampleOnce 3 .db12 2, .done (.value (.ok 151))⟩ := rfl

/-- Such a burst has the average of both codes. -/
theorem burst_decided_meanwhile :
    let calls := callsOf 0 (asked.run {} (.advance 0 :: meanwhile)).history
    BurstCalls 3 ⟨.db12, .bits12⟩ 2 calls ∧ (AnsweredCall.codes calls).length = 2 ∧
      151 = (AnsweredCall.codes calls).sum / 2 := by
  obtain ⟨hcalls, hvalue⟩ := (@burst_decided _ _ Machine.recording {}
    { reads := [100, 203] } [.call (.sampleOnce 3 .db12 2)] 0 3 .db12 2 (by decide)
    rfl (by decide) rfl (.inl rfl)).2 meanwhile _ asked_meanwhile
  split at hvalue
  · cases hvalue
  · obtain ⟨_, ⟨⟩, hcodes, haverage⟩ := hvalue
    exact ⟨hcalls, hcodes, haverage⟩

end World

end SharedAdc.Controller
