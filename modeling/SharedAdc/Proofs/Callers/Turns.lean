/-
Calls that are made in turn: one after the other, or in between the conversions of bursts. Whoever is
at work and is no burst is then the last to have called, and nobody else has asked anything since it
began; so what it has found is still there.
-/
import SharedAdc.Proofs.Tenure.Reads

namespace SharedAdc.Controller

variable {κ φ : Type} {machine : Machine κ}

/-- The command asks for a burst, which holds no lock while it converts. -/
def Command.isBurst : Command φ → Bool
  | .sampleOnce _ _ _ | .submit (.oneShot _) => true
  | _ => false

theorem Command.entersLock_of_isBurst {command : Command φ} (h : command.isBurst = true) :
    command.entersLock = true := by
  cases command <;> first | rfl | cases h

/-- Nobody else has asked anything since caller `i` has begun. -/
def OnItsOwn (history : List (Exchange κ φ)) (i : Nat) : Prop :=
  ∃ before own, history = before ++ own ∧ (∀ e ∈ before, e.caller ≠ i) ∧ ∀ e ∈ own, e.caller = i

/-- What was asked after a question of caller `i` was asked by the caller as well. -/
theorem OnItsOwn.since {history before later : List (Exchange κ φ)} {e : Exchange κ φ} {i : Nat}
    (h : OnItsOwn history i) (hsplit : history = before ++ e :: later) (he : e.caller = i) :
    ∀ e' ∈ later, e'.caller = i := by
  obtain ⟨earlier, own, rfl, hearlier, hown⟩ := h
  intro e' he'
  rcases List.append_eq_append_iff.1 hsplit with ⟨within, hwithin, hlater⟩ | ⟨rest, hrest, hlater⟩
  · refine hown e' ?_
    rw [hlater]
    simp [he']
  · -- the question itself is one of the caller, so it is not among the earlier ones
    cases rest with
    | nil =>
      refine hown e' ?_
      rw [List.nil_append] at hlater
      rw [← hlater]
      exact List.mem_cons_of_mem _ he'
    | cons first rest =>
      obtain ⟨rfl, -⟩ := List.cons.inj hlater
      exact absurd he (hearlier e (by rw [hrest]; simp))

namespace World

/-! ## Actions in turn -/

/-- Whether an action keeps the calls in turn. A call is made while nothing but bursts is under way,
and a caller goes on while everybody is finished who has called later. -/
def inTurn (w : World machine φ) : Action machine φ → Bool
  | .call _ => w.callers.all fun caller => caller.isFinished || caller.command.isBurst
  | .advance i => (w.callers.drop (i + 1)).all Caller.isFinished
  | .deliver | .happen _ => true

/-- Whether all actions of a run keep the calls in turn. -/
def runsInTurn (config : Config) : World machine φ → List (Action machine φ) → Bool
  | _, [] => true
  | w, act :: actions => w.inTurn act && runsInTurn config (w.step config act) actions

/-- Whoever is at work, unless it is a burst, is the last to have called, and on its own. -/
def InTurn (w : World machine φ) : Prop :=
  ∀ ⦃i : Nat⦄ ⦃caller : Caller κ φ⦄, w.callers[i]? = some caller → caller.isFinished = false →
    caller.command.isBurst = false → i + 1 = w.callers.length ∧ OnItsOwn w.history i

section

variable {config : Config} {w : World machine φ}

theorem inTurn_new (memory : machine.Memory) : (new memory : World machine φ).InTurn := nofun

theorem inTurn_call (hlt : ∀ e ∈ w.history, e.caller < w.callers.length) {command : Command φ}
    (hturn : w.inTurn (.call command) = true) :
    (w.step config (.call command)).InTurn := by
  intro i caller hi hunfinished hburst
  have hi' : (w.callers ++ [⟨command, command.operation config⟩])[i]? = some caller := hi
  rcases Nat.lt_or_ge i w.callers.length with hold | hnew
  · -- those who have called before are finished, or bursts
    rw [List.getElem?_append_left hold] at hi'
    have hcaller := List.all_eq_true.1 hturn caller (List.mem_of_getElem? hi')
    simp [hunfinished, hburst] at hcaller
  · rw [List.getElem?_append_right hnew] at hi'
    have hlast : i = w.callers.length := by
      have hone := (List.getElem?_eq_some_iff.1 hi').1
      simp only [List.length_singleton] at hone
      omega
    subst hlast
    refine ⟨by simp [step], w.history, [], by simp [step], fun e he => ?_, by simp⟩
    exact Nat.ne_of_lt (hlt e he)

theorem InTurn.answered (h : w.InTurn) {i : Nat} {command : Command φ} {q : Question κ φ}
    {next : Answer q → Operation κ φ Result} (hi : w.callers[i]? = some ⟨command, .ask q next⟩)
    (hturn : w.inTurn (.advance i) = true) : (w.answered i command q next).InTurn := by
  have hlt := (List.getElem?_eq_some_iff.1 hi).1
  intro j caller hj hunfinished hburst
  have hj' : (w.callers.set i ⟨command, next (w.answer q).1⟩)[j]? = some caller := hj
  have hlength : (w.answered i command q next).callers.length = w.callers.length := by
    simp [World.answered]
  rw [hlength]
  by_cases hji : j = i
  · subst hji
    rw [List.getElem?_set_self hlt] at hj'
    cases hj'
    obtain ⟨hlast, before, own, hsplit, hbefore, hown⟩ := h hi rfl hburst
    refine ⟨hlast, before, own ++ [⟨j, q, (w.answer q).1⟩], ?_, hbefore, fun e he => ?_⟩
    · show w.history ++ [_] = _
      rw [hsplit, List.append_assoc]
    · rcases List.mem_append.1 he with hmem | hnow
      · exact hown e hmem
      · rw [List.mem_singleton.1 hnow]
  · -- the last to have called is at work, so it is nobody before it that goes on
    rw [List.getElem?_set_ne (Ne.symm hji)] at hj'
    obtain ⟨hlast, -⟩ := h hj' hunfinished hburst
    have hmem : caller ∈ w.callers.drop (i + 1) := by
      refine List.mem_of_getElem? (i := j - (i + 1)) ?_
      rw [List.getElem?_drop, ← hj']
      congr 1
      omega
    have hfinished := List.all_eq_true.1 hturn caller hmem
    rw [hunfinished] at hfinished
    cases hfinished

theorem InTurn.step (h : w.InTurn) (hlt : ∀ e ∈ w.history, e.caller < w.callers.length)
    {act : Action machine φ} (hturn : w.inTurn act = true) : (w.step config act).InTurn := by
  cases act with
  | call command => exact inTurn_call hlt hturn
  | deliver | happen => exact h
  | advance i =>
    show (w.advance i).InTurn
    rcases w.advance_cases i with hsame | ⟨command, q, next, hi, -, hanswered⟩
    · rw [hsame]
      exact h
    · rw [hanswered]
      exact h.answered hi hturn

end

/-! ## Conversions in turn -/

section

variable {w : World machine φ} {before later : List (Exchange κ φ)} {j : Nat} {c : Channel}
  {reply : Except HardwareFault UInt16}

/-- Nobody closes the unit under a caller that is on its own and does not come under the lock. -/
theorem Followed.unitStays (h : w.Followed tenures)
    (hread : w.history = before ++ ⟨j, .hardware (.readOneShot c), reply⟩ :: later)
    (hown : OnItsOwn before j) {caller : Caller κ φ} (hcaller : w.callers[j]? = some caller)
    (hlock : caller.command.entersLock = false) : UnitStays before j c := by
  intro earlier between hsplit e he
  have hj := hown.since hsplit rfl e he
  obtain ⟨during, after, rfl⟩ := List.append_of_mem he
  have hwhole : w.history = (earlier ++ ⟨j, .armed, some c⟩ :: during) ++ e ::
      (after ++ ⟨j, .hardware (.readOneShot c), reply⟩ :: later) := by
    rw [hread, hsplit]
    simp
  obtain ⟨locked, horderly, hfits⟩ := h.kept.orderly.split hwhole
  have hallowed : tenures.Allowed w.callers (earlier ++ ⟨j, .armed, some c⟩ :: during) :=
    (hwhole ▸ h.allowed).of_append
  by_contra hcloses
  obtain ⟨i, q, answer⟩ := e
  obtain rfl : i = j := hj
  cases q with
  | hardware call =>
    cases call with
    | deleteOneShotUnit =>
      have henters := hallowed.enters_of_call horderly hfits rfl (by simp [HardwareCall.IsCalibration])
        (by simp) hcaller
      exact Bool.false_ne_true (hlock.symm.trans henters)
    | _ => exact hcloses rfl
  | _ => exact hcloses rfl

/-- Where the calls are made in turn, every conversion is made on a unit that is open and set up for
its channel. -/
theorem InTurn.converts (hturn : w.InTurn) {command : Command φ}
    {next : Except HardwareFault UInt16 → Operation κ φ Result}
    (hi : w.callers[j]? = some ⟨command, .ask (.hardware (.readOneShot c)) next⟩)
    (h : (w.answered j command (.hardware (.readOneShot c)) next).Followed tenures) :
    ∃ u, (Fitting.ofHistory w.history).unit = some u ∧ u.channel = some c := by
  have hlt := (List.getElem?_eq_some_iff.1 hi).1
  have hcaller : (w.answered j command (.hardware (.readOneShot c)) next).callers[j]? =
      some ⟨command, next (w.answer (.hardware (.readOneShot c))).1⟩ := List.getElem?_set_self hlt
  have hread : (w.answered j command (.hardware (.readOneShot c)) next).history =
      w.history ++ ⟨j, .hardware (.readOneShot c), (w.answer (.hardware (.readOneShot c))).1⟩ ::
        [] := rfl
  cases hlock : command.entersLock with
  | true =>
    obtain ⟨n, hunit⟩ := h.converts_in_burst hread hcaller hlock
    exact ⟨_, hunit, rfl⟩
  | false =>
    have hburst : command.isBurst = false := by
      by_contra hburst
      have henters := Command.entersLock_of_isBurst (by simpa using hburst)
      exact Bool.false_ne_true (hlock.symm.trans henters)
    obtain ⟨-, hown⟩ := hturn hi rfl hburst
    obtain ⟨u, hunit, hchannel, -⟩ :=
      h.owns_of_unitStays hread (h.unitStays hread hown hcaller hlock)
    exact ⟨u, hunit, hchannel⟩

end

end World

end SharedAdc.Controller
