/-
Following callers by rules. Rules whose modes are read off the history follow the operation of every
caller through every run, as soon as they fit the single exchange: who asks is led where its rules
say, and nobody else is led anywhere.
-/
import SharedAdc.Proofs.Callers.Run

namespace SharedAdc.Controller

variable {κ φ S : Type} {machine : Machine κ}

/-! ## Followers -/

/-- A way to follow callers: the rules for a caller with a command, the mode that a history has led
it to, and what is known of the end of its operation. -/
structure Follower (κ φ S : Type) where
  rules : Nat → Command φ → Rules (Question κ φ) Answer S
  mode : Nat → List (Exchange κ φ) → S
  ends : Command φ → Result → S → Prop

namespace Follower

variable {F : Follower κ φ S} {callers : List (Caller κ φ)}

/-- Every question of a history was allowed to its caller. -/
def Allowed (F : Follower κ φ S) (callers : List (Caller κ φ)) (history : List (Exchange κ φ)) :
    Prop :=
  ∀ ⦃before later : List (Exchange κ φ)⦄ ⦃e : Exchange κ φ⦄, history = before ++ e :: later →
    ∃ caller, callers[e.caller]? = some caller ∧
      (F.rules e.caller caller.command).allows (F.mode e.caller before) e.question

/-- The rules fit what the callers meet. -/
structure Fits (F : Follower κ φ S) (config : Config) : Prop where
  starts : ∀ {i : Nat} {history : List (Exchange κ φ)} (command : Command φ),
    (∀ e ∈ history, e.caller ≠ i) →
      (command.operation config : Operation κ φ Result).Obeys (F.rules i command)
        (F.mode i history) (F.ends command)
  leads : ∀ {callers : List (Caller κ φ)} {history : List (Exchange κ φ)} {locked : Bool}
    {e : Exchange κ φ} {caller : Caller κ φ}, Scene.Orderly (history ++ [e]) locked →
    F.Allowed callers (history ++ [e]) → callers[e.caller]? = some caller →
      (F.rules e.caller caller.command).leads (F.mode e.caller history) e.question e.answer
        (F.mode e.caller (history ++ [e]))
  others : ∀ {callers : List (Caller κ φ)} {history : List (Exchange κ φ)} {locked : Bool}
    {e : Exchange κ φ} {i : Nat}, Scene.Orderly (history ++ [e]) locked →
    F.Allowed callers (history ++ [e]) → e.caller ≠ i →
      F.mode i (history ++ [e]) = F.mode i history

theorem Allowed.caller_lt {history : List (Exchange κ φ)} (h : F.Allowed callers history)
    {e : Exchange κ φ} (he : e ∈ history) : e.caller < callers.length := by
  obtain ⟨before, later, hsplit⟩ := List.append_of_mem he
  obtain ⟨caller, hcaller, -⟩ := h hsplit
  exact (List.getElem?_eq_some_iff.1 hcaller).1

theorem Allowed.of_append {before later : List (Exchange κ φ)}
    (h : F.Allowed callers (before ++ later)) : F.Allowed callers before := by
  intro earlier between e hsplit
  have hall : before ++ later = earlier ++ e :: (between ++ later) := by
    rw [hsplit, List.append_assoc, List.cons_append]
  exact h hall

theorem Allowed.init {history : List (Exchange κ φ)} {e : Exchange κ φ}
    (h : F.Allowed callers (history ++ [e])) : F.Allowed callers history :=
  h.of_append

/-- What was allowed stays allowed, as long as the commands of the callers stay the same. -/
theorem Allowed.transfer {history : List (Exchange κ φ)} {callers' : List (Caller κ φ)}
    (h : F.Allowed callers history) (hcallers : ∀ {j : Nat} {caller : Caller κ φ},
      callers[j]? = some caller →
        ∃ caller', callers'[j]? = some caller' ∧ caller'.command = caller.command) :
    F.Allowed callers' history := by
  intro before later e hsplit
  obtain ⟨caller, hcaller, hallow⟩ := h hsplit
  obtain ⟨caller', hcaller', heq⟩ := hcallers hcaller
  exact ⟨caller', hcaller', by rwa [heq]⟩

end Follower

/-! ## Runs -/

namespace World

/-- What holds of the followed callers of a world all the time. -/
structure Followed (F : Follower κ φ S) (w : World machine φ) : Prop where
  kept : w.Kept
  /-- What is left of every operation goes on by its rules. -/
  rest : ∀ {i : Nat} {caller : Caller κ φ}, w.callers[i]? = some caller →
    caller.rest.Obeys (F.rules i caller.command) (F.mode i w.history) (F.ends caller.command)
  allowed : F.Allowed w.callers w.history

variable {F : Follower κ φ S} {config : Config} {w : World machine φ}

theorem followed_new (F : Follower κ φ S) (memory : machine.Memory) :
    (new memory : World machine φ).Followed F where
  kept := kept_new memory
  rest h := by cases h
  allowed _ _ _ h := by
    have hlen := congrArg List.length h
    simp [new] at hlen

theorem Followed.call (h : w.Followed F) (hF : F.Fits config) (command : Command φ) :
    (w.step config (.call command)).Followed F where
  kept := h.kept.call config command
  rest := by
    intro i caller hi
    have hi' : (w.callers ++ [⟨command, command.operation config⟩])[i]? = some caller := hi
    rcases Nat.lt_or_ge i w.callers.length with hlt | hge
    · rw [List.getElem?_append_left hlt] at hi'
      exact h.rest hi'
    · rw [List.getElem?_append_right hge] at hi'
      obtain ⟨hlt, rfl⟩ := List.getElem?_eq_some_iff.1 hi'
      simp only [List.length_singleton] at hlt
      have hnew : ∀ e ∈ w.history, e.caller ≠ i := by
        intro e he
        have := h.allowed.caller_lt he
        omega
      show Program.Obeys _ _ (F.mode i w.history) _
      simpa using hF.starts command hnew
  allowed := h.allowed.transfer fun hj =>
    ⟨_, (List.getElem?_append_left (List.getElem?_eq_some_iff.1 hj).1).trans hj, rfl⟩

/-- The callers go on with their commands. -/
theorem command_answered {i : Nat} {command : Command φ} {q : Question κ φ}
    {next : Answer q → Operation κ φ Result} (hi : w.callers[i]? = some ⟨command, .ask q next⟩)
    {j : Nat} {caller : Caller κ φ} (hj : w.callers[j]? = some caller) :
    ∃ caller', (w.answered i command q next).callers[j]? = some caller' ∧
      caller'.command = caller.command := by
  by_cases hji : j = i
  · subst hji
    rw [hi] at hj
    cases hj
    exact ⟨_, List.getElem?_set_self (List.getElem?_eq_some_iff.1 hi).1, rfl⟩
  · exact ⟨caller, (List.getElem?_set_ne (Ne.symm hji)).trans hj, rfl⟩

/-- A caller whose next question is answered goes on by its rules with the answer. -/
theorem Followed.answered (h : w.Followed F) (hF : F.Fits config) {i : Nat} {command : Command φ}
    {q : Question κ φ} {next : Answer q → Operation κ φ Result}
    (hi : w.callers[i]? = some ⟨command, .ask q next⟩) (hq : q.waits w.shared = false) :
    (w.answered i command q next).Followed F := by
  have hkept := h.kept.answered hi hq
  obtain ⟨hallow, hnext⟩ := h.rest hi
  have hlt := (List.getElem?_eq_some_iff.1 hi).1
  have hallowed : F.Allowed (w.answered i command q next).callers
      (w.answered i command q next).history := by
    intro before later e hsplit
    rcases concat_eq_append_cons hsplit with ⟨rfl, rfl, -⟩ | ⟨later', -, hbefore⟩
    · exact ⟨_, List.getElem?_set_self hlt, hallow⟩
    · exact h.allowed.transfer (command_answered hi) hbefore
  refine ⟨hkept, ?_, hallowed⟩
  intro j caller hj
  show Program.Obeys _ _ (F.mode j (w.history ++ [⟨i, q, (w.answer q).1⟩])) _
  by_cases hji : j = i
  · subst hji
    have hcaller : caller = ⟨command, next (w.answer q).1⟩ := by
      simpa [World.answered, hlt, eq_comm] using hj
    subst hcaller
    have hleads := hF.leads (e := ⟨j, q, (w.answer q).1⟩) hkept.orderly hallowed hj
    exact hnext _ _ hleads
  · rw [hF.others (e := ⟨i, q, (w.answer q).1⟩) hkept.orderly hallowed (Ne.symm hji)]
    exact h.rest ((List.getElem?_set_ne (Ne.symm hji)).symm.trans hj)

theorem Followed.step (h : w.Followed F) (hF : F.Fits config) (act : Action machine φ) :
    (w.step config act).Followed F := by
  cases act with
  | call command => exact h.call hF command
  | advance i =>
    rcases w.advance_cases i with hsame | ⟨command, q, next, hi, hq, hanswered⟩
    · show (w.advance i).Followed F
      rw [hsame]
      exact h
    · show (w.advance i).Followed F
      rw [hanswered]
      exact h.answered hF hi hq
  | deliver => exact ⟨h.kept.deliver config, h.rest, h.allowed⟩
  | happen event => exact ⟨h.kept.happen config event, h.rest, h.allowed⟩

theorem Followed.run (h : w.Followed F) (hF : F.Fits config) (actions : List (Action machine φ)) :
    (w.run config actions).Followed F :=
  run_induction config h (fun _ act h => h.step hF act) actions

/-- A caller that is finished has ended as its rules say. -/
theorem Followed.finished (h : w.Followed F) {i : Nat} {command : Command φ} {result : Result}
    (hi : w.callers[i]? = some ⟨command, .done result⟩) :
    F.ends command result (F.mode i w.history) :=
  h.rest hi

end World

end SharedAdc.Controller
