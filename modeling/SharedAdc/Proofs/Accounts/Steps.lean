/-
Steps of a run and exchanges of its history: every exchange was made in a step of its caller. A
caller whose account is quiet has left everything as it was with each of its steps.
-/
import SharedAdc.Proofs.Accounts.Run

namespace SharedAdc.Controller.World

variable {κ φ : Type} {machine : Machine κ} {config : Config} {w : World machine φ} {i : Nat}

/-! ## Histories of runs -/

theorem run_append (config : Config) (w : World machine φ) (early late : List (Action machine φ)) :
    w.run config (early ++ late) = (w.run config early).run config late :=
  List.foldl_append

theorem run_cons (config : Config) (w : World machine φ) (act : Action machine φ)
    (actions : List (Action machine φ)) :
    w.run config (act :: actions) = (w.step config act).run config actions := rfl

theorem advance_eq {command : Command φ} {q : Question κ φ} {next : Answer q → Operation κ φ Result}
    (hi : w.callers[i]? = some ⟨command, .ask q next⟩) (hq : q.waits w.shared = false) :
    w.advance i = w.answered i command q next := by
  simp [advance, hi, hq]

/-- A step adds nothing to the history, or it is one of a caller whose question is answered. -/
theorem step_cases (config : Config) (w : World machine φ) (act : Action machine φ) :
    (w.step config act).history = w.history ∨ ∃ i command q next, act = .advance i ∧
      w.callers[i]? = some ⟨command, .ask q next⟩ ∧ q.waits w.shared = false ∧
      w.step config act = w.answered i command q next := by
  cases act with
  | call | deliver | happen => exact .inl rfl
  | advance i =>
    rcases w.advance_cases i with hsame | ⟨command, q, next, hi, hq, hanswered⟩
    · exact .inl (congrArg World.history hsame)
    · exact .inr ⟨i, command, q, next, rfl, hi, hq, hanswered⟩

theorem history_run (config : Config) (w : World machine φ) (actions : List (Action machine φ)) :
    ∃ later, (w.run config actions).history = w.history ++ later := by
  refine run_induction config (P := fun w' => ∃ later, w'.history = w.history ++ later)
    ⟨[], by simp⟩ ?_ actions
  rintro w' act ⟨later, hlater⟩
  rcases step_cases config w' act with hsame | ⟨i, command, q, next, -, -, -, hstep⟩
  · exact ⟨later, hsame.trans hlater⟩
  · rw [hstep]
    exact ⟨later ++ [⟨i, q, (w'.answer q).1⟩], by rw [← List.append_assoc, ← hlater]; rfl⟩

/-- A run that begins with a question of caller `i` has its answer in the history. -/
theorem history_run_advance {command : Command φ} {q : Question κ φ}
    {next : Answer q → Operation κ φ Result} (hi : w.callers[i]? = some ⟨command, .ask q next⟩)
    (hq : q.waits w.shared = false) (config : Config) (later : List (Action machine φ)) :
    ∃ after, (w.run config (.advance i :: later)).history =
      w.history ++ [⟨i, q, (w.answer q).1⟩] ++ after := by
  rw [run_cons]
  show ∃ after, ((w.advance i).run config later).history = _
  rw [advance_eq hi hq]
  exact history_run ..

/-- The step in which an exchange of the history was made. -/
theorem exists_step {memory : machine.Memory} {actions : List (Action machine φ)}
    {before later : List (Exchange κ φ)} {e : Exchange κ φ}
    (hsplit : ((new memory).run config actions).history = before ++ e :: later) :
    ∃ early late command next, actions = early ++ .advance e.caller :: late ∧
      ((new memory).run config early).history = before ∧
      ((new memory).run config early).callers[e.caller]? = some ⟨command, .ask e.question next⟩ ∧
      e.question.waits ((new memory).run config early).shared = false ∧
      (((new memory).run config early).answer e.question).1 = e.answer := by
  induction actions using List.reverseRecOn generalizing later with
  | nil =>
    have hlen := congrArg List.length hsplit
    simp [run, new] at hlen
  | append_singleton actions act ih =>
    rw [run_append] at hsplit
    rcases step_cases config ((new memory).run config actions) act with
      hsame | ⟨i, command, q, next, rfl, hi, hq, hstep⟩
    · obtain ⟨early, late, command, next, rfl, hearly⟩ := ih (hsame.symm.trans hsplit)
      exact ⟨early, late ++ [act], command, next, by simp, hearly⟩
    · have hhistory : ((new memory).run config actions).history ++
          [⟨i, q, (((new memory).run config actions).answer q).1⟩] = before ++ e :: later := by
        rw [← hsplit]
        exact (congrArg World.history hstep).symm
      rcases concat_eq_append_cons hhistory with ⟨hbefore, rfl, -⟩ | ⟨later', -, hbefore⟩
      · exact ⟨actions, [], command, next, rfl, hbefore, hi, hq, rfl⟩
      · obtain ⟨early, late, command, next, rfl, hearly⟩ := ih hbefore
        exact ⟨early, late ++ [.advance i], command, next, by simp, hearly⟩

/-! ## Quiet callers -/

/-- A caller that is quiet after a step has changed nothing that is shared but the lock. -/
theorem Accounted.shared_advance (h : w.Accounted config)
    (hquiet : (Account.of i (w.advance i).history).quiet = true) :
    (w.advance i).shared = { w.shared with locked := (w.advance i).shared.locked } := by
  rcases w.advance_cases i with hsame | ⟨command, q, next, hi, hq, hanswered⟩
  · rw [hsame]
  · rw [hanswered] at hquiet ⊢
    have hafter : (((Account.of i w.history).after q (w.answer q).1)).quiet = true := by
      rw [← hquiet]
      exact congrArg Account.quiet (Account.of_concat_self w.history ⟨i, q, (w.answer q).1⟩).symm
    cases q with
    | arm | installCallback | clearCallback | resetFrameCounts => cases hafter
    | leave held =>
      -- what is put back is what the caller came to, and that is what is still reserved
      have hentry : (Account.of i w.history).entry = some held :=
        beq_iff_eq.1 (Bool.and_eq_true_iff.1 hafter).2
      rw [(Account.agrees h.kept.orderly i).entry] at hentry
      obtain ⟨entry, hmode, rfl⟩ := Option.map_eq_some_iff.1 hentry
      have hsame : entry.reservation = w.shared.reservation := by
        cases hi : (Scene.ofHistory w.history).modes i with
        | away burst cleared =>
          rw [hi] at hmode
          cases hmode
        | inside burst entry' now =>
          rw [hi] at hmode
          cases hmode
          obtain ⟨-, -, -, hsame, -⟩ := h.kept.orderly.settled.guarded.of_inside hi
          exact hsame.trans (congrArg Standing.reservation h.kept.standing)
      show ({ w.shared with reservation := entry.reservation, locked := false } : State φ) = _
      rw [hsame]
      rfl
    | _ => rfl

/-- No step of caller `i` in the run has changed what the callers share but for the lock: the
reservation, the armed channel, the callback and the counters of the slot. -/
def Undisturbed (config : Config) (w : World machine φ) (actions : List (Action machine φ))
    (i : Nat) : Prop :=
  ∀ early late, actions = early ++ .advance i :: late →
    ((w.run config early).advance i).shared = { (w.run config early).shared with
      locked := ((w.run config early).advance i).shared.locked }

section

variable {actions early late : List (Action machine φ)}

theorem run_split (config : Config) (w : World machine φ)
    (hsplit : actions = early ++ .advance i :: late) :
    ∃ later, (w.run config actions).history =
      ((w.run config early).advance i).history ++ later := by
  subst hsplit
  rw [run_append, run_cons]
  exact history_run ..

/-- A caller that is quiet in the end was quiet after each of its steps. -/
theorem quiet_split (hsplit : actions = early ++ .advance i :: late)
    (hquiet : (Account.of i (w.run config actions).history).quiet = true) :
    (Account.of i ((w.run config early).advance i).history).quiet = true := by
  obtain ⟨later, hlater⟩ := run_split config w hsplit
  rw [hlater] at hquiet
  by_contra hloud
  exact Account.of_append_induction (P := fun a => ¬ a.quiet = true)
    (fun a q answer ha hq => ha (Account.quiet_of_after hq)) hloud hquiet

theorem undisturbed_of_quiet {memory : machine.Memory}
    (hquiet : (Account.of i ((new memory).run config actions).history).quiet = true) :
    (new memory).Undisturbed config actions i := fun early _ hsplit =>
  (accounted_run config memory early).shared_advance (quiet_split hsplit hquiet)

end

/-- A caller that is finished has ended as its command does. -/
theorem Accounted.finished (h : w.Accounted config) {command : Command φ} {result : Result}
    (hi : w.callers[i]? = some ⟨command, .done result⟩) :
    command.Ends config result (Account.of i w.history) :=
  h.ends hi

end SharedAdc.Controller.World
