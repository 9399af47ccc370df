/-
Every run keeps the rules of conduct: whatever the callers ask for, whatever the hardware replies
and in whatever order everybody goes on, each question was allowed to its caller when it was
asked, and the scene is settled after it.
-/
import SharedAdc.Proofs.Callers.Operations
import SharedAdc.Proofs.Callers.Scene

namespace SharedAdc.Controller

variable {κ φ : Type} {machine : Machine κ}

/-- The scene of a world. -/
def World.scene (w : World machine φ) : Scene φ := .ofHistory w.history

/-- What holds of a world all the time. -/
structure World.Kept (w : World machine φ) : Prop where
  standing : w.scene.standing = w.standing
  orderly : Scene.Orderly w.history w.shared.locked
  /-- What is left of every operation keeps the rules. -/
  behaves : ∀ {i : Nat} {caller : Caller κ φ}, w.callers[i]? = some caller →
    caller.rest.Obeys conduct (w.scene.modes i) fun _ mode => ∃ cleared, mode = .away none cleared
  /-- Whoever has not called yet has nothing. -/
  absent : ∀ i, w.callers.length ≤ i → w.scene.modes i = .away none none

namespace World

/-! ## Answers -/

theorem shows_answer (w : World machine φ) (q : Question κ φ) :
    w.standing.Shows q (w.answer q).1 := by
  cases q <;> first | rfl | trivial

theorem locked_answered (w : World machine φ) (i : Nat) (command : Command φ) (q : Question κ φ)
    (next : Answer q → Operation κ φ Result) :
    (w.answered i command q next).shared.locked = q.lockAfter w.shared.locked := by
  cases q <;> rfl

theorem scene_answered (w : World machine φ) (i : Nat) (command : Command φ) (q : Question κ φ)
    (next : Answer q → Operation κ φ Result) :
    (w.answered i command q next).scene = w.scene.after ⟨i, q, (w.answer q).1⟩ :=
  Scene.ofHistory_concat ..

theorem free_of_not_waits {q : Question κ φ} {s : State φ} (h : q.waits s = false) :
    q = .enter → s.locked = false := by
  rintro rfl
  exact h

/-- While the lock is free, a sound standing is left behind. -/
theorem Kept.sound {w : World machine φ} (h : w.Kept) (hfree : w.shared.locked = false) :
    w.standing.Sound := by
  have hguarded := h.orderly.settled.guarded
  rw [hfree] at hguarded
  cases hguarded with
  | free hall hsound =>
    rw [← h.standing]
    exact hsound

/-- Whoever is finished, or has not called at all, is outside the lock with no burst under way. -/
theorem Kept.away_of_finished {w : World machine φ} (h : w.Kept) {i : Nat}
    (hi : ∀ caller, w.callers[i]? = some caller → caller.isFinished = true) :
    ∃ cleared, w.scene.modes i = .away none cleared := by
  rcases Nat.lt_or_ge i w.callers.length with hlt | hge
  · have hcaller := List.getElem?_eq_getElem hlt
    have hfinished := hi _ hcaller
    have hbehaves := h.behaves hcaller
    unfold Caller.isFinished at hfinished
    split at hfinished
    · rename_i result hrest
      rw [hrest] at hbehaves
      exact hbehaves
    · cases hfinished
  · exact ⟨none, h.absent i hge⟩

/-- Where everybody is finished, the lock is free and no burst is under way. -/
theorem Kept.quiet {w : World machine φ} (h : w.Kept)
    (hquiet : w.callers.all Caller.isFinished = true) :
    w.shared.locked = false ∧ w.shared.reservation.session ≠ .oneShot := by
  have hmode : ∀ i, ∃ cleared, w.scene.modes i = .away none cleared := fun i =>
    h.away_of_finished fun caller hi => List.all_eq_true.1 hquiet _ (List.mem_of_getElem? hi)
  refine ⟨?_, fun hone => ?_⟩
  · -- a lock that is taken is held by somebody under it, and everybody is away
    have hguarded := h.orderly.settled.guarded
    generalize w.shared.locked = locked at hguarded
    cases hguarded with
    | free => rfl
    | held i burst entry hi =>
      obtain ⟨cleared, hc⟩ := hmode i
      rw [scene] at hc
      rw [hc] at hi
      cases hi
  · -- a reservation that shows a burst has a caller whose burst it is
    have hsame : w.scene.standing.reservation = w.shared.reservation := by
      rw [h.standing]
      rfl
    obtain ⟨i, b, hb⟩ := h.orderly.settled.shown (by rw [← hone, ← hsame]; rfl)
    obtain ⟨cleared, hc⟩ := hmode i
    rw [scene] at hc
    rw [hc] at hb
    cases hb

/-! ## Steps -/

theorem kept_new (memory : machine.Memory) : (new memory : World machine φ).Kept where
  standing := rfl
  orderly := .nil
  behaves h := by cases h
  absent i _ := rfl

theorem Kept.call {w : World machine φ} (h : w.Kept) (config : Config) (command : Command φ) :
    (w.step config (.call command)).Kept where
  standing := h.standing
  orderly := h.orderly
  behaves := by
    intro i caller hi
    rcases Nat.lt_or_ge i w.callers.length with hlt | hge
    · refine h.behaves ?_
      rw [← hi]
      exact (List.getElem?_append_left hlt).symm
    · have hmem : caller = ⟨command, command.operation config⟩ := by
        have hi' : (w.callers ++ [⟨command, command.operation config⟩])[i]? = some caller := hi
        rw [List.getElem?_append_right hge] at hi'
        simpa using List.mem_of_getElem? hi'
      subst hmem
      show Program.Obeys conduct _ (w.scene.modes i) _
      rw [h.absent i hge]
      exact operation_behaves config command
  absent i hi := h.absent i (Nat.le_of_succ_le (by simpa [step] using hi))

theorem Kept.deliver {w : World machine φ} (h : w.Kept) (config : Config) :
    (w.step config .deliver).Kept where
  standing := by
    refine h.standing.trans ?_
    simp [World.standing, step]
  orderly := h.orderly
  behaves := h.behaves
  absent := h.absent

theorem Kept.happen {w : World machine φ} (h : w.Kept) (config : Config) (event : machine.Event) :
    (w.step config (.happen event)).Kept :=
  ⟨h.standing, h.orderly, h.behaves, h.absent⟩

/-- A caller whose next question is answered was allowed to ask it, and keeps to the rules with
the answer. -/
theorem Kept.answered {w : World machine φ} (h : w.Kept) {i : Nat} {command : Command φ}
    {q : Question κ φ} {next : Answer q → Operation κ φ Result}
    (hi : w.callers[i]? = some ⟨command, .ask q next⟩) (hq : q.waits w.shared = false) :
    (w.answered i command q next).Kept := by
  obtain ⟨hallow, hnext⟩ := h.behaves hi
  have hfree := free_of_not_waits hq
  have hshow : w.scene.standing.Shows q (w.answer q).1 := by
    rw [h.standing]
    exact w.shows_answer q
  have hscene := w.scene_answered i command q next
  -- only caller `i` goes on; everybody else is where the scene before had them
  constructor
  case standing =>
    rw [hscene, standing_answered, ← h.standing]
    rfl
  case orderly =>
    rw [locked_answered]
    exact h.orderly.concat ⟨hallow, hfree, hshow⟩
  case behaves =>
    intro j caller hj
    rw [hscene]
    by_cases hji : j = i
    · subst hji
      have hcaller : caller = ⟨command, next (w.answer q).1⟩ := by
        have hlt := (List.getElem?_eq_some_iff.1 hi).1
        simpa [World.answered, hlt, eq_comm] using hj
      subst hcaller
      rw [Scene.modes_after_self ⟨j, q, (w.answer q).1⟩]
      exact hnext _ _ (h.orderly.settled.leads hfree hshow)
    · rw [Scene.modes_after_ne ⟨i, q, (w.answer q).1⟩ hji]
      refine h.behaves ?_
      simpa [World.answered, Ne.symm hji] using hj
  case absent =>
    intro j hj
    have hj' : w.callers.length ≤ j := by simpa [World.answered] using hj
    have hlt := (List.getElem?_eq_some_iff.1 hi).1
    rw [hscene, Scene.modes_after_ne ⟨i, q, (w.answer q).1⟩ (by show j ≠ i; omega)]
    exact h.absent j hj'

theorem Kept.step {w : World machine φ} (h : w.Kept) (config : Config) (act : Action machine φ) :
    (w.step config act).Kept := by
  cases act with
  | call command => exact h.call config command
  | advance i =>
    rcases w.advance_cases i with hsame | ⟨command, q, next, hi, hq, hanswered⟩
    · show (w.advance i).Kept
      rw [hsame]
      exact h
    · show (w.advance i).Kept
      rw [hanswered]
      exact h.answered hi hq
  | deliver => exact h.deliver config
  | happen event => exact h.happen config event

theorem kept_run (config : Config) (memory : machine.Memory) (actions : List (Action machine φ)) :
    ((new memory).run config actions).Kept :=
  run_induction config (kept_new memory) (fun _ act h => h.step config act) actions

end World

end SharedAdc.Controller
