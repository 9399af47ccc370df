/-
A caller that everybody else leaves alone comes to its end: it never waits for a lock that it has
taken itself. What it ends with is what its operation comes to when it is run by itself.
-/
import SharedAdc.Proofs.Callers.Run

namespace SharedAdc.Controller.World

variable {κ φ : Type} {machine : Machine κ} {w : World machine φ} {i : Nat}

/-- Nobody but caller `i` is under the lock. -/
def Unhindered (w : World machine φ) (i : Nat) : Prop :=
  ∀ j, j ≠ i → (w.scene.modes j).IsAway

theorem Kept.unhindered (h : w.Kept) (hfree : w.shared.locked = false) (i : Nat) :
    w.Unhindered i := by
  have hguarded := h.orderly.settled.guarded
  rw [hfree] at hguarded
  cases hguarded with
  | free hall => exact fun j _ => hall j

section

variable {command : Command φ} {q : Question κ φ} {next : Answer q → Operation κ φ Result}

/-- Whoever holds the lock is under it, and nobody takes the lock from there. -/
theorem Kept.not_waits (h : w.Kept) (hunhindered : w.Unhindered i)
    (hi : w.callers[i]? = some ⟨command, .ask q next⟩) : q.waits w.shared = false := by
  cases q with
  | enter =>
    obtain ⟨hallow, -⟩ := h.behaves hi
    show w.shared.locked = false
    have hguarded := h.orderly.settled.guarded
    generalize w.shared.locked = locked at hguarded
    cases hguarded with
    | free => rfl
    | held j burst entry hj =>
      by_cases hji : j = i
      · subst hji
        rw [scene] at hallow
        rw [hj] at hallow
        exact hallow.elim
      · have haway := hunhindered j hji
        rw [scene] at haway
        rw [hj] at haway
        exact haway.elim
  | _ => rfl

theorem Unhindered.answered (hunhindered : w.Unhindered i) :
    (w.answered i command q next).Unhindered i := by
  intro j hj
  rw [scene_answered, Scene.modes_after_ne ⟨i, q, (w.answer q).1⟩ hj]
  exact hunhindered j hj

end

/-- A caller that is left alone is finished after some more steps of its own, with the result and in
the state that its operation leads to by itself. -/
theorem Kept.completes_alone (h : w.Kept) (hunhindered : w.Unhindered i) (config : Config)
    {command : Command φ} {rest : Operation κ φ Result}
    (hi : w.callers[i]? = some ⟨command, rest⟩) :
    ∃ n, let w' := w.run config (List.replicate n (.advance i))
      let outcome := (rest.run (respond machine)).run (w.shared, w.memory)
      w'.callers = w.callers.set i ⟨command, .done outcome.1⟩ ∧
        (w'.shared, w'.memory) = outcome.2 := by
  induction rest generalizing w with
  | done result =>
    obtain ⟨hlt, heq⟩ := List.getElem?_eq_some_iff.1 hi
    refine ⟨0, ?_, rfl⟩
    show w.callers = w.callers.set i ⟨command, .done result⟩
    rw [← heq]
    exact (List.set_getElem_self hlt).symm
  | ask q next ih =>
    have hfree := h.not_waits hunhindered hi
    have hrun : ∀ n, w.run config (List.replicate (n + 1) (.advance i)) =
        (w.answered i command q next).run config (List.replicate n (.advance i)) := by
      intro n
      have hstep : w.advance i = w.answered i command q next := by simp [advance, hi, hfree]
      show (w.advance i).run config _ = _
      rw [hstep]
    have hi' : (w.answered i command q next).callers[i]? =
        some ⟨command, next (w.answer q).1⟩ :=
      List.getElem?_set_self (List.getElem?_eq_some_iff.1 hi).1
    obtain ⟨n, hcallers, hstate⟩ := ih _ (h.answered hi hfree) hunhindered.answered hi'
    refine ⟨n + 1, ?_⟩
    rw [hrun]
    refine ⟨hcallers.trans ?_, hstate⟩
    exact List.set_set ..

/-- Called while the lock is free, an operation comes to its end by itself. -/
theorem Kept.finishes_alone (h : w.Kept) (hfree : w.shared.locked = false) (config : Config)
    {command : Command φ} {rest : Operation κ φ Result}
    (hi : w.callers[i]? = some ⟨command, rest⟩) :
    ∃ n result, (w.run config (List.replicate n (.advance i))).callers[i]? =
      some ⟨command, .done result⟩ := by
  obtain ⟨n, hcallers, -⟩ := h.completes_alone (h.unhindered hfree i) config hi
  exact ⟨n, _, (congrArg (fun callers => callers[i]?) hcallers).trans
    (List.getElem?_set_self (List.getElem?_eq_some_iff.1 hi).1)⟩

end SharedAdc.Controller.World
