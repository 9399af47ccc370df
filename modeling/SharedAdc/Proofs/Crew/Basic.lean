/-
Parties at work in common surroundings, of which a controller is a part. Each party is a program in
the words of the surroundings, and each question of it is put to the controller or concerns
something beside it. The parties go on in any order, one question at a time; whoever wants the lock
of the controller waits until it is free, and between two questions other things can happen.
-/
import SharedAdc.Proofs.Callers.Scene
import SharedAdc.Proofs.Program.Larger

namespace SharedAdc.Controller

variable {κ φ ρ : Type}

/-! ## The shared state of the controller -/

namespace State

/-- How the controller stands with its hardware, where the paths that are open are known. -/
def standing (s : State φ) (paths : Paths) : Standing φ :=
  ⟨s.reservation, s.armed, s.slot.callback, paths⟩

/-- The shared state goes over to `s'` with an answer to a question. -/
structure Turns (s : State φ) (q : Question κ φ) (a : Answer q) (s' : State φ) : Prop where
  standing : ∀ p, s'.standing ((s.standing p).after q a).paths = (s.standing p).after q a
  locked : s'.locked = q.lockAfter s.locked
  shows : ∀ p, (s.standing p).Shows q a

/-- Nothing that the operations of a controller go by is different in `s'`. -/
structure Same (s s' : State φ) : Prop where
  standing : ∀ p, s'.standing p = s.standing p
  locked : s'.locked = s.locked

/-- It makes no difference how many frames the slot has counted. -/
theorem same_of_callback (s : State φ) {slot : FrameSlot φ}
    (h : slot.callback = s.slot.callback) : s.Same { s with slot } :=
  ⟨fun _ => congrArg (Standing.mk _ _ · _) h, rfl⟩

end State

/-! ## Surroundings -/

/-- Surroundings with a controller in them. -/
structure Setting (κ φ : Type) where
  Question : Type
  Answer : Question → Type
  State : Type
  /-- What happens besides questions. -/
  Event : Type
  /-- Which questions are put to the controller. -/
  concern : Rules.Concern Answer (Controller.Answer (κ := κ) (φ := φ))
  shared : State → Controller.State φ
  answer : (q : Question) → StateM State (Answer q)
  happen : State → Event → State
  answers : ∀ s {q c}, concern q = some c →
    (shared s).Turns c.1 (c.2 ((answer q).run s).1) (shared ((answer q).run s).2)
  beside : ∀ s {q}, concern q = none → (shared s).Same (shared ((answer q).run s).2)
  events : ∀ s event, (shared s).Same (shared (happen s event))

namespace Setting

variable (S : Setting κ φ)

/-- A party that ends with a result. -/
abbrev Party (ρ : Type) : Type := Program S.Question S.Answer ρ

/-- Whether a question has to wait for the lock. -/
def waits (s : S.State) (q : S.Question) : Bool :=
  match S.concern q with
  | none => false
  | some c => c.1.waits (S.shared s)

end Setting

/-! ## Crews -/

/-- Parties at work in common surroundings, each with what is left of its program. -/
structure Crew (S : Setting κ φ) (ρ : Type) where
  state : S.State
  parties : List (S.Party ρ)

namespace Crew

variable {S : Setting κ φ}

/-- What can happen next. -/
inductive Action (S : Setting κ φ) where
  /-- The next question of a party is answered, if it has one and need not wait for the lock. -/
  | advance (party : Nat)
  | happen (event : S.Event)

/-- Answers a question of party `i`, which goes on with `next`. -/
def answered (c : Crew S ρ) (i : Nat) (q : S.Question) (next : S.Answer q → S.Party ρ) :
    Crew S ρ where
  state := ((S.answer q).run c.state).2
  parties := c.parties.set i (next ((S.answer q).run c.state).1)

/-- Lets party `i` go on by one question. -/
def advance (c : Crew S ρ) (i : Nat) : Crew S ρ :=
  match c.parties[i]? with
  | some (.ask q next) => if S.waits c.state q then c else c.answered i q next
  | _ => c

def step (c : Crew S ρ) : Action S → Crew S ρ
  | .advance i => c.advance i
  | .happen event => { c with state := S.happen c.state event }

/-- Takes actions in turn. -/
def run (c : Crew S ρ) (actions : List (Action S)) : Crew S ρ := actions.foldl step c

/-- What party `i` has come to, if it is finished. -/
def result? (c : Crew S ρ) (i : Nat) : Option ρ :=
  match c.parties[i]? with
  | some (.done a) => some a
  | _ => none

theorem parties_of_result {c : Crew S ρ} {i : Nat} {a : ρ} (h : c.result? i = some a) :
    c.parties[i]? = some (.done a) := by
  unfold result? at h
  split at h
  · rename_i hi
    cases h
    exact hi
  · cases h

/-- What every step keeps, a run keeps. -/
theorem run_induction {P : Crew S ρ → Prop} {c : Crew S ρ} (h0 : P c)
    (hstep : ∀ c act, P c → P (c.step act)) (actions : List (Action S)) : P (c.run actions) := by
  induction actions generalizing c with
  | nil => exact h0
  | cons act actions ih => exact ih (hstep c act h0)

theorem advance_cases (c : Crew S ρ) (i : Nat) :
    c.advance i = c ∨ ∃ q next, c.parties[i]? = some (.ask q next) ∧ S.waits c.state q = false ∧
      c.advance i = c.answered i q next := by
  unfold advance
  split
  · rename_i q next hi
    cases hq : S.waits c.state q
    · exact .inr ⟨q, next, hi, hq, by simp⟩
    · exact .inl (by simp)
  · exact .inl rfl

theorem length_answered (c : Crew S ρ) (i : Nat) (q : S.Question)
    (next : S.Answer q → S.Party ρ) : (c.answered i q next).parties.length = c.parties.length :=
  List.length_set ..

/-- After a question of party `i`, that party goes on with the answer, and the others are where
they were. -/
theorem parties_answered {c : Crew S ρ} {i j : Nat} {q : S.Question}
    {next : S.Answer q → S.Party ρ} {p : S.Party ρ}
    (hi : c.parties[i]? = some (.ask q next)) (h : (c.answered i q next).parties[j]? = some p) :
    (j = i ∧ p = next ((S.answer q).run c.state).1) ∨ (j ≠ i ∧ c.parties[j]? = some p) := by
  have hlt := (List.getElem?_eq_some_iff.1 hi).1
  by_cases hj : j = i
  · subst hj
    refine .inl ⟨rfl, ?_⟩
    simpa [answered, hlt, eq_comm] using h
  · refine .inr ⟨hj, ?_⟩
    simpa [answered, Ne.symm hj] using h

theorem length_run (c : Crew S ρ) (actions : List (Action S)) :
    (c.run actions).parties.length = c.parties.length := by
  refine run_induction (P := fun d => d.parties.length = c.parties.length) rfl ?_ actions
  rintro d act hd
  cases act with
  | happen event => exact hd
  | advance i =>
    rcases d.advance_cases i with hsame | ⟨q, next, -, -, hnext⟩
    · rw [step, hsame]
      exact hd
    · rw [step, hnext, length_answered]
      exact hd

/-! ## Beside the controller -/

/-- What the questions of every party respect and no event disturbs holds throughout. Rules with
one mode say what a party has to see to. -/
theorem run_respects {rules : Rules S.Question S.Answer Unit} {P : S.State → Prop}
    (hask : ∀ s q, P s → rules.allows () q →
      rules.leads () q ((S.answer q).run s).1 () ∧ P ((S.answer q).run s).2)
    (hevent : ∀ s event, P s → P (S.happen s event)) {c : Crew S ρ} (hc : P c.state)
    (hparties : ∀ p ∈ c.parties, p.Respects rules) (actions : List (Action S)) :
    P (c.run actions).state := by
  have hboth := run_induction
    (P := fun c : Crew S ρ => P c.state ∧ ∀ p ∈ c.parties, p.Respects rules)
    ⟨hc, hparties⟩ (fun c act h => ?_) actions
  · exact hboth.1
  · obtain ⟨hstate, hall⟩ := h
    cases act with
    | happen event => exact ⟨hevent _ event hstate, hall⟩
    | advance i =>
      rcases c.advance_cases i with hsame | ⟨q, next, hi, -, hnext⟩
      · rw [step, hsame]
        exact ⟨hstate, hall⟩
      · rw [step, hnext]
        obtain ⟨hallow, hgoes⟩ := hall _ (List.mem_of_getElem? hi)
        obtain ⟨hleads, hafter⟩ := hask c.state q hstate hallow
        refine ⟨hafter, fun p hp => ?_⟩
        obtain ⟨j, hj⟩ := List.mem_iff_getElem?.1 hp
        rcases parties_answered hi hj with ⟨-, rfl⟩ | ⟨-, hother⟩
        · exact hgoes _ () hleads
        · exact hall p (List.mem_of_getElem? hother)

end Crew

end SharedAdc.Controller
