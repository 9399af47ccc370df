/-
Rule books side by side, and rule books for a larger set of questions. A program that keeps two
rule books keeps both at once. Where only some questions of a program concern a rule book, the
others are free and leave its mode alone; a program that is asked in the words of the larger set
keeps there what it keeps in its own words.
-/
import SharedAdc.Proofs.Program.Rules

namespace SharedAdc

variable {Q R : Type} {A : Q → Type} {B : R → Type} {S T α β : Type}

namespace Rules

/-- Two rule books at once, each in a mode of its own. -/
def both (rules : Rules Q A S) (rules' : Rules Q A T) : Rules Q A (S × T) where
  allows mode q := rules.allows mode.1 q ∧ rules'.allows mode.2 q
  leads mode q a next := rules.leads mode.1 q a next.1 ∧ rules'.leads mode.2 q a next.2

/-- The question of a smaller set that a question stands for, with what its answer says there. -/
abbrev Concern (A : Q → Type) (B : R → Type) : Type := (q : Q) → Option ((r : R) × (A q → B r))

/-- The rule book for a larger set of questions, of which only some concern it. The others may be
asked in the modes that are `free`. -/
def through (concern : Concern A B) (free : S → Prop) (rules : Rules R B S) : Rules Q A S where
  allows mode q :=
    match concern q with
    | none => free mode
    | some c => rules.allows mode c.1
  leads mode q a next :=
    match concern q with
    | none => next = mode
    | some c => rules.leads mode c.1 (c.2 a) next

section

variable {concern : Concern A B} {free : S → Prop} {rules : Rules R B S} {mode next : S} {q : Q}
  {a : A q}

theorem allows_through_none (h : concern q = none) :
    (rules.through concern free).allows mode q ↔ free mode := by
  unfold through
  simp only [h]

theorem allows_through_some {c : (r : R) × (A q → B r)} (h : concern q = some c) :
    (rules.through concern free).allows mode q ↔ rules.allows mode c.1 := by
  unfold through
  simp only [h]

theorem leads_through_none (h : concern q = none) :
    (rules.through concern free).leads mode q a next ↔ next = mode := by
  unfold through
  simp only [h]

theorem leads_through_some {c : (r : R) × (A q → B r)} (h : concern q = some c) :
    (rules.through concern free).leads mode q a next ↔ rules.leads mode c.1 (c.2 a) next := by
  unfold through
  simp only [h]

end

end Rules

namespace Program

/-- The program asks only what rules with a single mode allow. -/
def Respects (rules : Rules Q A Unit) (p : Program Q A α) : Prop :=
  p.Obeys rules () fun _ _ => True

theorem respects_done {rules : Rules Q A Unit} (a : α) :
    (done a : Program Q A α).Respects rules := trivial

theorem Respects.bind {rules : Rules Q A Unit} {p : Program Q A α} {f : α → Program Q A β}
    (h : p.Respects rules) (hf : ∀ a, (f a).Respects rules) : (p.bind f).Respects rules := by
  unfold Respects
  rw [obeys_bind]
  exact Obeys.mono h fun a _ _ => hf a

theorem Obeys.both {rules : Rules Q A S} {rules' : Rules Q A T} {p : Program Q A α} {mode : S}
    {mode' : T} {post : α → S → Prop} {post' : α → T → Prop} (h : p.Obeys rules mode post)
    (h' : p.Obeys rules' mode' post') :
    p.Obeys (rules.both rules') (mode, mode') fun a m => post a m.1 ∧ post' a m.2 := by
  induction p generalizing mode mode' with
  | done a => exact ⟨h, h'⟩
  | ask q next ih =>
    refine ⟨⟨h.1, h'.1⟩, ?_⟩
    rintro a ⟨m, m'⟩ ⟨hl, hl'⟩
    exact ih a (h.2 a m hl) (h'.2 a m' hl')

/-- Asked in the same words, a program is the same. -/
theorem lift_query (p : Program R B α) : p.lift query = p := by
  unfold lift
  induction p with
  | done a => rfl
  | ask r next ih => simp [query, ih]

/-- A program keeps in other words what it keeps in its own, if each single question does. -/
theorem Obeys.lift {rules : Rules R B S} {rules' : Rules Q A S}
    {reword : (r : R) → Program Q A (B r)}
    (hword : ∀ r mode (post : B r → S → Prop), (query r : Program R B (B r)).Obeys rules mode post →
      (reword r).Obeys rules' mode post)
    {p : Program R B α} {mode : S} {post : α → S → Prop} (h : p.Obeys rules mode post) :
    (p.lift reword).Obeys rules' mode post := by
  induction p generalizing mode with
  | done a => exact h
  | ask r next ih =>
    have hlift : (ask r next).lift reword = (reword r).bind fun b => (next b).lift reword := rfl
    rw [hlift, obeys_bind]
    exact hword r mode _ ⟨h.1, fun b mode' hl => ih b (h.2 b mode' hl)⟩

/-- A question that stands for one of the smaller set is asked as that one. -/
theorem Obeys.asked {rules : Rules R B S} {concern : Rules.Concern A B} {free : S → Prop} {q : Q}
    {r : R} {view : A q → B r} (hq : concern q = some ⟨r, view⟩) {mode : S} {post : B r → S → Prop}
    (h : (query r : Program R B (B r)).Obeys rules mode post) :
    (query q : Program Q A (A q)).Obeys (rules.through concern free) mode
      fun a m => post (view a) m := by
  rw [obeys_query] at h ⊢
  exact ⟨(Rules.allows_through_some hq).2 h.1,
    fun a m hl => h.2 _ m ((Rules.leads_through_some hq).1 hl)⟩

theorem obeys_query_through_none {rules : Rules R B S} {concern : Rules.Concern A B}
    {free : S → Prop} {q : Q} (hq : concern q = none) {mode : S} {post : A q → S → Prop} :
    (query q : Program Q A (A q)).Obeys (rules.through concern free) mode post ↔
      free mode ∧ ∀ a, post a mode := by
  rw [obeys_query, Rules.allows_through_none hq]
  refine and_congr_right fun _ => forall_congr' fun a => ?_
  simp only [Rules.leads_through_none hq, forall_eq]

end Program

end SharedAdc
