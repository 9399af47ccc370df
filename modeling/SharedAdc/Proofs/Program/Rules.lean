/-
Rules for the questions of a program. A rule book follows a program in a mode: it says what may
be asked in the mode, and which modes an answer can lead to. A program that obeys the rules asks
only what is allowed, whatever it is answered, and its end is described by a postcondition on its
result and the mode it is finished in.
-/
import SharedAdc.Program

namespace SharedAdc

/-- What may be asked in a mode, and where the answers lead. -/
structure Rules (Q : Type) (A : Q → Type) (S : Type) where
  allows : S → Q → Prop
  leads : S → (q : Q) → A q → S → Prop

variable {Q : Type} {A : Q → Type} {S α β : Type}

namespace Program

variable {rules : Rules Q A S}

/-- From `mode` on, the program asks only what the rules allow, and is finished only in results
and modes that `post` holds of. -/
def Obeys (rules : Rules Q A S) : Program Q A α → S → (α → S → Prop) → Prop
  | .done a, mode, post => post a mode
  | .ask q next, mode, post =>
    rules.allows mode q ∧ ∀ a mode', rules.leads mode q a mode' → (next a).Obeys rules mode' post

@[simp] theorem obeys_done (a : α) (mode : S) (post : α → S → Prop) :
    (done a : Program Q A α).Obeys rules mode post ↔ post a mode := Iff.rfl

theorem obeys_ask (q : Q) (next : A q → Program Q A α) (mode : S) (post : α → S → Prop) :
    (ask q next).Obeys rules mode post ↔ rules.allows mode q ∧
      ∀ a mode', rules.leads mode q a mode' → (next a).Obeys rules mode' post := Iff.rfl

theorem obeys_query (q : Q) (mode : S) (post : A q → S → Prop) :
    (query q : Program Q A (A q)).Obeys rules mode post ↔ rules.allows mode q ∧
      ∀ a mode', rules.leads mode q a mode' → post a mode' := Iff.rfl

/-- One program after another obeys the rules when the second does wherever the first ends. -/
@[simp] theorem obeys_bind (p : Program Q A α) (f : α → Program Q A β) (mode : S)
    (post : β → S → Prop) :
    (p.bind f).Obeys rules mode post ↔
      p.Obeys rules mode fun a mode' => (f a).Obeys rules mode' post := by
  -- on the first program; where it is finished, the second goes on in its last mode
  induction p generalizing mode with
  | done a => rfl
  | ask q next ih => simp only [bind_ask, obeys_ask, ih]

theorem Obeys.mono {p : Program Q A α} {mode : S} {post post' : α → S → Prop}
    (h : p.Obeys rules mode post) (himp : ∀ a mode', post a mode' → post' a mode') :
    p.Obeys rules mode post' := by
  induction p generalizing mode with
  | done a => exact himp a mode h
  | ask q next ih => exact ⟨h.1, fun a mode' hl => ih a (h.2 a mode' hl)⟩

theorem Obeys.map {p : Program Q A α} {mode : S} {post : α → S → Prop} {post' : β → S → Prop}
    (h : p.Obeys rules mode post) (f : α → β) (himp : ∀ a mode', post a mode' → post' (f a) mode') :
    (p.bind fun a => .done (f a)).Obeys rules mode post' := by
  rw [obeys_bind]
  exact h.mono himp

end Program

/-! ## Rules of a single course -/

/-- The rules of surroundings that answer in one way only: anything may be asked, and the state of
the surroundings is the mode. -/
def Rules.ofState (answer : (q : Q) → StateM S (A q)) : Rules Q A S where
  allows _ _ := True
  leads s q a s' := (answer q).run s = (a, s')

namespace Program

variable {rules : Rules Q A S} {answer : (q : Q) → StateM S (A q)}

theorem obeys_query_ofState (q : Q) (s : S) (post : A q → S → Prop) :
    (query q : Program Q A (A q)).Obeys (.ofState answer) s post ↔
      post ((answer q).run s).1 ((answer q).run s).2 := by
  rw [obeys_query]
  constructor
  · exact fun h => h.2 _ _ rfl
  · rintro h
    refine ⟨trivial, fun a s' hl => ?_⟩
    have hrun : (answer q).run s = (a, s') := hl
    rw [hrun] at h
    exact h

/-- To follow a program in such surroundings is to run it. -/
theorem obeys_ofState (p : Program Q A α) (s : S) (post : α → S → Prop) :
    p.Obeys (.ofState answer) s post ↔
      post ((p.run answer).run s).1 ((p.run answer).run s).2 := by
  induction p generalizing s with
  | done a => rfl
  | ask q next ih =>
    have hbind : ask q next = (query q).bind next := rfl
    rw [hbind, obeys_bind, obeys_query_ofState, ih]
    rfl

/-- What a program obeys holds of its run in surroundings that answer by the rules, where the mode is
read off their state. -/
theorem Obeys.run {S' : Type} {answer' : (q : Q) → StateM S' (A q)} {mode : S' → S}
    (hanswer : ∀ q s, rules.allows (mode s) q →
      rules.leads (mode s) q ((answer' q).run s).1 (mode ((answer' q).run s).2))
    {p : Program Q A α} {s : S'} {post : α → S → Prop} (h : p.Obeys rules (mode s) post) :
    post ((p.run answer').run s).1 (mode ((p.run answer').run s).2) := by
  induction p generalizing s with
  | done a => exact h
  | ask q next ih => exact ih _ (h.2 _ _ (hanswer q s h.1))

/-- A program takes the same course in two surroundings if each answer looks the same in both. -/
theorem run_view {S' : Type} {answer' : (q : Q) → StateM S' (A q)} (view : S → S')
    (h : ∀ q s, ((answer q).run s).map id view = (answer' q).run (view s)) (p : Program Q A α)
    (s : S) : ((p.run answer).run s).map id view = (p.run answer').run (view s) := by
  induction p generalizing s with
  | done a => rfl
  | ask q next ih =>
    have hview : ∀ r : A q × S, (((next r.1).run answer).run r.2).map id view =
        (fun r' : A q × S' => ((next r'.1).run answer').run r'.2) (r.map id view) :=
      fun r => ih r.1 r.2
    refine (hview ((answer q).run s)).trans ?_
    rw [h]
    rfl

end Program

end SharedAdc
