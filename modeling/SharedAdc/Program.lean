/-
Programs that question their surroundings: a program is finished with a result, or asks one
question and goes on with the answer. The surroundings decide what an answer is and what else
happens meanwhile, so one program can be run alone, against scripted hardware, or between the
steps of other callers.
-/

namespace SharedAdc

/-! ## Programs -/

/-- A program with questions `Q`, answers `A` and result `α`. -/
inductive Program (Q : Type) (A : Q → Type) (α : Type) : Type where
  | done (result : α)
  | ask (question : Q) (next : A question → Program Q A α)

namespace Program

variable {Q R : Type} {A : Q → Type} {B : R → Type} {α β γ : Type}

/-- The program that asks one question and results in its answer. -/
def query (q : Q) : Program Q A (A q) := .ask q .done

/-- Goes on with `f` where `p` is finished. -/
def bind (p : Program Q A α) (f : α → Program Q A β) : Program Q A β :=
  match p with
  | .done a => f a
  | .ask q next => .ask q fun r => (next r).bind f

instance : Monad (Program Q A) where
  pure := .done
  bind := bind

@[simp] theorem bind_done (a : α) (f : α → Program Q A β) : (done a).bind f = f a := rfl

@[simp] theorem bind_ask (q : Q) (next : A q → Program Q A α) (f : α → Program Q A β) :
    (ask q next).bind f = ask q fun r => (next r).bind f := rfl

@[simp] theorem pure_eq (a : α) : (pure a : Program Q A α) = done a := rfl

@[simp] theorem bind_eq (p : Program Q A α) (f : α → Program Q A β) : p >>= f = p.bind f := rfl

@[simp] theorem bind_pure (p : Program Q A α) : p.bind .done = p := by
  induction p with
  | done a => rfl
  | ask q next ih => simp [ih]

theorem bind_assoc (p : Program Q A α) (f : α → Program Q A β) (g : β → Program Q A γ) :
    (p.bind f).bind g = p.bind fun a => (f a).bind g := by
  induction p with
  | done a => rfl
  | ask q next ih => simp [ih]

instance : LawfulMonad (Program Q A) :=
  LawfulMonad.mk' _ (fun p => p.bind_pure) (fun _ _ => rfl) fun p f g => p.bind_assoc f g

/-! ## Running -/

/-- Runs a program, each question being answered by `answer`. -/
def run {m : Type → Type} [Monad m] (answer : (q : Q) → m (A q)) : Program Q A α → m α
  | .done a => pure a
  | .ask q next => do (next (← answer q)).run answer

section

variable {m : Type → Type} [Monad m] (answer : (q : Q) → m (A q))

@[simp] theorem run_done (a : α) : (done a : Program Q A α).run answer = pure a := rfl

@[simp] theorem run_ask (q : Q) (next : A q → Program Q A α) :
    (ask q next).run answer = answer q >>= fun r => (next r).run answer := rfl

variable [LawfulMonad m]

@[simp] theorem run_query (q : Q) : (query q).run answer = answer q := by
  simp [query]

/-- Running one program after another is running both. -/
@[simp] theorem run_bind (p : Program Q A α) (f : α → Program Q A β) :
    (p.bind f).run answer = p.run answer >>= fun a => (f a).run answer := by
  induction p with
  | done a => simp
  | ask q next ih => simp [ih]

end

/-- Runs a program up to its first question that `stops` holds of; what is left is a finished
program, or that question with its continuation. -/
def runUntil {m : Type → Type} [Monad m] (stops : Q → Bool) (answer : (q : Q) → m (A q)) :
    Program Q A α → m (Program Q A α)
  | .done a => pure (.done a)
  | .ask q next => do
    if stops q then pure (.ask q next)
    else (next (← answer q)).runUntil stops answer

/-- Asks each question of a program in the words of a larger set of questions. -/
def lift (reword : (q : Q) → Program R B (A q)) (p : Program Q A α) : Program R B α :=
  p.run reword

end Program

end SharedAdc
