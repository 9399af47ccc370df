/-
Callers at work on one controller. Each call to the controller has an operation of its own, and
the operations go on in any order, one question at a time; whoever wants the lock waits until it
is free. Between two questions a frame can reach the slot, and the hardware can change by itself.
What lies behind the hardware calls is any machine that replies to them.
-/
import SharedAdc.Bench.Recorder
import SharedAdc.Controller.Command

namespace SharedAdc.Controller

/-! ## Hardware -/

/-- Hardware, by what it replies to a call and remembers of it. A memory that is a script can make
any call succeed or fail. -/
structure Machine (κ : Type) where
  Memory : Type
  /-- What happens to the hardware besides calls. -/
  Event : Type
  perform : Memory → (call : HardwareCall κ) → call.Reply × Memory
  happen : Memory → Event → Memory

/-- Recording hardware, on which the lasting failures can change at any time. -/
def Machine.recording : Machine Range where
  Memory := Bench.Recorder
  Event := List HardwareOp
  perform r call := r.perform call none
  happen r failing := { r with failing }

variable {κ φ : Type}

/-! ## Worlds -/

/-- A call to the controller, with what is left of its operation. -/
structure Caller (κ φ : Type) where
  command : Command φ
  rest : Operation κ φ Result

/-- Whether nothing is left to do. -/
def Caller.isFinished (caller : Caller κ φ) : Bool :=
  match caller.rest with
  | .done _ => true
  | .ask _ _ => false

/-- A question of a caller that was answered. -/
structure Exchange (κ φ : Type) where
  caller : Nat
  question : Question κ φ
  answer : Answer question

/-- A controller with its callers, on hardware with a memory. -/
structure World (machine : Machine κ) (φ : Type) where
  shared : State φ := {}
  memory : machine.Memory
  /-- Everybody who has called so far. -/
  callers : List (Caller κ φ) := []
  /-- What was asked and answered so far, the earliest first. -/
  history : List (Exchange κ φ) := []

/-- What can happen next. -/
inductive Action (machine : Machine κ) (φ : Type) where
  | call (command : Command φ)
  /-- The next question of a caller is answered, if it has one and need not wait for the lock. -/
  | advance (caller : Nat)
  /-- A frame reaches the slot. -/
  | deliver
  | happen (event : machine.Event)

/-- Whether a question has to wait for the lock. -/
def Question.waits (s : State φ) : Question κ φ → Bool
  | .enter => s.locked
  | _ => false

namespace World

variable {machine : Machine κ}

/-- A controller nobody has called yet. -/
def new (memory : machine.Memory) : World machine φ := { memory }

/-- Answers a question from the shared state, or by the hardware. -/
def respond (machine : Machine κ) :
    (q : Question κ φ) → StateM (State φ × machine.Memory) (Answer q) :=
  Controller.answer (fun f => modifyGet fun s => ((f s.1).1, (f s.1).2, s.2))
    (fun call => modifyGet fun s =>
      ((machine.perform s.2 call).1, s.1, (machine.perform s.2 call).2))
    fun _ => pure ()

/-- The answer to a question, and the shared state and the memory after it. -/
def answer (w : World machine φ) (q : Question κ φ) :
    Answer q × State φ × machine.Memory :=
  (respond machine q).run (w.shared, w.memory)

/-- Answers a question of caller `i`, who goes on with `next`. -/
def answered (w : World machine φ) (i : Nat) (command : Command φ) (q : Question κ φ)
    (next : Answer q → Operation κ φ Result) : World machine φ :=
  { shared := (w.answer q).2.1
    memory := (w.answer q).2.2
    callers := w.callers.set i ⟨command, next (w.answer q).1⟩
    history := w.history ++ [⟨i, q, (w.answer q).1⟩] }

/-- Lets caller `i` go on by one question. -/
def advance (w : World machine φ) (i : Nat) : World machine φ :=
  match w.callers[i]? with
  | some ⟨command, .ask q next⟩ => if q.waits w.shared then w else w.answered i command q next
  | _ => w

def step (config : Config) (w : World machine φ) : Action machine φ → World machine φ
  | .call command => { w with callers := w.callers ++ [⟨command, command.operation config⟩] }
  | .advance i => w.advance i
  | .deliver => { w with shared := { w.shared with slot := w.shared.slot.deliver.2 } }
  | .happen event => { w with memory := machine.happen w.memory event }

/-- Takes actions in turn. -/
def run (config : Config) (w : World machine φ) (actions : List (Action machine φ)) :
    World machine φ :=
  actions.foldl (step config) w

/-- What every step keeps, a run keeps. -/
theorem run_induction {P : World machine φ → Prop} (config : Config) {w : World machine φ}
    (h0 : P w) (hstep : ∀ w act, P w → P (w.step config act)) (actions : List (Action machine φ)) :
    P (w.run config actions) := by
  induction actions generalizing w with
  | nil => exact h0
  | cons act actions ih => exact ih (hstep w act h0)

theorem advance_cases (w : World machine φ) (i : Nat) :
    w.advance i = w ∨ ∃ command q next, w.callers[i]? = some ⟨command, .ask q next⟩ ∧
      q.waits w.shared = false ∧ w.advance i = w.answered i command q next := by
  unfold advance
  split
  · rename_i command q next hi
    cases hq : q.waits w.shared
    · exact .inr ⟨command, q, next, hi, hq, by simp⟩
    · exact .inl (by simp)
  · exact .inl rfl

end World

end SharedAdc.Controller
