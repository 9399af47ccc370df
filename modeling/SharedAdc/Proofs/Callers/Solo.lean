/-
Operations run alone: nobody else works on the controller, and the hardware answers every call as
its memory has it. What an operation comes to is then followed question by question.
-/
import SharedAdc.Proofs.Callers.World
import SharedAdc.Proofs.Program.Rules

namespace SharedAdc.Controller

variable {κ φ α : Type} {machine : Machine κ}

/-- The shared state and the memory of the hardware, and how they answer. -/
def solo (machine : Machine κ) : Rules (Question κ φ) Answer (State φ × machine.Memory) :=
  .ofState (World.respond machine)

section

variable {s : State φ} {m : machine.Memory}

theorem solo_hardware (call : HardwareCall κ)
    (post : call.Reply → State φ × machine.Memory → Prop) :
    (hardware call : Operation κ φ call.Reply).Obeys (solo machine) (s, m) post ↔
      post (machine.perform m call).1 (s, (machine.perform m call).2) :=
  Program.obeys_query_ofState ..

@[simp] theorem solo_note (notice : Notice) (t : State φ × machine.Memory)
    (post : Unit → State φ × machine.Memory → Prop) :
    (note notice : Operation κ φ Unit).Obeys (solo machine) t post ↔ post () t :=
  Program.obeys_query_ofState ..

@[simp] theorem solo_arm (channel : Option Channel)
    (post : Unit → State φ × machine.Memory → Prop) :
    @Program.Obeys (Question κ φ) Answer _ Unit (solo machine) (ask (.arm channel)) (s, m) post ↔
      post () ({ s with armed := channel }, m) :=
  Program.obeys_query_ofState ..

@[simp] theorem solo_installCallback (callback : φ)
    (post : Unit → State φ × machine.Memory → Prop) :
    @Program.Obeys (Question κ φ) Answer _ Unit (solo machine) (ask (.installCallback callback))
        (s, m) post ↔
      post () ({ s with slot := s.slot.install callback }, m) :=
  Program.obeys_query_ofState ..

@[simp] theorem solo_clearCallback (post : Unit → State φ × machine.Memory → Prop) :
    @Program.Obeys (Question κ φ) Answer _ Unit (solo machine) (ask .clearCallback) (s, m) post ↔
      post () ({ s with slot := s.slot.clear }, m) :=
  Program.obeys_query_ofState ..

@[simp] theorem solo_resetFrameCounts (post : Unit → State φ × machine.Memory → Prop) :
    @Program.Obeys (Question κ φ) Answer _ Unit (solo machine) (ask .resetFrameCounts) (s, m)
        post ↔
      post () ({ s with slot := s.slot.resetCounts }, m) :=
  Program.obeys_query_ofState ..

/-- A section under the lock works on the reservation, and puts back what it ends with. -/
theorem solo_locked {body : Reservation → Operation κ φ (α × Reservation)}
    {post : α → State φ × machine.Memory → Prop}
    (h : (body s.reservation).Obeys (solo machine) ({ s with locked := true }, m) fun r t =>
      post r.1 ({ t.1 with reservation := r.2, locked := false }, t.2)) :
    (locked body).Obeys (solo machine) (s, m) post := by
  unfold locked
  simp only [Program.bind_eq, Program.obeys_bind, ask]
  unfold solo at h ⊢
  rw [Program.obeys_query_ofState]
  refine h.mono ?_
  rintro ⟨result, held⟩ t hpost
  rw [Program.obeys_query_ofState]
  exact hpost

end

end SharedAdc.Controller
