/-
The account of an operation: what it has found, done and left behind so far, kept along with its
questions. Rules that follow an operation by its account alone say what the end of the operation
is, whatever the hardware replies and whatever the others do meanwhile; of the others they only
need that the reservations met under the lock are proper, and that a burst finds its own again.
-/
import Mathlib.Algebra.Order.Ring.Nat
import SharedAdc.Proofs.Callers.Standing
import SharedAdc.Proofs.Program.Rules

namespace SharedAdc

/-! ## Failures -/

/-- The error of a result, if it is one. -/
def errorOf {ε α : Type} : Except ε α → Option ε
  | .ok _ => none
  | .error e => some e

theorem errorOf_map {ε α β : Type} (f : α → β) (result : Except ε α) :
    errorOf (result.map f) = errorOf result := by
  cases result <;> rfl

/-- Whether the error turns a call down; the others report a failure of the hardware. -/
def AdcError.isRejection : AdcError → Bool
  | .hardware _ => false
  | _ => true

/-- A call to the hardware, with the slot that it hands over if it registers one. -/
structure SlottedCall (κ : Type) where
  call : HardwareCall κ
  slot : SlotName := .controller

/-- A call to the hardware with its reply. -/
structure AnsweredCall (κ : Type) where
  call : HardwareCall κ
  reply : call.Reply

namespace AnsweredCall

variable {κ : Type}

/-- The fault that the reply reports. -/
def fault? (c : AnsweredCall κ) : Option HardwareFault :=
  match c.call.respond c.reply with
  | .status result => errorOf result
  | .raw result => errorOf result

/-- A call that fails reports the code under its own operation. -/
theorem fault?_fail (call : HardwareCall κ) (code : Int32) :
    fault? ⟨call, call.fail code⟩ = call.op?.map fun op => ⟨op, code⟩ := by
  cases call <;> rfl

def isDeletion (c : AnsweredCall κ) : Bool :=
  match c.call with
  | .deleteOneShotUnit => true
  | _ => false

/-- Whether the call has configured the continuous driver. -/
def isConfigured : AnsweredCall κ → Bool
  | ⟨.configureContinuous _ _, .ok ()⟩ => true
  | _ => false

/-- The first fault among the replies. -/
def firstFault? (cs : List (AnsweredCall κ)) : Option HardwareFault := cs.findSome? fault?

/-- The calls of a plan are made in turn up to the first that fails, whose fault is the last
argument. -/
inductive Carried : List (HardwareCall κ) → List (AnsweredCall κ) → Option HardwareFault → Prop where
  | nil : Carried [] [] none
  | failed {call : HardwareCall κ} {reply : call.Reply} {plan : List (HardwareCall κ)}
    {fault : HardwareFault} (h : fault? ⟨call, reply⟩ = some fault) :
    Carried (call :: plan) [⟨call, reply⟩] (some fault)
  | cons {call : HardwareCall κ} {reply : call.Reply} {plan : List (HardwareCall κ)}
    {made : List (AnsweredCall κ)} {last : Option HardwareFault} (h : fault? ⟨call, reply⟩ = none)
    (rest : Carried plan made last) : Carried (call :: plan) (⟨call, reply⟩ :: made) last

/-- The code that the call has read. -/
def code? : AnsweredCall κ → Option Nat
  | ⟨.readOneShot _, .ok raw⟩ => some raw.toNat
  | _ => none

/-- The codes that were read, in order. -/
def codes (cs : List (AnsweredCall κ)) : List Nat := cs.filterMap code?

@[simp] theorem codes_append (cs ds : List (AnsweredCall κ)) :
    codes (cs ++ ds) = codes cs ++ codes ds :=
  List.filterMap_append ..

theorem lt_of_mem_codes {cs : List (AnsweredCall κ)} {code : Nat} (h : code ∈ codes cs) :
    code < 2 ^ 16 := by
  obtain ⟨c, -, hc⟩ := List.mem_filterMap.1 h
  unfold code? at hc
  split at hc <;> cases hc
  exact UInt16.toNat_lt _

theorem sum_codes_le (cs : List (AnsweredCall κ)) : (codes cs).sum ≤ (codes cs).length * 65535 := by
  have hle : ∀ code ∈ codes cs, code ≤ 65535 := fun code h => Nat.le_of_lt_succ (lt_of_mem_codes h)
  generalize codes cs = l at hle
  induction l with
  | nil => exact Nat.le_refl 0
  | cons code l ih =>
    have hcode := hle code List.mem_cons_self
    have hrest := ih fun code hmem => hle code (List.mem_cons_of_mem _ hmem)
    rw [List.sum_cons, List.length_cons]
    omega

namespace Carried

variable {plan : List (HardwareCall κ)} {made : List (AnsweredCall κ)} {last : Option HardwareFault}

theorem firstFault?_eq (h : Carried plan made last) : firstFault? made = last := by
  induction h with
  | nil => rfl
  | failed h => simp [firstFault?, h]
  | cons h rest ih => simpa [firstFault?, h] using ih

theorem call_mem (h : Carried plan made last) : ∀ c ∈ made, c.call ∈ plan := by
  induction h with
  | nil => simp
  | failed => simp
  | cons h rest ih =>
    rintro c (_ | ⟨_, hmem⟩)
    · exact List.mem_cons_self
    · exact List.mem_cons_of_mem _ (ih c hmem)

theorem ne_nil (h : Carried plan made last) (hplan : plan ≠ []) : made ≠ [] := by
  cases h with
  | nil => exact absurd rfl hplan
  | failed | cons => simp

/-- Conversions none of which has failed have each read a code. -/
theorem length_codes {channel : Channel} {n : Nat}
    (h : Carried (List.replicate n (.readOneShot channel)) made none) : (codes made).length = n := by
  induction n generalizing made with
  | zero =>
    cases h
    rfl
  | succ n ih =>
    rw [List.replicate_succ] at h
    cases h with
    | @cons _ reply _ made _ h rest =>
      rcases reply with fault | raw
      · cases h
      · exact congrArg (· + 1) (ih rest)

end Carried

end AnsweredCall

/-! ## Reservations -/

namespace Reservation

/-- No session is under way. -/
def IsVacant (r : Reservation) : Prop := r.session = .idle ∨ r.session = .reserved

instance (r : Reservation) : Decidable r.IsVacant := inferInstanceAs (Decidable (_ ∨ _))

/-- The reservations that can be met under the lock. -/
inductive Proper : Reservation → Prop where
  | idle : Proper .idle
  | reserved {m : Mask} (hm : checkMask m = .ok ()) : Proper ⟨m, .reserved⟩
  | oneShot (c : Channel) : Proper ⟨.single c, .oneShot⟩
  | timeCritical (c : Channel) : Proper ⟨.single c, .timeCritical c⟩
  | continuous {m : Mask} (hm : checkMask m = .ok ()) : Proper ⟨m, .continuous⟩

end Reservation

namespace Controller

variable {κ φ α β : Type}

theorem Standing.Sound.proper {s : Standing φ} (h : s.Sound) : s.reservation.Proper := by
  cases h with
  | idle => exact .idle
  | reserved hm => exact .reserved hm
  | oneShot c => exact .oneShot c
  | timeCritical c => exact .timeCritical c
  | continuous hm callback => exact .continuous hm

/-! ## Accounts -/

/-- What an operation has found, done and left behind so far. -/
structure Account (κ φ : Type) where
  /-- The calls to the hardware, the earliest first. -/
  calls : List (AnsweredCall κ) := []
  /-- Under the lock, the reservation that the operation came to. -/
  entry : Option Reservation := none
  /-- The channels of its burst, if it has one under way. -/
  burst : Option Mask := none
  /-- The reservation that it came to when it first took the lock. -/
  found : Option Reservation := none
  /-- The reservations that it put back, the latest first. -/
  left : List Reservation := []
  /-- Whether it has left everything as it was that the callers share. -/
  quiet : Bool := true
  /-- What it last made of the callback, if it touched it. -/
  callback : Option (Option φ) := none
  /-- What it was first shown as the armed channel. -/
  armed : Option (Option Channel) := none

namespace Account

/-- The burst of an operation that puts `held` back: one that it has just opened, if any. -/
def opened (a : Account κ φ) (held : Reservation) : Option Mask :=
  if a.burst = none ∧ a.entry.map Reservation.session ≠ some .oneShot ∧ held.session = .oneShot then
    some held.active
  else none

/-- The account after a question is answered. -/
def after (a : Account κ φ) : (q : Question κ φ) → Answer q → Account κ φ
  | .enter, held => { a with entry := some held, found := a.found.or (some held) }
  | .leave held, _ => { a with
      entry := none
      burst := a.opened held
      left := held :: a.left
      quiet := a.quiet && a.entry == some held }
  | .armed, channel => { a with armed := a.armed.or (some channel) }
  | .arm _, _ | .resetFrameCounts, _ => { a with quiet := false }
  | .installCallback callback, _ => { a with quiet := false, callback := some (some callback) }
  | .clearCallback, _ => { a with quiet := false, callback := some none }
  | .hardware call, reply => { a with calls := a.calls ++ [⟨call, reply⟩] }
  | .frameCounts, _ | .note _, _ => a

/-- The first fault that the hardware has reported. -/
def fault? (a : Account κ φ) : Option HardwareFault := AnsweredCall.firstFault? a.calls

/-- What an answer can be. -/
def Meets (a : Account κ φ) : (q : Question κ φ) → Answer q → Prop
  | .enter, held => held.Proper ∧ ∀ mask, a.burst = some mask → held = ⟨mask, .oneShot⟩
  | _, _ => True

end Account

/-! ## Rules -/

/-- The callback that a command starts a stream with. -/
def Command.callback? : Command φ → Option φ
  | .startContinuous request | .submit (.continuous request) => request.callback
  | _ => none

/-- Whether a question fits a command with an account. Callbacks are installed only by the command
that brings them, and the counters of the slot are set to zero only by a start that found no
session under way and has just configured the driver. -/
def Command.Fits (command : Command φ) (a : Account κ φ) : Question κ φ → Prop
  | .installCallback callback => command.callback? = some callback
  | .resetFrameCounts => command.callback?.isSome = true ∧
    (∃ c, a.calls.getLast? = some c ∧ c.isConfigured = true) ∧
    ∃ found, a.found = some found ∧ found.IsVacant
  | _ => True

/-- The rules that follow the operation of a command by its account. -/
def accounting (command : Command φ) : Rules (Question κ φ) Answer (Account κ φ) where
  allows a q := command.Fits a q
  leads a q answer a' := a.Meets q answer ∧ a' = a.after q answer

namespace Account

variable {command : Command φ} {a : Account κ φ}

theorem obeys_ask (q : Question κ φ) (post : Answer q → Account κ φ → Prop) :
    (ask q : Operation κ φ (Answer q)).Obeys (accounting command) a post ↔
      command.Fits a q ∧ ∀ answer, a.Meets q answer → post answer (a.after q answer) := by
  refine (Program.obeys_query ..).trans (and_congr_right fun _ => ?_)
  constructor
  · intro h answer hmeets
    exact h answer _ ⟨hmeets, rfl⟩
  · rintro h answer _ ⟨hmeets, rfl⟩
    exact h answer hmeets

theorem obeys_hardware (call : HardwareCall κ)
    (post : call.Reply → Account κ φ → Prop) :
    (hardware call : Operation κ φ call.Reply).Obeys (accounting command) a post ↔
      ∀ reply, post reply { a with calls := a.calls ++ [⟨call, reply⟩] } := by
  refine (obeys_ask (.hardware call) post).trans ?_
  exact ⟨fun h reply => h.2 reply trivial, fun h => ⟨trivial, fun reply _ => h reply⟩⟩

@[simp] theorem obeys_note (notice : Notice) (post : Unit → Account κ φ → Prop) :
    (note notice : Operation κ φ Unit).Obeys (accounting command) a post ↔ post () a := by
  refine (obeys_ask (.note notice) post).trans ?_
  exact ⟨fun h => h.2 () trivial, fun h => ⟨trivial, fun _ _ => h⟩⟩

@[simp] theorem obeys_ask_armed (post : Option Channel → Account κ φ → Prop) :
    @Program.Obeys (Question κ φ) Answer _ (Option Channel) (accounting command) (ask .armed) a
        post ↔
      ∀ channel, post channel { a with armed := a.armed.or (some channel) } := by
  refine (obeys_ask .armed post).trans ?_
  exact ⟨fun h channel => h.2 channel trivial, fun h => ⟨trivial, fun channel _ => h channel⟩⟩

@[simp] theorem obeys_ask_frameCounts (post : UInt32 × UInt32 → Account κ φ → Prop) :
    @Program.Obeys (Question κ φ) Answer _ (UInt32 × UInt32) (accounting command)
        (ask .frameCounts) a post ↔
      ∀ counts, post counts a := by
  refine (obeys_ask .frameCounts post).trans ?_
  exact ⟨fun h counts => h.2 counts trivial, fun h => ⟨trivial, fun counts _ => h counts⟩⟩

@[simp] theorem obeys_ask_arm (channel : Option Channel) (post : Unit → Account κ φ → Prop) :
    @Program.Obeys (Question κ φ) Answer _ Unit (accounting command) (ask (.arm channel)) a post ↔
      post () { a with quiet := false } := by
  refine (obeys_ask (.arm channel) post).trans ?_
  exact ⟨fun h => h.2 () trivial, fun h => ⟨trivial, fun _ _ => h⟩⟩

@[simp] theorem obeys_ask_clearCallback (post : Unit → Account κ φ → Prop) :
    @Program.Obeys (Question κ φ) Answer _ Unit (accounting command) (ask .clearCallback) a post ↔
      post () { a with quiet := false, callback := some none } := by
  refine (obeys_ask .clearCallback post).trans ?_
  exact ⟨fun h => h.2 () trivial, fun h => ⟨trivial, fun _ _ => h⟩⟩

@[simp] theorem obeys_ask_installCallback (callback : φ) (post : Unit → Account κ φ → Prop) :
    @Program.Obeys (Question κ φ) Answer _ Unit (accounting command)
        (ask (.installCallback callback)) a post ↔
      command.callback? = some callback ∧
        post () { a with quiet := false, callback := some (some callback) } := by
  refine (obeys_ask (.installCallback callback) post).trans (and_congr_right fun _ => ?_)
  exact ⟨fun h => h () trivial, fun h _ _ => h⟩

@[simp] theorem obeys_ask_resetFrameCounts (post : Unit → Account κ φ → Prop) :
    @Program.Obeys (Question κ φ) Answer _ Unit (accounting command) (ask .resetFrameCounts) a
        post ↔
      command.Fits a (.resetFrameCounts : Question κ φ) ∧
        post () { a with quiet := false } := by
  refine (obeys_ask .resetFrameCounts post).trans (and_congr_right fun _ => ?_)
  exact ⟨fun h => h () trivial, fun h _ _ => h⟩

/-- A section under the lock begins with a proper reservation, that of the burst if one is under
way, and ends with what is put back. -/
theorem obeys_locked {body : Reservation → Operation κ φ (α × Reservation)}
    {post : α → Account κ φ → Prop}
    (h : ∀ held : Reservation, held.Proper → (∀ mask, a.burst = some mask → held = ⟨mask, .oneShot⟩) →
      (body held).Obeys (accounting command)
        { a with entry := some held, found := a.found.or (some held) }
        fun r a' => post r.1 (a'.after (.leave r.2) ())) :
    (locked body).Obeys (accounting command) a post := by
  unfold locked
  simp only [Program.bind_eq, Program.obeys_bind]
  rw [obeys_ask]
  refine ⟨trivial, ?_⟩
  rintro held ⟨hheld, hburst⟩
  refine (h held hheld hburst).mono ?_
  rintro ⟨result, held'⟩ a' hpost
  rw [obeys_ask]
  exact ⟨trivial, fun _ _ => hpost⟩

end Account

end Controller

end SharedAdc
