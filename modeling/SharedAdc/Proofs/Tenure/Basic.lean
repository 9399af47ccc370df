/-
Who holds the unit. A caller under the lock sees to it that an armed channel is one that the open
one-shot unit is set up for, leaves a burst behind only with a unit of its own, and does not take
the channels that it finds reserved away from their owner, unless that is what its command is for.
-/
import SharedAdc.Proofs.Accounts.Commands

namespace SharedAdc.Controller

variable {κ φ α β : Type}

/-! ## The one-shot unit -/

/-- The one-shot unit while it is open. -/
structure OpenUnit where
  /-- How many units were created before it. -/
  number : Nat
  /-- The caller that has created it. -/
  creator : Nat
  /-- The channel that it was set up for last. -/
  channel : Option Channel := none
  deriving DecidableEq

/-- The armed channel and the one-shot unit. -/
structure Fitting where
  armed : Option Channel := none
  /-- How many units were created. -/
  created : Nat := 0
  unit : Option OpenUnit := none

namespace Fitting

/-- The fitting after a question of caller `i` is answered. A unit is given up with the call that
deletes it, even if that fails. -/
def after (f : Fitting) (i : Nat) : (q : Question κ φ) → Answer q → Fitting
  | .arm channel, _ => { f with armed := channel }
  | .hardware .createOneShotUnit, .ok () =>
    { f with created := f.created + 1, unit := some ⟨f.created, i, none⟩ }
  | .hardware (.configureOneShotChannel channel _), .ok () =>
    { f with unit := f.unit.map fun u => { u with channel := some channel } }
  | .hardware .deleteOneShotUnit, _ => { f with unit := none }
  | _, _ => f

/-- The open unit is set up for channel `c`. -/
def Serves (f : Fitting) (c : Channel) : Prop := ∃ u, f.unit = some u ∧ u.channel = some c

/-- A channel is armed only while the open unit is set up for it. -/
def Fit (f : Fitting) : Prop := ∀ c, f.armed = some c → f.Serves c

/-- The calls that may be made under the lock. No conversion is, and a unit that was set up is only
set up for the same channel again. -/
def Takes (f : Fitting) : HardwareCall κ → Prop
  | .configureOneShotChannel channel _ => ∀ u c, f.unit = some u → u.channel = some c → c = channel
  | .readOneShot _ => False
  | _ => True

theorem fit_of_disarmed {f : Fitting} (h : f.armed = none) : f.Fit := by
  intro c hc
  rw [h] at hc
  cases hc

end Fitting

/-! ## Rules -/

namespace Command

/-- The command is there to end what is reserved on `mask`, or to set it up anew, and the hardware
has failed it in that. -/
def GivesUp (mask : Mask) (failed : Bool) : Command φ → Prop
  | .release m | .stopContinuous m => m = mask
  | .releaseTimeCritical channel => .single channel = mask
  | .setupTimeCritical channel _ => .single channel = mask ∧ failed = true
  | .reinit => True
  | _ => False

theorem GivesUp.mono {command : Command φ} {mask : Mask} {failed failed' : Bool}
    (h : command.GivesUp mask failed) (himp : failed = true → failed' = true) :
    command.GivesUp mask failed' := by
  cases command with
  | setupTimeCritical channel attenuation => exact ⟨h.1, himp h.2⟩
  | _ => exact h

end Command

/-- Where a caller is: its account, and the fitting while it is under the lock. -/
structure Turn (κ φ : Type) where
  account : Account κ φ := {}
  fitting : Option Fitting := none

namespace Turn

/-- What caller `i` may put back. A reservation that it has found keeps its channels, unless the
command gives them up or a burst ends; and whoever opens a burst has set up a unit for it. -/
structure MayLeave (i : Nat) (command : Command φ) (t : Turn κ φ) (held : Reservation) : Prop where
  keeps : ∀ entry, t.account.entry = some entry → t.account.burst = none → entry.isIdle = false →
    held.active = entry.active ∨ command.GivesUp entry.active t.account.fault?.isSome
  opens : ∀ mask, t.account.opened held = some mask → ∃ f n c, t.fitting = some f ∧
    mask = .single c ∧ f.unit = some ⟨n, i, some c⟩

/-- What caller `i` may ask: nothing that leaves a channel armed whose unit is not set up for it,
and under the lock only calls that the fitting takes. Only who never comes under the lock looks at
the armed channel, and does it once. -/
def Allows (i : Nat) (command : Command φ) (t : Turn κ φ) (q : Question κ φ) : Prop :=
  (∀ f, t.fitting = some f → f.Fit → ∀ answer, (f.after i q answer).Fit) ∧
    match q with
    | .enter => command.entersLock = true
    | .armed => command.entersLock = false ∧ t.account.armed = none
    | .leave held => t.MayLeave i command held
    | .hardware call => ∀ f, t.fitting = some f → f.Takes call
    | _ => True

/-- What may be met under the lock: what is armed is the channel of the session, and the unit is set
up for it. -/
def Meets (f : Fitting) (t : Turn κ φ) : (q : Question κ φ) → Answer q → Prop
  | .enter, held => t.account.Meets .enter held ∧ f.Fit ∧ f.armed = held.session.armed
  | _, _ => True

/-- Where a caller is after an answer. Whoever comes under the lock meets the fitting `f`. -/
def next (i : Nat) (f : Fitting) (t : Turn κ φ) (q : Question κ φ) (answer : Answer q) :
    Turn κ φ where
  account := t.account.after q answer
  fitting := match q with
    | .enter => some f
    | .leave _ => none
    | q => t.fitting.map fun f => f.after i q answer

end Turn

/-- The rules that the operation of a command of caller `i` keeps to. -/
def tenure (i : Nat) (command : Command φ) : Rules (Question κ φ) Answer (Turn κ φ) where
  allows := Turn.Allows i command
  leads t q answer t' := ∃ f, t.Meets f q answer ∧ t' = t.next i f q answer

namespace Turn

variable {i : Nat} {command : Command φ} {t : Turn κ φ} {a : Account κ φ} {f : Fitting}

/-! ## Single questions -/

theorem obeys_ask (q : Question κ φ) (post : Answer q → Turn κ φ → Prop) :
    (ask q : Operation κ φ (Answer q)).Obeys (tenure i command) t post ↔
      t.Allows i command q ∧
        ∀ answer f, t.Meets f q answer → post answer (t.next i f q answer) := by
  refine (Program.obeys_query ..).trans (and_congr_right fun _ => ?_)
  constructor
  · intro h answer f hmeets
    exact h answer _ ⟨f, hmeets, rfl⟩
  · rintro h answer _ ⟨f, hmeets, rfl⟩
    exact h answer f hmeets

@[simp] theorem obeys_note (notice : Notice) (post : Unit → Turn κ φ → Prop) :
    (note notice : Operation κ φ Unit).Obeys (tenure i command) t post ↔ post () t := by
  have hsame : ∀ f, t.next i f (.note notice : Question κ φ) () = t := by
    obtain ⟨a, fitting⟩ := t
    intro f
    cases fitting <;> rfl
  refine (obeys_ask (.note notice) post).trans ?_
  simp only [hsame]
  exact ⟨fun h => h.2 () {} trivial, fun h => ⟨⟨fun _ _ hfit _ => hfit, trivial⟩, fun _ _ _ => h⟩⟩

@[simp] theorem obeys_ask_frameCounts (post : UInt32 × UInt32 → Turn κ φ → Prop) :
    @Program.Obeys (Question κ φ) Answer _ (UInt32 × UInt32) (tenure i command) (ask .frameCounts) t
        post ↔
      ∀ counts, post counts t := by
  have hsame : ∀ f counts, t.next i f (.frameCounts : Question κ φ) counts = t := by
    obtain ⟨a, fitting⟩ := t
    intro f counts
    cases fitting <;> rfl
  refine (obeys_ask .frameCounts post).trans ?_
  simp only [hsame]
  exact ⟨fun h counts => h.2 counts {} trivial,
    fun h => ⟨⟨fun _ _ hfit _ => hfit, trivial⟩, fun counts _ _ => h counts⟩⟩

@[simp] theorem obeys_ask_armed (post : Option Channel → Turn κ φ → Prop) :
    @Program.Obeys (Question κ φ) Answer _ (Option Channel) (tenure i command) (ask .armed)
        ⟨a, none⟩ post ↔
      (command.entersLock = false ∧ a.armed = none) ∧
        ∀ channel, post channel ⟨{ a with armed := a.armed.or (some channel) }, none⟩ := by
  refine (obeys_ask .armed post).trans ?_
  exact ⟨fun h => ⟨h.1.2, fun channel => h.2 channel {} trivial⟩,
    fun h => ⟨⟨by rintro _ ⟨⟩, h.1⟩, fun channel _ _ => h.2 channel⟩⟩

/-- Outside the lock a call to the hardware is not about the fitting. -/
theorem obeys_hardware_away (call : HardwareCall κ) (post : call.Reply → Turn κ φ → Prop) :
    (hardware call : Operation κ φ call.Reply).Obeys (tenure i command) ⟨a, none⟩ post ↔
      ∀ reply, post reply ⟨{ a with calls := a.calls ++ [⟨call, reply⟩] }, none⟩ := by
  refine (obeys_ask (.hardware call) post).trans ?_
  exact ⟨fun h reply => h.2 reply {} trivial,
    fun h => ⟨⟨by rintro _ ⟨⟩, by rintro _ ⟨⟩⟩, fun reply _ _ => h reply⟩⟩

theorem obeys_hardware_inside (call : HardwareCall κ) (post : call.Reply → Turn κ φ → Prop) :
    (hardware call : Operation κ φ call.Reply).Obeys (tenure i command) ⟨a, some f⟩ post ↔
      f.Takes call ∧ (f.Fit → ∀ reply, (f.after i (.hardware call : Question κ φ) reply).Fit) ∧
        ∀ reply, post reply ⟨{ a with calls := a.calls ++ [⟨call, reply⟩] },
          some (f.after i (.hardware call : Question κ φ) reply)⟩ := by
  refine (obeys_ask (.hardware call) post).trans ?_
  constructor
  · exact fun h => ⟨h.1.2 f rfl, h.1.1 f rfl, fun reply => h.2 reply {} trivial⟩
  · rintro ⟨htakes, hfit, hpost⟩
    refine ⟨⟨?_, ?_⟩, fun reply _ _ => hpost reply⟩
    · rintro _ ⟨⟩
      exact hfit
    · rintro _ ⟨⟩
      exact htakes

@[simp] theorem obeys_ask_arm (channel : Option Channel) (post : Unit → Turn κ φ → Prop) :
    @Program.Obeys (Question κ φ) Answer _ Unit (tenure i command) (ask (.arm channel))
        ⟨a, some f⟩ post ↔
      (f.Fit → ({ f with armed := channel } : Fitting).Fit) ∧
        post () ⟨{ a with quiet := false }, some { f with armed := channel }⟩ := by
  refine (obeys_ask (.arm channel) post).trans ?_
  constructor
  · exact fun h => ⟨fun hfit => h.1.1 f rfl hfit (), h.2 () {} trivial⟩
  · rintro ⟨hfit, hpost⟩
    refine ⟨⟨?_, trivial⟩, fun _ _ _ => hpost⟩
    rintro _ ⟨⟩ h _
    exact hfit h

section

variable (post : Unit → Turn κ φ → Prop)

@[simp] theorem obeys_ask_clearCallback :
    @Program.Obeys (Question κ φ) Answer _ Unit (tenure i command) (ask .clearCallback)
        ⟨a, some f⟩ post ↔
      post () ⟨{ a with quiet := false, callback := some none }, some f⟩ := by
  refine (obeys_ask .clearCallback post).trans ?_
  exact ⟨fun h => h.2 () {} trivial, fun h => ⟨⟨fun _ _ hfit _ => hfit, trivial⟩, fun _ _ _ => h⟩⟩

@[simp] theorem obeys_ask_installCallback (callback : φ) :
    @Program.Obeys (Question κ φ) Answer _ Unit (tenure i command)
        (ask (.installCallback callback)) ⟨a, some f⟩ post ↔
      post () ⟨{ a with quiet := false, callback := some (some callback) }, some f⟩ := by
  refine (obeys_ask (.installCallback callback) post).trans ?_
  exact ⟨fun h => h.2 () {} trivial, fun h => ⟨⟨fun _ _ hfit _ => hfit, trivial⟩, fun _ _ _ => h⟩⟩

@[simp] theorem obeys_ask_resetFrameCounts :
    @Program.Obeys (Question κ φ) Answer _ Unit (tenure i command) (ask .resetFrameCounts)
        ⟨a, some f⟩ post ↔
      post () ⟨{ a with quiet := false }, some f⟩ := by
  refine (obeys_ask .resetFrameCounts post).trans ?_
  exact ⟨fun h => h.2 () {} trivial, fun h => ⟨⟨fun _ _ hfit _ => hfit, trivial⟩, fun _ _ _ => h⟩⟩

end

/-! ## Sections under the lock -/

/-- Where a grant has found no session under way, nothing was armed. -/
theorem armed_before {prior : Session} (hp : prior = .idle ∨ prior = .reserved) (mask : Mask) :
    (Reservation.before mask prior).session.armed = none := by
  rcases hp with rfl | rfl <;> rfl

/-- If it has found a reservation, it was one of the same channels. -/
theorem active_before {prior : Session} (hp : prior = .idle ∨ prior = .reserved) {mask : Mask}
    (h : (Reservation.before mask prior).isIdle = false) :
    (Reservation.before mask prior).active = mask := by
  rcases hp with rfl | rfl
  · cases h
  · rfl

/-- What was found may be put back unchanged. -/
theorem MayLeave.unchanged {held : Reservation} (h : t.account.entry = some held) :
    t.MayLeave i command held where
  keeps entry hentry _ _ := by
    rw [h] at hentry
    cases hentry
    exact .inl rfl
  opens mask hmask := by simp [Account.opened, h] at hmask

/-- A section that opens no burst may put back whatever keeps the channels that it has found. -/
theorem MayLeave.of_ne {entry held : Reservation} (h : t.account.entry = some entry)
    (hne : held.session ≠ .oneShot) (hkeeps : entry.isIdle = false →
      held.active = entry.active ∨ command.GivesUp entry.active t.account.fault?.isSome) :
    t.MayLeave i command held where
  keeps entry' hentry _ hidle := by
    rw [h] at hentry
    cases hentry
    exact hkeeps hidle
  opens mask hmask := by simp [Account.opened, hne] at hmask

/-- What a burst found may be put back when it ends. -/
theorem MayLeave.of_burst {mask : Mask} {held : Reservation} (h : t.account.burst = some mask) :
    t.MayLeave i command held where
  keeps entry _ hnone := by
    rw [h] at hnone
    cases hnone
  opens mask hmask := by simp [Account.opened, h] at hmask

/-- A section under the lock meets a proper reservation and the fitting of its session, and ends
with what may be put back. -/
theorem obeys_locked (hlock : command.entersLock = true)
    {body : Reservation → Operation κ φ (α × Reservation)} {post : α → Turn κ φ → Prop}
    (h : ∀ (held : Reservation) (f : Fitting), held.Proper →
      (∀ mask, a.burst = some mask → held = ⟨mask, .oneShot⟩) → f.Fit →
      f.armed = held.session.armed → (body held).Obeys (tenure i command)
        ⟨{ a with entry := some held, found := a.found.or (some held) }, some f⟩
        fun r t => t.MayLeave i command r.2 ∧ post r.1 ⟨t.account.after (.leave r.2) (), none⟩) :
    (locked body).Obeys (tenure i command) ⟨a, none⟩ post := by
  unfold locked
  simp only [Program.bind_eq, Program.obeys_bind]
  rw [obeys_ask]
  refine ⟨⟨by rintro _ ⟨⟩, hlock⟩, ?_⟩
  rintro held f ⟨⟨hheld, hburst⟩, hfit, harmed⟩
  refine (h held f hheld hburst hfit harmed).mono ?_
  rintro ⟨result, held'⟩ t ⟨hleave, hpost⟩
  rw [obeys_ask]
  exact ⟨⟨fun _ _ hfit _ => hfit, hleave⟩, fun _ _ _ => hpost⟩

/-- An operation of one section, which afterwards asks nothing of the lock, keeps the rules if the
section does. -/
theorem obeys_section (hlock : command.entersLock = true)
    {body : Reservation → Operation κ φ (α × Reservation)} {tail : α → Operation κ φ β}
    (hbody : ∀ (held : Reservation) (f : Fitting), held.Proper → f.Fit →
      f.armed = held.session.armed → (body held).Obeys (tenure i command)
        ⟨{ entry := some held, found := some held }, some f⟩ fun r t => t.MayLeave i command r.2)
    (htail : ∀ result t, (tail result).Obeys (tenure i command) t fun _ _ => True) :
    ((locked body).bind tail).Obeys (tenure i command) {} fun _ _ => True := by
  rw [Program.obeys_bind]
  refine obeys_locked hlock fun held f hheld _ hfit harmed => ?_
  exact (hbody held f hheld hfit harmed).mono fun r t hleave => ⟨hleave, htail _ _⟩

end Turn

end SharedAdc.Controller
