/-
The ways to end a session. Releasing its mask, stopping what runs on it and starting afresh are
operations of their own, with checks and extra steps of their own; where a session is under way that
they all may end, they come to the same thing, whatever the hardware replies.
-/
import SharedAdc.Proofs.Accounts.Basic
import SharedAdc.Proofs.Callers.Run

namespace SharedAdc

/-! ## Frames on their way -/

namespace FrameSlot

variable {φ : Type}

/-- The slot after `n` more frames have reached it. -/
def deliverMany (s : FrameSlot φ) : Nat → FrameSlot φ
  | 0 => s
  | n + 1 => s.deliver.2.deliverMany n

@[simp] theorem callback_deliverMany (s : FrameSlot φ) (n : Nat) :
    (s.deliverMany n).callback = s.callback := by
  induction n generalizing s with
  | zero => rfl
  | succ n ih =>
    unfold deliverMany
    rw [ih, callback_deliver]

theorem clear_of_empty {s : FrameSlot φ} (h : s.callback = none) : s.clear = s := by
  obtain ⟨callback, delivered, dropped⟩ := s
  cases h
  rfl

end FrameSlot

namespace Controller

variable {κ φ α β : Type} {machine : Machine κ}

/-! ## Operations with their calls -/

/-- Nobody holds the unit or the lock, nothing is armed and no callback is installed. -/
structure State.IsIdle (s : State φ) : Prop where
  reservation : s.reservation = .idle
  free : s.locked = false
  armed : s.armed = none
  callback : s.slot.callback = none

/-- A controller that is used by one caller, its hardware, and the calls that were made to it. -/
structure Site (machine : Machine κ) (φ : Type) where
  shared : State φ
  memory : machine.Memory
  /-- The calls with their replies, the earliest first. -/
  calls : List (AnsweredCall κ) := []

/-- How many frames reach the slot while a call is carried out. -/
abbrev Traffic (machine : Machine κ) := machine.Memory → HardwareCall κ → Nat

namespace Site

variable (traffic : Traffic machine)

/-- Carries out a call, and takes down what it replies. -/
def perform (s : Site machine φ) (call : HardwareCall κ) : call.Reply × Site machine φ :=
  let (reply, memory) := machine.perform s.memory call
  let slot := s.shared.slot.deliverMany (traffic s.memory call)
  (reply, { shared := { s.shared with slot }, memory, calls := s.calls ++ [⟨call, reply⟩] })

/-- Answers a question on the site. -/
def answer : (q : Question κ φ) → StateM (Site machine φ) (Answer q) :=
  Controller.answer (fun f => modifyGet fun s => ((f s.shared).1, { s with shared := (f s.shared).2 }))
    (fun call => modifyGet fun s => s.perform traffic call) fun _ => pure ()

/-- What an operation comes to on the site, and the site after it. -/
def after (s : Site machine φ) (p : Operation κ φ α) : α × Site machine φ :=
  (p.run (answer traffic)).run s

variable {traffic} {s : Site machine φ}

@[simp] theorem after_done (a : α) : s.after traffic (.done a) = (a, s) := rfl

@[simp] theorem after_bind (p : Operation κ φ α) (f : α → Operation κ φ β) :
    s.after traffic (p.bind f) = (s.after traffic p).2.after traffic (f (s.after traffic p).1) := by
  simp only [after, Program.run_bind, StateT.run_bind]
  rfl

@[simp] theorem after_hardware (call : HardwareCall κ) :
    s.after traffic (hardware call) = s.perform traffic call := rfl

@[simp] theorem after_note (notice : Notice) : s.after traffic (note notice) = ((), s) := rfl

@[simp] theorem after_arm (channel : Option Channel) :
    @after κ φ Unit machine traffic s (ask (.arm channel)) =
      ((), { s with shared := { s.shared with armed := channel } }) := rfl

@[simp] theorem after_clearCallback : @after κ φ Unit machine traffic s (ask .clearCallback) =
    ((), { s with shared := { s.shared with slot := s.shared.slot.clear } }) := rfl

/-- The site with the lock taken. -/
def enter (s : Site machine φ) : Site machine φ := { s with shared := { s.shared with locked := true } }

/-- The site with the lock given up, and `held` put back. -/
def leave (s : Site machine φ) (held : Reservation) : Site machine φ :=
  { s with shared := { s.shared with reservation := held, locked := false } }

theorem after_locked (body : Reservation → Operation κ φ (α × Reservation)) :
    s.after traffic (locked body) =
      let ended := s.enter.after traffic (body s.shared.reservation)
      (ended.1.1, ended.2.leave ended.1.2) := by
  simp only [locked, Program.bind_eq, after_bind]
  rfl

/-- Words about the result of an operation change neither the result nor the site. -/
theorem after_announced {p : Operation κ φ α} {say : α → Operation κ φ α}
    (hsay : ∀ result (t : Site machine φ), t.after traffic (say result) = (result, t)) :
    s.after traffic (p.bind say) = s.after traffic p := by
  rw [after_bind, hsay]

/-! ## The common end -/

/-- The end of a session: its hardware path is taken down under the lock, and the idle reservation is
left behind. -/
def closed (traffic : Traffic machine) (s : Site machine φ) (session : Session) :
    Except AdcError Unit × Site machine φ :=
  let ended := s.enter.after traffic (teardown session)
  (ended.1.mapError .hardware, ended.2.leave .idle)

/-- The calls that end a stream; deinitializing the driver follows on stopping it in any case. -/
theorem closed_continuous (traffic : Traffic machine) (harmed : s.shared.armed = none) :
    ∃ (stopped deinit : Except HardwareFault Unit) (ended : Site machine φ),
      s.closed traffic .continuous = ((firstError stopped deinit).mapError .hardware, ended) ∧
      ended.calls = s.calls ++ [⟨.stopContinuous, stopped⟩, ⟨.deinitContinuous, deinit⟩] ∧
      ended.shared.IsIdle := by
  let cleared := { s.enter with shared := { s.enter.shared with slot := s.shared.slot.clear } }
  let stopped := cleared.perform traffic .stopContinuous
  let deinit := stopped.2.perform traffic .deinitContinuous
  refine ⟨stopped.1, deinit.1, deinit.2.leave .idle, rfl, ?_, rfl, rfl, harmed, ?_⟩
  · simp [deinit, stopped, cleared, leave, perform, enter]
  · simp [deinit, stopped, cleared, leave, perform]

/-- The call that ends time-critical sampling. -/
theorem closed_timeCritical (traffic : Traffic machine) (c : Channel)
    (hempty : s.shared.slot.callback = none) :
    ∃ (deleted : Except HardwareFault Unit) (ended : Site machine φ),
      s.closed traffic (.timeCritical c) = (deleted.mapError .hardware, ended) ∧
      ended.calls = s.calls ++ [⟨.deleteOneShotUnit, deleted⟩] ∧ ended.shared.IsIdle := by
  let disarmed := { s.enter with shared := { s.enter.shared with armed := none } }
  let deleted := disarmed.perform traffic .deleteOneShotUnit
  refine ⟨deleted.1, deleted.2.leave .idle, rfl, rfl, rfl, rfl, rfl, ?_⟩
  simpa [deleted, disarmed, leave, perform, enter] using hempty

/-! ## The ways there -/

section

variable {mask : Mask} {session : Session}

theorem release_closes (hshared : s.shared.reservation = ⟨mask, session⟩)
    (hmask : checkMask mask = .ok ()) (hlive : session ≠ .oneShot) :
    s.after traffic (release mask) = s.closed traffic session := by
  unfold release
  rw [hmask]
  refine (after_announced fun result t => by cases result <;> rfl).trans ?_
  rw [after_locked, hshared, if_neg (by simp), if_neg hlive]
  simp only [Program.bind_eq, Program.pure_eq, after_bind, after_done]
  rfl

theorem stopContinuous_closes (hshared : s.shared.reservation = ⟨mask, .continuous⟩)
    (hmask : checkMask mask = .ok ()) :
    s.after traffic (stopContinuous mask) = s.closed traffic .continuous := by
  unfold stopContinuous
  rw [hmask]
  refine (after_announced fun result t => by cases result <;> rfl).trans ?_
  rw [after_locked, hshared, if_neg (by simp)]
  simp only [Program.bind_eq, Program.pure_eq, after_bind, after_done]
  rfl

theorem releaseTimeCritical_closes {c : Channel}
    (hshared : s.shared.reservation = ⟨.single c, .timeCritical c⟩) :
    s.after traffic (releaseTimeCritical c) = s.closed traffic (.timeCritical c) := by
  unfold releaseTimeCritical
  refine (after_announced fun result t => by cases result <;> rfl).trans ?_
  rw [after_locked, hshared, if_neg (by simp)]
  rfl

/-- A fresh start clears the callback and the armed channel once more, which are clear by then. -/
theorem reinit_closes (hshared : s.shared.reservation.session = session) (hlive : session ≠ .oneShot)
    (hcallback : (s.closed traffic session).2.shared.slot.callback = none)
    (harmed : (s.closed traffic session).2.shared.armed = none) :
    s.after traffic reinit = s.closed traffic session := by
  unfold reinit
  refine (after_announced fun result t => by
    rcases result with (_ | _ | _ | _) | _ <;> rfl).trans ?_
  rw [after_locked, hshared, if_neg hlive]
  simp only [Program.bind_eq, Program.pure_eq, after_bind, after_done]
  unfold closed at hcallback harmed ⊢
  generalize s.enter.after traffic (teardown session) = ended at hcallback harmed ⊢
  obtain ⟨result, shared, memory, calls⟩ := ended
  have hslot : shared.slot.clear = shared.slot := FrameSlot.clear_of_empty hcallback
  have hnone : shared.armed = none := harmed
  simp only [after_arm, after_clearCallback, leave, hslot, hnone]

end

end Site

/-! ## Sessions of a run -/

namespace World

variable {config : Config} {w : World machine φ}

/-- The controller and the hardware of a world, with no calls taken down yet. -/
def site (w : World machine φ) : Site machine φ := { shared := w.shared, memory := w.memory }

theorem Kept.ends_stream (h : w.Kept) (hfree : w.shared.locked = false)
    (traffic : Traffic machine) {mask : Mask}
    (hshared : w.shared.reservation = ⟨mask, .continuous⟩) :
    ∃ (stopped deinit : Except HardwareFault Unit) (ended : Site machine φ),
      (∀ p ∈ [release mask, stopContinuous mask, reinit],
        w.site.after traffic p = ((firstError stopped deinit).mapError .hardware, ended)) ∧
      ended.calls = [⟨.stopContinuous, stopped⟩, ⟨.deinitContinuous, deinit⟩] ∧
      ended.shared.IsIdle := by
  have hsession : w.standing.reservation.session = .continuous := congrArg Reservation.session hshared
  obtain ⟨hproper, callback, hstanding⟩ := (h.sound hfree).eq_continuous hsession
  have hmask : checkMask mask = .ok () := by
    rw [← hproper]
    exact congrArg (fun r => checkMask r.active) hshared.symm
  have harmed : w.shared.armed = none := congrArg Standing.armed hstanding
  obtain ⟨stopped, deinit, ended, hclosed, hcalls, hidle⟩ :=
    Site.closed_continuous (s := w.site) traffic harmed
  have hreinit : w.site.after traffic reinit = w.site.closed traffic .continuous :=
    Site.reinit_closes hsession (by simp) (by rw [hclosed]; exact hidle.callback)
      (by rw [hclosed]; exact hidle.armed)
  refine ⟨stopped, deinit, ended, ?_, hcalls, hidle⟩
  rw [← hclosed]
  simp only [List.forall_mem_cons, List.not_mem_nil, false_imp_iff, implies_true, and_true]
  exact ⟨Site.release_closes hshared hmask (by simp), Site.stopContinuous_closes hshared hmask,
    hreinit⟩

theorem Kept.eq_timeCritical (h : w.Kept) (hfree : w.shared.locked = false) {c : Channel}
    (hsession : w.shared.reservation.session = .timeCritical c) :
    w.shared.reservation = ⟨.single c, .timeCritical c⟩ ∧ w.shared.slot.callback = none := by
  have hstanding := (h.sound hfree).eq_timeCritical hsession
  exact ⟨congrArg Standing.reservation hstanding, congrArg Standing.callback hstanding⟩

theorem Kept.ends_timeCritical (h : w.Kept) (hfree : w.shared.locked = false)
    (traffic : Traffic machine) {c : Channel}
    (hsession : w.shared.reservation.session = .timeCritical c) :
    ∃ (deleted : Except HardwareFault Unit) (ended : Site machine φ),
      (∀ p ∈ [release (.single c), releaseTimeCritical c, reinit],
        w.site.after traffic p = (deleted.mapError .hardware, ended)) ∧
      ended.calls = [⟨.deleteOneShotUnit, deleted⟩] ∧ ended.shared.IsIdle := by
  -- the channels of the session are its channel alone
  obtain ⟨hsingle, hempty⟩ := h.eq_timeCritical hfree hsession
  obtain ⟨deleted, ended, hclosed, hcalls, hidle⟩ :=
    Site.closed_timeCritical (s := w.site) traffic c hempty
  have hreinit : w.site.after traffic reinit = w.site.closed traffic (.timeCritical c) :=
    Site.reinit_closes hsession (by simp) (by rw [hclosed]; exact hidle.callback)
      (by rw [hclosed]; exact hidle.armed)
  refine ⟨deleted, ended, ?_, hcalls, hidle⟩
  rw [← hclosed]
  simp only [List.forall_mem_cons, List.not_mem_nil, false_imp_iff, implies_true, and_true]
  exact ⟨Site.release_closes hsingle (single_proper c) (by simp),
    Site.releaseTimeCritical_closes hsingle, hreinit⟩

/-- Whatever the callers have asked for and whatever the hardware replies, then and now: while the
lock is free, a stream is ended in the same way by releasing its mask, by stopping it and by starting
afresh, and so is time-critical sampling by releasing its mask or its channel and by starting afresh.
The same calls are made in the same order, the driver being deinitialized even where stopping it has
failed; the same result is reported, the first failure if there is one; and the same state is left
behind, with an idle controller. -/
theorem endings_agree (config : Config) (memory : machine.Memory)
    (actions : List (Action machine φ)) (traffic : Traffic machine)
    (hfree : ((new memory).run config actions).shared.locked = false) :
    let w := (new memory).run config actions
    (∀ mask, w.shared.reservation = ⟨mask, .continuous⟩ →
      ∃ (stopped deinit : Except HardwareFault Unit) (result : Except AdcError Unit)
        (ended : Site machine φ),
        (∀ p ∈ [release mask, stopContinuous mask, reinit],
          w.site.after traffic p = (result, ended)) ∧
        ended.calls = [⟨.stopContinuous, stopped⟩, ⟨.deinitContinuous, deinit⟩] ∧
        (∀ fault, stopped = .error fault → result = .error (.hardware fault)) ∧
        (stopped = .ok () → result = deinit.mapError .hardware) ∧ ended.shared.IsIdle) ∧
    (∀ mask c, w.shared.reservation = ⟨mask, .timeCritical c⟩ → mask = .single c ∧
      ∃ (deleted : Except HardwareFault Unit) (ended : Site machine φ),
        (∀ p ∈ [release mask, releaseTimeCritical c, reinit],
          w.site.after traffic p = (deleted.mapError .hardware, ended)) ∧
        ended.calls = [⟨.deleteOneShotUnit, deleted⟩] ∧ ended.shared.IsIdle) := by
  intro w
  have hkept : w.Kept := kept_run config memory actions
  constructor
  · intro mask hshared
    obtain ⟨stopped, deinit, ended, hways, hcalls, hidle⟩ :=
      hkept.ends_stream hfree traffic hshared
    refine ⟨stopped, deinit, _, ended, hways, hcalls, ?_, ?_, hidle⟩
    · rintro fault rfl
      rfl
    · rintro rfl
      rfl
  · intro mask c hshared
    have hsession : w.shared.reservation.session = .timeCritical c :=
      congrArg Reservation.session hshared
    obtain ⟨hsingle, -⟩ := hkept.eq_timeCritical hfree hsession
    obtain rfl : mask = .single c := congrArg Reservation.active (hshared.symm.trans hsingle)
    exact ⟨rfl, hkept.ends_timeCritical hfree traffic hsession⟩

/-- A stream is started, and from then on neither stopping it nor deinitializing its driver works. -/
def stuckStream : List (Action Machine.recording Unit) :=
  .call (.startContinuous ⟨.ofList [0, 1], .db12, 16, 1000, some ()⟩) ::
    (List.replicate 10 (.advance 0) ++ [.happen [.stopContinuous, .deinitContinuous]])

/-- Whichever way such a stream is ended, the first failure is reported, and the controller is idle. -/
theorem endings_agree_stuck :
    let w := (new {} : World Machine.recording Unit).run {} stuckStream
    w.shared.reservation = ⟨.ofList [0, 1], .continuous⟩ ∧ ∃ ended,
      (∀ p ∈ [release (.ofList [0, 1]), stopContinuous (.ofList [0, 1]), reinit],
        w.site.after (fun _ _ => 1) p =
          (.error (.hardware ⟨.stopContinuous, HardwareFault.failed⟩), ended)) ∧
      ended.shared.IsIdle := by
  have hfree : ((new {} : World Machine.recording Unit).run {} stuckStream).shared.locked = false := by
    decide
  obtain ⟨hstream, -⟩ := endings_agree _ _ stuckStream (fun _ _ => 1) hfree
  obtain ⟨stopped, deinit, result, ended, hways, -, -, -, hidle⟩ := hstream (.ofList [0, 1]) rfl
  have hreinit := hways reinit (by simp)
  have hresult : result = .error (.hardware ⟨.stopContinuous, HardwareFault.failed⟩) :=
    (congrArg Prod.fst hreinit).symm
  exact ⟨rfl, ended, by rw [← hresult]; exact hways, hidle⟩

end World

end Controller

end SharedAdc
