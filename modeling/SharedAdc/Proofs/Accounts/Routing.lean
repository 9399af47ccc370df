/-
Where frames go. Between the sections under the lock a frame reaches the callback of the start that
succeeded last, just while a stream is under way; while the driver is set up or taken down it reaches
nobody; and every frame is counted once since the driver was configured for its session.
-/
import SharedAdc.Frame.Consumer
import SharedAdc.Proofs.Accounts.Steps

namespace SharedAdc

/-! ## Handing frames over -/

namespace FrameSlot

variable {φ σ ν : Type}

/-- Hands a frame to whichever callback is installed. What a callback makes of a frame and of the
state `s` around it is told by `receive`, and a frame that nobody receives is answered by `missed`. -/
def handTo (receive : φ → Frame → σ → ν × σ) (missed : ν) (slot : FrameSlot φ) (frame : Frame)
    (s : σ) : ν × FrameSlot φ × σ :=
  match slot.deliver with
  | (none, slot) => (missed, slot, s)
  | (some callback, slot) =>
    let (answer, s) := receive callback frame s
    (answer, slot, s)

theorem handOver_eq_handTo (slot : FrameSlot Consumer) (frame : Frame) (feed : Feed) :
    slot.handOver frame feed = slot.handTo Consumer.receive (.returned false) frame feed := by
  unfold handOver handTo deliver
  cases slot.callback <;> rfl

/-- A frame goes to `receiver`: it is received once and counted as delivered, or if there is nobody
to receive it, it is counted as dropped. -/
def HandsTo (slot : FrameSlot φ) (receiver : Option φ) : Prop :=
  ∀ {σ ν : Type} (receive : φ → Frame → σ → ν × σ) (missed : ν) (frame : Frame) (s : σ),
    slot.handTo receive missed frame s = match receiver with
      | some callback => ((receive callback frame s).1,
          { slot with delivered := slot.delivered + 1 }, (receive callback frame s).2)
      | none => (missed, { slot with dropped := slot.dropped + 1 }, s)

theorem handsTo_callback (slot : FrameSlot φ) : slot.HandsTo slot.callback := by
  intro σ ν receive missed frame s
  unfold handTo deliver
  cases slot.callback <;> rfl

theorem handOver_received {slot : FrameSlot Consumer} {consumer : Consumer}
    (h : slot.HandsTo (some consumer)) (frame : Frame) (feed : Feed) :
    slot.handOver frame feed = ((consumer.receive frame feed).1,
      { slot with delivered := slot.delivered + 1 }, (consumer.receive frame feed).2) := by
  rw [handOver_eq_handTo]
  exact h Consumer.receive (.returned false) frame feed

/-- Where nobody receives the frame, the answer is that no other task is to run. -/
theorem handOver_missed {slot : FrameSlot Consumer} (h : slot.HandsTo none) (frame : Frame)
    (feed : Feed) : slot.handOver frame feed =
      (.returned false, { slot with dropped := slot.dropped + 1 }, feed) := by
  rw [handOver_eq_handTo]
  exact h Consumer.receive (.returned false) frame feed

theorem handTo_slot {σ ν : Type} (receive : φ → Frame → σ → ν × σ) (missed : ν)
    (slot : FrameSlot φ) (frame : Frame) (s : σ) :
    (slot.handTo receive missed frame s).2.1 = slot.deliver.2 := by
  unfold handTo deliver
  cases slot.callback <;> rfl

/-- The frames delivered and dropped. -/
def counts (slot : FrameSlot φ) : UInt32 × UInt32 := (slot.delivered, slot.dropped)

end FrameSlot

/-- The calls that set up the continuous driver or take it down. -/
def HardwareCall.handlesDriver {κ : Type} : HardwareCall κ → Bool
  | .createContinuous _ _ | .configureContinuous _ _ | .stopContinuous | .deinitContinuous => true
  | _ => false

namespace Controller

variable {κ φ : Type} {machine : Machine κ}

/-! ## The installed callback in a history -/

def Question.setsCallback : Question κ φ → Bool
  | .installCallback _ | .clearCallback => true
  | _ => false

/-- The callback that is in place is the one that was installed last. -/
theorem Scene.exists_install {history : List (Exchange κ φ)} {callback : φ}
    (h : (Scene.ofHistory history).standing.callback = some callback) :
    ∃ i before later, history = before ++ ⟨i, .installCallback callback, ()⟩ :: later ∧
      ∀ e ∈ later, e.question.setsCallback = false := by
  induction history using List.reverseRecOn with
  | nil => cases h
  | append_singleton history e ih =>
    rw [Scene.ofHistory_concat] at h
    obtain ⟨i, q, answer⟩ := e
    have hearlier : (Scene.ofHistory history).standing.callback = some callback →
        q.setsCallback = false → ∃ j before later,
          history ++ [⟨i, q, answer⟩] = before ++ ⟨j, .installCallback callback, ()⟩ :: later ∧
            ∀ e ∈ later, e.question.setsCallback = false := by
      intro hbefore hq
      obtain ⟨j, hlast⟩ := ih hbefore
      exact ⟨j, exists_last_concat hlast hq⟩
    cases q with
    | installCallback callback' =>
      cases h
      exact ⟨i, history, [], rfl, by simp⟩
    | clearCallback => cases h
    | _ => exact hearlier h rfl

namespace Account

variable {i : Nat} {history before later : List (Exchange κ φ)}

theorem callback_append (h : ∀ e ∈ later, e.question.setsCallback = false) :
    (of i (before ++ later)).callback = (of i before).callback := by
  induction later using List.reverseRecOn with
  | nil => rw [List.append_nil]
  | append_singleton later e ih =>
    have hlast := h e (by simp)
    rw [← List.append_assoc, of_concat, ← ih fun e' he' => h e' (List.mem_append_left _ he')]
    obtain ⟨j, q, answer⟩ := e
    split
    · cases q with
      | installCallback | clearCallback => cases hlast
      | _ => rfl
    · rfl

theorem mem_of_installed {callback : φ} (h : (of i history).callback = some (some callback)) :
    ⟨i, .installCallback callback, ()⟩ ∈ history := by
  induction history using List.reverseRecOn with
  | nil => cases h
  | append_singleton history e ih =>
    by_cases he : e.caller = i
    · subst he
      rw [of_concat_self] at h
      obtain ⟨j, q, answer⟩ := e
      cases q with
      | installCallback callback' =>
        cases h
        simp
      | clearCallback => cases h
      | _ => exact List.mem_append_left _ (ih h)
    · rw [of_concat_ne he] at h
      exact List.mem_append_left _ (ih h)

theorem length_left (i : Nat) (history : List (Exchange κ φ)) :
    (of i history).left.length = history.countP fun e => e.IsLeaveOf i := by
  induction history using List.reverseRecOn with
  | nil => rfl
  | append_singleton history e ih =>
    rw [List.countP_append, List.countP_singleton, ← ih]
    by_cases he : e.caller = i
    · subst he
      rw [of_concat_self]
      obtain ⟨j, q, answer⟩ := e
      cases q <;> simp [after, Exchange.IsLeaveOf, Question.isLeave]
    · rw [of_concat_ne he]
      simp [Exchange.IsLeaveOf, he]

end Account

/-! ## Who is under the lock -/

namespace Scene

variable {i : Nat} {before mid : List (Exchange κ φ)} {locked : Bool}

theorem inside_append {burst : Option Burst} {entry now : Standing φ}
    (hi : (ofHistory before).modes i = .inside burst entry now)
    (hmid : ∀ e ∈ mid, ¬ e.IsLeaveOf i) :
    ∃ now', (ofHistory (before ++ mid)).modes i = .inside burst entry now' := by
  induction mid using List.reverseRecOn with
  | nil => exact ⟨now, by rw [List.append_nil, hi]⟩
  | append_singleton mid e ih =>
    obtain ⟨now', hi'⟩ := ih fun e' he' => hmid e' (List.mem_append_left _ he')
    rw [← List.append_assoc, ofHistory_concat]
    exact after_inside hi' (hmid e (by simp))

/-- Who installs a callback is under the lock, alone, and has to leave to be away. -/
theorem Orderly.installs {history later : List (Exchange κ φ)} {callback : φ}
    (h : Orderly history locked)
    (hsplit : history = before ++ ⟨i, .installCallback callback, ()⟩ :: later) :
    (∀ j, j ≠ i → ((ofHistory before).modes j).IsAway) ∧
      ∀ {mid}, ((ofHistory (before ++ ⟨i, .installCallback callback, ()⟩ :: mid)).modes i).IsAway →
        ∃ e ∈ mid, e.IsLeaveOf i := by
  obtain ⟨locked', hbefore, hfits⟩ := h.split hsplit
  have hallow := hfits.allowed
  cases hi : (ofHistory before).modes i with
  | away burst cleared =>
    simp only [hi] at hallow
    exact hallow.elim
  | inside burst entry now =>
    obtain ⟨-, -, -, -, hothers⟩ := hbefore.settled.guarded.of_inside hi
    refine ⟨hothers, fun {mid} haway => ?_⟩
    by_contra hnone
    have hleave : ∀ e ∈ mid, ¬ e.IsLeaveOf i := fun e he hel => hnone ⟨e, he, hel⟩
    obtain ⟨now', hi'⟩ := after_inside (e := ⟨i, .installCallback callback, ()⟩) hi
      fun hel => by cases hel.2
    rw [← ofHistory_concat] at hi'
    obtain ⟨now'', hi''⟩ := inside_append hi' hleave
    rw [List.append_assoc, List.singleton_append] at hi''
    rw [hi''] at haway
    exact haway

end Scene

/-! ## The start that succeeded last -/

theorem Exchange.IsLeaveOf.eq_leave {e : Exchange κ φ} {i : Nat} (h : e.IsLeaveOf i) :
    ∃ held, e = ⟨i, .leave held, ()⟩ := by
  obtain ⟨j, q, answer⟩ := e
  obtain ⟨rfl, hq⟩ := h
  cases q with
  | leave held => exact ⟨held, rfl⟩
  | _ => cases hq

namespace World

variable {config : Config} {w : World machine φ}

/-- Caller `i` has started a stream, and is finished. -/
def HasStarted (w : World machine φ) (i : Nat) : Prop :=
  ∃ command result, w.callers[i]? = some ⟨command, .done result⟩ ∧ command.isStart = true ∧
    result.error? = none

/-- Caller `i` has started a stream with `callback`, and nobody who has started one came out from
under the lock after it. -/
structure LastStarted (w : World machine φ) (i : Nat) (callback : φ) : Prop where
  started : ∃ command result, w.callers[i]? = some ⟨command, .done result⟩ ∧
    command.isStart = true ∧ command.callback? = some callback ∧ result.error? = none
  last : ∃ before held later, w.history = before ++ ⟨i, .leave held, ()⟩ :: later ∧
    ∀ e ∈ later, e.question.isLeave = true → ¬ w.HasStarted e.caller

theorem isStart_of_callback {command : Command φ} {callback : φ}
    (h : command.callback? = some callback) : command.isStart = true := by
  unfold Command.callback? at h
  split at h
  · rfl
  · rfl
  · cases h

/-- Who has started a stream has installed a callback, and has come out from under the lock at most
once. -/
theorem Accounted.streams (h : w.Accounted config) {i : Nat} (hi : w.HasStarted i) :
    (∃ callback, ⟨i, .installCallback callback, ()⟩ ∈ w.history) ∧
      w.history.countP (fun e => e.IsLeaveOf i) ≤ 1 := by
  obtain ⟨command, result, hcaller, hstart, hok⟩ := hi
  have hstreams := (h.finished hcaller).streams hstart
  obtain ⟨callback, -, hinstalled⟩ := hstreams.installs hok
  refine ⟨⟨callback, Account.mem_of_installed hinstalled⟩, ?_⟩
  rw [← Account.length_left]
  exact hstreams.once

/-- Nobody comes out from under the lock twice to start a stream. -/
theorem Accounted.not_hasStarted (h : w.Accounted config) {i : Nat}
    {before later : List (Exchange κ φ)} (hsplit : w.history = before ++ later)
    (hbefore : ∃ e ∈ before, e.IsLeaveOf i) (hlater : ∃ e ∈ later, e.IsLeaveOf i) :
    ¬ w.HasStarted i := by
  intro hi
  have honce := (h.streams hi).2
  have hpos : ∀ {l : List (Exchange κ φ)}, (∃ e ∈ l, e.IsLeaveOf i) →
      0 < l.countP fun e => e.IsLeaveOf i := by
    rintro l ⟨e, he, hleave⟩
    exact List.countP_pos_iff.2 ⟨e, he, by simpa using hleave⟩
  rw [hsplit, List.countP_append] at honce
  have hb := hpos hbefore
  have hl := hpos hlater
  omega

/-- Once the callback that is in place was installed, and its caller came out from under the lock,
nobody comes out who has started a stream. -/
theorem Accounted.none_after (h : w.Accounted config) {i : Nat} {callback : φ} {held : Reservation}
    {before within after : List (Exchange κ φ)}
    (hsplit : w.history =
      before ++ ⟨i, .installCallback callback, ()⟩ :: (within ++ ⟨i, .leave held, ()⟩ :: after))
    (hkeeps : ∀ e ∈ within ++ ⟨i, .leave held, ()⟩ :: after, e.question.setsCallback = false) :
    ∀ e ∈ after, e.question.isLeave = true → ¬ w.HasStarted e.caller := by
  intro e he heleave hstarted
  by_cases hei : e.caller = i
  · -- the caller itself has come out just once
    have hcut : w.history = (before ++ ⟨i, .installCallback callback, ()⟩ :: within ++
        [⟨i, .leave held, ()⟩]) ++ after := by simp [hsplit]
    rw [hei] at hstarted
    exact h.not_hasStarted hcut ⟨⟨i, .leave held, ()⟩, by simp, rfl, rfl⟩
      ⟨e, he, hei, heleave⟩ hstarted
  · -- anybody else has installed its callback before, and come out to make way
    obtain ⟨callback', hinstall⟩ := (h.streams hstarted).1
    have hbefore : ⟨e.caller, .installCallback callback', ()⟩ ∈ before := by
      rw [hsplit] at hinstall
      rcases List.mem_append.1 hinstall with hb | hrest
      · exact hb
      · rcases List.mem_cons.1 hrest with heq | hl
        · exact absurd (congrArg Exchange.caller heq) hei
        · cases hkeeps _ hl
    obtain ⟨hothers, -⟩ := h.kept.orderly.installs hsplit
    obtain ⟨earlier, mid, rfl⟩ := List.append_of_mem hbefore
    obtain ⟨-, hmakesWay⟩ := h.kept.orderly.installs (hsplit.trans (List.append_assoc ..))
    obtain ⟨e', hmid, hleft⟩ := hmakesWay (hothers _ hei)
    exact h.not_hasStarted hsplit ⟨e', by simp [hmid], hleft⟩
      ⟨e, by simp [he], rfl, heleave⟩ hstarted

/-- Where every start is finished, the callback in place is that of the start that succeeded last. -/
theorem Accounted.lastStarted (h : w.Accounted config)
    (hdone : ∀ {i : Nat} {caller : Caller κ φ}, w.callers[i]? = some caller →
      caller.command.isStart = true → caller.isFinished = true)
    {callback : φ} (hcallback : w.shared.slot.callback = some callback) :
    ∃ i, w.LastStarted i callback := by
  have hscene : (Scene.ofHistory w.history).standing.callback = some callback :=
    (congrArg Standing.callback h.kept.standing).trans hcallback
  obtain ⟨i, before, later, hsplit, hlater⟩ := Scene.exists_install hscene
  obtain ⟨⟨command, rest⟩, hcaller, hbrought⟩ := h.fits hsplit
  have hstart : command.isStart = true := isStart_of_callback hbrought
  have hfinished := hdone hcaller hstart
  cases rest with
  | ask q next => cases hfinished
  | done result =>
    -- the callback is the last thing that its caller has made of the slot, so the start succeeded
    have hinstalled : (Account.of i w.history).callback = some (some callback) := by
      have hcons : w.history = before ++ [⟨i, .installCallback callback, ()⟩] ++ later := by
        rw [hsplit, List.append_assoc, List.singleton_append]
      rw [hcons, Account.callback_append hlater,
        Account.of_concat_self before ⟨i, .installCallback callback, ()⟩]
      rfl
    have hok := ((h.finished hcaller).streams hstart).clears callback hinstalled
    have haway : ((Scene.ofHistory w.history).modes i).IsAway := by
      obtain ⟨cleared, hmode⟩ := h.kept.behaves hcaller
      show (w.scene.modes i).IsAway
      rw [hmode]
      trivial
    obtain ⟨-, hleaves⟩ := h.kept.orderly.installs hsplit
    obtain ⟨leave, hmem, hleave⟩ := hleaves (hsplit ▸ haway)
    obtain ⟨within, after, rfl⟩ := List.append_of_mem hmem
    obtain ⟨held, rfl⟩ := hleave.eq_leave
    exact ⟨i, ⟨command, result, hcaller, hstart, hbrought, hok⟩,
      before ++ ⟨i, .installCallback callback, ()⟩ :: within, held, after, by simp [hsplit],
      h.none_after hsplit hlater⟩

/-! ## Runs -/

/-- The next step zeroes the counters of the slot, and it is one of a start that found no session
under way and has just configured the driver. -/
def Restarts (config : Config) (w : World machine φ) (act : Action machine φ) : Prop :=
  ∃ i command next, act = .advance i ∧
    w.callers[i]? = some ⟨command, .ask .resetFrameCounts next⟩ ∧ command.isStart = true ∧
    (∃ found, ⟨i, .enter, found⟩ ∈ w.history ∧ found.IsVacant) ∧
    (∃ c, (callsOf i w.history).getLast? = some c ∧ c.isConfigured = true) ∧
    (w.step config act).shared.slot.counts = (0, 0)

/-- Where a frame goes that reaches the slot, and how it is counted. -/
structure Routes (config : Config) (w : World machine φ) : Prop where
  /-- Between the sections under the lock a frame of a stream goes to the callback of the start that
  succeeded last. -/
  running : w.shared.locked = false → (∀ {i : Nat} {caller : Caller κ φ},
    w.callers[i]? = some caller → caller.command.isStart = true → caller.isFinished = true) →
    w.shared.reservation.session = .continuous →
      ∃ i callback, w.LastStarted i callback ∧ w.shared.slot.HandsTo (some callback)
  /-- Where no stream is under way, it goes to nobody. -/
  silent : w.shared.locked = false → w.shared.reservation.session ≠ .continuous →
    w.shared.slot.HandsTo none
  /-- Neither does it while a call sets up the driver or takes it down. -/
  guarded : ∀ {i : Nat} {command : Command φ} {call : HardwareCall κ}
    {next : Answer (.hardware call : Question κ φ) → Operation κ φ Result},
    w.callers[i]? = some ⟨command, .ask (.hardware call) next⟩ → call.handlesDriver = true →
      w.shared.slot.HandsTo none
  /-- At any time it goes to one callback at most, and is counted once. -/
  counted : w.shared.slot.HandsTo w.shared.slot.callback
  /-- That is what the arrival of a frame makes of the slot. -/
  arrives : ∀ {σ ν : Type} (receive : φ → Frame → σ → ν × σ) (missed : ν) (frame : Frame) (s : σ),
    (w.step config .deliver).shared =
      { w.shared with slot := (w.shared.slot.handTo receive missed frame s).2.1 }
  /-- Apart from frames that arrive, nothing changes the counters but a start that zeroes them. -/
  kept : ∀ act : Action machine φ, act ≠ .deliver →
    (w.step config act).shared.slot.counts = w.shared.slot.counts ∨ w.Restarts config act

theorem Accounted.guarded (h : w.Accounted config) {i : Nat} {command : Command φ}
    {call : HardwareCall κ} {next : Answer (.hardware call : Question κ φ) → Operation κ φ Result}
    (hi : w.callers[i]? = some ⟨command, .ask (.hardware call) next⟩)
    (hcall : call.handlesDriver = true) : w.shared.slot.callback = none := by
  obtain ⟨hallow, -⟩ := h.kept.behaves hi
  cases hmode : w.scene.modes i with
  | away burst cleared =>
    -- outside the lock nobody touches the driver
    rw [hmode] at hallow
    rcases hallow with ⟨-, hcalibration⟩ | ⟨c, rfl, -⟩
    · cases call <;> first | exact hcalibration.elim | cases hcall
    · cases hcall
  | inside burst entry now =>
    rw [hmode] at hallow
    obtain ⟨-, rfl, -⟩ := h.kept.orderly.settled.guarded.of_inside hmode
    have hcallback : w.scene.standing.callback = w.shared.slot.callback :=
      congrArg Standing.callback h.kept.standing
    rw [← hcallback]
    rcases hallow.2.2 with hnone | rfl | rfl
    · exact hnone
    · cases hcall
    · cases hcall

theorem Accounted.counts (h : w.Accounted config) (act : Action machine φ) (hact : act ≠ .deliver) :
    (w.step config act).shared.slot.counts = w.shared.slot.counts ∨ w.Restarts config act := by
  cases act with
  | deliver => exact absurd rfl hact
  | call | happen => exact .inl rfl
  | advance i =>
    rcases w.advance_cases i with hsame | ⟨command, q, next, hi, hq, hanswered⟩
    · exact .inl (congrArg (fun w => w.shared.slot.counts) hsame)
    · have hstep : w.step config (.advance i) = w.answered i command q next := hanswered
      cases q with
      | resetFrameCounts =>
        obtain ⟨⟨hbrings, ⟨c, hlast, hconfigured⟩, found, hfound, hvacant⟩, -⟩ := h.ends hi
        obtain ⟨callback, hcallback⟩ := Option.isSome_iff_exists.1 hbrings
        obtain ⟨before, later, hsplit, -⟩ := Account.exists_first hfound
        rw [Account.calls_of] at hlast
        refine .inr ⟨i, command, next, rfl, hi, isStart_of_callback hcallback,
          ⟨found, by simp [hsplit], hvacant⟩, ⟨c, hlast, hconfigured⟩, ?_⟩
        rw [hstep]
        rfl
      | _ =>
        refine .inl ?_
        rw [hstep]
        rfl

theorem Accounted.routes (h : w.Accounted config) : w.Routes config := by
  have hnobody : w.shared.slot.callback = none → w.shared.slot.HandsTo none := by
    intro hnone
    rw [← hnone]
    exact w.shared.slot.handsTo_callback
  constructor
  case running =>
    intro hfree hdone hcontinuous
    obtain ⟨callback, hcallback⟩ : ∃ callback, w.shared.slot.callback = some callback :=
      Option.isSome_iff_exists.1 ((h.kept.sound hfree).callback_iff.2 hcontinuous)
    obtain ⟨i, hlast⟩ := h.lastStarted hdone hcallback
    refine ⟨i, callback, hlast, ?_⟩
    rw [← hcallback]
    exact w.shared.slot.handsTo_callback
  case silent =>
    intro hfree hother
    refine hnobody (Option.not_isSome_iff_eq_none.1 fun hsome => hother ?_)
    exact (h.kept.sound hfree).callback_iff.1 hsome
  case guarded => exact fun hi hcall => hnobody (h.guarded hi hcall)
  case counted => exact w.shared.slot.handsTo_callback
  case arrives =>
    intro σ ν receive missed frame s
    rw [FrameSlot.handTo_slot]
    rfl
  case kept => exact h.counts

/-- A frame that arrives when a start has come to its end finds the stream under way. -/
example :
    let w := (new {} : World Machine.recording Unit).run {}
      (.call (.startContinuous ⟨.single ⟨1⟩, .db12, 16, 20000, some ()⟩) ::
        (List.replicate 10 (.advance 0) ++ [.deliver]))
    w.shared.locked = false ∧ w.shared.reservation.session = .continuous ∧
      w.shared.slot.counts = (1, 0) := by
  decide

/-! ## Consumers -/

/-- What a delivery comes to that hands a frame over to the slot: who receives the frame, what is answered
and how the frame is counted. -/
structure HandsOver (config : Config) (w : World machine Consumer) (frame : Frame) (feed : Feed) :
    Prop where
  running : w.shared.locked = false → (∀ {i : Nat} {caller : Caller κ Consumer},
    w.callers[i]? = some caller → caller.command.isStart = true → caller.isFinished = true) →
    w.shared.reservation.session = .continuous →
      ∃ i consumer, w.LastStarted i consumer ∧ w.shared.slot.handOver frame feed =
        ((consumer.receive frame feed).1,
          { w.shared.slot with delivered := w.shared.slot.delivered + 1 },
          (consumer.receive frame feed).2)
  /-- Nobody receives it, and the answer is that no other task is to run. -/
  silent : w.shared.locked = false → w.shared.reservation.session ≠ .continuous →
    w.shared.slot.handOver frame feed =
      (.returned false, { w.shared.slot with dropped := w.shared.slot.dropped + 1 }, feed)
  guarded : ∀ {i : Nat} {command : Command Consumer} {call : HardwareCall κ}
    {next : Answer (.hardware call : Question κ Consumer) → Operation κ Consumer Result},
    w.callers[i]? = some ⟨command, .ask (.hardware call) next⟩ → call.handlesDriver = true →
      w.shared.slot.handOver frame feed =
        (.returned false, { w.shared.slot with dropped := w.shared.slot.dropped + 1 }, feed)
  arrives : (w.step config .deliver).shared =
    { w.shared with slot := (w.shared.slot.handOver frame feed).2.1 }

/-- So are the frames that are handed over to the consumers. -/
theorem handsOver_run (config : Config) (memory : machine.Memory)
    (actions : List (Action machine Consumer)) (frame : Frame) (feed : Feed) :
    ((new memory).run config actions).HandsOver config frame feed := by
  have h := (accounted_run config memory actions).routes
  constructor
  case running =>
    intro hfree hdone hcontinuous
    obtain ⟨i, consumer, hlast, hhands⟩ := h.running hfree hdone hcontinuous
    exact ⟨i, consumer, hlast, FrameSlot.handOver_received hhands frame feed⟩
  case silent =>
    exact fun hfree hother => FrameSlot.handOver_missed (h.silent hfree hother) frame feed
  case guarded =>
    exact fun hi hcall => FrameSlot.handOver_missed (h.guarded hi hcall) frame feed
  case arrives =>
    rw [FrameSlot.handOver_eq_handTo]
    exact h.arrives Consumer.receive (.returned false) frame feed

end World

end Controller

end SharedAdc
