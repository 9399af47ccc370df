/-
A party that keeps watch. Between two of its questions others go on, and it counts on them to
change only so much: what it finds when it looks again can be told from what it saw last. Under the
lock it follows its own steps exactly, and keeps to what others count on in turn. Rules of conduct
say what is in order; these rules say what comes of it.
-/
import SharedAdc.Proofs.Callers.Standing
import SharedAdc.Proofs.Program.Rules

namespace SharedAdc

/-- Sessions that go on after the operation that has begun them, until they are ended. -/
def Session.Lasts : Session → Prop
  | .timeCritical _ | .continuous => True
  | _ => False

/-- The table that the driver is set up with after a call. A new driver has none, and one that was
to be stopped is not counted on to go through one any more. -/
def HardwareCall.tableAfter {κ : Type} (table : List PatternEntry) :
    (call : HardwareCall κ) → call.Reply → List PatternEntry
  | .createContinuous _ _, .ok () => []
  | .configureContinuous _ pattern, .ok () => pattern
  | .stopContinuous, _ => []
  | _, _ => table

namespace Controller

variable {κ φ α : Type}

/-! ## Views -/

/-- A view of a controller and its hardware: how they stand with each other, and the table that the
driver is set up with. -/
structure View (φ : Type) extends Standing φ where
  table : List PatternEntry := []

namespace View

instance : Inhabited (View φ) := ⟨{}⟩

/-- The view after a question is answered. -/
def after (v : View φ) (q : Question κ φ) (a : Answer q) : View φ where
  toStanding := v.toStanding.after q a
  table :=
    match q, a with
    | .hardware call, reply => call.tableAfter v.table reply
    | _, _ => v.table

/-- The session of the view. -/
abbrev session (v : View φ) : Session := v.reservation.session

/-- What a burst leaves alone: the armed channel, the slot and the table, and every session that
lasts. -/
structure Steady (v v' : View φ) : Prop where
  armed : v'.armed = v.armed
  callback : v'.callback = v.callback
  table : v'.table = v.table
  lasting : v.session.Lasts ∨ v'.session.Lasts → v'.reservation = v.reservation

/-- What bursts and fresh starts leave alone: nothing is armed, installed or begun that was not
there before. -/
structure Ebbing (v v' : View φ) : Prop where
  armed : v'.armed = v.armed ∨ v'.armed = none
  callback : v'.callback = v.callback ∨ v'.callback = none
  lasting : v'.session.Lasts → v'.reservation = v.reservation

theorem Steady.refl (v : View φ) : v.Steady v := ⟨rfl, rfl, rfl, fun _ => rfl⟩

theorem Steady.trans {u v w : View φ} (h : u.Steady v) (h' : v.Steady w) : u.Steady w where
  armed := h'.armed.trans h.armed
  callback := h'.callback.trans h.callback
  table := h'.table.trans h.table
  lasting hlast := by
    -- a session that lasts on one side is there in the middle as well
    have hmiddle : v.session.Lasts := by
      rcases hlast with hu | hw
      · rw [session, h.lasting (.inl hu)]
        exact hu
      · rw [session, ← h'.lasting (.inr hw)]
        exact hw
    rw [h'.lasting (.inl hmiddle), h.lasting (.inr hmiddle)]

/-- Nobody else begins, ends or changes what lasts. -/
theorem Steady.reservation_eq_iff {v v' : View φ} (h : v.Steady v') {r : Reservation}
    (hr : r.session.Lasts) : v'.reservation = r ↔ v.reservation = r := by
  constructor
  · rintro rfl
    exact (h.lasting (.inr hr)).symm
  · rintro rfl
    exact h.lasting (.inl hr)

theorem Steady.session_eq_iff {v v' : View φ} (h : v.Steady v') {s : Session} (hs : s.Lasts) :
    v'.session = s ↔ v.session = s := by
  constructor
  · rintro rfl
    exact (congrArg Reservation.session (h.lasting (.inr hs))).symm
  · rintro rfl
    exact congrArg Reservation.session (h.lasting (.inl hs))

theorem Ebbing.trans {u v w : View φ} (h : u.Ebbing v) (h' : v.Ebbing w) : u.Ebbing w where
  armed := by
    rcases h'.armed with hsame | hnone
    · rw [hsame]
      exact h.armed
    · exact .inr hnone
  callback := by
    rcases h'.callback with hsame | hnone
    · rw [hsame]
      exact h.callback
    · exact .inr hnone
  lasting hlast := by
    have hsame := h'.lasting hlast
    rw [session, hsame] at hlast
    rw [hsame, h.lasting hlast]

/-- Where a session that does not last gives way to another such, nobody else is concerned. -/
theorem Steady.of_not_lasts {v v' : View φ} (harmed : v'.armed = v.armed)
    (hcallback : v'.callback = v.callback) (htable : v'.table = v.table) (h : ¬v.session.Lasts)
    (h' : ¬v'.session.Lasts) : v.Steady v' :=
  ⟨harmed, hcallback, htable, fun hlast => by rcases hlast with hl | hl <;> contradiction⟩

/-- A call that leaves the table alone only opens or closes a path. -/
theorem Steady.of_hardware {v : View φ} {call : HardwareCall κ} {reply : call.Reply}
    (h : call.tableAfter v.table reply = v.table) : v.Steady (v.after (.hardware call) reply) :=
  ⟨rfl, rfl, h, fun _ => rfl⟩

theorem Steady.ebbing {v v' : View φ} (h : v.Steady v') : v.Ebbing v' :=
  ⟨.inl h.armed, .inl h.callback, fun hlast => h.lasting (.inr hlast)⟩

end View

/-! ## Rules -/

/-- What a party counts on and keeps to. -/
structure Custom (φ : Type) where
  /-- What everybody else can change between two questions of the party. -/
  relies : View φ → View φ → Prop
  /-- What a step of the party can change. -/
  keeps : View φ → View φ → Prop
  /-- The reservations that anybody leaves behind. -/
  fair : Reservation → Prop
  trans : ∀ {u v w}, relies u v → relies v w → relies u w
  relies_of_steady : ∀ {v v'}, v.Steady v' → relies v v'
  keeps_of_steady : ∀ {v v'}, v.Steady v' → keeps v v'
  fair_of_ne : ∀ {r : Reservation}, r.session ≠ .reserved → fair r

namespace Custom

variable {custom : Custom φ}

theorem refl (v : View φ) : custom.relies v v := custom.relies_of_steady (.refl v)

/-- Nobody counts on the party, which can do as it pleases. -/
def Free (custom : Custom φ) : Prop := ∀ v v', custom.keeps v v'

end Custom

/-- Where a party is: outside the lock with what it saw last, or under the lock with the present
view, and whether it has made a call there that can fail. -/
inductive Outlook (φ : Type) where
  | away (last : View φ)
  | inside (now : View φ) (tried : Bool)

/-- Whether a question is a call that can fail. -/
def Question.tries : Question κ φ → Bool
  | .hardware call => call.op?.isSome
  | _ => false

/-- The calls to the driver in turn: it is set up before it is started, and taken down only after a
call that can fail. -/
def View.Awaits (now : View φ) (tried : Bool) : HardwareCall κ → Prop
  | .configureContinuous _ _ => now.paths.driver = some false
  | .deinitContinuous => tried = true
  | _ => True

namespace Outlook

/-- What may be asked. Under the lock each step keeps to the custom, the calls to the driver come in
turn, and a fair reservation is left behind. -/
def Allows (custom : Custom φ) : Outlook φ → Question κ φ → Prop
  | .away _, _ => True
  | .inside now tried, q => (∀ a, custom.keeps now (now.after q a)) ∧
      (∀ call, q = .hardware call → now.Awaits tried call) ∧ ∀ held, q = .leave held → custom.fair held

/-- Where an answer can lead. Outside the lock a party sees afresh only when it comes under the lock
or asks for the armed channel. -/
def Leads (custom : Custom φ) : Outlook φ → (q : Question κ φ) → Answer q → Outlook φ → Prop
  | .away last, .enter, held, next => ∃ v : View φ, custom.relies last v ∧ v.Sound ∧
      custom.fair v.reservation ∧ v.reservation = held ∧ next = .inside v false
  | .away last, .armed, channel, next =>
    ∃ v, custom.relies last v ∧ v.armed = channel ∧ next = .away v
  | .away last, _, _, next => next = .away last
  | .inside now _, .leave held, _, next => next = .away { now with reservation := held }
  | .inside now tried, q, a, next => next = .inside (now.after q a) (tried || q.tries)

end Outlook

/-- The rules of a party that keeps watch. -/
def watch (custom : Custom φ) : Rules (Question κ φ) Answer (Outlook φ) :=
  ⟨Outlook.Allows custom, Outlook.Leads custom⟩

/-! ## Single questions -/

section

variable {custom : Custom φ} {last now : View φ} {tried : Bool}

/-- Short of leaving, a party under the lock follows its own steps. -/
theorem watch_ask_inside {q : Question κ φ} (hq : ∀ held, q ≠ .leave held)
    (post : Answer q → Outlook φ → Prop) :
    (ask q : Operation κ φ (Answer q)).Obeys (watch custom) (.inside now tried) post ↔
      (∀ a, custom.keeps now (now.after q a)) ∧
        (∀ call, q = .hardware call → now.Awaits tried call) ∧
        ∀ a, post a (.inside (now.after q a) (tried || q.tries)) := by
  have hleads : ∀ a next, (Outlook.inside now tried).Leads custom q a next ↔
      next = .inside (now.after q a) (tried || q.tries) := by
    intro a next
    cases q with
    | leave held => exact absurd rfl (hq held)
    | _ => rfl
  refine (Program.obeys_query ..).trans ?_
  constructor
  · rintro ⟨⟨hkeeps, htried, -⟩, hpost⟩
    exact ⟨hkeeps, htried, fun a => hpost a _ ((hleads a _).2 rfl)⟩
  · rintro ⟨hkeeps, htried, hpost⟩
    refine ⟨⟨hkeeps, htried, fun held h => absurd h (hq held)⟩, fun a next hl => ?_⟩
    rw [(hleads a next).1 hl]
    exact hpost a

/-- What is neither a call nor the end of the section only changes the view. -/
theorem watch_ask_plain {q : Question κ φ} (hq : ∀ held, q ≠ .leave held)
    (hcall : ∀ call, q ≠ .hardware call) (post : Answer q → Outlook φ → Prop) :
    (ask q : Operation κ φ (Answer q)).Obeys (watch custom) (.inside now tried) post ↔
      (∀ a, custom.keeps now (now.after q a)) ∧ ∀ a, post a (.inside (now.after q a) tried) := by
  have htries : (tried || q.tries) = tried := by
    cases q with
    | hardware call => exact absurd rfl (hcall call)
    | _ => exact Bool.or_false tried
  rw [watch_ask_inside hq, htries]
  exact ⟨fun h => ⟨h.1, h.2.2⟩, fun h => ⟨h.1, fun call hd => absurd hd (hcall call), h.2⟩⟩

/-- Short of looking, a party outside the lock stays where it is. -/
theorem watch_ask_away {q : Question κ φ} (henter : q ≠ .enter) (harmed : q ≠ .armed)
    (post : Answer q → Outlook φ → Prop) :
    (ask q : Operation κ φ (Answer q)).Obeys (watch custom) (.away last) post ↔
      ∀ a, post a (.away last) := by
  have hleads : ∀ a next, (Outlook.away last).Leads custom q a next ↔ next = .away last := by
    intro a next
    cases q with
    | enter => exact absurd rfl henter
    | armed => exact absurd rfl harmed
    | _ => rfl
  refine (Program.obeys_query ..).trans ?_
  constructor
  · rintro ⟨-, hpost⟩ a
    exact hpost a _ ((hleads a _).2 rfl)
  · intro hpost
    refine ⟨trivial, fun a next hl => ?_⟩
    rw [(hleads a next).1 hl]
    exact hpost a

@[simp] theorem watch_note (notice : Notice) (post : Unit → Outlook φ → Prop) :
    (note notice : Operation κ φ Unit).Obeys (watch custom) (.away last) post ↔
      post () (.away last) :=
  (watch_ask_away (q := .note notice) (by simp) (by simp) post).trans
    ⟨fun h => h (), fun h _ => h⟩

@[simp] theorem watch_note_inside (notice : Notice) (post : Unit → Outlook φ → Prop) :
    (note notice : Operation κ φ Unit).Obeys (watch custom) (.inside now tried) post ↔
      post () (.inside now tried) :=
  (watch_ask_plain (q := .note notice) (by simp) (by simp) post).trans
    ⟨fun h => h.2 (), fun h => ⟨fun _ => custom.keeps_of_steady (.refl now), fun _ => h⟩⟩

@[simp] theorem watch_frameCounts (post : UInt32 × UInt32 → Outlook φ → Prop) :
    @Program.Obeys (Question κ φ) Answer _ (UInt32 × UInt32) (watch custom) (ask .frameCounts)
        (.away last) post ↔
      ∀ counts, post counts (.away last) :=
  watch_ask_away (q := .frameCounts) (by simp) (by simp) post

theorem watch_hardware_away (call : HardwareCall κ) (post : call.Reply → Outlook φ → Prop) :
    (hardware call : Operation κ φ call.Reply).Obeys (watch custom) (.away last) post ↔
      ∀ reply, post reply (.away last) :=
  watch_ask_away (q := .hardware call) (by simp) (by simp) post

theorem watch_armed {post : Option Channel → Outlook φ → Prop}
    (h : ∀ v, custom.relies last v → post v.armed (.away v)) :
    @Program.Obeys (Question κ φ) Answer _ (Option Channel) (watch custom) (ask .armed)
      (.away last) post := by
  refine (Program.obeys_query ..).2 ⟨trivial, ?_⟩
  rintro _ _ ⟨v, hv, rfl, rfl⟩
  exact h v hv

theorem watch_hardware (call : HardwareCall κ) (post : call.Reply → Outlook φ → Prop) :
    (hardware call : Operation κ φ call.Reply).Obeys (watch custom) (.inside now tried) post ↔
      (∀ reply, custom.keeps now (now.after (.hardware call) reply)) ∧
        now.Awaits tried call ∧
        ∀ reply, post reply (.inside (now.after (.hardware call) reply)
          (tried || call.op?.isSome)) := by
  refine (watch_ask_inside (q := .hardware call) (by simp) post).trans
    (and_congr_right fun _ => and_congr_left fun _ => ⟨fun h => h call rfl, ?_⟩)
  rintro h _ ⟨⟩
  exact h

theorem watch_arm (channel : Option Channel) (post : Unit → Outlook φ → Prop) :
    @Program.Obeys (Question κ φ) Answer _ Unit (watch custom) (ask (.arm channel))
        (.inside now tried) post ↔
      custom.keeps now { now with armed := channel } ∧
        post () (.inside { now with armed := channel } tried) :=
  (watch_ask_plain (q := .arm channel) (by simp) (by simp) post).trans
    ⟨fun h => ⟨h.1 (), h.2 ()⟩, fun h => ⟨fun _ => h.1, fun _ => h.2⟩⟩

theorem watch_installCallback (callback : φ) (post : Unit → Outlook φ → Prop) :
    @Program.Obeys (Question κ φ) Answer _ Unit (watch custom) (ask (.installCallback callback))
        (.inside now tried) post ↔
      custom.keeps now { now with callback := some callback } ∧
        post () (.inside { now with callback := some callback } tried) :=
  (watch_ask_plain (q := .installCallback callback) (by simp) (by simp) post).trans
    ⟨fun h => ⟨h.1 (), h.2 ()⟩, fun h => ⟨fun _ => h.1, fun _ => h.2⟩⟩

theorem watch_clearCallback (post : Unit → Outlook φ → Prop) :
    @Program.Obeys (Question κ φ) Answer _ Unit (watch custom) (ask .clearCallback)
        (.inside now tried) post ↔
      custom.keeps now { now with callback := none } ∧
        post () (.inside { now with callback := none } tried) :=
  (watch_ask_plain (q := .clearCallback) (by simp) (by simp) post).trans
    ⟨fun h => ⟨h.1 (), h.2 ()⟩, fun h => ⟨fun _ => h.1, fun _ => h.2⟩⟩

theorem watch_resetFrameCounts (post : Unit → Outlook φ → Prop) :
    @Program.Obeys (Question κ φ) Answer _ Unit (watch custom) (ask .resetFrameCounts)
        (.inside now tried) post ↔
      post () (.inside now tried) :=
  (watch_ask_plain (q := .resetFrameCounts) (by simp) (by simp) post).trans
    ⟨fun h => h.2 (), fun h => ⟨fun _ => custom.keeps_of_steady (.refl now), fun _ => h⟩⟩

/-- A section under the lock finds something sound and fair that the party could count on, and
what it ends with has to be fit to be put back. -/
theorem watch_locked {body : Reservation → Operation κ φ (α × Reservation)}
    {post : α → Outlook φ → Prop}
    (h : ∀ v : View φ, custom.relies last v → v.Sound → custom.fair v.reservation →
      (body v.reservation).Obeys (watch custom) (.inside v false) fun r mode =>
        ∃ now tried, mode = .inside now tried ∧ custom.fair r.2 ∧
          custom.keeps now { now with reservation := r.2 } ∧
          post r.1 (.away { now with reservation := r.2 })) :
    (locked body).Obeys (watch custom) (.away last) post := by
  unfold locked
  simp only [Program.bind_eq, Program.obeys_bind, ask, Program.obeys_query]
  refine ⟨trivial, ?_⟩
  rintro _ _ ⟨v, hv, hs, hfair, rfl, rfl⟩
  refine (h v hv hs hfair).mono ?_
  rintro ⟨result, held⟩ _ ⟨now, tried, rfl, hput, hkeeps, hpost⟩
  refine ⟨⟨fun _ => hkeeps, by simp, ?_⟩, ?_⟩
  · rintro _ ⟨⟩
    exact hput
  · rintro _ _ rfl
    exact hpost

end

end Controller

end SharedAdc
