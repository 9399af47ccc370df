/-
What a history says of a controller: how it stands with its hardware, and where every caller is.
While everybody keeps the rules of conduct, at most one caller is under the lock, at most one has
a burst under way, and whoever comes under the lock meets a sound standing.
-/
import Mathlib.Logic.Function.Basic
import SharedAdc.Proofs.Callers.Conduct
import SharedAdc.Proofs.History

namespace SharedAdc.Controller

variable {κ φ : Type}

/-! ## Scenes -/

/-- How controller and hardware stand with each other, and where every caller is. -/
structure Scene (φ : Type) where
  standing : Standing φ := {}
  modes : Nat → Mode φ := fun _ => .away none none

/-- Whether the lock is taken after a question. -/
def Question.lockAfter (locked : Bool) : Question κ φ → Bool
  | .enter => true
  | .leave _ => false
  | _ => locked

/-- Whether an answer is what the standing shows. -/
def Standing.Shows (s : Standing φ) : (q : Question κ φ) → Answer q → Prop
  | .enter, held => held = s.reservation
  | .armed, channel => channel = s.armed
  | _, _ => True

namespace Scene

/-- The scene after one more exchange. -/
def after (s : Scene φ) (e : Exchange κ φ) : Scene φ where
  standing := s.standing.after e.question e.answer
  modes := Function.update s.modes e.caller
    ((s.modes e.caller).next s.standing e.question e.answer)

/-- The scene that a history leads to. -/
def ofHistory (history : List (Exchange κ φ)) : Scene φ := history.foldl after {}

theorem ofHistory_concat (history : List (Exchange κ φ)) (e : Exchange κ φ) :
    ofHistory (history ++ [e]) = (ofHistory history).after e := by
  simp [ofHistory]

/-- Who is under the lock. -/
inductive Guarded (s : Scene φ) : Bool → Prop where
  | free (haway : ∀ i, (s.modes i).IsAway) (hsound : s.standing.Sound) : Guarded s false
  | held (i : Nat) (burst : Option Burst) (entry : Standing φ)
    (hi : s.modes i = .inside burst entry s.standing) (hentry : entry.Sound)
    (hsame : entry.reservation = s.standing.reservation)
    (haway : ∀ j, j ≠ i → (s.modes j).IsAway) : Guarded s true

/-- What the rules of conduct keep up: the reservation shows a burst just when somebody has one
under way, and whoever has is alone with it. -/
structure Settled (s : Scene φ) (locked : Bool) : Prop where
  guarded : s.Guarded locked
  token : ∀ {i b}, (s.modes i).burst = some b →
    s.standing.reservation = ⟨b.mask, .oneShot⟩ ∧ s.standing.armed = none
  found : ∀ {i b}, (s.modes i).burst = some b → b.found.session ≠ .oneShot
  alone : ∀ {i j b b'}, (s.modes i).burst = some b → (s.modes j).burst = some b' → i = j
  shown : s.standing.reservation.session = .oneShot → ∃ i b, (s.modes i).burst = some b

theorem settled_empty : ({} : Scene φ).Settled false where
  guarded := .free (fun _ => trivial) .idle
  token h := by cases h
  found h := by cases h
  alone h := by cases h
  shown h := by cases h

end Scene

/-! ## What a question leaves alone -/

section

variable {s : Standing φ} {burst : Option Burst} {cleared : Option Channel} {q : Question κ φ}

/-- Nothing that is asked from outside the lock changes how things stand. -/
theorem Standing.after_of_away (h : (Mode.away burst cleared : Mode φ).Allows q) (a : Answer q) :
    s.after q a = s := by
  cases q with
  | hardware call =>
    rcases h with ⟨-, h⟩ | ⟨c, rfl, -⟩
    · cases call <;> first | rfl | exact h.elim
    · rfl
  | enter | armed | frameCounts | note => rfl
  | leave | arm | installCallback | clearCallback | resetFrameCounts => exact h.elim

theorem Mode.next_of_away (s : Standing φ) (burst : Option Burst) (cleared : Option Channel)
    (h : q ≠ .enter) (a : Answer q) :
    ∃ channel, (Mode.away burst cleared : Mode φ).next s q a = .away burst channel := by
  cases q with
  | enter => exact absurd rfl h
  | armed => exact ⟨a, rfl⟩
  | _ => exact ⟨cleared, rfl⟩

theorem Standing.reservation_after (h : ∀ held, q ≠ .leave held) (a : Answer q) :
    (s.after q a).reservation = s.reservation := by
  cases q with
  | leave held => exact absurd rfl (h held)
  | _ => rfl

theorem Standing.armed_after (h : ∀ channel, q ≠ .arm channel) (a : Answer q) :
    (s.after q a).armed = s.armed := by
  cases q with
  | arm channel => exact absurd rfl (h channel)
  | _ => rfl

end

namespace Scene

/-! ## Single exchanges -/

section

variable {s : Scene φ} {locked : Bool} {i : Nat} {q : Question κ φ} {a : Answer q}
  {burst : Option Burst} {entry now : Standing φ}

@[simp] theorem modes_after_self (e : Exchange κ φ) : (s.after e).modes e.caller =
    (s.modes e.caller).next s.standing e.question e.answer :=
  Function.update_self ..

theorem modes_after_ne {j : Nat} (e : Exchange κ φ) (h : j ≠ e.caller) :
    (s.after e).modes j = s.modes j :=
  Function.update_of_ne h ..

/-- Who is under the lock knows how things stand, and is the only one there. -/
theorem Guarded.of_inside (h : s.Guarded locked) (hi : s.modes i = .inside burst entry now) :
    locked = true ∧ now = s.standing ∧ entry.Sound ∧
      entry.reservation = s.standing.reservation ∧ ∀ j, j ≠ i → (s.modes j).IsAway := by
  cases h with
  | free haway =>
    have := haway i
    rw [hi] at this
    exact this.elim
  | held k burst' entry' hk hentry hsame haway =>
    have hik : i = k := by
      by_contra hne
      have := haway i hne
      rw [hi] at this
      exact this
    subst hik
    rw [hi] at hk
    cases hk
    exact ⟨rfl, rfl, hentry, hsame, haway⟩

/-- Where nobody opens or ends a burst and nothing that concerns bursts changes, all that is left
to see is who is under the lock. -/
theorem Settled.of_guarded {s' : Scene φ} {locked' : Bool} (h : s.Settled locked)
    (hburst : ∀ j, (s'.modes j).burst = (s.modes j).burst)
    (hres : s'.standing.reservation = s.standing.reservation)
    (harmed : s.standing.reservation.session = .oneShot → s'.standing.armed = s.standing.armed)
    (hguarded : s'.Guarded locked') : s'.Settled locked' := by
  constructor
  case guarded => exact hguarded
  case token =>
    intro j b hb
    rw [hburst] at hb
    obtain ⟨hr, ha⟩ := h.token hb
    rw [hres, harmed (by rw [hr]), hr]
    exact ⟨rfl, ha⟩
  case found =>
    intro j b hb
    rw [hburst] at hb
    exact h.found hb
  case alone =>
    intro j k b b' hb hb'
    rw [hburst] at hb hb'
    exact h.alone hb hb'
  case shown =>
    intro hone
    rw [hres] at hone
    obtain ⟨j, b, hb⟩ := h.shown hone
    exact ⟨j, b, (hburst j).trans hb⟩

theorem burst_after (hnext : ((s.modes i).next s.standing q a).burst = (s.modes i).burst)
    (j : Nat) :
    ((s.after ⟨i, q, a⟩).modes j).burst = (s.modes j).burst := by
  by_cases hj : j = i
  · subst hj
    rw [← hnext]
    exact congrArg Mode.burst (modes_after_self ⟨j, q, a⟩)
  · rw [modes_after_ne ⟨i, q, a⟩ hj]

/-- Whatever is asked from outside the lock, short of taking it, disturbs nobody. -/
theorem Settled.away {cleared : Option Channel} (h : s.Settled locked)
    (hi : s.modes i = .away burst cleared) (hallow : (s.modes i).Allows q) (hq : q ≠ .enter) :
    (s.after ⟨i, q, a⟩).Settled (q.lockAfter locked) := by
  rw [hi] at hallow
  have hstand : (s.after ⟨i, q, a⟩).standing = s.standing := Standing.after_of_away hallow a
  have hlock : q.lockAfter locked = locked := by
    cases q <;> first | rfl | exact absurd rfl hq | exact hallow.elim
  obtain ⟨channel, hnext⟩ := Mode.next_of_away s.standing burst cleared hq a
  rw [← hi] at hnext
  have haway : ∀ j, (s.modes j).IsAway → ((s.after ⟨i, q, a⟩).modes j).IsAway := by
    intro j hj
    by_cases hji : j = i
    · subst hji
      rw [modes_after_self ⟨j, q, a⟩, hnext]
      trivial
    · rw [modes_after_ne ⟨i, q, a⟩ hji]
      exact hj
  rw [hlock]
  refine h.of_guarded (burst_after (by rw [hnext, hi]; rfl)) (by rw [hstand])
    (fun _ => by rw [hstand]) ?_
  cases h.guarded with
  | free hall hsound => exact .free (fun j => haway j (hall j)) (by rw [hstand]; exact hsound)
  | held k burst' entry' hk hentry hsame hall =>
    have hki : k ≠ i := by
      rintro rfl
      rw [hi] at hk
      cases hk
    refine .held k burst' entry' ?_ hentry (by rw [hstand]; exact hsame)
      fun j hj => haway j (hall j hj)
    rw [modes_after_ne ⟨i, q, a⟩ hki, hstand]
    exact hk

theorem Settled.enter {cleared : Option Channel} {held : Reservation} (h : s.Settled false)
    (hi : s.modes i = .away burst cleared) :
    (s.after (κ := κ) ⟨i, .enter, held⟩).Settled true := by
  cases h.guarded with
  | free hall hsound =>
    have hself : (s.after (κ := κ) ⟨i, .enter, held⟩).modes i =
        .inside burst s.standing s.standing := by
      rw [modes_after_self ⟨i, _, _⟩, hi]
      rfl
    refine h.of_guarded (burst_after (by rw [hi]; rfl)) rfl (fun _ => rfl)
      (.held i burst s.standing hself hsound rfl fun j hj => ?_)
    rw [modes_after_ne ⟨i, _, _⟩ hj]
    exact hall j

/-- What is done under the lock, short of giving it up, concerns nobody else. -/
theorem Settled.inside (h : s.Settled locked) (hi : s.modes i = .inside burst entry now)
    (hallow : (s.modes i).Allows q) (hq : ∀ held, q ≠ .leave held) :
    (s.after ⟨i, q, a⟩).Settled (q.lockAfter locked) := by
  obtain ⟨rfl, rfl, hentry, hsame, hall⟩ := h.guarded.of_inside hi
  have hlock : q.lockAfter true = true := by
    cases q <;> first | rfl | exact absurd rfl (hq _)
  have hnext : (s.modes i).next s.standing q a =
      .inside burst entry (s.standing.after q a) := by
    rw [hi]
    cases q <;> first | rfl | exact absurd rfl (hq _)
  have hres : (s.standing.after q a).reservation = s.standing.reservation :=
    Standing.reservation_after hq a
  rw [hlock]
  refine h.of_guarded (burst_after (by rw [hnext, hi]; rfl)) hres (fun hone => ?_)
    (.held i burst entry ?_ hentry (hsame.trans hres.symm) fun j hj => ?_)
  · refine Standing.armed_after (fun channel hq => ?_) a
    rw [hi, hq] at hallow
    exact hallow (by rw [hsame, hone])
  · rw [modes_after_self ⟨i, q, a⟩, hnext]
    rfl
  · rw [modes_after_ne ⟨i, q, a⟩ hj]
    exact hall j hj

theorem modes_after_leave {held : Reservation} (hi : s.modes i = .inside burst entry now) :
    (s.after (κ := κ) ⟨i, .leave held, ()⟩).modes i =
      .away (Mode.opened burst entry held) none := by
  rw [modes_after_self ⟨i, _, _⟩, hi]
  rfl

theorem Guarded.leave {held : Reservation} (h : s.Guarded locked)
    (hi : s.modes i = .inside burst entry now)
    (hsound : Standing.Sound { now with reservation := held }) :
    (s.after (κ := κ) ⟨i, .leave held, ()⟩).Guarded false := by
  obtain ⟨-, rfl, -, -, hall⟩ := h.of_inside hi
  refine .free (fun j => ?_) hsound
  by_cases hj : j = i
  · subst hj
    rw [modes_after_leave hi]
    trivial
  · rw [modes_after_ne ⟨i, _, _⟩ hj]
    exact hall j hj

/-- Whoever leaves while no burst of somebody else is under way is the only one that can have one
afterwards, which it has just opened. -/
theorem Settled.leave_alone {held : Reservation} (h : s.Settled locked)
    (hi : s.modes i = .inside burst entry now) (hleave : Mode.MayLeave burst entry now held)
    (hvacant : burst = none → entry.reservation.session ≠ .oneShot) :
    (s.after (κ := κ) ⟨i, .leave held, ()⟩).Settled false := by
  have hguarded := h.guarded.leave (κ := κ) hi hleave.sound
  obtain ⟨rfl, rfl, -, hsame, -⟩ := h.guarded.of_inside hi
  have hnone : ∀ j b, j ≠ i → (s.modes j).burst ≠ some b := by
    intro j b hj hb
    cases hburst : burst with
    | none =>
      refine hvacant hburst ?_
      rw [hsame, (h.token hb).1]
    | some b' => exact hj (h.alone hb (by rw [hi]; exact hburst))
  -- whatever burst there is afterwards is the one that was just opened
  have hopened : ∀ {j b}, ((s.after (κ := κ) ⟨i, .leave held, ()⟩).modes j).burst = some b →
      j = i ∧ (burst = none ∧ entry.reservation.session ≠ .oneShot ∧ held.session = .oneShot) ∧
        ⟨held.active, entry.reservation⟩ = b := by
    intro j b hb
    by_cases hj : j = i
    · subst hj
      rw [modes_after_leave hi] at hb
      exact ⟨rfl, by simpa [Mode.opened] using hb⟩
    · rw [modes_after_ne ⟨i, _, _⟩ hj] at hb
      exact absurd hb (hnone j b hj)
  constructor
  case guarded => exact hguarded
  case token =>
    intro j b hb
    obtain ⟨-, ⟨-, -, hone⟩, rfl⟩ := hopened hb
    have hr : held = ⟨held.active, .oneShot⟩ := by rw [← hone]
    exact ⟨hr, congrArg Standing.armed (hleave.sound.eq_oneShot hr)⟩
  case found =>
    intro j b hb
    obtain ⟨-, ⟨-, hne, -⟩, rfl⟩ := hopened hb
    exact hne
  case alone =>
    intro j k b b' hb hb'
    exact (hopened hb).1.trans (hopened hb').1.symm
  case shown =>
    intro hone
    have hone' : held.session = .oneShot := hone
    refine ⟨i, ⟨held.active, entry.reservation⟩, ?_⟩
    rw [modes_after_leave hi]
    cases hburst : burst with
    | none => simp [Mode.opened, hvacant hburst, hone']
    | some b =>
      -- a burst that ends puts back no burst
      have hfound := h.found (i := i) (b := b) (by rw [hi, Mode.burst, hburst])
      rw [hleave.ends b hburst] at hone'
      exact absurd hone' hfound

theorem Settled.leave {held : Reservation} (h : s.Settled locked)
    (hi : s.modes i = .inside burst entry now) (hleave : Mode.MayLeave burst entry now held) :
    (s.after (κ := κ) ⟨i, .leave held, ()⟩).Settled false := by
  by_cases hother : burst = none ∧ entry.reservation.session = .oneShot
  · -- a burst of somebody else is under way, and the section has changed nothing
    obtain ⟨rfl, hone⟩ := hother
    have hguarded := h.guarded.leave (κ := κ) hi hleave.sound
    obtain ⟨-, -, -, hsame, -⟩ := h.guarded.of_inside hi
    refine h.of_guarded (burst_after ?_) ?_ (fun _ => ?_) hguarded
    · rw [hi]
      simp [Mode.next, Mode.opened, Mode.burst, hone]
    · exact (hleave.keeps rfl hone).trans hsame
    · rfl
  · exact h.leave_alone hi hleave fun hnone hone => hother ⟨hnone, hone⟩

/-- An exchange that the rules allow keeps the scene settled. -/
theorem Settled.after (h : s.Settled locked) (hallow : (s.modes i).Allows q)
    (hfree : q = .enter → locked = false) :
    (s.after ⟨i, q, a⟩).Settled (q.lockAfter locked) := by
  cases hi : s.modes i with
  | away burst cleared =>
    by_cases hq : q = .enter
    · subst hq
      obtain rfl := hfree rfl
      exact h.enter hi
    · exact h.away hi hallow hq
  | inside burst entry now =>
    by_cases hq : ∃ held, q = .leave held
    · obtain ⟨held, rfl⟩ := hq
      rw [hi] at hallow
      exact h.leave hi hallow
    · exact h.inside hi hallow fun held heq => hq ⟨held, heq⟩

/-- In a settled scene an answer that shows how things stand leads where the rules say. -/
theorem Settled.leads (h : s.Settled locked) (hfree : q = .enter → locked = false)
    (hshow : s.standing.Shows q a) :
    (s.modes i).Leads q a ((s.modes i).next s.standing q a) := by
  refine ⟨s.standing, ?_, rfl⟩
  cases hi : s.modes i with
  | inside burst entry now => cases q <;> trivial
  | away burst cleared =>
    cases q with
    | enter =>
      obtain rfl := hfree rfl
      cases h.guarded with
      | free hall hsound =>
        refine ⟨hsound, hshow.symm, fun b hb => ?_⟩
        rw [hshow]
        exact (h.token (i := i) (by rw [hi]; exact hb)).1
    | _ => trivial

end

/-! ## Orderly histories -/

/-- An exchange in its place: the question was allowed, nobody took a lock that was taken, and the
answer is what the scene shows. -/
structure Fits (s : Scene φ) (locked : Bool) (e : Exchange κ φ) : Prop where
  allowed : (s.modes e.caller).Allows e.question
  free : e.question = .enter → locked = false
  shown : s.standing.Shows e.question e.answer

/-- A history in which every exchange was in its place, and whether the lock is taken after it. -/
inductive Orderly : List (Exchange κ φ) → Bool → Prop where
  | nil : Orderly [] false
  | concat {history : List (Exchange κ φ)} {locked : Bool} {e : Exchange κ φ}
    (h : Orderly history locked) (hfits : (ofHistory history).Fits locked e) :
    Orderly (history ++ [e]) (e.question.lockAfter locked)

namespace Orderly

variable {history before later : List (Exchange κ φ)} {locked : Bool} {e : Exchange κ φ}

theorem settled (h : Orderly history locked) : (ofHistory history).Settled locked := by
  -- each exchange fits into the scene that the ones before it lead to
  induction h with
  | nil => exact settled_empty
  | concat h hfits ih =>
    rw [ofHistory_concat]
    exact ih.after hfits.allowed hfits.free

/-- Every exchange of an orderly history came to an orderly history. -/
theorem split (h : Orderly history locked) (hsplit : history = before ++ e :: later) :
    ∃ locked', Orderly before locked' ∧ (ofHistory before).Fits locked' e := by
  induction h generalizing later with
  | nil => simp at hsplit
  | concat h hfits ih =>
    rcases concat_eq_append_cons hsplit with ⟨rfl, rfl, -⟩ | ⟨later', -, hbefore⟩
    · exact ⟨_, h, hfits⟩
    · exact ih hbefore

theorem init (h : Orderly (history ++ [e]) locked) :
    ∃ locked', Orderly history locked' ∧ (ofHistory history).Fits locked' e :=
  h.split rfl

end Orderly

end Scene

end SharedAdc.Controller
