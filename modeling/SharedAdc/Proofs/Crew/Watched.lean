/-
A crew whose parties keep the rules of conduct and keep watch. What each of them counts on is what
the others keep to, so that at any time the present view is one that it could count on from what it
saw last, and a party that has finished has come to what its own steps and the others' customs
allow.
-/
import SharedAdc.Proofs.Callers.Run
import SharedAdc.Proofs.Crew.Basic
import SharedAdc.Proofs.Watch.Basic

namespace SharedAdc.Controller

variable {κ φ ρ : Type}

/-! ## Customs that go together -/

/-- What a party keeps to is what every other one counts on. -/
structure Custom.Compatible (customs : Nat → Custom φ) : Prop where
  relies : ∀ {i j v v'}, i ≠ j → (customs i).keeps v v' → (customs j).relies v v'
  fair : ∀ {i r} j, (customs i).fair r → (customs j).fair r

/-- An agreement between the first party of a crew and all others: the first one does as it pleases,
and the others change only so much. -/
structure Pact (φ : Type) where
  changes : View φ → View φ → Prop
  fair : Reservation → Prop
  trans : ∀ {u v w}, changes u v → changes v w → changes u w
  of_steady : ∀ {v v'}, v.Steady v' → changes v v'
  fair_of_ne : ∀ {r : Reservation}, r.session ≠ .reserved → fair r

namespace Pact

/-- The others only make bursts. -/
def steady : Pact φ where
  changes := View.Steady
  fair _ := True
  trans := View.Steady.trans
  of_steady := id
  fair_of_ne _ := trivial

/-- The others only make bursts and fresh starts, and nobody reserves in advance. -/
def ebbing : Pact φ where
  changes := View.Ebbing
  fair r := r.session ≠ .reserved
  trans := View.Ebbing.trans
  of_steady := View.Steady.ebbing
  fair_of_ne := id

variable (pact : Pact φ)

/-- The custom of the first party. -/
def leader : Custom φ where
  relies := pact.changes
  keeps _ _ := True
  fair := pact.fair
  trans := pact.trans
  relies_of_steady := pact.of_steady
  keeps_of_steady _ := trivial
  fair_of_ne := pact.fair_of_ne

/-- The custom of all others. -/
def other : Custom φ where
  relies _ _ := True
  keeps := pact.changes
  fair := pact.fair
  trans _ _ := trivial
  relies_of_steady _ := trivial
  keeps_of_steady := pact.of_steady
  fair_of_ne := pact.fair_of_ne

def customs : Nat → Custom φ
  | 0 => pact.leader
  | _ + 1 => pact.other

theorem leader_free : pact.leader.Free := fun _ _ => trivial

theorem compatible : Custom.Compatible pact.customs where
  relies {i j v v'} hij h := by
    cases j with
    | succ j => exact trivial
    | zero =>
      cases i with
      | zero => exact absurd rfl hij
      | succ i => exact h
  fair {i r} j h := by
    cases i <;> cases j <;> exact h

end Pact

/-- What a party knows: from outside the lock it can tell what it would find, and under the lock it
knows how things are. -/
def Custom.Sees (custom : Custom φ) (view : View φ) : Mode φ → Outlook φ → Prop
  | .away _ _, .away last => custom.relies last view
  | .inside _ _ _, .inside now _ => now = view
  | _, _ => False

/-- The rules of a party in given surroundings. What is beside the controller is not asked under the
lock. -/
def Setting.rules (S : Setting κ φ) (custom : Custom φ) :
    Rules S.Question S.Answer (Mode φ × Outlook φ) :=
  (conduct.both (watch custom)).through S.concern fun mode => mode.1.IsAway

/-- A program keeps the rules from outside the lock, having seen `last`. It ends there, with no
burst under way, in what `post` says of its result and of what it saw last. -/
def Setting.Keeps (S : Setting κ φ) {α : Type} (custom : Custom φ) (p : Program S.Question S.Answer α)
    (last : View φ) (post : α → View φ → Prop) : Prop :=
  ∀ cleared, p.Obeys (S.rules custom) (.away none cleared, .away last) fun a mode =>
    ∃ cleared' last', mode = (.away none cleared', .away last') ∧ post a last'

/-! ## Single exchanges -/

section

variable {custom : Custom φ} {view : View φ} {mode : Mode φ} {outlook : Outlook φ}
  {q : Question κ φ} {a : Answer q}

/-- Nothing that is asked from outside the lock changes the view. -/
theorem View.after_of_away {burst : Option Burst} {cleared : Option Channel}
    (h : (Mode.away burst cleared : Mode φ).Allows q) (a : Answer q) : view.after q a = view := by
  have hstanding := Standing.after_of_away (s := view.toStanding) h a
  have htable : (view.after q a).table = view.table := by
    cases q with
    | hardware call =>
      rcases h with ⟨-, h⟩ | ⟨c, rfl, -⟩
      · cases call <;> first | rfl | exact h.elim
      · rfl
    | _ => rfl
  show (⟨view.toStanding.after q a, (view.after q a).table⟩ : View φ) = view
  rw [hstanding, htable]

/-- A step leaves everything alone, or keeps to the custom. -/
theorem Custom.Sees.step (h : custom.Sees view mode outlook) (hmode : mode.Allows q)
    (houtlook : outlook.Allows custom q) (a : Answer q) :
    view.after q a = view ∨ custom.keeps view (view.after q a) := by
  cases mode with
  | away burst cleared => exact .inl (View.after_of_away hmode a)
  | inside burst entry now =>
    cases outlook with
    | away last => exact h.elim
    | inside now tried =>
      obtain rfl : now = view := h
      exact .inr (houtlook.1 a)

/-- What is left behind is fair. -/
theorem Custom.Sees.fair (h : custom.Sees view mode outlook) (hmode : mode.Allows q)
    (houtlook : outlook.Allows custom q) (hfair : custom.fair view.reservation) (a : Answer q) :
    custom.fair (view.after q a).reservation := by
  by_cases hleave : ∃ held, q = .leave held
  · obtain ⟨held, rfl⟩ := hleave
    cases mode with
    | away burst cleared => exact hmode.elim
    | inside burst entry now =>
      cases outlook with
      | away last => exact h.elim
      | inside now tried => exact houtlook.2.2 held rfl
  · show custom.fair (view.toStanding.after q a).reservation
    rw [Standing.reservation_after fun held he => hleave ⟨held, he⟩]
    exact hfair

/-- With an answer that shows how things are, a party goes on to know how they are. -/
theorem Custom.Sees.next (h : custom.Sees view mode outlook) (hmode : mode.Allows q)
    (hsound : q = .enter → view.Sound) (hfair : custom.fair view.reservation)
    (hshow : view.Shows q a) :
    ∃ outlook', outlook.Leads custom q a outlook' ∧
      custom.Sees (view.after q a) (mode.next view.toStanding q a) outlook' := by
  cases mode with
  | away burst cleared =>
    cases outlook with
    | inside now tried => exact h.elim
    | away last =>
      have hlast : custom.relies last view := h
      have hsame : view.after q a = view := View.after_of_away hmode a
      rw [hsame]
      cases q with
      | enter => exact ⟨_, ⟨view, hlast, hsound rfl, hfair, hshow.symm, rfl⟩, rfl⟩
      | armed => exact ⟨_, ⟨view, hlast, hshow.symm, rfl⟩, custom.refl view⟩
      | _ => exact ⟨.away last, rfl, hlast⟩
  | inside burst entry now =>
    cases outlook with
    | away last => exact h.elim
    | inside now tried =>
      obtain rfl : now = view := h
      cases q with
      | leave held => exact ⟨_, rfl, custom.refl _⟩
      | _ => exact ⟨_, rfl, rfl⟩

end

/-! ## Crews -/

/-- How things are with a crew: the view of the controller, where every party is and what it knows.
None of this is part of the crew itself. -/
structure Ghost (φ : Type) where
  view : View φ
  modes : Nat → Mode φ
  outlooks : Nat → Outlook φ

namespace Ghost

variable {g : Ghost φ} {i j : Nat} {q : Question κ φ} {a : Answer q} {outlook : Outlook φ}

/-- The scene that the parties are in. -/
def scene (g : Ghost φ) : Scene φ := ⟨g.view.toStanding, g.modes⟩

/-- How things are after a question of party `i` was answered, which knows `outlook` from then
on. -/
def after (g : Ghost φ) (i : Nat) (q : Question κ φ) (a : Answer q) (outlook : Outlook φ) :
    Ghost φ where
  view := g.view.after q a
  modes := Function.update g.modes i ((g.modes i).next g.view.toStanding q a)
  outlooks := Function.update g.outlooks i outlook

theorem modes_after_self :
    (g.after i q a outlook).modes i = (g.modes i).next g.view.toStanding q a :=
  Function.update_self ..

theorem outlooks_after_self : (g.after i q a outlook).outlooks i = outlook :=
  Function.update_self ..

theorem modes_after_ne (h : j ≠ i) : (g.after i q a outlook).modes j = g.modes j :=
  Function.update_of_ne h ..

theorem outlooks_after_ne (h : j ≠ i) : (g.after i q a outlook).outlooks j = g.outlooks j :=
  Function.update_of_ne h ..

end Ghost

namespace Crew

variable {S : Setting κ φ} {customs : Nat → Custom φ} {posts : Nat → ρ → View φ → Prop}

/-- What holds of a crew all the time. -/
structure Watched (customs : Nat → Custom φ) (posts : Nat → ρ → View φ → Prop) (c : Crew S ρ)
    (g : Ghost φ) : Prop where
  standing : (S.shared c.state).standing g.view.paths = g.view.toStanding
  settled : g.scene.Settled (S.shared c.state).locked
  fair : ∀ i, (customs i).fair g.view.reservation
  /-- What is left of every program keeps the rules. -/
  keeps : ∀ {i : Nat} {p : S.Party ρ}, c.parties[i]? = some p →
    p.Obeys (S.rules (customs i)) (g.modes i, g.outlooks i) fun a mode =>
      ∃ cleared last, mode = (.away none cleared, .away last) ∧ posts i a last
  sees : ∀ {i}, i < c.parties.length → (customs i).Sees g.view (g.modes i) (g.outlooks i)
  absent : ∀ i, c.parties.length ≤ i → g.modes i = .away none none

namespace Watched

variable {c : Crew S ρ} {g : Ghost φ}

/-! ## What is known of a crew -/

theorem sound (h : Watched customs posts c g) (hfree : (S.shared c.state).locked = false) :
    g.view.Sound := by
  have hguarded := h.settled.guarded
  rw [hfree] at hguarded
  cases hguarded with
  | free haway hsound => exact hsound

/-- A party that has finished could count on how things are. -/
theorem finished (h : Watched customs posts c g) {i : Nat} {a : ρ} (hi : c.result? i = some a) :
    (∃ cleared, g.modes i = .away none cleared) ∧
      ∃ last, (customs i).relies last g.view ∧ posts i a last := by
  have hparty := parties_of_result hi
  have hsees := h.sees (List.getElem?_eq_some_iff.1 hparty).1
  obtain ⟨cleared, last, hmode, hpost⟩ := h.keeps hparty
  obtain ⟨hm, ho⟩ := Prod.mk.inj hmode
  rw [hm, ho] at hsees
  exact ⟨⟨cleared, hm⟩, last, hsees, hpost⟩

/-- Where everybody is finished, the lock is free and no burst is under way. -/
theorem quiet (h : Watched customs posts c g)
    (hquiet : ∀ i < c.parties.length, (c.result? i).isSome = true) :
    (S.shared c.state).locked = false ∧ g.view.session ≠ .oneShot := by
  have hmode : ∀ i, ∃ cleared, g.modes i = .away none cleared := by
    intro i
    rcases Nat.lt_or_ge i c.parties.length with hlt | hge
    · obtain ⟨a, ha⟩ := Option.isSome_iff_exists.1 (hquiet i hlt)
      exact (h.finished ha).1
    · exact ⟨none, h.absent i hge⟩
  refine ⟨?_, fun hone => ?_⟩
  · have hguarded := h.settled.guarded
    generalize (S.shared c.state).locked = locked at hguarded
    cases hguarded with
    | free => rfl
    | held i burst entry hi =>
      obtain ⟨cleared, hc⟩ := hmode i
      rw [show g.modes i = .inside burst entry _ from hi] at hc
      cases hc
  · obtain ⟨i, b, hb⟩ := h.settled.shown hone
    obtain ⟨cleared, hc⟩ := hmode i
    rw [show g.scene.modes i = g.modes i from rfl, hc] at hb
    cases hb

/-! ## Steps -/

/-- What happens beside the controller concerns nobody's watch. -/
theorem of_same (h : Watched customs posts c g) {state : S.State}
    (hsame : (S.shared c.state).Same (S.shared state)) :
    Watched customs posts { c with state } g where
  standing := (hsame.standing _).trans h.standing
  settled := by
    rw [hsame.locked]
    exact h.settled
  fair := h.fair
  keeps := h.keeps
  sees := h.sees
  absent := h.absent

theorem answered_beside (h : Watched customs posts c g) {i : Nat} {q : S.Question}
    {next : S.Answer q → S.Party ρ} (hi : c.parties[i]? = some (.ask q next))
    (hq : S.concern q = none) : Watched customs posts (c.answered i q next) g := by
  have hsame := h.of_same (S.beside c.state hq)
  refine ⟨hsame.standing, hsame.settled, h.fair, fun {j p} hj => ?_, fun {j} hj => ?_, fun j hj => ?_⟩
  · rcases parties_answered hi hj with ⟨rfl, rfl⟩ | ⟨-, hother⟩
    · exact (h.keeps hi).2 _ _ ((Rules.leads_through_none hq).2 rfl)
    · exact h.keeps hother
  · rw [length_answered] at hj
    exact h.sees hj
  · rw [length_answered] at hj
    exact h.absent j hj

/-- What the others know is what they could count on from a step of party `i`. -/
theorem sees_other (h : Watched customs posts c g) (hcompat : Custom.Compatible customs)
    {i j : Nat} {q : Question κ φ} {a : Answer q} (hmode : (g.modes i).Allows q)
    (hstep : g.view.after q a = g.view ∨ (customs i).keeps g.view (g.view.after q a))
    (hji : j ≠ i) (hj : j < c.parties.length) :
    (customs j).Sees (g.view.after q a) (g.modes j) (g.outlooks j) := by
  have hother := h.sees hj
  cases hm : g.modes j with
  | away burst cleared =>
    rw [hm] at hother
    cases ho : g.outlooks j with
    | inside now tried =>
      rw [ho] at hother
      exact hother.elim
    | away last =>
      rw [ho] at hother
      rcases hstep with hsame | hkeeps
      · rw [hsame]
        exact hother
      · exact (customs j).trans hother (hcompat.relies (Ne.symm hji) hkeeps)
  | inside burst entry now =>
    -- who is under the lock is alone there, so the step was made outside of it
    obtain ⟨-, -, -, -, hall⟩ := h.settled.guarded.of_inside (i := j) hm
    have haway := hall i (Ne.symm hji)
    have hsame : g.view.after q a = g.view := by
      cases hmi : g.modes i with
      | away burst cleared =>
        rw [hmi] at hmode
        exact View.after_of_away hmode a
      | inside burst entry now =>
        rw [show g.scene.modes i = g.modes i from rfl, hmi] at haway
        exact haway.elim
    rw [hm] at hother
    rw [hsame]
    exact hother

/-- A party whose question to the controller is answered was allowed to ask it, and keeps to the
rules with the answer. -/
theorem answered_put (h : Watched customs posts c g) (hcompat : Custom.Compatible customs) {i : Nat}
    {q : S.Question} {next : S.Answer q → S.Party ρ} (hi : c.parties[i]? = some (.ask q next))
    {q' : Question κ φ} {shown : S.Answer q → Answer q'} (hput : S.concern q = some ⟨q', shown⟩)
    (hfree : q' = .enter → (S.shared c.state).locked = false) :
    ∃ outlook,
      (g.outlooks i).Leads (customs i) q' (shown ((S.answer q).run c.state).1) outlook ∧
      Watched customs posts (c.answered i q next)
        (g.after i q' (shown ((S.answer q).run c.state).1) outlook) := by
  have hlt := (List.getElem?_eq_some_iff.1 hi).1
  obtain ⟨hmode, houtlook⟩ : (g.modes i).Allows q' ∧ (g.outlooks i).Allows (customs i) q' :=
    (Rules.allows_through_some hput).1 (h.keeps hi).1
  obtain ⟨hstanding, hlocked, hshows⟩ := S.answers c.state hput
  dsimp only at hstanding hlocked hshows
  generalize ha : shown ((S.answer q).run c.state).1 = a at hstanding hlocked hshows ⊢
  have hshow : g.view.Shows q' a := by
    rw [← h.standing]
    exact hshows _
  obtain ⟨outlook, hlook, hsees⟩ := (h.sees hlt).next hmode (fun he => h.sound (hfree he))
    (h.fair i) hshow
  have hstep := (h.sees hlt).step hmode houtlook a
  refine ⟨outlook, hlook, ?_, ?_, fun j => ?_, fun {j p} hj => ?_, fun {j} hj => ?_, fun j hj => ?_⟩
  · have hagrees := hstanding g.view.paths
    rw [h.standing] at hagrees
    exact hagrees
  · show Scene.Settled _ (S.shared ((S.answer q).run c.state).2).locked
    rw [hlocked]
    exact h.settled.after (i := i) (a := a) hmode hfree
  · exact hcompat.fair j ((h.sees hlt).fair hmode houtlook (h.fair i) a)
  · rcases parties_answered hi hj with ⟨rfl, rfl⟩ | ⟨hji, hother⟩
    · rw [Ghost.modes_after_self, Ghost.outlooks_after_self]
      refine (h.keeps hi).2 _ _ ((Rules.leads_through_some hput).2 ?_)
      dsimp only
      rw [ha]
      exact ⟨h.settled.leads hfree hshow, hlook⟩
    · rw [Ghost.modes_after_ne hji, Ghost.outlooks_after_ne hji]
      exact h.keeps hother
  · rw [length_answered] at hj
    by_cases hji : j = i
    · subst hji
      rw [Ghost.modes_after_self, Ghost.outlooks_after_self]
      exact hsees
    · rw [Ghost.modes_after_ne hji, Ghost.outlooks_after_ne hji]
      exact h.sees_other hcompat hmode hstep hji hj
  · rw [length_answered] at hj
    rw [Ghost.modes_after_ne (by omega)]
    exact h.absent j hj

theorem answered (h : Watched customs posts c g) (hcompat : Custom.Compatible customs) {i : Nat}
    {q : S.Question} {next : S.Answer q → S.Party ρ} (hi : c.parties[i]? = some (.ask q next))
    (hq : S.waits c.state q = false) : ∃ g', Watched customs posts (c.answered i q next) g' := by
  cases hput : S.concern q with
  | none => exact ⟨g, h.answered_beside hi hput⟩
  | some put =>
    obtain ⟨q', shown⟩ := put
    have hfree : q' = .enter → (S.shared c.state).locked = false := by
      rintro rfl
      unfold Setting.waits at hq
      rw [hput] at hq
      exact hq
    obtain ⟨outlook, -, hnext⟩ := h.answered_put hcompat hi hput hfree
    exact ⟨_, hnext⟩

theorem step (h : Watched customs posts c g) (hcompat : Custom.Compatible customs)
    (act : Action S) : ∃ g', Watched customs posts (c.step act) g' := by
  cases act with
  | happen event => exact ⟨g, h.of_same (S.events c.state event)⟩
  | advance i =>
    rcases c.advance_cases i with hsame | ⟨q, next, hi, hq, hnext⟩
    · rw [Crew.step, hsame]
      exact ⟨g, h⟩
    · rw [Crew.step, hnext]
      exact h.answered hcompat hi hq

end Watched

/-- A crew that starts on a controller nobody has used yet is watched throughout. -/
theorem watched_run (hcompat : Custom.Compatible customs) {c : Crew S ρ}
    (hnew : S.shared c.state = {})
    (hkeeps : ∀ {i : Nat} {p : S.Party ρ}, c.parties[i]? = some p →
      S.Keeps (customs i) p {} (posts i))
    (actions : List (Action S)) : ∃ g, Watched customs posts (c.run actions) g := by
  refine run_induction (P := fun c => ∃ g, Watched customs posts c g) ?_ ?_ actions
  · refine ⟨⟨{}, fun _ => .away none none, fun _ => .away {}⟩, ?_, ?_, fun i => ?_,
      fun hi => hkeeps hi none, fun _ => (customs _).refl _, fun _ _ => rfl⟩
    · rw [hnew]
      rfl
    · rw [hnew]
      exact Scene.settled_empty
    · exact (customs i).fair_of_ne (by simp [Reservation.idle])
  · rintro c act ⟨g, h⟩
    exact h.step hcompat act

end Crew

end SharedAdc.Controller
