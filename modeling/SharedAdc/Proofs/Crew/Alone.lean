/-
A single party with nobody beside it. What lies behind the calls is then followed along with what the
party knows, from one program to the next.
-/
import SharedAdc.Proofs.Crew.Watched

namespace SharedAdc.Controller

variable {κ φ ρ : Type}

namespace Outlook

/-- Whether a call that can fail was made since the lock was taken. -/
def tried : Outlook φ → Bool
  | .away _ => false
  | .inside _ tried => tried

theorem tried_of_leads {custom : Custom φ} {outlook next : Outlook φ} {q : Question κ φ}
    {a : Answer q} (h : outlook.Leads custom q a next) :
    next.tried = false ∨ next.tried = (outlook.tried || q.tries) := by
  cases outlook with
  | away last =>
    cases q with
    | enter =>
      obtain ⟨v, -, -, -, -, rfl⟩ := h
      exact .inl rfl
    | armed =>
      obtain ⟨v, -, -, rfl⟩ := h
      exact .inl rfl
    | _ =>
      obtain rfl := h
      exact .inl rfl
  | inside now tried =>
    cases q with
    | leave held =>
      obtain rfl := h
      exact .inl rfl
    | _ =>
      obtain rfl := h
      exact .inr rfl

end Outlook

/-! ## At rest -/

/-- What lies behind the calls goes along with the view, where the calls come in turn. -/
structure Setting.Fitting (S : Setting κ φ) (fits : S.State → View φ → Bool → Prop) : Prop where
  forget : ∀ {s v tried}, fits s v tried → fits s v false
  beside : ∀ {s v q}, S.concern q = none → fits s v false → fits ((S.answer q).run s).2 v false
  answers : ∀ {s v tried q c}, S.concern q = some c →
    (∀ call, c.1 = .hardware call → v.paths.Admits call ∧ v.Awaits tried call) →
    fits s v tried → fits ((S.answer q).run s).2 (v.after c.1 (c.2 ((S.answer q).run s).1))
      (tried || c.1.tries)

/-- Nobody is under the lock, no burst is under way, and `v` is the view of the controller. -/
structure Setting.Rests (S : Setting κ φ) (pact : Pact φ) (fits : S.State → View φ → Bool → Prop)
    (s : S.State) (v : View φ) : Prop where
  standing : (S.shared s).standing v.paths = v.toStanding
  free : (S.shared s).locked = false
  sound : v.Sound
  vacant : v.session ≠ .oneShot
  fair : pact.fair v.reservation
  fits : fits s v false

variable {S : Setting κ φ} {pact : Pact φ} {fits : S.State → View φ → Bool → Prop}

theorem Setting.Rests.of_same {s s' : S.State} {v : View φ} (h : S.Rests pact fits s v)
    (hsame : (S.shared s).Same (S.shared s')) (hfits : fits s' v false) :
    S.Rests pact fits s' v where
  standing := (hsame.standing _).trans h.standing
  free := hsame.locked.trans h.free
  sound := h.sound
  vacant := h.vacant
  fair := h.fair
  fits := hfits

namespace Crew

variable {posts : Nat → ρ → View φ → Prop} {c : Crew S ρ} {g : Ghost φ}

/-- A party that starts at rest is watched. -/
theorem watched_rests {s : S.State} {v : View φ} {p : S.Party ρ} (h : S.Rests pact fits s v)
    (hp : S.Keeps pact.leader p v (posts 0)) :
    Watched pact.customs posts (⟨s, [p]⟩ : Crew S ρ)
      ⟨v, fun _ => .away none none, fun _ => .away v⟩ where
  standing := h.standing
  settled := by
    rw [h.free]
    refine ⟨.free (fun _ => trivial) h.sound, ?_, ?_, ?_, fun hone => absurd hone h.vacant⟩
    all_goals
      intro i
      intros
      contradiction
  fair i := by
    cases i with
    | zero => exact h.fair
    | succ i => exact h.fair
  keeps {i p'} hi := by
    cases i with
    | zero =>
      cases hi
      exact hp none
    | succ i => cases hi
  sees _ := (pact.customs _).refl v
  absent _ _ := rfl

namespace Watched

/-- A party that is alone does not meet a lock that is taken. -/
theorem free_of_alone {p : S.Party ρ} (h : Watched pact.customs posts c g)
    (hparties : c.parties = [p]) (hallow : (g.modes 0).Allows (.enter : Question κ φ)) :
    (S.shared c.state).locked = false := by
  have hguarded := h.settled.guarded
  generalize (S.shared c.state).locked = locked at hguarded
  cases hguarded with
  | free => rfl
  | held i burst entry hi =>
    have hmode : g.modes i = .inside burst entry _ := hi
    cases i with
    | zero =>
      rw [hmode] at hallow
      exact hallow.elim
    | succ i =>
      rw [h.absent (i + 1) (by simp [hparties])] at hmode
      cases hmode

/-- A call that a party may make is in order, and comes in turn. -/
theorem admits_of_allows (h : Watched pact.customs posts c g) {i : Nat} (hi : i < c.parties.length)
    {call : HardwareCall κ} (hmode : (g.modes i).Allows (.hardware call : Question κ φ))
    (hlook : (g.outlooks i).Allows (pact.customs i) (.hardware call : Question κ φ)) :
    g.view.paths.Admits call ∧ g.view.Awaits (g.outlooks i).tried call := by
  have hsees := h.sees hi
  cases hm : g.modes i with
  | away burst cleared =>
    -- outside the lock there are only conversions and calibrations
    rw [hm] at hmode
    rcases hmode with ⟨-, hcal⟩ | ⟨channel, rfl, -⟩
    · cases call <;> first | exact ⟨trivial, trivial⟩ | exact hcal.elim
    · exact ⟨trivial, trivial⟩
  | inside burst entry now =>
    obtain ⟨-, hnow, -⟩ := h.settled.guarded.of_inside (i := i) hm
    obtain rfl : now = g.view.toStanding := hnow
    rw [hm] at hmode hsees
    cases ho : g.outlooks i with
    | away last =>
      rw [ho] at hsees
      exact hsees.elim
    | inside view tried =>
      rw [ho] at hsees hlook
      obtain rfl : view = g.view := hsees
      exact ⟨hmode.1, hlook.2.1 call rfl⟩

/-- What lies behind the calls goes along with a question of the only party. -/
theorem answered_alone (hfit : S.Fitting fits) (h : Watched pact.customs posts c g)
    {q : S.Question} {next : S.Answer q → S.Party ρ} (hparties : c.parties = [.ask q next])
    (hfits : fits c.state g.view (g.outlooks 0).tried) :
    ∃ g', Watched pact.customs posts (c.answered 0 q next) g' ∧
      fits (c.answered 0 q next).state g'.view (g'.outlooks 0).tried := by
  have hlt : 0 < c.parties.length := by simp [hparties]
  have hi : c.parties[0]? = some (.ask q next) := by simp [hparties]
  cases hput : S.concern q with
  | none =>
    have hallow := (h.keeps hi).1
    have haway : (g.modes 0).IsAway := by
      rw [Setting.rules, Rules.allows_through_none hput] at hallow
      exact hallow
    have hsees := h.sees hlt
    have htried : (g.outlooks 0).tried = false := by
      cases hm : g.modes 0 with
      | inside burst entry now =>
        rw [hm] at haway
        exact haway.elim
      | away burst cleared =>
        rw [hm] at hsees
        cases ho : g.outlooks 0 with
        | away last => rfl
        | inside now tried =>
          rw [ho] at hsees
          exact hsees.elim
    refine ⟨g, h.answered_beside hi hput, ?_⟩
    rw [htried] at hfits ⊢
    exact hfit.beside hput hfits
  | some put =>
    obtain ⟨q', shown⟩ := put
    obtain ⟨hmode, hlook⟩ : (g.modes 0).Allows q' ∧ (g.outlooks 0).Allows (pact.customs 0) q' :=
      (Rules.allows_through_some hput).1 (h.keeps hi).1
    have hfree : q' = .enter → (S.shared c.state).locked = false := by
      rintro rfl
      exact h.free_of_alone hparties hmode
    have hcalls : ∀ call, q' = .hardware call →
        g.view.paths.Admits call ∧ g.view.Awaits (g.outlooks 0).tried call := by
      rintro call rfl
      exact h.admits_of_allows hlt hmode hlook
    obtain ⟨outlook, hleads, hnext⟩ := h.answered_put pact.compatible hi hput hfree
    refine ⟨_, hnext, ?_⟩
    rw [Ghost.outlooks_after_self]
    have hafter := hfit.answers hput hcalls hfits
    rcases Outlook.tried_of_leads hleads with hnone | hsame
    · rw [hnone]
      exact hfit.forget hafter
    · rw [hsame]
      exact hafter

/-- The only party is followed to its end. -/
theorem run_alone (hfit : S.Fitting fits) (p : S.Party ρ) (h : Watched pact.customs posts c g)
    (hparties : c.parties = [p]) (hfits : fits c.state g.view (g.outlooks 0).tried) :
    ∃ g', Watched pact.customs posts
        ⟨((p.run S.answer).run c.state).2, [.done ((p.run S.answer).run c.state).1]⟩ g' ∧
      fits ((p.run S.answer).run c.state).2 g'.view (g'.outlooks 0).tried := by
  induction p generalizing c g with
  | done a =>
    obtain ⟨state, parties⟩ := c
    obtain rfl : parties = [.done a] := hparties
    exact ⟨g, h, hfits⟩
  | ask q next ih =>
    obtain ⟨g', hwatched, hfits'⟩ := h.answered_alone hfit hparties hfits
    refine ih _ hwatched ?_ hfits'
    rw [Crew.answered, hparties]
    rfl

end Watched

end Crew

/-- A program that is run alone starts at rest and ends at rest, as its rules say. -/
theorem Setting.Keeps.alone (hfit : S.Fitting fits) {s : S.State} {v : View φ} {p : S.Party ρ}
    {post : ρ → View φ → Prop} (hrests : S.Rests pact fits s v) (h : S.Keeps pact.leader p v post) :
    ∃ last v', S.Rests pact fits ((p.run S.answer).run s).2 v' ∧ pact.changes last v' ∧
      post ((p.run S.answer).run s).1 last := by
  have hstart : Crew.Watched pact.customs (fun _ => post) (⟨s, [p]⟩ : Crew S ρ)
      ⟨v, fun _ => .away none none, fun _ => .away v⟩ := Crew.watched_rests hrests h
  obtain ⟨g, hg, hfits⟩ := hstart.run_alone hfit p rfl hrests.fits
  obtain ⟨-, last, hlast, hpost⟩ := hg.finished (i := 0) rfl
  obtain ⟨hfree, hvacant⟩ := hg.quiet fun i hi => by
    obtain rfl : i = 0 := Nat.lt_one_iff.1 hi
    rfl
  exact ⟨last, g.view, ⟨hg.standing, hfree, hg.sound hfree, hvacant, hg.fair 0,
    hfit.forget hfits⟩, hlast, hpost⟩

end SharedAdc.Controller
