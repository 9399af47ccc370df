/-
Programs that keep the rules, put together from operations of the controller and from questions that
concern something beside it.
-/
import SharedAdc.Proofs.Crew.Watched
import SharedAdc.Proofs.Watch.Commands

namespace SharedAdc.Controller

variable {κ φ ρ α β : Type}

/-- A party that has found a channel armed before can do all that one can do that has not. -/
theorem Behaves.again {p : Operation κ φ α} (h : Behaves p) (cleared : Option Channel) :
    p.Obeys conduct (.away none cleared) fun _ mode => ∃ cleared', mode = .away none cleared' := by
  unfold Behaves at h
  induction p with
  | done a => exact ⟨cleared, rfl⟩
  | ask q next ih =>
    obtain ⟨hallow, hnext⟩ := h
    refine ⟨?_, ?_⟩
    · cases q with
      | hardware call =>
        rcases hallow with hcal | ⟨c, -, hc | ⟨-, hc⟩⟩
        · exact .inl hcal
        · cases hc
        · cases hc
      | enter | armed | frameCounts | note => exact hallow
      | leave | arm | installCallback | clearCallback | resetFrameCounts => exact hallow.elim
    · rintro a _ ⟨s, hmeets, rfl⟩
      -- what is found armed is forgotten where a section begins, and found anew
      cases q with
      | enter => exact hnext a _ ⟨s, hmeets, rfl⟩
      | armed => exact hnext a _ ⟨s, trivial, rfl⟩
      | _ => exact ih a (hnext a _ ⟨s, trivial, rfl⟩)

namespace Setting

variable {S : Setting κ φ} {custom : Custom φ} {last : View φ}

/-- The questions of the controller are put to it in these words. -/
def Wording (S : Setting κ φ)
    (reword : (q : Controller.Question κ φ) → Program S.Question S.Answer (Controller.Answer q)) :
    Prop :=
  ∀ {T : Type} (rules : Rules (Controller.Question κ φ) Controller.Answer T) (free : T → Prop)
    q mode post, (Program.query q : Operation κ φ (Controller.Answer q)).Obeys rules mode post →
      (reword q).Obeys (rules.through S.concern free) mode post

namespace Keeps

theorem done {a : α} {post : α → View φ → Prop} (h : post a last) :
    S.Keeps custom (.done a) last post := fun cleared => ⟨cleared, last, rfl, h⟩

theorem mono {p : Program S.Question S.Answer α} {post post' : α → View φ → Prop}
    (h : S.Keeps custom p last post) (himp : ∀ a v, post a v → post' a v) :
    S.Keeps custom p last post' := by
  intro cleared
  refine (h cleared).mono ?_
  rintro a _ ⟨cleared', last', rfl, hpost⟩
  exact ⟨cleared', last', rfl, himp a last' hpost⟩

theorem bind {p : Program S.Question S.Answer α} {f : α → Program S.Question S.Answer β}
    {post : α → View φ → Prop} {post' : β → View φ → Prop} (h : S.Keeps custom p last post)
    (hf : ∀ a v, post a v → S.Keeps custom (f a) v post') :
    S.Keeps custom (p.bind f) last post' := by
  intro cleared
  rw [Program.obeys_bind]
  refine (h cleared).mono ?_
  rintro a _ ⟨cleared', last', rfl, hpost⟩
  exact hf a last' hpost cleared'

/-- What is asked beside the controller tells nothing of it. -/
theorem beside {q : S.Question} (hq : S.concern q = none)
    {f : S.Answer q → Program S.Question S.Answer α} {post : α → View φ → Prop}
    (h : ∀ a, S.Keeps custom (f a) last post) :
    S.Keeps custom ((Program.query q).bind f) last post := by
  intro cleared
  unfold rules
  rw [Program.obeys_bind, Program.obeys_query_through_none hq]
  exact ⟨trivial, fun a => h a cleared⟩

/-- An operation that behaves ends as it does for a party that keeps watch. -/
theorem operate {reword} (hword : S.Wording reword) {p : Operation κ φ α} (hp : Behaves p)
    {post : α → View φ → Prop}
    (h : p.Obeys (watch custom) (.away last) fun a outlook =>
      ∃ last', outlook = .away last' ∧ post a last') :
    S.Keeps custom (p.lift reword) last post := by
  intro cleared
  refine Program.Obeys.lift (hword _ _) ((hp.again cleared).both h |>.mono ?_)
  rintro a ⟨_, _⟩ ⟨⟨cleared', rfl⟩, last', rfl, hpost⟩
  exact ⟨cleared', last', rfl, hpost⟩

/-- An operation that ends as agreed. -/
theorem operate_ends {reword} (hword : S.Wording reword) {p : Operation κ φ α} (hp : Behaves p)
    {deal : α → View φ → View φ → Prop}
    (h : p.Obeys (watch custom) (.away last) (custom.Ends last deal)) :
    S.Keeps custom (p.lift reword) last fun a v' => ∃ v, custom.relies last v ∧ deal a v v' := by
  refine operate hword hp (h.mono ?_)
  rintro a _ ⟨v, v', hv, hdeal, rfl⟩
  exact ⟨v', rfl, v, hv, hdeal⟩

/-- A session stays as it is while samples are calibrated, and what goes wrong is the hardware's
fault. -/
theorem calibrate {reword} (hword : S.Wording reword) (config : Config) (channel : Channel)
    (attenuation : Attenuation) (samples : List UInt16) :
    S.Keeps custom ((Controller.calibrate config channel attenuation samples).lift reword) last
      fun r v => v = last ∧ ∀ e, r.1 = .error e → samples = [] ∨ e.requiresReinit = true := by
  refine operate hword (calibrate_behaves config channel attenuation samples) ?_
  refine (calibrate_watched config channel attenuation samples).mono ?_
  rintro r _ ⟨rfl, hfault⟩
  exact ⟨last, rfl, rfl, hfault⟩

end Keeps

end Setting

end SharedAdc.Controller
