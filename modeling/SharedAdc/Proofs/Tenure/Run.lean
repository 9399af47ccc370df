/-
Who holds the unit in a run. The fitting is read off the history: what is armed in it is what is
armed in the controller, a channel is never armed but with a unit that is set up for it, and whoever
is under the lock knows the fitting as it is.
-/
import SharedAdc.Proofs.Accounts.Run
import SharedAdc.Proofs.Tenure.Commands

namespace SharedAdc.Controller

variable {κ φ : Type} {machine : Machine κ}

/-! ## The fitting in a history -/

/-- The fitting that a history leads to. -/
def Fitting.ofHistory (history : List (Exchange κ φ)) : Fitting :=
  history.foldl (fun f e => f.after e.caller e.question e.answer) {}

/-- Where caller `i` is after a history. -/
def Turn.of (i : Nat) (history : List (Exchange κ φ)) : Turn κ φ where
  account := .of i history
  fitting := if (Account.of i history).entry.isSome then some (.ofHistory history) else none

/-- Tenure is a way to follow the callers. -/
def tenures : Follower κ φ (Turn κ φ) where
  rules := tenure
  mode := Turn.of
  ends := Command.Reserves

namespace Fitting

variable {f : Fitting} {i : Nat} {q : Question κ φ}

theorem ofHistory_concat (history : List (Exchange κ φ)) (e : Exchange κ φ) :
    ofHistory (history ++ [e]) = (ofHistory history).after e.caller e.question e.answer := by
  simp [ofHistory]

/-- Nothing that is asked from outside the lock changes the fitting. -/
theorem after_of_away {burst : Option Burst} {cleared : Option Channel}
    (h : (Mode.away burst cleared : Mode φ).Allows q) (answer : Answer q) :
    f.after i q answer = f := by
  cases q with
  | hardware call =>
    rcases h with ⟨-, h⟩ | ⟨c, rfl, -⟩
    · cases call <;> first | rfl | exact h.elim
    · rfl
  | enter | armed | frameCounts | note => rfl
  | leave | arm | installCallback | clearCallback | resetFrameCounts => exact h.elim

theorem armed_after {s : Standing φ} (h : f.armed = s.armed) (answer : Answer q) :
    (f.after i q answer).armed = (s.after q answer).armed := by
  cases q with
  | hardware call =>
    cases call with
    | createOneShotUnit | configureOneShotChannel => cases answer <;> exact h
    | _ => exact h
  | arm channel => rfl
  | _ => exact h

/-- What is armed in the fitting is what is armed in the controller. -/
theorem armed_ofHistory (history : List (Exchange κ φ)) :
    (ofHistory history).armed = (Scene.ofHistory history).standing.armed := by
  induction history using List.reverseRecOn with
  | nil => rfl
  | append_singleton history e ih =>
    rw [ofHistory_concat, Scene.ofHistory_concat]
    exact armed_after ih _

end Fitting

/-! ## Who knows the fitting -/

/-- Whoever is under the lock has taken it and not given it up since. -/
theorem Scene.Orderly.entered_of_inside {history : List (Exchange κ φ)} {locked : Bool} {i : Nat}
    (h : Orderly history locked) {burst : Option Burst}
    {entry now : Standing φ} (hi : (ofHistory history).modes i = .inside burst entry now) :
    ∃ earlier within, history = earlier ++ ⟨i, .enter, entry.reservation⟩ :: within ∧
      ∀ e ∈ within, ¬ e.IsLeaveOf i := by
  induction history using List.reverseRecOn generalizing locked now with
  | nil => cases hi
  | append_singleton history e ih =>
    obtain ⟨locked', hbefore, hfits⟩ := h.init
    rw [ofHistory_concat] at hi
    by_cases he : e.caller = i
    · subst he
      obtain ⟨i, q, answer⟩ := e
      rw [modes_after_self ⟨i, q, answer⟩] at hi
      cases hmode : (ofHistory history).modes i with
      | away burst' cleared =>
        rw [hmode] at hi
        cases q with
        | enter =>
          cases hi
          have hshown : answer = (ofHistory history).standing.reservation := hfits.shown
          exact ⟨history, [], by rw [hshown], by simp⟩
        | _ => cases hi
      | inside burst' entry' now' =>
        rw [hmode] at hi
        cases q with
        | leave held => cases hi
        | _ =>
          cases hi
          exact exists_last_concat (ih hbefore hmode) fun hleave => by cases hleave.2
    · rw [modes_after_ne e (Ne.symm he)] at hi
      exact exists_last_concat (ih hbefore hi) fun hleave => he hleave.1

namespace Turn

variable {history : List (Exchange κ φ)} {locked : Bool} {i : Nat}

theorem fitting_of_inside (h : Scene.Orderly history locked) {burst : Option Burst}
    {entry now : Standing φ} (hi : (Scene.ofHistory history).modes i = .inside burst entry now) :
    (of i history).fitting = some (.ofHistory history) := by
  have hentry := (Account.agrees h i).entry
  rw [hi] at hentry
  simp [of, hentry, Mode.entry]

end Turn

theorem Turn.of_concat_self (history : List (Exchange κ φ)) (e : Exchange κ φ) :
    of e.caller (history ++ [e]) =
      (of e.caller history).next e.caller (.ofHistory history) e.question e.answer := by
  have haccount := Account.of_concat_self history e
  obtain ⟨i, q, answer⟩ := e
  simp only [of, next, haccount, Fitting.ofHistory_concat, mk.injEq, true_and]
  cases q with
  | enter => rfl
  | leave held => rfl
  | _ => exact (Option.map_if (f := fun f : Fitting => f.after i _ answer)).symm

/-- The exchanges that the rules of tenure allow keep the unit fit for the armed channel. -/
theorem Follower.Allowed.fit {history : List (Exchange κ φ)} {callers : List (Caller κ φ)}
    {locked : Bool} (h : tenures.Allowed callers history)
    (horderly : Scene.Orderly history locked) :
    (Fitting.ofHistory history).Fit := by
  induction history using List.reverseRecOn generalizing locked with
  | nil => exact Fitting.fit_of_disarmed rfl
  | append_singleton history e ih =>
    obtain ⟨locked', hbefore, hfits⟩ := horderly.init
    have hfit := ih h.init hbefore
    rw [Fitting.ofHistory_concat]
    cases hi : (Scene.ofHistory history).modes e.caller with
    | away burst cleared =>
      have hallow := hfits.allowed
      rw [hi] at hallow
      rw [Fitting.after_of_away hallow]
      exact hfit
    | inside burst entry now =>
      obtain ⟨caller, -, hallow⟩ := h rfl
      exact hallow.1 _ (Turn.fitting_of_inside hbefore hi) hfit e.answer

theorem tenures_fits (config : Config) : (tenures : Follower κ φ _).Fits config where
  starts {i history} command hnew := by
    have hturn : Turn.of i history = {} := by simp [Turn.of, Account.of_eq_empty hnew]
    show Program.Obeys _ _ (Turn.of i history) _
    rw [hturn]
    exact operation_tenure config i command
  leads {callers history _ e caller} horderly hallowed _ := by
    obtain ⟨locked, hbefore, hfits⟩ := horderly.init
    have hfit := hallowed.init.fit hbefore
    refine ⟨.ofHistory history, ?_, Turn.of_concat_self history e⟩
    have hmeets := Account.meets hbefore hfits
    obtain ⟨i, q, answer⟩ := e
    cases q with
    | enter =>
      -- with the lock free, what is armed is the channel of the session that is shown
      obtain rfl := hfits.free rfl
      have hshown : answer = (Scene.ofHistory history).standing.reservation := hfits.shown
      cases hbefore.settled.guarded with
      | free haway hsound =>
        refine ⟨hmeets, hfit, ?_⟩
        rw [Fitting.armed_ofHistory, hsound.armed_eq, hshown]
    | _ => trivial
  others {callers history _ e i} horderly _ he := by
    show Turn.mk _ _ = Turn.mk _ _
    rw [Account.of_concat_ne he, Fitting.ofHistory_concat]
    rcases Account.alone_inside horderly he with hnone | ⟨burst, cleared, hallow⟩
    · simp [hnone]
    · rw [Fitting.after_of_away hallow]

namespace World

/-- Whatever the callers ask for, whatever the hardware replies and in whatever order everybody goes
on, they keep the rules of tenure. -/
theorem tenured_run (config : Config) (memory : machine.Memory)
    (actions : List (Action machine φ)) : ((new memory).run config actions).Followed tenures :=
  (followed_new _ memory).run (tenures_fits config) actions

end World

end SharedAdc.Controller
