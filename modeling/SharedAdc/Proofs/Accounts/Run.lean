/-
The accounts of the callers of a controller, by its history. In every run an account agrees with
where the conduct of its caller has led, so each operation goes on by the rules of its account, and
is finished as its command ends.
-/
import SharedAdc.Proofs.Accounts.Commands
import SharedAdc.Proofs.Callers.Following
import SharedAdc.Proofs.Callers.Isolation

namespace SharedAdc.Controller

variable {κ φ : Type} {machine : Machine κ} {i : Nat}

/-! ## Accounts in a history -/

/-- The call to the hardware that an exchange is, with its reply. -/
def Exchange.call? : Exchange κ φ → Option (AnsweredCall κ)
  | ⟨_, .hardware call, reply⟩ => some ⟨call, reply⟩
  | _ => none

/-- The calls to the hardware that caller `i` has made in a history. -/
def callsOf (i : Nat) (history : List (Exchange κ φ)) : List (AnsweredCall κ) :=
  (history.filter fun e => e.caller = i).filterMap Exchange.call?

namespace Account

/-- The account of caller `i` in a history. -/
def of (i : Nat) (history : List (Exchange κ φ)) : Account κ φ :=
  (history.filter fun e => e.caller = i).foldl (fun a e => a.after e.question e.answer) {}

section

variable {history before later : List (Exchange κ φ)} {e : Exchange κ φ}

theorem of_concat (i : Nat) (history : List (Exchange κ φ)) (e : Exchange κ φ) :
    of i (history ++ [e]) =
      if e.caller = i then (of i history).after e.question e.answer else of i history := by
  by_cases h : e.caller = i <;> simp [of, h]

theorem of_concat_self (history : List (Exchange κ φ)) (e : Exchange κ φ) :
    of e.caller (history ++ [e]) = (of e.caller history).after e.question e.answer := by
  rw [of_concat, if_pos rfl]

theorem of_concat_ne (h : e.caller ≠ i) : of i (history ++ [e]) = of i history := by
  rw [of_concat, if_neg h]

theorem calls_of (i : Nat) (history : List (Exchange κ φ)) :
    (of i history).calls = callsOf i history := by
  induction history using List.reverseRecOn with
  | nil => rfl
  | append_singleton history e ih =>
    by_cases he : e.caller = i
    · have hcalls : callsOf i (history ++ [e]) =
          callsOf i history ++ [e].filterMap Exchange.call? := by
        rw [callsOf, callsOf, List.filter_append, List.filterMap_append,
          List.filter_cons_of_pos (by simpa using he), List.filter_nil]
      subst he
      rw [of_concat_self, hcalls, ← ih]
      obtain ⟨j, q, answer⟩ := e
      cases q <;> simp [after, Exchange.call?]
    · rw [of_concat_ne he, ih]
      simp [callsOf, he]

/-- Who has asked nothing has an empty account. -/
theorem of_eq_empty (h : ∀ e ∈ history, e.caller ≠ i) : of i history = {} := by
  have hnil : history.filter (fun e => e.caller = i) = [] :=
    List.filter_eq_nil_iff.2 fun e he => by simpa using h e he
  rw [of, hnil]
  rfl

/-- The account of a caller starts with its first question. -/
theorem of_concat_first (h : ∀ e ∈ history, e.caller ≠ i) (q : Question κ φ) (answer : Answer q) :
    of i (history ++ [⟨i, q, answer⟩]) = ({} : Account κ φ).after q answer := by
  rw [of_concat_self history ⟨i, q, answer⟩, of_eq_empty h]

/-- What every answer keeps, the rest of a history keeps. -/
theorem of_append_induction {P : Account κ φ → Prop}
    (hstep : ∀ (a : Account κ φ) (q : Question κ φ) (answer : Answer q), P a → P (a.after q answer))
    (h : P (of i before)) : P (of i (before ++ later)) := by
  induction later using List.reverseRecOn with
  | nil => rwa [List.append_nil]
  | append_singleton later e ih =>
    rw [← List.append_assoc, of_concat]
    split
    · exact hstep _ _ _ ih
    · exact ih

end

/-! ## What accounts keep -/

theorem quiet_of_after {a : Account κ φ} {q : Question κ φ} {answer : Answer q}
    (h : (a.after q answer).quiet = true) : a.quiet = true := by
  cases q with
  | leave held => exact (Bool.and_eq_true_iff.1 h).1
  | arm | installCallback | clearCallback | resetFrameCounts => cases h
  | _ => exact h

/-- What was found is what was met as the lock was taken for the first time. -/
theorem found_after (a : Account κ φ) (q : Question κ φ) (answer : Answer q) :
    (a.after q answer).found = a.found ∧ q ≠ .enter ∨
      ∃ held, (⟨i, q, answer⟩ : Exchange κ φ) = ⟨i, .enter, held⟩ ∧
        (a.after q answer).found = a.found.or (some held) := by
  cases q with
  | enter => exact .inr ⟨answer, rfl, rfl⟩
  | _ => exact .inl ⟨rfl, by simp⟩

theorem ne_enter_of_found {history : List (Exchange κ φ)} (h : (of i history).found = none) :
    ∀ e ∈ history, e.caller = i → e.question ≠ .enter := by
  induction history using List.reverseRecOn with
  | nil => simp
  | append_singleton history e ih =>
    intro e' he' hcaller
    by_cases he : e.caller = i
    · subst he
      rw [of_concat_self] at h
      rcases found_after (i := e.caller) (of e.caller history) e.question e.answer with
        ⟨hfound, hne⟩ | ⟨held, -, hfound⟩
      · rcases List.mem_append.1 he' with hmem | hlast
        · exact ih (hfound.symm.trans h) e' hmem hcaller
        · rw [List.mem_singleton.1 hlast]
          exact hne
      · rw [hfound] at h
        cases hnone : (of e.caller history).found <;> simp [hnone] at h
    · rw [of_concat_ne he] at h
      rcases List.mem_append.1 he' with hmem | hlast
      · exact ih h e' hmem hcaller
      · rw [List.mem_singleton.1 hlast] at hcaller
        exact absurd hcaller he

/-- The exchange in which a caller took the lock for the first time. -/
theorem exists_first {history : List (Exchange κ φ)} {found : Reservation}
    (h : (of i history).found = some found) :
    ∃ before later, history = before ++ ⟨i, .enter, found⟩ :: later ∧
      ∀ e ∈ before, e.caller = i → e.question ≠ .enter := by
  induction history using List.reverseRecOn with
  | nil => cases h
  | append_singleton history e ih =>
    have hearlier : (of i history).found = some found → ∃ before later,
        history ++ [e] = before ++ ⟨i, .enter, found⟩ :: later ∧
          ∀ e ∈ before, e.caller = i → e.question ≠ .enter := by
      intro hfound
      obtain ⟨before, later, rfl, hbefore⟩ := ih hfound
      exact ⟨before, later ++ [e], by simp, hbefore⟩
    by_cases he : e.caller = i
    · subst he
      rw [of_concat_self] at h
      rcases found_after (i := e.caller) (of e.caller history) e.question e.answer with
        ⟨hfound, -⟩ | ⟨held, heq, hfound⟩
      · exact hearlier (hfound.symm.trans h)
      · rw [hfound] at h
        cases hbefore : (of e.caller history).found with
        | some r =>
          rw [hbefore] at h
          exact hearlier (hbefore.trans h)
        | none =>
          rw [hbefore] at h
          cases h
          exact ⟨history, [], by rw [← heq], ne_enter_of_found hbefore⟩
    · rw [of_concat_ne he] at h
      exact hearlier h

/-- The exchange in which a caller gave up the lock for the last time. -/
theorem exists_last {history : List (Exchange κ φ)} {held : Reservation}
    (h : (of i history).left.head? = some held) :
    ∃ before later, history = before ++ ⟨i, .leave held, ()⟩ :: later ∧
      ∀ e ∈ later, ¬ e.IsLeaveOf i := by
  induction history using List.reverseRecOn with
  | nil => cases h
  | append_singleton history e ih =>
    by_cases he : e.caller = i
    · subst he
      rw [of_concat_self] at h
      obtain ⟨i, q, answer⟩ := e
      cases q with
      | leave held' =>
        cases h
        exact ⟨history, [], rfl, by simp⟩
      | _ => exact exists_last_concat (ih h) fun hleave => by cases hleave.2
    · rw [of_concat_ne he] at h
      exact exists_last_concat (ih h) fun hleave => he hleave.1

end Account

/-! ## Accounts and conduct -/

/-- The standing that a caller under the lock came to. -/
def Mode.entry : Mode φ → Option (Standing φ)
  | .away _ _ => none
  | .inside _ entry _ => some entry

namespace Account

/-- The account shows where the conduct of its caller has led. -/
structure Agrees (a : Account κ φ) (mode : Mode φ) : Prop where
  entry : a.entry = mode.entry.map Standing.reservation
  burst : a.burst = mode.burst.map Burst.mask

theorem agrees_empty : ({} : Account κ φ).Agrees (.away none none) := ⟨rfl, rfl⟩

theorem Agrees.opened {a : Account κ φ} {burst : Option Burst} {entry now : Standing φ}
    (h : a.Agrees (.inside burst entry now)) (held : Reservation) :
    a.opened held = (Mode.opened burst entry held).map Burst.mask := by
  have hentry : a.entry = some entry.reservation := h.entry
  have hburst : a.burst = burst.map Burst.mask := h.burst
  unfold Account.opened Mode.opened
  rw [hentry, hburst]
  cases burst with
  | some b => simp
  | none =>
    by_cases hopens : entry.reservation.session ≠ .oneShot ∧ held.session = .oneShot
    · simp [hopens]
    · rw [if_neg (by simpa using hopens), if_neg (by simpa using hopens)]
      rfl

/-- An allowed question and its answer keep the account in agreement. -/
theorem Agrees.after {a : Account κ φ} {mode : Mode φ} (h : a.Agrees mode) {q : Question κ φ}
    (hallow : mode.Allows q) {answer : Answer q} {s : Standing φ}
    (hmeets : mode.Meets s q answer) :
    (a.after q answer).Agrees (mode.next s q answer) := by
  cases mode with
  | away burst cleared =>
    cases q with
    | enter =>
      obtain ⟨-, rfl, -⟩ := hmeets
      exact ⟨rfl, h.burst⟩
    | leave | arm | installCallback | clearCallback | resetFrameCounts => exact hallow.elim
    | _ => exact ⟨h.entry, h.burst⟩
  | inside burst entry now =>
    cases q with
    | leave held => exact ⟨rfl, h.opened held⟩
    | enter => exact hallow.elim
    | _ => exact ⟨h.entry, h.burst⟩

variable {history : List (Exchange κ φ)} {locked : Bool}

theorem agrees (h : Scene.Orderly history locked) (i : Nat) :
    (of i history).Agrees ((Scene.ofHistory history).modes i) := by
  induction h with
  | nil => exact agrees_empty
  | @concat history locked e h hfits ih =>
    rw [Scene.ofHistory_concat]
    by_cases he : e.caller = i
    · subst he
      obtain ⟨s, hmeets, hnext⟩ := h.settled.leads hfits.free hfits.shown
      rw [of_concat_self, Scene.modes_after_self, hnext]
      exact ih.after hfits.allowed hmeets
    · rw [of_concat_ne he, Scene.modes_after_ne e (Ne.symm he)]
      exact ih

/-- Under the lock a caller meets a proper reservation, and that of its burst if it has one. -/
theorem meets {e : Exchange κ φ} (h : Scene.Orderly history locked)
    (hfits : (Scene.ofHistory history).Fits locked e) :
    (of e.caller history).Meets e.question e.answer := by
  obtain ⟨i, q, answer⟩ := e
  cases q with
  | enter =>
    obtain ⟨s, hmeets, -⟩ := h.settled.leads (i := i) hfits.free hfits.shown
    have hburst := (agrees h i).burst
    have hallow := hfits.allowed
    cases hi : (Scene.ofHistory history).modes i with
    | inside burst entry now =>
      simp only [hi] at hallow
      exact hallow.elim
    | away burst cleared =>
      simp only [hi] at hmeets
      rw [hi] at hburst
      obtain ⟨hsound, rfl, hown⟩ := hmeets
      refine ⟨hsound.proper, fun mask hmask => ?_⟩
      rw [hburst] at hmask
      obtain ⟨b, hb, rfl⟩ := Option.map_eq_some_iff.1 hmask
      exact hown b hb
  | _ => trivial

/-- While a caller is under the lock, whoever else asks does so from outside of it. -/
theorem alone_inside {e : Exchange κ φ} (h : Scene.Orderly (history ++ [e]) locked)
    (he : e.caller ≠ i) : (of i history).entry = none ∨
      ∃ burst cleared, (Mode.away burst cleared : Mode φ).Allows e.question := by
  obtain ⟨locked', hbefore, hfits⟩ := h.init
  have hentry := (agrees hbefore i).entry
  cases hi : (Scene.ofHistory history).modes i with
  | away burst cleared =>
    rw [hi] at hentry
    exact .inl hentry
  | inside burst entry now =>
    obtain ⟨-, -, -, -, haway⟩ := hbefore.settled.guarded.of_inside hi
    have hallow := hfits.allowed
    have hother := haway e.caller he
    cases hmode : (Scene.ofHistory history).modes e.caller with
    | inside => rw [hmode] at hother; exact hother.elim
    | away burst cleared =>
      rw [hmode] at hallow
      exact .inr ⟨burst, cleared, hallow⟩

end Account

/-! ## Runs -/

namespace World

/-- What holds of the accounts of a world all the time. -/
structure Accounted (config : Config) (w : World machine φ) : Prop where
  kept : w.Kept
  /-- What is left of every operation goes on by its account. -/
  ends : ∀ {i : Nat} {caller : Caller κ φ}, w.callers[i]? = some caller →
    caller.rest.Obeys (accounting caller.command) (Account.of i w.history)
      (caller.command.Ends config)
  /-- Every question was put by a caller whose command it fits. -/
  fits : ∀ {before later : List (Exchange κ φ)} {e : Exchange κ φ},
    w.history = before ++ e :: later → ∃ caller, w.callers[e.caller]? = some caller ∧
      caller.command.Fits (Account.of e.caller before) e.question

variable {config : Config} {w : World machine φ}

/-- Keeping accounts is a way to follow the callers. -/
def accounts (config : Config) : Follower κ φ (Account κ φ) where
  rules _ := accounting
  mode := Account.of
  ends := Command.Ends config

theorem accounts_fits (config : Config) : (accounts config : Follower κ φ _).Fits config where
  starts {i history} command hnew := by
    show Program.Obeys _ _ (Account.of i history) _
    rw [Account.of_eq_empty hnew]
    exact operation_ends config command
  leads {_ history _ e _} horderly _ _ := by
    obtain ⟨locked, hbefore, hfits⟩ := horderly.init
    exact ⟨Account.meets hbefore hfits, Account.of_concat_self history e⟩
  others _ _ he := Account.of_concat_ne he

theorem accounted_iff : w.Accounted config ↔ w.Followed (accounts config) :=
  ⟨fun h => ⟨h.kept, h.ends, fun _ _ _ => h.fits⟩, fun h => ⟨h.kept, h.rest, fun hsplit =>
    h.allowed hsplit⟩⟩

theorem Accounted.run (h : w.Accounted config) (actions : List (Action machine φ)) :
    (w.run config actions).Accounted config :=
  accounted_iff.2 ((accounted_iff.1 h).run (accounts_fits config) actions)

theorem accounted_run (config : Config) (memory : machine.Memory)
    (actions : List (Action machine φ)) : ((new memory).run config actions).Accounted config :=
  accounted_iff.2 ((followed_new _ memory).run (accounts_fits config) actions)

end World

end SharedAdc.Controller
