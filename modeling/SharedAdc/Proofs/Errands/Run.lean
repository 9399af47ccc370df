/-
The continuous driver in a run. How far it has come is read off the history, as is who has created it;
whoever is under the lock knows it as it is, and while the lock is free, it is given up or runs.
-/
import SharedAdc.Proofs.Accounts.Run
import SharedAdc.Proofs.Errands.Commands

namespace SharedAdc.Controller

variable {κ φ : Type} {machine : Machine κ}

/-! ## The driver in a history -/

namespace Driver

variable {d : Driver} {i : Nat} {q : Question κ φ}

/-- The driver that a history leads to. -/
def ofHistory (history : List (Exchange κ φ)) : Driver :=
  history.foldl (fun d e => d.after e.caller e.question e.answer) {}

theorem ofHistory_concat (history : List (Exchange κ φ)) (e : Exchange κ φ) :
    ofHistory (history ++ [e]) = (ofHistory history).after e.caller e.question e.answer := by
  simp [ofHistory]

/-- Nothing that is asked from outside the lock changes the driver. -/
theorem after_of_away {burst : Option Burst} {cleared : Option Channel}
    (h : (Mode.away burst cleared : Mode φ).Allows q) (answer : Answer q) :
    d.after i q answer = d := by
  cases q with
  | hardware call =>
    rcases h with ⟨-, h⟩ | ⟨c, rfl, -⟩
    · cases call <;> first | rfl | exact h.elim
    · rfl
  | _ => rfl

/-- What is open by the driver is open by the paths, and so is what was started. -/
theorem paths_driver (history : List (Exchange κ φ)) :
    (Paths.ofHistory history).driver = (ofHistory history).stage.map Stage.isStarted := by
  induction history using List.reverseRecOn with
  | nil => rfl
  | append_singleton history e ih =>
    have hmap : ∀ {f : Stage → Stage}, (∀ stage, (f stage).isStarted = stage.isStarted) →
        (Paths.ofHistory history).driver =
          ((ofHistory history).stage.map f).map Stage.isStarted := by
      intro f hf
      rw [ih, Option.map_map]
      congr 1
      funext stage
      exact (hf stage).symm
    have hconfigure : ∀ stage : Stage, stage.configure.isStarted = stage.isStarted := by
      intro stage
      cases stage <;> rfl
    have hregister : ∀ stage : Stage, stage.register.isStarted = stage.isStarted := by
      intro stage
      cases stage <;> rfl
    have hstop : ∀ stage : Stage, stage.stop.isStarted = stage.isStarted := by
      intro stage
      cases stage <;> rfl
    rw [ofHistory_concat, Paths.ofHistory_concat]
    obtain ⟨j, q, answer⟩ := e
    cases q with
    | hardware call =>
      cases call with
      | createOneShotUnit | createContinuous => cases answer <;> first | exact ih | rfl
      | configureContinuous => cases answer <;> first | exact ih | exact hmap hconfigure
      | registerFrameSlot => cases answer <;> first | exact ih | exact hmap hregister
      | startContinuous =>
        cases answer with
        | error fault => exact ih
        | ok =>
          show (Paths.ofHistory history).driver.map _ = _
          rw [ih]
          simp only [after, Option.map_map]
          rfl
      | stopContinuous => exact hmap hstop
      | deinitContinuous => rfl
      | _ => exact ih
    | _ => exact ih

end Driver

/-! ## Who knows the driver -/

namespace Errand

variable {history : List (Exchange κ φ)} {locked : Bool} {i : Nat}

/-- The contexts that caller `i` has opened in a history. -/
def contextsOf (i : Nat) (history : List (Exchange κ φ)) : List (κ × Range) :=
  (history.filter fun e => e.caller = i).foldl (fun contexts e => opened contexts e.question e.answer)
    []

/-- What caller `i` is about after a history. -/
def of (i : Nat) (history : List (Exchange κ φ)) : Errand κ where
  driver := if (Account.of i history).entry.isSome then some (.ofHistory history) else none
  contexts := contextsOf i history

theorem contextsOf_concat (history : List (Exchange κ φ)) (e : Exchange κ φ) :
    contextsOf i (history ++ [e]) = if e.caller = i then
      opened (contextsOf i history) e.question e.answer else contextsOf i history := by
  by_cases h : e.caller = i <;> simp [contextsOf, h]

/-- What was opened stays in the list. -/
theorem contextsOf_append {before later : List (Exchange κ φ)} {p : κ × Range}
    (h : p ∈ contextsOf i before) : p ∈ contextsOf i (before ++ later) := by
  induction later using List.reverseRecOn with
  | nil => rwa [List.append_nil]
  | append_singleton later e ih =>
    rw [← List.append_assoc, contextsOf_concat]
    split
    · unfold opened
      split
      · exact List.mem_cons_of_mem _ ih
      · exact ih
    · exact ih

theorem driver_of_inside (h : Scene.Orderly history locked) {burst : Option Burst}
    {entry now : Standing φ} (hi : (Scene.ofHistory history).modes i = .inside burst entry now) :
    (of i history).driver = some (.ofHistory history) := by
  have hentry := (Account.agrees h i).entry
  rw [hi] at hentry
  simp [of, hentry, Mode.entry]

theorem eq_of_driver {d : Driver} (h : (of i history).driver = some d) : d = .ofHistory history := by
  unfold of at h
  dsimp only at h
  split at h
  · exact (Option.some.inj h).symm
  · cases h

theorem of_concat_self (history : List (Exchange κ φ)) (e : Exchange κ φ) :
    of e.caller (history ++ [e]) =
      (of e.caller history).next e.caller (.ofHistory history) e.question e.answer := by
  have haccount := Account.of_concat_self history e
  have hcontexts := contextsOf_concat (i := e.caller) history e
  rw [if_pos rfl] at hcontexts
  obtain ⟨i, q, answer⟩ := e
  simp only [of, next, haccount, hcontexts, Driver.ofHistory_concat, mk.injEq, and_true]
  cases q with
  | enter => rfl
  | leave held => rfl
  | _ => exact (Option.map_if (f := fun d : Driver => d.after i _ answer)).symm

end Errand

/-- Making the calls of a command in order is a way to follow the callers. -/
def errands (config : Config) : Follower κ φ (Errand κ) where
  rules := errand config
  mode := Errand.of
  ends := Errand.Ends

section

variable {config : Config} {history : List (Exchange κ φ)} {callers : List (Caller κ φ)}
  {locked : Bool}

/-- No driver is stopped while the lock is free. -/
theorem Follower.Allowed.not_stopped (h : (errands config).Allowed callers history)
    (horderly : Scene.Orderly history locked) (hfree : locked = false) :
    (Driver.ofHistory history).stage ≠ some .stopped := by
  induction horderly with
  | nil => simp [Driver.ofHistory]
  | @concat history locked e hbefore hfits ih =>
    rw [Driver.ofHistory_concat]
    have hallow := hfits.allowed
    cases hi : (Scene.ofHistory history).modes e.caller with
    | away burst cleared =>
      rw [hi] at hallow
      rw [Driver.after_of_away hallow]
      obtain ⟨i, q, answer⟩ := e
      -- what is asked outside the lock leaves it free, unless it takes it
      refine ih h.init ?_
      cases q with
      | enter => cases hfree
      | leave held => exact hallow.elim
      | _ => exact hfree
    | inside burst entry now =>
      obtain ⟨rfl, -⟩ := hbefore.settled.guarded.of_inside hi
      obtain ⟨i, q, answer⟩ := e
      cases q with
      | leave held =>
        obtain ⟨caller, -, hsettled⟩ := h rfl
        exact hsettled _ (Errand.driver_of_inside hbefore hi)
      | _ => cases hfree

theorem errands_fits (config : Config) : (errands config : Follower κ φ _).Fits config where
  starts {i history} command hnew := by
    have hempty : Errand.of i history = {} := by
      have hnil : history.filter (fun e => e.caller = i) = [] :=
        List.filter_eq_nil_iff.2 fun e he => by simpa using hnew e he
      simp [Errand.of, Errand.contextsOf, Account.of_eq_empty hnew, hnil]
    show Program.Obeys _ _ (Errand.of i history) _
    rw [hempty]
    exact operation_errand config i command
  leads {callers history _ e caller} horderly hallowed _ := by
    obtain ⟨locked, hbefore, hfits⟩ := horderly.init
    refine ⟨.ofHistory history, ?_, Errand.of_concat_self history e⟩
    obtain ⟨i, q, answer⟩ := e
    cases q with
    | enter => exact hallowed.init.not_stopped hbefore (hfits.free rfl)
    | _ => trivial
  others {callers history _ e i} horderly _ he := by
    show Errand.mk _ _ = Errand.mk _ _
    rw [Account.of_concat_ne he, Driver.ofHistory_concat, Errand.contextsOf_concat, if_neg he]
    rcases Account.alone_inside horderly he with hnone | ⟨burst, cleared, hallow⟩
    · simp [hnone]
    · rw [Driver.after_of_away hallow]

end

namespace World

end World

end SharedAdc.Controller
