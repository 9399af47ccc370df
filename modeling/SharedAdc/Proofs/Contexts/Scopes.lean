/-
Calibration contexts as they are held. A scope holds its context from the creation to the deletion, and
whatever it contains gives back what it takes; so every caller holds its contexts in a stack, which is
empty at its end. Whatever was opened in a run was deleted, or is held by somebody.
-/
import Mathlib.Data.List.Perm.Basic
import SharedAdc.Proofs.Accounts.Steps
import SharedAdc.Proofs.Errands.Run

namespace SharedAdc.Controller

variable {κ φ α : Type} {machine : Machine κ} {config : Config} {command : Command φ}
variable {held : List κ} {i : Nat}

/-! ## Rules -/

/-- Whether the command converts codes in a context of its own. -/
def Command.calibrates : Command φ → Bool
  | .calibrate .. | .calibrateIndex .. | .convertInScope .. => true
  | _ => false

theorem Command.converts?_eq_none (h : command.calibrates = false) (config : Config) :
    command.converts? config = none := by
  cases command <;> first | rfl | cases h

/-- What a caller may ask who holds contexts, the latest first. It converts only in a context that it
holds, and deletes the latest. A calibration makes calls to the hardware and asks for nothing else. -/
def MayAskHolding (command : Command φ) (held : List κ) : Question κ φ → Prop
  | .hardware (.createCalibration _ _) => command.calibrates = true
  | .hardware (.applyCalibration context _) => context ∈ held
  | .hardware (.deleteCalibration context) => held.head? = some context
  | .hardware _ => True
  | _ => command.calibrates = false

/-- The contexts that are held after an answer. -/
def heldAfter (held : List κ) : (q : Question κ φ) → Answer q → List κ
  | .hardware (.createCalibration _ _), .ok context => context :: held
  | .hardware (.deleteCalibration _), _ => held.tail
  | _, _ => held

/-- The rules for the contexts of a caller. -/
def scoping (command : Command φ) : Rules (Question κ φ) Answer (List κ) where
  allows := MayAskHolding command
  leads held q answer held' := held' = heldAfter held q answer

/-- The operation gives back the contexts that it takes. -/
def Balanced (command : Command φ) (p : Operation κ φ α) (held : List κ) : Prop :=
  p.Obeys (scoping command) held fun _ held' => held' = held

theorem obeys_hardware_scoping (call : HardwareCall κ) (post : call.Reply → List κ → Prop) :
    (hardware call : Operation κ φ call.Reply).Obeys (scoping command) held post ↔
      MayAskHolding command held (.hardware call : Question κ φ) ∧
        ∀ reply, post reply (heldAfter held (.hardware call : Question κ φ) reply) := by
  refine (Program.obeys_query ..).trans (and_congr_right fun _ => ?_)
  constructor
  · intro h reply
    exact h reply _ rfl
  · rintro h reply _ rfl
    exact h reply

/-! ## Operations -/

/-- A scope whose body gives back what it takes does so as well, and its body finds the context of the
scope among those that are held. -/
theorem Balanced.withCalibration (hcommand : command.calibrates = true) (channel : Channel)
    (range : Range) {body : κ → Operation κ φ α}
    (h : ∀ context, Balanced command (body context) (context :: held)) :
    Balanced command (withCalibration channel range body) held := by
  unfold Balanced Controller.withCalibration
  simp only [Program.bind_eq, Program.obeys_bind]
  rw [obeys_hardware_scoping]
  refine ⟨hcommand, ?_⟩
  rintro (fault | context)
  · rfl
  · simp only [Program.obeys_bind]
    refine (h context).mono ?_
    rintro result _ rfl
    rw [obeys_hardware_scoping]
    exact ⟨rfl, fun deleted => rfl⟩

theorem convertEach_balanced {context : κ} (h : context ∈ held) (raws : List UInt16) :
    Balanced command (convertEach context raws : Operation κ φ _) held := by
  induction raws with
  | nil => rfl
  | cons raw raws ih =>
    unfold Balanced convertEach
    simp only [Program.bind_eq, Program.obeys_bind]
    rw [obeys_hardware_scoping]
    exact ⟨h, fun reply => ih⟩

theorem convertInScope_balanced (hcommand : command.calibrates = true) (channel : Channel)
    (range : Range) (raws : List UInt16) :
    Balanced command (convertInScope channel range raws : Operation κ φ _) held :=
  .withCalibration hcommand channel range fun _ => convertEach_balanced List.mem_cons_self raws

theorem calibrate_balanced (hcommand : command.calibrates = true) (channel : Channel)
    (attenuation : Attenuation) (samples : List UInt16) :
    Balanced command (calibrate config channel attenuation samples : Operation κ φ _) held := by
  unfold calibrate
  split
  · rfl
  · unfold Balanced
    simp only [Program.bind_eq, Program.obeys_bind]
    refine (convertInScope_balanced hcommand _ _ _).mono ?_
    rintro (fault | replies) _ rfl
    · rfl
    · dsimp only
      split <;> rfl

theorem calibrateIndex_balanced (hcommand : command.calibrates = true) (index : Nat)
    (attenuation : Attenuation) (samples : List UInt16) :
    Balanced command (calibrateIndex config index attenuation samples : Operation κ φ _) held := by
  unfold calibrateIndex
  split
  · rfl
  · exact calibrate_balanced hcommand _ attenuation samples

/-- The errand of a command that converts nothing is about no context. -/
theorem Balanced.of_errand {p : Operation κ φ α} {t : Errand κ} {post : α → Errand κ → Prop}
    (h : p.Obeys (errand config i command) t post) (hcommand : command.calibrates = false)
    (hnone : t.contexts = []) : Balanced command p held := by
  have hconverts := Command.converts?_eq_none hcommand config
  induction p generalizing t with
  | done a => rfl
  | ask q next ih =>
    obtain ⟨hallow, hnext⟩ := h
    have hplain : MayAskHolding command held q ∧ ∀ answer, heldAfter held q answer = held ∧
        Errand.opened t.contexts q answer = t.contexts := by
      cases q with
      | hardware call =>
        cases call with
        | createCalibration =>
          obtain ⟨codes, hcodes⟩ := hallow
          rw [hconverts] at hcodes
          cases hcodes
        | applyCalibration =>
          obtain ⟨codes, range, -, hcodes, -⟩ := hallow
          rw [hconverts] at hcodes
          cases hcodes
        | deleteCalibration =>
          obtain ⟨range, hopen⟩ := hallow
          rw [hnone] at hopen
          cases hopen
        | _ => exact ⟨trivial, fun _ => ⟨rfl, rfl⟩⟩
      | _ => exact ⟨hcommand, fun _ => ⟨rfl, rfl⟩⟩
    refine ⟨hplain.1, ?_⟩
    rintro answer _ rfl
    obtain ⟨hheld, hopened⟩ := hplain.2 answer
    rw [hheld]
    -- some driver is met under the lock, and nothing here depends on which
    have hmeets : Errand.Meets {} q := by
      cases q with
      | enter => exact nofun
      | _ => trivial
    exact ih answer (hnext answer _ ⟨{}, hmeets, rfl⟩) (hopened.trans hnone)

/-- The operation of every command gives back the contexts that it takes. -/
theorem operation_balanced (config : Config) (command : Command φ) :
    Balanced command (command.operation config : Operation κ φ Result) held := by
  cases hcommand : command.calibrates with
  | false => exact .of_errand (operation_errand config 0 command) hcommand rfl
  | true =>
    cases command with
    | calibrate channel attenuation samples =>
      exact (calibrate_balanced hcommand channel attenuation samples).map _ fun _ _ h => h
    | calibrateIndex index attenuation samples =>
      exact (calibrateIndex_balanced hcommand index attenuation samples).map _ fun _ _ h => h
    | convertInScope channel range raws =>
      exact (convertInScope_balanced hcommand channel range raws).map _ fun _ _ h => h
    | _ => cases hcommand

/-! ## Contexts in a history -/

/-- The context that an exchange opens. -/
def Exchange.opened? : Exchange κ φ → Option κ
  | ⟨_, .hardware (.createCalibration _ _), .ok context⟩ => some context
  | _ => none

/-- The context that an exchange deletes. -/
def Exchange.deleted? : Exchange κ φ → Option κ
  | ⟨_, .hardware (.deleteCalibration context), _⟩ => some context
  | _ => none

/-- The contexts that caller `i` holds after a history, the latest first. -/
def heldBy (i : Nat) (history : List (Exchange κ φ)) : List κ :=
  (history.filter fun e => e.caller = i).foldl (fun held e => heldAfter held e.question e.answer) []

section

variable {history : List (Exchange κ φ)} {e : Exchange κ φ} {callers : List (Caller κ φ)}

theorem heldBy_concat (i : Nat) (history : List (Exchange κ φ)) (e : Exchange κ φ) :
    heldBy i (history ++ [e]) =
      if e.caller = i then heldAfter (heldBy i history) e.question e.answer
      else heldBy i history := by
  by_cases h : e.caller = i <;> simp [heldBy, h]

theorem heldBy_of_new (hnew : ∀ e ∈ history, e.caller ≠ i) : heldBy i history = [] := by
  have hnil : history.filter (fun e => e.caller = i) = [] :=
    List.filter_eq_nil_iff.2 fun e he => by simpa using hnew e he
  rw [heldBy, hnil]
  rfl

/-- An allowed exchange moves a context from those that are held to those that are deleted, or adds one
that it opens to those that are held. -/
theorem held_perm_after (h : MayAskHolding command held e.question) :
    (held ++ e.opened?.toList).Perm (e.deleted?.toList ++ heldAfter held e.question e.answer) := by
  obtain ⟨j, q, answer⟩ := e
  have hplain : (held ++ []).Perm ([] ++ held) := by simp
  cases q with
  | hardware call =>
    cases call with
    | createCalibration =>
      cases answer with
      | error fault => exact hplain
      | ok context => exact List.perm_append_singleton context held
    | deleteCalibration context =>
      obtain ⟨rest, rfl⟩ : ∃ rest, held = context :: rest := List.head?_eq_some_iff.1 h
      show ((context :: rest) ++ []).Perm (context :: rest)
      rw [List.append_nil]
    | _ => exact hplain
  | _ => exact hplain

/-- Holding contexts in a stack is a way to follow the callers. -/
def scopes : Follower κ φ (List κ) where
  rules _ := scoping
  mode := heldBy
  ends _ _ held := held = []

theorem scopes_fits (config : Config) : (scopes : Follower κ φ (List κ)).Fits config where
  starts {i history} command hnew := by
    show Program.Obeys _ _ (heldBy i history) _
    rw [heldBy_of_new hnew]
    exact operation_balanced config command
  leads {_ history _ e _} _ _ _ := (heldBy_concat e.caller history e).trans (if_pos rfl)
  others {_ history _ e i} _ _ he := (heldBy_concat i history e).trans (if_neg he)

/-- Whatever a caller has opened it has deleted, or holds. -/
theorem Follower.Allowed.opened_perm (h : (scopes : Follower κ φ (List κ)).Allowed callers history)
    (i : Nat) :
    ((history.filter fun e => e.caller = i).filterMap Exchange.opened?).Perm
      ((history.filter fun e => e.caller = i).filterMap Exchange.deleted? ++ heldBy i history) := by
  induction history using List.reverseRecOn with
  | nil => rfl
  | append_singleton history e ih =>
    have hearlier := ih h.init
    by_cases he : e.caller = i
    · subst he
      obtain ⟨caller, -, hallow⟩ := h rfl
      have hconcat : ∀ f : Exchange κ φ → Option κ,
          ((history ++ [e]).filter fun e' => e'.caller = e.caller).filterMap f =
            ((history.filter fun e' => e'.caller = e.caller).filterMap f) ++ (f e).toList := by
        intro f
        cases hf : f e <;> simp [hf]
      rw [hconcat, hconcat, heldBy_concat, if_pos rfl, List.append_assoc]
      refine (hearlier.append_right _).trans ?_
      rw [List.append_assoc]
      exact (held_perm_after hallow).append_left _
    · rw [heldBy_concat, if_neg he]
      simpa [he] using hearlier

/-- A caller whose command converts nothing holds nothing. -/
theorem Follower.Allowed.heldBy_eq_nil
    (h : (scopes : Follower κ φ (List κ)).Allowed callers history) {caller : Caller κ φ}
    (hi : callers[i]? = some caller) (hcommand : caller.command.calibrates = false) :
    heldBy i history = [] := by
  induction history using List.reverseRecOn with
  | nil => rfl
  | append_singleton history e ih =>
    have hbefore := ih h.init
    rw [heldBy_concat]
    split
    · rename_i he
      obtain ⟨caller', hcaller, hallow⟩ := h rfl
      obtain rfl : caller = caller' := by
        rw [he, hi] at hcaller
        exact Option.some.inj hcaller
      replace hallow : MayAskHolding caller.command (heldBy e.caller history) e.question := hallow
      rw [he, hbefore] at hallow
      rw [hbefore]
      obtain ⟨j, q, answer⟩ := e
      cases q with
      | hardware call =>
        cases call with
        | createCalibration => exact absurd (hcommand.symm.trans hallow) (by simp)
        | deleteCalibration => cases hallow
        | _ => rfl
      | _ => rfl
    · exact hbefore

/-- A history sorted by its callers. -/
theorem perm_flatMap_callers {n : Nat} (h : ∀ e ∈ history, e.caller < n) :
    history.Perm ((List.range n).flatMap fun i => history.filter fun e => e.caller = i) := by
  induction n generalizing history with
  | zero =>
    obtain rfl := List.eq_nil_iff_forall_not_mem.2 fun e he => Nat.not_lt_zero _ (h e he)
    rfl
  | succ n ih =>
    -- the last caller apart from the others
    have hsplit := (List.filter_append_perm (fun e => decide (e.caller = n)) history).symm
    have hothers := @ih (history.filter fun e => !decide (e.caller = n)) fun e he => by
      obtain ⟨hmem, hne⟩ := List.mem_filter.1 he
      have hlt := h e hmem
      simp only [Bool.not_eq_true', decide_eq_false_iff_not] at hne
      omega
    have hsame : ∀ i ∈ List.range n,
        ((history.filter fun e => !decide (e.caller = n)).filter fun e => e.caller = i) =
          history.filter fun e => e.caller = i := by
      intro i hi
      rw [List.filter_filter]
      refine List.filter_congr fun e _ => ?_
      have hlt := List.mem_range.1 hi
      by_cases he : e.caller = i
      · simp [he, Nat.ne_of_lt hlt]
      · simp [he]
    rw [List.flatMap_congr hsame] at hothers
    rw [List.range_succ, List.flatMap_append, List.flatMap_singleton]
    exact (hsplit.trans (hothers.append_left _)).trans List.perm_append_comm

end

/-! ## Runs -/

namespace World

variable {w : World machine φ}

/-- A calibration of caller `i` is in progress. -/
def Calibrating (w : World machine φ) (i : Nat) : Prop :=
  ∃ caller, w.callers[i]? = some caller ∧ caller.command.calibrates = true ∧
    caller.isFinished = false ∧ ∃ e ∈ w.history, e.caller = i

/-- The contexts that were opened so far, in the order of their creation. -/
def openedContexts (w : World machine φ) : List κ := w.history.filterMap Exchange.opened?

/-- The contexts that were deleted so far. -/
def deletedContexts (w : World machine φ) : List κ := w.history.filterMap Exchange.deleted?

/-- The contexts that the callers hold. -/
def heldContexts (w : World machine φ) : List κ :=
  (List.range w.callers.length).flatMap fun i => heldBy i w.history

theorem scopes_run (config : Config) (memory : machine.Memory) (actions : List (Action machine φ)) :
    ((new memory).run config actions).Followed scopes :=
  (followed_new _ memory).run (scopes_fits config) actions

/-- Each context that was opened was deleted, or is held by just one caller. -/
theorem Followed.openedContexts_perm (h : w.Followed scopes) :
    w.openedContexts.Perm (w.deletedContexts ++ w.heldContexts) := by
  have hsorted := perm_flatMap_callers fun e he => h.allowed.caller_lt he
  have hby : ∀ f : Exchange κ φ → Option κ, (w.history.filterMap f).Perm
      ((List.range w.callers.length).flatMap fun i =>
        (w.history.filter fun e => e.caller = i).filterMap f) := by
    intro f
    have hmap := hsorted.filterMap f
    rwa [List.filterMap_flatMap] at hmap
  unfold openedContexts deletedContexts heldContexts
  refine (hby Exchange.opened?).trans ?_
  refine (List.Perm.flatMap_left _ fun i _ => h.allowed.opened_perm i).trans ?_
  refine (List.flatMap_append_perm ..).symm.trans ?_
  exact (hby Exchange.deleted?).symm.append_right _

/-- Only a calibration in progress holds a context. -/
theorem Followed.heldBy_eq_nil (h : w.Followed scopes) {i : Nat} (hi : ¬ w.Calibrating i) :
    heldBy i w.history = [] := by
  cases hcaller : w.callers[i]? with
  | none =>
    refine heldBy_of_new fun e he => ?_
    have hlt := h.allowed.caller_lt he
    have hge := List.getElem?_eq_none_iff.1 hcaller
    omega
  | some caller =>
    cases hcommand : caller.command.calibrates with
    | false => exact h.allowed.heldBy_eq_nil hcaller hcommand
    | true =>
      by_cases hasked : ∃ e ∈ w.history, e.caller = i
      · have hrest := h.rest hcaller
        cases hfinished : caller.isFinished with
        | false => exact absurd ⟨caller, hcaller, hcommand, hfinished, hasked⟩ hi
        | true =>
          obtain ⟨command, rest⟩ := caller
          cases rest with
          | done result => exact hrest
          | ask q next => cases hfinished
      · exact heldBy_of_new fun e he heq => hasked ⟨e, he, heq⟩

/-- A calibration never waits, so it comes to its end by itself. -/
theorem Followed.calibration_finishes (h : w.Followed scopes) (config : Config)
    {command : Command φ} {rest : Operation κ φ Result}
    (hi : w.callers[i]? = some ⟨command, rest⟩) (hcommand : command.calibrates = true) :
    ∃ n result, (w.run config (List.replicate n (.advance i))).callers[i]? =
      some ⟨command, .done result⟩ := by
  induction rest generalizing w with
  | done result => exact ⟨0, result, hi⟩
  | ask q next ih =>
    obtain ⟨hallow, -⟩ := h.rest hi
    have hfree : q.waits w.shared = false := by
      cases q with
      | enter => exact absurd (hcommand.symm.trans hallow) (by simp)
      | _ => rfl
    have hnext : (w.answered i command q next).callers[i]? =
        some ⟨command, next (w.answer q).1⟩ :=
      List.getElem?_set_self (List.getElem?_eq_some_iff.1 hi).1
    obtain ⟨n, result, hresult⟩ := ih _ (h.answered (scopes_fits config) hi hfree) hnext
    refine ⟨n + 1, result, ?_⟩
    rw [List.replicate_succ, run_cons]
    show ((w.advance i).run config _).callers[i]? = _
    rw [advance_eq hi hfree]
    exact hresult

end World

end SharedAdc.Controller
