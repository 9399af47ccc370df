/-
The hardware paths are never used side by side, and each that is opened is closed once. That holds
of the calls of all callers together, in the order in which they are made.
-/
import Mathlib.Data.List.Induction
import SharedAdc.Proofs.Callers.Run

namespace SharedAdc.Controller

variable {κ φ : Type} {machine : Machine κ}

/-! ## Openings and closings -/

namespace Exchange

def opensUnit : Exchange κ φ → Bool
  | ⟨_, .hardware .createOneShotUnit, .ok ()⟩ => true
  | _ => false

def closesUnit : Exchange κ φ → Bool
  | ⟨_, .hardware .deleteOneShotUnit, _⟩ => true
  | _ => false

def opensDriver : Exchange κ φ → Bool
  | ⟨_, .hardware (.createContinuous _ _), .ok ()⟩ => true
  | _ => false

def closesDriver : Exchange κ φ → Bool
  | ⟨_, .hardware .deinitContinuous, _⟩ => true
  | _ => false

end Exchange

namespace Paths

/-- Every call of a history was in order when it was made. -/
def Legal (history : List (Exchange κ φ)) : Prop :=
  ∀ ⦃before later : List (Exchange κ φ)⦄ ⦃e : Exchange κ φ⦄ ⦃call : HardwareCall κ⦄,
    history = before ++ e :: later → e.question = .hardware call → (ofHistory before).Admits call

theorem Legal.init {history : List (Exchange κ φ)} {e : Exchange κ φ}
    (h : Legal (history ++ [e])) : Legal history := by
  intro before later e' call hsplit hcall
  have hsplit' : history ++ [e] = before ++ e' :: (later ++ [e]) := by
    rw [hsplit, List.append_assoc, List.cons_append]
  exact h hsplit' hcall

section

variable {p : Paths} {e : Exchange κ φ}

/-- Only a closed unit is opened, and only an open one is closed. -/
theorem unit_afterExchange (h : ∀ call, e.question = .hardware call → p.Admits call) :
    p.unit.toNat + e.opensUnit.toNat = e.closesUnit.toNat + (p.afterExchange e).unit.toNat := by
  obtain ⟨i, q, a⟩ := e
  cases q with
  | hardware call =>
    have hadmits := h call rfl
    cases call with
    | createOneShotUnit =>
      have hclosed : p.unit = false := hadmits.1
      cases a <;> simp [Exchange.opensUnit, Exchange.closesUnit, afterExchange, after, hclosed]
    | deleteOneShotUnit =>
      have hopen : p.unit = true := hadmits
      simp [Exchange.opensUnit, Exchange.closesUnit, afterExchange, after, hopen]
    | createContinuous | startContinuous =>
      cases a <;> simp [Exchange.opensUnit, Exchange.closesUnit, afterExchange, after]
    | _ => simp [Exchange.opensUnit, Exchange.closesUnit, afterExchange, after]
  | _ => simp [Exchange.opensUnit, Exchange.closesUnit, afterExchange]

theorem driver_afterExchange (h : ∀ call, e.question = .hardware call → p.Admits call) :
    p.driver.isSome.toNat + e.opensDriver.toNat =
      e.closesDriver.toNat + (p.afterExchange e).driver.isSome.toNat := by
  obtain ⟨i, q, a⟩ := e
  cases q with
  | hardware call =>
    have hadmits := h call rfl
    cases call with
    | createContinuous =>
      have hclosed : p.driver = none := hadmits.2
      cases a <;> simp [Exchange.opensDriver, Exchange.closesDriver, afterExchange, after, hclosed]
    | deinitContinuous =>
      have hopen : p.driver.isSome = true := hadmits
      simp [Exchange.opensDriver, Exchange.closesDriver, afterExchange, after, hopen]
    | createOneShotUnit | startContinuous =>
      cases a <;> simp [Exchange.opensDriver, Exchange.closesDriver, afterExchange, after]
    | _ => simp [Exchange.opensDriver, Exchange.closesDriver, afterExchange, after]
  | _ => simp [Exchange.opensDriver, Exchange.closesDriver, afterExchange]

end

/-- What a single exchange balances, a legal history balances. -/
theorem Legal.balance {history : List (Exchange κ φ)} (h : Legal history)
    {opens closes : Exchange κ φ → Bool} {isOpen : Paths → Bool} (hclosed : isOpen {} = false)
    (hstep : ∀ {p : Paths} {e : Exchange κ φ},
      (∀ call, e.question = .hardware call → p.Admits call) →
      (isOpen p).toNat + (opens e).toNat = (closes e).toNat + (isOpen (p.afterExchange e)).toNat) :
    history.countP opens = history.countP closes + (isOpen (ofHistory history)).toNat := by
  -- on the history from its end: the last call was in order for what the earlier ones left open
  induction history using List.reverseRecOn with
  | nil =>
    show 0 = 0 + (isOpen {}).toNat
    rw [hclosed]
    rfl
  | append_singleton history e ih =>
    have hone : ∀ b : Bool, (if b = true then 1 else 0) = b.toNat := by decide
    have hlast := hstep (p := ofHistory history) (e := e) fun call => h rfl
    rw [List.countP_append, List.countP_append, List.countP_singleton, List.countP_singleton,
      ofHistory_concat, ih h.init, hone, hone]
    omega

end Paths

/-! ## Runs -/

/-- The paths of the hardware over all callers: every call is in order, what is open between the
sections under the lock is what the session needs, and nothing is opened twice, closed twice or
left behind. -/
structure World.Exclusive (w : World machine φ) : Prop where
  legal : Paths.Legal w.history
  unit : w.shared.locked = false → ((Paths.ofHistory w.history).unit = true ↔
    w.shared.reservation.session = .oneShot ∨
      ∃ c, w.shared.reservation.session = .timeCritical c)
  driver : w.shared.locked = false → ((Paths.ofHistory w.history).driver.isSome = true ↔
    w.shared.reservation.session = .continuous)
  unitBalance : w.history.countP Exchange.opensUnit =
    w.history.countP Exchange.closesUnit + (Paths.ofHistory w.history).unit.toNat
  driverBalance : w.history.countP Exchange.opensDriver =
    w.history.countP Exchange.closesDriver + (Paths.ofHistory w.history).driver.isSome.toNat

namespace World

theorem paths_scene (history : List (Exchange κ φ)) :
    (Scene.ofHistory history).standing.paths = .ofHistory history := by
  induction history using List.reverseRecOn with
  | nil => rfl
  | append_singleton history e ih =>
    rw [Scene.ofHistory_concat, Paths.ofHistory_concat, ← ih]
    obtain ⟨i, q, a⟩ := e
    cases q <;> rfl

theorem Kept.legal {w : World machine φ} (h : w.Kept) : Paths.Legal w.history := by
  intro before later e call hsplit hcall
  obtain ⟨locked, horderly, hfits⟩ := h.orderly.split hsplit
  have hallow := hfits.allowed
  rw [hcall] at hallow
  cases hi : (Scene.ofHistory before).modes e.caller with
  | away burst cleared =>
    -- conversions and calibrations are in order whatever is open
    rw [hi] at hallow
    rcases hallow with ⟨-, hcal⟩ | ⟨c, rfl, -⟩
    · cases call <;> first | exact hcal.elim | trivial
    · trivial
  | inside burst entry now =>
    -- under the lock a caller knows what is open
    rw [hi] at hallow
    obtain ⟨-, rfl, -⟩ := horderly.settled.guarded.of_inside hi
    rw [← paths_scene]
    exact hallow.1

/-- Whatever the callers ask for, whatever the hardware replies and in whatever order everybody
goes on, the paths are used exclusively. -/
theorem exclusive_run (config : Config) (memory : machine.Memory)
    (actions : List (Action machine φ)) :
    ((new memory).run config actions).Exclusive := by
  have hkept := kept_run config memory actions
  exact {
    legal := hkept.legal
    unit := fun hfree => (hkept.sound hfree).unit_iff
    driver := fun hfree => (hkept.sound hfree).driver_iff
    unitBalance := hkept.legal.balance rfl Paths.unit_afterExchange
    driverBalance := hkept.legal.balance rfl Paths.driver_afterExchange }

end World

end SharedAdc.Controller
