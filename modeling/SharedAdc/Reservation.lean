/-
Who holds the unit. A request is granted when nothing is reserved, or when it names exactly the
reserved channels, which is how the owner of a session comes back to it. Every discipline goes
through the same rule.
-/
import SharedAdc.Error

namespace SharedAdc

/-- The discipline that owns the hardware path. -/
inductive Session where
  | idle
  /-- Channels are held, and no hardware path is set up yet. -/
  | reserved
  /-- A burst of one-shot conversions is under way. -/
  | oneShot
  | timeCritical (channel : Channel)
  | continuous
  deriving DecidableEq

/-- The name of the session. -/
def Session.name : Session → String
  | .idle => "Idle"
  | .reserved => "Reserved"
  | .oneShot => "OneShot"
  | .timeCritical channel => "TimeCritical(Ch" ++ toString channel.number ++ ")"
  | .continuous => "Continuous"

/-- The reserved channels and the session that holds them. -/
structure Reservation where
  active : Mask
  session : Session
  deriving DecidableEq

namespace Reservation

/-- Nothing is reserved. -/
def idle : Reservation := ⟨.empty, .idle⟩

def isIdle (r : Reservation) : Bool := r.active.isEmpty

/-- The refusal of a request that conflicts with the reservation. -/
def busy (r : Reservation) (requested : Mask) : AdcError := .resourceBusy r.active requested

/-- The refusal of a request to a session that the reservation does not show. -/
def mismatch (r : Reservation) (requested : Mask) : AdcError := .stateMismatch r.active requested

/-- Grants `requested`, with the session that held it beforehand: `idle` if the unit was free,
and the channels are then marked as reserved. -/
def grant (r : Reservation) (requested : Mask) : Except AdcError (Session × Reservation) :=
  if r.isIdle then .ok (.idle, ⟨requested, .reserved⟩)
  else if r.active = requested then .ok (r.session, r)
  else .error (r.busy requested)

theorem grant_idle (mask : Mask) : idle.grant mask = .ok (.idle, ⟨mask, .reserved⟩) := rfl

/-- The reservation after a grant of `mask` is undone that found it held by `prior`. -/
def before (mask : Mask) (prior : Session) : Reservation :=
  match prior with
  | .idle => idle
  | session => ⟨mask, session⟩

/-! ## Reserving without a controller -/

/-- Reserves `requested`, and says whether it is now held; an empty mask never is. -/
def tryReserve (r : Reservation) (requested : Mask) : Bool × Reservation :=
  if requested.isEmpty then (false, r)
  else match r.grant requested with
    | .ok (_, r') => (true, r')
    | .error _ => (false, r)

/-- Frees the unit if exactly `requested` is held, and says whether it was. -/
def tryRelease (r : Reservation) (requested : Mask) : Bool × Reservation :=
  if requested.isEmpty then (false, r)
  else if r.active = requested then (true, idle)
  else (false, r)

end Reservation

end SharedAdc
