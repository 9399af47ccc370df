/-
The one place through which the frames of a stream reach a callback. A frame that arrives while
no callback is installed is counted and dropped.
-/

namespace SharedAdc

/-- The slots that a driver can be told to route frames to. -/
inductive SlotName where
  /-- The slot of the controller. -/
  | controller
  /-- A slot beside it, by its number, in which no callback is ever installed. -/
  | spare (number : Nat)
  deriving DecidableEq

/-- The frame slot: the installed callback, and the frames since the session began. -/
structure FrameSlot (φ : Type) where
  callback : Option φ := none
  delivered : UInt32 := 0
  dropped : UInt32 := 0

namespace FrameSlot

variable {φ : Type}

def isArmed (s : FrameSlot φ) : Bool := s.callback.isSome

/-- Puts a callback in the place of whatever was installed. -/
def install (s : FrameSlot φ) (callback : φ) : FrameSlot φ := { s with callback := some callback }

/-- Takes the callback out. -/
def clear (s : FrameSlot φ) : FrameSlot φ := { s with callback := none }

/-- Sets both counters to zero. -/
def resetCounts (s : FrameSlot φ) : FrameSlot φ := { s with delivered := 0, dropped := 0 }

/-- Counts one frame, and names the callback that is to receive it. -/
def deliver (s : FrameSlot φ) : Option φ × FrameSlot φ :=
  match s.callback with
  | some callback => (some callback, { s with delivered := s.delivered + 1 })
  | none => (none, { s with dropped := s.dropped + 1 })

/-! ## The installed callback -/

@[simp] theorem callback_install (s : FrameSlot φ) (callback : φ) :
    (s.install callback).callback = some callback := rfl

@[simp] theorem callback_clear (s : FrameSlot φ) : s.clear.callback = none := rfl

@[simp] theorem callback_resetCounts (s : FrameSlot φ) : s.resetCounts.callback = s.callback := rfl

@[simp] theorem fst_deliver (s : FrameSlot φ) : s.deliver.1 = s.callback := by
  cases h : s.callback <;> simp [deliver, h]

@[simp] theorem callback_deliver (s : FrameSlot φ) : s.deliver.2.callback = s.callback := by
  cases h : s.callback <;> simp [deliver, h]

end FrameSlot

end SharedAdc
