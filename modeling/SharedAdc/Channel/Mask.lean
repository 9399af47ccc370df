/-
Sets of channels, as the sixteen bits that callers hand in: bit `n` stands for channel `n`. The
six bits above the last channel can be set, so that a caller's mask can be checked, but they
never name a channel and no update touches them.
-/
import SharedAdc.Channel
import SharedAdc.Text.Hex

namespace SharedAdc

/-- A set of channels, and possibly stray bits above the last channel. -/
structure Mask where
  bits : BitVec 16
  deriving DecidableEq

namespace Mask

/-- The mask with no bit set. -/
def empty : Mask := ⟨0⟩

/-- The bits that name channels. -/
def unitBits : BitVec 16 := 0x3FF

/-- The bit that stands for channel `c`. -/
def bit (c : Channel) : BitVec 16 := 1#16 <<< c.number

/-- The mask of channel `c` alone. -/
def single (c : Channel) : Mask := ⟨bit c⟩

def isEmpty (m : Mask) : Bool := m.bits == 0

/-- Whether channel `c` is in the mask. -/
def contains (m : Mask) (c : Channel) : Bool := m.bits.getLsbD c.number

/-- The mask with channel `c` put in. -/
def insert (m : Mask) (c : Channel) : Mask := ⟨m.bits ||| bit c⟩

/-- The mask with channel `c` taken out. -/
def erase (m : Mask) (c : Channel) : Mask := ⟨m.bits &&& ~~~bit c⟩

/-- The mask of a list of channels. -/
def ofList (cs : List Channel) : Mask := cs.foldl insert empty

/-- The channels of the mask in ascending order. -/
def toList (m : Mask) : List Channel := Channel.all.filter m.contains

/-- The number of bits that name channels. -/
def count (m : Mask) : Nat := (m.bits &&& unitBits).cpop.toNat

/-- Whether the mask names only channels that exist. -/
def isWithinUnit (m : Mask) : Bool := m.bits &&& ~~~unitBits == 0

/-- The mask in messages: at least four hexadecimal digits. -/
def text (m : Mask) : String := Text.hex 4 m.bits.toNat

/-! ## Membership -/

theorem getLsbD_bit (c d : Channel) : (bit c).getLsbD d.number = decide (c = d) := by
  have hc := c.number_lt
  have hd := d.number_lt
  by_cases h : c = d
  · subst h
    simp [bit]
    omega
  · have hne : c.number ≠ d.number := fun e => h (Channel.number_inj e)
    simp [bit, h]
    omega

@[simp] theorem contains_empty (c : Channel) : empty.contains c = false := by
  simp [contains, empty]

@[simp] theorem contains_single (c d : Channel) : (single c).contains d = decide (c = d) :=
  getLsbD_bit c d

@[simp] theorem contains_insert (m : Mask) (c d : Channel) :
    (m.insert c).contains d = (m.contains d || decide (c = d)) := by
  simp [contains, insert, getLsbD_bit]

@[simp] theorem contains_erase (m : Mask) (c d : Channel) :
    (m.erase c).contains d = (m.contains d && !decide (c = d)) := by
  have hd : d.number < 16 := Nat.lt_trans d.number_lt (by decide)
  simp only [contains, erase, BitVec.getLsbD_and, BitVec.getLsbD_not, getLsbD_bit, hd,
    decide_true, Bool.true_and]

@[simp] theorem mem_toList (m : Mask) (c : Channel) : c ∈ m.toList ↔ m.contains c = true := by
  simp [toList]

end Mask

end SharedAdc
