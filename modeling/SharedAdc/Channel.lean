/-
The ten input channels of the unit. A channel is known by its number, and the order of the
numbers is the order in which every list of channels is given.
-/

namespace SharedAdc

/-- An input channel of the unit. -/
structure Channel where
  index : Fin 10
  deriving DecidableEq

namespace Channel

/-- A numeral stands for the channel with that number. -/
instance (n : Nat) : OfNat Channel n := ⟨⟨Fin.ofNat 10 n⟩⟩

/-- Every channel, in ascending order. -/
def all : List Channel := (List.finRange 10).map Channel.mk

/-- The channel with number `n`, if the unit has it. -/
def ofIndex? (n : Nat) : Option Channel :=
  if h : n < 10 then some ⟨⟨n, h⟩⟩ else none

/-- The number of the channel. -/
def number (c : Channel) : Nat := c.index.val

/-- The name of the channel in messages. -/
def text (c : Channel) : String := "CH" ++ toString c.number

theorem number_lt (c : Channel) : c.number < 10 := c.index.isLt

theorem number_inj {c d : Channel} (h : c.number = d.number) : c = d := by
  cases c
  cases d
  exact congrArg Channel.mk (Fin.ext h)

@[simp] theorem mem_all (c : Channel) : c ∈ all := by
  simp [all, List.mem_finRange]

@[simp] theorem ofIndex?_number (c : Channel) : ofIndex? c.number = some c := by
  simp [ofIndex?, number]

theorem ofIndex?_eq_some_iff {n : Nat} {c : Channel} : ofIndex? n = some c ↔ n = c.number := by
  constructor
  · intro h
    unfold ofIndex? at h
    split at h <;> cases h
    rfl
  · rintro rfl
    exact ofIndex?_number c

theorem ofIndex?_eq_none_iff {n : Nat} : ofIndex? n = none ↔ 10 ≤ n := by
  simp [ofIndex?]

end Channel

end SharedAdc
