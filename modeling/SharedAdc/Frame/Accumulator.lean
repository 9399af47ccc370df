/-
Running averages over the conversions of a stream, one per channel. A sum is a 32-bit word; a
code that does not fit into its channel's sum any more is left out, so that what was counted
still has the average that is taken.
-/
import SharedAdc.Frame.Record

namespace SharedAdc

/-- Sum and number of the codes counted for one channel. -/
structure Tally where
  sum : UInt32 := 0
  count : UInt32 := 0
  deriving DecidableEq

namespace Tally

/-- The tally with one more code, unless its sum is full. -/
def add? (t : Tally) (raw : UInt16) : Option Tally :=
  if t.sum.toNat + raw.toNat < UInt32.size then
    some ⟨t.sum + raw.toUInt32, t.count + 1⟩
  else none

/-- The tally with `count` codes more whose sum is `sum`. -/
def plus (t : Tally) (sum count : Nat) : Tally :=
  ⟨t.sum + UInt32.ofNat sum, t.count + UInt32.ofNat count⟩

/-- The average of the codes counted, rounded down. -/
def average? (t : Tally) : Option UInt16 :=
  if t.count = 0 then none else some (t.sum / t.count).toUInt16

end Tally

/-- The tallies of all channels. -/
structure Accumulator where
  tallies : Vector Tally 10 := Vector.replicate 10 {}

namespace Accumulator

/-- The accumulator that has counted nothing. -/
def empty : Accumulator := {}

/-- The tally of channel `c`. -/
def tally (a : Accumulator) (c : Channel) : Tally := a.tallies.get c.index

/-- Counts one record, and says whether it was counted: it has to name a channel of the unit
whose sum is not full. -/
def add (a : Accumulator) (r : Record) : Accumulator × Bool :=
  match r.channel? with
  | none => (a, false)
  | some c =>
    match (a.tally c).add? r.raw with
    | none => (a, false)
    | some t => (⟨a.tallies.set c.number t c.number_lt⟩, true)

/-- Counts a list of records, and says how many of them were counted. -/
def addAll (a : Accumulator) (records : List Record) : Accumulator × Nat :=
  records.foldl (fun (a, n) r => let (a, counted) := a.add r; (a, n + counted.toNat)) (a, 0)

/-- Counts the records of a frame. -/
def accumulate (a : Accumulator) (frame : Frame) : Accumulator × Nat := a.addAll frame.decode

/-- The code that a record has for channel `c`, if it names it. -/
def codeFor (c : Channel) (r : Record) : List Nat :=
  if r.channel? = some c then [r.raw.toNat] else []

/-- The sum of the codes that `records` have for channel `c`. -/
def total (c : Channel) (records : List Record) : Nat :=
  (records.flatMap (codeFor c)).foldr (· + ·) 0

/-- The codes of `records`, counted `times` over, fill the sum of no channel. -/
def Fits (a : Accumulator) (records : List Record) (times : Nat) : Prop :=
  ∀ c ∈ Channel.all, (a.tally c).sum.toNat + times * total c records < UInt32.size

instance (a : Accumulator) (records : List Record) (times : Nat) :
    Decidable (a.Fits records times) :=
  inferInstanceAs (Decidable (∀ c ∈ Channel.all, _))

/-- The accumulator with the codes of `records` added up `times` over. -/
def plus (a : Accumulator) (records : List Record) (times : Nat) : Accumulator :=
  ⟨.ofFn fun i => (a.tally ⟨i⟩).plus (times * total ⟨i⟩ records)
    (times * (records.flatMap (codeFor ⟨i⟩)).length)⟩

/-- The number of records that name a channel of the unit. -/
def known (records : List Record) : Nat := records.countP (·.channel?.isSome)

/-- Counts the records of the same frame `times` over: all at once if they fit. -/
def accumulateRepeated (a : Accumulator) (frame : Frame) (times : Nat) : Accumulator × Nat :=
  let records := frame.decode
  if a.Fits records times then (a.plus records times, times * known records)
  else times.fold (fun _ _ (a, n) => let (a, counted) := a.addAll records; (a, n + counted)) (a, 0)

/-- Takes the average of channel `c`, which counts from nothing afterwards. -/
def take (a : Accumulator) (c : Channel) : Option UInt16 × Accumulator :=
  ((a.tally c).average?, ⟨a.tallies.set c.number {} c.number_lt⟩)

/-- Takes the averages of a list of channels in order. -/
def takeAll (a : Accumulator) : List Channel → List (Option UInt16) × Accumulator
  | [] => ([], a)
  | c :: cs =>
    let (average, a) := a.take c
    let (averages, a) := a.takeAll cs
    (average :: averages, a)

/-! ## Records in turn -/

theorem addAll_concat (a : Accumulator) (records : List Record) (r : Record) :
    a.addAll (records ++ [r]) = (((a.addAll records).1.add r).1,
      (a.addAll records).2 + ((a.addAll records).1.add r).2.toNat) := by
  rw [addAll, List.foldl_append]
  rfl

/-! ## The tally of one channel -/

theorem tally_set (a : Accumulator) (c d : Channel) (t : Tally) :
    (⟨a.tallies.set c.number t c.number_lt⟩ : Accumulator).tally d =
      if c = d then t else a.tally d := by
  refine (Vector.getElem_set c.number_lt d.number_lt).trans ?_
  by_cases h : c = d
  · subst h
    simp
  · have hne : c.number ≠ d.number := fun e => h (Channel.number_inj e)
    rw [if_neg hne, if_neg h]
    rfl

@[simp] theorem tally_plus (a : Accumulator) (records : List Record) (times : Nat) (c : Channel) :
    (a.plus records times).tally c = (a.tally c).plus (times * total c records)
      (times * (records.flatMap (codeFor c)).length) :=
  Vector.getElem_ofFn c.number_lt

@[simp] theorem tally_empty (c : Channel) : empty.tally c = {} :=
  Vector.getElem_replicate c.number_lt

@[simp] theorem tally_take (a : Accumulator) (c d : Channel) :
    (a.take c).2.tally d = if c = d then {} else a.tally d :=
  a.tally_set c d {}

end Accumulator

end SharedAdc
