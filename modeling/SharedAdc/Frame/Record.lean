/-
Conversion records, the items of a continuous frame: four bytes each, least significant first,
with the raw code in bits 0 to 11, the channel in bits 13 to 16 and the unit in bit 17.
-/
import SharedAdc.Channel

namespace SharedAdc

/-- The bytes of a continuous frame. -/
abbrev Frame := List UInt8

/-- One conversion of a frame. -/
structure Record where
  unit : UInt8
  channel : UInt8
  raw : UInt16
  deriving DecidableEq

namespace Record

/-- Size of a record in bytes. -/
def size : Nat := 4

/-- The record that a word holds. -/
def ofWord (word : UInt32) : Record where
  unit := (word >>> 17 &&& 1).toUInt8
  channel := (word >>> 13 &&& 0xF).toUInt8
  raw := (word &&& 0xFFF).toUInt16

/-- The word of a record; what does not fit a field is cut off. -/
def toWord (r : Record) : UInt32 :=
  let raw : UInt32 := r.raw.toUInt32 &&& 0xFFF
  let channel : UInt32 := r.channel.toUInt32 &&& 0xF
  let unit : UInt32 := r.unit.toUInt32 &&& 1
  raw ||| channel <<< 13 ||| unit <<< 17

/-- The four bytes of a record. -/
def encode (r : Record) : Frame :=
  let w := r.toWord
  [w.toUInt8, (w >>> 8).toUInt8, (w >>> 16).toUInt8, (w >>> 24).toUInt8]

/-- The word of four bytes, the least significant first. -/
def wordOfBytes (b₀ b₁ b₂ b₃ : UInt8) : UInt32 :=
  b₀.toUInt32 ||| (b₁.toUInt32 <<< 8) ||| (b₂.toUInt32 <<< 16) ||| (b₃.toUInt32 <<< 24)

/-- The channel of the record, if the unit has it. -/
def channel? (r : Record) : Option Channel := Channel.ofIndex? r.channel.toNat

end Record

namespace Frame

/-- The records of a frame in order; a partial record at the end is left out. -/
def decode : Frame → List Record
  | b₀ :: b₁ :: b₂ :: b₃ :: rest =>
    Record.ofWord (Record.wordOfBytes b₀ b₁ b₂ b₃) :: decode rest
  | _ => []

/-- The frame that holds `records` and nothing else. -/
def encode (records : List Record) : Frame := records.flatMap Record.encode

end Frame

end SharedAdc
