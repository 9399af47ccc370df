/-
Pseudo-random words of the xoshiro256++ generator, and their reduction to a symmetric range.
-/

namespace SharedAdc.Simulator

/-! ## The generator -/

/-- The state of the generator. -/
structure Generator where
  s₀ : UInt64
  s₁ : UInt64
  s₂ : UInt64
  s₃ : UInt64
  deriving DecidableEq

/-- Turns a word to the left by `n` bits. -/
def rotateLeft (w : UInt64) (n : UInt64) : UInt64 := w <<< n ||| w >>> (64 - n)

namespace Generator

/-- The next word. -/
def next (g : Generator) : UInt64 × Generator :=
  let s₂ := g.s₂ ^^^ g.s₀
  let s₃ := g.s₃ ^^^ g.s₁
  (rotateLeft (g.s₀ + g.s₃) 23 + g.s₀,
    { s₀ := g.s₀ ^^^ s₃
      s₁ := g.s₁ ^^^ s₂
      s₂ := s₂ ^^^ g.s₁ <<< 17
      s₃ := rotateLeft s₃ 45 })

/-- The upper half of the next word. -/
def nextHalf (g : Generator) : UInt32 × Generator :=
  let (w, g) := g.next
  ((w >>> 32).toUInt32, g)

/-- Mixes the bits of a counter into a word of the state. -/
def mix (z : UInt64) : UInt64 :=
  let z := (z ^^^ z >>> 30) * 0xBF58476D1CE4E5B9
  let z := (z ^^^ z >>> 27) * 0x94D049BB133111EB
  z ^^^ z >>> 31

/-- The generator that a seed stands for. -/
def ofSeed (seed : UInt64) : Generator :=
  let step : UInt64 := 0x9E3779B97F4A7C15
  ⟨mix (seed + step), mix (seed + 2 * step), mix (seed + 3 * step), mix (seed + 4 * step)⟩

/-- A generator of its own, with the next four words of `g` as its state. -/
def split (g : Generator) : Generator × Generator :=
  let (s₀, g) := g.next
  let (s₁, g) := g.next
  let (s₂, g) := g.next
  let (s₃, g) := g.next
  (⟨s₀, s₁, s₂, s₃⟩, g)

end Generator

/-! ## Ranges -/

/-- The two halves of the product of two half words, the upper half first. -/
def wideProduct (a b : UInt32) : UInt32 × UInt32 :=
  let product := a.toUInt64 * b.toUInt64
  ((product >>> 32).toUInt32, product.toUInt32)

namespace Generator

/-- A number below `range`, from the upper half of the product with a random half word; where
the lower half leaves the result open, a second half word decides on the carry. -/
def below (g : Generator) (range : UInt32) : UInt32 × Generator :=
  let (word, g) := g.nextHalf
  let (high, low) := wideProduct word range
  if low ≤ 0 - range then (high, g)
  else
    let (word, g) := g.nextHalf
    let (carry, _) := wideProduct word range
    (if low.toNat + carry.toNat < UInt32.size then high else high + 1, g)

/-- A number from `-peak` to `peak`; for a peak of zero no word is drawn. -/
def within (g : Generator) (peak : UInt16) : Int32 × Generator :=
  if peak = 0 then (0, g)
  else
    let (n, g) := g.below (2 * peak.toUInt32 + 1)
    (n.toInt32 - peak.toUInt32.toInt32, g)

end Generator

end SharedAdc.Simulator
