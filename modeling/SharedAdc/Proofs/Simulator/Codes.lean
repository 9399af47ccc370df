/-
Codes of one voltage on both paths of the simulated unit. A conversion gives the same code for a read
of the one-shot unit and for a record of a stream; but the field of a record has twelve bits, and what
a wider code has above them is lost on the way through a frame.
-/
import SharedAdc.Proofs.Simulator.OneShot
import SharedAdc.Proofs.Simulator.Producer

namespace SharedAdc.Simulator

/-! ## Codes within their range -/

/-- What is kept between zero and `top` is one of them, or was there before. -/
theorem clamp_cases {top : Int32} (htop : 0 ≤ top) (x : Int32) :
    max 0 (min top x) = 0 ∨ max 0 (min top x) = top ∨
      max 0 (min top x) = x ∧ 0 ≤ x ∧ x ≤ top := by
  have hmin : min top x = if top ≤ x then top else x := rfl
  have hmax : ∀ y : Int32, max 0 y = if 0 ≤ y then y else 0 := fun _ => rfl
  rw [hmin]
  split
  · rw [hmax, if_pos htop]
    exact .inr (.inl rfl)
  · rename_i hbelow
    rw [hmax]
    split
    · rename_i hpos
      refine .inr (.inr ⟨rfl, hpos, ?_⟩)
      rw [Int32.le_iff_toInt_le] at hbelow ⊢
      omega
    · exact .inl rfl

theorem toNat_toUInt32_of_nonneg {x : Int32} (h : 0 ≤ x) : (x.toUInt32.toNat : Int) = x.toInt := by
  have hint : x.toInt = x.toBitVec.toInt := rfl
  have hnat : x.toUInt32.toNat = x.toBitVec.toNat := rfl
  have hzero : (0 : Int32).toInt = 0 := rfl
  rw [Int32.le_iff_toInt_le, hzero, hint, BitVec.toInt_eq_toNat_cond] at h
  rw [hint, hnat, BitVec.toInt_eq_toNat_cond]
  split at h
  · rename_i hlow
    rw [if_pos hlow]
  · -- the upper half of the words are negative numbers
    have hlt := x.toBitVec.isLt
    omega

/-- Whatever the noise, a code is one of its range. -/
theorem convert_le (input : UInt32) (range : Range) (noise : Int32) :
    convert input range noise ≤ range.width.maxRaw := by
  have hpos : 0 ≤ range.width.maxRaw.toUInt32.toInt32 := by cases range.width <;> decide
  have hback : range.width.maxRaw.toUInt32.toInt32.toUInt32.toUInt16 = range.width.maxRaw := by
    cases range.width <;> decide
  have hsmall : range.width.maxRaw.toUInt32.toInt32.toUInt32.toNat < 2 ^ 16 := by
    cases range.width <;> decide
  unfold convert
  dsimp only
  rcases clamp_cases hpos ((idealCode input range).toInt32 + noise) with h | h | ⟨h, hnonneg, hle⟩
  · rw [h]
    exact UInt16.le_iff_toNat_le.2 (Nat.zero_le _)
  · rw [h, hback]
    exact UInt16.le_refl _
  · rw [h, ← hback, UInt16.le_iff_toNat_le, UInt32.toNat_toUInt16, UInt32.toNat_toUInt16]
    have hx := toNat_toUInt32_of_nonneg hnonneg
    have htop := toNat_toUInt32_of_nonneg hpos
    rw [Int32.le_iff_toInt_le] at hle
    omega

/-- All codes fit into a record but those of thirteen bits. -/
theorem maxRaw_lt {width : BitWidth} (h : width ≠ .bits13) : width.maxRaw < 4096 := by
  cases width with
  | bits13 => exact absurd rfl h
  | _ => decide

/-! ## Both paths -/

/-- A unit that is set up for channel `c` with a range. -/
def SetTo (sim : Simulator) (c : Channel) (range : Range) : Prop :=
  ∃ ranges, sim.oneShot = some ranges ∧ ranges.get c.index = some range

theorem SetTo.read {sim : Simulator} {c : Channel} {range : Range} (h : SetTo sim c range)
    (hf : sim.fault = false) (hquiet : sim.noise = 0) :
    (sim.perform (.readOneShot c)).1 = .ok (convert (sim.input c) range 0) := by
  obtain ⟨ranges, hunit, hrange⟩ := h
  rw [perform_read hf (by rw [hunit]; exact hrange), Producer.within_zero _ hquiet]

/-- With no noise, a conversion on channel `c` gives one code for a read and for every record of the
channel in a frame that is made from the same voltages with the same range. The record shows what twelve
bits hold of it: the code itself, unless it is one that only a range of thirteen bits has. -/
theorem streams_code_read (sim : Simulator) (p : Producer) (c : Channel) (range : Range)
    (hfault : sim.fault = false) (hquiet : sim.noise = 0) (hquiet' : p.noise = 0)
    (hset : SetTo sim c range) (hlisted : ∃ entry ∈ p.pattern, entry.channel = c)
    (hsame : ∀ entry ∈ p.pattern, entry.channel = c → entry.range = range) :
    ∃ code, (sim.perform (.readOneShot c)).1 = .ok code ∧
      ∀ r ∈ Frame.decode (p.makeFrame sim.inputs).1, r.channel? = some c →
        r.raw = code % 4096 ∧ (r.raw = code ↔ code < 4096) ∧
        (range.width ≠ .bits13 → r.raw = code) := by
  obtain ⟨first, hfirst, -⟩ := hlisted
  refine ⟨_, hset.read hfault hquiet, fun r hr hchannel => ?_⟩
  obtain ⟨entry, hentry, hmade⟩ := p.exists_entry (List.ne_nil_of_mem hfirst) hr
  obtain rfl : entry.channel = c := Option.some.inj (hmade.channel.symm.trans hchannel)
  obtain ⟨noise, hnoise, hraw⟩ := hmade.raw
  rw [hsame entry hentry rfl, hnoise hquiet'] at hraw
  have hcut : r.raw = convert (sim.input entry.channel) range 0 % 4096 := hraw
  have hiff : r.raw = convert (sim.input entry.channel) range 0 ↔
      convert (sim.input entry.channel) range 0 < 4096 := by
    rw [hcut, ← UInt16.toNat_inj, UInt16.toNat_mod, UInt16.lt_iff_toNat_lt]
    show _ % 4096 = _ ↔ _ < 4096
    omega
  refine ⟨hcut, hiff, fun hwidth => hiff.2 ?_⟩
  exact Std.lt_of_le_of_lt (convert_le ..) (maxRaw_lt hwidth)

/-- A unit with no noise and every channel at `mv`, set up for channel 0, and a producer for the same
channel with a record in each frame. -/
def twoPaths (mv : UInt32) (range : Range) : Simulator × Producer :=
  let sim := Simulator.ofSettings { noise := 0, input := mv }
  ({ sim with oneShot := some (Vector.replicate 10 (some range)) },
    { pattern := [⟨0, range⟩], frameBytes := 4, noise := 0, generator := sim.generator,
      target := .controller })

/-- At full scale both paths show the largest code of twelve bits. -/
theorem streams_code_read_full_scale :
    let (sim, p) := twoPaths 3100 ⟨.db12, .bits12⟩
    (sim.perform (.readOneShot 0)).1 = .ok 4095 ∧
      ∀ r ∈ Frame.decode (p.makeFrame sim.inputs).1, r.channel? = some 0 → r.raw = 4095 := by
  obtain ⟨code, hread, hrecords⟩ := streams_code_read (twoPaths 3100 ⟨.db12, .bits12⟩).1
    (twoPaths 3100 ⟨.db12, .bits12⟩).2 0 ⟨.db12, .bits12⟩ rfl rfl rfl ⟨_, rfl, rfl⟩ (by decide)
    (by decide)
  obtain rfl : code = 4095 := by
    have hcode : (Except.ok 4095 : Except HardwareFault UInt16) = .ok code := hread
    cases hcode
    rfl
  refine ⟨hread, fun r hr hchannel => ?_⟩
  obtain ⟨-, -, hsame⟩ := hrecords r hr hchannel
  exact hsame (by decide)

/-- At full scale of thirteen bits a read gives the largest code, of which the stream leaves out the top
bit. -/
theorem stream_loses_top_bit :
    let (sim, p) := twoPaths 3100 ⟨.db12, .bits13⟩
    (sim.perform (.readOneShot 0)).1 = .ok 8191 ∧
      (Frame.decode (p.makeFrame sim.inputs).1).map Record.raw = [4095] ∧
      (Frame.decode (p.makeFrame sim.inputs).1).map Record.channel? = [some 0] := by
  decide +kernel

end SharedAdc.Simulator
