/-
The format of frames. A frame is read word by word, each word least significant byte first: what is
encoded comes back with its fields cut to their widths, whatever partial record follows it, and what
is decoded and encoded again loses exactly the bits of its words that no field has.
-/
import Mathlib.Algebra.Order.Ring.Nat
import Mathlib.Data.Nat.Bitwise
import SharedAdc.Frame.Record

namespace SharedAdc

/-! ## Words of bytes -/

namespace Frame

/-- The whole words of a frame, each the number that its four bytes stand for, the least significant
first. -/
def words : Frame → List Nat
  | b₀ :: b₁ :: b₂ :: b₃ :: rest =>
    (b₀.toNat + 2 ^ 8 * b₁.toNat + 2 ^ 16 * b₂.toNat + 2 ^ 24 * b₃.toNat) :: words rest
  | _ => []

/-- The four bytes of a word, the least significant first. -/
def ofWordValue (n : Nat) : Frame :=
  [UInt8.ofNat n, UInt8.ofNat (n / 2 ^ 8), UInt8.ofNat (n / 2 ^ 16), UInt8.ofNat (n / 2 ^ 24)]

/-- The bits of a word that a field has. -/
def fieldBits : Nat := 0x3EFFF

/-- The whole words of a frame are its bytes but for a partial word at the end. -/
theorem flatMap_words (f : Frame) : f.words.flatMap ofWordValue = f.take (4 * (f.length / 4)) := by
  fun_induction words f with
  | case1 b₀ b₁ b₂ b₃ rest ih =>
    have hlen : 4 * ((b₀ :: b₁ :: b₂ :: b₃ :: rest).length / 4) = 4 * (rest.length / 4) + 4 := by
      simp only [List.length_cons]
      omega
    have h₀ := b₀.toNat_lt
    have h₁ := b₁.toNat_lt
    have h₂ := b₂.toNat_lt
    have h₃ := b₃.toNat_lt
    have hbytes : ofWordValue (b₀.toNat + 2 ^ 8 * b₁.toNat + 2 ^ 16 * b₂.toNat +
        2 ^ 24 * b₃.toNat) = [b₀, b₁, b₂, b₃] := by
      simp only [ofWordValue, List.cons.injEq, ← UInt8.toNat_inj, UInt8.toNat_ofNat', and_true]
      omega
    rw [List.flatMap_cons, ih, hbytes, hlen]
    rfl
  | case2 f hshort =>
    have hlen : f.length / 4 = 0 := by
      match f, hshort with
      | [], _ | [_], _ | [_, _], _ | [_, _, _], _ => simp
      | b₀ :: b₁ :: b₂ :: b₃ :: rest, h => exact absurd rfl (h b₀ b₁ b₂ b₃ rest)
    rw [hlen]
    rfl

/-! ## Frames in pieces -/

theorem decode_short {f : Frame} (h : f.length < 4) : decode f = [] := by
  match f, h with
  | [], _ | [_], _ | [_, _], _ | [_, _, _], _ => rfl

/-- What comes after whole records is decoded by itself. -/
theorem decode_append {f : Frame} (h : 4 ∣ f.length) (g : Frame) :
    decode (f ++ g) = decode f ++ decode g := by
  fun_induction decode f with
  | case1 b₀ b₁ b₂ b₃ rest ih =>
    have hrest : 4 ∣ rest.length := by
      simp only [List.length_cons] at h
      omega
    show Record.ofWord _ :: decode (rest ++ g) = _
    rw [ih hrest]
    rfl
  | case2 f hshort =>
    match f, hshort, h with
    | [], _, _ => rfl
    | [_], _, h | [_, _], _, h | [_, _, _], _, h => simp [Nat.dvd_iff_mod_eq_zero] at h
    | b₀ :: b₁ :: b₂ :: b₃ :: rest, hshort, _ => exact absurd rfl (hshort b₀ b₁ b₂ b₃ rest)

end Frame

/-! ## Words of records -/

namespace Record

/-- The record with each field cut to the width that it has in a frame. -/
def cut (r : Record) : Record := ⟨r.unit % 2, r.channel % 16, r.raw % 4096⟩

/-- Every field fits into its width. -/
def Fits (r : Record) : Prop := r.unit.toNat < 2 ∧ r.channel.toNat < 16 ∧ r.raw.toNat < 4096

instance (r : Record) : Decidable r.Fits := inferInstanceAs (Decidable (_ ∧ _))

theorem eq_of_toNat_eq {r s : Record} (hunit : r.unit.toNat = s.unit.toNat)
    (hchannel : r.channel.toNat = s.channel.toNat) (hraw : r.raw.toNat = s.raw.toNat) : r = s := by
  cases r
  cases s
  simp only [mk.injEq]
  exact ⟨UInt8.toNat_inj.1 hunit, UInt8.toNat_inj.1 hchannel, UInt16.toNat_inj.1 hraw⟩

theorem cut_of_fits {r : Record} (h : r.Fits) : r.cut = r :=
  eq_of_toNat_eq (Nat.mod_eq_of_lt h.1) (Nat.mod_eq_of_lt h.2.1) (Nat.mod_eq_of_lt h.2.2)

/-! ## Fields of a word -/

/-- Where the bits of two words lie apart, the one over the other is their sum. -/
theorem toNat_lor_shiftLeft {low high s : UInt32} {i : Nat} (hs : s.toNat = i) (hi : i < 32)
    (hlow : low.toNat < 2 ^ i) (hhigh : 2 ^ i * high.toNat < 2 ^ 32) :
    (low ||| high <<< s).toNat = low.toNat + 2 ^ i * high.toNat := by
  have hshift : (high <<< s).toNat = high.toNat <<< i := by
    rw [UInt32.toNat_shiftLeft, hs, Nat.mod_eq_of_lt hi, Nat.shiftLeft_eq, Nat.mul_comm,
      Nat.mod_eq_of_lt hhigh]
  rw [UInt32.toNat_or, hshift, Nat.or_comm, ← Nat.shiftLeft_add_eq_or_of_lt hlow, Nat.shiftLeft_eq,
    Nat.mul_comm, Nat.add_comm]

/-- The bits of a word from `s` on, up to a mask of `k` ones. -/
theorem toNat_shiftRight_and {w s mask : UInt32} {i k : Nat} (hs : s.toNat = i) (hi : i < 32)
    (hmask : mask.toNat = 2 ^ k - 1) : (w >>> s &&& mask).toNat = w.toNat / 2 ^ i % 2 ^ k := by
  rw [UInt32.toNat_and, hmask, Nat.and_two_pow_sub_one_eq_mod, UInt32.toNat_shiftRight, hs,
    Nat.mod_eq_of_lt hi, Nat.shiftRight_eq_div_pow]

theorem toNat_and_mask {w mask : UInt32} {k : Nat} (hmask : mask.toNat = 2 ^ k - 1) :
    (w &&& mask).toNat = w.toNat % 2 ^ k := by
  rw [UInt32.toNat_and, hmask, Nat.and_two_pow_sub_one_eq_mod]

theorem toNat_wordOfBytes (b₀ b₁ b₂ b₃ : UInt8) : (wordOfBytes b₀ b₁ b₂ b₃).toNat =
    b₀.toNat + 2 ^ 8 * b₁.toNat + 2 ^ 16 * b₂.toNat + 2 ^ 24 * b₃.toNat := by
  have hbyte : ∀ b : UInt8, b.toUInt32.toNat = b.toNat ∧ b.toNat < 2 ^ 8 := fun b =>
    ⟨b.toNat_toUInt32, b.toNat_lt⟩
  obtain ⟨h₀, hlt₀⟩ := hbyte b₀
  obtain ⟨h₁, hlt₁⟩ := hbyte b₁
  obtain ⟨h₂, hlt₂⟩ := hbyte b₂
  obtain ⟨h₃, hlt₃⟩ := hbyte b₃
  have htwo : (b₀.toUInt32 ||| b₁.toUInt32 <<< 8).toNat = b₀.toNat + 2 ^ 8 * b₁.toNat := by
    rw [toNat_lor_shiftLeft (i := 8) rfl (by decide) (by omega) (by omega), h₀, h₁]
  have hthree : (b₀.toUInt32 ||| b₁.toUInt32 <<< 8 ||| b₂.toUInt32 <<< 16).toNat =
      b₀.toNat + 2 ^ 8 * b₁.toNat + 2 ^ 16 * b₂.toNat := by
    rw [toNat_lor_shiftLeft (i := 16) rfl (by decide) (by omega) (by omega), htwo, h₂]
  rw [wordOfBytes, toNat_lor_shiftLeft (i := 24) rfl (by decide) (by omega) (by omega), hthree, h₃]

/-- The word of a record has its fields from the bits 0, 13 and 17 on. -/
theorem toNat_toWord (r : Record) : r.toWord.toNat =
    r.raw.toNat % 2 ^ 12 + 2 ^ 13 * (r.channel.toNat % 2 ^ 4) + 2 ^ 17 * (r.unit.toNat % 2) := by
  have hraw : (r.raw.toUInt32 &&& (0xFFF : UInt32)).toNat = r.raw.toNat % 2 ^ 12 :=
    toNat_and_mask (k := 12) rfl
  have hchannel : (r.channel.toUInt32 &&& (0xF : UInt32)).toNat = r.channel.toNat % 2 ^ 4 :=
    toNat_and_mask (k := 4) rfl
  have hunit : (r.unit.toUInt32 &&& (1 : UInt32)).toNat = r.unit.toNat % 2 :=
    toNat_and_mask (k := 1) rfl
  unfold toWord
  generalize r.raw.toUInt32 &&& (0xFFF : UInt32) = raw at hraw ⊢
  generalize r.channel.toUInt32 &&& (0xF : UInt32) = channel at hchannel ⊢
  generalize r.unit.toUInt32 &&& (1 : UInt32) = unit at hunit ⊢
  have htwo : (raw ||| channel <<< 13).toNat =
      r.raw.toNat % 2 ^ 12 + 2 ^ 13 * (r.channel.toNat % 2 ^ 4) := by
    rw [toNat_lor_shiftLeft (i := 13) rfl (by decide) (by omega) (by omega), hraw, hchannel]
  show (raw ||| channel <<< 13 ||| unit <<< 17).toNat = _
  rw [toNat_lor_shiftLeft (i := 17) rfl (by decide) (by omega) (by omega), htwo, hunit]

theorem toNat_unit_ofWord (w : UInt32) : (ofWord w).unit.toNat = w.toNat / 2 ^ 17 % 2 := by
  rw [ofWord, UInt32.toNat_toUInt8, toNat_shiftRight_and (i := 17) (k := 1) rfl (by decide) rfl]
  omega

theorem toNat_channel_ofWord (w : UInt32) :
    (ofWord w).channel.toNat = w.toNat / 2 ^ 13 % 2 ^ 4 := by
  rw [ofWord, UInt32.toNat_toUInt8, toNat_shiftRight_and (i := 13) (k := 4) rfl (by decide) rfl]
  omega

theorem toNat_raw_ofWord (w : UInt32) : (ofWord w).raw.toNat = w.toNat % 2 ^ 12 := by
  rw [ofWord, UInt32.toNat_toUInt16, toNat_and_mask (k := 12) rfl]
  omega

/-- Through a word a record keeps what fits into its fields. -/
theorem ofWord_toWord (r : Record) : ofWord r.toWord = r.cut := by
  have hraw : r.raw.toNat % 2 ^ 12 < 2 ^ 12 := Nat.mod_lt _ (by decide)
  have hchannel : r.channel.toNat % 2 ^ 4 < 2 ^ 4 := Nat.mod_lt _ (by decide)
  refine eq_of_toNat_eq ?_ ?_ ?_
  · show _ = r.unit.toNat % 2
    rw [toNat_unit_ofWord, toNat_toWord]
    omega
  · show _ = r.channel.toNat % 2 ^ 4
    rw [toNat_channel_ofWord, toNat_toWord]
    omega
  · show _ = r.raw.toNat % 2 ^ 12
    rw [toNat_raw_ofWord, toNat_toWord]
    omega

end Record

/-! ## Encoding and decoding -/

namespace Frame

open Record

theorem words_ofWordValue {n : Nat} (h : n < 2 ^ 32) (f : Frame) :
    words (ofWordValue n ++ f) = n :: words f := by
  simp only [ofWordValue, List.cons_append, List.nil_append, words, UInt8.toNat_ofNat',
    List.cons.injEq, and_true]
  omega

/-- The records of a frame are those of its words. -/
theorem decode_eq_map (f : Frame) : decode f = f.words.map fun n => ofWord (UInt32.ofNat n) := by
  fun_induction words f with
  | case1 b₀ b₁ b₂ b₃ rest ih =>
    rw [decode, ih, ← toNat_wordOfBytes, List.map_cons, UInt32.ofNat_toNat]
  | case2 f hshort =>
    match f, hshort with
    | [], _ | [_], _ | [_, _], _ | [_, _, _], _ => rfl
    | b₀ :: b₁ :: b₂ :: b₃ :: rest, h => exact absurd rfl (h b₀ b₁ b₂ b₃ rest)

theorem encode_eq (r : Record) : r.encode = ofWordValue r.toWord.toNat := by
  simp only [Record.encode, ofWordValue, List.cons.injEq, ← UInt8.toNat_inj, UInt32.toNat_toUInt8,
    UInt8.toNat_ofNat', UInt32.toNat_shiftRight, Nat.shiftRight_eq_div_pow, and_true, true_and]
  exact ⟨rfl, rfl, rfl⟩

/-- A record at the head of a frame comes back with its fields cut. -/
theorem decode_encode_append (r : Record) (f : Frame) :
    decode (r.encode ++ f) = r.cut :: decode f := by
  rw [decode_eq_map, encode_eq, words_ofWordValue r.toWord.toNat_lt, List.map_cons,
    UInt32.ofNat_toNat, ofWord_toWord, ← decode_eq_map]

theorem decode_encode (records : List Record) (tail : Frame) :
    decode (encode records ++ tail) = records.map cut ++ decode tail := by
  induction records with
  | nil => rfl
  | cons r records ih =>
    rw [encode, List.flatMap_cons, List.append_assoc, decode_encode_append]
    exact congrArg _ ih

/-- The fields of a word, one over the other, are the word without the bits that no field has. -/
theorem and_fieldBits (n : Nat) : n &&& fieldBits =
    n % 2 ^ 12 + 2 ^ 13 * (n / 2 ^ 13 % 2 ^ 4) + 2 ^ 17 * (n / 2 ^ 17 % 2) := by
  -- the channel and the unit are side by side, so two runs of ones are enough
  have hbits : fieldBits = (2 ^ 12 - 1) ||| (2 ^ 5 - 1) <<< 13 := rfl
  have hhigh : n &&& (2 ^ 5 - 1) <<< 13 = (n / 2 ^ 13 % 2 ^ 5) <<< 13 := by
    rw [← Nat.and_two_pow_sub_one_eq_mod, ← Nat.shiftRight_eq_div_pow]
    refine Nat.eq_of_testBit_eq fun i => ?_
    simp only [Nat.testBit_and, Nat.testBit_shiftLeft, Nat.testBit_shiftRight]
    by_cases hi : 13 ≤ i
    · simp [hi]
    · simp [hi]
  rw [hbits, Nat.and_or_distrib_left, Nat.and_two_pow_sub_one_eq_mod, hhigh, Nat.or_comm,
    ← Nat.shiftLeft_add_eq_or_of_lt (by omega), Nat.shiftLeft_eq]
  omega

theorem encode_ofWord (n : Nat) :
    (ofWord (UInt32.ofNat n)).encode = ofWordValue (n &&& fieldBits) := by
  have hword : (ofWord (UInt32.ofNat n)).toWord.toNat = n &&& fieldBits := by
    rw [toNat_toWord, toNat_raw_ofWord, toNat_channel_ofWord, toNat_unit_ofWord, and_fieldBits,
      UInt32.toNat_ofNat']
    omega
  rw [encode_eq, hword]

/-- A frame that is decoded and encoded again keeps the bits of its words that a field has. -/
theorem encode_decode (f : Frame) :
    encode (decode f) = (f.words.map (· &&& fieldBits)).flatMap ofWordValue := by
  rw [decode_eq_map, encode, List.flatMap_map, List.flatMap_map]
  exact congrArg f.words.flatMap (funext encode_ofWord)

/-- The format as a whole. Records come back in order with their fields cut to their widths,
whatever partial record follows them; a frame that is decoded and encoded again loses its partial
record and the bits of its words that no field has; and a frame is decoded piece by piece. -/
theorem codec_exact :
    (∀ (records : List Record) (tail : Frame), tail.length ≤ 3 →
      decode (encode records ++ tail) = records.map cut ∧
      ((∀ r ∈ records, r.Fits) → decode (encode records ++ tail) = records)) ∧
    (∀ f : Frame, f.take (4 * (f.length / 4)) = f.words.flatMap ofWordValue ∧
      encode (decode f) = (f.words.map (· &&& fieldBits)).flatMap ofWordValue) ∧
    ∀ f g : Frame, 4 ∣ f.length → decode (f ++ g) = decode f ++ decode g := by
  refine ⟨fun records tail htail => ?_, fun f => ⟨(flatMap_words f).symm, encode_decode f⟩,
    fun f g h => decode_append h g⟩
  have hcut : decode (encode records ++ tail) = records.map cut := by
    rw [decode_encode, decode_short (by omega), List.append_nil]
  refine ⟨hcut, fun hfits => hcut.trans ?_⟩
  exact (List.map_congr_left fun r hr => cut_of_fits (hfits r hr)).trans (List.map_id records)

/-- A record too wide for its fields, and one that fits, with three bytes of a partial record after
them. -/
theorem codec_two_records :
    decode (encode [⟨3, 0x25, 0xF123⟩, ⟨1, 9, 4095⟩] ++ [0xAA, 0xBB, 0xCC]) =
        [⟨1, 5, 0x123⟩, ⟨1, 9, 4095⟩] ∧
      decode (encode [⟨1, 9, 4095⟩] ++ [0xAA]) = [⟨1, 9, 4095⟩] ∧
      decode (encode [⟨1, 9, 4095⟩] ++ [0xFF, 0xFF, 0xFF, 0xFF]) =
        decode (encode [⟨1, 9, 4095⟩]) ++ decode [0xFF, 0xFF, 0xFF, 0xFF] :=
  ⟨(codec_exact.1 _ _ (by decide)).1, (codec_exact.1 _ _ (by decide)).2 (by decide),
    codec_exact.2.2 _ _ (by decide)⟩

end Frame

end SharedAdc
