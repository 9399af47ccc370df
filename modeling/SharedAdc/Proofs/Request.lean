/-
What the checks of requests say. A mask that passes names some channel and no stray bit, and the size
of a frame is what multiplying it out in 64 bits gives, which is exact unless the size of a record is
out of all proportion; a request that does not pass is turned down for the first of the objections to
it.
-/
import Mathlib.Algebra.Order.Ring.Nat
import SharedAdc.Proofs.Mask
import SharedAdc.Request

namespace SharedAdc

/-! ## Masks that can be held -/

theorem single_proper (c : Channel) : checkMask (.single c) = .ok () := by
  have h : ∀ i : Fin 10,
      (Mask.single ⟨i⟩).isEmpty = false ∧ (Mask.single ⟨i⟩).isWithinUnit = true := by decide
  obtain ⟨he, hw⟩ := h c.index
  simp [checkMask, he, hw]

theorem checkMask_ok {m : Mask} (h : checkMask m = .ok ()) :
    m.isEmpty = false ∧ m.isWithinUnit = true := by
  unfold checkMask at h
  split at h
  · cases h
  · rename_i he
    split at h
    · cases h
    · rename_i hw
      exact ⟨by simpa using he, by simpa using hw⟩

theorem single_inj {c d : Channel} (h : Mask.single c = Mask.single d) : c = d := by
  have hc := Mask.contains_single d c
  rw [← h, Mask.contains_single] at hc
  have hdc : d = c := by simpa using hc
  exact hdc.symm

theorem toList_ne_nil {m : Mask} (h : checkMask m = .ok ()) : m.toList ≠ [] := by
  obtain ⟨hempty, hwithin⟩ := checkMask_ok h
  exact fun hnil => Mask.isWithinUnit_iff.1 hwithin (Mask.exists_stray hempty hnil)

/-! ## Failed checks -/

theorem checkMask_error {m : Mask} {e : AdcError} (h : checkMask m = .error e) :
    ∃ reason, e = .invalidArgument reason := by
  unfold checkMask at h
  split at h
  · cases h
    exact ⟨_, rfl⟩
  · split at h <;> cases h
    exact ⟨_, rfl⟩

theorem checkCount_error {count : UInt32} {e : AdcError} (h : checkCount count = .error e) :
    ∃ reason, e = .invalidArgument reason := by
  unfold checkCount at h
  split at h <;> cases h
  exact ⟨_, rfl⟩

/-! ## Continuous requests -/

namespace ContinuousRequest

variable {φ : Type} {r : ContinuousRequest φ}

theorem check_ok {config : Config} (h : r.check config = .ok ()) :
    checkMask r.mask = .ok () ∧ r.mask.count ≠ 0 ∧ r.samplesPerChannel ≠ 0 ∧
      r.callback.isSome = true ∧ r.rate ≠ 0 ∧ r.rate ≤ config.maxRate := by
  unfold check at h
  split at h
  · cases h
  rename_i hempty
  split at h
  · cases h
  rename_i hstray
  split at h
  · cases h
  rename_i hsamples
  split at h
  · cases h
  rename_i hcallback
  split at h
  · cases h
  rename_i hrate
  simp only [Bool.or_eq_true, decide_eq_true_eq, not_or, Bool.not_eq_true', Bool.not_eq_false]
    at hstray hrate
  refine ⟨by simp [checkMask, hempty, hstray.2], hstray.1, hsamples, ?_, hrate.1, ?_⟩
  · simpa [Option.isNone_iff_eq_none, Option.isSome_iff_ne_none] using hcallback
  · exact UInt32.not_lt.1 hrate.2

theorem check_error {config : Config} {e : AdcError} (h : r.check config = .error e) :
    ∃ reason, e = .invalidArgument reason := by
  unfold check at h
  repeat' split at h
  all_goals cases h
  all_goals exact ⟨_, rfl⟩

/-- A frame has at most ten times as many samples as a channel can ask for. -/
theorem samples_mul_count_le (r : ContinuousRequest φ) :
    r.samplesPerChannel.toNat * r.mask.count ≤ (2 ^ 32 - 1) * 10 :=
  Nat.mul_le_mul (Nat.le_pred_of_lt r.samplesPerChannel.toNat_lt) r.mask.count_le

/-- The size of a frame in bytes, as a number. -/
def frameSize (r : ContinuousRequest φ) (config : Config) : Nat :=
  r.samplesPerChannel.toNat * r.mask.count * config.bytesPerSample.toNat

/-- The size of a frame fits into 64 bits as long as that of a record is modest. -/
theorem frameSize_lt (r : ContinuousRequest φ) {config : Config}
    (hsize : config.bytesPerSample.toNat ≤ 429496729) : r.frameSize config < 2 ^ 64 :=
  Nat.lt_of_le_of_lt (Nat.mul_le_mul r.samples_mul_count_le hsize) (by decide)

/-- The word that is checked is the size of the frame up to what 64 bits leave of it. -/
theorem frameBytes_eq (r : ContinuousRequest φ) (config : Config) :
    r.frameBytes config =
      if r.frameSize config % 2 ^ 64 < 2 ^ 32 then
        .ok (UInt32.ofNat (r.frameSize config % 2 ^ 64))
      else .error (.invalidArgument .frameTooLarge) := by
  have hcount : r.mask.count ≤ 10 := r.mask.count_le
  have hsamples := r.samples_mul_count_le
  have hword : (r.samplesPerChannel.toUInt64 * UInt64.ofNat r.mask.count *
      config.bytesPerSample).toNat = r.frameSize config % 2 ^ 64 := by
    -- only the last of the two products can leave the word
    have hfit : r.mask.count % 2 ^ 64 = r.mask.count := Nat.mod_eq_of_lt (by omega)
    have hinner : r.samplesPerChannel.toNat * r.mask.count % 2 ^ 64 =
        r.samplesPerChannel.toNat * r.mask.count := Nat.mod_eq_of_lt (by omega)
    rw [UInt64.toNat_mul, UInt64.toNat_mul, UInt64.toNat_ofNat', UInt32.toNat_toUInt64, hfit, hinner]
    rfl
  unfold frameBytes
  dsimp only
  rw [hword]
  refine ite_congr rfl (fun _ => congrArg Except.ok ?_) fun _ => rfl
  rw [← UInt32.toNat_inj, UInt64.toNat_toUInt32, UInt32.toNat_ofNat', hword]

theorem frameBytes_ok_iff {config : Config} {bytes : UInt32} :
    r.frameBytes config = .ok bytes ↔ bytes.toNat = r.frameSize config % 2 ^ 64 := by
  have hbytes := bytes.toNat_lt
  rw [frameBytes_eq]
  split
  · rename_i hlt
    rw [Except.ok.injEq, ← UInt32.toNat_inj, UInt32.toNat_ofNat', Nat.mod_eq_of_lt hlt]
    exact eq_comm
  · rename_i hge
    constructor
    · rintro ⟨⟩
    · intro hsame
      omega

theorem frameBytes_error_iff {config : Config} {e : AdcError} :
    r.frameBytes config = .error e ↔
      2 ^ 32 ≤ r.frameSize config % 2 ^ 64 ∧ e = .invalidArgument .frameTooLarge := by
  rw [frameBytes_eq]
  split
  · rename_i hlt
    constructor
    · rintro ⟨⟩
    · rintro ⟨hge, -⟩
      omega
  · rename_i hge
    rw [Except.error.injEq]
    exact ⟨fun h => ⟨Nat.not_lt.1 hge, h.symm⟩, fun h => h.2.symm⟩

theorem frameBytes_error {config : Config} {e : AdcError} (h : r.frameBytes config = .error e) :
    ∃ reason, e = .invalidArgument reason :=
  ⟨_, (frameBytes_error_iff.1 h).2⟩

/-- With four bytes a record the size of a frame stays far below the words it is computed in. -/
theorem toNat_frameBytes {config : Config} (hrecord : config.bytesPerSample = 4) {bytes : UInt32}
    (h : r.frameBytes config = .ok bytes) :
    bytes.toNat = r.samplesPerChannel.toNat * r.mask.count * 4 := by
  have h4 : config.bytesPerSample.toNat = 4 := by
    rw [hrecord]
    rfl
  have hbytes := frameBytes_ok_iff.1 h
  rwa [Nat.mod_eq_of_lt (r.frameSize_lt (by rw [h4]; decide)), frameSize, h4] at hbytes

/-- A frame of a checked request is not empty, and holds whole records. -/
theorem frameBytes_ok {config : Config} (hrecord : config.bytesPerSample = 4) {bytes : UInt32}
    (hcheck : r.check config = .ok ()) (h : r.frameBytes config = .ok bytes) :
    bytes ≠ 0 ∧ bytes.toNat % 4 = 0 := by
  obtain ⟨-, hcount, hsamples, -⟩ := check_ok hcheck
  have hbytes := toNat_frameBytes hrecord h
  refine ⟨?_, by omega⟩
  rintro rfl
  have hzero : r.samplesPerChannel.toNat * r.mask.count * 4 = 0 := hbytes.symm
  have hn : r.samplesPerChannel.toNat ≠ 0 := fun h0 => hsamples (UInt32.toNat_inj.1 h0)
  have hpos := Nat.mul_pos (Nat.pos_of_ne_zero hn) (Nat.pos_of_ne_zero hcount)
  omega

/-! ## Objections -/

/-- What is wrong with a request that is turned down for a reason. -/
def Objection (r : ContinuousRequest φ) (config : Config) : BadArgument → Prop
  | .emptyMask => r.mask.bits = 0
  | .strayMask => ∃ n, 10 ≤ n ∧ r.mask.bits.getLsbD n = true
  | .noSamplesPerChannel => r.samplesPerChannel = 0
  | .noCallback => r.callback = none
  | .rateOutOfRange => r.rate = 0 ∨ config.maxRate < r.rate
  | .frameTooLarge =>
    2 ^ 32 ≤ r.samplesPerChannel.toNat * r.mask.toList.length * config.bytesPerSample.toNat
  | _ => False

/-- The reasons for which a request can be turned down, in the order in which they are given. -/
def reasons : List BadArgument :=
  [.emptyMask, .strayMask, .noSamplesPerChannel, .noCallback, .rateOutOfRange, .frameTooLarge]

/-- The reason is the first that applies to the request. -/
def FirstObjection (r : ContinuousRequest φ) (config : Config) (reason : BadArgument) : Prop :=
  ∃ before after, reasons = before ++ reason :: after ∧ r.Objection config reason ∧
    ∀ earlier ∈ before, ¬ r.Objection config earlier

theorem FirstObjection.applies {config : Config} {reason : BadArgument}
    (h : r.FirstObjection config reason) : r.Objection config reason := by
  obtain ⟨-, -, -, hobjection, -⟩ := h
  exact hobjection

/-- The check of the fields finds the first objection to one of them. -/
theorem check_decided (r : ContinuousRequest φ) (config : Config) :
    (∃ reason, r.FirstObjection config reason ∧
      r.check config = .error (.invalidArgument reason)) ∨
    (∀ reason, reason ≠ .frameTooLarge → ¬ r.Objection config reason) ∧
      r.check config = .ok () := by
  unfold check
  -- each objection after those before it
  by_cases hempty : r.mask.bits = 0
  · exact .inl ⟨.emptyMask, ⟨[], _, rfl, hempty, nofun⟩, if_pos (beq_iff_eq.2 hempty)⟩
  have hnames : r.mask.isEmpty = false := beq_eq_false_iff_ne.2 hempty
  rw [if_neg (by rw [hnames]; exact Bool.false_ne_true)]
  by_cases hstray : ∃ n, 10 ≤ n ∧ r.mask.bits.getLsbD n = true
  · refine .inl ⟨.strayMask, ⟨[_], _, rfl, hstray, List.forall_mem_singleton.2 hempty⟩, if_pos ?_⟩
    have hwithin : r.mask.isWithinUnit = false :=
      Bool.not_eq_true _ ▸ fun h => Mask.isWithinUnit_iff.1 h hstray
    rw [hwithin, Bool.not_false, Bool.or_true]
  have hcount : r.mask.count ≠ 0 := fun hzero => hstray <|
    Mask.exists_stray hnames (List.length_eq_zero_iff.1 (r.mask.count_eq_length ▸ hzero))
  rw [if_neg (by simp [hcount, Mask.isWithinUnit_iff.2 hstray])]
  by_cases hsamples : r.samplesPerChannel = 0
  · refine .inl ⟨.noSamplesPerChannel, ⟨[_, _], _, rfl, hsamples, ?_⟩, if_pos hsamples⟩
    simpa using ⟨hempty, hstray⟩
  rw [if_neg hsamples]
  by_cases hcallback : r.callback = none
  · refine .inl ⟨.noCallback, ⟨[_, _, _], _, rfl, hcallback, ?_⟩, if_pos (by simp [hcallback])⟩
    simpa using ⟨hempty, hstray, hsamples⟩
  rw [if_neg (by simpa using hcallback)]
  by_cases hrate : r.rate = 0 ∨ config.maxRate < r.rate
  · refine .inl ⟨.rateOutOfRange, ⟨[_, _, _, _], _, rfl, hrate, ?_⟩, if_pos (by simpa using hrate)⟩
    simpa using ⟨hempty, hstray, hsamples, hcallback⟩
  refine .inr ⟨fun reason hne hobjection => ?_, if_neg (by simpa using hrate)⟩
  cases reason with
  | emptyMask => exact hempty hobjection
  | strayMask => exact hstray hobjection
  | noSamplesPerChannel => exact hsamples hobjection
  | noCallback => exact hcallback hobjection
  | rateOutOfRange => exact hrate hobjection
  | frameTooLarge => exact hne rfl
  | _ => exact hobjection

/-- Both checks of a request in turn find its first objection; where there is none, they come to the
size of a frame. -/
theorem checks_decided {config : Config} (hsize : config.bytesPerSample.toNat ≤ 2 ^ 28) :
    (∃ reason, r.FirstObjection config reason ∧
      (r.check config = .error (.invalidArgument reason) ∨
        r.check config = .ok () ∧ r.frameBytes config = .error (.invalidArgument reason))) ∨
    (∀ reason, ¬ r.Objection config reason) ∧ r.check config = .ok () ∧
      ∃ bytes, r.frameBytes config = .ok bytes ∧ bytes.toNat =
        r.samplesPerChannel.toNat * r.mask.toList.length * config.bytesPerSample.toNat := by
  rcases r.check_decided config with ⟨reason, hfirst, hcheck⟩ | ⟨hnone, hcheck⟩
  · exact .inl ⟨reason, hfirst, .inl hcheck⟩
  have hbytes := r.frameBytes_eq config
  rw [Nat.mod_eq_of_lt (r.frameSize_lt (by omega)), frameSize, Mask.count_eq_length] at hbytes
  split at hbytes
  · rename_i hlt
    refine .inr ⟨fun reason hobjection => ?_, hcheck, _, hbytes, ?_⟩
    · by_cases hne : reason = .frameTooLarge
      · subst hne
        exact Nat.not_le.2 hlt hobjection
      · exact hnone reason hne hobjection
    · rw [UInt32.toNat_ofNat', Nat.mod_eq_of_lt hlt]
  · rename_i hge
    refine .inl ⟨.frameTooLarge, ⟨[_, _, _, _, _], [], rfl, Nat.not_lt.1 hge, ?_⟩,
      .inr ⟨hcheck, hbytes⟩⟩
    intro earlier hmem
    exact hnone earlier (by rintro rfl; simp at hmem)

/-! ## Tables of channels -/

/-- The table has every channel of the mask just once, in ascending order, each with the settings of
the request. -/
structure Tabulates (r : ContinuousRequest φ) (config : Config) (table : List PatternEntry) :
    Prop where
  ascending : table.Pairwise fun e e' => e.channel.number < e'.channel.number
  channels : ∀ c, (∃ e ∈ table, e.channel = c) ↔ r.mask.contains c = true
  settings : ∀ e ∈ table, e.range = ⟨r.attenuation, config.width⟩

theorem tabulates_pattern (r : ContinuousRequest φ) (config : Config) :
    r.Tabulates config (r.pattern config) where
  ascending := List.pairwise_map.2 r.mask.ascending_toList
  channels c := by
    rw [← Mask.mem_toList]
    constructor
    · rintro ⟨e, he, rfl⟩
      obtain ⟨c, hc, rfl⟩ := List.mem_map.1 he
      exact hc
    · exact fun hc => ⟨_, List.mem_map.2 ⟨c, hc, rfl⟩, rfl⟩
  settings e he := by
    obtain ⟨c, -, rfl⟩ := List.mem_map.1 he
    rfl

end ContinuousRequest

end SharedAdc
