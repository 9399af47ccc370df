/-
The averages of an accumulator. Whatever frames are counted, in whatever pieces, and whenever
averages are taken or everything is reset: the average of a channel is that of the codes that the
frames had for it since, but for those that would have made its sum too large.
-/
import Mathlib.Algebra.Order.BigOperators.Group.List
import Mathlib.Data.List.Induction
import SharedAdc.Frame.Accumulator
import SharedAdc.Proofs.Frame.Codec

namespace SharedAdc

/-! ## Sums over channels -/

namespace Channel

/-- The sum over all channels. -/
def sum (f : Channel → Nat) : Nat := (all.map f).sum

theorem sum_add (f g : Channel → Nat) : sum (fun c => f c + g c) = sum f + sum g :=
  List.sum_map_add

/-- Where one channel has one more, all of them together have one more. -/
theorem sum_succ {f g : Channel → Nat} (c : Channel) (hc : g c = f c + 1)
    (hne : ∀ d, d ≠ c → g d = f d) : sum g = sum f + 1 := by
  have hg : g = fun d => f d + if d = c then 1 else 0 := by
    funext d
    by_cases hd : d = c
    · subst hd
      rw [hc, if_pos rfl]
    · rw [hne d hd, if_neg hd, Nat.add_zero]
  have hone : ∀ c : Channel, (sum fun d => if d = c then 1 else 0) = 1 := by
    rintro ⟨i⟩
    revert i
    decide
  rw [hg, sum_add, hone]

end Channel

/-! ## What a channel is given -/

/-- The codes that a frame has for channel `c`, in order: of every word that names the channel the
low twelve bits. -/
def Frame.codes (c : Channel) (f : Frame) : List Nat :=
  (f.words.filter fun word => word / 2 ^ 13 % 2 ^ 4 = c.number).map fun word => word % 2 ^ 12

namespace Accumulator

/-- What an accumulator is used for. -/
inductive Use where
  | accumulate (frame : Frame)
  | take (channel : Channel)
  | reset

/-- The codes that a channel was given. -/
structure Intake where
  /-- Those since its average was last taken or everything was reset, in order. -/
  pending : List Nat := []
  /-- Those before, one batch for each time. -/
  closed : List (List Nat) := []

namespace Intake

/-- What channel `c` was given after one more use. -/
def after (c : Channel) (s : Intake) : Use → Intake
  | .accumulate frame => { s with pending := s.pending ++ frame.codes c }
  | .take d => if d = c then ⟨[], s.pending :: s.closed⟩ else s
  | .reset => ⟨[], s.pending :: s.closed⟩

end Intake

/-- What channel `c` was given in the course of `uses`. -/
def intake (c : Channel) (uses : List Use) : Intake := uses.foldl (Intake.after c) {}

/-- The codes that fit, each in turn, on top of `sum` into a word. -/
def accepted (sum : Nat) : List Nat → List Nat
  | [] => []
  | code :: codes =>
    if sum + code < 2 ^ 32 then code :: accepted (sum + code) codes else accepted sum codes

/-- The number of codes that fitted, over all batches. -/
def Intake.size (s : Intake) : Nat :=
  ((s.pending :: s.closed).map fun codes => (accepted 0 codes).length).sum

/-! ## What an accumulator does -/

/-- The accumulator after a use, and how many codes the use counted. -/
def after (a : Accumulator) : Use → Accumulator × Nat
  | .accumulate frame => a.accumulate frame
  | .take c => ((a.take c).2, 0)
  | .reset => (empty, 0)

/-- The accumulator after `uses`, and how many codes they counted altogether. -/
def run (uses : List Use) : Accumulator × Nat :=
  uses.foldl (fun s use => ((s.1.after use).1, s.2 + (s.1.after use).2)) (empty, 0)

/-! ## Codes that fit -/

theorem accepted_append (sum : Nat) (codes more : List Nat) : accepted sum (codes ++ more) =
    accepted sum codes ++ accepted (sum + (accepted sum codes).sum) more := by
  fun_induction accepted sum codes with
  | case1 => rfl
  | case2 sum code codes hfits ih =>
    rw [List.cons_append, accepted, if_pos hfits, ih, List.sum_cons, Nat.add_assoc,
      List.cons_append]
  | case3 sum code codes hfull ih => rw [List.cons_append, accepted, if_neg hfull, ih]

theorem sum_accepted_lt {sum : Nat} (h : sum < 2 ^ 32) (codes : List Nat) :
    sum + (accepted sum codes).sum < 2 ^ 32 := by
  fun_induction accepted sum codes with
  | case1 => simpa using h
  | case2 sum code codes hfits ih =>
    rw [List.sum_cons, ← Nat.add_assoc]
    exact ih hfits
  | case3 sum code codes hfull ih => exact ih h

theorem accepted_sublist (sum : Nat) (codes : List Nat) : (accepted sum codes).Sublist codes := by
  fun_induction accepted sum codes with
  | case1 => exact .slnil
  | case2 sum code codes hfits ih => exact ih.cons_cons code
  | case3 sum code codes hfull ih => exact ih.cons code

/-! ## Codes of records -/

theorem codeFor_ofWord (c : Channel) (word : Nat) :
    codeFor c (.ofWord (UInt32.ofNat word)) =
      if word / 2 ^ 13 % 2 ^ 4 = c.number then [word % 2 ^ 12] else [] := by
  have hchannel : (Record.ofWord (UInt32.ofNat word)).channel? = some c ↔
      word / 2 ^ 13 % 2 ^ 4 = c.number := by
    rw [Record.channel?, Channel.ofIndex?_eq_some_iff, Record.toNat_channel_ofWord,
      UInt32.toNat_ofNat']
    omega
  have hraw : (Record.ofWord (UInt32.ofNat word)).raw.toNat = word % 2 ^ 12 := by
    rw [Record.toNat_raw_ofWord, UInt32.toNat_ofNat']
    omega
  simp only [codeFor, hchannel, hraw]

/-- The codes that a frame has for a channel are those of its records. -/
theorem codes_eq_flatMap (c : Channel) (f : Frame) : f.codes c = f.decode.flatMap (codeFor c) := by
  rw [Frame.decode_eq_map, List.flatMap_map, Frame.codes]
  induction f.words with
  | nil => rfl
  | cons word words ih =>
    rw [List.flatMap_cons, ← ih, codeFor_ofWord, List.filter_cons]
    by_cases hnames : word / 2 ^ 13 % 2 ^ 4 = c.number
    · rw [if_pos hnames, if_pos (decide_eq_true hnames)]
      rfl
    · rw [if_neg hnames, if_neg (by simpa using hnames)]
      rfl

theorem lt_of_mem_codes {c : Channel} {f : Frame} {code : Nat} (h : code ∈ f.codes c) :
    code < 2 ^ 12 := by
  obtain ⟨word, -, rfl⟩ := List.mem_map.1 h
  exact Nat.mod_lt _ (by decide)

/-! ## The tally of one channel -/

/-- The tally has counted just those of `codes` that fit. -/
structure Counts (t : Tally) (codes : List Nat) : Prop where
  sum : t.sum.toNat = (accepted 0 codes).sum
  count : t.count = UInt32.ofNat (accepted 0 codes).length

theorem counts_empty : Counts {} [] := ⟨rfl, rfl⟩

namespace Counts

variable {t : Tally} {codes : List Nat}

theorem eq (h : Counts t codes) {t' : Tally} (h' : Counts t' codes) : t = t' := by
  cases t
  cases t'
  simp only [Tally.mk.injEq]
  exact ⟨UInt32.toNat_inj.1 (h.sum.trans h'.sum.symm), h.count.trans h'.count.symm⟩

theorem accepted_concat (h : Counts t codes) (raw : UInt16) :
    accepted 0 (codes ++ [raw.toNat]) =
      accepted 0 codes ++ if t.sum.toNat + raw.toNat < UInt32.size then [raw.toNat] else [] := by
  rw [accepted_append, Nat.zero_add, ← h.sum]
  rfl

/-- A code that fits is counted. -/
theorem add_some (h : Counts t codes) {raw : UInt16} {t' : Tally} (hadd : t.add? raw = some t') :
    Counts t' (codes ++ [raw.toNat]) ∧
      (accepted 0 (codes ++ [raw.toNat])).length = (accepted 0 codes).length + 1 := by
  have hconcat := h.accepted_concat raw
  unfold Tally.add? at hadd
  split at hadd <;> cases hadd
  rename_i hfits
  rw [if_pos hfits] at hconcat
  rw [hconcat]
  refine ⟨⟨?_, ?_⟩, List.length_append⟩
  · rw [hconcat, List.sum_append, List.sum_singleton, ← h.sum, UInt32.toNat_add,
      UInt16.toNat_toUInt32]
    exact Nat.mod_eq_of_lt hfits
  · rw [hconcat, List.length_append, List.length_singleton, UInt32.ofNat_add, ← h.count]
    rfl

/-- A code that does not fit changes nothing. -/
theorem add_none (h : Counts t codes) {raw : UInt16} (hadd : t.add? raw = none) :
    Counts t (codes ++ [raw.toNat]) ∧ accepted 0 (codes ++ [raw.toNat]) = accepted 0 codes := by
  have hconcat := h.accepted_concat raw
  unfold Tally.add? at hadd
  split at hadd <;> cases hadd
  rename_i hfull
  rw [if_neg hfull, List.append_nil] at hconcat
  exact ⟨⟨by rw [hconcat, h.sum], by rw [hconcat, h.count]⟩, hconcat⟩

/-- The average is that of the codes that fitted, as long as there are not too many to be
counted. -/
theorem average (h : Counts t codes) (hlt : (accepted 0 codes).length < 2 ^ 32)
    (hcodes : ∀ code ∈ codes, code < 2 ^ 12) :
    (accepted 0 codes = [] → t.average? = none) ∧
      (accepted 0 codes ≠ [] → ∃ value, t.average? = some value ∧
        value.toNat = (accepted 0 codes).sum / (accepted 0 codes).length ∧ value.toNat ≤ 4095) := by
  have hcount : t.count.toNat = (accepted 0 codes).length := by
    rw [h.count, UInt32.toNat_ofNat', Nat.mod_eq_of_lt hlt]
  refine ⟨fun hnil => ?_, fun hne => ?_⟩
  · have hzero : t.count = 0 := by rw [h.count, hnil]; rfl
    rw [Tally.average?, if_pos hzero]
  · have hpos : 0 < (accepted 0 codes).length := List.length_pos_iff.2 hne
    have hzero : t.count ≠ 0 := by
      intro hzero
      rw [hzero] at hcount
      exact absurd hcount (Nat.ne_of_lt hpos)
    have hsum : (accepted 0 codes).sum ≤ (accepted 0 codes).length * 4095 := by
      refine List.sum_le_card_nsmul _ _ fun code hmem => ?_
      have := hcodes code ((accepted_sublist 0 codes).subset hmem)
      omega
    have hle : (accepted 0 codes).sum / (accepted 0 codes).length ≤ 4095 :=
      Nat.div_le_of_le_mul hsum
    have hvalue : (t.sum / t.count).toUInt16.toNat =
        (accepted 0 codes).sum / (accepted 0 codes).length := by
      rw [UInt32.toNat_toUInt16, UInt32.toNat_div, h.sum, hcount]
      exact Nat.mod_eq_of_lt (Nat.lt_of_le_of_lt hle (by decide))
    exact ⟨_, if_neg hzero, hvalue, hvalue ▸ hle⟩

end Counts

/-! ## All tallies -/

/-- The number of codes that fitted, over all channels. -/
def sizes (codes : Channel → List Nat) : Nat :=
  Channel.sum fun c => (accepted 0 (codes c)).length

section

variable {a : Accumulator} {codes : Channel → List Nat}

/-- A record is counted for the channel that it names, if its code fits there. -/
theorem add_counts (h : ∀ c, Counts (a.tally c) (codes c)) (r : Record) :
    (∀ c, Counts ((a.add r).1.tally c) (codes c ++ codeFor c r)) ∧
      sizes (fun c => codes c ++ codeFor c r) = sizes codes + (a.add r).2.toNat := by
  unfold add codeFor
  cases hr : r.channel? with
  | none => simpa using h
  | some c =>
    have hother : ∀ d, d ≠ c → (codes d ++ if some c = some d then [r.raw.toNat] else []) =
        codes d := by
      intro d hd
      rw [if_neg (by simpa using Ne.symm hd), List.append_nil]
    dsimp only
    cases hadd : (a.tally c).add? r.raw with
    | none =>
      obtain ⟨hcounts, hsame⟩ := (h c).add_none hadd
      refine ⟨fun d => ?_, ?_⟩
      · by_cases hd : d = c
        · subst hd
          simpa using hcounts
        · rw [hother d hd]
          exact h d
      · refine (congrArg Channel.sum (funext fun d => ?_)).trans (Nat.add_zero _).symm
        by_cases hd : d = c
        · subst hd
          simp [hsame]
        · exact congrArg (fun l => (accepted 0 l).length) (hother d hd)
    | some t =>
      obtain ⟨hcounts, hlength⟩ := (h c).add_some hadd
      refine ⟨fun d => ?_, ?_⟩
      · rw [tally_set]
        by_cases hd : d = c
        · subst hd
          simpa using hcounts
        · rw [hother d hd, if_neg (Ne.symm hd)]
          exact h d
      · refine Channel.sum_succ c (by simpa using hlength) fun d hd => ?_
        exact congrArg (fun l => (accepted 0 l).length) (hother d hd)

/-- The records of a frame are counted for their channels, in order. -/
theorem addAll_counts (h : ∀ c, Counts (a.tally c) (codes c)) (records : List Record) :
    (∀ c, Counts ((a.addAll records).1.tally c) (codes c ++ records.flatMap (codeFor c))) ∧
      sizes (fun c => codes c ++ records.flatMap (codeFor c)) =
        sizes codes + (a.addAll records).2 := by
  -- on the records from their end: the last is added to what the others have made
  induction records using List.reverseRecOn with
  | nil => simpa [addAll] using h
  | append_singleton records r ih =>
    obtain ⟨hcounts, hsizes⟩ := ih
    obtain ⟨hcounts', hsizes'⟩ := add_counts hcounts r
    simp only [addAll_concat, List.flatMap_append, List.flatMap_singleton, ← List.append_assoc]
    exact ⟨hcounts', by rw [hsizes', hsizes, Nat.add_assoc]⟩

end

/-! ## Runs -/

/-- The tallies have counted what fitted of the codes pending, and the number of codes counted so
far is that of all codes that fitted. -/
structure Tracks (s : Accumulator × Nat) (given : Channel → Intake) : Prop where
  counts : ∀ c, Counts (s.1.tally c) (given c).pending
  size : s.2 = Channel.sum fun c => (given c).size

theorem size_cons (s : Intake) : s.size =
    (accepted 0 s.pending).length + (s.closed.map fun codes => (accepted 0 codes).length).sum := rfl

theorem Tracks.after {s : Accumulator × Nat} {given : Channel → Intake} (h : Tracks s given)
    (use : Use) : Tracks ((s.1.after use).1, s.2 + (s.1.after use).2)
      fun c => (given c).after c use := by
  have hclosed : ∀ t : Intake, (⟨[], t.pending :: t.closed⟩ : Intake).size = t.size := fun t => by
    simp [size_cons, accepted]
  cases use with
  | accumulate frame =>
    obtain ⟨hcounts, hsizes⟩ := addAll_counts h.counts frame.decode
    refine ⟨fun c => ?_, ?_⟩
    · simp only [Intake.after, codes_eq_flatMap]
      exact hcounts c
    · have hsplit : ∀ given : Channel → Intake, (Channel.sum fun c => (given c).size) =
          sizes (fun c => (given c).pending) + Channel.sum fun c =>
            ((given c).closed.map fun codes => (accepted 0 codes).length).sum := fun given =>
        Channel.sum_add ..
      rw [hsplit]
      simp only [Intake.after, codes_eq_flatMap, hsizes, h.size, hsplit given]
      show _ + (s.1.addAll frame.decode).2 = _
      omega
  | take d =>
    refine ⟨fun c => ?_, ?_⟩
    · show Counts ((s.1.take d).2.tally c) _
      rw [tally_take]
      by_cases hd : d = c
      · simpa [Intake.after, hd] using counts_empty
      · simpa [Intake.after, hd] using h.counts c
    · refine h.size.trans (congrArg Channel.sum (funext fun c => ?_))
      by_cases hd : d = c
      · simp [Intake.after, hd, hclosed]
      · simp [Intake.after, hd]
  | reset =>
    refine ⟨fun c => ?_, ?_⟩
    · show Counts (empty.tally c) _
      rw [tally_empty]
      exact counts_empty
    · refine h.size.trans (congrArg Channel.sum (funext fun c => ?_))
      exact (hclosed _).symm

theorem intake_concat (c : Channel) (uses : List Use) (use : Use) :
    intake c (uses ++ [use]) = (intake c uses).after c use := by
  simp [intake]

/-- However an accumulator is used, its tallies and counts follow what the channels are given. -/
theorem tracks_run (uses : List Use) : Tracks (run uses) fun c => intake c uses := by
  induction uses using List.reverseRecOn with
  | nil => exact ⟨fun c => by rw [run, List.foldl_nil, tally_empty]; exact counts_empty, by decide⟩
  | append_singleton uses use ih =>
    have hrun : run (uses ++ [use]) =
        (((run uses).1.after use).1, (run uses).2 + ((run uses).1.after use).2) := by
      simp [run]
    simp only [hrun, intake_concat]
    exact ih.after use

theorem lt_of_mem_pending {c : Channel} {uses : List Use} {code : Nat}
    (h : code ∈ (intake c uses).pending) : code < 2 ^ 12 := by
  induction uses using List.reverseRecOn with
  | nil => cases h
  | append_singleton uses use ih =>
    rw [intake_concat] at h
    cases use with
    | accumulate frame => exact (List.mem_append.1 h).elim ih lt_of_mem_codes
    | take d =>
      unfold Intake.after at h
      dsimp only at h
      split at h
      · cases h
      · exact ih h
    | reset => cases h

/-- What the use of one channel makes of another is nothing. -/
theorem intake_take {c d : Channel} (h : d ≠ c) (uses later : List Use) :
    intake d (uses ++ .take c :: later) = intake d (uses ++ later) := by
  simp only [intake, List.foldl_append, List.foldl_cons, Intake.after, if_neg (Ne.symm h)]

/-- Averages are exact. If fewer than `2 ^ 32` of the codes pending for a channel fitted, its
average is theirs, rounded down, and there is none if there are none; taking it leaves the later
averages of all other channels as they are. Altogether just those codes were counted that
fitted. -/
theorem averages_exact (uses : List Use) :
    (∀ c, let codes := accepted 0 (intake c uses).pending
      codes.length < 2 ^ 32 → (codes = [] → ((run uses).1.take c).1 = none) ∧
        (codes ≠ [] → ∃ value, ((run uses).1.take c).1 = some value ∧
          value.toNat = codes.sum / codes.length ∧ value.toNat ≤ 4095)) ∧
    (∀ c d later, d ≠ c → ((run (uses ++ .take c :: later)).1.take d).1 =
      ((run (uses ++ later)).1.take d).1) ∧
    (run uses).2 = Channel.sum fun c => (intake c uses).size := by
  refine ⟨fun c => ?_, fun c d later h => ?_, (tracks_run uses).size⟩
  · exact fun hlt => ((tracks_run uses).counts c).average hlt fun _ => lt_of_mem_pending
  · have htaken := (tracks_run (uses ++ .take c :: later)).counts d
    rw [intake_take h] at htaken
    exact congrArg Tally.average? (htaken.eq ((tracks_run (uses ++ later)).counts d))

/-- A frame of two channels, with a record that names no channel of the unit and a byte too many,
and another frame after the average of one channel was taken. -/
theorem averages_exact_two_channels :
    let first : Use := .accumulate
      (Frame.encode [⟨0, 3, 100⟩, ⟨1, 3, 201⟩, ⟨0, 12, 7⟩, ⟨0, 1, 9⟩] ++ [5])
    let second : Use := .accumulate (Frame.encode [⟨0, 3, 50⟩])
    ((run [first]).1.take 3).1 = some 150 ∧ ((run [first, .take 3]).1.take 3).1 = none ∧
      ((run [first, .take 3, second]).1.take 1).1 = ((run [first, second]).1.take 1).1 ∧
      (run [first, .take 3, second]).2 = 4 := by
  intro first second
  obtain ⟨value, hvalue, haverage, -⟩ :=
    ((averages_exact [first]).1 3 (by decide)).2 (by decide)
  obtain rfl : value = 150 := UInt16.toNat_inj.1 (haverage.trans (by decide))
  exact ⟨hvalue, ((averages_exact [first, .take 3]).1 3 (by decide)).1 (by decide),
    (averages_exact [first]).2.1 3 1 [second] (by decide),
    (averages_exact [first, .take 3, second]).2.2.trans (by decide)⟩

end Accumulator

end SharedAdc
