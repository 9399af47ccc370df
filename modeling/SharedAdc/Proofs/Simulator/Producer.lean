/-
What a producer makes. It goes through its table again and again, one record for each entry whose turn
it is, and takes its turn along from frame to frame: a table that does not fit evenly into a frame is
broken off at the end of one frame and gone on with in the next.
-/
import Mathlib.Data.List.Forall2
import SharedAdc.Proofs.Frame.Codec
import SharedAdc.Simulator.Basic

namespace SharedAdc

/-! ## Taking turns -/

section

variable {α β : Type}

/-- The item whose turn it is after `k` others, where a table is gone through again and again. -/
def turn (table : List α) (k : Nat) : Option α := table[k % table.length]?

/-- The `n` items whose turn it is from turn `start` on. -/
def turns (table : List α) (start n : Nat) : List α :=
  (List.range' start n).filterMap (turn table)

theorem turns_succ {table : List α} {start : Nat} {x : α} (h : turn table start = some x) (n : Nat) :
    turns table start (n + 1) = x :: turns table (start + 1) n := by
  rw [turns, List.range'_succ, List.filterMap_cons_some h, turns]

theorem turn_of_lt {table : List α} {k : Nat} (h : k < table.length) : turn table k = some table[k] := by
  rw [turn, Nat.mod_eq_of_lt h, List.getElem?_eq_getElem h]

theorem turn_add_rounds (table : List α) (rounds k : Nat) :
    turn table (table.length * rounds + k) = turn table k := by
  rw [turn, Nat.mul_add_mod, turn]

theorem exists_turn {table : List α} (h : table ≠ []) (k : Nat) : ∃ x, turn table k = some x :=
  ⟨_, List.getElem?_eq_getElem (Nat.mod_lt _ (List.length_pos_iff.2 h))⟩

theorem turns_append (table : List α) (start m n : Nat) :
    turns table start m ++ turns table (start + m) n = turns table start (m + n) := by
  rw [turns, turns, turns, ← List.filterMap_append, List.range'_append_1]

theorem map_turns (f : α → β) (table : List α) (start n : Nat) :
    (turns table start n).map f = turns (table.map f) start n := by
  have hturn : (fun k => (turn table k).map f) = turn (table.map f) := by
    funext k
    rw [turn, turn, List.getElem?_map, List.length_map]
  rw [turns, turns, List.map_filterMap, hturn]

/-- Whole rounds more do not change whose turn it is. -/
theorem turns_add_rounds (table : List α) (rounds start n : Nat) :
    turns table (table.length * rounds + start) n = turns table start n := by
  have hsame : turn table ∘ (table.length * rounds + ·) = turn table :=
    funext (turn_add_rounds table rounds)
  rw [turns, ← List.map_add_range', List.filterMap_map, hsame, turns]

/-- What is left of a round is the rest of the table. -/
theorem turns_rest (table : List α) {start n : Nat} (h : start + n = table.length) :
    turns table start n = table.drop start := by
  induction n generalizing start with
  | zero =>
    rw [List.drop_of_length_le (by omega)]
    rfl
  | succ n ih =>
    have hlt : start < table.length := by omega
    rw [turns_succ (turn_of_lt hlt), ih (by omega), List.drop_eq_getElem_cons hlt]

/-- Several rounds, begun with the first item, are the table as often. -/
theorem turns_rounds (table : List α) (before rounds : Nat) :
    turns table (table.length * before) (table.length * rounds) =
      (List.replicate rounds table).flatten := by
  induction rounds generalizing before with
  | zero => rfl
  | succ rounds ih =>
    have hround : turns table (table.length * before) table.length = table := by
      have h := turns_add_rounds table before 0 table.length
      rwa [Nat.add_zero, turns_rest table (Nat.zero_add _), List.drop_zero] at h
    rw [Nat.mul_succ, Nat.add_comm, ← turns_append, hround, ← Nat.mul_succ, ih (before + 1),
      List.replicate_succ, List.flatten_cons]

/-- What begins with the first item is the beginning of the table repeated. -/
theorem turns_prefix (table : List α) {n rounds : Nat} (h : n ≤ table.length * rounds) :
    turns table 0 n <+: (List.replicate rounds table).flatten := by
  have hall := turns_append table 0 n (table.length * rounds - n)
  rw [Nat.add_sub_cancel' h] at hall
  have hrounds := turns_rounds table 0 rounds
  rw [Nat.mul_zero] at hrounds
  exact ⟨_, hall.trans hrounds⟩

theorem mem_of_mem_turns {table : List α} {start n : Nat} {x : α} (h : x ∈ turns table start n) :
    x ∈ table := by
  obtain ⟨k, -, hk⟩ := List.mem_filterMap.1 h
  exact List.mem_of_getElem? hk

theorem length_turns {table : List α} (h : table ≠ []) (start n : Nat) :
    (turns table start n).length = n := by
  induction n generalizing start with
  | zero => rfl
  | succ n ih =>
    obtain ⟨x, hx⟩ := exists_turn h start
    rw [turns_succ hx, List.length_cons, ih]

end

/-! ## Records -/

namespace Simulator

/-- A record that was decoded from a frame is a conversion for `entry`, with some noise if there is
any, as far as its code fits into the field. -/
structure Converts (inputs : Vector UInt32 10) (peak : UInt16) (entry : PatternEntry) (r : Record) :
    Prop where
  unit : r.unit = 0
  channel : r.channel? = some entry.channel
  raw : ∃ noise, (peak = 0 → noise = 0) ∧
    r.raw = convert (inputs.get entry.channel.index) entry.range noise % 4096

namespace Producer

variable {p : Producer} {inputs : Vector UInt32 10}

theorem within_zero (g : Generator) {peak : UInt16} (h : peak = 0) : (g.within peak).1 = 0 := by
  subst h
  rfl

theorem makeRecord_turn (p : Producer) (inputs : Vector UInt32 10) {entry : PatternEntry}
    (h : turn p.pattern p.made = some entry) :
    ∃ record generator, p.makeRecord inputs =
      some (record, { p with generator, made := p.made + 1 }) ∧
      Converts inputs p.noise entry record.cut := by
  unfold turn at h
  rw [makeRecord, h]
  refine ⟨_, _, rfl, ?_, ?_, _, within_zero p.generator, rfl⟩
  · rfl
  · have hchannel : (UInt8.ofNat entry.channel.number % 16).toNat = entry.channel.number := by
      have hlt := entry.channel.number_lt
      rw [UInt8.toNat_mod, UInt8.toNat_ofNat']
      show entry.channel.number % 256 % 16 = _
      omega
    show Channel.ofIndex? (UInt8.ofNat entry.channel.number % 16).toNat = _
    rw [hchannel, Channel.ofIndex?_number]

/-- As many records are made as are asked for, for the entries whose turn it is. -/
theorem makeRecords_turns (p : Producer) (inputs : Vector UInt32 10) (h : p.pattern ≠ []) (n : Nat) :
    ∃ records generator, p.makeRecords inputs n =
      (records, { p with generator, made := p.made + n }) ∧
      List.Forall₂ (Converts inputs p.noise) (turns p.pattern p.made n)
        (records.map Record.cut) := by
  induction n generalizing p with
  | zero => exact ⟨[], p.generator, rfl, .nil⟩
  | succ n ih =>
    obtain ⟨entry, hturn⟩ := exists_turn h p.made
    obtain ⟨record, generator, hrecord, hconverts⟩ := makeRecord_turn p inputs hturn
    obtain ⟨records, generator', hrecords, hrest⟩ :=
      ih { p with generator, made := p.made + 1 } h
    refine ⟨record :: records, generator', ?_, ?_⟩
    · simp only [makeRecords, hrecord, hrecords, Nat.add_assoc, Nat.add_comm 1 n]
    · rw [turns_succ hturn]
      exact .cons hconverts hrest

end Producer

end Simulator

/-! ## Frames -/

namespace Frame

theorem length_encode (records : List Record) :
    (encode records).length = Record.size * records.length := by
  induction records with
  | nil => rfl
  | cons r records ih =>
    have hcons : encode (r :: records) = r.encode ++ encode records := rfl
    have hfour : r.encode.length = Record.size := rfl
    rw [hcons, List.length_append, ih, hfour, List.length_cons, Nat.mul_succ, Nat.add_comm]

/-- The channels of the records of a frame in order. -/
def channels (f : Frame) : List (Option Channel) := (decode f).map Record.channel?

end Frame

namespace Simulator.Producer

/-- The number of records in a frame. -/
def perFrame (p : Producer) : Nat := p.frameBytes.toNat / Record.size

/-- Frames made one after the other, each from the voltages of its time. -/
def makeFrames (p : Producer) : List (Vector UInt32 10) → List Frame × Producer
  | [] => ([], p)
  | inputs :: later =>
    let (frame, p) := p.makeFrame inputs
    let (frames, p) := p.makeFrames later
    (frame :: frames, p)

theorem makeFrame_turns (p : Producer) (inputs : Vector UInt32 10) (h : p.pattern ≠ []) :
    ∃ frame generator, p.makeFrame inputs =
      (frame, { p with generator, made := p.made + p.perFrame }) ∧
      frame.length = Record.size * p.perFrame ∧
      List.Forall₂ (Converts inputs p.noise) (turns p.pattern p.made p.perFrame)
        (Frame.decode frame) := by
  obtain ⟨records, generator, hrecords, hconverts⟩ := makeRecords_turns p inputs h p.perFrame
  have hdecoded : Frame.decode (Frame.encode records) = records.map Record.cut := by
    have hall := Frame.decode_encode records []
    have hnil : Frame.decode [] = [] := rfl
    rwa [hnil, List.append_nil, List.append_nil] at hall
  have hcount : records.length = p.perFrame := by
    rw [← List.length_map Record.cut, ← hconverts.length_eq, length_turns h]
  refine ⟨Frame.encode records, generator, ?_, ?_, ?_⟩
  · unfold makeFrame
    unfold perFrame at hrecords
    rw [hrecords]
    rfl
  · rw [Frame.length_encode, hcount]
  · rw [hdecoded]
    exact hconverts

/-- Every record of a frame was made for an entry of the table. -/
theorem exists_entry (p : Producer) {inputs : Vector UInt32 10} (h : p.pattern ≠ []) {r : Record}
    (hr : r ∈ Frame.decode (p.makeFrame inputs).1) :
    ∃ entry ∈ p.pattern, Converts inputs p.noise entry r := by
  have hmade : ∀ {entries records}, List.Forall₂ (Converts inputs p.noise) entries records →
      r ∈ records → ∃ entry ∈ entries, Converts inputs p.noise entry r := by
    intro entries records hall
    induction hall with
    | nil => exact nofun
    | cons hfirst _ ih =>
      intro hmem
      rcases List.mem_cons.1 hmem with rfl | hlater
      · exact ⟨_, List.mem_cons_self, hfirst⟩
      · obtain ⟨entry, hentry, hconverts⟩ := ih hlater
        exact ⟨entry, List.mem_cons_of_mem _ hentry, hconverts⟩
  obtain ⟨frame, generator, hframe, -, hconverts⟩ := p.makeFrame_turns inputs h
  rw [hframe] at hr
  obtain ⟨entry, hentry, hrecord⟩ := hmade hconverts hr
  exact ⟨entry, mem_of_mem_turns hentry, hrecord⟩

/-- The channels of a frame are those whose turn it is. -/
theorem channels_makeFrame (p : Producer) (inputs : Vector UInt32 10) (h : p.pattern ≠ []) :
    (p.makeFrame inputs).1.channels =
      turns (p.pattern.map fun entry => some entry.channel) p.made p.perFrame := by
  obtain ⟨frame, generator, hframe, -, hconverts⟩ := makeFrame_turns p inputs h
  have hsame : ∀ {entries records}, List.Forall₂ (Converts inputs p.noise) entries records →
      records.map Record.channel? = entries.map fun entry => some entry.channel := by
    intro entries records hall
    induction hall with
    | nil => rfl
    | cons hfirst _ ih => rw [List.map_cons, List.map_cons, hfirst.channel, ih]
  rw [hframe, ← map_turns]
  exact hsame hconverts

/-- Frame after frame the table is gone on with where the frame before has broken it off. -/
theorem makeFrames_turns (p : Producer) (h : p.pattern ≠ []) (times : List (Vector UInt32 10)) :
    (∀ frame ∈ (p.makeFrames times).1, frame.length = Record.size * p.perFrame) ∧
      (p.makeFrames times).1.flatMap Frame.channels =
        turns (p.pattern.map fun entry => some entry.channel) p.made
          (p.perFrame * times.length) := by
  -- on the frames; each leaves the producer as it was, but for its turn and its generator
  induction times generalizing p with
  | nil => exact ⟨nofun, rfl⟩
  | cons inputs later ih =>
    obtain ⟨frame, generator, hframe, hlength, -⟩ := makeFrame_turns p inputs h
    have hchannels := channels_makeFrame p inputs h
    rw [hframe] at hchannels
    obtain ⟨hlengths, hrest⟩ := ih { p with generator, made := p.made + p.perFrame } h
    simp only [makeFrames, hframe]
    refine ⟨?_, ?_⟩
    · intro frame' hframe'
      rcases List.mem_cons.1 hframe' with rfl | hlater
      · exact hlength
      · exact hlengths frame' hlater
    · rw [List.flatMap_cons, hchannels, hrest, List.length_cons, Nat.mul_add_one,
        Nat.add_comm (p.perFrame * later.length)]
      exact turns_append ..

end Simulator.Producer

end SharedAdc
