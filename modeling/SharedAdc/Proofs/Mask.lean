/-
Masks as sets of channels. Whatever updates a mask goes through, a channel is in it as the latest
update that names the channel has left it, and no stray bit changes. The list of a mask has each of its
channels once, in ascending order and as many as are counted, and collecting the list keeps every bit
that names a channel.
-/
import Mathlib.Data.List.Basic
import SharedAdc.Channel.Mask

namespace SharedAdc

/-! ## Bits -/

namespace Mask

theorem getLsbD_unitBits (n : Nat) : unitBits.getLsbD n = decide (n < 10) := by
  rcases Nat.lt_or_ge n 16 with hlt | hge
  · have hall : ∀ n : Fin 16, unitBits.getLsbD n = decide (n.val < 10) := by decide
    exact hall ⟨n, hlt⟩
  · rw [BitVec.getLsbD_of_ge _ _ hge, decide_eq_false (by omega)]

/-- The bits of a mask are those of its channels and the stray ones. -/
theorem eq_of_contains {m m' : Mask} (hchannels : ∀ c, m.contains c = m'.contains c)
    (hstray : ∀ n, 10 ≤ n → m.bits.getLsbD n = m'.bits.getLsbD n) : m = m' := by
  have hbits : m.bits = m'.bits := by
    refine BitVec.eq_of_getLsbD_eq fun n _ => ?_
    rcases Nat.lt_or_ge n 10 with hlt | hge
    · exact hchannels ⟨⟨n, hlt⟩⟩
    · exact hstray n hge
  cases m
  cases m'
  exact congrArg Mask.mk hbits

theorem isEmpty_iff {m : Mask} : m.isEmpty = true ↔ m = .empty := by
  obtain ⟨bits⟩ := m
  simp [isEmpty, empty]

theorem isWithinUnit_iff {m : Mask} :
    m.isWithinUnit = true ↔ ¬ ∃ n, 10 ≤ n ∧ m.bits.getLsbD n = true := by
  constructor
  · rintro h ⟨n, hge, hbit⟩
    have hnone : m.bits &&& ~~~unitBits = 0#16 := by simpa [isWithinUnit] using h
    have hstray : (m.bits &&& ~~~unitBits).getLsbD n = true := by
      rw [BitVec.getLsbD_and, BitVec.getLsbD_not, getLsbD_unitBits, hbit,
        decide_eq_true (BitVec.lt_of_getLsbD hbit), decide_eq_false (Nat.not_lt.2 hge)]
      rfl
    rw [hnone, BitVec.getLsbD_zero] at hstray
    cases hstray
  · intro hnone
    refine beq_iff_eq.2 (BitVec.eq_of_getLsbD_eq fun n _ => ?_)
    rw [BitVec.getLsbD_and, BitVec.getLsbD_not, BitVec.ofNat_eq_ofNat, BitVec.getLsbD_zero,
      getLsbD_unitBits]
    rcases Nat.lt_or_ge n 10 with hlt | hge
    · rw [decide_eq_true hlt, Bool.not_true, Bool.and_false, Bool.and_false]
    · have hclear : m.bits.getLsbD n = false :=
        Bool.not_eq_true _ ▸ fun hbit => hnone ⟨n, hge, hbit⟩
      rw [hclear, Bool.false_and]

theorem getLsbD_of_isWithinUnit {m : Mask} (h : m.isWithinUnit = true) {n : Nat}
    (hn : m.bits.getLsbD n = true) : n < 10 :=
  Nat.not_le.1 fun hge => isWithinUnit_iff.1 h ⟨n, hge, hn⟩

/-! ## The list of a mask -/

theorem ascending_toList (m : Mask) : m.toList.Pairwise fun c d => c.number < d.number :=
  have hall : Channel.all.Pairwise fun c d => c.number < d.number := by decide
  hall.sublist List.filter_sublist

theorem nodup_toList (m : Mask) : m.toList.Nodup := by
  refine m.ascending_toList.imp fun {c d} hlt => ?_
  rintro rfl
  exact Nat.lt_irrefl _ hlt

/-- A mask that has no channel is empty, or has stray bits. -/
theorem exists_stray {m : Mask} (hempty : m.isEmpty = false) (hnil : m.toList = []) :
    ∃ n, 10 ≤ n ∧ m.bits.getLsbD n = true := by
  by_contra hstray
  have hnone : m = .empty := by
    refine eq_of_contains (fun c => ?_) fun n hge => ?_
    · rw [contains_empty, ← Bool.not_eq_true, ← mem_toList, hnil]
      exact List.not_mem_nil
    · have hclear : m.bits.getLsbD n = false :=
        Bool.not_eq_true _ ▸ fun hbit => hstray ⟨n, hge, hbit⟩
      rw [hclear]
      exact (BitVec.getLsbD_zero).symm
  rw [isEmpty_iff.2 hnone] at hempty
  cases hempty

end Mask

theorem toNat_cpop_eq_countP {w : Nat} (x : BitVec w) :
    x.cpop.toNat = (List.range w).countP x.getLsbD := by
  have hfirst : ∀ n, x.cpopNatRec n 0 = (List.range n).countP x.getLsbD := by
    intro n
    induction n with
    | zero => rfl
    | succ n ih =>
      rw [BitVec.cpopNatRec_succ, BitVec.cpopNatRec_add, ih, List.range_succ, List.countP_append]
      cases h : x.getLsbD n <;> simp [h]
  rw [BitVec.toNat_cpop, hfirst]

namespace Mask

/-- As many bits are counted as there are channels in the list. -/
theorem count_eq_length (m : Mask) : m.count = m.toList.length := by
  have hbits : List.range 16 = (List.finRange 10).map Fin.val ++ [10, 11, 12, 13, 14, 15] := by
    decide
  have hchannels : ∀ n : Fin 10, (m.bits &&& unitBits).getLsbD n = m.contains ⟨n⟩ := by
    intro n
    rw [BitVec.getLsbD_and, getLsbD_unitBits, decide_eq_true n.isLt, Bool.and_true]
    rfl
  have hnone : ∀ n ∈ [10, 11, 12, 13, 14, 15], ¬(m.bits &&& unitBits).getLsbD n = true := by
    have hstray : ∀ n ∈ [10, 11, 12, 13, 14, 15], ¬n < 10 := by decide
    intro n hn
    rw [BitVec.getLsbD_and, getLsbD_unitBits, decide_eq_false (hstray n hn), Bool.and_false]
    exact Bool.false_ne_true
  rw [count, toNat_cpop_eq_countP, hbits, List.countP_append, List.countP_eq_zero.2 hnone,
    List.countP_map, toList, Channel.all, ← List.countP_eq_length_filter, List.countP_map]
  exact List.countP_congr fun n _ => by simp [hchannels]

theorem count_le (m : Mask) : m.count ≤ 10 := by
  rw [count_eq_length]
  exact Nat.le_trans (List.length_filter_le _ _) (by decide)

/-! ## Updates -/

/-- An update of one channel of a mask. -/
inductive Update where
  | insert (channel : Channel)
  | erase (channel : Channel)
  deriving DecidableEq

def Update.channel : Update → Channel
  | .insert c => c
  | .erase c => c

def update (m : Mask) : Update → Mask
  | .insert c => m.insert c
  | .erase c => m.erase c

/-- The mask after some updates. -/
def through (m : Mask) (updates : List Update) : Mask := updates.foldl update m

/-- No update names the channel. -/
def Unnamed (c : Channel) (updates : List Update) : Prop := ∀ u ∈ updates, u.channel ≠ c

/-- The latest update that names the channel has put it in. -/
def PutIn (c : Channel) (updates : List Update) : Prop :=
  ∃ before later, updates = before ++ .insert c :: later ∧ Unnamed c later

section

variable {c : Channel} {u : Update} {updates : List Update}

theorem unnamed_cons : Unnamed c (u :: updates) ↔ u.channel ≠ c ∧ Unnamed c updates :=
  List.forall_mem_cons

theorem putIn_cons :
    PutIn c (u :: updates) ↔ PutIn c updates ∨ u = .insert c ∧ Unnamed c updates := by
  constructor
  · rintro ⟨before, later, hsplit, hlater⟩
    rcases List.cons_eq_append_iff.1 hsplit with ⟨-, hfirst⟩ | ⟨before', -, hrest⟩
    · cases hfirst
      exact .inr ⟨rfl, hlater⟩
    · exact .inl ⟨before', later, hrest, hlater⟩
  · rintro (⟨before, later, rfl, hlater⟩ | ⟨rfl, hlater⟩)
    · exact ⟨u :: before, later, rfl, hlater⟩
    · exact ⟨[], updates, rfl, hlater⟩

theorem contains_update (m : Mask) :
    (m.update u).contains c = true ↔ u = .insert c ∨ u.channel ≠ c ∧ m.contains c = true := by
  cases u with
  | insert d =>
    by_cases hsame : d = c <;> simp [update, Update.channel, hsame]
  | erase d =>
    by_cases hsame : d = c <;> simp [update, Update.channel, hsame]

/-- A channel is in a mask as the latest update that names it has left it. -/
theorem contains_through (m : Mask) :
    (m.through updates).contains c = true ↔
      PutIn c updates ∨ m.contains c = true ∧ Unnamed c updates := by
  induction updates generalizing m with
  | nil =>
    have hnever : ¬ PutIn c [] := by
      rintro ⟨before, later, hsplit, -⟩
      simp at hsplit
    simp [through, hnever, Unnamed]
  | cons u updates ih =>
    have hstep := ih (m.update u)
    rw [contains_update] at hstep
    rw [putIn_cons, unnamed_cons]
    exact hstep.trans (by tauto)

end

theorem getLsbD_bit_of_le (c : Channel) {n : Nat} (h : 10 ≤ n) : (bit c).getLsbD n = false := by
  have hc := c.number_lt
  simp [bit]
  omega

/-- No update touches a stray bit. -/
theorem stray_update (m : Mask) (u : Update) {n : Nat} (h : 10 ≤ n) :
    (m.update u).bits.getLsbD n = m.bits.getLsbD n := by
  cases u with
  | insert c =>
    rw [update, insert, BitVec.getLsbD_or, getLsbD_bit_of_le c h, Bool.or_false]
  | erase c =>
    rw [update, erase, BitVec.getLsbD_and, BitVec.getLsbD_not, getLsbD_bit_of_le c h, Bool.not_false,
      Bool.and_true]
    cases hbit : m.bits.getLsbD n with
    | true => rw [decide_eq_true (BitVec.lt_of_getLsbD hbit), Bool.and_true]
    | false => rw [Bool.false_and]

theorem stray_through (m : Mask) (updates : List Update) {n : Nat} (h : 10 ≤ n) :
    (m.through updates).bits.getLsbD n = m.bits.getLsbD n := by
  induction updates generalizing m with
  | nil => rfl
  | cons u updates ih => exact (ih (m.update u)).trans (m.stray_update u h)

/-! ## Collected channels -/

/-- Collecting channels is putting them in one after the other. -/
theorem ofList_eq_through (cs : List Channel) : ofList cs = empty.through (cs.map .insert) := by
  rw [through, List.foldl_map]
  rfl

theorem unnamed_inserts {c : Channel} {cs : List Channel} :
    Unnamed c (cs.map .insert) ↔ c ∉ cs := by
  simp only [Unnamed, List.forall_mem_map, Update.channel]
  exact ⟨fun h hc => h c hc rfl, fun h d hd hsame => h (hsame ▸ hd)⟩

theorem putIn_inserts {c : Channel} {cs : List Channel} : PutIn c (cs.map .insert) ↔ c ∈ cs := by
  induction cs with
  | nil => simp [PutIn]
  | cons d cs ih =>
    rw [List.map_cons, putIn_cons, ih, unnamed_inserts, List.mem_cons, Update.insert.injEq]
    tauto

theorem contains_ofList {cs : List Channel} {c : Channel} :
    (ofList cs).contains c = true ↔ c ∈ cs := by
  rw [ofList_eq_through, contains_through, putIn_inserts, contains_empty]
  simp

theorem stray_ofList (cs : List Channel) {n : Nat} (h : 10 ≤ n) :
    (ofList cs).bits.getLsbD n = false := by
  rw [ofList_eq_through, stray_through _ _ h]
  exact BitVec.getLsbD_zero

/-- Collecting the list of a mask gives the bits of the mask that name channels. -/
theorem ofList_toList (m : Mask) : ofList m.toList = ⟨m.bits &&& unitBits⟩ := by
  refine eq_of_contains (fun c => ?_) fun n hge => ?_
  · have hkept : (⟨m.bits &&& unitBits⟩ : Mask).contains c = m.contains c := by
      rw [contains, contains, BitVec.getLsbD_and, getLsbD_unitBits, decide_eq_true c.number_lt,
        Bool.and_true]
    rw [hkept, Bool.eq_iff_iff, contains_ofList, mem_toList]
  · rw [stray_ofList _ hge, BitVec.getLsbD_and, getLsbD_unitBits,
      decide_eq_false (Nat.not_lt.2 hge), Bool.and_false]

/-- The list of a mask is the set that the mask stands for. -/
structure Lists (m : Mask) (cs : List Channel) : Prop where
  mem : ∀ c, c ∈ cs ↔ m.contains c = true
  once : cs.Nodup
  ascending : cs.Pairwise fun c d => c.number < d.number
  length : cs.length = m.count
  collected : ofList cs = ⟨m.bits &&& unitBits⟩

theorem lists_toList (m : Mask) : m.Lists m.toList where
  mem := m.mem_toList
  once := m.nodup_toList
  ascending := m.ascending_toList
  length := m.count_eq_length.symm
  collected := m.ofList_toList

/-- A mask is a set of channels, through all updates and for every list that it is collected from: it
has a channel if the latest update that names it has put it in, or none does and it was there before;
stray bits stay as they are; and its list is the set that it stands for. -/
theorem faithful_set (m : Mask) (updates : List Update) (cs : List Channel) :
    (∀ c, (m.through updates).contains c = true ↔
      PutIn c updates ∨ m.contains c = true ∧ Unnamed c updates) ∧
    (∀ n, 10 ≤ n → (m.through updates).bits.getLsbD n = m.bits.getLsbD n) ∧
    (m.through updates).Lists (m.through updates).toList ∧
    (∀ c, (ofList cs).contains c = true ↔ c ∈ cs) ∧
    (∀ n, 10 ≤ n → (ofList cs).bits.getLsbD n = false) ∧
    (ofList cs).Lists (ofList cs).toList :=
  ⟨fun _ => m.contains_through, fun _ => m.stray_through updates, lists_toList _,
    fun _ => contains_ofList, fun _ => stray_ofList cs, lists_toList _⟩

example : let m : Mask := (⟨0x8003⟩ : Mask).through [.insert 6, .erase 0, .insert 3, .erase 6]
    m.bits = 0x800A ∧ m.toList = [1, 3] ∧ m.count = 2 ∧ ofList [3, 1, 3] = ⟨0x00A⟩ := by decide

end Mask

end SharedAdc
