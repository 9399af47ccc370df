/-
What the log pane shows. However records and collections follow each other, the pane shows the latest of
the records that had passed the filter when it last collected, as many as it has room for, and those that
have come since wait in the order of their arrival.
-/
import Mathlib.Data.List.DropRight
import Mathlib.Data.List.Induction
import SharedAdc.Dashboard.LogPane

namespace SharedAdc.Dashboard.LogPane

/-! ## Feeds -/

/-- What can happen to a pane. -/
inductive Move where
  | record (entry : LogEntry)
  | collect

def Move.entry? : Move → Option LogEntry
  | .record entry => some entry
  | .collect => none

def move (p : LogPane) : Move → LogPane
  | .record entry => p.record entry
  | .collect => p.collect

/-- The pane after some moves. -/
def through (p : LogPane) (moves : List Move) : LogPane := moves.foldl move p

/-- The records among the moves that the filter lets pass, in the order of their arrival. -/
def passed (filter : LogFilter) (moves : List Move) : List LogEntry :=
  (moves.filterMap Move.entry?).filter fun entry => filter.enables entry.level

theorem through_append (p : LogPane) (moves later : List Move) :
    p.through (moves ++ later) = (p.through moves).through later :=
  List.foldl_append

theorem passed_append (filter : LogFilter) (moves later : List Move) :
    passed filter (moves ++ later) = passed filter moves ++ passed filter later := by
  simp [passed]

theorem passed_record (filter : LogFilter) (entry : LogEntry) :
    passed filter [.record entry] = if filter.enables entry.level then [entry] else [] := by
  simp [passed, Move.entry?, List.filter_cons]

theorem passed_collect (filter : LogFilter) : passed filter [.collect] = [] := rfl

theorem passed_records (filter : LogFilter) (entries : List LogEntry) :
    passed filter (entries.map .record) =
      entries.filter fun entry => filter.enables entry.level := by
  have hall : (entries.map Move.record).filterMap Move.entry? = entries := by
    induction entries with
    | nil => rfl
    | cons entry entries ih => exact congrArg (entry :: ·) ih
  rw [passed, hall]

/-! ## The ring -/

theorem length_rtake {α : Type} (l : List α) (n : Nat) : (l.rtake n).length = min n l.length := by
  simp only [List.rtake, List.length_drop]
  omega

theorem rtake_of_length_le {α : Type} {l : List α} {n : Nat} (h : l.length ≤ n) :
    l.rtake n = l := by
  rw [List.rtake, Nat.sub_eq_zero_of_le h, List.drop_zero]

/-- A push onto the latest of some entries shows the latest of one entry more. -/
theorem push_rtake (entries : List LogEntry) (entry : LogEntry) :
    push (entries.rtake capacity) entry = (entries ++ [entry]).rtake capacity := by
  have hlonger : (entries.rtake capacity ++ [entry]).length = min capacity entries.length + 1 := by
    rw [List.length_append, length_rtake, List.length_singleton]
  simp only [push, hlonger]
  by_cases hroom : entries.length < capacity
  · rw [if_neg (by omega), rtake_of_length_le (Nat.le_of_lt hroom),
      rtake_of_length_le (by rw [List.length_append]; exact hroom)]
  · -- What is shown is full, so the oldest of it makes room.
    rw [if_pos (by omega)]
    have hdrop : (entries ++ [entry]).length - capacity = entries.length - capacity + 1 := by
      rw [List.length_append, List.length_singleton]
      omega
    rw [List.rtake, List.rtake, hdrop, ← List.drop_append_of_le_length (Nat.sub_le _ _),
      List.tail_drop]

/-- A batch goes in as a whole, even one with more entries than there is room for. -/
theorem foldl_push_rtake (entries batch : List LogEntry) :
    batch.foldl push (entries.rtake capacity) = (entries ++ batch).rtake capacity := by
  induction batch generalizing entries with
  | nil => rw [List.append_nil, List.foldl_nil]
  | cons entry batch ih =>
    rw [List.foldl_cons, push_rtake, ih, List.append_assoc, List.singleton_append]

/-! ## Along a feed -/

/-- Of the records that have passed, the pane has collected the first ones, and the others wait. -/
structure Follows (p : LogPane) (filter : LogFilter) (collected : List LogEntry)
    (moves : List Move) : Prop where
  same : p.filter = filter
  shown : p.shown = collected.rtake capacity
  waiting : passed filter moves = collected ++ p.waiting

section

variable {p : LogPane} {filter : LogFilter} {collected : List LogEntry} {moves : List Move}

theorem Follows.record (h : p.Follows filter collected moves) (entry : LogEntry) :
    (p.record entry).Follows filter collected (moves ++ [.record entry]) := by
  have hpassed := passed_append filter moves [.record entry]
  rw [passed_record, h.waiting] at hpassed
  unfold LogPane.record
  rw [h.same]
  split at hpassed
  · rw [if_pos ‹_›]
    exact ⟨rfl, h.shown, hpassed.trans (List.append_assoc ..)⟩
  · rw [if_neg ‹_›]
    exact ⟨h.same, h.shown, hpassed.trans (List.append_nil _)⟩

theorem Follows.collect (h : p.Follows filter collected moves) :
    p.collect.Follows filter (passed filter moves) (moves ++ [.collect]) where
  same := h.same
  shown := by
    change p.waiting.foldl push p.shown = _
    rw [h.shown, foldl_push_rtake, h.waiting]
  waiting := passed_append filter moves [.collect]

/-- Records alone leave what is collected. -/
theorem Follows.records (h : p.Follows filter collected moves) (entries : List LogEntry) :
    (p.through (entries.map .record)).Follows filter collected
      (moves ++ entries.map .record) := by
  induction entries using List.reverseRecOn with
  | nil => rwa [List.map_nil, List.append_nil]
  | append_singleton entries entry ih =>
    rw [List.map_append, through_append, ← List.append_assoc]
    exact ih.record entry

theorem Follows.length_shown (h : p.Follows filter collected moves) :
    p.shown.length = min capacity collected.length := by
  rw [h.shown, length_rtake]

end

theorem follows_through (filter : LogFilter) (moves : List Move) :
    ∃ collected, (({ filter } : LogPane).through moves).Follows filter collected moves := by
  induction moves using List.reverseRecOn with
  | nil => exact ⟨[], rfl, rfl, rfl⟩
  | append_singleton moves move ih =>
    obtain ⟨collected, h⟩ := ih
    rw [through_append]
    cases move with
    | record entry => exact ⟨collected, h.record entry⟩
    | collect => exact ⟨_, h.collect⟩

/-- Once it has collected, and until it collects again, the pane shows the latest hundred of the records
that had passed the filter, or all of them if they are fewer; those that pass later wait. There is never
more to see than that. -/
theorem shows_latest (filter : LogFilter) (moves : List Move) :
    (∀ entries : List LogEntry,
      let p := ({ filter } : LogPane).through (moves ++ .collect :: entries.map .record)
      p.shown <:+ passed filter moves ∧
      p.shown.length = min 100 (passed filter moves).length ∧
      p.waiting = entries.filter fun entry => filter.enables entry.level) ∧
    (({ filter } : LogPane).through moves).shown.length ≤ 100 := by
  obtain ⟨collected, h⟩ := follows_through filter moves
  refine ⟨fun entries => ?_, ?_⟩
  · intro p
    have hp : p.Follows filter (passed filter moves)
        ((moves ++ [.collect]) ++ entries.map .record) := by
      have hsplit : p = ((({ filter } : LogPane).through moves).collect).through
          (entries.map .record) := through_append _ moves _
      rw [hsplit]
      exact h.collect.records entries
    refine ⟨?_, hp.length_shown, ?_⟩
    · rw [hp.shown]
      exact List.drop_suffix _ _
    · have hwaiting := hp.waiting
      rw [passed_append, passed_append, passed_collect, List.append_nil, passed_records] at hwaiting
      exact (List.append_cancel_left hwaiting).symm
  · rw [h.length_shown]
    exact Nat.min_le_left _ _

end SharedAdc.Dashboard.LogPane
