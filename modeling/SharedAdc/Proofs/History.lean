/-
Histories as lists, the earliest item first. An item of a history has a past and a future; a history that
goes on puts one more item at the end of that future; and what is in force is told by the latest item that
has given something, as long as none has put an end to it.
-/
import Mathlib.Data.List.Basic

namespace SharedAdc

/-! ## Past and future of an item -/

/-- The last item of a list, or an earlier one. -/
theorem concat_eq_append_cons {α : Type} {l before later : List α} {x a : α}
    (h : l ++ [x] = before ++ a :: later) :
    (l = before ∧ x = a ∧ later = []) ∨
      ∃ later', later = later' ++ [x] ∧ l = before ++ a :: later' := by
  rcases List.eq_nil_or_concat later with rfl | ⟨later', y, rfl⟩
  · obtain ⟨hl, hx⟩ := List.append_inj' h rfl
    exact .inl ⟨hl, List.head_eq_of_cons_eq hx, rfl⟩
  · rw [List.concat_eq_append] at h ⊢
    rw [← List.cons_append, ← List.append_assoc] at h
    obtain ⟨hl, hx⟩ := List.append_inj' h rfl
    obtain rfl := List.head_eq_of_cons_eq hx
    exact .inr ⟨later', rfl, hl⟩

/-- One of two items of a list is the other, or comes before or after it. -/
theorem append_cons_cases {α : Type} {before later before' later' : List α} {x y : α}
    (h : before ++ x :: later = before' ++ y :: later') :
    (∃ mid, before' = before ++ x :: mid ∧ later = mid ++ y :: later') ∨
      (before = before' ∧ x = y ∧ later = later') ∨
      ∃ mid, before = before' ++ y :: mid ∧ later' = mid ++ x :: later := by
  rcases List.append_eq_append_iff.1 h with ⟨mid, rfl, hmid⟩ | ⟨mid, rfl, hmid⟩
  · cases mid with
    | nil =>
      simp only [List.nil_append, List.cons.injEq] at hmid
      exact .inr (.inl ⟨by simp, hmid⟩)
    | cons z mid =>
      simp only [List.cons_append, List.cons.injEq] at hmid
      obtain ⟨rfl, rfl⟩ := hmid
      exact .inl ⟨mid, rfl, rfl⟩
  · cases mid with
    | nil =>
      simp only [List.nil_append, List.cons.injEq] at hmid
      exact .inr (.inl ⟨by simp, hmid.1.symm, hmid.2.symm⟩)
    | cons z mid =>
      simp only [List.cons_append, List.cons.injEq] at hmid
      obtain ⟨rfl, rfl⟩ := hmid
      exact .inr (.inr ⟨mid, rfl, rfl⟩)

/-- What was the last of its kind in a list still is, if one of another kind comes after it. -/
theorem exists_last_concat {α : Type} {Other : α → Prop} {l : List α} {x y : α}
    (h : ∃ before later, l = before ++ x :: later ∧ ∀ z ∈ later, Other z) (hy : Other y) :
    ∃ before later, l ++ [y] = before ++ x :: later ∧ ∀ z ∈ later, Other z := by
  obtain ⟨before, later, rfl, hlater⟩ := h
  refine ⟨before, later ++ [y], by simp, List.forall_mem_append.2 ⟨hlater, ?_⟩⟩
  exact List.forall_mem_singleton.2 hy

/-! ## The latest of its kind -/

section

variable {α ρ : Type} {gives : α → ρ → Prop} {ends : ρ → Prop} {a : α} {rows : List ρ} {row : ρ}

/-- Some item has given `a`, and none after it has given anything or put an end to it. -/
def IsLatest (gives : α → ρ → Prop) (ends : ρ → Prop) (a : α) (rows : List ρ) : Prop :=
  ∃ before row later, rows = before ++ row :: later ∧ gives a row ∧
    ∀ r ∈ later, ¬ ends r ∧ ∀ a', ¬ gives a' r

theorem not_isLatest_nil : ¬ IsLatest gives ends a ([] : List ρ) := by
  rintro ⟨before, row, later, hsplit, -⟩
  simp at hsplit

theorem isLatest_concat : IsLatest gives ends a (rows ++ [row]) ↔
    gives a row ∨ (¬ ends row ∧ ∀ a', ¬ gives a' row) ∧ IsLatest gives ends a rows := by
  constructor
  · rintro ⟨before, last, later, hsplit, hgives, hlater⟩
    rcases concat_eq_append_cons hsplit with ⟨-, rfl, -⟩ | ⟨later', rfl, hrows⟩
    · exact .inl hgives
    · refine .inr ⟨hlater row (by simp), before, last, later', hrows, hgives, fun r hr => ?_⟩
      exact hlater r (List.mem_append_left _ hr)
  · rintro (hgives | ⟨hquiet, before, last, later, rfl, hgives, hlater⟩)
    · exact ⟨rows, row, [], rfl, hgives, by simp⟩
    · refine ⟨before, last, later ++ [row], by simp, hgives, List.forall_mem_append.2 ⟨hlater, ?_⟩⟩
      exact List.forall_mem_singleton.2 hquiet

/-- What is kept of the latest, if it follows each item. -/
theorem latest_kept_iff {now before : Option α} (hgives : ∀ a, gives a row → now = some a)
    (hends : ends row → (∀ a, ¬ gives a row) → now = none)
    (hkeeps : ¬ ends row → (∀ a, ¬ gives a row) → now = before) :
    now = some a ↔ gives a row ∨ (¬ ends row ∧ ∀ a', ¬ gives a' row) ∧ before = some a := by
  by_cases hsome : ∃ a', gives a' row
  · obtain ⟨a', ha'⟩ := hsome
    rw [hgives a' ha']
    constructor
    · rintro ⟨⟩
      exact .inl ha'
    · rintro (ha | ⟨⟨-, hnone⟩, -⟩)
      · exact (hgives a' ha').symm.trans (hgives a ha)
      · exact absurd ha' (hnone a')
  · have hnone : ∀ a', ¬ gives a' row := not_exists.1 hsome
    by_cases hend : ends row
    · rw [hends hend hnone]
      constructor
      · rintro ⟨⟩
      · rintro (ha | ⟨⟨hquiet, -⟩, -⟩)
        · exact absurd ha (hnone a)
        · exact absurd hend hquiet
    · rw [hkeeps hend hnone]
      constructor
      · exact fun h => .inr ⟨⟨hend, hnone⟩, h⟩
      · rintro (ha | ⟨-, h⟩)
        · exact absurd ha (hnone a)
        · exact h

end

end SharedAdc
