/-
A burst of conversions runs outside the lock, between a section that begins it and a section that
ends it. Whatever other callers do meanwhile, the reservation stays as the burst left it, the
hardware is touched by nobody else but for calibration, and the burst ends as it should.
-/
import SharedAdc.Proofs.Callers.Exclusion

namespace SharedAdc.Controller

variable {κ φ : Type} {machine : Machine κ}

/-! ## Bursts in a history -/

def Question.isLeave : Question κ φ → Bool
  | .leave _ => true
  | _ => false

/-- Caller `i` gives up the lock. -/
def Exchange.IsLeaveOf (e : Exchange κ φ) (i : Nat) : Prop :=
  e.caller = i ∧ e.question.isLeave = true

instance (e : Exchange κ φ) (i : Nat) : Decidable (e.IsLeaveOf i) :=
  inferInstanceAs (Decidable (_ ∧ _))

/-- What caller `i` asked in a history. -/
def questionsOf (i : Nat) (history : List (Exchange κ φ)) : List (Question κ φ) :=
  (history.filter fun e => e.caller = i).map Exchange.question

/-- A burst of caller `i` on channel `c` begins in a history: the caller comes under the lock,
finds `found` there with no session under way, and leaves the channel to its burst. Up to then
`before` was asked, and from then on `since`. -/
structure BurstBegan (history : List (Exchange κ φ)) (i : Nat) (c : Channel) (found : Reservation)
    (before since : List (Exchange κ φ)) : Prop where
  vacant : found.session = .idle ∨ found.session = .reserved
  entered : ∃ earlier within, before = earlier ++ ⟨i, .enter, found⟩ :: within ∧
    ∀ e ∈ within, ¬ e.IsLeaveOf i
  split : history = before ++ ⟨i, .leave ⟨.single c, .oneShot⟩, ()⟩ :: since

theorem questionsOf_concat (i : Nat) (history : List (Exchange κ φ)) (e : Exchange κ φ) :
    questionsOf i (history ++ [e]) =
      questionsOf i history ++ if e.caller = i then [e.question] else [] := by
  by_cases h : e.caller = i <;> simp [questionsOf, h]

namespace Scene

variable {s : Scene φ} {locked : Bool} {i : Nat} {e : Exchange κ φ} {burst : Option Burst}
  {entry now : Standing φ}

/-! ## Under the lock -/

/-- Short of leaving, nobody comes out from under the lock. -/
theorem after_inside (hi : s.modes i = .inside burst entry now) (hleave : ¬ e.IsLeaveOf i) :
    ∃ now', (s.after e).modes i = .inside burst entry now' := by
  by_cases hei : e.caller = i
  · subst hei
    obtain ⟨i, q, a⟩ := e
    rw [modes_after_self ⟨i, q, a⟩, hi]
    cases q with
    | leave held => exact absurd ⟨rfl, rfl⟩ hleave
    | _ => exact ⟨_, rfl⟩
  · rw [modes_after_ne e (Ne.symm hei)]
    exact ⟨now, hi⟩

/-- From taking the lock to giving it up, a caller knows the reservation that it came to. -/
theorem Orderly.inside_of_entered {earlier within : List (Exchange κ φ)} {found : Reservation}
    (h : Orderly (earlier ++ ⟨i, .enter, found⟩ :: within) locked)
    (hwithin : ∀ e ∈ within, ¬ e.IsLeaveOf i) :
    ∃ burst entry now, entry.reservation = found ∧
      (ofHistory (earlier ++ ⟨i, .enter, found⟩ :: within)).modes i = .inside burst entry now := by
  induction within using List.reverseRecOn generalizing locked with
  | nil =>
    obtain ⟨locked', -, hfits⟩ := h.init
    have hallow := hfits.allowed
    have hshown : found = (ofHistory earlier).standing.reservation := hfits.shown
    rw [ofHistory_concat, modes_after_self ⟨i, .enter, found⟩]
    cases hi : (ofHistory earlier).modes i with
    | inside burst entry now =>
      rw [hi] at hallow
      exact hallow.elim
    | away burst cleared => exact ⟨burst, _, _, hshown.symm, rfl⟩
  | append_singleton within e ih =>
    rw [← List.cons_append, ← List.append_assoc] at h ⊢
    obtain ⟨locked', horderly, -⟩ := h.init
    obtain ⟨burst, entry, now, hentry, hi⟩ :=
      ih horderly fun e' he' => hwithin e' (List.mem_append_left _ he')
    rw [ofHistory_concat]
    obtain ⟨now', hnow'⟩ := after_inside hi (hwithin e (by simp))
    exact ⟨burst, entry, now', hentry, hnow'⟩

/-! ## The course of a burst -/

/-- How far a burst has come, by what its caller has asked since it began. -/
inductive Course (s : Scene φ) (i : Nat) (c : Channel) (found : Reservation) :
    List (Question κ φ) → Prop where
  | converting (n : Nat) (cleared : Option Channel)
    (hi : s.modes i = .away (some ⟨.single c, found⟩) cleared) :
    Course s i c found (List.replicate n (.hardware (.readOneShot c)))
  | closing (n : Nat) (entry now : Standing φ)
    (hi : s.modes i = .inside (some ⟨.single c, found⟩) entry now)
    (hunit : now.paths.unit = true) :
    Course s i c found (List.replicate n (.hardware (.readOneShot c)) ++ [.enter])
  | closed (n : Nat) (entry now : Standing φ)
    (hi : s.modes i = .inside (some ⟨.single c, found⟩) entry now)
    (hunit : now.paths.unit = false) :
    Course s i c found (List.replicate n (.hardware (.readOneShot c)) ++
      [.enter, .hardware .deleteOneShotUnit])

variable {c : Channel} {found : Reservation} {asked : List (Question κ φ)}

theorem Course.token (h : s.Course i c found asked) :
    (s.modes i).burst = some ⟨.single c, found⟩ := by
  cases h with
  | converting n cleared hi => rw [hi]; rfl
  | closing n entry now hi => rw [hi]; rfl
  | closed n entry now hi => rw [hi]; rfl

theorem Course.isPrefix (h : s.Course i c found asked) : ∃ n, asked <+:
    List.replicate n (.hardware (.readOneShot c)) ++ [.enter, .hardware .deleteOneShotUnit] := by
  cases h with
  | converting n => exact ⟨n, List.prefix_append ..⟩
  | closing n => exact ⟨n, by simp⟩
  | closed n => exact ⟨n, List.prefix_rfl⟩

theorem Course.after_other (h : s.Course i c found asked) (he : e.caller ≠ i) :
    (s.after e).Course i c found asked := by
  have hsame := modes_after_ne (s := s) e (Ne.symm he)
  cases h with
  | converting n cleared hi => exact .converting n cleared (hsame.trans hi)
  | closing n entry now hi hunit => exact .closing n entry now (hsame.trans hi) hunit
  | closed n entry now hi hunit => exact .closed n entry now (hsame.trans hi) hunit

/-- Outside the lock the caller of a burst converts, or comes back under the lock. -/
theorem allows_away_burst {b : Burst} {cleared : Option Channel} {q : Question κ φ}
    (h : (Mode.away (some b) cleared : Mode φ).Allows q) :
    q = .enter ∨ ∃ d, q = .hardware (.readOneShot d) ∧ b.mask = .single d := by
  cases q with
  | enter => exact .inl rfl
  | hardware call =>
    rcases h with ⟨h, -⟩ | ⟨d, rfl, hd | ⟨h, -⟩⟩
    · cases h
    · exact .inr ⟨d, rfl, by simpa using hd⟩
    · cases h
  | armed | frameCounts | note => cases h
  | leave | arm | installCallback | clearCallback | resetFrameCounts => exact h.elim

/-- Back under the lock the caller of a burst deletes the unit, and leaves. -/
theorem allows_inside_burst {b : Burst} {q : Question κ φ}
    (h : (Mode.inside (some b) entry now : Mode φ).Allows q)
    (hentry : entry.reservation.session = .oneShot) :
    (∃ held, q = .leave held) ∨ q = .hardware .deleteOneShotUnit ∧ now.paths.unit = true := by
  cases q with
  | leave held => exact .inl ⟨held, rfl⟩
  | hardware call =>
    obtain ⟨hadmits, hone, -⟩ := h
    obtain ⟨-, rfl⟩ := hone hentry
    exact .inr ⟨rfl, hadmits⟩
  | note => cases h
  | arm | installCallback | clearCallback | resetFrameCounts => exact absurd hentry h
  | enter | armed | frameCounts => exact h.elim

/-- Each question of its caller, short of leaving, carries a burst further on its course. -/
theorem Course.after_own (h : s.Course i c found asked) (hsettled : s.Settled locked)
    (hfits : s.Fits locked e) (he : e.caller = i) (hleave : ¬ e.IsLeaveOf i) :
    (s.after e).Course i c found (asked ++ [e.question]) := by
  obtain ⟨hheld, -⟩ := hsettled.token h.token
  subst he
  obtain ⟨i, q, a⟩ := e
  have hself := modes_after_self (s := s) ⟨i, q, a⟩
  have hallow := hfits.allowed
  cases h with
  | converting n cleared hi =>
    simp only [hi] at hself hallow
    rcases allows_away_burst hallow with rfl | ⟨d, rfl, hd⟩
    · obtain rfl := hfits.free rfl
      refine .closing n _ _ hself ?_
      cases hsettled.guarded with
      | free hall hsound => exact hsound.unit_iff.2 (.inl (by rw [hheld]))
    · obtain rfl := single_inj hd
      rw [← List.replicate_succ']
      exact .converting (n + 1) cleared hself
  | closing n entry now hi hunit =>
    obtain ⟨-, -, -, hsame, -⟩ := hsettled.guarded.of_inside hi
    simp only [hi] at hself hallow
    rcases allows_inside_burst hallow (by rw [hsame, hheld]) with ⟨held, rfl⟩ | ⟨rfl, -⟩
    · exact absurd ⟨rfl, rfl⟩ hleave
    · rw [List.append_assoc]
      exact .closed n entry _ hself rfl
  | closed n entry now hi hunit =>
    -- the unit is not deleted twice
    obtain ⟨-, -, -, hsame, -⟩ := hsettled.guarded.of_inside hi
    simp only [hi] at hallow
    rcases allows_inside_burst hallow (by rw [hsame, hheld]) with ⟨held, rfl⟩ | ⟨-, hopen⟩
    · exact absurd ⟨rfl, rfl⟩ hleave
    · rw [hunit] at hopen
      cases hopen

/-- A caller that leaves has completed the course of its burst, and puts back what it found. -/
theorem Course.leave {held : Reservation} (h : s.Course i c found asked)
    (hvacant : found.session = .idle ∨ found.session = .reserved)
    (hallow : (s.modes i).Allows (.leave held : Question κ φ)) :
    held = found ∧ ∃ n, asked = List.replicate n (.hardware (.readOneShot c)) ++
      [.enter, .hardware .deleteOneShotUnit] := by
  cases h with
  | converting n cleared hi =>
    rw [hi] at hallow
    exact hallow.elim
  | closing n entry now hi hunit =>
    -- with the unit still open, what was found is not fit to be put back
    rw [hi] at hallow
    obtain rfl := hallow.ends _ rfl
    have hbusy := hallow.sound.unit_iff.1 hunit
    rcases hvacant with hv | hv <;> simp [hv] at hbusy
  | closed n entry now hi hunit =>
    rw [hi] at hallow
    exact ⟨hallow.ends _ rfl, n, rfl⟩

/-! ## Other callers -/

/-- While a burst is under way, whoever else comes under the lock leaves it as it was and touches
no hardware; outside the lock a conversion is made only by who has found its channel armed. -/
theorem Settled.others {b : Burst} (hsettled : s.Settled locked)
    (htoken : (s.modes i).burst = some b) (hfits : s.Fits locked e) (he : e.caller ≠ i) :
    (∀ held, e.question = .leave held → held = ⟨b.mask, .oneShot⟩) ∧
      ∀ call, e.question = .hardware call → call.IsCalibration ∨
        ∃ d, call = .readOneShot d ∧ s.modes e.caller = .away none (some d) := by
  obtain ⟨hheld, -⟩ := hsettled.token htoken
  have hnone : ∀ {burst}, (s.modes e.caller).burst = burst → burst = none := by
    intro burst hburst
    cases burst with
    | none => rfl
    | some b' => exact absurd (hsettled.alone hburst htoken) he
  obtain ⟨j, q, a⟩ := e
  have hallow := hfits.allowed
  cases hj : s.modes j with
  | away burst cleared =>
    obtain rfl := hnone (by rw [hj, Mode.burst])
    simp only [hj] at hallow
    refine ⟨?_, ?_⟩
    · rintro held rfl
      exact hallow.elim
    · rintro call rfl
      rcases hallow with ⟨-, hcal⟩ | ⟨d, rfl, hd | ⟨-, rfl⟩⟩
      · exact .inl hcal
      · cases hd
      · exact .inr ⟨d, rfl, rfl⟩
  | inside burst entry now =>
    obtain rfl := hnone (by rw [hj, Mode.burst])
    obtain ⟨-, -, -, hsame, -⟩ := hsettled.guarded.of_inside hj
    simp only [hj] at hallow
    have hone : entry.reservation.session = .oneShot := by rw [hsame, hheld]
    refine ⟨?_, ?_⟩
    · rintro held rfl
      exact (hallow.keeps rfl hone).trans (hsame.trans hheld)
    · rintro call rfl
      obtain ⟨hburst, -⟩ := hallow.2.1 hone
      cases hburst

/-- Where the next question of a caller leads to a channel found armed, it was just found so, or
before. -/
theorem after_cleared {j : Nat} {d : Channel} {burst : Option Burst}
    (h : (s.after e).modes j = .away burst (some d)) :
    (∃ burst', s.modes j = .away burst' (some d)) ∨ e = ⟨j, .armed, some d⟩ := by
  by_cases hj : e.caller = j
  · subst hj
    obtain ⟨j, q, a⟩ := e
    rw [modes_after_self ⟨j, q, a⟩] at h
    cases hi : s.modes j with
    | inside burst entry now =>
      rw [hi] at h
      cases q <;> cases h
    | away burst' cleared =>
      rw [hi] at h
      cases q with
      | enter => cases h
      | armed =>
        cases h
        exact .inr rfl
      | _ =>
        cases h
        exact .inl ⟨_, rfl⟩
  · rw [modes_after_ne e (Ne.symm hj)] at h
    exact .inl ⟨burst, h⟩

/-- A channel that a caller works on as armed is one that it has found armed. -/
theorem cleared_mem {history : List (Exchange κ φ)} {j : Nat} {d : Channel} {burst : Option Burst}
    (h : (ofHistory history).modes j = .away burst (some d)) : ⟨j, .armed, some d⟩ ∈ history := by
  induction history using List.reverseRecOn generalizing burst with
  | nil => cases h
  | append_singleton history e ih =>
    rw [ofHistory_concat] at h
    rcases after_cleared h with ⟨burst', hbefore⟩ | rfl
    · exact List.mem_append_left _ (ih hbefore)
    · exact List.mem_append_right _ (List.mem_singleton_self _)

end Scene

/-! ## From the beginning to the end -/

namespace BurstBegan

open Scene

variable {history before since : List (Exchange κ φ)} {locked : Bool} {i : Nat} {c : Channel}
  {found : Reservation}

/-- A burst begins with its first conversion still to come, on a channel that was free or reserved
for it. -/
theorem begins (h : BurstBegan history i c found before since) (horderly : Orderly history locked) :
    (found = .idle ∨ found = ⟨.single c, .reserved⟩) ∧
      (ofHistory (before ++ [⟨i, .leave ⟨.single c, .oneShot⟩, ()⟩])).modes i =
        .away (some ⟨.single c, found⟩) none := by
  obtain ⟨earlier, within, hbefore, hwithin⟩ := h.entered
  obtain ⟨locked', horderly', hfits⟩ := horderly.split h.split
  subst hbefore
  obtain ⟨burst, entry, now, hentry, hi⟩ := horderly'.inside_of_entered hwithin
  have hallow := hfits.allowed
  simp only [hi] at hallow
  have hne : entry.reservation.session ≠ .oneShot := by
    rw [hentry]
    rcases h.vacant with hv | hv <;> simp [hv]
  have hnone : burst = none := by
    cases hburst : burst with
    | none => rfl
    | some b =>
      -- a burst under way would have shown in what was found
      have hsettled := horderly'.settled
      obtain ⟨-, -, -, hsame, -⟩ := hsettled.guarded.of_inside hi
      have htoken := (hsettled.token (i := i) (by rw [hi, Mode.burst, hburst])).1
      exact absurd (by rw [hsame, htoken]) hne
  subst hnone
  refine ⟨?_, ?_⟩
  · rw [← hentry]
    exact hallow.opens rfl hne rfl
  · rw [ofHistory_concat, modes_after_self ⟨i, .leave _, ()⟩, hi]
    rw [hentry] at hne
    simp [Mode.next, Mode.opened, hne, hentry]

/-- As long as its caller has not left again, a burst is on its course, and whoever else works on a
channel as armed has found it so before the burst. -/
theorem course (h : BurstBegan history i c found before since) (horderly : Orderly history locked)
    {during : List (Exchange κ φ)} {locked' : Bool}
    (hduring : Orderly (before ++ [⟨i, .leave ⟨.single c, .oneShot⟩, ()⟩] ++ during) locked')
    (hleave : ∀ e ∈ during, ¬ e.IsLeaveOf i) :
    (ofHistory (before ++ [⟨i, .leave ⟨.single c, .oneShot⟩, ()⟩] ++ during)).Course i c found
        (questionsOf i during) ∧
      ∀ {j burst d}, j ≠ i →
        (ofHistory (before ++ [⟨i, .leave ⟨.single c, .oneShot⟩, ()⟩] ++ during)).modes j =
          .away burst (some d) → ⟨j, .armed, some d⟩ ∈ before := by
  -- on what was asked since: the last exchange carries the burst on, or is somebody else's
  induction during using List.reverseRecOn generalizing locked' with
  | nil =>
    rw [List.append_nil]
    refine ⟨.converting 0 none (h.begins horderly).2, ?_⟩
    intro j burst d hj hmode
    rw [ofHistory_concat, modes_after_ne ⟨i, .leave _, ()⟩ hj] at hmode
    exact cleared_mem hmode
  | append_singleton during e ih =>
    rw [← List.append_assoc] at hduring ⊢
    obtain ⟨locked'', hprefix, hfits⟩ := hduring.init
    obtain ⟨hcourse, harmed⟩ := ih hprefix fun e' he' => hleave e' (List.mem_append_left _ he')
    rw [ofHistory_concat, questionsOf_concat]
    refine ⟨?_, ?_⟩
    · by_cases he : e.caller = i
      · rw [if_pos he]
        exact hcourse.after_own hprefix.settled hfits he (hleave e (by simp))
      · rw [if_neg he, List.append_nil]
        exact hcourse.after_other he
    · intro j burst d hj hmode
      rcases after_cleared hmode with ⟨burst', hbefore⟩ | rfl
      · exact harmed hj hbefore
      · -- nothing is armed while a burst is under way
        obtain ⟨-, hnone⟩ := hprefix.settled.token hcourse.token
        have hshown : some d = _ := hfits.shown
        rw [hnone] at hshown
        cases hshown

theorem history_eq (h : BurstBegan history i c found before since) :
    history = before ++ [⟨i, .leave ⟨.single c, .oneShot⟩, ()⟩] ++ since := by
  rw [h.split]
  simp

theorem fits_since (h : BurstBegan history i c found before since)
    (horderly : Orderly history locked) {during later : List (Exchange κ φ)} {e : Exchange κ φ}
    (hsplit : since = during ++ e :: later) : ∃ locked',
      Orderly (before ++ [⟨i, .leave ⟨.single c, .oneShot⟩, ()⟩] ++ during) locked' ∧
      (ofHistory (before ++ [⟨i, .leave ⟨.single c, .oneShot⟩, ()⟩] ++ during)).Fits locked' e := by
  have hall := h.history_eq
  rw [hsplit, ← List.append_assoc] at hall
  exact horderly.split hall

end BurstBegan

/-! ## Runs -/

/-- A burst is isolated: from its beginning to its end nobody else changes the reservation or makes
a call other than for calibration, and its own end deletes the unit once and puts back what the
burst has found. Conversions of others stem from channels that they found armed before the burst. -/
structure World.Isolates (w : World machine φ) (i : Nat) (c : Channel) (found : Reservation)
    (before since : List (Exchange κ φ)) : Prop where
  prior : found = .idle ∨ found = ⟨.single c, .reserved⟩
  held : (∀ e ∈ since, ¬ e.IsLeaveOf i) → w.shared.reservation = ⟨.single c, .oneShot⟩
  others : ∀ {during later : List (Exchange κ φ)} {e : Exchange κ φ}, since = during ++ e :: later →
    (∀ e' ∈ during, ¬ e'.IsLeaveOf i) → e.caller ≠ i →
      (∀ held, e.question = .leave held → held = ⟨.single c, .oneShot⟩) ∧
      ∀ call, e.question = .hardware call → call.IsCalibration ∨
        ∃ d, call = .readOneShot d ∧ ⟨e.caller, .armed, some d⟩ ∈ before
  underway : (∀ e ∈ since, ¬ e.IsLeaveOf i) → ∃ n, questionsOf i since <+:
    List.replicate n (.hardware (.readOneShot c)) ++ [.enter, .hardware .deleteOneShotUnit]
  ended : ∀ {during later : List (Exchange κ φ)} {held : Reservation},
    since = during ++ ⟨i, .leave held, ()⟩ :: later → (∀ e ∈ during, ¬ e.IsLeaveOf i) →
      held = found ∧ (later = [] → w.shared.reservation = found) ∧ ∃ n, questionsOf i during =
        List.replicate n (.hardware (.readOneShot c)) ++ [.enter, .hardware .deleteOneShotUnit]
  ends : ∀ {command : Command φ} {result : Result},
    w.callers[i]? = some ⟨command, .done result⟩ → ∃ e ∈ since, e.IsLeaveOf i

/-- Whatever the callers do, whatever the hardware replies and in whatever order everybody goes on,
every burst is isolated. -/
theorem World.isolates_burst (config : Config) (memory : machine.Memory)
    (actions : List (Action machine φ)) {i : Nat} {c : Channel} {found : Reservation}
    {before since : List (Exchange κ φ)}
    (h : BurstBegan ((new memory).run config actions).history i c found before since) :
    ((new memory).run config actions).Isolates i c found before since := by
  generalize hw : (new memory).run config actions = w at h ⊢
  have hkept : w.Kept := hw ▸ kept_run config memory actions
  have horderly := hkept.orderly
  have hcourse := fun hleave => (h.course horderly (h.history_eq ▸ horderly) hleave).1
  have htoken : (∀ e ∈ since, ¬ e.IsLeaveOf i) →
      (w.scene.modes i).burst = some ⟨.single c, found⟩ := by
    intro hleave
    have honcourse := (hcourse hleave).token
    rw [← h.history_eq] at honcourse
    exact honcourse
  exact {
    prior := (h.begins horderly).1
    held := by
      intro hleave
      have hheld := (horderly.settled.token (htoken hleave)).1
      have hsame : w.scene.standing.reservation = w.standing.reservation := by rw [hkept.standing]
      exact hsame.symm.trans hheld
    others := by
      intro during later e hsplit hleave he
      obtain ⟨locked, hduring, hfits⟩ := h.fits_since horderly hsplit
      obtain ⟨hon, hcleared⟩ := h.course horderly hduring hleave
      obtain ⟨hheld, hcalls⟩ := hduring.settled.others hon.token hfits he
      refine ⟨hheld, fun call hcall => ?_⟩
      rcases hcalls call hcall with hcal | ⟨d, rfl, hmode⟩
      · exact .inl hcal
      · exact .inr ⟨d, rfl, hcleared he hmode⟩
    underway := fun hleave => (hcourse hleave).isPrefix
    ended := by
      intro during later held hsplit hleave
      obtain ⟨locked, hduring, hfits⟩ := h.fits_since horderly hsplit
      obtain ⟨rfl, hasked⟩ :=
        (h.course horderly hduring hleave).1.leave h.vacant hfits.allowed
      refine ⟨rfl, ?_, hasked⟩
      rintro rfl
      have hsame : w.standing.reservation = w.scene.standing.reservation := by rw [hkept.standing]
      refine hsame.trans ?_
      rw [scene, h.history_eq, hsplit, ← List.append_assoc, Scene.ofHistory_concat]
      rfl
    ends := by
      intro command result hi
      -- an operation that is finished has no burst under way
      by_contra hnone
      have hleave : ∀ e ∈ since, ¬ e.IsLeaveOf i := fun e he hel => hnone ⟨e, he, hel⟩
      obtain ⟨cleared, hmode⟩ := hkept.behaves hi
      have hburst := htoken hleave
      rw [hmode] at hburst
      cases hburst }

/-- While the burst of one caller is under way, another is refused a fresh start. -/
theorem World.isolates_refused_reinit :
    let w := (World.new {} : World Machine.recording Unit).run {}
      (.call (.sampleOnce ⟨3⟩ .db12 2) :: .call .reinit ::
        (List.replicate 5 (.advance 0) ++ List.replicate 3 (.advance 1) ++
          List.replicate 5 (.advance 0)))
    w.Isolates 0 ⟨3⟩ .idle (w.history.take 3) (w.history.drop 4) :=
  World.isolates_burst _ _ _ ⟨.inl rfl, ⟨[], _, rfl, by decide⟩, rfl⟩

end SharedAdc.Controller
