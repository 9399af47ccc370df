/-
Whose unit a conversion is made on. A burst converts on the unit that its caller has created, and
which nobody else can close. Whoever samples an armed channel has found a unit that was set up for
it, looks at it no more, and converts on that unit just as long as nobody closes it in between.
-/
import SharedAdc.Proofs.Accounts.Admission
import SharedAdc.Proofs.Tenure.Run

namespace SharedAdc.Controller

variable {κ φ : Type} {machine : Machine κ}

/-! ## Units -/

namespace Fitting

variable {f : Fitting} {i : Nat} {q : Question κ φ} {u : OpenUnit}

/-- What an answer can make of the unit. -/
theorem unit_cases (f : Fitting) (i : Nat) (q : Question κ φ) (answer : Answer q) :
    (f.after i q answer).created = f.created ∧ (f.after i q answer).unit = f.unit ∨
    q = .hardware .createOneShotUnit ∧ (f.after i q answer).created = f.created + 1 ∧
      (f.after i q answer).unit = some ⟨f.created, i, none⟩ ∨
    (∃ channel range, q = .hardware (.configureOneShotChannel channel range) ∧
      (f.after i q answer).created = f.created ∧
      (f.after i q answer).unit = f.unit.map fun u => { u with channel := some channel }) ∨
    q = .hardware .deleteOneShotUnit ∧ (f.after i q answer).created = f.created ∧
      (f.after i q answer).unit = none := by
  cases q with
  | hardware call =>
    cases call with
    | createOneShotUnit =>
      cases answer with
      | error fault => exact .inl ⟨rfl, rfl⟩
      | ok => exact .inr (.inl ⟨rfl, rfl, rfl⟩)
    | configureOneShotChannel channel range =>
      cases answer with
      | error fault => exact .inl ⟨rfl, rfl⟩
      | ok => exact .inr (.inr (.inl ⟨channel, range, rfl, rfl, rfl⟩))
    | deleteOneShotUnit => exact .inr (.inr (.inr ⟨rfl, rfl, rfl⟩))
    | _ => exact .inl ⟨rfl, rfl⟩
  | _ => exact .inl ⟨rfl, rfl⟩

/-- Unit `u` was created, and is not open any more. -/
structure Lost (u : OpenUnit) (f : Fitting) : Prop where
  created : u.number < f.created
  gone : ∀ u', f.unit = some u' → u'.number ≠ u.number

/-- A unit that is not open any more does not come back. -/
theorem Lost.after (h : f.Lost u) (i : Nat) (q : Question κ φ) (answer : Answer q) :
    (f.after i q answer).Lost u := by
  have hcreated := h.created
  rcases unit_cases f i q answer with ⟨hcount, hunit⟩ | ⟨-, hcount, hunit⟩ |
    ⟨channel, range, -, hcount, hunit⟩ | ⟨-, hcount, hunit⟩
  · exact ⟨by rwa [hcount], by rw [hunit]; exact h.gone⟩
  · refine ⟨by omega, ?_⟩
    rw [hunit]
    rintro _ ⟨⟩
    exact Nat.ne_of_gt hcreated
  · refine ⟨by rwa [hcount], ?_⟩
    rw [hunit]
    intro u' hu'
    obtain ⟨v, hv, rfl⟩ := Option.map_eq_some_iff.1 hu'
    exact h.gone v hv
  · refine ⟨by rwa [hcount], ?_⟩
    rw [hunit]
    simp

/-- What every answer keeps, the rest of a history keeps. -/
theorem append_induction {P : Fitting → Prop} {before : List (Exchange κ φ)}
    (hstep : ∀ (f : Fitting) (e : Exchange κ φ), P f → P (f.after e.caller e.question e.answer))
    (h : P (ofHistory before)) (later : List (Exchange κ φ)) : P (ofHistory (before ++ later)) := by
  induction later using List.reverseRecOn with
  | nil => rwa [List.append_nil]
  | append_singleton later e ih =>
    rw [← List.append_assoc, ofHistory_concat]
    exact hstep _ e ih

theorem created_after (h : u.number < f.created) (i : Nat) (q : Question κ φ) (answer : Answer q) :
    u.number < (f.after i q answer).created := by
  rcases unit_cases f i q answer with ⟨hcount, -⟩ | ⟨-, hcount, -⟩ | ⟨-, -, -, hcount, -⟩ |
    ⟨-, hcount, -⟩ <;> omega

theorem number_lt_after (h : ∀ u, f.unit = some u → u.number < f.created) (i : Nat)
    (q : Question κ φ) (answer : Answer q) :
    ∀ u, (f.after i q answer).unit = some u → u.number < (f.after i q answer).created := by
  intro u hu
  rcases unit_cases f i q answer with ⟨hcount, hunit⟩ | ⟨-, hcount, hunit⟩ |
    ⟨channel, range, -, hcount, hunit⟩ | ⟨-, hcount, hunit⟩
  · rw [hcount]
    exact h u (hunit.symm.trans hu)
  · cases hunit.symm.trans hu
    rw [hcount]
    exact Nat.lt_succ_self _
  · obtain ⟨v, hv, rfl⟩ := Option.map_eq_some_iff.1 (hunit.symm.trans hu)
    rw [hcount]
    exact h v hv
  · cases hunit.symm.trans hu

/-- Units are numbered in the order in which they are created. -/
theorem number_lt {history : List (Exchange κ φ)} (h : (ofHistory history).unit = some u) :
    u.number < (ofHistory history).created := by
  induction history using List.reverseRecOn generalizing u with
  | nil => cases h
  | append_singleton history e ih =>
    rw [ofHistory_concat] at h ⊢
    exact number_lt_after (fun _ hv => ih hv) e.caller e.question e.answer u h

/-- Once somebody has closed a unit, it is not the open one again. -/
theorem unit_ne_of_closed {before later : List (Exchange κ φ)}
    (h : (ofHistory before).unit = some u) (hclosed : ∃ e ∈ later, e.closesUnit = true) :
    (ofHistory (before ++ later)).unit ≠ some u := by
  obtain ⟨⟨j, q, answer⟩, he, hcloses⟩ := hclosed
  obtain ⟨during, after, rfl⟩ := List.append_of_mem he
  have hcreated := append_induction (P := fun f => u.number < f.created)
    (fun f e hf => created_after hf e.caller e.question e.answer) (number_lt h) during
  have hlost : (ofHistory (before ++ during ++ [⟨j, q, answer⟩])).Lost u := by
    rw [ofHistory_concat]
    cases q with
    | hardware call =>
      cases call with
      | deleteOneShotUnit => exact ⟨hcreated, by rintro _ ⟨⟩⟩
      | _ => cases hcloses
    | _ => cases hcloses
  have hrest := append_induction (P := Lost u)
    (fun f e hf => hf.after e.caller e.question e.answer) hlost after
  rw [List.append_assoc, List.append_assoc, List.singleton_append] at hrest
  exact fun hunit => hrest.gone u hunit rfl

/-- What is open by the fitting is open by the paths. -/
theorem isSome_unit (history : List (Exchange κ φ)) :
    (ofHistory history).unit.isSome = (Paths.ofHistory history).unit := by
  induction history using List.reverseRecOn with
  | nil => rfl
  | append_singleton history e ih =>
    rw [ofHistory_concat, Paths.ofHistory_concat]
    obtain ⟨j, q, answer⟩ := e
    cases q with
    | hardware call =>
      cases call with
      | createOneShotUnit | createContinuous | startContinuous =>
        cases answer <;> first | exact ih | rfl
      | configureOneShotChannel channel range =>
        cases answer with
        | error fault => exact ih
        | ok => exact Option.isSome_map.trans ih
      | deleteOneShotUnit => rfl
      | _ => exact ih
    | _ => exact ih

end Fitting

/-! ## Whose unit it is -/

section

variable {callers : List (Caller κ φ)} {history before later : List (Exchange κ φ)} {locked : Bool}
  {e : Exchange κ φ} {u : OpenUnit} {c : Channel} {j : Nat}

/-- The command of a caller that is under the lock comes under the lock. -/
theorem Follower.Allowed.enters (h : tenures.Allowed callers history)
    (horderly : Scene.Orderly history locked) {burst : Option Burst} {entry now : Standing φ}
    (hj : (Scene.ofHistory history).modes j = .inside burst entry now) {caller : Caller κ φ}
    (hcaller : callers[j]? = some caller) : caller.command.entersLock = true := by
  obtain ⟨earlier, within, hsplit, -⟩ := horderly.entered_of_inside hj
  obtain ⟨caller', hcaller', -, hlock⟩ := h hsplit
  cases hcaller.symm.trans hcaller'
  exact hlock

/-- Whoever makes a call that is neither a conversion nor for calibration comes under the lock. -/
theorem Follower.Allowed.enters_of_call (h : tenures.Allowed callers history)
    (horderly : Scene.Orderly history locked) (hfits : (Scene.ofHistory history).Fits locked e)
    {call : HardwareCall κ} (hq : e.question = .hardware call) (hcalibration : ¬ call.IsCalibration)
    (hread : ∀ c, call ≠ .readOneShot c) {caller : Caller κ φ}
    (hcaller : callers[e.caller]? = some caller) : caller.command.entersLock = true := by
  have hallow := hfits.allowed
  rw [hq] at hallow
  cases hi : (Scene.ofHistory history).modes e.caller with
  | away burst cleared =>
    rw [hi] at hallow
    rcases hallow with ⟨-, hcalibrates⟩ | ⟨c, hreads, -⟩
    · exact absurd hcalibrates hcalibration
    · exact absurd hreads (hread c)
  | inside burst entry now => exact h.enters horderly hi hcaller

/-- Whoever has created the open unit has come under the lock. -/
theorem Follower.Allowed.creator_enters (h : tenures.Allowed callers history)
    (horderly : Scene.Orderly history locked) (hunit : (Fitting.ofHistory history).unit = some u)
    {caller : Caller κ φ} (hcaller : callers[u.creator]? = some caller) :
    caller.command.entersLock = true := by
  induction history using List.reverseRecOn generalizing locked u with
  | nil => cases hunit
  | append_singleton history e ih =>
    obtain ⟨locked', hbefore, hfits⟩ := horderly.init
    rw [Fitting.ofHistory_concat] at hunit
    rcases Fitting.unit_cases (Fitting.ofHistory history) e.caller e.question e.answer with
      ⟨-, hsame⟩ | ⟨hq, -, hcreated⟩ | ⟨channel, range, -, -, hset⟩ | ⟨-, -, hclosed⟩
    · exact ih h.init hbefore (hsame.symm.trans hunit) hcaller
    · cases hcreated.symm.trans hunit
      exact h.init.enters_of_call hbefore hfits hq (by simp [HardwareCall.IsCalibration]) (by simp)
        hcaller
    · obtain ⟨v, hv, rfl⟩ := Option.map_eq_some_iff.1 (hset.symm.trans hunit)
      exact ih (u := v) h.init hbefore hv hcaller
    · cases hclosed.symm.trans hunit

/-- A unit that is set up stays as it is, until somebody closes it. -/
theorem Follower.Allowed.unit_concat (h : tenures.Allowed callers (history ++ [e]))
    (horderly : Scene.Orderly (history ++ [e]) locked)
    (hunit : (Fitting.ofHistory history).unit = some u) (hchannel : u.channel = some c)
    (hopen : e.closesUnit = false) : (Fitting.ofHistory (history ++ [e])).unit = some u := by
  obtain ⟨locked', hbefore, hfits⟩ := horderly.init
  have hallow := hfits.allowed
  rw [Fitting.ofHistory_concat]
  obtain ⟨i, q, answer⟩ := e
  cases hi : (Scene.ofHistory history).modes i with
  | away burst cleared =>
    simp only [hi] at hallow
    rw [Fitting.after_of_away hallow]
    exact hunit
  | inside burst entry now =>
    simp only [hi] at hallow
    rcases Fitting.unit_cases (Fitting.ofHistory history) i q answer with
      ⟨-, hsame⟩ | ⟨rfl, -⟩ | ⟨channel, range, rfl, -, hset⟩ | ⟨rfl, -⟩
    · exact hsame.trans hunit
    · -- nobody creates a unit while one is open
      obtain ⟨-, rfl, -⟩ := hbefore.settled.guarded.of_inside hi
      have hclosed := hallow.1.1
      rw [World.paths_scene, ← Fitting.isSome_unit, hunit] at hclosed
      cases hclosed
    · obtain ⟨caller, -, -, htakes⟩ := h rfl
      obtain rfl := htakes _ (Turn.fitting_of_inside hbefore hi) u c hunit hchannel
      rw [hset, hunit, Option.map_some, ← hchannel]
    · cases hopen

theorem Follower.Allowed.unit_append (h : tenures.Allowed callers (before ++ later))
    (horderly : Scene.Orderly (before ++ later) locked)
    (hunit : (Fitting.ofHistory before).unit = some u) (hchannel : u.channel = some c)
    (hopen : ∀ e ∈ later, e.closesUnit = false) :
    (Fitting.ofHistory (before ++ later)).unit = some u := by
  induction later using List.reverseRecOn generalizing locked with
  | nil => rwa [List.append_nil]
  | append_singleton later e ih =>
    rw [← List.append_assoc] at h horderly ⊢
    obtain ⟨locked', hbefore, -⟩ := horderly.init
    exact h.unit_concat horderly (ih h.init hbefore fun e' he' =>
      hopen e' (List.mem_append_left _ he')) hchannel (hopen e (by simp))

/-- Outside the lock a burst has the unit that its caller has created for it. -/
theorem Follower.Allowed.burst_unit (h : tenures.Allowed callers history)
    (horderly : Scene.Orderly history locked) {b : Burst} {cleared : Option Channel}
    (hj : (Scene.ofHistory history).modes j = .away (some b) cleared) :
    ∃ c n, b.mask = .single c ∧ (Fitting.ofHistory history).unit = some ⟨n, j, some c⟩ := by
  induction history using List.reverseRecOn generalizing locked cleared with
  | nil => cases hj
  | append_singleton history e ih =>
    obtain ⟨locked', hbefore, hfits⟩ := horderly.init
    rw [Scene.ofHistory_concat] at hj
    rw [Fitting.ofHistory_concat]
    by_cases he : e.caller = j
    · subst he
      have hallow := hfits.allowed
      obtain ⟨j, q, answer⟩ := e
      rw [Scene.modes_after_self ⟨j, q, answer⟩] at hj
      cases hmode : (Scene.ofHistory history).modes j with
      | away burst cleared' =>
        simp only [hmode] at hj hallow
        rw [Fitting.after_of_away hallow]
        have hsame : burst = some b := by
          cases q <;> cases hj <;> rfl
        exact ih h.init hbefore (hsame ▸ hmode)
      | inside burst entry now =>
        simp only [hmode] at hj hallow
        cases q with
        | leave held =>
          -- whoever leaves a burst behind has set up a unit for it
          have hopened : Mode.opened burst entry held = some b := (Mode.away.inj hj).1
          have hagrees := Account.agrees hbefore j
          rw [hmode] at hagrees
          obtain ⟨caller, -, -, hleave⟩ := h rfl
          obtain ⟨f, n, c, hf, hmask, hunit⟩ := hleave.opens b.mask (by
            show (Account.of j history).opened held = some b.mask
            rw [hagrees.opened, hopened]
            rfl)
          cases (Turn.fitting_of_inside hbefore hmode).symm.trans hf
          exact ⟨c, n, hmask, hunit⟩
        | _ => cases hj
    · rw [Scene.modes_after_ne e (Ne.symm he)] at hj
      obtain ⟨c, n, hmask, hunit⟩ := ih h.init hbefore hj
      refine ⟨c, n, hmask, ?_⟩
      -- nobody else makes calls that concern the unit while the burst is under way
      have hothers := (hbefore.settled.others (i := j) (by rw [hj]; rfl) hfits he).2
      rcases Fitting.unit_cases (Fitting.ofHistory history) e.caller e.question e.answer with
        ⟨-, hsame⟩ | ⟨hq, -⟩ | ⟨channel, range, hq, -⟩ | ⟨hq, -⟩
      · exact hsame.trans hunit
      all_goals
        rcases hothers _ hq with hcalibration | ⟨d, hread, -⟩
        · exact hcalibration.elim
        · cases hread

end

/-! ## Runs -/

/-- The open unit is set up for channel `c` and is that of caller `j`: the caller has created it, or
it is the very one that was open when the caller found the channel armed. -/
def OwnsUnit (history : List (Exchange κ φ)) (j : Nat) (c : Channel) : Prop :=
  ∃ u, (Fitting.ofHistory history).unit = some u ∧ u.channel = some c ∧
    (u.creator = j ∨ ∃ earlier between, history = earlier ++ ⟨j, .armed, some c⟩ :: between ∧
      (Fitting.ofHistory earlier).unit = some u)

/-- Nobody has closed the unit since caller `j` has found channel `c` armed, if it has. -/
def UnitStays (history : List (Exchange κ φ)) (j : Nat) (c : Channel) : Prop :=
  ∀ earlier between, history = earlier ++ ⟨j, .armed, some c⟩ :: between →
    ∀ e ∈ between, e.closesUnit = false

namespace World

/-- Where caller `j` stands when it is about to convert on channel `c`, after `before`. -/
structure ReadsUnit (w : World machine φ) (before : List (Exchange κ φ)) (j : Nat) (c : Channel) :
    Prop where
  /-- Whoever comes under the lock converts in a burst, on a unit that it has created. -/
  burst : ∀ caller, w.callers[j]? = some caller → caller.command.entersLock = true →
    ∃ n, (Fitting.ofHistory before).unit = some ⟨n, j, some c⟩
  /-- Anybody else has looked once, and found the channel armed and the unit set up for it. -/
  checked : ∀ caller, w.callers[j]? = some caller → caller.command.entersLock = false →
    ∃ earlier between, before = earlier ++ ⟨j, .armed, some c⟩ :: between ∧
      (Fitting.ofHistory earlier).armed = some c ∧ (Fitting.ofHistory earlier).Serves c
  /-- The unit is the caller's just as long as nobody has closed it since. -/
  owns : OwnsUnit before j c ↔ UnitStays before j c

variable {w : World machine φ} {before later before' later' : List (Exchange κ φ)} {j : Nat}
  {c : Channel} {found found' : Option Channel} {reply : Except HardwareFault UInt16}

/-- Who looks at the armed channel does not come under the lock. -/
theorem Followed.looks (h : w.Followed tenures)
    (hsplit : w.history = before ++ ⟨j, .armed, found⟩ :: later) {caller : Caller κ φ}
    (hcaller : w.callers[j]? = some caller) : caller.command.entersLock = false := by
  obtain ⟨caller', hcaller', -, hlock, -⟩ := h.allowed hsplit
  cases hcaller.symm.trans hcaller'
  exact hlock

theorem Followed.not_looks_again (h : w.Followed tenures)
    (hsplit : w.history = before ++ ⟨j, .armed, found⟩ :: later) :
    ∀ e ∈ later, e ≠ ⟨j, .armed, found'⟩ := by
  rintro _ he rfl
  obtain ⟨mid, rest, rfl⟩ := List.append_of_mem he
  rw [← List.cons_append, ← List.append_assoc] at hsplit
  obtain ⟨caller, -, -, -, hnone⟩ := h.allowed hsplit
  have hlooked : ∃ armed, (Account.of j (before ++ [⟨j, .armed, found⟩])).armed = some armed := by
    rw [Account.of_concat_self before ⟨j, .armed, found⟩]
    exact Option.isSome_iff_exists.1 (by simp [Account.after])
  obtain ⟨armed, harmed⟩ := hlooked
  have hsome : (Account.of j (before ++ [⟨j, .armed, found⟩] ++ mid)).armed = some armed :=
    Account.armed_append harmed
  rw [List.append_assoc, List.singleton_append] at hsome
  cases hsome.symm.trans hnone

/-- Nobody looks at the armed channel twice. -/
theorem Followed.looks_once (h : w.Followed tenures)
    (hsplit : w.history = before ++ ⟨j, .armed, found⟩ :: later)
    (hsplit' : w.history = before' ++ ⟨j, .armed, found'⟩ :: later') : before = before' := by
  rcases append_cons_cases (hsplit.symm.trans hsplit') with ⟨mid, -, rfl⟩ | ⟨heq, -⟩ | ⟨mid, -, rfl⟩
  · exact absurd rfl (h.not_looks_again hsplit ⟨j, .armed, found'⟩ (by simp))
  · exact heq
  · exact absurd rfl (h.not_looks_again hsplit' ⟨j, .armed, found⟩ (by simp))

/-- Whoever is about to convert has a burst and a unit for it, or has found the channel armed. -/
theorem Followed.converts (h : w.Followed tenures)
    (hread : w.history = before ++ ⟨j, .hardware (.readOneShot c), reply⟩ :: later) :
    (∃ n, (Fitting.ofHistory before).unit = some ⟨n, j, some c⟩) ∨
      ⟨j, .armed, some c⟩ ∈ before := by
  have hallowed : tenures.Allowed w.callers before := (hread ▸ h.allowed).of_append
  obtain ⟨locked, horderly, hfits⟩ := h.kept.orderly.split hread
  have hallow := hfits.allowed
  cases hj : (Scene.ofHistory before).modes j with
  | inside burst entry now =>
    obtain ⟨caller, -, -, htakes⟩ := h.allowed hread
    exact (htakes _ (Turn.fitting_of_inside horderly hj)).elim
  | away burst cleared =>
    simp only [hj] at hallow
    rcases hallow with ⟨-, hcalibration⟩ | ⟨d, hd, hburst | ⟨-, rfl⟩⟩
    · exact hcalibration.elim
    · cases hd
      obtain ⟨b, rfl, hmask⟩ := Option.map_eq_some_iff.1 hburst
      obtain ⟨c', n, hmask', hunit⟩ := hallowed.burst_unit horderly hj
      obtain rfl := single_inj (hmask.symm.trans hmask')
      exact .inl ⟨n, hunit⟩
    · cases hd
      exact .inr (Scene.cleared_mem hj)

/-- Who finds a channel armed finds a unit that is set up for it. -/
theorem Followed.finds (h : w.Followed tenures)
    (hsplit : w.history = before ++ ⟨j, .armed, some c⟩ :: later) :
    (Fitting.ofHistory before).armed = some c ∧ (Fitting.ofHistory before).Serves c := by
  have hallowed : tenures.Allowed w.callers before := (hsplit ▸ h.allowed).of_append
  obtain ⟨locked, horderly, hfits⟩ := h.kept.orderly.split hsplit
  have hshown : some c = (Scene.ofHistory before).standing.armed := hfits.shown
  have harmed : (Fitting.ofHistory before).armed = some c := by
    rw [Fitting.armed_ofHistory, hshown]
  exact ⟨harmed, hallowed.fit horderly c harmed⟩

/-- What was asked before an exchange was asked in the run. -/
theorem history_of_before {e e' : Exchange κ φ} {earlier between : List (Exchange κ φ)}
    (hsplit : w.history = before ++ e :: later) (hbefore : before = earlier ++ e' :: between) :
    w.history = earlier ++ e' :: (between ++ e :: later) := by
  rw [hsplit, hbefore, List.append_assoc, List.cons_append]

section

variable (h : w.Followed tenures)
  (hread : w.history = before ++ ⟨j, .hardware (.readOneShot c), reply⟩ :: later)

include h hread

theorem Followed.converts_in_burst {caller : Caller κ φ} (hcaller : w.callers[j]? = some caller)
    (hlock : caller.command.entersLock = true) :
    ∃ n, (Fitting.ofHistory before).unit = some ⟨n, j, some c⟩ := by
  rcases h.converts hread with hunit | hmem
  · exact hunit
  · obtain ⟨earlier, between, hsplit⟩ := List.append_of_mem hmem
    cases hlock.symm.trans (h.looks (history_of_before hread hsplit) hcaller)

theorem Followed.converts_as_armed {caller : Caller κ φ} (hcaller : w.callers[j]? = some caller)
    (hlock : caller.command.entersLock = false) :
    ∃ earlier between, before = earlier ++ ⟨j, .armed, some c⟩ :: between ∧
      (Fitting.ofHistory earlier).armed = some c ∧ (Fitting.ofHistory earlier).Serves c := by
  have hallowed : tenures.Allowed w.callers before := (hread ▸ h.allowed).of_append
  obtain ⟨locked, horderly, -⟩ := h.kept.orderly.split hread
  rcases h.converts hread with ⟨n, hunit⟩ | hmem
  · -- a unit of its own is one that it has come under the lock to create
    cases hlock.symm.trans (hallowed.creator_enters horderly hunit hcaller)
  · obtain ⟨earlier, between, hsplit⟩ := List.append_of_mem hmem
    exact ⟨earlier, between, hsplit, h.finds (history_of_before hread hsplit)⟩

theorem Followed.unitStays_of_owns (howns : OwnsUnit before j c) : UnitStays before j c := by
  have hallowed : tenures.Allowed w.callers before := (hread ▸ h.allowed).of_append
  obtain ⟨locked, horderly, -⟩ := h.kept.orderly.split hread
  obtain ⟨caller, hcaller, -⟩ := h.allowed hread
  obtain ⟨u, hunit, -, hown⟩ := howns
  intro earlier between hsplit e he
  have hlooked := history_of_before hread hsplit
  rcases hown with rfl | ⟨earlier', between', hsplit', hfound⟩
  · cases (h.looks hlooked hcaller).symm.trans (hallowed.creator_enters horderly hunit hcaller)
  · -- the unit that is open now is the one that was open then, so nobody has closed it
    obtain rfl := h.looks_once hlooked (history_of_before hread hsplit')
    by_contra hcloses
    have hclosed : ∃ e ∈ (⟨j, .armed, some c⟩ : Exchange κ φ) :: between, e.closesUnit = true :=
      ⟨e, List.mem_cons_of_mem _ he, by simpa using hcloses⟩
    rw [hsplit] at hunit
    exact Fitting.unit_ne_of_closed hfound hclosed hunit

theorem Followed.owns_of_unitStays (hstays : UnitStays before j c) : OwnsUnit before j c := by
  have hallowed : tenures.Allowed w.callers before := (hread ▸ h.allowed).of_append
  obtain ⟨locked, horderly, -⟩ := h.kept.orderly.split hread
  obtain ⟨caller, hcaller, -⟩ := h.allowed hread
  cases hlock : caller.command.entersLock with
  | true =>
    obtain ⟨n, hunit⟩ := h.converts_in_burst hread hcaller hlock
    exact ⟨_, hunit, rfl, .inl rfl⟩
  | false =>
    obtain ⟨earlier, between, rfl, -, u, hunit, hchannel⟩ :=
      h.converts_as_armed hread hcaller hlock
    refine ⟨u, ?_, hchannel, .inr ⟨earlier, between, rfl, hunit⟩⟩
    refine hallowed.unit_append horderly hunit hchannel fun e he => ?_
    rcases List.mem_cons.1 he with rfl | hmem
    · rfl
    · exact hstays earlier between rfl e hmem

end

/-- Whatever the callers ask for, whatever the hardware replies and in whatever order everybody goes
on: a conversion on a channel is made while a unit of the caller's is open and set up for that
channel, unless the caller had looked at the armed channel and the unit was closed since. -/
theorem reads_unit (config : Config) (memory : machine.Memory) (actions : List (Action machine φ))
    (hread : ((new memory).run config actions).history =
      before ++ ⟨j, .hardware (.readOneShot c), reply⟩ :: later) :
    ((new memory).run config actions).ReadsUnit before j c := by
  have h := tenured_run config memory actions
  constructor
  case burst =>
    intro caller hcaller hlock
    exact h.converts_in_burst hread hcaller hlock
  case checked =>
    intro caller hcaller hlock
    exact h.converts_as_armed hread hcaller hlock
  case owns => exact ⟨h.unitStays_of_owns hread, h.owns_of_unitStays hread⟩

/-- A world in which channel `c` was armed, and was released between two conversions on it. -/
def releasedWhileSampling (c : Channel) : World Machine.recording Unit :=
  (new {} : World Machine.recording Unit).run {}
    (.call (.setupTimeCritical c .db12) :: .call (.sampleTimeCritical c 2) ::
      .call (.releaseTimeCritical c) :: (List.replicate 6 (.advance 0) ++
        List.replicate 2 (.advance 1) ++ List.replicate 5 (.advance 2) ++ [.advance 1]))

/-- The first conversion is made on the unit that was found. -/
theorem reads_unit_before_release :
    (releasedWhileSampling ⟨3⟩).ReadsUnit ((releasedWhileSampling ⟨3⟩).history.take 7) 1 ⟨3⟩ :=
  reads_unit _ _ _ rfl

/-- The second one is made with no unit open. -/
theorem reads_without_unit :
    let before := (releasedWhileSampling ⟨3⟩).history.take 13
    (releasedWhileSampling ⟨3⟩).history = before ++ [⟨1, .hardware (.readOneShot ⟨3⟩), .ok 0⟩] ∧
      (Fitting.ofHistory before).unit = none ∧ ¬ OwnsUnit before 1 ⟨3⟩ := by
  have hnone : (Fitting.ofHistory ((releasedWhileSampling ⟨3⟩).history.take 13)).unit = none := rfl
  refine ⟨rfl, hnone, ?_⟩
  rintro ⟨u, hunit, -⟩
  cases hnone.symm.trans hunit

end World

end SharedAdc.Controller
