/-
What becomes of a reservation that was granted. Its channels stay reserved until a command ends it
that is there for that, with one exception: a burst that was under way on the same channel when the
reservation was granted, and had found the unit free, leaves it free again.
-/
import SharedAdc.Proofs.Accounts.Routing
import SharedAdc.Proofs.Tenure.Run

namespace SharedAdc.Controller

variable {κ φ : Type} {machine : Machine κ}

/-! ## Bursts under way -/

namespace Scene.Orderly

variable {history : List (Exchange κ φ)} {locked : Bool} {i : Nat}

/-- Whoever has a burst under way has begun it, and not given up the lock since. -/
theorem begun (h : Orderly history locked) {b : Burst}
    (hb : ((ofHistory history).modes i).burst = some b) :
    ∃ c before since, b.mask = .single c ∧ BurstBegan history i c b.found before since ∧
      ∀ e ∈ since, ¬ e.IsLeaveOf i := by
  induction history using List.reverseRecOn generalizing locked with
  | nil => cases hb
  | append_singleton history e ih =>
    obtain ⟨locked', hbefore, hfits⟩ := h.init
    rw [ofHistory_concat] at hb
    -- a burst that was under way before still is, as long as its caller does not leave
    have hlater : ((ofHistory history).modes i).burst = some b → ¬ e.IsLeaveOf i →
        ∃ c before since, b.mask = .single c ∧
          BurstBegan (history ++ [e]) i c b.found before since ∧
          ∀ e ∈ since, ¬ e.IsLeaveOf i := by
      intro hburst hleave
      obtain ⟨c, before, since, hmask, hbegan, hsince⟩ := ih hbefore hburst
      refine ⟨c, before, since ++ [e], hmask,
        ⟨hbegan.vacant, hbegan.entered, by rw [hbegan.split]; simp⟩, fun e' he' => ?_⟩
      rcases List.mem_append.1 he' with hmem | hlast
      · exact hsince e' hmem
      · rw [List.mem_singleton.1 hlast]
        exact hleave
    by_cases he : e.caller = i
    · subst he
      obtain ⟨i, q, answer⟩ := e
      have hallow := hfits.allowed
      rw [modes_after_self ⟨i, q, answer⟩] at hb
      cases hmode : (ofHistory history).modes i with
      | away burst cleared =>
        simp only [hmode] at hb hallow
        have hsame : burst = some b := by
          cases q <;> exact hb
        refine hlater (by rw [hmode]; exact hsame) ?_
        rintro ⟨-, hq⟩
        cases q with
        | leave held => exact hallow.elim
        | _ => cases hq
      | inside burst entry now =>
        simp only [hmode] at hb hallow
        cases q with
        | leave held =>
          -- whoever leaves with a burst has just opened it
          simp only [Mode.next, Mode.burst, Mode.opened] at hb
          split at hb
          · rename_i hopened
            obtain ⟨hnone, hne, hone⟩ := hopened
            cases hb
            obtain ⟨c, hc⟩ := hallow.sound.active_single hone
            have hheld : held = ⟨.single c, .oneShot⟩ := by
              rw [← hone, ← show held.active = .single c from hc]
            have hvacant : entry.reservation.session = .idle ∨
                entry.reservation.session = .reserved := by
              rcases hallow.opens hnone hne hone with hidle | hreserved
              · exact .inl (by rw [hidle]; rfl)
              · exact .inr (by rw [hreserved])
            exact ⟨c, history, [], hc, ⟨hvacant, hbefore.entered_of_inside hmode, by rw [hheld]⟩,
              by simp⟩
          · cases hb
        | _ =>
          exact hlater (by rw [hmode]; exact hb) fun hleave => by cases hleave.2
    · rw [modes_after_ne e (Ne.symm he)] at hb
      exact hlater hb fun hleave => he hleave.1

end Scene.Orderly

/-- A burst of caller `j` on `mask`, which has found the unit free, is under way after a history. -/
def FreshBurst (history : List (Exchange κ φ)) (j : Nat) (mask : Mask) : Prop :=
  ∃ c before since, mask = .single c ∧ BurstBegan history j c .idle before since ∧
    ∀ e ∈ since, ¬ e.IsLeaveOf j

/-- The exchange in which a caller gave up the lock, if it did so just once. -/
theorem Account.exists_only {history : List (Exchange κ φ)} {i : Nat} {held : Reservation}
    (h : (of i history).left = [held]) :
    ∃ before later, history = before ++ ⟨i, .leave held, ()⟩ :: later ∧
      ∀ e ∈ before ++ later, ¬ e.IsLeaveOf i := by
  obtain ⟨before, later, rfl, hlater⟩ := exists_last (i := i) (by rw [h]; rfl)
  have hcount := length_left i (before ++ ⟨i, .leave held, ()⟩ :: later)
  have hself : (⟨i, .leave held, ()⟩ : Exchange κ φ).IsLeaveOf i := ⟨rfl, rfl⟩
  rw [h, List.length_singleton, List.countP_append,
    List.countP_cons_of_pos (by simpa using hself)] at hcount
  have hbefore : before.countP (fun e => e.IsLeaveOf i) = 0 := by omega
  refine ⟨before, later, rfl, fun e he => ?_⟩
  rcases List.mem_append.1 he with hmem | hmem
  · simpa using List.countP_eq_zero.1 hbefore e hmem
  · exact hlater e hmem

/-! ## Channels that stay reserved -/

/-- Whatever is put back holds the channels of `mask`. -/
def KeepsMask (mask : Mask) (history : List (Exchange κ φ)) : Prop :=
  ∀ e ∈ history, ∀ held, e.question = .leave held → held.active = mask

theorem Scene.active_append {mask : Mask} {before later : List (Exchange κ φ)}
    (h : (ofHistory before).standing.reservation.active = mask) (hkeeps : KeepsMask mask later) :
    (ofHistory (before ++ later)).standing.reservation.active = mask := by
  induction later using List.reverseRecOn with
  | nil => rwa [List.append_nil]
  | append_singleton later e ih =>
    have hbefore := ih fun e' he' => hkeeps e' (List.mem_append_left _ he')
    rw [← List.append_assoc, ofHistory_concat]
    by_cases hq : ∃ held, e.question = .leave held
    · obtain ⟨held, hq⟩ := hq
      have hheld := hkeeps e (by simp) held hq
      obtain ⟨j, q, answer⟩ := e
      subst hq
      exact hheld
    · have hne : ∀ held, e.question ≠ .leave held := fun held heq => hq ⟨held, heq⟩
      show ((ofHistory (before ++ later)).standing.after e.question e.answer).reservation.active = _
      rw [Standing.reservation_after hne]
      exact hbefore

/-! ## Runs -/

namespace World

/-- What becomes of a reservation of `mask` that was granted after `before`; `since` is what was
asked from then on. -/
structure GrantLasts (w : World machine φ) (mask : Mask) (before since : List (Exchange κ φ)) :
    Prop where
  /-- The channels are reserved as long as everybody puts them back. -/
  active : KeepsMask mask since → w.shared.reservation.active = mask
  /-- Whoever is the first not to is there for that, or ends a burst that was under way. -/
  lost : ∀ {during later : List (Exchange κ φ)} {j : Nat} {held : Reservation},
    since = during ++ ⟨j, .leave held, ()⟩ :: later → KeepsMask mask during →
    held.active ≠ mask →
      (∃ caller, w.callers[j]? = some caller ∧ caller.command.GivesUp mask
        (AnsweredCall.firstFault? (callsOf j w.history)).isSome) ∨ FreshBurst before j mask
  /-- A burst that was under way leaves the unit free, if it had found it so. -/
  undone : ∀ {during later : List (Exchange κ φ)} {j : Nat} {held : Reservation},
    FreshBurst before j mask → since = during ++ ⟨j, .leave held, ()⟩ :: later →
    (∀ e ∈ during, ¬ e.IsLeaveOf j) → held = .idle

section

variable {w : World machine φ} {mask : Mask} {session : Session} {i j : Nat}
  {before during later : List (Exchange κ φ)} {held : Reservation}

/-- Before the first that does not keep them, the channels are those of the grant. -/
theorem active_during (before : List (Exchange κ φ)) (i : Nat) (session : Session)
    (hkeeps : KeepsMask mask during) :
    (Scene.ofHistory (before ++ ⟨i, .leave ⟨mask, session⟩, ()⟩ ::
      during)).standing.reservation.active = mask := by
  have hgranted : (Scene.ofHistory (before ++
      [⟨i, .leave ⟨mask, session⟩, ()⟩])).standing.reservation.active = mask := by
    rw [Scene.ofHistory_concat]
    rfl
  have happend := Scene.active_append hgranted hkeeps
  rwa [List.append_assoc, List.singleton_append] at happend

theorem callsOf_append (i : Nat) (before later : List (Exchange κ φ)) :
    callsOf i (before ++ later) = callsOf i before ++ callsOf i later := by
  simp [callsOf]

/-- A burst that ends with a reservation of other channels was under way when those of `mask` were
granted, and had found the unit free. -/
theorem freshBurst_of_ends {locked : Bool} {b : Burst}
    (horderly : Scene.Orderly (before ++ ⟨i, .leave ⟨mask, session⟩, ()⟩ :: during) locked)
    (hkeeps : KeepsMask mask during) (hji : j ≠ i)
    (hb : ((Scene.ofHistory (before ++ ⟨i, .leave ⟨mask, session⟩, ()⟩ :: during)).modes j).burst =
      some b) (hfound : b.found.active ≠ mask) : FreshBurst before j mask := by
  obtain ⟨c, earlier, since, hmask, hbegan, hsince⟩ := horderly.begun hb
  obtain ⟨hheld, -⟩ := horderly.settled.token hb
  have hactive : b.mask = mask := by
    rw [← active_during before i session hkeeps, hheld]
  obtain rfl : mask = .single c := hactive.symm.trans hmask
  have hidle : b.found = .idle := by
    rcases (hbegan.begins horderly).1 with hidle | hreserved
    · exact hidle
    · exact absurd (by rw [hreserved]) hfound
  rw [hidle] at hbegan
  rcases append_cons_cases hbegan.split with ⟨mid, rfl, hmid⟩ | ⟨-, heq, -⟩ | ⟨mid, hbefore, rfl⟩
  · -- had it begun after the grant, it would have found the channels reserved
    obtain ⟨earlier', within, hentered, hwithin⟩ := hbegan.entered
    obtain ⟨locked', hearlier, -⟩ := horderly.split hbegan.split
    rw [hentered] at hearlier
    obtain ⟨burst, entry, now, hentry, hinside⟩ := hearlier.inside_of_entered hwithin
    obtain ⟨-, -, -, hsame, -⟩ := hearlier.settled.guarded.of_inside hinside
    have hmidway : KeepsMask (.single c) mid := fun e he => hkeeps e (by rw [hmid]; simp [he])
    have hactive := active_during before i session hmidway
    rw [hentered, ← hsame, hentry] at hactive
    have hempty := (checkMask_ok (single_proper c)).1
    rw [← hactive] at hempty
    cases hempty
  · cases heq
    exact absurd rfl hji
  · refine ⟨c, earlier, mid, rfl, ⟨hbegan.vacant, hbegan.entered, hbefore⟩, fun e he => ?_⟩
    exact hsince e (List.mem_append_left _ he)

/-- Whoever is the first to put other channels back is there for that, or ends a burst. -/
theorem Followed.loses (h : w.Followed tenures) (hmask : checkMask mask = .ok ())
    (hsplit : w.history = (before ++ ⟨i, .leave ⟨mask, session⟩, ()⟩ :: during) ++
      ⟨j, .leave held, ()⟩ :: later)
    (hkeeps : KeepsMask mask during) (hji : j ≠ i) (hheld : held.active ≠ mask) :
    (∃ caller, w.callers[j]? = some caller ∧ caller.command.GivesUp mask
      (AnsweredCall.firstFault? (callsOf j w.history)).isSome) ∨ FreshBurst before j mask := by
  obtain ⟨locked, horderly, hfits⟩ := h.kept.orderly.split hsplit
  have hallow := hfits.allowed
  cases hmode : (Scene.ofHistory
      (before ++ ⟨i, .leave ⟨mask, session⟩, ()⟩ :: during)).modes j with
  | away burst cleared =>
    simp only [hmode] at hallow
    exact hallow.elim
  | inside burst entry now =>
    simp only [hmode] at hallow
    have hagrees := Account.agrees horderly j
    rw [hmode] at hagrees
    obtain ⟨-, -, -, hsame, -⟩ := horderly.settled.guarded.of_inside hmode
    have hactive : entry.reservation.active = mask := by
      rw [hsame]
      exact active_during before i session hkeeps
    cases hburst : burst with
    | some b =>
      rw [hallow.ends b hburst] at hheld
      exact .inr (freshBurst_of_ends horderly hkeeps hji (by rw [hmode]; exact hburst) hheld)
    | none =>
      -- with no burst under way the rules of tenure keep the channels, or let the command end them
      obtain ⟨caller, hcaller, -, hleave⟩ := h.allowed hsplit
      have hidle : entry.reservation.isIdle = false := by
        rw [Reservation.isIdle, hactive]
        exact (checkMask_ok hmask).1
      have hnone := hagrees.burst.trans (congrArg (Option.map Burst.mask) hburst)
      rcases hleave.keeps entry.reservation hagrees.entry hnone hidle with hkept | hgives
      · exact absurd (hkept.trans hactive) hheld
      · rw [hactive] at hgives
        refine .inl ⟨caller, hcaller, hgives.mono fun hfault => ?_⟩
        -- a call that had failed by then has failed
        rw [hsplit, callsOf_append, firstFault?_append, Option.isSome_or, Bool.or_eq_true]
        exact .inl (by rwa [← Account.calls_of])

/-- A burst that was under way when the channels were granted leaves the unit free. -/
theorem Kept.undoes (h : w.Kept)
    (hsplit : w.history = (before ++ ⟨i, .leave ⟨mask, session⟩, ()⟩ :: during) ++
      ⟨j, .leave held, ()⟩ :: later)
    (hji : j ≠ i) (hfresh : FreshBurst before j mask) (hleave : ∀ e ∈ during, ¬ e.IsLeaveOf j) :
    held = .idle := by
  obtain ⟨c, earlier, mid, rfl, hbegan, hmid⟩ := hfresh
  have hwhole : BurstBegan w.history j c .idle earlier
      ((mid ++ ⟨i, .leave ⟨.single c, session⟩, ()⟩ :: during) ++ ⟨j, .leave held, ()⟩ :: later) :=
    ⟨hbegan.vacant, hbegan.entered, by rw [hsplit, hbegan.split]; simp⟩
  have hnone : ∀ e ∈ mid ++ ⟨i, .leave ⟨.single c, session⟩, ()⟩ :: during, ¬ e.IsLeaveOf j := by
    intro e he
    rcases List.mem_append.1 he with he | he
    · exact hmid e he
    · rcases List.mem_cons.1 he with rfl | he
      · exact fun hgrant => hji hgrant.1.symm
      · exact hleave e he
  obtain ⟨locked, horderly, hfits⟩ := hwhole.fits_since h.orderly rfl
  exact ((hwhole.course h.orderly horderly hnone).1.leave hwhole.vacant hfits.allowed).1

end

/-- Whatever the callers ask for, whatever the hardware replies and in whatever order everybody goes
on: a caller that has reserved channels was granted them in one section under the lock, and they
stay reserved until a command ends that which is there for it, or a burst ends that was under way
then and had found the unit free. -/
theorem grants_last (config : Config) (memory : machine.Memory)
    (actions : List (Action machine φ)) {i : Nat} {mask : Mask}
    (hi : ((new memory).run config actions).callers[i]? =
      some ⟨.reserve mask, .done (.done (.ok ()))⟩) :
    ∃ before session since, ((new memory).run config actions).history =
        before ++ ⟨i, .leave ⟨mask, session⟩, ()⟩ :: since ∧
      (∀ e ∈ before ++ since, ¬ e.IsLeaveOf i) ∧
      ((new memory).run config actions).GrantLasts mask before since := by
  have h := tenured_run config memory actions
  generalize (new memory).run config actions = w at h hi ⊢
  obtain ⟨hmask, session, hleft⟩ := h.finished hi mask rfl rfl
  obtain ⟨before, since, hsplit, honly⟩ := Account.exists_only hleft
  have hlater : ∀ {during later : List (Exchange κ φ)} {j : Nat} {held : Reservation},
      since = during ++ ⟨j, .leave held, ()⟩ :: later → j ≠ i ∧
        w.history = (before ++ ⟨i, .leave ⟨mask, session⟩, ()⟩ :: during) ++
          ⟨j, .leave held, ()⟩ :: later := by
    rintro during later j held rfl
    refine ⟨?_, by rw [hsplit, List.append_assoc, List.cons_append]⟩
    rintro rfl
    exact honly ⟨j, .leave held, ()⟩ (by simp) ⟨rfl, rfl⟩
  refine ⟨before, session, since, hsplit, honly, ?_⟩
  constructor
  case active =>
    intro hkeeps
    have hsame : w.scene.standing.reservation = w.standing.reservation := by rw [h.kept.standing]
    show w.standing.reservation.active = mask
    rw [← hsame, scene, hsplit]
    exact active_during before i session hkeeps
  case lost =>
    intro during later j held hduring hkeeps hheld
    obtain ⟨hji, hlost⟩ := hlater hduring
    exact h.loses hmask hlost hkeeps hji hheld
  case undone =>
    intro during later j held hfresh hduring hleave
    obtain ⟨hji, hends⟩ := hlater hduring
    exact h.kept.undoes hends hji hfresh hleave

/-- A world in which channel `c` was granted to the second caller while the first was converting on
it, and both are finished. -/
def grantedDuringBurst (c : Channel) : World Machine.recording Unit :=
  (new {} : World Machine.recording Unit).run {}
    (.call (.sampleOnce c .db12 1) :: .call (.reserve (.single c)) ::
      (List.replicate 4 (.advance 0) ++ List.replicate 3 (.advance 1) ++
        List.replicate 5 (.advance 0)))

/-- The burst that a grant has met is found in the history. -/
theorem grants_last_during_burst : ∃ before session since,
    (grantedDuringBurst ⟨3⟩).history = before ++ ⟨1, .leave ⟨.single ⟨3⟩, session⟩, ()⟩ :: since ∧
      (∀ e ∈ before ++ since, ¬ e.IsLeaveOf 1) ∧
      (grantedDuringBurst ⟨3⟩).GrantLasts (.single ⟨3⟩) before since :=
  grants_last _ _ _ rfl

/-- The burst has taken the channel away from the caller that it was granted to, though nobody has
called for that. -/
theorem grant_lost_with_burst :
    (grantedDuringBurst ⟨3⟩).callers[1]? =
        some ⟨.reserve (.single ⟨3⟩), .done (.done (.ok ()))⟩ ∧
      (∀ caller ∈ (grantedDuringBurst ⟨3⟩).callers, ∀ failed,
        ¬ caller.command.GivesUp (.single ⟨3⟩) failed) ∧
      (grantedDuringBurst ⟨3⟩).shared.reservation = .idle := by
  refine ⟨rfl, ?_, rfl⟩
  have hcommands : (grantedDuringBurst ⟨3⟩).callers.map Caller.command =
      [.sampleOnce ⟨3⟩ .db12 1, .reserve (.single ⟨3⟩)] := rfl
  intro caller hcaller failed
  have hcommand := List.mem_map_of_mem (f := Caller.command) hcaller
  rw [hcommands] at hcommand
  rcases List.mem_cons.1 hcommand with heq | hmem
  · simp [heq, Command.GivesUp]
  · simp [List.mem_singleton.1 hmem, Command.GivesUp]

end World

end SharedAdc.Controller
