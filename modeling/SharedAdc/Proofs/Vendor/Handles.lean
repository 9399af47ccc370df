/-
The handles that a backend keeps, along every sequence of calls and whatever the driver answers. What is
live can be told from the calls of the driver alone: the handle of the latest creation that has succeeded,
until a call that takes it back succeeds. The backend keeps just that, and the slot of the latest
registration that has reached the driver, until the stream is taken down.
-/
import Mathlib.Data.List.Induction
import SharedAdc.Proofs.History
import SharedAdc.Proofs.Vendor.Ledger

namespace SharedAdc.Vendor

/-! ## Sequences of calls -/

/-- What can be done with a backend: a call is made, or the driver is to answer otherwise from now on. -/
inductive Act where
  | make (request : Request)
  | rescript (script : List ScriptEntry) (raws voltages : List Int32)

/-- A call that was made to a backend, with the fault that it has reported and the call of the driver
that it has come to. -/
structure MadeCall where
  request : Request
  fault? : Option HardwareFault
  served : Option ServiceCall

namespace MadeCall

/-- The call has created a handle. -/
def Opens (kind : HandleKind) (handle : Handle) (m : MadeCall) : Prop :=
  ∃ c, m.served = some c ∧ c.code = 0 ∧ c.service.creates? = some kind ∧ c.handle = handle

/-- The driver has taken a handle back with the call. -/
def Closes (kind : HandleKind) (m : MadeCall) : Prop :=
  ∃ c, m.served = some c ∧ c.code = 0 ∧ c.service.ends? = some kind

/-- The driver has taken this handle back with the call. -/
def TakesBack (kind : HandleKind) (handle : Handle) (m : MadeCall) : Prop :=
  ∃ c, m.served = some c ∧ c.code = 0 ∧ c.service.ends? = some kind ∧
    c.args.head? = some (handle : Int)

/-- The call has handed a slot to the driver, whatever the driver has answered. -/
def Registers (slot : SlotName) (m : MadeCall) : Prop :=
  m.request.call = .registerFrameSlot ∧ m.request.slot = slot ∧ ∃ c, m.served = some c

/-- A call that has not reached the driver has done none of this. -/
theorem quiet {m : MadeCall} (h : m.served = none) : (∀ kind handle, ¬ m.Opens kind handle) ∧
    (∀ kind, ¬ m.Closes kind) ∧ ∀ slot, ¬ m.Registers slot := by
  refine ⟨?_, ?_, ?_⟩
  · rintro kind handle ⟨c, hserved, -⟩
    cases h.symm.trans hserved
  · rintro kind ⟨c, hserved, -⟩
    cases h.symm.trans hserved
  · rintro slot ⟨-, -, c, hserved⟩
    cases h.symm.trans hserved

end MadeCall

/-- The handle is that of the latest creation that has succeeded, and the driver has not taken it back. -/
def IsLive (kind : HandleKind) (handle : Handle) (made : List MadeCall) : Prop :=
  IsLatest (MadeCall.Opens kind) (MadeCall.Closes kind) handle made

/-- The slot is that of the latest registration that has reached the driver, and the stream has not been
taken down since. -/
def IsHeld (slot : SlotName) (made : List MadeCall) : Prop :=
  IsLatest MadeCall.Registers (MadeCall.Closes .stream) slot made

/-- A call that does not succeed leaves what is live. -/
theorem IsLive.concat {kind : HandleKind} {handle : Handle} {made : List MadeCall} {m : MadeCall}
    {c : ServiceCall} (h : IsLive kind handle made) (hserved : m.served = some c)
    (hfails : c.code ≠ 0) : IsLive kind handle (made ++ [m]) := by
  refine isLatest_concat.2 (.inr ⟨⟨?_, ?_⟩, h⟩)
  · rintro ⟨c', hserved', hcode, -⟩
    obtain rfl := Option.some.inj (hserved.symm.trans hserved')
    exact hfails hcode
  · rintro _ ⟨c', hserved', hcode, -⟩
    obtain rfl := Option.some.inj (hserved.symm.trans hserved')
    exact hfails hcode

/-- Only calls that can fail take a handle. -/
theorem exists_op_of_takes {call : Call} {kind : HandleKind}
    (h : (serviceOf call).takes? = some kind) : ∃ op, call.op? = some op := by
  cases call <;> cases h <;> exact ⟨_, rfl⟩

namespace Backend

/-- What is told of a call. -/
def told (b : Backend) (r : Request) : MadeCall := ⟨r, b.fault? r, b.served r⟩

def act (b : Backend) : Act → Backend
  | .make r => b.after r
  | .rescript script raws voltages =>
    { b with driver := { b.driver with script, raws, voltages } }

def through (b : Backend) (acts : List Act) : Backend := acts.foldl act b

/-- The calls that are made in a sequence. -/
def made (b : Backend) : List Act → List MadeCall
  | [] => []
  | .make r :: acts => b.told r :: (b.after r).made acts
  | .rescript script raws voltages :: acts => (b.act (.rescript script raws voltages)).made acts

theorem through_concat (b : Backend) (acts : List Act) (act : Act) :
    b.through (acts ++ [act]) = (b.through acts).act act := by
  simp [through]

theorem made_make (b : Backend) (acts : List Act) (r : Request) :
    b.made (acts ++ [.make r]) = b.made acts ++ [(b.through acts).told r] := by
  induction acts generalizing b with
  | nil => rfl
  | cons act acts ih =>
    cases act with
    | make r' => exact congrArg (b.told r' :: ·) (ih (b.after r'))
    | rescript => exact ih _

theorem made_rescript (b : Backend) (acts : List Act) (script : List ScriptEntry)
    (raws voltages : List Int32) :
    b.made (acts ++ [.rescript script raws voltages]) = b.made acts := by
  induction acts generalizing b with
  | nil => rfl
  | cons act acts ih =>
    cases act with
    | make r => exact congrArg (b.told r :: ·) (ih (b.after r))
    | rescript => exact ih _

/-- The call at some place of a sequence was made to the backend that the acts before had led to. -/
theorem exists_told {b : Backend} {acts : List Act} {before later : List MadeCall} {m : MadeCall}
    (h : b.made acts = before ++ m :: later) :
    ∃ early r, b.made early = before ∧ m = (b.through early).told r := by
  induction acts using List.reverseRecOn generalizing later with
  | nil => simp [made] at h
  | append_singleton acts act ih =>
    cases act with
    | make r =>
      rw [made_make] at h
      rcases concat_eq_append_cons h with ⟨hbefore, rfl, -⟩ | ⟨later', -, hsplit⟩
      · exact ⟨acts, r, hbefore, rfl⟩
      · exact ih hsplit
    | rescript script raws voltages =>
      rw [made_rescript] at h
      exact ih h

/-! ## What one call changes -/

variable {b : Backend} {r : Request} {kind : HandleKind}

theorem served_of_unserved (hneeds : (serviceOf r.call).takes? = some kind)
    (hlacks : b.handle kind = none) : b.served r = none := by
  have hafter : b.after r = b := congrArg (·.2.2) (make_unserved hneeds hlacks)
  unfold served
  rw [hafter, Driver.callBetween_self]

/-- A call needs a handle that is not there, or reaches the driver. -/
theorem unserved_or_serves (b : Backend) (r : Request) :
    (∃ kind, (serviceOf r.call).takes? = some kind ∧ b.handle kind = none ∧ b.after r = b ∧
      b.served r = none) ∨ ∃ c, b.Serves r c := by
  by_cases hlacks : ∃ kind, (serviceOf r.call).takes? = some kind ∧ b.handle kind = none
  · obtain ⟨kind, hneeds, hnone⟩ := hlacks
    exact .inl ⟨kind, hneeds, hnone, congrArg (·.2.2) (make_unserved hneeds hnone),
      served_of_unserved hneeds hnone⟩
  · exact .inr (serves fun kind hneeds hnone => hlacks ⟨kind, hneeds, hnone⟩)

/-- A call that has reached the driver had the handle that it needs. -/
theorem serves_of_served {c : ServiceCall} (h : b.served r = some c) :
    b.Serves r c ∧ ∀ kind, (serviceOf r.call).takes? = some kind →
      ∃ handle, b.handle kind = some handle := by
  rcases b.unserved_or_serves r with ⟨-, -, -, -, hserved⟩ | ⟨c', hc⟩
  · cases h.symm.trans hserved
  · obtain rfl := Option.some.inj (h.symm.trans hc.served)
    refine ⟨hc, fun kind hneeds => Option.ne_none_iff_exists'.1 fun hlacks => ?_⟩
    cases h.symm.trans (served_of_unserved hneeds hlacks)

theorem handle_after (handle : Handle) : (b.after r).handle kind = some handle ↔
    (b.told r).Opens kind handle ∨
      (¬ (b.told r).Closes kind ∧ ∀ handle', ¬ (b.told r).Opens kind handle') ∧
        b.handle kind = some handle := by
  rcases b.unserved_or_serves r with ⟨-, -, -, hafter, hserved⟩ | ⟨c, hc⟩
  · obtain ⟨hopens, hcloses, -⟩ := MadeCall.quiet (m := b.told r) hserved
    exact latest_kept_iff (fun handle' h => absurd h (hopens kind handle'))
      (fun h => absurd h (hcloses kind)) fun _ _ => by rw [hafter]
  · have hsame : ∀ {c'}, (b.told r).served = some c' → c' = c := fun h =>
      (Option.some.inj (hc.served.symm.trans h)).symm
    have hhandle := hc.handle kind
    refine latest_kept_iff ?_ ?_ ?_
    · rintro handle' ⟨c', hserved, hcode, hcreates, rfl⟩
      obtain rfl := hsame hserved
      rw [hhandle, if_pos ⟨hcode, hcreates⟩]
    · rintro ⟨c', hserved, hcode, hends⟩ hnone
      obtain rfl := hsame hserved
      rw [hhandle, if_neg fun h => hnone _ ⟨c', hserved, h.1, h.2, rfl⟩, if_pos ⟨hcode, hends⟩]
    · intro hquiet hnone
      rw [hhandle, if_neg fun h => hnone _ ⟨c, hc.served, h.1, h.2, rfl⟩,
        if_neg fun h => hquiet ⟨c, hc.served, h⟩]

theorem slot_after (slot : SlotName) : (b.after r).slot = some slot ↔
    (b.told r).Registers slot ∨
      (¬ (b.told r).Closes .stream ∧ ∀ slot', ¬ (b.told r).Registers slot') ∧
        b.slot = some slot := by
  rcases b.unserved_or_serves r with ⟨-, -, -, hafter, hserved⟩ | ⟨c, hc⟩
  · obtain ⟨-, hcloses, hregisters⟩ := MadeCall.quiet (m := b.told r) hserved
    exact latest_kept_iff (fun slot' h => absurd h (hregisters slot'))
      (fun h => absurd h (hcloses .stream)) fun _ _ => by rw [hafter]
  · have hslot := hc.slot
    have hother : (∀ slot', ¬ (b.told r).Registers slot') → r.call ≠ .registerFrameSlot :=
      fun hnone hregisters => hnone r.slot ⟨hregisters, rfl, c, hc.served⟩
    refine latest_kept_iff ?_ ?_ ?_
    · rintro slot' ⟨hregisters, hsame, -⟩
      have hregisters : r.call = .registerFrameSlot := hregisters
      have hsame : r.slot = slot' := hsame
      rw [hslot, if_pos hregisters, hsame]
    · rintro ⟨c', hserved, hcode, hends⟩ hnone
      obtain rfl := Option.some.inj (hc.served.symm.trans hserved)
      rw [hslot, if_neg (hother hnone), if_pos ⟨hcode, hends⟩]
    · intro hquiet hnone
      rw [hslot, if_neg (hother hnone), if_neg fun h => hquiet ⟨c, hc.served, h⟩]

theorem trace_after (b : Backend) (r : Request) : (b.after r).driver.trace.toList =
    b.driver.trace.toList ++ (b.told r).served.toList.map ServiceCall.entry := by
  rcases b.unserved_or_serves r with ⟨-, -, -, hafter, hserved⟩ | ⟨c, hc⟩
  · have hnone : (b.told r).served = none := hserved
    rw [hafter, hnone]
    simp
  · have hsome : (b.told r).served = some c := hc.served
    rw [hc.trace, hsome]
    simp

/-! ## What a backend keeps -/

/-- What a backend keeps that was new before the calls, by what is told of them. A new handle lies above
all that were given out, so one that was taken back is never kept again. -/
structure Keeps (b : Backend) (made : List MadeCall) : Prop where
  handle : ∀ kind handle, b.handle kind = some handle ↔ IsLive kind handle made
  slot : ∀ slot, b.slot = some slot ↔ IsHeld slot made
  given : ∀ kind handle, b.handle kind = some handle → handle ≤ b.driver.handles
  gone : ∀ kind handle, ∀ m ∈ made, m.TakesBack kind handle →
    handle ≤ b.driver.handles ∧ b.handle kind ≠ some handle

section

variable {made : List MadeCall} {handle : Handle} {c : ServiceCall}

theorem Keeps.given_after (h : b.Keeps made) (hkept : (b.after r).handle kind = some handle) :
    handle ≤ (b.after r).driver.handles := by
  rcases b.unserved_or_serves r with ⟨-, -, -, hafter, -⟩ | ⟨c, hc⟩
  · rw [hafter] at hkept ⊢
    exact h.given kind handle hkept
  · rw [hc.handle] at hkept
    split_ifs at hkept with hcreated
    · obtain rfl := Option.some.inj hkept
      exact hc.handles.2.ge
    · exact (h.given kind handle hkept).trans hc.handles.1

/-- What was taken back before a call stays gone, whatever the call creates. -/
theorem Keeps.gone_after (h : b.Keeps made) {m : MadeCall} (hmem : m ∈ made)
    (hback : m.TakesBack kind handle) :
    handle ≤ (b.after r).driver.handles ∧ (b.after r).handle kind ≠ some handle := by
  obtain ⟨hbound, hgone⟩ := h.gone kind handle m hmem hback
  rcases b.unserved_or_serves r with ⟨-, -, -, hafter, -⟩ | ⟨c, hc⟩
  · rw [hafter]
    exact ⟨hbound, hgone⟩
  · refine ⟨hbound.trans hc.handles.1, fun hkept => ?_⟩
    rw [hc.handle] at hkept
    split_ifs at hkept with hcreated
    · obtain rfl := Option.some.inj hkept
      exact absurd (hc.fresh kind hcreated.1 hcreated.2) hbound.not_gt
    · exact hgone hkept

/-- What a call takes back is gone after it. -/
theorem Keeps.gone_told (h : b.Keeps made) (hback : (b.told r).TakesBack kind handle) :
    handle ≤ (b.after r).driver.handles ∧ (b.after r).handle kind ≠ some handle := by
  obtain ⟨c, hserved, hcode, hends, hhead⟩ := hback
  obtain ⟨hc, hkept⟩ := serves_of_served hserved
  have htakes := Service.takes_of_ends hends
  obtain ⟨kept, hkept⟩ := hkept kind (hc.service ▸ htakes)
  have hsame : kept = handle :=
    Int.ofNat.inj (Option.some.inj ((hc.takes kind kept htakes hkept).symm.trans hhead))
  subst hsame
  refine ⟨(h.given kind kept hkept).trans hc.handles.1, ?_⟩
  rw [hc.handle, Service.creates_of_ends hends, if_neg (by simp), if_pos ⟨hcode, hends⟩]
  nofun

theorem Keeps.after (h : b.Keeps made) (r : Request) :
    (b.after r).Keeps (made ++ [b.told r]) where
  handle kind handle := by
    unfold IsLive
    rw [handle_after, isLatest_concat, h.handle]
    rfl
  slot slot := by
    unfold IsHeld
    rw [slot_after, isLatest_concat, h.slot]
    rfl
  given _ _ := h.given_after
  gone kind handle m hmem hback := by
    rcases List.mem_append.1 hmem with hearlier | hlast
    · exact h.gone_after hearlier hback
    · obtain rfl := List.mem_singleton.1 hlast
      exact h.gone_told hback

/-- What is kept and was given out does not depend on the answers to come. -/
theorem Keeps.rescript (h : b.Keeps made) (script : List ScriptEntry) (raws voltages : List Int32) :
    (b.act (.rescript script raws voltages)).Keeps made := by
  have hsame : ∀ kind, (b.act (.rescript script raws voltages)).handle kind = b.handle kind := by
    rintro (_ | _) <;> rfl
  constructor
  case handle =>
    intro kind handle
    rw [hsame, h.handle]
  case slot => exact h.slot
  case given => exact fun kind handle hkept => h.given kind handle (hsame kind ▸ hkept)
  case gone =>
    intro kind handle m hmem hback
    rw [hsame]
    exact h.gone kind handle m hmem hback

theorem keeps_nil (driver : Driver) : ({ driver } : Backend).Keeps [] := by
  have hnone : ∀ kind, ({ driver } : Backend).handle kind = none := by
    rintro (_ | _) <;> rfl
  constructor
  case handle => exact fun kind handle => by simp [hnone, IsLive, not_isLatest_nil]
  case slot => exact fun slot => by simp [IsHeld, not_isLatest_nil]
  case given => exact fun kind handle hkept => nomatch (hnone kind).symm.trans hkept
  case gone => exact fun kind handle m hmem => nomatch hmem

theorem keeps_through (driver : Driver) (acts : List Act) :
    (({ driver } : Backend).through acts).Keeps (({ driver } : Backend).made acts) := by
  induction acts using List.reverseRecOn with
  | nil => exact keeps_nil driver
  | append_singleton acts act ih =>
    rw [through_concat]
    cases act with
    | make r =>
      rw [made_make]
      exact ih.after r
    | rescript script raws voltages =>
      rw [made_rescript]
      exact ih.rescript script raws voltages

/-- A call of the driver that takes a handle takes the live one, which was not taken back before. -/
theorem Keeps.takes_live (h : b.Keeps made) (hserved : (b.told r).served = some c)
    (htakes : c.service.takes? = some kind) :
    ∃ handle : Handle, IsLive kind handle made ∧ (∀ m ∈ made, ¬ m.TakesBack kind handle) ∧
      c.args.head? = some (handle : Int) := by
  obtain ⟨hc, hkept⟩ := serves_of_served hserved
  obtain ⟨handle, hhandle⟩ := hkept kind (hc.service ▸ htakes)
  exact ⟨handle, (h.handle kind handle).1 hhandle,
    fun m hmem hback => (h.gone kind handle m hmem hback).2 hhandle,
    hc.takes kind handle htakes hhandle⟩

/-- A call whose handle is not live does not reach the driver. -/
theorem Keeps.unserved (h : b.Keeps made) (hneeds : (serviceOf r.call).takes? = some kind)
    (hnone : ∀ handle, ¬ IsLive kind handle made) :
    (b.told r).served = none ∧ ∃ op, r.call.op? = some op ∧
      (b.told r).fault? = some ⟨op, HardwareFault.invalidState⟩ := by
  have hlacks : b.handle kind = none := Option.eq_none_iff_forall_ne_some.2 fun handle hkept =>
    hnone handle ((h.handle kind handle).1 hkept)
  obtain ⟨op, hop⟩ := exists_op_of_takes hneeds
  refine ⟨served_of_unserved hneeds hlacks, op, hop, ?_⟩
  show AnsweredCall.fault? ⟨r.call, (b.make r).1⟩ = _
  rw [make_unserved hneeds hlacks, AnsweredCall.fault?_fail, hop]
  rfl

/-- A call whose handle is live reaches the driver with it. -/
theorem Keeps.served_live (h : b.Keeps made) (hneeds : (serviceOf r.call).takes? = some kind)
    (hlive : IsLive kind handle made) :
    ∃ c, (b.told r).served = some c ∧ c.service = serviceOf r.call ∧
      c.args.head? = some (handle : Int) := by
  have hhandle : b.handle kind = some handle := (h.handle kind handle).2 hlive
  rcases b.unserved_or_serves r with ⟨kind', hneeds', hlacks, -⟩ | ⟨c, hc⟩
  · obtain rfl := Option.some.inj (hneeds.symm.trans hneeds')
    cases hhandle.symm.trans hlacks
  · exact ⟨c, hc.served, hc.service, hc.takes kind handle (hc.service ▸ hneeds) hhandle⟩

end

theorem trace_through (b : Backend) (acts : List Act) :
    (b.through acts).driver.trace.toList =
      b.driver.trace.toList ++ ((b.made acts).filterMap MadeCall.served).map ServiceCall.entry := by
  induction acts using List.reverseRecOn with
  | nil => simp [through, made]
  | append_singleton acts act ih =>
    rw [through_concat]
    cases act with
    | make r =>
      rw [made_make, List.filterMap_append, List.map_append, ← List.append_assoc, ← ih]
      refine (trace_after _ r).trans ?_
      cases hserved : ((b.through acts).told r).served <;> simp [hserved]
    | rescript script raws voltages =>
      rw [made_rescript]
      exact ih

/-! ## The discipline -/

/-- What is asked of a call after the calls before it. -/
structure Disciplined (before : List MadeCall) (m : MadeCall) : Prop where
  /-- A call of the driver that takes the handle of the unit or of the stream is made with the live one,
  and the driver has taken this one back with no call before. -/
  takes : ∀ c kind, m.served = some c → c.service.takes? = some kind →
    ∃ handle : Handle, IsLive kind handle before ∧ (∀ m' ∈ before, ¬ m'.TakesBack kind handle) ∧
      c.args.head? = some (handle : Int)
  /-- A call that needs a handle while none is live does not reach the driver, and reports the invalid
  state under its own operation. -/
  unserved : ∀ kind, (serviceOf m.request.call).takes? = some kind →
    (∀ handle, ¬ IsLive kind handle before) → m.served = none ∧
      ∃ op, m.request.call.op? = some op ∧ m.fault? = some ⟨op, HardwareFault.invalidState⟩
  /-- While one is live, it reaches the driver with it. -/
  served : ∀ kind handle, (serviceOf m.request.call).takes? = some kind →
    IsLive kind handle before → ∃ c, m.served = some c ∧ c.service = serviceOf m.request.call ∧
      c.args.head? = some (handle : Int)
  /-- What the driver answers is what the call reports. -/
  fault : ∀ c, m.served = some c → m.fault? =
    if c.code = 0 then none else m.request.call.op?.map fun op => ⟨op, c.code⟩
  /-- A handle that the driver has failed to take back, or to do anything else with, stays live. -/
  fails : ∀ c kind handle, m.served = some c → c.code ≠ 0 → IsLive kind handle before →
    IsLive kind handle (before ++ [m])

theorem Keeps.disciplined {made : List MadeCall} (h : b.Keeps made) (r : Request) :
    Disciplined made (b.told r) where
  takes _ _ := h.takes_live
  unserved _ := h.unserved
  served _ _ := h.served_live
  fault _ hserved := (serves_of_served hserved).1.fault
  fails _ _ _ hserved hcode hlive := hlive.concat hserved hcode

/-- The discipline of handles, over every sequence of calls to a new backend and whatever the driver is
made to answer: every call keeps to it, the backend keeps the slot of the latest registration that has
reached the driver until the stream is taken down, and the trace of the driver has the calls that are
told of and no others. -/
theorem handles_disciplined (driver : Driver) (acts : List Act) :
    let b : Backend := { driver }
    (∀ before later m, b.made acts = before ++ m :: later → Disciplined before m) ∧
    (∀ slot, (b.through acts).slot = some slot ↔ IsHeld slot (b.made acts)) ∧
    (b.through acts).driver.trace.toList =
      driver.trace.toList ++ ((b.made acts).filterMap MadeCall.served).map ServiceCall.entry := by
  intro b
  refine ⟨fun before later m hsplit => ?_, (keeps_through driver acts).slot, trace_through b acts⟩
  obtain ⟨early, r, rfl, rfl⟩ := exists_told hsplit
  exact (keeps_through driver early).disciplined r

/-- A driver that fails to take a unit back the first time. -/
def reluctant : Driver := { script := [⟨.deleteUnit, 1, 0x101⟩] }

/-- A unit is created, taken back at the second attempt, and read from after that. -/
def retried : List Act :=
  [.make ⟨.createOneShotUnit, .controller⟩, .make ⟨.deleteOneShotUnit, .controller⟩,
    .make ⟨.deleteOneShotUnit, .controller⟩, .make ⟨.readOneShot 4, .controller⟩]

/-- The second attempt is made with the handle that the first was made with, and the read does not reach
the driver. -/
theorem handles_disciplined_retried :
    ∃ created failed deleted read : MadeCall,
      ({ driver := reluctant } : Backend).made retried = [created, failed, deleted, read] ∧
      failed.fault? = some ⟨.deleteOneShotUnit, 0x101⟩ ∧
      deleted.served = some ⟨.deleteUnit, [1], 0, 1⟩ ∧ deleted.fault? = none ∧
      Disciplined [created, failed] deleted ∧
      read.served = none ∧ read.fault? = some ⟨.readOneShot, HardwareFault.invalidState⟩ ∧
      Disciplined [created, failed, deleted] read := by
  have hdisciplined := (handles_disciplined reluctant retried).1
  exact ⟨_, _, _, _, rfl, rfl, rfl, rfl, hdisciplined [_, _] [_] _ rfl, rfl, rfl,
    hdisciplined [_, _, _] [] _ rfl⟩

end Backend

end SharedAdc.Vendor
