/-
Calibrations by their accounts. A scope opens one context, converts its codes in turn, each for itself,
and deletes the context; what it results in says which calls it has made.
-/
import SharedAdc.Proofs.Accounts.OneShot

namespace SharedAdc.Controller

variable {κ φ : Type} {config : Config} {command : Command φ} {a : Account κ φ} {channel : Channel}
variable {range : Range} {raws samples : List UInt16} {calls : List (AnsweredCall κ)}
variable {replies : List (Except HardwareFault UInt16)}

/-! ## Scopes -/

/-- The conversions of codes in a context, with the replies to them. -/
def conversions (context : κ) (raws : List UInt16) (replies : List (Except HardwareFault UInt16)) :
    List (AnsweredCall κ) :=
  List.zipWith (fun raw reply => ⟨.applyCalibration context raw, reply⟩) raws replies

/-- The calls of a scope, by what it results in: the creation that failed, or a creation, one conversion
for each code in the order of the codes, and a deletion. -/
inductive ScopeCalls (channel : Channel) (range : Range) (raws : List UInt16) :
    Except HardwareFault (List (Except HardwareFault UInt16)) → List (AnsweredCall κ) → Prop where
  | closed (fault : HardwareFault) :
    ScopeCalls channel range raws (.error fault) [⟨.createCalibration channel range, .error fault⟩]
  | opened (context : κ) (replies : List (Except HardwareFault UInt16))
    (hlength : replies.length = raws.length) :
    ScopeCalls channel range raws (.ok replies)
      (⟨.createCalibration channel range, .ok context⟩ ::
        (conversions context raws replies ++ [⟨.deleteCalibration context, ()⟩]))

/-- The first failure of a conversion, or of opening its context. -/
def conversionFault : Except HardwareFault (List (Except HardwareFault UInt16)) →
    Option HardwareFault
  | .error fault => some fault
  | .ok replies => replies.findSome? errorOf

theorem firstFault_eq (replies : List (Except HardwareFault UInt16)) :
    firstFault replies = replies.findSome? errorOf := by
  induction replies with
  | nil => rfl
  | cons reply replies ih =>
    cases reply with
    | error fault => rfl
    | ok mv => exact ih

theorem firstFault?_conversions {context : κ} (hlength : replies.length = raws.length) :
    AnsweredCall.firstFault? (conversions context raws replies) = replies.findSome? errorOf := by
  induction raws generalizing replies with
  | nil =>
    obtain rfl := List.eq_nil_of_length_eq_zero hlength
    rfl
  | cons raw raws ih =>
    obtain ⟨reply, replies, rfl⟩ := List.exists_cons_of_length_eq_add_one hlength
    have hrest := ih (Nat.succ.inj hlength)
    cases reply with
    | error fault => rfl
    | ok mv => exact hrest

theorem ScopeCalls.length_eq (h : ScopeCalls channel range raws (.ok replies) calls) :
    replies.length = raws.length := by
  cases h with
  | opened context replies hlength => exact hlength

/-- A scope reports the first failure among its calls. -/
theorem ScopeCalls.firstFault?_eq
    {result : Except HardwareFault (List (Except HardwareFault UInt16))}
    (h : ScopeCalls channel range raws result calls) :
    AnsweredCall.firstFault? calls = conversionFault result := by
  cases h with
  | closed fault => rfl
  | opened context replies hlength =>
    show AnsweredCall.firstFault? (conversions context raws replies ++ _) = _
    rw [firstFault?_append, firstFault?_conversions hlength]
    exact Option.or_none

theorem convertEach_account (context : κ) (raws : List UInt16) :
    (convertEach context raws : Operation κ φ _).Obeys (accounting command) a
      fun replies a' => replies.length = raws.length ∧
        a' = { a with calls := a.calls ++ conversions context raws replies } := by
  induction raws generalizing a with
  | nil => exact ⟨rfl, by rw [conversions, List.zipWith_nil_left, List.append_nil]⟩
  | cons raw raws ih =>
    unfold convertEach
    simp only [Program.bind_eq, Program.obeys_bind]
    rw [Account.obeys_hardware]
    intro reply
    refine ih.mono ?_
    rintro replies _ ⟨hlength, rfl⟩
    refine ⟨congrArg (· + 1) hlength, ?_⟩
    simp only [List.append_assoc]
    rfl

theorem convertInScope_account (channel : Channel) (range : Range) (raws : List UInt16) :
    (convertInScope channel range raws : Operation κ φ _).Obeys (accounting command) {}
      fun result a => a.quiet = true ∧ ScopeCalls channel range raws result a.calls := by
  unfold convertInScope withCalibration
  simp only [Program.bind_eq, Program.obeys_bind]
  rw [Account.obeys_hardware]
  rintro (fault | context)
  · exact ⟨rfl, .closed fault⟩
  · simp only [Program.obeys_bind]
    refine (convertEach_account context raws).mono ?_
    rintro replies _ ⟨hlength, rfl⟩
    rw [Account.obeys_hardware]
    exact fun deleted => ⟨rfl, .opened context replies hlength⟩

/-! ## Buffers -/

/-- A code after its conversion: the converted value, or the code itself if that failed. -/
def codeAfter (raw : UInt16) (reply : Except HardwareFault UInt16) : UInt16 :=
  reply.toOption.getD raw

theorem converted_eq (hlength : replies.length = samples.length) :
    converted samples replies = List.zipWith codeAfter samples replies := by
  induction samples generalizing replies with
  | nil =>
    obtain rfl := List.eq_nil_of_length_eq_zero hlength
    rfl
  | cons raw samples ih =>
    obtain ⟨reply, replies, rfl⟩ := List.exists_cons_of_length_eq_add_one hlength
    have hrest := ih (Nat.succ.inj hlength)
    cases reply <;> exact congrArg (List.cons _) hrest

/-- What a calibration of a buffer reports and makes of the buffer, and the calls that it makes. -/
inductive Calibrated (channel : Channel) (range : Range) :
    List UInt16 → Except AdcError Unit → List UInt16 → List (AnsweredCall κ) → Prop where
  | empty : Calibrated channel range [] (.error (.invalidArgument .emptyBuffer)) [] []
  | closed {samples : List UInt16} {fault : HardwareFault} {calls : List (AnsweredCall κ)}
    (hbuffer : samples ≠ []) (hcalls : ScopeCalls channel range samples (.error fault) calls) :
    Calibrated channel range samples (.error (.hardware fault)) samples calls
  | opened {samples : List UInt16} {replies : List (Except HardwareFault UInt16)}
    {calls : List (AnsweredCall κ)} (hbuffer : samples ≠ [])
    (hcalls : ScopeCalls channel range samples (.ok replies) calls) :
    Calibrated channel range samples
      (match replies.findSome? errorOf with
        | some fault => .error (.hardware fault)
        | none => .ok ())
      (List.zipWith codeAfter samples replies) calls

theorem calibrate_account (channel : Channel) (attenuation : Attenuation) (samples : List UInt16) :
    (calibrate config channel attenuation samples : Operation κ φ _).Obeys (accounting command) {}
      fun r a => a.quiet = true ∧
        Calibrated channel ⟨attenuation, config.width⟩ samples r.1 r.2 a.calls := by
  unfold calibrate
  split
  · rename_i hempty
    obtain rfl := List.isEmpty_iff.1 hempty
    exact ⟨rfl, .empty⟩
  · rename_i hbuffer
    have hne : samples ≠ [] := fun h => hbuffer (List.isEmpty_iff.2 h)
    simp only [Program.bind_eq, Program.obeys_bind]
    refine (convertInScope_account _ _ _).mono ?_
    rintro (fault | replies) a ⟨hquiet, hcalls⟩
    · exact ⟨hquiet, .closed hne hcalls⟩
    · have hopened := Calibrated.opened hne hcalls
      rw [← converted_eq (hcalls.length_eq), ← firstFault_eq] at hopened
      dsimp only
      split
      · rename_i fault hfirst
        rw [hfirst] at hopened
        exact ⟨hquiet, hopened⟩
      · rename_i hfirst
        rw [hfirst] at hopened
        exact ⟨hquiet, hopened⟩

/-- How a calibration ends; a buffer that is turned down comes back as it was. -/
def CalibrationEnding (samples : List UInt16) (r : Except AdcError Unit × List UInt16)
    (a : Account κ φ) : Prop :=
  EndsAside (errorOf r.1) a ∧
    ∀ e, r.1 = .error e → e.isRejection = true → r.2 = samples

theorem Calibrated.ending {r : Except AdcError Unit × List UInt16}
    (h : Calibrated channel range samples r.1 r.2 a.calls)
    (hquiet : a.quiet = true) : CalibrationEnding samples r a := by
  obtain ⟨result, after⟩ := r
  generalize hmade : a.calls = calls at h
  cases h with
  | empty => exact ⟨.rejected _ hquiet hmade (by simp [errorOf]), fun _ _ _ => rfl⟩
  | closed hbuffer hcalls =>
    have hfault : a.fault? = _ := (congrArg AnsweredCall.firstFault? hmade).trans hcalls.firstFault?_eq
    refine ⟨.of_fault hquiet hfault, fun e h hrejection => ?_⟩
    cases h
    cases hrejection
  | @opened _ replies _ hbuffer hcalls =>
    have hfault : a.fault? = replies.findSome? errorOf :=
      (congrArg AnsweredCall.firstFault? hmade).trans hcalls.firstFault?_eq
    have haside := EndsAside.of_fault hquiet hfault
    generalize replies.findSome? errorOf = first at haside
    cases first with
    | none => exact ⟨haside, by rintro _ ⟨⟩⟩
    | some fault =>
      refine ⟨haside, fun e h hrejection => ?_⟩
      cases h
      cases hrejection

theorem calibrate_ending (channel : Channel) (attenuation : Attenuation) (samples : List UInt16) :
    (calibrate config channel attenuation samples : Operation κ φ _).Obeys (accounting command) {}
      (CalibrationEnding samples) :=
  (calibrate_account channel attenuation samples).mono fun _ _ ⟨hquiet, h⟩ => h.ending hquiet

theorem calibrateIndex_ending (index : Nat) (attenuation : Attenuation) (samples : List UInt16) :
    (calibrateIndex config index attenuation samples : Operation κ φ _).Obeys (accounting command)
      {} (CalibrationEnding samples) := by
  unfold calibrateIndex
  split
  · exact ⟨.rejected _ rfl rfl (by simp [errorOf]), fun _ _ _ => rfl⟩
  · exact calibrate_ending _ _ _

end SharedAdc.Controller
