/-
Submitting a request and calling the operation that serves it. A submission checks the request by itself
before the operation checks it again, and says that it was submitted; nothing else is different, alone as
in the company of other callers. Two worlds in which the same happens, but for what one caller has asked
for, are kept side by side to tell this.
-/
import Mathlib.Data.List.Basic
import SharedAdc.Proofs.Callers.Closing

namespace SharedAdc

/-! ## The call behind a submission -/

namespace SamplingRequest

variable {φ : Type}

/-- The call that serves the request without a submission. -/
def direct : SamplingRequest φ → Controller.Command φ
  | .oneShot r => .sampleOnce r.channel r.attenuation r.count
  | .continuous r => .startContinuous r

/-- Everything that is checked before a request is served: its fields, and for a stream the size of its
frames as well. -/
def validate (config : Config) : SamplingRequest φ → Except AdcError Unit
  | .oneShot r => r.check
  | .continuous r => do
    r.check config
    let _ ← r.frameBytes config

end SamplingRequest

namespace Controller

variable {κ φ : Type} {machine : Machine κ}

/-- The result of a submission whose call has this result. -/
def Result.asOutcome : Result → Result
  | .done result => .outcome (result.map fun () => .streaming)
  | .value result => .outcome (result.map .sample)
  | result => result

/-- The error of a result, if it is one of a call that serves requests. -/
def Result.Fails (result : Result) (e : AdcError) : Prop :=
  result = .done (.error e) ∨ result = .value (.error e)

theorem Result.Fails.asOutcome {result : Result} {e : AdcError} (h : result.Fails e) :
    result.asOutcome = .outcome (.error e) := by
  rcases h with rfl | rfl <;> rfl

section

variable {config : Config} {request : SamplingRequest φ}

/-- A request that passes the check is announced, and then served by its call. -/
theorem submit_of_check (h : request.check config = .ok ()) :
    ((Command.submit request).operation config : Operation κ φ Result) =
      (note (.submitted request.mask request.attenuation)).bind fun () =>
        (request.direct.operation config).bind fun result => .done result.asOutcome := by
  simp only [Command.operation, startSampling, h]
  cases request <;> simp only [SamplingRequest.direct, Program.bind_eq, Program.pure_eq,
    Program.bind_assoc, Program.bind_done, Result.asOutcome]

/-- A request that does not pass it is turned down by either call before anything is asked. -/
theorem submit_of_check_error {e : AdcError} (h : request.check config = .error e) :
    ((Command.submit request).operation config : Operation κ φ Result) =
        .done (.outcome (.error e)) ∧
      ∃ result : Result, result.Fails e ∧
        (request.direct.operation config : Operation κ φ Result) = .done result := by
  refine ⟨by simp only [Command.operation, startSampling, h]; rfl, ?_⟩
  cases request with
  | oneShot r =>
    have hcheck : checkCount r.count = .error e := h
    refine ⟨_, .inr rfl, ?_⟩
    simp only [SamplingRequest.direct, Command.operation, sampleOnce, hcheck]
    rfl
  | continuous r =>
    have hcheck : r.check config = .error e := h
    refine ⟨_, .inl rfl, ?_⟩
    simp only [SamplingRequest.direct, Command.operation, startContinuous, hcheck]
    rfl

end

/-! ## Alone on the controller -/

section

variable {config : Config} {request : SamplingRequest φ}

/-- Whatever is found and whatever the hardware replies, a submission makes the calls of the direct call,
has its result and leaves its state behind. -/
theorem after_submit (traffic : Traffic machine) (s : Site machine φ) (config : Config)
    (request : SamplingRequest φ) :
    s.after traffic ((Command.submit request).operation config) =
      ((s.after traffic (request.direct.operation config)).1.asOutcome,
        (s.after traffic (request.direct.operation config)).2) := by
  cases hcheck : request.check config with
  | ok =>
    rw [submit_of_check hcheck]
    simp only [Site.after_bind, Site.after_note, Site.after_done]
  | error e =>
    obtain ⟨hsubmit, result, hfails, hdirect⟩ := submit_of_check_error (κ := κ) hcheck
    rw [hsubmit, hdirect, Site.after_done, Site.after_done, hfails.asOutcome]

/-- A request that is not valid is turned down by its call, and nothing is touched. -/
theorem after_direct_of_invalid {e : AdcError} (h : request.validate config = .error e)
    (traffic : Traffic machine) (s : Site machine φ) :
    ∃ result : Result, result.Fails e ∧
      s.after traffic (request.direct.operation config) = (result, s) := by
  cases hcheck : request.check config with
  | error e' =>
    obtain ⟨-, result, hfails, hdirect⟩ := submit_of_check_error (κ := κ) hcheck
    have hsame : e' = e := by
      cases request with
      | oneShot r => exact Except.error.inj (hcheck.symm.trans h)
      | continuous r =>
        have hfields : r.check config = .error e' := hcheck
        rw [SamplingRequest.validate, hfields] at h
        exact Except.error.inj h
    exact ⟨result, hsame ▸ hfails, by rw [hdirect, Site.after_done]⟩
  | ok =>
    cases request with
    | oneShot r => cases hcheck.symm.trans h
    | continuous r =>
      have hfields : r.check config = .ok () := hcheck
      have hsize : r.frameBytes config = .error e := by
        rw [SamplingRequest.validate, hfields] at h
        cases hbytes : r.frameBytes config with
        | ok => rw [hbytes] at h; cases h
        | error => rw [hbytes] at h; cases h; rfl
      refine ⟨_, .inl rfl, ?_⟩
      simp only [SamplingRequest.direct, Command.operation, startContinuous, hfields, hsize]
      rfl

end

/-! ## In the company of others -/

/-- What a caller has to do who has submitted the request, where the direct call has the rest `c.rest`. -/
def Caller.submitting (request : SamplingRequest φ) (c : Caller κ φ) : Caller κ φ :=
  ⟨.submit request, c.rest.bind fun result => .done result.asOutcome⟩

namespace World

/-- Two worlds in which the same has happened, but for caller `i`: where the other world has a caller `c`,
there is `view c` here, who has `said` something more at one point of the history. -/
structure Beside (i : Nat) (view : Caller κ φ → Caller κ φ) (said : List (Exchange κ φ))
    (v w : World machine φ) : Prop where
  known : i < w.callers.length
  shared : v.shared = w.shared
  memory : v.memory = w.memory
  callers : v.callers = w.callers.modify i view
  history : ∃ before later, w.history = before ++ later ∧ v.history = before ++ said ++ later

section

variable {config : Config} {i j : Nat} {view : Caller κ φ → Caller κ φ}
  {said : List (Exchange κ φ)} {v w : World machine φ} {command command' : Command φ}
  {q : Question κ φ} {next next' : Answer q → Operation κ φ Result}

theorem Beside.answer (h : Beside i view said v w) (q : Question κ φ) : v.answer q = w.answer q := by
  unfold World.answer
  rw [h.shared, h.memory]

theorem Beside.answered (h : Beside i view said v w)
    (hcallers : ∀ r, v.callers.set j ⟨command', next' r⟩ =
      (w.callers.set j ⟨command, next r⟩).modify i view) :
    Beside i view said (v.answered j command' q next') (w.answered j command q next) := by
  obtain ⟨before, later, hw, hv⟩ := h.history
  have hanswer := h.answer q
  refine ⟨?_, ?_, ?_, ?_, before, later ++ [⟨j, q, (w.answer q).1⟩], ?_, ?_⟩
  · simpa only [World.answered, List.length_set] using h.known
  · simp only [World.answered, hanswer]
  · simp only [World.answered, hanswer]
  · simp only [World.answered, hanswer, hcallers]
  · simp only [World.answered, hw, List.append_assoc]
  · simp only [World.answered, hanswer, hv, List.append_assoc]

/-- The others go on in both worlds alike. -/
theorem Beside.advance_other (h : Beside i view said v w) (hj : j ≠ i) :
    Beside i view said (v.advance j) (w.advance j) := by
  have hsame : v.callers[j]? = w.callers[j]? := by
    rw [h.callers, List.getElem?_modify_ne _ _ hj.symm]
  unfold advance
  rw [hsame, h.shared]
  split
  · split
    · exact h
    · refine h.answered fun r => ?_
      rw [h.callers]
      exact List.ext_getElem? fun k => by grind
  · exact h

theorem Beside.call (h : Beside i view said v w) (command : Command φ) :
    Beside i view said (v.step config (.call command)) (w.step config (.call command)) := by
  refine ⟨?_, h.shared, h.memory, ?_, h.history⟩
  · simpa [step] using Nat.lt_succ_of_lt h.known
  · simp only [step, h.callers]
    exact List.ext_getElem? fun k => by grind [h.known]

/-- What is not up to caller `i` happens in both worlds alike. -/
theorem Beside.step_other (h : Beside i view said v w) {act : Action machine φ}
    (hact : act ≠ .advance i) : Beside i view said (v.step config act) (w.step config act) := by
  cases act with
  | call command => exact h.call command
  | advance j => exact h.advance_other fun hj => hact (hj ▸ rfl)
  | deliver => exact ⟨h.known, by simp only [step, h.shared], h.memory, h.callers, h.history⟩
  | happen event => exact ⟨h.known, h.shared, by simp only [step, h.memory], h.callers, h.history⟩

theorem Beside.run_others (h : Beside i view said v w) {acts : List (Action machine φ)}
    (hacts : .advance i ∉ acts) : Beside i view said (v.run config acts) (w.run config acts) := by
  induction acts generalizing v w with
  | nil => exact h
  | cons act acts ih =>
    have hact : act ≠ .advance i := fun hact => hacts (hact ▸ List.mem_cons_self)
    exact ih (h.step_other hact) fun hmem => hacts (List.mem_cons_of_mem _ hmem)

/-- If caller `i` goes on in both worlds alike, so do the worlds. -/
theorem Beside.run (h : Beside i view said v w)
    (hadvance : ∀ {v w : World machine φ}, Beside i view said v w →
      Beside i view said (v.advance i) (w.advance i)) (acts : List (Action machine φ)) :
    Beside i view said (v.run config acts) (w.run config acts) := by
  induction acts generalizing v w with
  | nil => exact h
  | cons act acts ih =>
    refine ih ?_
    by_cases hact : act = .advance i
    · exact hact ▸ hadvance h
    · exact h.step_other hact

/-- Nobody but the caller works on what the caller has to do. -/
theorem caller_run_others {w : World machine φ} {i : Nat} {c : Caller κ φ}
    (hc : w.callers[i]? = some c) {acts : List (Action machine φ)} (hacts : .advance i ∉ acts) :
    (w.run config acts).callers[i]? = some c := by
  induction acts generalizing w with
  | nil => exact hc
  | cons act acts ih =>
    refine ih ?_ fun hmem => hacts (List.mem_cons_of_mem _ hmem)
    cases act with
    | call command =>
      simp only [step]
      rw [List.getElem?_append_left (List.getElem?_eq_some_iff.1 hc).1, hc]
    | advance j =>
      have hj : j ≠ i := fun hj => hacts (hj ▸ List.mem_cons_self)
      rcases w.advance_cases j with hsame | ⟨command, q, next, -, -, hanswered⟩
      · exact (congrArg (fun w : World machine φ => w.callers[i]?) hsame).trans hc
      · simp only [step, hanswered, answered]
        rw [List.getElem?_set_ne hj, hc]
    | deliver => exact hc
    | happen event => exact hc

/-- A submission that was announced goes on as its call does. -/
theorem Beside.advance_submitting {request : SamplingRequest φ}
    (h : Beside i (Caller.submitting request) said v w) :
    Beside i (Caller.submitting request) said (v.advance i) (w.advance i) := by
  obtain ⟨c, hc⟩ : ∃ c, w.callers[i]? = some c := ⟨_, List.getElem?_eq_getElem h.known⟩
  have hv : v.callers[i]? = some (c.submitting request) := by
    rw [h.callers, List.getElem?_modify_eq, hc]
    rfl
  obtain ⟨command, rest⟩ := c
  unfold advance
  rw [hv, hc, h.shared]
  cases rest with
  | done result => exact h
  | ask q next =>
    simp only [Caller.submitting, Program.bind_ask]
    split
    · exact h
    · refine h.answered fun r => ?_
      rw [h.callers]
      exact List.ext_getElem? fun k => by grind [Caller.submitting]

/-- The announcement is one question more. -/
theorem Beside.announced {request : SamplingRequest φ} {notice : Notice}
    (h : Beside i (fun _ => ⟨.submit request, (note notice).bind fun () =>
      (request.direct.operation config).bind fun result => .done result.asOutcome⟩) [] v w)
    (hc : w.callers[i]? = some ⟨request.direct, request.direct.operation config⟩) :
    Beside i (Caller.submitting request) [⟨i, .note notice, ()⟩] (v.advance i) w := by
  have hv : v.callers[i]? = some ⟨.submit request, .ask (.note notice) fun () =>
      (request.direct.operation config).bind fun result => .done result.asOutcome⟩ := by
    rw [h.callers, List.getElem?_modify_eq, hc]
    rfl
  have hadvance : v.advance i = v.answered i (.submit request) (.note notice) fun () =>
      (request.direct.operation config).bind fun result => .done result.asOutcome := by
    unfold advance
    rw [hv]
    rfl
  obtain ⟨before, later, hw, hv'⟩ := h.history
  rw [hadvance]
  refine ⟨h.known, h.shared, h.memory, ?_, w.history, [], (List.append_nil _).symm, ?_⟩
  · simp only [World.answered, h.callers]
    exact List.ext_getElem? fun k => by grind [Caller.submitting]
  · simp only [World.answered, hw, hv', List.append_nil]

/-- Two worlds that differ in what the next caller asks for. -/
theorem beside_call (config : Config) (w : World machine φ) {command command' : Command φ}
    {view : Caller κ φ → Caller κ φ}
    (hview : view ⟨command, command.operation config⟩ = ⟨command', command'.operation config⟩) :
    Beside w.callers.length view [] (w.step config (.call command'))
      (w.step config (.call command)) := by
  refine ⟨by simp [step], rfl, rfl, ?_, w.history, [], (List.append_nil _).symm, by simp [step]⟩
  simp only [step]
  exact List.ext_getElem? fun k => by grind

end

/-- A request comes to the same whether it is submitted or its operation is called. Alone on any state
of the controller, the two have the same result, with the same calls and the same state after them, and a
request that is not valid fails with the same error and nothing is touched. After whatever callers have
asked for before, and with whatever happens next, a request that passes the check of the submission costs
one question more, which announces it; one that does not pass is done as soon as it is made. -/
theorem submission_agrees (config : Config) (memory : machine.Memory)
    (past : List (Action machine φ)) (request : SamplingRequest φ) :
    let w := (new memory).run config past
    let i := w.callers.length
    let called := w.step config (.call request.direct)
    let submitted := w.step config (.call (.submit request))
    (∀ (traffic : Traffic machine) (s : Site machine φ),
      let once := s.after traffic (request.direct.operation config)
      s.after traffic ((Command.submit request).operation config) = (once.1.asOutcome, once.2) ∧
      ∀ e, request.validate config = .error e → once.1.Fails e ∧ once.2 = s) ∧
    (request.check config = .ok () → ∀ before later, .advance i ∉ before →
      Beside i (Caller.submitting request)
        [⟨i, .note (.submitted request.mask request.attenuation), ()⟩]
        (submitted.run config (before ++ .advance i :: later))
        (called.run config (before ++ later))) ∧
    ∀ e, request.check config = .error e →
      (∃ result : Result, result.Fails e ∧
        called.callers[i]? = some ⟨request.direct, .done result⟩) ∧
      submitted.callers[i]? = some ⟨.submit request, .done (.outcome (.error e))⟩ ∧
      ∀ later, Beside i (Caller.submitting request) [] (submitted.run config later)
        (called.run config later) := by
  intro w i called submitted
  have hcalled : called.callers[i]? = some ⟨request.direct, request.direct.operation config⟩ := by
    simp [called, i, step]
  have hsubmitted : submitted.callers[i]? =
      some ⟨.submit request, (Command.submit request).operation config⟩ := by
    simp [submitted, i, step]
  refine ⟨fun traffic s => ?_, fun hcheck before later hbefore => ?_, fun e hcheck => ?_⟩
  · refine ⟨after_submit traffic s config request, fun e hinvalid => ?_⟩
    obtain ⟨result, hfails, hafter⟩ := after_direct_of_invalid hinvalid traffic s
    rw [hafter]
    exact ⟨hfails, rfl⟩
  · have hstart := @beside_call _ _ _ config w request.direct (.submit request)
      (fun _ => ⟨.submit request, _⟩) rfl
    rw [submit_of_check hcheck] at hstart
    have hannounced : Beside i (Caller.submitting request) [⟨i, .note _, ()⟩]
        ((submitted.run config before).advance i) (called.run config before) :=
      (hstart.run_others hbefore).announced (caller_run_others hcalled hbefore)
    have hsplit : submitted.run config (before ++ .advance i :: later) =
        (((submitted.run config before).advance i).run config later) := by
      simp [World.run, step]
    have hsplit' : called.run config (before ++ later) =
        (called.run config before).run config later := by
      simp [World.run]
    rw [hsplit, hsplit']
    exact hannounced.run Beside.advance_submitting later
  · obtain ⟨hsubmit, result, hfails, hdirect⟩ := submit_of_check_error (κ := κ) hcheck
    rw [hdirect] at hcalled
    rw [hsubmit] at hsubmitted
    refine ⟨⟨result, hfails, hcalled⟩, hsubmitted, fun later => ?_⟩
    refine (beside_call config w ?_).run Beside.advance_submitting later
    rw [hdirect, hsubmit, Caller.submitting, Program.bind_done, hfails.asOutcome]

/-- A burst while another caller holds other channels, and a stream with no samples. -/
theorem submission_agrees_refused :
    let past : List (Action Machine.recording Unit) :=
      .call (.reserve ⟨2⟩) :: .replicate 4 (.advance 0)
    let w : World Machine.recording Unit := (new ({} : Bench.Recorder)).run {} past
    let i := w.callers.length
    let burst : SamplingRequest Unit := .oneShot ⟨⟨3⟩, .db12, 2⟩
    let stream : SamplingRequest Unit := .continuous ⟨.ofList [3, 1], .db12, 0, 1000, some ()⟩
    Beside i (Caller.submitting burst) [⟨i, .note (.submitted burst.mask burst.attenuation), ()⟩]
      ((w.step {} (.call (.submit burst))).run {} (.replicate 8 (.advance i)))
      ((w.step {} (.call burst.direct)).run {} (.replicate 7 (.advance i))) ∧
    (∀ later, Beside i (Caller.submitting stream) []
      ((w.step {} (.call (.submit stream))).run {} later)
      ((w.step {} (.call stream.direct)).run {} later)) ∧
    ∀ s : Site Machine.recording Unit,
      (s.after (fun _ _ => 1) (stream.direct.operation {})).1.Fails
        (.invalidArgument .noSamplesPerChannel) := by
  intro past w i burst stream
  obtain ⟨-, hburst, -⟩ :=
    @submission_agrees _ _ Machine.recording {} ({} : Bench.Recorder) past burst
  obtain ⟨hstream, -, hrejected⟩ :=
    @submission_agrees _ _ Machine.recording {} ({} : Bench.Recorder) past stream
  exact ⟨hburst rfl [] (.replicate 7 (.advance i)) List.not_mem_nil, (hrejected _ rfl).2.2,
    fun s => ((hstream _ s).2 _ rfl).1⟩

end World

end Controller

end SharedAdc
