/-
Calls that need other calls to go before them. Only a command that asks for a stream creates a driver,
of the size that its request has; the driver is set up and started by its creator, in this order; a
stream is stopped once, and its driver given up before the lock is. And only a calibration opens a
context, with the right resolution, and converts codes in it, which are those of its own buffer; a
context is deleted by who has opened it.
-/
import SharedAdc.Proofs.Watch.Commands

namespace SharedAdc

/-- The calls that have nothing to do with streams and contexts. -/
def HardwareCall.isAside {κ : Type} : HardwareCall κ → Bool
  | .createOneShotUnit | .configureOneShotChannel _ _ | .readOneShot _ | .deleteOneShotUnit => true
  | _ => false

namespace Controller

variable {κ φ α β : Type}

/-- The questions that have nothing to do with streams and contexts, and leave the lock alone. -/
def Question.isAside : Question κ φ → Bool
  | .enter | .leave _ => false
  | .hardware call => call.isAside
  | _ => true

/-! ## The continuous driver -/

/-- How far a driver has come that was created. -/
inductive Stage where
  | created
  | configured
  | registered
  | started
  | stopped
  deriving DecidableEq

namespace Stage

/-- Whether the driver was started. -/
def isStarted : Stage → Bool
  | .started | .stopped => true
  | _ => false

def configure : Stage → Stage
  | .created => .configured
  | stage => stage

def register : Stage → Stage
  | .configured => .registered
  | stage => stage

def stop : Stage → Stage
  | .started => .stopped
  | stage => stage

end Stage

/-- The continuous driver: who has created it last, and how far it has come while it is open. -/
structure Driver where
  creator : Option Nat := none
  stage : Option Stage := none
  deriving DecidableEq

/-- The driver after a question of caller `i` is answered. A driver is given up with the call that
deinitializes it, even if that fails. -/
def Driver.after (d : Driver) (i : Nat) : (q : Question κ φ) → Answer q → Driver
  | .hardware (.createContinuous _ _), .ok () => ⟨some i, some .created⟩
  | .hardware (.configureContinuous _ _), .ok () => { d with stage := d.stage.map .configure }
  | .hardware .registerFrameSlot, .ok () => { d with stage := d.stage.map .register }
  | .hardware .startContinuous, .ok () => { d with stage := d.stage.map fun _ => .started }
  | .hardware .stopContinuous, _ => { d with stage := d.stage.map .stop }
  | .hardware .deinitContinuous, _ => { d with stage := none }
  | _, _ => d

theorem Driver.after_aside (d : Driver) (i : Nat) {q : Question κ φ} (h : q.isAside = true)
    (answer : Answer q) : d.after i q answer = d := by
  cases q with
  | hardware call => cases call <;> first | rfl | cases h
  | _ => rfl

/-! ## Rules -/

namespace Command

/-- The command asks for a stream, with a request that passes its checks. -/
def AsksFor (config : Config) (command : Command φ) (request : ContinuousRequest φ) : Prop :=
  command.request? = some request ∧ request.check config = .ok ()

/-- The codes that the command converts, and their resolution. -/
def converts? (config : Config) : Command φ → Option (BitWidth × List UInt16)
  | .calibrate _ _ samples | .calibrateIndex _ _ samples => some (config.width, samples)
  | .convertInScope _ range raws => some (range.width, raws)
  | _ => none

end Command

/-- What a caller is about: the driver, which it knows under the lock, and the calibration contexts
that it has opened, with their ranges. -/
structure Errand (κ : Type) where
  driver : Option Driver := none
  contexts : List (κ × Range) := []

namespace Errand

/-- The calls that caller `i` may make. -/
def MayCall (config : Config) (i : Nat) (command : Command φ) (t : Errand κ) :
    HardwareCall κ → Prop
  | .createContinuous buffer frame => buffer = frame ∧ ∃ request,
    command.AsksFor config request ∧ request.frameBytes config = .ok frame
  | .configureContinuous rate pattern => t.driver = some ⟨some i, some .created⟩ ∧ ∃ request,
    command.AsksFor config request ∧ rate = request.rate ∧ pattern = request.pattern config
  | .registerFrameSlot => t.driver = some ⟨some i, some .configured⟩
  | .startContinuous => t.driver = some ⟨some i, some .registered⟩
  | .stopContinuous => ∃ d, t.driver = some d ∧ d.stage ≠ some .stopped
  | .createCalibration _ range => ∃ codes, command.converts? config = some (range.width, codes)
  | .applyCalibration context raw => ∃ codes range, (context, range) ∈ t.contexts ∧
    command.converts? config = some (range.width, codes) ∧ raw ∈ codes
  | .deleteCalibration context => ∃ range, (context, range) ∈ t.contexts
  | _ => True

/-- No driver that is stopped waits to be given up. -/
def Settled (t : Errand κ) : Prop := ∀ d, t.driver = some d → d.stage ≠ some .stopped

/-- What caller `i` may ask. -/
def Allows (config : Config) (i : Nat) (command : Command φ) (t : Errand κ) :
    Question κ φ → Prop
  | .hardware call => t.MayCall config i command call
  | .leave _ => t.Settled
  | _ => True

/-- What may be met under the lock. -/
def Meets (d : Driver) : Question κ φ → Prop
  | .enter => d.stage ≠ some .stopped
  | _ => True

/-- The contexts after an answer. -/
def opened (contexts : List (κ × Range)) : (q : Question κ φ) → Answer q → List (κ × Range)
  | .hardware (.createCalibration _ range), .ok context => (context, range) :: contexts
  | _, _ => contexts

/-- What a caller is about after an answer. Whoever comes under the lock meets the driver `d`. -/
def next (i : Nat) (d : Driver) (t : Errand κ) (q : Question κ φ) (answer : Answer q) :
    Errand κ where
  driver := match q with
    | .enter => some d
    | .leave _ => none
    | q => t.driver.map fun d => d.after i q answer
  contexts := opened t.contexts q answer

end Errand

/-- The rules that the operation of a command of caller `i` keeps to. -/
def errand (config : Config) (i : Nat) (command : Command φ) :
    Rules (Question κ φ) Answer (Errand κ) where
  allows := Errand.Allows config i command
  leads t q answer t' := ∃ d, Errand.Meets d q ∧ t' = t.next i d q answer

namespace Errand

variable {config : Config} {i : Nat} {command : Command φ} {t : Errand κ} {d : Driver}
  {contexts : List (κ × Range)}

/-! ## Single questions -/

theorem obeys_ask (q : Question κ φ) (post : Answer q → Errand κ → Prop) :
    (ask q : Operation κ φ (Answer q)).Obeys (errand config i command) t post ↔
      t.Allows config i command q ∧
        ∀ answer d, Meets d q → post answer (t.next i d q answer) := by
  refine (Program.obeys_query ..).trans (and_congr_right fun _ => ?_)
  constructor
  · intro h answer d hmeets
    exact h answer _ ⟨d, hmeets, rfl⟩
  · rintro h answer _ ⟨d, hmeets, rfl⟩
    exact h answer d hmeets

theorem next_aside {q : Question κ φ} (h : q.isAside = true) (answer : Answer q) :
    t.next i d q answer = t := by
  have hdriver : (t.driver.map fun d => d.after i q answer) = t.driver := by
    simp only [Driver.after_aside _ i h, Option.map_id']
  cases q with
  | enter | leave => cases h
  | hardware call => cases call <;> first | exact congrArg (Errand.mk · t.contexts) hdriver | cases h
  | _ => exact congrArg (Errand.mk · t.contexts) hdriver

theorem obeys_aside {q : Question κ φ} (h : q.isAside = true) (post : Answer q → Errand κ → Prop) :
    (ask q : Operation κ φ (Answer q)).Obeys (errand config i command) t post ↔
      ∀ answer, post answer t := by
  have hallows : t.Allows config i command q := by
    cases q with
    | enter | leave => cases h
    | hardware call => cases call <;> trivial
    | _ => trivial
  have hmeets : Meets {} q := by
    cases q with
    | enter => cases h
    | _ => trivial
  rw [obeys_ask]
  simp only [next_aside h]
  exact ⟨fun hall answer => hall.2 answer {} hmeets, fun hpost => ⟨hallows, fun answer _ _ => hpost answer⟩⟩

theorem obeys_hardware_aside {call : HardwareCall κ} (h : call.isAside = true)
    (post : call.Reply → Errand κ → Prop) :
    (hardware call : Operation κ φ call.Reply).Obeys (errand config i command) t post ↔
      ∀ reply, post reply t :=
  obeys_aside (q := .hardware call) h post

section

variable (post : Unit → Errand κ → Prop)

@[simp] theorem obeys_note (notice : Notice) :
    (note notice : Operation κ φ Unit).Obeys (errand config i command) t post ↔ post () t :=
  (obeys_aside (q := .note notice) rfl post).trans ⟨fun h => h (), fun h _ => h⟩

@[simp] theorem obeys_ask_arm (channel : Option Channel) :
    @Program.Obeys (Question κ φ) Answer _ Unit (errand config i command) (ask (.arm channel)) t
        post ↔ post () t :=
  (obeys_aside (q := .arm channel) rfl post).trans ⟨fun h => h (), fun h _ => h⟩

@[simp] theorem obeys_ask_clearCallback :
    @Program.Obeys (Question κ φ) Answer _ Unit (errand config i command) (ask .clearCallback) t
        post ↔ post () t :=
  (obeys_aside (q := .clearCallback) rfl post).trans ⟨fun h => h (), fun h _ => h⟩

@[simp] theorem obeys_ask_installCallback (callback : φ) :
    @Program.Obeys (Question κ φ) Answer _ Unit (errand config i command)
        (ask (.installCallback callback)) t post ↔ post () t :=
  (obeys_aside (q := .installCallback callback) rfl post).trans ⟨fun h => h (), fun h _ => h⟩

@[simp] theorem obeys_ask_resetFrameCounts :
    @Program.Obeys (Question κ φ) Answer _ Unit (errand config i command) (ask .resetFrameCounts) t
        post ↔ post () t :=
  (obeys_aside (q := .resetFrameCounts) rfl post).trans ⟨fun h => h (), fun h _ => h⟩

end

@[simp] theorem obeys_ask_armed (post : Option Channel → Errand κ → Prop) :
    @Program.Obeys (Question κ φ) Answer _ (Option Channel) (errand config i command) (ask .armed) t
        post ↔ ∀ channel, post channel t :=
  obeys_aside (q := .armed) rfl post

@[simp] theorem obeys_ask_frameCounts (post : UInt32 × UInt32 → Errand κ → Prop) :
    @Program.Obeys (Question κ φ) Answer _ (UInt32 × UInt32) (errand config i command)
        (ask .frameCounts) t post ↔ ∀ counts, post counts t :=
  obeys_aside (q := .frameCounts) rfl post

/-- A call under the lock shows in the driver. -/
theorem obeys_hardware (call : HardwareCall κ) (post : call.Reply → Errand κ → Prop) :
    (hardware call : Operation κ φ call.Reply).Obeys (errand config i command) ⟨some d, contexts⟩
        post ↔
      (⟨some d, contexts⟩ : Errand κ).MayCall config i command call ∧ ∀ reply,
        post reply ⟨some (d.after i (.hardware call : Question κ φ) reply),
          opened contexts (.hardware call : Question κ φ) reply⟩ := by
  refine (obeys_ask (.hardware call) post).trans (and_congr_right fun _ => ?_)
  exact ⟨fun h reply => h reply {} trivial, fun h reply _ _ => h reply⟩

/-- A section under the lock meets a driver that is not stopped, and leaves none that is behind. -/
theorem obeys_locked {body : Reservation → Operation κ φ (α × Reservation)}
    {post : α → Errand κ → Prop}
    (h : ∀ held d, d.stage ≠ some .stopped →
      (body held).Obeys (errand config i command) ⟨some d, contexts⟩ fun r t =>
        t.Settled ∧ t.contexts = contexts ∧ post r.1 ⟨none, contexts⟩) :
    (locked body).Obeys (errand config i command) ⟨none, contexts⟩ post := by
  unfold locked
  simp only [Program.bind_eq, Program.obeys_bind]
  rw [obeys_ask]
  refine ⟨trivial, fun held d hmeets => ?_⟩
  refine (h held d hmeets).mono ?_
  rintro ⟨result, held'⟩ t ⟨hsettled, hcontexts, hpost⟩
  rw [obeys_ask]
  refine ⟨hsettled, fun _ _ _ => ?_⟩
  show post result ⟨none, t.contexts⟩
  rw [hcontexts]
  exact hpost

end Errand

end Controller

end SharedAdc
