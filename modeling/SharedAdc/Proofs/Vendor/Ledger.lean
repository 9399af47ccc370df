/-
What a backend makes of a call, told by the driver itself. The driver notes every call of its services
with the arguments, and its script has the status of each; so what lies between two of its states can be
told without a look at the backend. A call that needs a handle which is not there makes no such call, and
every other makes just one, with the handle that the backend keeps.
-/
import SharedAdc.Proofs.Accounts.Basic
import SharedAdc.Vendor.Backend

namespace SharedAdc.Vendor

variable {α : Type}

/-! ## Handles of services -/

/-- What the driver gives handles to, besides calibration schemes. -/
inductive HandleKind where
  | oneShot
  | stream
  deriving DecidableEq

namespace Service

/-- What a successful call of the service creates. -/
def creates? : Service → Option HandleKind
  | .newUnit => some .oneShot
  | .newStream => some .stream
  | _ => none

/-- What a successful call of the service takes back. -/
def ends? : Service → Option HandleKind
  | .deleteUnit => some .oneShot
  | .deinitStream => some .stream
  | _ => none

/-- What a call of the service takes the handle of, as its first argument. -/
def takes? : Service → Option HandleKind
  | .configureChannel | .read | .deleteUnit => some .oneShot
  | .configureStream | .registerCallbacks | .startStream | .stopStream | .deinitStream => some .stream
  | _ => none

variable {f : Service} {kind : HandleKind}

/-- What takes a handle back is called with it. -/
theorem takes_of_ends (h : f.ends? = some kind) : f.takes? = some kind := by
  cases f <;> first | exact h | cases h

theorem creates_of_ends (h : f.ends? = some kind) : f.creates? = none := by
  cases f <;> first | rfl | cases h

end Service

/-- The service of the driver that a call is served by. -/
def serviceOf : Call → Service
  | .createOneShotUnit => .newUnit
  | .configureOneShotChannel .. => .configureChannel
  | .readOneShot _ => .read
  | .deleteOneShotUnit => .deleteUnit
  | .createContinuous .. => .newStream
  | .configureContinuous .. => .configureStream
  | .registerFrameSlot => .registerCallbacks
  | .startContinuous => .startStream
  | .stopContinuous => .stopStream
  | .deinitContinuous => .deinitStream
  | .createCalibration .. => .newScheme
  | .applyCalibration .. => .convert
  | .deleteCalibration _ => .deleteScheme

/-! ## What the driver has noted -/

/-- A call of a service, with what came of it. -/
structure ServiceCall where
  service : Service
  args : List Int
  /-- The status code; zero is success. -/
  code : Int32
  /-- The latest handle that was given out, which is that of what a successful call has created. -/
  handle : Handle
  deriving DecidableEq

/-- The entry of the trace that a call leaves. -/
def ServiceCall.entry (c : ServiceCall) : TraceEntry := ⟨c.service.name, c.args⟩

namespace Driver

/-- The call of a service that lies between two states of a driver, if there is one. -/
def callBetween (d d' : Driver) : Option ServiceCall :=
  match d'.called, d'.trace.back? with
  | f :: called, some entry =>
    if called = d.called then some ⟨f, entry.args, d.scripted f (d'.called.count f), d'.handles⟩
    else none
  | _, _ => none

theorem callBetween_self (d : Driver) : d.callBetween d = none := by
  unfold callBetween
  split
  · rename_i f called entry hcalled _
    rw [if_neg]
    intro hsame
    rw [hsame] at hcalled
    simpa using congrArg List.length hcalled
  · rfl

variable {d : Driver} {f : Service} {args : List Int} {x : Except Int32 α × Driver}

/-- What was done with a driver is one call of a service: it is noted, and the status is that of the
script. -/
structure IsCall (d : Driver) (f : Service) (args : List Int) (x : Except Int32 α × Driver) :
    Prop where
  called : x.2.called = f :: d.called
  trace : x.2.trace = d.trace.push ⟨f.name, args⟩
  status : errorOf x.1 = if d.scripted f (x.2.called.count f) = 0 then none
    else some (d.scripted f (x.2.called.count f))
  /-- No handle is given out again. -/
  grows : d.handles ≤ x.2.handles

theorem IsCall.between (h : d.IsCall f args x) : d.callBetween x.2 =
    some ⟨f, args, d.scripted f (x.2.called.count f), x.2.handles⟩ := by
  unfold callBetween
  rw [h.trace, Array.back?_push]
  simp only [h.called, if_true]

/-- What is made of the value and the rest of the driver does not matter. -/
theorem IsCall.congr {β : Type} {y : Except Int32 β × Driver} (h : d.IsCall f args x)
    (hstatus : errorOf y.1 = errorOf x.1) (hcalled : y.2.called = x.2.called)
    (htrace : y.2.trace = x.2.trace) (hgrows : x.2.handles ≤ y.2.handles) : d.IsCall f args y where
  called := hcalled.trans h.called
  trace := htrace.trans h.trace
  status := by rw [hstatus, hcalled, h.status]
  grows := h.grows.trans hgrows

variable (d f args)

theorem call_isCall : d.IsCall f args (d.call f args) where
  called := rfl
  trace := rfl
  status := by
    unfold call
    dsimp only
    split <;> rfl
  grows := le_rfl

theorem create_isCall : d.IsCall f args (d.create f args) := by
  have h := d.call_isCall f args
  unfold create
  generalize d.call f args = x at h
  obtain ⟨code | ⟨⟩, d'⟩ := x
  · exact h.congr rfl rfl rfl le_rfl
  · exact h.congr rfl rfl rfl (Nat.le_succ _)

theorem read_isCall (handle : Handle) (channel : Nat) :
    d.IsCall .read [handle, channel] (d.read handle channel) := by
  have h := d.call_isCall .read [handle, channel]
  unfold read
  generalize d.call .read [handle, channel] = x at h
  obtain ⟨code | ⟨⟩, d'⟩ := x
  · exact h.congr rfl rfl rfl le_rfl
  · exact h.congr rfl rfl rfl le_rfl

theorem convert_isCall (handle : Handle) (raw : UInt16) :
    d.IsCall .convert [handle, raw.toNat] (d.convert handle raw) := by
  have h := d.call_isCall .convert [handle, raw.toNat]
  unfold convert
  generalize d.call .convert [handle, raw.toNat] = x at h
  obtain ⟨code | ⟨⟩, d'⟩ := x
  · exact h.congr rfl rfl rfl le_rfl
  · exact h.congr rfl rfl rfl le_rfl

theorem register_isCall (handle : Handle) (slot : SlotName) :
    d.IsCall .registerCallbacks [handle, 1, 0] (d.register handle slot) := by
  have h := d.call_isCall .registerCallbacks [handle, 1, 0]
  unfold register
  generalize d.call .registerCallbacks [handle, 1, 0] = x at h
  obtain ⟨code | ⟨⟩, d'⟩ := x
  · exact h.congr rfl rfl rfl le_rfl
  · exact h.congr rfl rfl rfl le_rfl

theorem deinit_isCall (handle : Handle) :
    d.IsCall .deinitStream [handle] (d.deinit handle) := by
  have h := d.call_isCall .deinitStream [handle]
  unfold deinit
  generalize d.call .deinitStream [handle] = x at h
  obtain ⟨code | ⟨⟩, d'⟩ := x
  · exact h.congr rfl rfl rfl le_rfl
  · exact h.congr rfl rfl rfl le_rfl

variable {d f args} in
/-- A handle that was created is the latest that was given out, and was not given out before. -/
theorem create_handle {handle : Handle} {d' : Driver} (h : d.create f args = (.ok handle, d')) :
    handle = d'.handles ∧ d.handles < d'.handles := by
  have hkept : (d.call f args).2.handles = d.handles := rfl
  unfold create at h
  split at h <;> cases h
  rename_i d' hcall
  rw [hcall] at hkept
  exact ⟨rfl, Nat.lt_succ_of_le hkept.ge⟩

end Driver

/-! ## Requests -/

/-- A call to a backend. -/
abbrev Request := SlottedCall Handle

namespace Backend

/-- Makes a call, whatever slot it hands over. -/
def make (b : Backend) : (r : Request) → r.call.Reply × List LogEntry × Backend
  | ⟨.registerFrameSlot, slot⟩ => b.registerSlot slot
  | ⟨call, _⟩ => b.perform call

/-- The handle that the backend keeps. -/
def handle (b : Backend) : HandleKind → Option Handle
  | .oneShot => b.oneShot
  | .stream => b.stream

/-- The backend with a handle that was created. -/
def keep (b : Backend) (handle : Handle) : HandleKind → Backend
  | .oneShot => { b with oneShot := some handle }
  | .stream => { b with stream := some handle }

/-- The backend without a handle; the slot goes with that of the stream. -/
def drop (b : Backend) : HandleKind → Backend
  | .oneShot => { b with oneShot := none }
  | .stream => { b with stream := none, slot := none }

section

variable (b : Backend) (driver : Driver) (handle : Handle) (kind kind' : HandleKind)

theorem handle_driver : { b with driver }.handle kind = b.handle kind := by
  cases kind <;> rfl

theorem handle_keep : (b.keep handle kind).handle kind' =
    if kind = kind' then some handle else b.handle kind' := by
  cases kind <;> cases kind' <;> rfl

theorem handle_drop : (b.drop kind).handle kind' =
    if kind = kind' then none else b.handle kind' := by
  cases kind <;> cases kind' <;> rfl

theorem slot_keep : (b.keep handle kind).slot = b.slot := by
  cases kind <;> rfl

theorem slot_drop : (b.drop kind).slot = if kind = .stream then none else b.slot := by
  cases kind <;> rfl

theorem driver_keep : (b.keep handle kind).driver = b.driver := by
  cases kind <;> rfl

theorem driver_drop : (b.drop kind).driver = b.driver := by
  cases kind <;> rfl

end

/-- The backend after a call. -/
def after (b : Backend) (r : Request) : Backend := (b.make r).2.2

/-- The fault that the reply to a call reports. -/
def fault? (b : Backend) (r : Request) : Option HardwareFault :=
  AnsweredCall.fault? ⟨r.call, (b.make r).1⟩

/-- The call of the driver that a call comes to, if it does. -/
def served (b : Backend) (r : Request) : Option ServiceCall :=
  b.driver.callBetween (b.after r).driver

/-- What a backend does with a call that reaches the driver, as `c`. -/
structure Serves (b : Backend) (r : Request) (c : ServiceCall) : Prop where
  served : b.served r = some c
  service : c.service = serviceOf r.call
  /-- It is made with the handle that is kept. -/
  takes : ∀ kind handle, c.service.takes? = some kind → b.handle kind = some handle →
    c.args.head? = some (handle : Int)
  fault : b.fault? r = if c.code = 0 then none else r.call.op?.map fun op => ⟨op, c.code⟩
  handle : ∀ kind, (b.after r).handle kind =
    if c.code = 0 ∧ c.service.creates? = some kind then some c.handle
    else if c.code = 0 ∧ c.service.ends? = some kind then none
    else b.handle kind
  slot : (b.after r).slot =
    if r.call = .registerFrameSlot then some r.slot
    else if c.code = 0 ∧ c.service.ends? = some .stream then none
    else b.slot
  trace : (b.after r).driver.trace = b.driver.trace.push c.entry
  handles : b.driver.handles ≤ (b.after r).driver.handles ∧ (b.after r).driver.handles = c.handle
  fresh : ∀ kind, c.code = 0 → c.service.creates? = some kind → b.driver.handles < c.handle

/-- A call that needs a handle which is not there fails with the state, and changes nothing. -/
theorem make_unserved {b : Backend} {r : Request} {kind : HandleKind}
    (hneeds : (serviceOf r.call).takes? = some kind) (hnone : b.handle kind = none) :
    b.make r = (r.call.fail HardwareFault.invalidState, [], b) := by
  obtain ⟨call, slot⟩ := r
  cases call <;> cases hneeds <;>
    simp only [handle] at hnone <;>
    simp only [make, perform, registerSlot, hnone] <;> rfl

section

variable {b : Backend} {r : Request} {args : List Int} {x : Except Int32 α × Driver}

/-- A call that comes to one call of the driver is served by it, whatever its status is. -/
theorem exists_serves (h : b.driver.IsCall (serviceOf r.call) args x)
    (hdriver : (b.after r).driver = x.2)
    (htakes : ∀ kind handle, (serviceOf r.call).takes? = some kind → b.handle kind = some handle →
      args.head? = some (handle : Int))
    (hfault : b.fault? r = (errorOf x.1).bind fun code => r.call.op?.map fun op => ⟨op, code⟩)
    (hhandle : ∀ kind, (b.after r).handle kind =
      if errorOf x.1 = none ∧ (serviceOf r.call).creates? = some kind then some x.2.handles
      else if errorOf x.1 = none ∧ (serviceOf r.call).ends? = some kind then none
      else b.handle kind)
    (hslot : (b.after r).slot =
      if r.call = .registerFrameSlot then some r.slot
      else if errorOf x.1 = none ∧ (serviceOf r.call).ends? = some .stream then none
      else b.slot)
    (hfresh : ∀ kind, errorOf x.1 = none → (serviceOf r.call).creates? = some kind →
      b.driver.handles < x.2.handles) : ∃ c, b.Serves r c := by
  have hbetween := h.between
  have hstatus := h.status
  generalize b.driver.scripted (serviceOf r.call) (x.2.called.count (serviceOf r.call)) = code
    at hbetween hstatus
  have hsucceeds : errorOf x.1 = none ↔ code = 0 := by
    rw [hstatus]
    split <;> simp [*]
  refine ⟨⟨serviceOf r.call, args, code, x.2.handles⟩, ?_⟩
  simp only [hsucceeds] at hhandle hslot hfresh
  constructor
  case served =>
    show b.driver.callBetween (b.after r).driver = _
    rw [hdriver, hbetween]
  case service => rfl
  case takes => exact htakes
  case fault =>
    rw [hfault, hstatus]
    split <;> rfl
  case handle => exact hhandle
  case slot => exact hslot
  case trace =>
    rw [hdriver, h.trace]
    rfl
  case handles =>
    rw [hdriver]
    exact ⟨h.grows, rfl⟩
  case fresh => exact hfresh

theorem head_kept (kind : HandleKind) {handle : Handle} (hkept : b.handle kind = some handle) :
    ∀ kind' handle', some kind = some kind' → b.handle kind' = some handle' →
      ((handle : Int) :: args).head? = some (handle' : Int) := by
  rintro _ handle' ⟨⟩ hsame
  obtain rfl := Option.some.inj (hkept.symm.trans hsame)
  rfl

/-- A call of a service that neither creates nor takes back anything leaves what the backend keeps. -/
theorem exists_serves_aside (h : b.driver.IsCall (serviceOf r.call) args x)
    (hcreates : (serviceOf r.call).creates? = none) (hends : (serviceOf r.call).ends? = none)
    (hregisters : r.call ≠ .registerFrameSlot)
    (htakes : ∀ kind handle, (serviceOf r.call).takes? = some kind → b.handle kind = some handle →
      args.head? = some (handle : Int))
    (hafter : b.after r = { b with driver := x.2 })
    (hfault : b.fault? r = (errorOf x.1).bind fun code => r.call.op?.map fun op => ⟨op, code⟩) :
    ∃ c, b.Serves r c := by
  refine exists_serves h (by rw [hafter]) htakes hfault (fun kind => ?_) ?_
    fun kind _ h => nomatch hcreates.symm.trans h
  · rw [hafter, hcreates, hends, if_neg (by simp), if_neg (by simp), handle_driver]
  · rw [hafter, if_neg hregisters, hends, if_neg (by simp)]

variable (args) in
/-- A call that creates something keeps its handle, if it succeeds. -/
theorem exists_serves_create {kind : HandleKind} {x : Except Int32 Handle × Driver}
    (hx : b.driver.create (serviceOf r.call) args = x)
    (hcreates : (serviceOf r.call).creates? = some kind)
    (hends : (serviceOf r.call).ends? = none) (htakes : (serviceOf r.call).takes? = none)
    (hregisters : r.call ≠ .registerFrameSlot)
    (hafter : b.after r = match x.1 with
      | .ok handle => { b with driver := x.2 }.keep handle kind
      | .error _ => { b with driver := x.2 })
    (hfault : b.fault? r = (errorOf x.1).bind fun code => r.call.op?.map fun op => ⟨op, code⟩) :
    ∃ c, b.Serves r c := by
  have hcall := b.driver.create_isCall (serviceOf r.call) args
  rw [hx] at hcall
  obtain ⟨code | handle, d⟩ := x
  · refine exists_serves hcall (by rw [hafter]) (by simp [htakes]) hfault (fun kind => ?_) ?_ nofun
    · simp [hafter, hends, errorOf, handle_driver]
    · simp [hafter, hregisters, errorOf]
  · obtain ⟨rfl, hfresh⟩ := Driver.create_handle hx
    refine exists_serves hcall ?_ (by simp [htakes]) hfault (fun kind' => ?_) ?_
      fun _ _ _ => hfresh
    · rw [hafter, driver_keep]
    · simp [hafter, hcreates, hends, errorOf, handle_keep, handle_driver]
    · simp [hafter, hregisters, hends, slot_keep]

/-- A call that takes a handle back drops it, if it succeeds. -/
theorem exists_serves_end {kind : HandleKind} {handle : Handle}
    (h : b.driver.IsCall (serviceOf r.call) [(handle : Int)] x)
    (hends : (serviceOf r.call).ends? = some kind) (hkept : b.handle kind = some handle)
    (hregisters : r.call ≠ .registerFrameSlot)
    (hafter : b.after r = match x.1 with
      | .ok _ => { b with driver := x.2 }.drop kind
      | .error _ => { b with driver := x.2 })
    (hfault : b.fault? r = (errorOf x.1).bind fun code => r.call.op?.map fun op => ⟨op, code⟩) :
    ∃ c, b.Serves r c := by
  have hcreates := Service.creates_of_ends hends
  have htakes : ∀ kind' handle', (serviceOf r.call).takes? = some kind' →
      b.handle kind' = some handle' → [(handle : Int)].head? = some (handle' : Int) := by
    rw [Service.takes_of_ends hends]
    exact head_kept kind hkept
  obtain ⟨code | value, d⟩ := x
  · refine exists_serves h (by rw [hafter]) htakes hfault (fun kind => ?_) ?_ nofun
    · simp [hafter, hcreates, errorOf, handle_driver]
    · simp [hafter, hregisters, errorOf]
  · refine exists_serves h ?_ htakes hfault (fun kind' => ?_) ?_ (by simp [hcreates])
    · rw [hafter, driver_drop]
    · simp [hafter, hcreates, hends, errorOf, handle_drop, handle_driver]
    · simp [hafter, hregisters, hends, errorOf, slot_drop]

end

theorem errorOf_reply (op : HardwareOp) (status : Except Int32 α) :
    errorOf (Backend.reply op status) = (errorOf status).bind fun code => some ⟨op, code⟩ := by
  cases status <;> rfl

/-- Every other call reaches the driver just once. -/
theorem serves {b : Backend} {r : Request}
    (h : ∀ kind, (serviceOf r.call).takes? = some kind → b.handle kind ≠ none) :
    ∃ c, b.Serves r c := by
  obtain ⟨driver, unit, stream, kept⟩ := b
  have hunit : (serviceOf r.call).takes? = some .oneShot → ∃ handle, unit = some handle :=
    fun hneeds => Option.ne_none_iff_exists'.1 (h .oneShot hneeds)
  have hstream : (serviceOf r.call).takes? = some .stream → ∃ handle, stream = some handle :=
    fun hneeds => Option.ne_none_iff_exists'.1 (h .stream hneeds)
  obtain ⟨call, slot⟩ := r
  cases call with
  | createOneShotUnit =>
    refine exists_serves_create [unitId] rfl rfl rfl rfl (by simp) ?_ ?_
    all_goals
      simp only [after, fault?, make, perform, serviceOf]
      rcases driver.create .newUnit [unitId] with ⟨_ | _, _⟩ <;> rfl
  | configureOneShotChannel channel range =>
    obtain ⟨handle, rfl⟩ := hunit rfl
    exact exists_serves_aside (driver.call_isCall .configureChannel
      [handle, channel.number, range.attenuation.code, range.width.bits]) rfl rfl (by simp)
      (head_kept .oneShot rfl) rfl (errorOf_reply ..)
  | readOneShot channel =>
    obtain ⟨handle, rfl⟩ := hunit rfl
    exact exists_serves_aside (driver.read_isCall handle channel.number) rfl rfl (by simp)
      (head_kept .oneShot rfl) rfl ((errorOf_map ..).trans (errorOf_reply ..))
  | deleteOneShotUnit =>
    obtain ⟨handle, rfl⟩ := hunit rfl
    refine exists_serves_end (driver.call_isCall .deleteUnit [handle]) rfl rfl (by simp) ?_ ?_
    all_goals
      simp only [after, fault?, make, perform, withHandle]
      rcases driver.call .deleteUnit [handle] with ⟨_ | _, _⟩ <;> rfl
  | createContinuous bufferBytes frameBytes =>
    refine exists_serves_create [bufferBytes.toNat, frameBytes.toNat] rfl rfl rfl rfl (by simp) ?_ ?_
    all_goals
      simp only [after, fault?, make, perform, serviceOf]
      rcases driver.create .newStream [bufferBytes.toNat, frameBytes.toNat] with ⟨_ | _, _⟩ <;> rfl
  | configureContinuous rate pattern =>
    obtain ⟨handle, rfl⟩ := hstream rfl
    exact exists_serves_aside (driver.call_isCall .configureStream
      ([(handle : Int), rate.toNat, singleUnitMode, outputFormat] ++ pattern.flatMap entryArgs))
      rfl rfl (by simp) (head_kept .stream rfl) rfl (errorOf_reply ..)
  | registerFrameSlot =>
    obtain ⟨handle, rfl⟩ := hstream rfl
    refine exists_serves (driver.register_isCall handle slot) rfl (head_kept .stream rfl)
      (errorOf_reply ..) (fun kind => ?_) rfl (by simp [serviceOf, Service.creates?])
    simp only [serviceOf, Service.creates?, Service.ends?, reduceCtorEq, and_false, if_false]
    cases kind <;> rfl
  | startContinuous =>
    obtain ⟨handle, rfl⟩ := hstream rfl
    exact exists_serves_aside (driver.call_isCall .startStream [handle]) rfl rfl (by simp)
      (head_kept .stream rfl) rfl (errorOf_reply ..)
  | stopContinuous =>
    obtain ⟨handle, rfl⟩ := hstream rfl
    exact exists_serves_aside (driver.call_isCall .stopStream [handle]) rfl rfl (by simp)
      (head_kept .stream rfl) rfl (errorOf_reply ..)
  | deinitContinuous =>
    obtain ⟨handle, rfl⟩ := hstream rfl
    refine exists_serves_end (driver.deinit_isCall handle) rfl rfl (by simp) ?_ ?_
    all_goals
      simp only [after, fault?, make, perform, withHandle]
      rcases driver.deinit handle with ⟨_ | _, _⟩ <;> rfl
  | createCalibration channel range =>
    exact exists_serves_aside (driver.create_isCall .newScheme
      [unitId, channel.number, range.attenuation.code, range.width.bits]) rfl rfl (by simp)
      (by simp [serviceOf, Service.takes?]) rfl ((errorOf_map ..).trans (errorOf_reply ..))
  | applyCalibration context raw =>
    exact exists_serves_aside (driver.convert_isCall context raw) rfl rfl (by simp)
      (by simp [serviceOf, Service.takes?]) rfl ((errorOf_map ..).trans (errorOf_reply ..))
  | deleteCalibration context =>
    exact exists_serves_aside (driver.call_isCall .deleteScheme [context]) rfl rfl (by simp)
      (by simp [serviceOf, Service.takes?]) rfl (Option.bind_fun_none _).symm

end Backend

end SharedAdc.Vendor
