/-
A vendor's driver that follows a script: every call is noted with its arguments, and a script
says which call of which service comes back with which status code. The code zero is success;
after any other code nothing has been created, taken or registered.
-/
import SharedAdc.Frame.Slot

namespace SharedAdc.Vendor

/-! ## Services and status codes -/

/-- What the driver can be called for. -/
inductive Service where
  | takePeripherals
  | newUnit
  | configureChannel
  | read
  | deleteUnit
  | newStream
  | configureStream
  | registerCallbacks
  | startStream
  | stopStream
  | deinitStream
  | newScheme
  | convert
  | deleteScheme
  deriving DecidableEq

namespace Service

def all : List Service :=
  [.takePeripherals, .newUnit, .configureChannel, .read, .deleteUnit, .newStream,
    .configureStream, .registerCallbacks, .startStream, .stopStream, .deinitStream, .newScheme,
    .convert, .deleteScheme]

/-- The name of the service in the driver's interface. -/
def name : Service → String
  | .takePeripherals => "Peripherals::take"
  | .newUnit => "adc_oneshot_new_unit"
  | .configureChannel => "adc_oneshot_config_channel"
  | .read => "adc_oneshot_read"
  | .deleteUnit => "adc_oneshot_del_unit"
  | .newStream => "adc_continuous_new_handle"
  | .configureStream => "adc_continuous_config"
  | .registerCallbacks => "adc_continuous_register_event_callbacks"
  | .startStream => "adc_continuous_start"
  | .stopStream => "adc_continuous_stop"
  | .deinitStream => "adc_continuous_deinit"
  | .newScheme => "adc_cali_create_scheme_curve_fitting"
  | .convert => "adc_cali_raw_to_voltage"
  | .deleteScheme => "adc_cali_delete_scheme_curve_fitting"

/-- The service with a given name. -/
def ofName? (s : String) : Option Service := all.find? fun f => f.name == s

end Service

/-- The text of a status code. -/
def statusText (code : Int32) : String :=
  if code = -1 then "ESP_FAIL"
  else if code = 0x101 then "ESP_ERR_NO_MEM"
  else if code = 0x102 then "ESP_ERR_INVALID_ARG"
  else if code = 0x103 then "ESP_ERR_INVALID_STATE"
  else if code = 0x105 then "ESP_ERR_NOT_FOUND"
  else if code = 0x106 then "ESP_ERR_NOT_SUPPORTED"
  else if code = 0x107 then "ESP_ERR_TIMEOUT"
  else "UNKNOWN ERROR"

/-! ## The trace -/

/-- One entry of the trace: a name and its numbers. -/
structure TraceEntry where
  name : String
  args : List Int
  deriving DecidableEq

/-- Puts an entry before a list of runs, into the first of them if that holds the same entry. -/
def consRun (entry : TraceEntry) : List (Nat × TraceEntry) → List (Nat × TraceEntry)
  | (n, first) :: runs =>
    if entry = first then (n + 1, first) :: runs else (1, entry) :: (n, first) :: runs
  | [] => [(1, entry)]

/-- The runs of equal neighbours of a trace, each with its length. -/
def runs (trace : List TraceEntry) : List (Nat × TraceEntry) := trace.foldr consRun []

/-! ## The driver -/

/-- The driver's word for something it created; the first is 1. -/
abbrev Handle := Nat

/-- Lets the `nth` call of a service come back with `code`, or every call if `nth` is zero. -/
structure ScriptEntry where
  service : Service
  nth : Nat
  code : Int32

/-- A driver that follows a script. -/
structure Driver where
  script : List ScriptEntry := []
  /-- The codes of the reads to come; after the last of them a read gives zero. -/
  raws : List Int32 := []
  /-- The voltages of the conversions to come; after the last of them a conversion gives the
  code it was handed. -/
  voltages : List Int32 := []
  trace : Array TraceEntry := #[]
  /-- The services called so far, the latest first. -/
  called : List Service := []
  /-- The handles given out so far. -/
  handles : Nat := 0
  /-- The slot that the registered handler hands frames to. -/
  registered : Option SlotName := none

namespace Driver

/-- Notes something in the trace. -/
def mark (d : Driver) (entry : TraceEntry) : Driver := { d with trace := d.trace.push entry }

/-- The code that the script has for the `n`th call of a service. -/
def scripted (d : Driver) (f : Service) (n : Nat) : Int32 :=
  match d.script.find? fun e => e.service = f ∧ (e.nth = n ∨ e.nth = 0) with
  | some e => e.code
  | none => 0

/-- Calls a service: notes the call, and answers its status code if it failed. -/
def call (d : Driver) (f : Service) (args : List Int) : Except Int32 Unit × Driver :=
  let called := f :: d.called
  let code := d.scripted f (called.count f)
  (if code = 0 then .ok () else .error code, { d.mark ⟨f.name, args⟩ with called })

/-- Calls a service that creates something. -/
def create (d : Driver) (f : Service) (args : List Int) : Except Int32 Handle × Driver :=
  match d.call f args with
  | (.error code, d) => (.error code, d)
  | (.ok (), d) => (.ok (d.handles + 1), { d with handles := d.handles + 1 })

/-- Reads a channel. -/
def read (d : Driver) (handle : Handle) (channel : Nat) : Except Int32 Int32 × Driver :=
  match d.call .read [handle, channel] with
  | (.error code, d) => (.error code, d)
  | (.ok (), d) => (.ok (d.raws.headD 0), { d with raws := d.raws.tail })

/-- Converts a code to a voltage. -/
def convert (d : Driver) (handle : Handle) (raw : UInt16) : Except Int32 Int32 × Driver :=
  match d.call .convert [handle, raw.toNat] with
  | (.error code, d) => (.error code, d)
  | (.ok (), d) =>
    (.ok (d.voltages.headD (Int32.ofNat raw.toNat)), { d with voltages := d.voltages.tail })

/-- Registers the handler of completed frames, in the place of an earlier one. -/
def register (d : Driver) (handle : Handle) (slot : SlotName) : Except Int32 Unit × Driver :=
  match d.call .registerCallbacks [handle, 1, 0] with
  | (.error code, d) => (.error code, d)
  | (.ok (), d) => (.ok (), { d with registered := some slot })

/-- Takes a stream down, which ends the registration. -/
def deinit (d : Driver) (handle : Handle) : Except Int32 Unit × Driver :=
  match d.call .deinitStream [handle] with
  | (.error code, d) => (.error code, d)
  | (.ok (), d) => (.ok (), { d with registered := none })

end Driver

end SharedAdc.Vendor
