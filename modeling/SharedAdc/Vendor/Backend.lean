/-
The hardware calls on a vendor's driver. The backend keeps the handle of the one-shot unit and
that of the stream, each from its creation until the driver has taken it back, and the frame slot
for as long as the driver may hand frames to it.
-/
import SharedAdc.Hardware
import SharedAdc.Log
import SharedAdc.Vendor.Driver

namespace SharedAdc.Vendor

/-- A call with a handle of the driver as calibration context. -/
abbrev Call := HardwareCall Handle

/-- A driver and the handles that are live on it. -/
structure Backend where
  driver : Driver := {}
  oneShot : Option Handle := none
  stream : Option Handle := none
  /-- The slot that is kept for the driver. -/
  slot : Option SlotName := none

namespace Backend

/-- What a new backend logs. -/
def readyEntry : LogEntry := ⟨.info, "ADC1 backend ready"⟩

/-! ## Numbers of the driver's interface -/

/-- The number of the unit. -/
def unitId : Int := 0

/-- Conversions on the first unit alone. -/
def singleUnitMode : Int := 1

/-- Records of the second output format. -/
def outputFormat : Int := 1

/-- The numbers of one entry of the pattern table. -/
def entryArgs (e : PatternEntry) : List Int :=
  [e.channel.number, e.range.attenuation.code, unitId, e.range.width.bits]

/-- A signed reading as a word; what lies outside is set to the nearest end. -/
def clamp (reading : Int32) : UInt16 := UInt16.ofNat (min 65535 reading.toInt.toNat)

/-! ## Calls -/

/-- What a call comes to: its reply, what it logs, and the backend afterwards. -/
abbrev Effect (α : Type) := Except HardwareFault α × List LogEntry × Backend

/-- The reply under `op` for a status of the driver. -/
def reply {α : Type} (op : HardwareOp) (status : Except Int32 α) : Except HardwareFault α :=
  status.mapError fun code => ⟨op, code⟩

/-- A call that needs a live handle: without one the driver is not called. -/
def withHandle {α : Type} (b : Backend) (op : HardwareOp) (handle : Option Handle)
    (effect : Handle → Effect α) : Effect α :=
  match handle with
  | none => (.error ⟨op, HardwareFault.invalidState⟩, [], b)
  | some handle => effect handle

/-- Calls a service of the driver that changes nothing in the backend. -/
def plain (b : Backend) (op : HardwareOp) (f : Service) (args : List Int) : Effect Unit :=
  let (status, driver) := b.driver.call f args
  (reply op status, [], { b with driver })

/-- Routes the frames of the stream to a slot, which is kept from then on. -/
def registerSlot (b : Backend) (slot : SlotName) : Effect Unit :=
  b.withHandle .registerFrameSlot b.stream fun handle =>
    let (status, driver) := b.driver.register handle slot
    (reply .registerFrameSlot status, [], { b with driver, slot := some slot })

/-- What the end of a calibration context logs: only that the driver kept it. -/
def deletionEntries (status : Except Int32 Unit) : List LogEntry :=
  match status with
  | .error code => [⟨.warn, "Failed to delete calibration scheme: " ++ statusText code⟩]
  | .ok () => []

/-- Makes a call. Answers the reply and what the backend logs. -/
def perform (b : Backend) : (call : Call) → call.Reply × List LogEntry × Backend
  | .createOneShotUnit =>
    match b.driver.create .newUnit [unitId] with
    | (.error code, driver) => (.error ⟨.createOneShotUnit, code⟩, [], { b with driver })
    | (.ok handle, driver) => (.ok (), [], { b with driver, oneShot := some handle })
  | .configureOneShotChannel channel range =>
    b.withHandle .configureOneShotChannel b.oneShot fun handle =>
      b.plain .configureOneShotChannel .configureChannel
        [handle, channel.number, range.attenuation.code, range.width.bits]
  | .readOneShot channel =>
    b.withHandle .readOneShot b.oneShot fun handle =>
      let (reading, driver) := b.driver.read handle channel.number
      ((reply .readOneShot reading).map clamp, [], { b with driver })
  | .deleteOneShotUnit =>
    b.withHandle .deleteOneShotUnit b.oneShot fun handle =>
      match b.driver.call .deleteUnit [handle] with
      | (.error code, driver) => (.error ⟨.deleteOneShotUnit, code⟩, [], { b with driver })
      | (.ok (), driver) => (.ok (), [], { b with driver, oneShot := none })
  | .createContinuous bufferBytes frameBytes =>
    match b.driver.create .newStream [bufferBytes.toNat, frameBytes.toNat] with
    | (.error code, driver) => (.error ⟨.createContinuous, code⟩, [], { b with driver })
    | (.ok handle, driver) => (.ok (), [], { b with driver, stream := some handle })
  | .configureContinuous rate pattern =>
    b.withHandle .configureContinuous b.stream fun handle =>
      b.plain .configureContinuous .configureStream
        ([(handle : Int), rate.toNat, singleUnitMode, outputFormat] ++ pattern.flatMap entryArgs)
  | .registerFrameSlot => b.registerSlot .controller
  | .startContinuous =>
    b.withHandle .startContinuous b.stream fun handle =>
      b.plain .startContinuous .startStream [handle]
  | .stopContinuous =>
    b.withHandle .stopContinuous b.stream fun handle =>
      b.plain .stopContinuous .stopStream [handle]
  | .deinitContinuous =>
    b.withHandle .deinitContinuous b.stream fun handle =>
      match b.driver.deinit handle with
      | (.error code, driver) => (.error ⟨.deinitContinuous, code⟩, [], { b with driver })
      | (.ok (), driver) => (.ok (), [], { b with driver, stream := none, slot := none })
  | .createCalibration channel range =>
    let (created, driver) := b.driver.create .newScheme
      [unitId, channel.number, range.attenuation.code, range.width.bits]
    (reply .createCalibration created, [], { b with driver })
  | .applyCalibration context raw =>
    let (voltage, driver) := b.driver.convert context raw
    ((reply .applyCalibration voltage).map clamp, [], { b with driver })
  | .deleteCalibration context =>
    let (status, driver) := b.driver.call .deleteScheme [context]
    ((), deletionEntries status, { b with driver })

end Backend

end SharedAdc.Vendor
