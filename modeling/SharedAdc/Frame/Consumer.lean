/-
Consumers of frames, the callbacks that sessions are started with, and what they leave behind: a
running average, a list of events, or the frames themselves.
-/
import SharedAdc.Frame.Accumulator
import SharedAdc.Frame.Slot

namespace SharedAdc

/-- A consumer of frames. -/
inductive Consumer where
  /-- Notes the size of the frame. -/
  | quiet
  /-- Notes the size of the frame and asks for another task to run. -/
  | eager
  /-- Notes the records of the frame. -/
  | decode
  /-- Counts the records of the frame, and asks for another task to run if there were any. -/
  | accumulate
  /-- Adds the frame to the averages of the stream. -/
  | average
  /-- Keeps the frame. -/
  | capture
  /-- Keeps the frame, and then breaks the task that delivers it. -/
  | breakdown
  deriving DecidableEq

/-- What a consumer noted of a frame. -/
inductive FrameEvent where
  | quiet (bytes : Nat)
  | eager (bytes : Nat)
  | decoded (records : List Record)
  | counted (records : Nat)

/-- What the consumers have left behind. -/
structure Feed where
  events : Array FrameEvent := #[]
  /-- What `Consumer.accumulate` has counted. -/
  tallies : Accumulator := {}
  /-- What `Consumer.average` has counted. -/
  averages : Accumulator := {}
  captured : Array Frame := #[]

/-- How a consumer comes back from a frame. -/
inductive Verdict where
  /-- Whether the delivering task should make way for another one. -/
  | returned (makeWay : Bool)
  /-- The delivering task is broken. -/
  | broken
  deriving DecidableEq

/-- The answer that a delivery gives. -/
def Verdict.makesWay : Verdict → Bool
  | .returned makeWay => makeWay
  | .broken => false

/-- Hands a frame to a consumer. -/
def Consumer.receive (consumer : Consumer) (frame : Frame) (feed : Feed) : Verdict × Feed :=
  match consumer with
  | .quiet => (.returned false, { feed with events := feed.events.push (.quiet frame.length) })
  | .eager => (.returned true, { feed with events := feed.events.push (.eager frame.length) })
  | .decode => (.returned false, { feed with events := feed.events.push (.decoded frame.decode) })
  | .accumulate =>
    let (tallies, counted) := feed.tallies.accumulate frame
    (.returned (decide (0 < counted)),
      { feed with tallies, events := feed.events.push (.counted counted) })
  | .average => (.returned false, { feed with averages := (feed.averages.accumulate frame).1 })
  | .capture => (.returned false, { feed with captured := feed.captured.push frame })
  | .breakdown => (.broken, { feed with captured := feed.captured.push frame })

/-- Hands a frame to a slot, whose callback receives it if one is installed. -/
def FrameSlot.handOver (slot : FrameSlot Consumer) (frame : Frame) (feed : Feed) :
    Verdict × FrameSlot Consumer × Feed :=
  match slot.deliver with
  | (none, slot) => (.returned false, slot, feed)
  | (some consumer, slot) =>
    let (verdict, feed) := consumer.receive frame feed
    (verdict, slot, feed)

/-- A delivery leaves the installed callback in place. -/
@[simp] theorem FrameSlot.callback_handOver (slot : FrameSlot Consumer) (frame : Frame)
    (feed : Feed) : (slot.handOver frame feed).2.1.callback = slot.callback := by
  have hslot : (slot.handOver frame feed).2.1 = slot.deliver.2 := by
    unfold handOver
    split
    · rename_i h
      rw [h]
    · rename_i h
      rw [h]
  rw [hslot, callback_deliver]

end SharedAdc
