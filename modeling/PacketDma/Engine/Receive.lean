/-
**Receive.**

Waiting frames are moved into their rings in the order of their arrival.  A frame whose channel is
idle holds up all frames behind it.  Placing a frame is planned first and carried out afterwards; a
frame that cannot be placed is dropped and counted, and the next one is tried.

Main definitions:

* `PacketDma.Engine.channelOf` — the receive channel of a frame;
* `PacketDma.System.fill` — places one frame;
* `PacketDma.System.drain` — moves waiting frames into their rings;
* `PacketDma.System.receive`, `PacketDma.System.poll` — a frame arrives, or waiting frames are
  tried again.

Main results:

* `PacketDma.System.drain_of_disabled` — nothing moves while receive is disabled;
* `PacketDma.System.drainFrames_of_not_ready` — a frame whose channel is idle holds up the others.
-/

import PacketDma.Chain.Report
import PacketDma.Engine.Basic

set_option autoImplicit false

namespace PacketDma

namespace Engine

/-- The class of a frame: the one that its sender has given it, or else the engine's own view. -/
def classOf (e : Engine) (frame : InboundFrame) : FrameClass :=
  frame.class?.getD (e.classify frame.bytes)

/-- The receive channel of a frame. -/
def channelOf (e : Engine) (frame : InboundFrame) : ChannelId :=
  e.settings.channel (e.classOf frame)

/-- Whether the receive channel of a frame is armed. -/
def ready (e : Engine) (frame : InboundFrame) : Bool :=
  (e.channels.receiveChannel (e.channelOf frame)).head != 0

/-- The status word of a receive failure. -/
def failureStatus (code : UInt32) (channel : ChannelId) : UInt32 :=
  (code &&& 0xF) <<< 12 ||| (UInt32.ofNat channel.val &&& 0x7) <<< 8

/-- Counts a frame that could not be placed, and latches the failures of the ring. -/
def countFailure (e : Engine) (channel : ChannelId) : DmaFault → Engine
  | .overrun .. =>
      { e with
        stats := { e.stats with overruns := e.stats.overruns + 1 }
        registers := e.registers.set .dmaStatus (failureStatus 2 channel) }
  | .ringExhausted .. =>
      { e with
        stats := { e.stats with overruns := e.stats.overruns + 1 }
        registers := e.registers.set .dmaStatus (failureStatus 4 channel) }
  | _ => { e with stats := { e.stats with receiveErrors := e.stats.receiveErrors + 1 } }

/-- The plan for a frame of the given length on a channel, from the place where its next frame
starts. -/
def plan (e : Engine) (memory : Memory) (channel : ChannelId) (length : Nat) :
    Except DmaFault FillPlan :=
  let receive := e.channels.receiveChannel channel
  planFill e.ram memory channel receive.start receive.head length e.settings.walkLimit

/-- The channel after a frame has been placed: the next one starts behind it. -/
def advance (e : Engine) (channel : ChannelId) (plan : FillPlan) : Engine :=
  { e with
    channels := e.channels.modifyReceive channel fun receive =>
      { receive with
        cursor := plan.next
        completion := plan.first.descriptor.bufferPointer } }

/-- Counts a placed frame and stamps it. -/
def countReceived (e : Engine) (frameClass : FrameClass) (frame : Frame) : Engine :=
  stampFrame { e with stats := { e.stats with received := e.stats.received + 1 } } frameClass
    receivePort .received frame

/-- Sets the waiting frames. -/
def setWaiting (e : Engine) (frames : List InboundFrame) : Engine :=
  { e with intake := { e.intake with frames } }

end Engine

namespace System

/-- Writes the part of the frame that a segment takes into its buffer. -/
def writeSegment (frame : Frame) (segment : Segment) (memory : Memory) : Except DmaFault Memory :=
  liftMemory (memory.write segment.descriptor.dataAddress (segment.part frame))

/-- Carries out a plan: copies the frame, hands the descriptors back and advances the channel. -/
def commit (s : System) (channel : ChannelId) (frame : InboundFrame) (plan : FillPlan) :
    Option DmaFault × System :=
  match applyEach (writeSegment frame.bytes) plan.segments s.memory with
  | (some fault, memory) => (some fault, { s with memory })
  | (none, memory) =>
      match applyEach ReceiveDescriptor.encode (plan.report frame) s.engine.ram with
      | (some fault, ram) => (some fault, { engine := { s.engine with ram }, memory })
      | (none, ram) => (none, { engine := { s.engine with ram }.advance channel plan, memory })

/-- Places a frame into the ring of its channel, or drops and counts it. -/
def fill (s : System) (frame : InboundFrame) : Option DmaFault × System :=
  let frameClass := s.engine.classOf frame
  let channel := s.engine.settings.channel frameClass
  match s.engine.plan s.memory channel frame.bytes.length with
  | .error fault => (some fault, s.mapEngine (·.countFailure channel fault))
  | .ok plan =>
      match s.commit channel frame plan with
      | (some fault, s) => (some fault, s.mapEngine (·.countFailure channel fault))
      | (none, s) => (none, s.mapEngine (·.countReceived frameClass frame.bytes))

/-- Places the given waiting frames one after the other, up to the first whose channel is idle.
The fault is the first one on the way. -/
def drainFrames : List InboundFrame → System → Option DmaFault × System
  | [], s => (none, s)
  | frame :: rest, s =>
      if s.engine.ready frame then
        let (fault, filled) := (s.mapEngine (·.setWaiting rest)).fill frame
        let (later, drained) := drainFrames rest filled
        (fault <|> later, drained)
      else (none, s)

/-- Moves waiting frames into their rings while receive is enabled. -/
def drain (s : System) : Option DmaFault × System :=
  if s.engine.receiveEnabled then drainFrames s.engine.intake.frames s else (none, s)

/-- A frame arrives from the network.  The fault is the refusal of the frame, or else the first
failure among the frames that have been placed. -/
def receive (s : System) (frame : InboundFrame) : Option DmaFault × System :=
  match s.engine.offer frame with
  | (some fault, engine) => (some fault, { s with engine })
  | (none, engine) => drain { s with engine }

/-- Tries the waiting frames again and says how many have been placed. -/
def poll (s : System) : Nat × System :=
  let drained := s.drain.2
  (drained.engine.stats.received - s.engine.stats.received, drained)

@[simp] theorem drainFrames_nil (s : System) : drainFrames [] s = (none, s) := rfl

/-- A frame whose channel is idle holds up the frames behind it. -/
theorem drainFrames_of_not_ready {s : System} {frame : InboundFrame}
    (h : s.engine.ready frame = false) (rest : List InboundFrame) :
    drainFrames (frame :: rest) s = (none, s) := by
  simp [drainFrames, h]

/-- Nothing moves while receive is disabled. -/
theorem drain_of_disabled {s : System} (h : s.engine.receiveEnabled = false) :
    s.drain = (none, s) := by
  simp [drain, h]

end System

end PacketDma
