/-
**Transmit.**

A write of a head pointer sends one frame: it is gathered, its descriptors are handed back, and it
is put into the egress queue with its check sequence.  A chain that is rejected leaves no trace but
a count, and the channel is idle afterwards in every case.

Main definitions:

* `PacketDma.Engine.emit` — puts a gathered frame into the egress queue;
* `PacketDma.System.transmit` — sends the frame that a head pointer leads to.
-/

import PacketDma.Chain.Report
import PacketDma.Engine.Basic
import PacketDma.Frame.CheckSequence

set_option autoImplicit false

namespace PacketDma

namespace Engine

/-- The frame as it leaves the engine: the check sequence is added unless the data brings it. -/
def outgoing (g : Gathered) : Frame :=
  if g.first.has Status.passCrc then g.frame else g.frame.withFcs

/-- Puts a frame into the egress queue, or drops it when the queue is full. -/
def enqueueEgress (e : Engine) (frame : Frame) : Engine :=
  if e.settings.egressLimit ≤ e.egress.length then
    { e with stats := { e.stats with egressDropped := e.stats.egressDropped + 1 } }
  else { e with egress := e.egress ++ [frame] }

/-- Notes that a channel has sent a frame, stamps the frame, and puts it into the egress queue. -/
def emit (e : Engine) (channel : ChannelId) (g : Gathered) : Engine :=
  let completed :=
    { e with
      channels := e.channels.modifyTransmit channel fun transmit =>
        { transmit with completion := g.first.bufferPointer }
      stats := { e.stats with transmitted := e.stats.transmitted + 1 } }
  let stamped :=
    completed.stampFrame (completed.classify g.frame) g.first.toPort .transmitted g.frame
  stamped.enqueueEgress (outgoing g)

/-- Counts a rejected chain. -/
def countRejected (e : Engine) : Engine :=
  { e with stats := { e.stats with transmitErrors := e.stats.transmitErrors + 1 } }

/-- Sets the head pointer of a transmit channel. -/
def setTransmitHead (e : Engine) (channel : ChannelId) (head : UInt32) : Engine :=
  { e with channels := e.channels.setTransmitHead channel head }

end Engine

namespace System

/-- Sends the frame that the head pointer of a channel leads to, and idles the channel. -/
def transmit (s : System) (channel : ChannelId) : Option DmaFault × System :=
  let head := (s.engine.channels.transmitChannel channel).head
  match gather s.engine.ram s.memory channel head s.engine.settings.walkLimit with
  | .error fault =>
      (some fault, s.mapEngine fun e => (e.setTransmitHead channel 0).countRejected)
  | .ok g =>
      match applyEach TransmitDescriptor.encode g.returned s.engine.ram with
      | (some fault, ram) =>
          (some fault, s.mapEngine fun e =>
            ({ e with ram }.setTransmitHead channel 0).countRejected)
      | (none, ram) =>
          (none, s.mapEngine fun e => ({ e with ram }.emit channel g).setTransmitHead channel 0)

end System

end PacketDma
