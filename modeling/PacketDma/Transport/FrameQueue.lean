/-
**Frame queues between engine and host.**

A pair of bounded queues connects the engine with a host in the same process.  The host injects
frames that the engine polls, and collects frames that the engine has transmitted.  A frame that is
too long, or that finds its queue full, is dropped and counted.

Main definitions:

* `PacketDma.FrameQueue` — the two queues, their bounds and their counters;
* `PacketDma.FrameQueue.transmit`, `PacketDma.FrameQueue.poll` — the side of the engine;
* `PacketDma.FrameQueue.inject`, `PacketDma.FrameQueue.collect`, `PacketDma.FrameQueue.collectAll`
  — the side of the host.
-/

import PacketDma.Frame.Basic

set_option autoImplicit false

namespace PacketDma

/-- Why a frame was not injected. -/
inductive FrameQueueFault where
  /-- The queue holds as many frames as it may. -/
  | full (capacity : Nat)
  /-- The frame is longer than frames may be. -/
  | tooLarge (length limit : Nat)
deriving DecidableEq, Repr

/-- The wording of a frame queue fault. -/
def FrameQueueFault.message : FrameQueueFault → String
  | .full capacity => s!"frame queue full: capacity={capacity}"
  | .tooLarge length limit => s!"frame too large: len={length} max={limit}"

/-- The counters of a frame queue.  Each stands for a counter of 64 bits that has not run over. -/
structure FrameQueueStats where
  transmitted : Nat := 0
  transmittedBytes : Nat := 0
  transmitFull : Nat := 0
  transmitTooLarge : Nat := 0
  injected : Nat := 0
  delivered : Nat := 0
  injectFull : Nat := 0
  injectTooLarge : Nat := 0
deriving DecidableEq, Repr

/-- A pair of bounded queues. -/
structure FrameQueue where
  /-- How many frames each direction may hold. -/
  capacity : Nat := 1024
  /-- How long a frame may be. -/
  lengthLimit : Nat := 2048
  /-- Frames from the host, oldest first. -/
  inbound : List Frame := []
  /-- Frames from the engine, oldest first. -/
  outbound : List Frame := []
  stats : FrameQueueStats := {}
deriving DecidableEq, Repr

namespace FrameQueue

/-- Takes a frame from the engine. -/
def transmit (q : FrameQueue) (frame : Frame) : FrameQueue :=
  if q.lengthLimit < frame.length then
    { q with stats := { q.stats with transmitTooLarge := q.stats.transmitTooLarge + 1 } }
  else if q.capacity ≤ q.outbound.length then
    { q with stats := { q.stats with transmitFull := q.stats.transmitFull + 1 } }
  else
    { q with
      outbound := q.outbound ++ [frame]
      stats :=
        { q.stats with
          transmitted := q.stats.transmitted + 1
          transmittedBytes := q.stats.transmittedBytes + frame.length } }

/-- Hands the oldest frame from the host to the engine, if there is one. -/
def poll (q : FrameQueue) : Option Frame × FrameQueue :=
  match q.inbound with
  | [] => (none, q)
  | frame :: rest =>
      (some frame,
        { q with
          inbound := rest
          stats := { q.stats with delivered := q.stats.delivered + 1 } })

/-- Takes a frame from the host. -/
def inject (q : FrameQueue) (frame : Frame) : Option FrameQueueFault × FrameQueue :=
  if q.lengthLimit < frame.length then
    (some (.tooLarge frame.length q.lengthLimit),
      { q with stats := { q.stats with injectTooLarge := q.stats.injectTooLarge + 1 } })
  else if q.capacity ≤ q.inbound.length then
    (some (.full q.capacity),
      { q with stats := { q.stats with injectFull := q.stats.injectFull + 1 } })
  else
    (none,
      { q with
        inbound := q.inbound ++ [frame]
        stats := { q.stats with injected := q.stats.injected + 1 } })

/-- Hands the oldest frame from the engine to the host, if there is one. -/
def collect (q : FrameQueue) : Option Frame × FrameQueue :=
  (q.outbound.head?, { q with outbound := q.outbound.tail })

/-- Hands all frames from the engine to the host. -/
def collectAll (q : FrameQueue) : List Frame × FrameQueue :=
  (q.outbound, { q with outbound := [] })

theorem poll_of_nil {q : FrameQueue} (h : q.inbound = []) : q.poll = (none, q) := by
  simp only [poll, h]

theorem poll_of_cons {q : FrameQueue} {frame : Frame} {rest : List Frame}
    (h : q.inbound = frame :: rest) :
    q.poll =
      (some frame,
        { q with
          inbound := rest
          stats := { q.stats with delivered := q.stats.delivered + 1 } }) := by
  simp only [poll, h]

/-! ### The two directions do not meet -/

@[simp] theorem inbound_transmit (q : FrameQueue) (frame : Frame) :
    (q.transmit frame).inbound = q.inbound := by
  unfold transmit
  split
  · rfl
  · split <;> rfl

@[simp] theorem outbound_poll (q : FrameQueue) : q.poll.2.outbound = q.outbound := by
  unfold poll
  split <;> rfl

@[simp] theorem outbound_inject (q : FrameQueue) (frame : Frame) :
    (q.inject frame).2.outbound = q.outbound := by
  unfold inject
  split
  · rfl
  · split <;> rfl

@[simp] theorem inbound_collect (q : FrameQueue) : q.collect.2.inbound = q.inbound := rfl

@[simp] theorem inbound_collectAll (q : FrameQueue) : q.collectAll.2.inbound = q.inbound := rfl

end FrameQueue

end PacketDma
