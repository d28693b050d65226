/-
**Links to the host.**

The engine exchanges frames with the host over some backend: it sends frames, and polls for frames
that have arrived.  A link is a backend that may be a pair of frame queues, an echo that answers
every frame with a slightly changed copy, or a link that leads nowhere.

Main definitions:

* `PacketDma.Backend` — what the engine does with a backend;
* `PacketDma.Link` — the kinds of links and their state;
* `PacketDma.Link.transmit`, `PacketDma.Link.poll` — what links do.
-/

import PacketDma.Transport.FrameQueue

set_option autoImplicit false

namespace PacketDma

/-- The states of a backend, and what the engine does with it. -/
class Backend (β : Type) where
  /-- Sends a frame. -/
  transmit : β → Frame → β
  /-- The oldest frame that has arrived, if there is one. -/
  poll : β → Option Frame × β

/-- A link to the host. -/
inductive Link where
  /-- A pair of frame queues. -/
  | queue (queue : FrameQueue)
  /-- An echo: the frames it has been sent, and the answers not yet polled, oldest first. -/
  | echo (sent replies : List Frame)
  /-- A link that drops every frame and never has one. -/
  | detached
deriving DecidableEq, Repr

/-- The answer of an echo: the frame with all bits of its last byte flipped. -/
def Frame.echoed : Frame → Frame
  | [] => []
  | [last] => [last ^^^ 0xFF]
  | byte :: rest => byte :: Frame.echoed rest

@[simp] theorem Frame.length_echoed (frame : Frame) :
    (Frame.echoed frame).length = frame.length := by
  fun_induction Frame.echoed frame <;> simp_all

namespace Link

/-- Sends a frame over the link. -/
def transmit : Link → Frame → Link
  | .queue q, frame => .queue (q.transmit frame)
  | .echo sent replies, frame => .echo (sent ++ [frame]) (replies ++ [frame.echoed])
  | .detached, _ => .detached

/-- The oldest frame that has arrived over the link, if there is one. -/
def poll : Link → Option Frame × Link
  | .queue q => let (frame, q) := q.poll; (frame, .queue q)
  | .echo sent replies => (replies.head?, .echo sent replies.tail)
  | .detached => (none, .detached)

instance : Backend Link := ⟨transmit, poll⟩

/-- The counters of the frame queues, if the link has any. -/
def stats? : Link → Option FrameQueueStats
  | .queue q => some q.stats
  | _ => none

end Link

end PacketDma
