/-
**Wrapped backends.**

The engine may reach its backend through layers that only forward: boxes, borrows, cells with other
owners, and optional backends.  Behind an optional backend that is missing, frames are dropped and
none ever arrives.  The host holds on to a pair of frame queues in any case, and so both parties work
on the queues in turn.

Main definitions:

* `PacketDma.Wrapped` — a backend and the layers in front of it;
* `PacketDma.Wrapped.transmit`, `PacketDma.Wrapped.poll` — what the engine does through the layers;
* `PacketDma.QueueStep`, `PacketDma.QueueReply` — what the two parties do with frame queues;
* `PacketDma.Wrapped.exchange`, `PacketDma.Wrapped.run` — one step, and a sequence of steps.

Main results:

* `PacketDma.Wrapped.transmit_of_connected`, `PacketDma.Wrapped.poll_of_connected` — layers that are
  present only forward.
-/

import PacketDma.Transport.Link

set_option autoImplicit false

namespace PacketDma

instance : Backend FrameQueue := ⟨FrameQueue.transmit, FrameQueue.poll⟩

/-- A layer between the engine and its backend. -/
inductive Layer where
  /-- A box, a borrow, or a cell with other owners. -/
  | reference
  /-- An optional backend that is there. -/
  | present
  /-- An optional backend that is missing. -/
  | absent
deriving DecidableEq, Repr

/-- A backend and the layers in front of it, outermost first.  A backend behind a missing layer is
out of reach of the engine. -/
structure Wrapped (β : Type) where
  layers : List Layer := []
  backend : β
deriving DecidableEq, Repr

namespace Wrapped

variable {β : Type}

/-- No layer is missing. -/
def Connected (w : Wrapped β) : Prop := Layer.absent ∉ w.layers

instance (w : Wrapped β) : Decidable w.Connected := inferInstanceAs (Decidable (_ ∉ _))

section Engine

variable [Backend β]

/-- Sends a frame through layers. -/
def transmitThrough (frame : Frame) : List Layer → β → β
  | [], backend => Backend.transmit backend frame
  | .reference :: inner, backend => transmitThrough frame inner backend
  | .present :: inner, backend => transmitThrough frame inner backend
  | .absent :: _, backend => backend

/-- Asks for a frame through layers. -/
def pollThrough : List Layer → β → Option Frame × β
  | [], backend => Backend.poll backend
  | .reference :: inner, backend => pollThrough inner backend
  | .present :: inner, backend => pollThrough inner backend
  | .absent :: _, backend => (none, backend)

/-- Sends a frame. -/
def transmit (w : Wrapped β) (frame : Frame) : Wrapped β :=
  { w with backend := transmitThrough frame w.layers w.backend }

/-- The oldest frame that has arrived, if there is one within reach. -/
def poll (w : Wrapped β) : Option Frame × Wrapped β :=
  let (frame, backend) := pollThrough w.layers w.backend
  (frame, { w with backend })

instance : Backend (Wrapped β) := ⟨transmit, poll⟩

end Engine

/-- The counters that the engine can see of frame queues. -/
def stats? (w : Wrapped FrameQueue) : Option FrameQueueStats :=
  if w.Connected then some w.backend.stats else none

end Wrapped

/-! ### Both parties -/

/-- What the host and the engine do with a pair of frame queues. -/
inductive QueueStep where
  /-- The host injects a frame. -/
  | inject (frame : Frame)
  /-- The engine polls for a frame. -/
  | poll
  /-- The engine transmits a frame. -/
  | transmit (frame : Frame)
  /-- The host collects a transmitted frame. -/
  | collect
  /-- The host collects all transmitted frames. -/
  | collectAll
deriving DecidableEq, Repr

/-- What comes back from a step. -/
inductive QueueReply where
  /-- Why a frame was not injected, if it was not. -/
  | injected (fault : Option FrameQueueFault)
  /-- The frame that the engine has got, if any. -/
  | polled (frame : Option Frame)
  /-- A transmission says nothing. -/
  | transmitted
  /-- The frames that the host has got. -/
  | collected (frames : List Frame)
deriving DecidableEq, Repr

namespace Wrapped

/-- The reply to a step and the queues after it. -/
def exchange (w : Wrapped FrameQueue) : QueueStep → QueueReply × Wrapped FrameQueue
  | .inject frame =>
      let (fault, backend) := w.backend.inject frame
      (.injected fault, { w with backend })
  | .poll =>
      let (frame, w) := w.poll
      (.polled frame, w)
  | .transmit frame => (.transmitted, w.transmit frame)
  | .collect =>
      let (frame, backend) := w.backend.collect
      (.collected frame.toList, { w with backend })
  | .collectAll =>
      let (frames, backend) := w.backend.collectAll
      (.collected frames, { w with backend })

/-- The replies to a sequence of steps and the queues after them. -/
def run (w : Wrapped FrameQueue) : List QueueStep → List QueueReply × Wrapped FrameQueue
  | [] => ([], w)
  | step :: rest =>
      let (reply, next) := w.exchange step
      let (replies, last) := run next rest
      (reply :: replies, last)

theorem run_cons (w : Wrapped FrameQueue) (step : QueueStep) (rest : List QueueStep) :
    w.run (step :: rest) =
      ((w.exchange step).1 :: ((w.exchange step).2.run rest).1,
        ((w.exchange step).2.run rest).2) := rfl

/-! ### Layers only forward -/

section Forwarding

variable {β : Type} [Backend β] {layers : List Layer}

theorem transmitThrough_of_connected (h : Layer.absent ∉ layers) (frame : Frame) (backend : β) :
    transmitThrough frame layers backend = Backend.transmit backend frame := by
  induction layers with
  | nil => rfl
  | cons layer inner ih =>
      obtain ⟨hlayer, hinner⟩ := List.ne_and_not_mem_of_not_mem_cons h
      cases layer with
      | reference => exact ih hinner
      | present => exact ih hinner
      | absent => exact absurd rfl hlayer

theorem pollThrough_of_connected (h : Layer.absent ∉ layers) (backend : β) :
    pollThrough layers backend = Backend.poll backend := by
  induction layers with
  | nil => rfl
  | cons layer inner ih =>
      obtain ⟨hlayer, hinner⟩ := List.ne_and_not_mem_of_not_mem_cons h
      cases layer with
      | reference => exact ih hinner
      | present => exact ih hinner
      | absent => exact absurd rfl hlayer

theorem transmitThrough_of_absent (h : Layer.absent ∈ layers) (frame : Frame) (backend : β) :
    transmitThrough frame layers backend = backend := by
  induction layers with
  | nil => exact absurd h List.not_mem_nil
  | cons layer inner ih =>
      cases layer with
      | reference => exact ih (List.mem_of_ne_of_mem (by decide) h)
      | present => exact ih (List.mem_of_ne_of_mem (by decide) h)
      | absent => rfl

theorem pollThrough_of_absent (h : Layer.absent ∈ layers) (backend : β) :
    pollThrough layers backend = (none, backend) := by
  induction layers with
  | nil => exact absurd h List.not_mem_nil
  | cons layer inner ih =>
      cases layer with
      | reference => exact ih (List.mem_of_ne_of_mem (by decide) h)
      | present => exact ih (List.mem_of_ne_of_mem (by decide) h)
      | absent => rfl

variable {w : Wrapped β}

/-- **Layers that are present forward every frame.** -/
theorem transmit_of_connected (h : w.Connected) (frame : Frame) :
    w.transmit frame = { w with backend := Backend.transmit w.backend frame } := by
  rw [transmit, transmitThrough_of_connected h]

/-- **Layers that are present forward every poll.** -/
theorem poll_of_connected (h : w.Connected) :
    w.poll = ((Backend.poll w.backend).1, { w with backend := (Backend.poll w.backend).2 }) := by
  rw [poll, pollThrough_of_connected h]

/-- A missing layer drops every frame. -/
theorem transmit_of_not_connected (h : ¬ w.Connected) (frame : Frame) : w.transmit frame = w := by
  rw [transmit, transmitThrough_of_absent (Decidable.not_not.1 h)]

/-- Nothing arrives through a missing layer. -/
theorem poll_of_not_connected (h : ¬ w.Connected) : w.poll = (none, w) := by
  rw [poll, pollThrough_of_absent (Decidable.not_not.1 h)]

end Forwarding

end Wrapped

end PacketDma
