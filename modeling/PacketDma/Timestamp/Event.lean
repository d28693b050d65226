/-
**Timestamp events.**

The time synchronisation unit reports that a frame of the precision time protocol has passed by
queueing an event.  An event is two words: one packs what passed where, the other is the time.
Software sees the oldest event and removes it when it has been read.

Main definitions:

* `PacketDma.EventMetadata` — what passed where, and `PacketDma.EventMetadata.word`, its packing;
* `PacketDma.Event` — the two words of an event;
* `PacketDma.EventQueue` — the events waiting for software, oldest first.
-/

import PacketDma.Fault

set_option autoImplicit false

namespace PacketDma

/-- Which way a stamped frame passed. -/
inductive EventKind where
  | received
  | transmitted
deriving DecidableEq, Repr

/-- The number of an event kind in the packed word. -/
def EventKind.code : EventKind → UInt32
  | .received => 4
  | .transmitted => 5

/-- What passed where. -/
structure EventMetadata where
  port : UInt8
  kind : EventKind
  messageType : UInt8
  sequenceId : UInt16
deriving DecidableEq, Repr

/-- The packed word: the port in bits 28 to 24, the kind in bits 23 to 20, the message type in
bits 19 to 16 and the sequence number below.  Fields are cut to their width. -/
def EventMetadata.word (m : EventMetadata) : UInt32 :=
  (m.port &&& 0x1F).toUInt32 <<< 24 ||| m.kind.code <<< 20 |||
    (m.messageType &&& 0x0F).toUInt32 <<< 16 ||| m.sequenceId.toUInt32

/-- A timestamp event as software reads it. -/
structure Event where
  metadata : UInt32
  timestamp : UInt32
deriving DecidableEq, Repr

/-- The events waiting for software, oldest first. -/
structure EventQueue where
  events : List Event := []
deriving DecidableEq, Repr

namespace EventQueue

/-- Adds an event behind the others. -/
def push (q : EventQueue) (event : Event) : EventQueue := ⟨q.events ++ [event]⟩

/-- The oldest event. -/
def peek (q : EventQueue) : Except DmaFault Event :=
  match q.events with
  | event :: _ => .ok event
  | [] => .error .noEvent

/-- The oldest event, taken out of the queue if there is one. -/
def pop (q : EventQueue) : Option Event × EventQueue := (q.events.head?, ⟨q.events.tail⟩)

/-- Whether an event waits. -/
def pending (q : EventQueue) : Bool := !q.events.isEmpty

@[simp] theorem events_push (q : EventQueue) (event : Event) :
    (q.push event).events = q.events ++ [event] := rfl

@[simp] theorem pop_nil : pop ⟨[]⟩ = (none, ⟨[]⟩) := rfl

@[simp] theorem pop_cons (event : Event) (rest : List Event) :
    pop ⟨event :: rest⟩ = (some event, ⟨rest⟩) := rfl

theorem peek_eq_noEvent_iff (q : EventQueue) : q.peek = .error .noEvent ↔ q.events = [] := by
  unfold peek
  cases q.events <;> simp

theorem pending_iff (q : EventQueue) : q.pending = true ↔ q.events ≠ [] := by
  simp [pending]

end EventQueue

end PacketDma
