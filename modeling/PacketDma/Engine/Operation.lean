/-
**Operations of a system.**

Everything that software, the network or the host can do to a system is an operation, and answers
with a reply.  Statements about what a system does over time range over sequences of operations.

Main definitions:

* `PacketDma.Operation`, `PacketDma.Reply` — what can be done, and what comes back;
* `PacketDma.System.perform` — one operation;
* `PacketDma.System.run` — a sequence of operations.

Main results:

* `PacketDma.System.run_append` — a sequence may be run in pieces.
-/

import PacketDma.Engine.Bus

set_option autoImplicit false

namespace PacketDma

/-- What can be done to a system. -/
inductive Operation where
  /-- Software reads `size` bytes at an offset of the window. -/
  | busRead (offset : UInt64) (size : Nat)
  /-- Software writes the low `size` bytes of a value at an offset of the window. -/
  | busWrite (offset : UInt64) (size : Nat) (value : UInt64)
  /-- A register is read. -/
  | readRegister (offset : UInt32)
  /-- A register is written. -/
  | writeRegister (offset value : UInt32)
  /-- A frame arrives and is placed if possible. -/
  | receive (frame : InboundFrame)
  /-- A frame arrives and waits. -/
  | deliver (frame : InboundFrame)
  /-- Waiting frames are tried again. -/
  | poll
  /-- The host takes a transmitted frame. -/
  | takeEgress
  /-- The engine is reset as a whole. -/
  | reset
  /-- The host queues a timestamp event. -/
  | pushEvent (event : Event)
  /-- The host takes a timestamp event. -/
  | popEvent
  /-- Four words of descriptor RAM are read without a bus access. -/
  | readRam (address : UInt64)
  /-- Words of descriptor RAM are written without a bus access. -/
  | writeRam (address : UInt64) (words : List UInt32)
  /-- Memory is read. -/
  | readMemory (address : UInt64) (length : Nat)
  /-- Memory is written. -/
  | writeMemory (address : UInt64) (bytes : List UInt8)
deriving DecidableEq, Repr

/-- What an operation answers. -/
inductive Reply where
  /-- Nothing is to be said. -/
  | done
  /-- The value of a bus read. -/
  | value (value : UInt64)
  /-- The value of a register, or why it cannot be read. -/
  | word (result : Except DmaFault UInt32)
  /-- The fault of an operation of the engine, if any. -/
  | outcome (fault : Option DmaFault)
  /-- Whether a frame has been taken. -/
  | accepted (taken : Bool)
  /-- How many frames have been placed. -/
  | count (frames : Nat)
  /-- A frame, if there was one. -/
  | frame (frame : Option Frame)
  /-- An event, if there was one. -/
  | event (event : Option Event)
  /-- Words, or why they cannot be read. -/
  | words (result : Except MemoryFault (List UInt32))
  /-- Bytes, or why they cannot be read. -/
  | bytes (result : Except MemoryFault (List UInt8))
  /-- The fault of a write to memory or descriptor RAM, if any. -/
  | written (fault : Option MemoryFault)

namespace System

/-- Writes memory; a refused write changes nothing. -/
def writeMemory (s : System) (address : UInt64) (bytes : List UInt8) :
    Option MemoryFault × System :=
  match s.memory.write address bytes with
  | .ok memory => (none, { s with memory })
  | .error fault => (some fault, s)

/-- Writes words of descriptor RAM. -/
def writeRam (s : System) (address : UInt64) (words : List UInt32) :
    Option MemoryFault × System :=
  let (ram, fault) := s.engine.ram.writeWords address words
  (fault, s.mapEngine ({ · with ram }))

/-- A frame arrives and waits; says whether it has been taken. -/
def deliver (s : System) (frame : InboundFrame) : Bool × System :=
  let (fault, engine) := s.engine.offer frame
  (fault.isNone, { s with engine })

/-- The reply to an operation and the system after it. -/
def perform (s : System) : Operation → Reply × System
  | .busRead offset size => let (v, s) := s.busRead offset size; (.value v, s)
  | .busWrite offset size value => (.done, s.busWrite offset size value)
  | .readRegister offset => (.word (s.engine.readRegister offset), s)
  | .writeRegister offset value =>
      let (fault, s) := s.writeRegister offset value
      (.outcome fault, s)
  | .receive frame => let (fault, s) := s.receive frame; (.outcome fault, s)
  | .deliver frame => let (taken, s) := s.deliver frame; (.accepted taken, s)
  | .poll => let (frames, s) := s.poll; (.count frames, s)
  | .takeEgress =>
      let (frame, engine) := s.engine.takeEgress
      (.frame frame, { s with engine })
  | .reset => (.done, s.mapEngine (·.reset))
  | .pushEvent event => (.done, s.mapEngine fun e => { e with events := e.events.push event })
  | .popEvent =>
      let (event, events) := s.engine.events.pop
      (.event event, s.mapEngine ({ · with events }))
  | .readRam address => (.words (s.engine.ram.readWords 4 address), s)
  | .writeRam address words =>
      let (fault, s) := s.writeRam address words
      (.written fault, s)
  | .readMemory address length => (.bytes (s.memory.read address length), s)
  | .writeMemory address bytes =>
      let (fault, s) := s.writeMemory address bytes
      (.written fault, s)

/-- The replies to a sequence of operations and the system after them. -/
def run (s : System) : List Operation → List Reply × System
  | [] => ([], s)
  | op :: rest =>
      let (reply, next) := s.perform op
      let (replies, last) := run next rest
      (reply :: replies, last)

@[simp] theorem run_nil (s : System) : s.run [] = ([], s) := rfl

theorem run_cons (s : System) (op : Operation) (rest : List Operation) :
    s.run (op :: rest) =
      ((s.perform op).1 :: ((s.perform op).2.run rest).1, ((s.perform op).2.run rest).2) := rfl

/-- **A sequence may be run in pieces.** -/
theorem run_append (s : System) (first second : List Operation) :
    s.run (first ++ second) =
      ((s.run first).1 ++ ((s.run first).2.run second).1, ((s.run first).2.run second).2) := by
  induction first generalizing s with
  | nil => rfl
  | cons op rest ih => simp only [List.cons_append, run_cons, ih]

end System

end PacketDma
