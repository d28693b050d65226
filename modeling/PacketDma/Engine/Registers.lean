/-
**Register accesses.**

Reading a register never changes anything.  Writing one may reset the engine, arm a channel and run
the transfer that this starts, enable receive, remove an event, or change the address table; a
write that is of no use is ignored.

Main definitions:

* `PacketDma.Engine.load` — the value of a register;
* `PacketDma.System.store` — a write of a register;
* `PacketDma.Engine.readRegister`, `PacketDma.System.writeRegister` — the same by byte offset.
-/

import PacketDma.Engine.Receive
import PacketDma.Engine.Transmit

set_option autoImplicit false

namespace PacketDma

/-- The fault of an access to a register that does not exist. -/
def noRegister (offset : UInt32) : DmaFault :=
  .outOfRange (.outOfRange offset.toUInt64 4 (UInt64.ofNat Register.windowSize))

namespace Engine

/-- One if an event is queued. -/
def eventPending (e : Engine) : UInt32 := if e.events.pending then 1 else 0

/-- The value of a register.  Only the registers of the oldest event can fail. -/
def load (e : Engine) : Register → Except DmaFault UInt32
  | .dmaReset | .blockReset | .eventPop => .ok 0
  | .transmitHead channel => .ok (e.channels.transmitChannel channel).head
  | .receiveHead channel => .ok (e.channels.receiveChannel channel).head
  | .transmitCompletion channel => .ok (e.channels.transmitChannel channel).completion
  | .receiveCompletion channel => .ok (e.channels.receiveChannel channel).completion
  | .receiveControl => .ok (e.register .receiveControl)
  | .dmaStatus => .ok (e.register .dmaStatus)
  | .eventRaw => .ok e.eventPending
  | .eventMasked => .ok (e.eventPending &&& e.register .eventEnable)
  | .eventLow => e.events.peek.map (·.timestamp)
  | .eventHigh => e.events.peek.map (·.metadata)
  | .tableControl => .ok (e.register .tableControl)
  | .tableSelect => .ok (e.register .tableSelect)
  | .tableWord slot => .ok (e.table.read slot)
  | .phyAccess index => .ok (e.register index &&& ~~~0xFFFF)
  | .storage index => .ok (e.register index)

/-- The value of the register at a byte offset. -/
def readRegister (e : Engine) (offset : UInt32) : Except DmaFault UInt32 :=
  match Register.decode offset with
  | some register => e.load register
  | none => .error (noRegister offset)

/-- A write of the register that controls the address table: bit 30 clears the table and is not
stored. -/
def controlTable (e : Engine) (value : UInt32) : Engine :=
  { e with
    table := if value &&& 0x40000000 = 0 then e.table else e.table.clear
    registers := e.registers.set .tableControl (value &&& ~~~0x40000000) }

/-- A write of the register that selects an entry of the address table: bit 31 is stored but is not
part of the index. -/
def selectEntry (e : Engine) (value : UInt32) : Engine :=
  { e with
    table := e.table.select (value &&& ~~~0x80000000)
    registers := e.registers.set .tableSelect value }

/-- A write of the register that enables receive. -/
def controlReceive (e : Engine) (value : UInt32) : Engine :=
  { e with
    registers := e.registers.set .receiveControl value
    intake := { e.intake with accepting := value &&& 1 != 0 } }

/-- A head pointer write of a receive channel. -/
def armReceive (e : Engine) (channel : ChannelId) (head : UInt32) : Engine :=
  { e with channels := e.channels.armReceive channel head }

end Engine

namespace System

/-- A write of a register and all that follows from it.  The fault is that of the transfer which the
write has started, if any. -/
def store (s : System) (value : UInt32) : Register → Option DmaFault × System
  | .dmaReset => (none, if value &&& 1 = 0 then s else s.mapEngine (·.resetDma))
  | .transmitHead channel =>
      let armed := s.mapEngine (·.setTransmitHead channel value)
      if value = 0 then (none, armed) else armed.transmit channel
  | .receiveHead channel => (s.mapEngine (·.armReceive channel value)).drain
  | .receiveControl =>
      let enabled := s.mapEngine (·.controlReceive value)
      if value &&& 1 = 0 then (none, enabled) else enabled.drain
  | .eventPop =>
      (none,
        if value &&& 1 = 0 then s
        else s.mapEngine fun e => { e with events := e.events.pop.2 })
  | .tableControl => (none, s.mapEngine (·.controlTable value))
  | .tableSelect => (none, s.mapEngine (·.selectEntry value))
  | .tableWord slot => (none, s.mapEngine fun e => { e with table := e.table.write slot value })
  | .phyAccess index => (none, s.mapEngine (·.setRegister index (value &&& ~~~0x80000000)))
  | .storage index => (none, s.mapEngine (·.setRegister index value))
  | .blockReset | .transmitCompletion _ | .receiveCompletion _ | .dmaStatus | .eventRaw
  | .eventMasked | .eventLow | .eventHigh => (none, s)

/-- A write of the register at a byte offset. -/
def writeRegister (s : System) (offset value : UInt32) : Option DmaFault × System :=
  match Register.decode offset with
  | some register => s.store value register
  | none => (some (noRegister offset), s)

end System

end PacketDma
