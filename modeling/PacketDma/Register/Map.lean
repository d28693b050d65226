/-
**The register map.**

The lower half of the subsystem's window holds 2048 registers of 32 bits.  Most of them only store
a word.  The others reset something, stand for a pointer of a channel, give access to the event
queue or the address table, or have an effect when they are written.

Main definitions:

* `PacketDma.RegisterIndex` — the position of a register, counted in words;
* `PacketDma.Register` — what a register does;
* `PacketDma.Register.ofIndex`, `PacketDma.Register.decode` — what the register at a position or at
  a byte offset does;
* `PacketDma.RegisterFile` — the stored words.

Main results:

* `PacketDma.RegisterFile.get_set` — a store changes one word.
-/

import PacketDma.Channel

set_option autoImplicit false

namespace PacketDma

/-- The position of a register, counted in words. -/
abbrev RegisterIndex := Fin 2048

namespace RegisterIndex

/-- The additional EtherTypes of the precision time protocol, one in each half. -/
def timestampTypes : RegisterIndex := ⟨0x02C / 4, by decide⟩

/-- Enables transmit. -/
def transmitControl : RegisterIndex := ⟨0x804 / 4, by decide⟩

/-- Enables receive. -/
def receiveControl : RegisterIndex := ⟨0x814 / 4, by decide⟩

/-- The last failure of a receive ring. -/
def dmaStatus : RegisterIndex := ⟨0x824 / 4, by decide⟩

/-- Enables timestamp events. -/
def eventEnable : RegisterIndex := ⟨0xC28 / 4, by decide⟩

/-- Controls the address table. -/
def tableControl : RegisterIndex := ⟨0xD08 / 4, by decide⟩

/-- Selects an entry of the address table. -/
def tableSelect : RegisterIndex := ⟨0xD20 / 4, by decide⟩

/-- The interrupt status of the subsystem. -/
def interruptStatus : RegisterIndex := ⟨0x124C / 4, by decide⟩

end RegisterIndex

/-- What a register does. -/
inductive Register where
  /-- Resets the DMA engine. -/
  | dmaReset
  /-- Resets a block that has nothing to reset. -/
  | blockReset
  /-- The head pointer of a transmit channel. -/
  | transmitHead (channel : ChannelId)
  /-- The head pointer of a receive channel. -/
  | receiveHead (channel : ChannelId)
  /-- The completion pointer of a transmit channel. -/
  | transmitCompletion (channel : ChannelId)
  /-- The completion pointer of a receive channel. -/
  | receiveCompletion (channel : ChannelId)
  /-- Enables receive. -/
  | receiveControl
  /-- The last failure of a receive ring, only to be read. -/
  | dmaStatus
  /-- Whether an event is queued, only to be read. -/
  | eventRaw
  /-- Whether an event is queued and events are enabled, only to be read. -/
  | eventMasked
  /-- Removes the oldest event. -/
  | eventPop
  /-- The time of the oldest event, only to be read. -/
  | eventLow
  /-- The metadata of the oldest event, only to be read. -/
  | eventHigh
  /-- Controls the address table. -/
  | tableControl
  /-- Selects an entry of the address table. -/
  | tableSelect
  /-- A word of the selected entry of the address table. -/
  | tableWord (slot : Fin 3)
  /-- Starts a transaction with a transceiver. -/
  | phyAccess (index : RegisterIndex)
  /-- Stores a word. -/
  | storage (index : RegisterIndex)
deriving DecidableEq, Repr

namespace Register

/-- The number of bytes that the registers take. -/
def windowSize : Nat := 0x2000

/-- The register of the channel pointers at byte `offset` behind the first of them: four banks of
one register per channel. -/
def ofPointerOffset (offset : Nat) : Register :=
  let channel : ChannelId := ⟨offset % 0x20 / 4, by omega⟩
  match offset / 0x20 with
  | 0 => .transmitHead channel
  | 1 => .receiveHead channel
  | 2 => .transmitCompletion channel
  | _ => .receiveCompletion channel

/-- What the register at a position does. -/
def ofIndex (index : RegisterIndex) : Register :=
  if 0xA00 ≤ 4 * index.val ∧ 4 * index.val < 0xA80 then ofPointerOffset (4 * index.val - 0xA00)
  else
    match 4 * index.val with
    | 0x008 | 0xD8C | 0xDCC | 0x1204 => .blockReset
    | 0x81C => .dmaReset
    | 0x814 => .receiveControl
    | 0x824 => .dmaStatus
    | 0xC20 => .eventRaw
    | 0xC24 => .eventMasked
    | 0xC30 => .eventPop
    | 0xC34 => .eventLow
    | 0xC38 => .eventHigh
    | 0xD08 => .tableControl
    | 0xD20 => .tableSelect
    | 0xD34 => .tableWord 2
    | 0xD38 => .tableWord 1
    | 0xD3C => .tableWord 0
    | 0x1080 | 0x1088 => .phyAccess index
    | _ => .storage index

/-- What the register at a byte offset does; registers are four bytes apart. -/
def decode (offset : UInt32) : Option Register :=
  if h : offset.toNat % 4 = 0 ∧ offset.toNat < windowSize then
    some (ofIndex ⟨offset.toNat / 4, by have := h.2; unfold windowSize at this; omega⟩)
  else none

end Register

/-- The words that registers store. -/
structure RegisterFile where
  words : Vector UInt32 2048
deriving DecidableEq

namespace RegisterFile

/-- All words zero. -/
def zero : RegisterFile := ⟨Vector.replicate 2048 0⟩

/-- The word stored at a position. -/
def get (f : RegisterFile) (index : RegisterIndex) : UInt32 := f.words[index]

/-- Stores a word at a position. -/
def set (f : RegisterFile) (index : RegisterIndex) (value : UInt32) : RegisterFile :=
  ⟨f.words.set index value⟩

@[simp] theorem get_zero (index : RegisterIndex) : zero.get index = 0 := by
  simp [get, zero]

/-- **A store changes one word.** -/
theorem get_set (f : RegisterFile) (i j : RegisterIndex) (value : UInt32) :
    (f.set i value).get j = if j = i then value else f.get j := by
  simp only [get, set, Fin.getElem_fin, Vector.getElem_set, Fin.ext_iff, eq_comm]

@[simp] theorem get_set_self (f : RegisterFile) (i : RegisterIndex) (value : UInt32) :
    (f.set i value).get i = value := by
  rw [get_set, if_pos rfl]

theorem get_set_of_ne (f : RegisterFile) {i j : RegisterIndex} (h : j ≠ i) (value : UInt32) :
    (f.set i value).get j = f.get j := by
  rw [get_set, if_neg h]

end RegisterFile

end PacketDma
