/-
**Accesses are never stuck.**

Between the bus and the transfers lie the register map, the address table and the lanes.  An offset
is divided by the width of its access, the number of a channel and the lane of a register are
differences of offsets, a lane is shifted into its place, and words of the address table are indexed.
All of it is inside its domain because the offset has been tested against the window before, and the
selected entry against the table.

Main definitions:

* `PacketDma.Register.checkedOfIndex`, `PacketDma.BusTarget.checkedDecode` — what an access addresses,
  as the machine finds it;
* `PacketDma.System.checkedStore` — a write of a register as the machine does it;
* `PacketDma.System.checkedBusRead`, `PacketDma.System.checkedBusWrite` — bus accesses as the machine
  does them.

Main results:

* `PacketDma.Register.checkedOfIndex_eq` — every channel register belongs to one of the channels;
* `PacketDma.System.checkedStore_eq` — no write of a register is stuck;
* `PacketDma.System.checkedBusRead_eq`, `PacketDma.System.checkedBusWrite_eq` — **no bus access is
  stuck**, whatever its offset and its size.
-/

import PacketDma.Proofs.CheckedTransfers

set_option autoImplicit false

namespace PacketDma

open Machine

/-! ### The address table -/

namespace AddressTable

variable (t : AddressTable) (slot : Nat)

/-- The read of a word of the selected entry as the machine does it. -/
def checkedRead : Option UInt32 :=
  if t.index.toNat < 1024 ∧ slot < 3 then do
    let entry ← t.entries[t.index.toNat]?
    entry[slot]?
  else some 0

/-- The write of a word of the selected entry as the machine does it. -/
def checkedWrite (value : UInt32) : Option AddressTable :=
  if t.index.toNat < 1024 ∧ slot < 3 then do
    let entry ← t.entries[t.index.toNat]?
    let written ← replaceAt entry slot value
    let entries ← replaceAt t.entries t.index.toNat written
    return { t with entries }
  else some t

theorem checkedRead_eq : t.checkedRead slot = some (t.read slot) := by
  unfold checkedRead read word
  split
  · next h => simp [h.1, h.2]
  · rfl

theorem checkedWrite_eq (value : UInt32) :
    t.checkedWrite slot value = some (t.write slot value) := by
  unfold checkedWrite write
  split
  · next h => simp [h.1, h.2, replaceAt]
  · rfl

end AddressTable

/-! ### The register map -/

namespace Register

/-- The register of the channel pointers at a byte offset, as the machine finds it. -/
def checkedOfPointerOffset (offset : Nat) : Option Register := do
  let channel ← channelIndex (offset % 0x20 / 4)
  return match offset / 0x20 with
    | 0 => .transmitHead channel
    | 1 => .receiveHead channel
    | 2 => .transmitCompletion channel
    | _ => .receiveCompletion channel

/-- What the register at a position does, as the machine finds it. -/
def checkedOfIndex (index : RegisterIndex) : Option Register :=
  if 0xA00 ≤ 4 * index.val ∧ 4 * index.val < 0xA80 then do
    let offset ← sub (4 * index.val) 0xA00
    checkedOfPointerOffset offset
  else some (ofIndex index)

/-- The position of the register at a byte offset. -/
def position (offset : Nat) (h : offset < windowSize) : RegisterIndex :=
  ⟨offset / 4, Nat.div_lt_of_lt_mul h⟩

/-- What the register at a byte offset does, as the machine finds it. -/
def checkedDecode (offset : UInt32) : Option (Option Register) :=
  if h : offset.toNat % 4 = 0 ∧ offset.toNat < windowSize then do
    let register ← checkedOfIndex (position offset.toNat h.2)
    return some register
  else some none

theorem checkedOfPointerOffset_eq (offset : Nat) :
    checkedOfPointerOffset offset = some (ofPointerOffset offset) := by
  rw [checkedOfPointerOffset, channelIndex_val ⟨offset % 0x20 / 4, by omega⟩]
  rfl

/-- **Every channel register belongs to one of the channels.** -/
theorem checkedOfIndex_eq (index : RegisterIndex) :
    checkedOfIndex index = some (ofIndex index) := by
  unfold checkedOfIndex
  split
  · next h =>
      rw [bind_of_some (sub_of_le h.1), checkedOfPointerOffset_eq, ofIndex, if_pos h]
  · rfl

theorem checkedDecode_eq (offset : UInt32) : checkedDecode offset = some (decode offset) := by
  unfold checkedDecode decode
  split
  · rw [checkedOfIndex_eq]
    rfl
  · rfl

end Register

/-! ### What the bus addresses -/

namespace BusTarget

/-- What an access addresses, as the machine finds it: the lane of a register is what the offset is
ahead of that of the register. -/
def checkedDecode (offset : UInt64) (width : AccessWidth) : Option (Option BusTarget) := do
  let rest ← mod offset.toNat width.bytes
  if rest ≠ 0 ∨ windowSize ≤ offset.toNat then return none
  else if h : offset.toNat < Register.windowSize then
    let lane ← sub offset.toNat (4 * (offset.toNat / 4))
    let register ← Register.checkedOfIndex (Register.position offset.toNat h)
    return some (.register register lane)
  else
    let inner ← sub offset.toNat Register.windowSize
    return some (.ram (UInt64.ofNat inner))

theorem checkedDecode_eq (offset : UInt64) (width : AccessWidth) :
    checkedDecode offset width = some (decode offset width) := by
  have hwidth : width.bytes ≠ 0 := by cases width <;> decide
  unfold checkedDecode decode
  rw [mod, bind_of_some (within_of hwidth _)]
  split
  · rfl
  · split
    · rw [sub_of_le (Nat.mul_div_le ..), Register.checkedOfIndex_eq, ← Nat.mod_eq_sub]
      rfl
    · next hregister =>
        have hoffset : UInt64.ofNat (offset.toNat - Register.windowSize) =
            offset - UInt64.ofNat Register.windowSize := by
          rw [UInt64.ofNat_sub (Nat.le_of_not_lt hregister), UInt64.ofNat_toNat]
        rw [sub_of_le (Nat.le_of_not_lt hregister), ← hoffset]
        rfl

/-- A register has four lanes. -/
theorem lane_lt {offset : UInt64} {width : AccessWidth} {register : Register} {lane : Nat}
    (h : decode offset width = some (.register register lane)) : lane < 4 := by
  unfold decode at h
  split at h
  · cases h
  · split at h
    · cases h
      exact Nat.mod_lt _ (by decide)
    · cases h

end BusTarget

/-! ### Reads -/

namespace Engine

/-- The value of a register as the machine finds it. -/
def checkedLoad (e : Engine) : Register → Checked DmaFault UInt32
  | .tableWord slot => liftM (e.table.checkedRead slot)
  | register => .total (e.load register)

/-- The value of the register at a byte offset, as the machine finds it. -/
def checkedReadRegister (e : Engine) (offset : UInt32) : Checked DmaFault UInt32 := do
  match ← (Register.checkedDecode offset : Option (Option Register)) with
  | some register => e.checkedLoad register
  | none => throw (noRegister offset)

/-- The lane of a register as the machine cuts it out. -/
def checkedLoadLane (e : Engine) (register : Register) (lane : Nat) (width : AccessWidth) :
    Option UInt64 := do
  let value ← (e.checkedLoad register).run
  let bits ← mulWord lane 8
  let moved ← shiftRight (value.toOption.getD 0).toUInt64 bits
  return moved &&& width.mask

/-- Bytes of descriptor RAM as the machine reads them, into a part of a word. -/
def checkedLoadRam (e : Engine) (offset : UInt64) (width : AccessWidth) : Option UInt64 := do
  let room ← slice (List.replicate 4 (0 : UInt8)) 0 width.bytes
  match ← (e.ram.store.checkedRead offset room.length).run with
  | .ok bytes => return UInt64.ofNat (LittleEndian.decode bytes)
  | .error _ => return width.mask

/-- Bytes of descriptor RAM as the machine writes them, out of a part of a word. -/
def checkedStoreRam [Allocator] (e : Engine) (offset : UInt64) (width : AccessWidth)
    (value : UInt64) : Option Engine := do
  let bytes ← slice (LittleEndian.encode 4 value.toNat) 0 width.bytes
  match ← (e.ram.store.checkedWrite offset bytes).run with
  | .ok store => return { e with ram := { e.ram with store } }
  | .error _ => return e

variable {e : Engine}

theorem checkedLoad_eq (register : Register) : e.checkedLoad register = .total (e.load register) := by
  cases register with
  | tableWord slot =>
      rw [checkedLoad, e.table.checkedRead_eq]
      rfl
  | _ => rfl

/-- **No read of a register is stuck.** -/
theorem checkedReadRegister_eq (offset : UInt32) :
    e.checkedReadRegister offset = .total (e.readRegister offset) := by
  rw [checkedReadRegister, Checked.bind_some (Register.checkedDecode_eq offset), readRegister]
  cases Register.decode offset with
  | some register => exact e.checkedLoad_eq register
  | none => rfl

theorem mulWord_lane {lane : Nat} (h : lane < 4) : mulWord lane 8 = some (8 * lane) := by
  rw [mulWord, within_of (Nat.lt_of_lt_of_le (by omega : lane * 8 < 32) (by decide)),
    Nat.mul_comm]

theorem checkedLoadLane_eq {register : Register} {lane : Nat} (h : lane < 4)
    (width : AccessWidth) :
    e.checkedLoadLane register lane width = some (e.loadLane register lane width) := by
  simp only [checkedLoadLane, checkedLoad_eq, Checked.run_total, Option.bind_eq_bind,
    Option.bind_some, mulWord_lane h, shiftRight, within_of (show 8 * lane < 64 by omega)]
  rfl

theorem slice_word {α : Type} {word : List α} (h : word.length = 4) (width : AccessWidth) :
    slice word 0 width.bytes = some (word.take width.bytes) := by
  rw [slice_of_le (Nat.zero_le _) (by cases width <;> simp [h, AccessWidth.bytes])]
  rfl

theorem checkedLoadRam_eq (h : e.ram.store.Addressable) (offset : UInt64) (width : AccessWidth) :
    e.checkedLoadRam offset width = some (e.loadRam offset width) := by
  have hroom : ((List.replicate 4 (0 : UInt8)).take width.bytes).length = width.bytes := by
    cases width <;> rfl
  simp only [checkedLoadRam, slice_word List.length_replicate, Option.bind_eq_bind,
    Option.bind_some, hroom, Memory.checkedRead_eq h, Checked.run_total, loadRam]
  cases e.ram.store.read offset width.bytes <;> rfl

theorem checkedStoreRam_eq [Allocator] (h : e.ram.store.Writable) (offset : UInt64)
    (width : AccessWidth) (value : UInt64) :
    e.checkedStoreRam offset width value =
      some (e.storeRam offset (LittleEndian.encode width.bytes value.toNat)) := by
  have hbytes : (LittleEndian.encode 4 value.toNat).take width.bytes =
      LittleEndian.encode width.bytes value.toNat := by
    cases width <;> rfl
  simp only [checkedStoreRam, slice_word (LittleEndian.length_encode ..), Option.bind_eq_bind,
    Option.bind_some, hbytes, Memory.checkedWrite_eq h, Checked.run_total, storeRam]
  cases e.ram.store.write offset (LittleEndian.encode width.bytes value.toNat) <;> rfl

end Engine

/-! ### Writes, and the bus -/

namespace System

/-- A write of a register as the machine does it. -/
def checkedStore [Allocator] (s : System) (value : UInt32) :
    Register → Option (Option DmaFault × System)
  | .transmitHead channel =>
      let armed := s.mapEngine (·.setTransmitHead channel value)
      if value = 0 then some (none, armed) else armed.checkedTransmit channel
  | .receiveHead channel => (s.mapEngine (·.armReceive channel value)).checkedDrain
  | .receiveControl =>
      let enabled := s.mapEngine (·.controlReceive value)
      if value &&& 1 = 0 then some (none, enabled) else enabled.checkedDrain
  | .tableWord slot => do
      let table ← s.engine.table.checkedWrite slot value
      return (none, s.mapEngine ({ · with table }))
  | register => some (s.store value register)

/-- A write of the register at a byte offset, as the machine does it. -/
def checkedWriteRegister [Allocator] (s : System) (offset value : UInt32) :
    Option (Option DmaFault × System) := do
  match ← Register.checkedDecode offset with
  | some register => s.checkedStore value register
  | none => return (some (noRegister offset), s)

/-- A bus read as the machine does it. -/
def checkedBusRead [Allocator] (s : System) (offset : UInt64) (size : Nat) :
    Option (UInt64 × System) :=
  match AccessWidth.ofSize? size with
  | none => some (0xFFFFFFFFFFFFFFFF, s)
  | some width => do
      match ← BusTarget.checkedDecode offset width with
      | none => return (width.mask, s)
      | some (.register register lane) =>
          return (← s.engine.checkedLoadLane register lane width, s)
      | some (.ram offset) =>
          let (_, polled) ← s.checkedPoll
          return (← polled.engine.checkedLoadRam offset width, polled)

/-- A bus write as the machine does it. -/
def checkedBusWrite [Allocator] (s : System) (offset : UInt64) (size : Nat)
    (value : UInt64) : Option System :=
  match AccessWidth.ofSize? size with
  | none => some s
  | some width => do
      match ← BusTarget.checkedDecode offset width with
      | none => return s
      | some (.register register lane) =>
          let bits ← mulWord lane 8
          let word ← shiftLeft (value &&& width.mask).toUInt32 bits
          let (_, written) ← s.checkedStore word register
          return written
      | some (.ram offset) =>
          s.checkedMapEngine (·.checkedStoreRam offset width value)

variable [Allocator] {s : System} (h : s.Native)

include h

/-- **No write of a register is stuck**, as long as the counters fit afterwards. -/
theorem checkedStore_eq {value : UInt32} {register : Register}
    (hfits : (s.store value register).2.engine.stats.Fits) :
    s.checkedStore value register = some (s.store value register) := by
  cases register with
  | transmitHead channel =>
      simp only [checkedStore, store] at hfits ⊢
      split
      · rfl
      · next hvalue =>
          rw [if_neg hvalue] at hfits
          exact checkedTransmit_eq h.memory h.ram hfits
  | receiveHead channel =>
      have harmed : (s.mapEngine (·.armReceive channel value)).Native := { h with }
      exact checkedDrain_eq harmed hfits
  | receiveControl =>
      have henabled : (s.mapEngine (·.controlReceive value)).Native := { h with }
      simp only [checkedStore, store] at hfits ⊢
      split
      · rfl
      · next hvalue =>
          rw [if_neg hvalue] at hfits
          exact checkedDrain_eq henabled hfits
  | tableWord slot =>
      rw [checkedStore, s.engine.table.checkedWrite_eq]
      rfl
  | _ => rfl

theorem checkedWriteRegister_eq {offset value : UInt32}
    (hfits : (s.writeRegister offset value).2.engine.stats.Fits) :
    s.checkedWriteRegister offset value = some (s.writeRegister offset value) := by
  unfold checkedWriteRegister
  unfold writeRegister at hfits ⊢
  rw [bind_of_some (Register.checkedDecode_eq offset)]
  cases hdecode : Register.decode offset with
  | some register =>
      rw [hdecode] at hfits
      exact checkedStore_eq h hfits
  | none => rfl

/-- **No bus read is stuck**, whatever its offset and its size, as long as the counters fit
afterwards. -/
theorem checkedBusRead_eq {offset : UInt64} {size : Nat}
    (hfits : (s.busRead offset size).2.engine.stats.Fits) :
    s.checkedBusRead offset size = some (s.busRead offset size) := by
  unfold checkedBusRead
  unfold busRead at hfits ⊢
  cases hsize : AccessWidth.ofSize? size with
  | none => rfl
  | some width =>
      rw [hsize] at hfits
      dsimp only at hfits ⊢
      rw [bind_of_some (BusTarget.checkedDecode_eq offset width)]
      cases hdecode : BusTarget.decode offset width with
      | none => rfl
      | some target =>
          rw [hdecode] at hfits
          cases target with
          | register register lane =>
              dsimp only
              rw [Engine.checkedLoadLane_eq (BusTarget.lane_lt hdecode)]
              rfl
          | ram inner =>
              have hram : s.poll.2.engine.ram.store.Addressable := h.drain.ram.addressable
              dsimp only
              rw [bind_of_some (checkedPoll_eq h hfits), Engine.checkedLoadRam_eq hram]
              rfl

/-- **No bus write is stuck**, whatever its offset, its size and its value, as long as the counters
fit afterwards. -/
theorem checkedBusWrite_eq {offset : UInt64} {size : Nat} {value : UInt64}
    (hfits : (s.busWrite offset size value).engine.stats.Fits) :
    s.checkedBusWrite offset size value = some (s.busWrite offset size value) := by
  unfold checkedBusWrite
  unfold busWrite at hfits ⊢
  cases hsize : AccessWidth.ofSize? size with
  | none => rfl
  | some width =>
      rw [hsize] at hfits
      dsimp only at hfits ⊢
      rw [bind_of_some (BusTarget.checkedDecode_eq offset width)]
      cases hdecode : BusTarget.decode offset width with
      | none => rfl
      | some target =>
          rw [hdecode] at hfits
          cases target with
          | register register lane =>
              have hlane := BusTarget.lane_lt hdecode
              dsimp only
              simp only [Engine.mulWord_lane hlane, Option.bind_eq_bind, Option.bind_some,
                shiftLeft, within_of (show 8 * lane < 32 by omega), checkedStore_eq h hfits]
              rfl
          | ram inner => exact checkedMapEngine_eq (Engine.checkedStoreRam_eq h.ram.writable ..)

end System

end PacketDma
