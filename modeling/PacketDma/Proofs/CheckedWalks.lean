/-
**The walks over descriptors are never stuck.**

Both walks subtract what has been placed or gathered so far from the length of the frame, and add the
part of the next descriptor to it.  A part never exceeds what is missing, so the sum stays below the
length and the difference stays positive: this is the invariant of both loops.  Addresses come from
words of 32 bits and have room for every offset that is added to them.

Main definitions:

* `PacketDma.Memory.Contiguous` — memories of the kind that descriptor RAM is;
* `PacketDma.ReceiveDescriptor.checkedEncode`, `PacketDma.TransmitDescriptor.checkedEncode` — writing
  descriptors back as the machine does it;
* `PacketDma.checkedPlanFrom`, `PacketDma.checkedGatherFrom` — the walks as the machine does them.

Main results:

* `PacketDma.ReceiveDescriptor.checkedEncode_eq` — two writes of a word are one write of two words;
* `PacketDma.checkedPlanFrom_eq`, `PacketDma.checkedGatherFrom_eq` — **no walk is stuck**.
-/

import PacketDma.Memory.Checked
import PacketDma.Proofs.FillWalk
import PacketDma.Proofs.GatherWalk

set_option autoImplicit false

namespace PacketDma

open Machine

/-! ### Descriptor RAM -/

/-- The memory is kept contiguously. -/
def Memory.Contiguous (m : Memory) : Prop := ∃ store, m = .dense store

theorem Memory.Contiguous.addressable {m : Memory} (h : m.Contiguous) : m.Addressable := by
  obtain ⟨store, rfl⟩ := h
  exact trivial

/-- A contiguous memory is never allocated again, so a machine that has it can write to it. -/
theorem Memory.Contiguous.writable [Allocator] {m : Memory} (h : m.Contiguous) : m.Writable := by
  obtain ⟨store, rfl⟩ := h
  exact trivial

/-- How a memory is kept shows in its shape. -/
theorem Memory.Contiguous.of_shape {m n : Memory} (h : m.Contiguous) (hshape : n.shape = m.shape) :
    n.Contiguous := by
  obtain ⟨store, rfl⟩ := h
  cases n with
  | dense other => exact ⟨other, rfl⟩
  | sparse other => cases hshape

/-- A string may be stored in two pieces. -/
theorem Block.store_append {n : Nat} (b : Block n) (start : Nat) (first second : List UInt8) :
    b.store start (first ++ second) =
      (b.store start first).store (start + first.length) second := by
  induction first generalizing b start with
  | nil => rfl
  | cons byte rest ih =>
      rw [List.cons_append, store_cons, ih, store_cons, List.length_cons, Nat.add_right_comm,
        Nat.add_assoc]

/-- A write to contiguous memory inside an aperture stores the bytes at their offset. -/
theorem Aperture.write_dense {base : UInt64} {store : Dense} {address : UInt64} {bytes : List UInt8}
    (h : (Aperture.mk base (.dense store)).Covers address bytes.length) :
    (Aperture.mk base (.dense store)).write address bytes =
      .ok ⟨base, .dense (store.store (address.toNat - base.toNat) bytes)⟩ := by
  obtain ⟨hbase, hrange⟩ := Aperture.covers_iff.1 h
  rw [Aperture.write_of_covers h, ← UInt64.toNat_sub_of_le _ _ hbase]
  show ((store.write (address - base) bytes).map Memory.dense).map _ = _
  rw [Dense.write_of_inRange hrange]
  rfl

/-- **A string that fits may be written in two pieces.** -/
theorem Aperture.write_append {a : Aperture} (hcontiguous : a.store.Contiguous)
    {address next : UInt64} {first second : List UInt8}
    (hnext : next.toNat = address.toNat + first.length)
    (hcovers : a.Covers address (first.length + second.length)) :
    a.write address (first ++ second) = a.write address first >>= (·.write next second) := by
  obtain ⟨base, memory⟩ := a
  obtain ⟨store, rfl⟩ := hcontiguous
  obtain ⟨hbase, hend⟩ := hcovers
  change base.toNat ≤ _ at hbase
  change _ ≤ base.toNat + store.size.toNat at hend
  have hboth : (Aperture.mk base (.dense store)).Covers address (first ++ second).length :=
    ⟨hbase, by rw [List.length_append]; exact hend⟩
  have hfirst : (Aperture.mk base (.dense store)).Covers address first.length :=
    ⟨hbase, Nat.le_trans (Nat.add_le_add_left (Nat.le_add_right ..) _) hend⟩
  have hsecond : (Aperture.mk base
      (.dense (store.store (address.toNat - base.toNat) first))).Covers next second.length :=
    ⟨Nat.le_trans hbase (hnext ▸ Nat.le_add_right ..), by rw [hnext, Nat.add_assoc]; exact hend⟩
  rw [write_dense hboth, write_dense hfirst]
  show _ = (Aperture.mk base _).write next second
  have hoffset : next.toNat - base.toNat = address.toNat - base.toNat + first.length := by omega
  rw [write_dense hsecond, hoffset]
  show Except.ok (Aperture.mk base (.dense { store with block := _ })) = _
  rw [store.block.store_append]
  rfl

/-! ### Descriptors -/

namespace ReceiveDescriptor

/-- The address of the first byte of data as the machine computes it. -/
def checkedDataAddress (d : ReceiveDescriptor) : Option UInt64 :=
  addAddress d.bufferPointer.toUInt64 d.bufferOffset.toUInt64

/-- The descriptor at a bus address as the machine reads it. -/
def checkedDecode (ram : Aperture) (address : UInt32) : Checked DmaFault ReceiveDescriptor := do
  let bytes ← Checked.liftMemory (ram.checkedRead address.toUInt64 Slot.length)
  return ofSlot address (Slot.ofBytes bytes)

/-- The third and fourth words as the machine writes them, one after the other. -/
def checkedReport [Allocator] (d : ReceiveDescriptor) (ram : Aperture) :
    Checked MemoryFault Aperture := do
  let third ← addAddress d.address.toUInt64 8
  let ram ← ram.checkedWriteUInt32 third d.extentWord
  let fourth ← addAddress d.address.toUInt64 12
  ram.checkedWriteUInt32 fourth d.statusWord

/-- The descriptor as the machine writes it back, once its slot has been tested. -/
def checkedEncode [Allocator] (d : ReceiveDescriptor) (ram : Aperture) : Checked DmaFault Aperture :=
  Checked.liftMemory do
    let _ ← ram.translate d.address.toUInt64 Slot.length
    d.checkedReport ram

end ReceiveDescriptor

namespace TransmitDescriptor

/-- The address of the first byte of data as the machine computes it. -/
def checkedDataAddress (d : TransmitDescriptor) : Option UInt64 :=
  addAddress d.bufferPointer.toUInt64 d.bufferOffset.toUInt64

/-- The descriptor at a bus address as the machine reads it. -/
def checkedDecode (ram : Aperture) (address : UInt32) : Checked DmaFault TransmitDescriptor := do
  let bytes ← Checked.liftMemory (ram.checkedRead address.toUInt64 Slot.length)
  return ofSlot address (Slot.ofBytes bytes)

/-- The fourth word as the machine writes it back. -/
def checkedEncode [Allocator] (d : TransmitDescriptor) (ram : Aperture) : Checked DmaFault Aperture :=
  Checked.liftMemory do
    let fourth ← addAddress d.address.toUInt64 12
    ram.checkedWriteUInt32 fourth d.statusWord

end TransmitDescriptor

/-- A bus address has room for the offset of a word in its slot. -/
theorem addAddress_slot (address : UInt32) {k : Nat} (hk : k < 16) :
    addAddress address.toUInt64 (UInt64.ofNat k) = some (address.toUInt64 + UInt64.ofNat k) := by
  have hlt := address.toNat_lt
  have hsize : UInt64.size = 18446744073709551616 := rfl
  refine addAddress_of_lt ?_
  rw [UInt32.toNat_toUInt64, UInt64.toNat_ofNat']
  omega

theorem addAddress_buffer (pointer : UInt32) (offset : UInt16) :
    addAddress pointer.toUInt64 offset.toUInt64 = some (pointer.toUInt64 + offset.toUInt64) := by
  have hpointer := pointer.toNat_lt
  have hoffset := offset.toNat_lt
  have hsize : UInt64.size = 18446744073709551616 := rfl
  refine addAddress_of_lt ?_
  rw [UInt32.toNat_toUInt64, UInt16.toNat_toUInt64]
  omega

/-- A buffer pointer has room for the offset of the data. -/
theorem ReceiveDescriptor.checkedDataAddress_eq (d : ReceiveDescriptor) :
    d.checkedDataAddress = some d.dataAddress :=
  addAddress_buffer d.bufferPointer d.bufferOffset

theorem TransmitDescriptor.checkedDataAddress_eq (d : TransmitDescriptor) :
    d.checkedDataAddress = some d.dataAddress :=
  addAddress_buffer d.bufferPointer d.bufferOffset

section Descriptors

variable {ram : Aperture}

theorem ReceiveDescriptor.checkedDecode_eq (h : ram.store.Addressable) (address : UInt32) :
    checkedDecode ram address = .total (decode ram address) := by
  rw [checkedDecode, Aperture.checkedRead_eq h, decode, Aperture.readSlot]
  cases ram.read address.toUInt64 Slot.length <;> rfl

theorem TransmitDescriptor.checkedDecode_eq (h : ram.store.Addressable) (address : UInt32) :
    checkedDecode ram address = .total (decode ram address) := by
  rw [checkedDecode, Aperture.checkedRead_eq h, decode, Aperture.readSlot]
  cases ram.read address.toUInt64 Slot.length <;> rfl

theorem TransmitDescriptor.checkedEncode_eq [Allocator] (h : ram.store.Writable)
    (d : TransmitDescriptor) :
    d.checkedEncode ram = .total (d.encode ram) := by
  have hfourth : addAddress d.address.toUInt64 12 = some (d.address.toUInt64 + 12) :=
    addAddress_slot d.address (k := 12) (by decide)
  rw [checkedEncode, Checked.bind_some hfourth, Aperture.checkedWriteUInt32_eq h]
  rfl

/-- Two writes of a word are one write of two words. -/
theorem ReceiveDescriptor.checkedReport_eq [Allocator] (h : ram.store.Contiguous)
    {d : ReceiveDescriptor} (hcovers : ram.CoversSlot d.address) :
    d.checkedReport ram =
      .total (ram.write (d.address.toUInt64 + 8)
        (Slot.bytesOf d.extentWord ++ Slot.bytesOf d.statusWord)) := by
  have hthird : addAddress d.address.toUInt64 8 = some (d.address.toUInt64 + 8) :=
    addAddress_slot d.address (k := 8) (by decide)
  have hfourth : addAddress d.address.toUInt64 12 = some (d.address.toUInt64 + 12) :=
    addAddress_slot d.address (k := 12) (by decide)
  have htoNat : (d.address.toUInt64 + 8).toNat = d.address.toNat + 8 :=
    toNat_slot_add d.address (k := 8) (by decide)
  have hnext : (d.address.toUInt64 + 12).toNat =
      (d.address.toUInt64 + 8).toNat + (Slot.bytesOf d.extentWord).length := by
    rw [Slot.length_bytesOf, htoNat]
    exact toNat_slot_add d.address (k := 12) (by decide)
  have hreport : ram.Covers (d.address.toUInt64 + 8)
      ((Slot.bytesOf d.extentWord).length + (Slot.bytesOf d.statusWord).length) := by
    obtain ⟨hbase, hend⟩ := hcovers
    have hlength : Slot.length = 16 := rfl
    rw [Slot.length_bytesOf, Slot.length_bytesOf]
    rw [UInt32.toNat_toUInt64] at hbase hend
    exact ⟨by omega, by omega⟩
  rw [checkedReport, Checked.bind_some hthird, Aperture.checkedWriteUInt32_eq h.writable,
    Aperture.write_append h hnext hreport]
  refine Checked.total_bind fun written hwritten => ?_
  rw [Checked.bind_some hfourth]
  exact Aperture.checkedWriteUInt32_eq (Aperture.writable_of_write h.writable hwritten) _ _

/-- **Descriptors are written back without getting stuck.** -/
theorem ReceiveDescriptor.checkedEncode_eq [Allocator] (h : ram.store.Contiguous)
    (d : ReceiveDescriptor) :
    d.checkedEncode ram = .total (d.encode ram) := by
  refine congrArg Checked.liftMemory (Checked.total_bind fun offset hslot => ?_)
  refine checkedReport_eq h (by_contra fun hcovers => ?_)
  rw [Aperture.translate_of_not hcovers] at hslot
  cases hslot

end Descriptors

/-! ### The walk over a receive ring -/

/-- The part of a frame of `length` bytes, of which `placed` bytes have been placed, that the
descriptor at `address` takes, as the machine computes it. -/
def checkedSegmentAt (ram : Aperture) (memory : Memory) (channel : Nat) (address : UInt32)
    (length placed : Nat) : Checked DmaFault Segment := do
  let descriptor ← ReceiveDescriptor.checkedDecode ram address
  if descriptor.isOwned then
    let missing ← sub length placed
    let taken := min descriptor.bufferLength.toNat missing
    let data ← descriptor.checkedDataAddress
    liftMemory (memory.check data taken)
    return { descriptor, offset := placed, length := taken }
  else throw (.overrun channel address)

/-- The walk for a frame of `length` bytes, of which `placed` bytes have been placed, as the machine
does it. -/
def checkedPlanFrom (ram : Aperture) (memory : Memory) (channel : Nat) (head : UInt32)
    (length : Nat) :
    (budget : Nat) → (visited : List UInt32) → (address : UInt32) → (placed : Nat) →
    Checked DmaFault FillPlan
  | 0, _, _, _ => throw (.ringExhausted channel)
  | budget + 1, visited, address, placed =>
      if address ∈ visited then throw (.ringExhausted channel)
      else do
        let segment ← checkedSegmentAt ram memory channel address length placed
        let placed ← add placed segment.length
        let next := nextDescriptor segment.descriptor.next head
        if placed = length then return ⟨segment, [], next⟩
        else
          match next with
          | none => throw (.ringExhausted channel)
          | some following => do
              let plan ← checkedPlanFrom ram memory channel head length budget
                (address :: visited) following placed
              return ⟨segment, plan.segments, plan.next⟩

section Fill

variable {ram : Aperture} {memory : Memory} {channel : Nat} {head : UInt32} {length : Nat}

theorem checkedSegmentAt_eq (hram : ram.store.Addressable) (address : UInt32) {placed : Nat}
    (h : placed ≤ length) :
    checkedSegmentAt ram memory channel address length placed =
      .total (segmentAt ram memory channel address placed (length - placed)) := by
  rw [checkedSegmentAt, ReceiveDescriptor.checkedDecode_eq hram]
  refine Checked.total_bind fun descriptor _ => ?_
  split
  · rw [Checked.bind_some (sub_of_le h)]
    dsimp only
    rw [Checked.bind_some descriptor.checkedDataAddress_eq]
    exact Checked.total_bind fun _ _ => rfl
  · rfl

/-- **The walk over a receive ring is never stuck**: no more is placed than the frame has. -/
theorem checkedPlanFrom_eq (hram : ram.store.Addressable) (hlength : length < UInt64.size)
    (budget : Nat) (visited : List UInt32) (address : UInt32) {placed : Nat} (h : placed ≤ length) :
    checkedPlanFrom ram memory channel head length budget visited address placed =
      .total (planFrom ram memory channel head budget visited address placed
        (length - placed)) := by
  induction budget generalizing visited address placed with
  | zero => rfl
  | succ budget ih =>
      rw [checkedPlanFrom, planFrom]
      by_cases hvisited : address ∈ visited
      · rw [if_pos hvisited, if_pos hvisited]
        rfl
      · rw [if_neg hvisited, if_neg hvisited, checkedSegmentAt_eq hram address h]
        refine Checked.total_bind fun segment hsegment => ?_
        have hle := (segmentAt_eq_ok_iff.1 hsegment).length_le
        rw [Checked.bind_some (add_of_lt (by omega))]
        by_cases hlast : segment.length = length - placed
        · rw [if_pos (by omega), if_pos hlast]
          rfl
        · rw [if_neg (by omega), if_neg hlast]
          cases nextDescriptor segment.descriptor.next head with
          | none => rfl
          | some following =>
              have hrest : checkedPlanFrom ram memory channel head length budget
                  (address :: visited) following (placed + segment.length) =
                .total (planFrom ram memory channel head budget (address :: visited) following
                  (placed + segment.length) (length - (placed + segment.length))) :=
                ih (address :: visited) following (by omega)
              rw [Nat.sub_sub]
              simp only [hrest]
              exact Checked.total_bind fun _ _ => rfl

end Fill

/-! ### The walk over a transmit chain -/

/-- The descriptor at `address`, which has to belong to the engine, as the machine reads it. -/
def checkedOwnedAt (ram : Aperture) (channel : Nat) (address : UInt32) :
    Checked DmaFault TransmitDescriptor := do
  let descriptor ← TransmitDescriptor.checkedDecode ram address
  if descriptor.isOwned then return descriptor
  else throw (.chain channel (.notOwned address))

/-- A step of the walk for a packet of `length` bytes, of which `gathered` bytes have been gathered,
as the machine does it.  The buffer of the frame grows by what the descriptor gives, and its new part
is filled from memory.  Unless the packet is complete, the step leads to the next descriptor, with
the number of bytes gathered by then. -/
def checkedGatherStep (memory : Memory) (channel : Nat) (head : UInt32) (length : Nat)
    (visited : List UInt32) (descriptor : TransmitDescriptor) (gathered : Nat) :
    Checked DmaFault (List UInt8 × Option (UInt32 × Nat)) := do
  let room ← sub length gathered
  let stop ← add gathered (min descriptor.bufferLength.toNat room)
  let part ← sub stop gathered
  let data ← descriptor.checkedDataAddress
  let bytes ← Checked.liftMemory (memory.checkedRead data part)
  if stop = length then return (bytes, none)
  else
    let missing ← sub length stop
    match nextDescriptor descriptor.next head with
    | none => throw (.chain channel (.truncated missing))
    | some following =>
        if following ∈ visited then throw (.chain channel (.truncated missing))
        else return (bytes, some (following, stop))

/-- The walk for a packet of `length` bytes, of which `gathered` bytes have been gathered, as the
machine does it. -/
def checkedGatherFrom (ram : Aperture) (memory : Memory) (channel : Nat) (head : UInt32)
    (limit length : Nat) :
    (budget : Nat) → (visited : List UInt32) → TransmitDescriptor → (gathered : Nat) →
    Checked DmaFault Gathered
  | 0, visited, descriptor, gathered => do
      match ← checkedGatherStep memory channel head length visited descriptor gathered with
      | (bytes, none) => return ⟨descriptor, [], bytes⟩
      | (_, some _) => throw (.chain channel (.walkLimit limit))
  | budget + 1, visited, descriptor, gathered => do
      match ← checkedGatherStep memory channel head length visited descriptor gathered with
      | (bytes, none) => return ⟨descriptor, [], bytes⟩
      | (bytes, some (following, gathered)) => do
          let successor ← checkedOwnedAt ram channel following
          let tail ← checkedGatherFrom ram memory channel head limit length budget
            (following :: visited) successor gathered
          return ⟨descriptor, tail.descriptors, bytes ++ tail.frame⟩

/-- The frame of a chain as the machine gathers it. -/
def checkedGather (ram : Aperture) (memory : Memory) (channel : Nat) (head : UInt32)
    (limit : Nat) : Checked DmaFault Gathered := do
  let first ← checkedOwnedAt ram channel head
  if first.packetLength = 0 then throw (.chain channel .emptyPacket)
  else
    checkedGatherFrom ram memory channel head limit first.packetLength.toNat (limit - 1) [head]
      first 0

section Gather

variable {ram : Aperture} {memory : Memory} {channel : Nat} {head : UInt32} {limit length : Nat}

theorem checkedOwnedAt_eq (hram : ram.store.Addressable) (address : UInt32) :
    checkedOwnedAt ram channel address = .total (ownedAt ram channel address) := by
  rw [checkedOwnedAt, TransmitDescriptor.checkedDecode_eq hram]
  refine Checked.total_bind fun descriptor _ => ?_
  split <;> rfl

/-- **A step of the walk is not stuck**: no more is gathered than the packet has. -/
theorem checkedGatherStep_eq (hmemory : memory.Addressable) (hlength : length < UInt64.size)
    (visited : List UInt32) (descriptor : TransmitDescriptor) {gathered taken : Nat}
    (h : gathered ≤ length) (htaken : min descriptor.bufferLength.toNat (length - gathered) = taken) :
    checkedGatherStep memory channel head length visited descriptor gathered =
      .total (do
        let bytes ← liftMemory (memory.read descriptor.dataAddress taken)
        if taken = length - gathered then return (bytes, none)
        else
          match nextDescriptor descriptor.next head with
          | none => .error (.chain channel (.truncated (length - gathered - taken)))
          | some following =>
              if following ∈ visited then
                .error (.chain channel (.truncated (length - gathered - taken)))
              else return (bytes, some (following, gathered + taken))) := by
  have hle : taken ≤ length - gathered := htaken ▸ Nat.min_le_right ..
  rw [checkedGatherStep, Checked.bind_some (sub_of_le h), htaken,
    Checked.bind_some (add_of_lt (by omega)), Checked.bind_some (sub_of_le (Nat.le_add_right ..)),
    Checked.bind_some descriptor.checkedDataAddress_eq, Memory.checkedRead_eq hmemory,
    Nat.add_sub_cancel_left]
  refine Checked.total_bind fun bytes _ => ?_
  by_cases hlast : taken = length - gathered
  · rw [if_pos (by omega), if_pos hlast]
    rfl
  · rw [if_neg (by omega), if_neg hlast, Checked.bind_some (sub_of_le (by omega)), Nat.sub_sub]
    cases nextDescriptor descriptor.next head with
    | none => rfl
    | some following =>
        dsimp only
        split <;> rfl

/-- **The walk over a transmit chain is never stuck.** -/
theorem checkedGatherFrom_eq (hram : ram.store.Addressable) (hmemory : memory.Addressable)
    (hlength : length < UInt64.size) (budget : Nat) (visited : List UInt32)
    (descriptor : TransmitDescriptor) {gathered : Nat} (h : gathered ≤ length) :
    checkedGatherFrom ram memory channel head limit length budget visited descriptor gathered =
      .total (gatherFrom ram memory channel head limit budget visited descriptor
        (length - gathered)) := by
  have hle := Nat.min_le_right descriptor.bufferLength.toNat (length - gathered)
  induction budget generalizing visited descriptor gathered with
  | zero =>
      rw [checkedGatherFrom, gatherFrom, checkedGatherStep_eq hmemory hlength visited descriptor h
        rfl]
      cases liftMemory (memory.read descriptor.dataAddress
          (min descriptor.bufferLength.toNat (length - gathered))) with
      | error fault => rfl
      | ok bytes =>
          show (Checked.total (if _ then _ else _) >>= _) = Checked.total (if _ then _ else _)
          split
          · rfl
          · cases nextDescriptor descriptor.next head with
            | none => rfl
            | some following =>
                dsimp only
                split <;> rfl
  | succ budget ih =>
      rw [checkedGatherFrom, gatherFrom, checkedGatherStep_eq hmemory hlength visited descriptor h
        rfl]
      cases liftMemory (memory.read descriptor.dataAddress
          (min descriptor.bufferLength.toNat (length - gathered))) with
      | error fault => rfl
      | ok bytes =>
          show (Checked.total (if _ then _ else _) >>= _) = Checked.total (if _ then _ else _)
          split
          · rfl
          · cases nextDescriptor descriptor.next head with
            | none => rfl
            | some following =>
                dsimp only
                split
                · rfl
                · show (checkedOwnedAt ram channel following >>= _) = _
                  rw [checkedOwnedAt_eq hram]
                  refine Checked.total_bind fun successor _ => ?_
                  rw [ih (following :: visited) successor (by omega) (Nat.min_le_right ..),
                    ← Nat.sub_sub]
                  exact Checked.total_bind fun _ _ => rfl

theorem checkedGather_eq (hram : ram.store.Addressable) (hmemory : memory.Addressable) :
    checkedGather ram memory channel head limit = .total (gather ram memory channel head limit) := by
  rw [checkedGather, checkedOwnedAt_eq hram]
  refine Checked.total_bind fun first _ => ?_
  have hlength : first.packetLength.toNat < UInt64.size :=
    Nat.lt_trans first.packetLength.toNat_lt (by decide)
  split
  · rfl
  · exact checkedGatherFrom_eq hram hmemory hlength _ _ _ (Nat.zero_le _)

end Gather

end PacketDma
