/-
**Memory on a machine.**

A contiguous memory is allocated as a whole, and an access cuts a slice out of it.  A chunked memory
goes from chunk to chunk: it divides by the chunk size, subtracts the offset in the chunk from it,
allocates the chunk if it is written for the first time, cuts slices out of the chunk and out of what
is left of the access, and moves its address on.

The test of the range that every access starts with is what keeps the arithmetic inside its domain.
Nothing tests the size of the chunks: a memory whose chunks are too large to be allocated can be
built, and read, and the first write is stuck.

Main definitions:

* `PacketDma.Dense.checkedOfSize`, `PacketDma.Sparse.checkedWithChunkSize` — building a memory as the
  machine does it;
* `PacketDma.Memory.Addressable`, `PacketDma.Memory.Writable`, `PacketDma.Memory.Native` — memories
  that a machine can read, write to, and have;
* `PacketDma.Memory.checkedRead`, `PacketDma.Memory.checkedReadNew`, `PacketDma.Memory.checkedWrite` —
  accesses as the machine does them;
* `PacketDma.Aperture.checkedRead`, `PacketDma.Aperture.checkedWrite` — the same by bus address.

Main results:

* `PacketDma.Sparse.checkedLoad_eq`, `PacketDma.Sparse.checkedStore_eq` — the loops over chunks end
  within as many rounds as there are bytes;
* `PacketDma.Memory.checkedWrite_eq_none` — a write that needs a chunk which is too large is stuck;
* `PacketDma.Memory.checkedRead_eq`, `PacketDma.Memory.checkedWrite_eq` — **no access to a memory of
  a machine is stuck**.
-/

import PacketDma.Machine
import PacketDma.Memory.Shape

set_option autoImplicit false

namespace PacketDma

open Machine

/-! ### Blocks -/

namespace Block

variable {n : Nat}

/-- The bytes of a block from `start` up to `stop`. -/
def slice (b : Block n) (start stop : Nat) : Option (List UInt8) :=
  within (start ≤ stop ∧ stop ≤ n) (b.load start (stop - start))

/-- The block with the bytes from `start` up to `stop` replaced by as many others. -/
def replace (b : Block n) (start stop : Nat) (bytes : List UInt8) : Option (Block n) :=
  within ((start ≤ stop ∧ stop ≤ n) ∧ bytes.length = stop - start) (b.store start bytes)

theorem slice_add (b : Block n) {start length : Nat} (h : start + length ≤ n) :
    b.slice start (start + length) = some (b.load start length) := by
  rw [slice, within_of ⟨Nat.le_add_right .., h⟩, Nat.add_sub_cancel_left]

theorem replace_add (b : Block n) {start : Nat} {bytes : List UInt8}
    (h : start + bytes.length ≤ n) :
    b.replace start (start + bytes.length) bytes = some (b.store start bytes) :=
  within_of ⟨⟨Nat.le_add_right .., h⟩, (Nat.add_sub_cancel_left ..).symm⟩ _

end Block

/-! ### Contiguous memory -/

namespace Dense

/-- The contiguous memory of `size` zero bytes as the machine makes it. -/
def checkedOfSize [Allocator] (size : UInt64) : Option Dense := do
  allocate size.toNat
  return ofSize size

/-- A read as the machine does it. -/
def checkedRead (m : Dense) (address : UInt64) (length : Nat) :
    Checked MemoryFault (List UInt8) := do
  checkRange m.size address length
  let stop ← add address.toNat length
  let bytes ← m.block.slice address.toNat stop
  copy length bytes

/-- A write as the machine does it. -/
def checkedWrite (m : Dense) (address : UInt64) (bytes : List UInt8) :
    Checked MemoryFault Dense := do
  checkRange m.size address bytes.length
  let stop ← add address.toNat bytes.length
  let block ← m.block.replace address.toNat stop bytes
  return { m with block }

theorem checkedRead_eq (m : Dense) (address : UInt64) (length : Nat) :
    m.checkedRead address length = .total (m.read address length) := by
  unfold checkedRead read
  refine Checked.total_bind fun _ hcheck => ?_
  have hrange := checkRange_eq_ok_iff.1 hcheck
  rw [Checked.bind_some (add_of_lt (Nat.lt_of_le_of_lt hrange m.size.toNat_lt)),
    Checked.bind_some (m.block.slice_add hrange), copy, within_of (Block.length_load ..)]
  rfl

theorem checkedWrite_eq (m : Dense) (address : UInt64) (bytes : List UInt8) :
    m.checkedWrite address bytes = .total (m.write address bytes) := by
  unfold checkedWrite write
  refine Checked.total_bind fun _ hcheck => ?_
  have hrange := checkRange_eq_ok_iff.1 hcheck
  rw [Checked.bind_some (add_of_lt (Nat.lt_of_le_of_lt hrange m.size.toNat_lt)),
    Checked.bind_some (m.block.replace_add hrange)]
  rfl

end Dense

/-! ### Chunked memory -/

namespace Sparse

/-- The bytes of an entry in the table of chunks, which is an address and a length. -/
def entryBytes : Nat := 16

/-- The chunked memory of `size` zero bytes as the machine makes it.  Only the table of its chunks is
allocated. -/
def checkedWithChunkSize [Allocator] (size chunkSize : UInt64) : Checked MemoryFault Sparse := do
  let store ← Checked.total (withChunkSize size chunkSize.toNat)
  allocate (entryBytes * chunkCount size chunkSize.toNat)
  return store

/-- The number of the chunk of a position, its offset there, and how many of `missing` bytes from
there on lie in the chunk. -/
def checkedSplit (m : Sparse) (start missing : Nat) : Option (Nat × Nat × Nat) := do
  let index ← div start m.chunkSize
  let offset ← mod start m.chunkSize
  let room ← sub m.chunkSize offset
  return (index, offset, min room missing)

/-- The bytes of one chunk, zero if it has not been allocated. -/
def checkedPart (m : Sparse) (index offset length : Nat) : Option (List UInt8) :=
  match m.chunk? index with
  | some chunk => do
      let stop ← add offset length
      let bytes ← chunk.slice offset stop
      copy length bytes
  | none => some (List.replicate length 0)

/-- A read as the machine does it, chunk by chunk.  A round copies at least one byte, so the loop
ends within as many rounds as there are bytes. -/
def checkedLoad (m : Sparse) : (rounds : Nat) → (start missing : Nat) → Option (List UInt8)
  | 0, _, missing => within (missing = 0) []
  | rounds + 1, start, missing =>
      if missing = 0 then some []
      else do
        let (index, offset, taken) ← m.checkedSplit start missing
        let rest ← sub missing taken
        let part ← m.checkedPart index offset taken
        let next ← add start taken
        let later ← m.checkedLoad rounds next rest
        return part ++ later

/-- The chunk with the given number, which is allocated if it has not been yet. -/
def checkedChunk [Allocator] (m : Sparse) (index : Nat) : Option (Block m.chunkSize) :=
  match m.chunk? index with
  | some chunk => some chunk
  | none => do
      allocate m.chunkSize
      return Block.zero m.chunkSize

/-- A write of `missing` bytes as the machine does it, chunk by chunk, within as many rounds as there
are bytes. -/
def checkedStore [Allocator] (m : Sparse) :
    (rounds : Nat) → (start missing : Nat) → (bytes : List UInt8) → Checked MemoryFault Sparse
  | 0, _, missing, _ => liftM (within (missing = 0) m)
  | rounds + 1, start, missing, bytes =>
      if missing = 0 then return m
      else do
        let (index, offset, taken) ← m.checkedSplit start missing
        if h : index < chunkCount m.size m.chunkSize then
          let chunk ← m.checkedChunk index
          let stop ← add offset taken
          let (part, later) ← cut bytes taken
          let _ ← chunk.replace offset stop part
          let next ← add start taken
          let rest ← sub missing taken
          (m.storePart index offset part h).checkedStore rounds next rest later
        else throw (.outOfRange (UInt64.ofNat start) taken m.size)

/-- A read as the machine does it. -/
def checkedRead (m : Sparse) (address : UInt64) (length : Nat) :
    Checked MemoryFault (List UInt8) := do
  checkRange m.size address length
  m.checkedLoad length address.toNat length

/-- A write as the machine does it. -/
def checkedWrite [Allocator] (m : Sparse) (address : UInt64) (bytes : List UInt8) :
    Checked MemoryFault Sparse := do
  checkRange m.size address bytes.length
  m.checkedStore bytes.length address.toNat bytes.length bytes

theorem checkedSplit_eq (m : Sparse) (start missing : Nat) :
    m.checkedSplit start missing =
      some (start / m.chunkSize, start % m.chunkSize, m.firstPart start missing) := by
  have hpos : m.chunkSize ≠ 0 := Nat.ne_of_gt m.chunkSize_pos
  have hmod : start % m.chunkSize ≤ m.chunkSize := Nat.le_of_lt (Nat.mod_lt _ m.chunkSize_pos)
  simp only [checkedSplit, div, mod, within_of hpos, Option.bind_eq_bind, Option.bind_some,
    sub_of_le hmod]
  rfl

/-- The first part of an access ends with its chunk at the latest. -/
theorem mod_add_firstPart_le (m : Sparse) (start length : Nat) :
    start % m.chunkSize + m.firstPart start length ≤ m.chunkSize := by
  have hmod := Nat.mod_lt start m.chunkSize_pos
  unfold firstPart room
  omega

section Native

variable {m : Sparse} (hnative : m.chunkSize < UInt64.size)

include hnative

theorem checkedPart_eq (index : Nat) {offset length : Nat} (h : offset + length ≤ m.chunkSize) :
    m.checkedPart index offset length = some (m.loadPart index offset length) := by
  unfold checkedPart loadPart
  cases m.chunk? index with
  | none => rfl
  | some chunk =>
      simp only [add_of_lt (Nat.lt_of_le_of_lt h hnative), Option.bind_eq_bind, Option.bind_some,
        chunk.slice_add h, copy, within_of (chunk.length_load ..)]

/-- **The loop of a read is never stuck**, and ends within as many rounds as there are bytes. -/
theorem checkedLoad_eq {rounds start missing : Nat} (hstop : start + missing < UInt64.size)
    (hrounds : missing ≤ rounds) :
    m.checkedLoad rounds start missing = some (m.loadFrom start missing) := by
  induction rounds generalizing start missing with
  | zero =>
      obtain rfl : missing = 0 := Nat.le_zero.1 hrounds
      rw [loadFrom]
      rfl
  | succ rounds ih =>
      rw [checkedLoad, loadFrom]
      by_cases hmissing : missing = 0
      · rw [if_pos hmissing, dif_pos hmissing]
      · have hle := m.firstPart_le start missing
        have hpos := m.firstPart_pos start hmissing
        have hlater : m.checkedLoad rounds (start + m.firstPart start missing)
              (missing - m.firstPart start missing) =
            some (m.loadFrom (start + m.firstPart start missing)
              (missing - m.firstPart start missing)) := ih (by omega) (by omega)
        rw [if_neg hmissing, dif_neg hmissing, checkedSplit_eq]
        simp only [Option.bind_eq_bind, Option.bind_some, sub_of_le hle,
          checkedPart_eq hnative _ (m.mod_add_firstPart_le start missing),
          add_of_lt (show start + m.firstPart start missing < UInt64.size by omega), hlater]
        rfl

end Native

/-- **A chunk that is not too large can be had**, whether it has been allocated before or not. -/
theorem checkedChunk_eq [Allocator] {m : Sparse} (hlimit : m.chunkSize ≤ Allocator.limit)
    (index : Nat) : m.checkedChunk index = some (m.chunkAt index) := by
  unfold checkedChunk chunkAt
  cases m.chunk? index with
  | some chunk => rfl
  | none => exact bind_of_some (allocate_of_le hlimit) _

/-- **The loop of a write is never stuck**, and ends within as many rounds as there are bytes. -/
theorem checkedStore_eq [Allocator] {m : Sparse} (hnative : m.chunkSize < UInt64.size)
    (hlimit : m.chunkSize ≤ Allocator.limit) {rounds start : Nat} {bytes : List UInt8}
    (hstop : start + bytes.length < UInt64.size) (hrounds : bytes.length ≤ rounds) :
    m.checkedStore rounds start bytes.length bytes = .total (m.storeFrom start bytes) := by
  induction rounds generalizing m start bytes with
  | zero =>
      obtain rfl : bytes = [] := List.length_eq_zero_iff.1 (Nat.le_zero.1 hrounds)
      rw [storeFrom]
      rfl
  | succ rounds ih =>
      rw [checkedStore, storeFrom]
      by_cases hempty : bytes = []
      · rw [if_pos (List.length_eq_zero_iff.2 hempty), dif_pos hempty]
        rfl
      · have hlength : bytes.length ≠ 0 := mt List.length_eq_zero_iff.1 hempty
        have hle := m.firstPart_le start bytes.length
        have hpos := m.firstPart_pos start hlength
        have hfit := m.mod_add_firstPart_le start bytes.length
        have htaken : (bytes.take (m.room start)).length = m.firstPart start bytes.length := by
          rw [List.length_take, firstPart]
        have hcut : cut bytes (m.firstPart start bytes.length) =
            some (bytes.take (m.room start), bytes.drop (m.room start)) := by
          have hdrop : bytes.drop (m.firstPart start bytes.length) = bytes.drop (m.room start) :=
            List.drop_eq_drop_iff.2 (by rw [firstPart]; omega)
          rw [cut_of_le hle, hdrop, firstPart, ← List.take_eq_take_min]
        rw [if_neg hlength, dif_neg hempty, Checked.bind_some (m.checkedSplit_eq ..)]
        by_cases hindex : start / m.chunkSize < chunkCount m.size m.chunkSize
        · have hreplace := (m.chunkAt (start / m.chunkSize)).replace_add (htaken ▸ hfit)
          rw [htaken] at hreplace
          simp only [dif_pos hindex]
          rw [Checked.bind_some (checkedChunk_eq hlimit _),
            Checked.bind_some (add_of_lt (Nat.lt_of_le_of_lt hfit hnative)),
            Checked.bind_some hcut]
          dsimp only
          have hroom : bytes.length - m.firstPart start bytes.length =
              (bytes.drop (m.room start)).length := by
            rw [List.length_drop, firstPart]
            omega
          rw [Checked.bind_some hreplace, Checked.bind_some (add_of_lt (by omega)),
            Checked.bind_some (sub_of_le hle), hroom, htaken]
          exact ih (m := m.storePart _ _ _ hindex) hnative hlimit (by omega) (by omega)
        · simp only [dif_neg hindex, htaken]
          rfl

theorem checkedRead_eq {m : Sparse} (hnative : m.chunkSize < UInt64.size) (address : UInt64)
    (length : Nat) : m.checkedRead address length = .total (m.read address length) := by
  unfold checkedRead read
  refine Checked.total_bind fun _ hcheck => ?_
  have hrange := checkRange_eq_ok_iff.1 hcheck
  rw [checkedLoad_eq hnative (Nat.lt_of_le_of_lt hrange m.size.toNat_lt) (Nat.le_refl _)]
  rfl

theorem checkedWrite_eq [Allocator] {m : Sparse} (hnative : m.chunkSize < UInt64.size)
    (hlimit : m.chunkSize ≤ Allocator.limit) (address : UInt64) (bytes : List UInt8) :
    m.checkedWrite address bytes = .total (m.write address bytes) := by
  unfold checkedWrite write
  refine Checked.total_bind fun _ hcheck => ?_
  have hrange := checkRange_eq_ok_iff.1 hcheck
  exact checkedStore_eq hnative hlimit (Nat.lt_of_le_of_lt hrange m.size.toNat_lt) (Nat.le_refl _)

/-- A write that puts no byte into the memory needs no chunk. -/
theorem checkedWrite_of_not [Allocator] {m : Sparse} {address : UInt64} {bytes : List UInt8}
    (h : ¬ (InRange m.size address bytes.length ∧ bytes ≠ [])) :
    m.checkedWrite address bytes = .total (m.write address bytes) := by
  unfold checkedWrite write
  refine Checked.total_bind fun _ hcheck => ?_
  obtain rfl : bytes = [] := Decidable.not_not.1 fun hne => h ⟨checkRange_eq_ok_iff.1 hcheck, hne⟩
  rw [storeFrom]
  rfl

end Sparse

/-! ### Either memory -/

/-- The shapes that a machine can read: the size of a chunk is a size of the machine. -/
def MemoryShape.Addressable : MemoryShape → Prop
  | .dense _ => True
  | .sparse _ chunkSize => chunkSize < UInt64.size

/-- The shapes that a machine can also write to: it can allocate a chunk. -/
def MemoryShape.Writable [Allocator] : MemoryShape → Prop
  | .dense _ => True
  | .sparse _ chunkSize => chunkSize < UInt64.size ∧ chunkSize ≤ Allocator.limit

instance [Allocator] : (shape : MemoryShape) → Decidable shape.Writable
  | .dense _ => .isTrue trivial
  | .sparse _ chunkSize =>
      inferInstanceAs (Decidable (chunkSize < UInt64.size ∧ chunkSize ≤ Allocator.limit))

namespace Memory

/-- A machine can read the memory. -/
def Addressable (m : Memory) : Prop := m.shape.Addressable

/-- A machine can write to the memory. -/
def Writable [Allocator] (m : Memory) : Prop := m.shape.Writable

instance [Allocator] (m : Memory) : Decidable m.Writable :=
  inferInstanceAs (Decidable m.shape.Writable)

/-- A machine can have the memory: it can write to it, and read all of it into a new buffer. -/
structure Native [Allocator] (m : Memory) : Prop where
  writable : m.Writable
  size_le : m.size.toNat ≤ Allocator.limit

instance [Allocator] (m : Memory) : Decidable m.Native :=
  decidable_of_iff (m.Writable ∧ m.size.toNat ≤ Allocator.limit)
    ⟨fun h => ⟨h.1, h.2⟩, fun h => ⟨h.writable, h.size_le⟩⟩

/-- A read as the machine does it. -/
def checkedRead : Memory → UInt64 → Nat → Checked MemoryFault (List UInt8)
  | .dense store, address, length => store.checkedRead address length
  | .sparse store, address, length => store.checkedRead address length

/-- A read into a new buffer as the machine does it: the buffer is allocated after the test of the
range. -/
def checkedReadNew [Allocator] (m : Memory) (address : UInt64) (length : Nat) :
    Checked MemoryFault (List UInt8) := do
  m.check address length
  allocate length
  m.checkedRead address length

/-- A write as the machine does it. -/
def checkedWrite [Allocator] : Memory → UInt64 → List UInt8 → Checked MemoryFault Memory
  | .dense store, address, bytes => return .dense (← store.checkedWrite address bytes)
  | .sparse store, address, bytes => return .sparse (← store.checkedWrite address bytes)

theorem Writable.addressable [Allocator] {m : Memory} (h : m.Writable) : m.Addressable := by
  cases m with
  | dense store => trivial
  | sparse store => exact h.1

theorem Native.addressable [Allocator] {m : Memory} (h : m.Native) : m.Addressable :=
  h.writable.addressable

/-- What a machine can do with a memory shows in its shape. -/
theorem Addressable.of_shape {m n : Memory} (h : m.Addressable) (hshape : n.shape = m.shape) :
    n.Addressable := by
  rw [Addressable, hshape]
  exact h

theorem Writable.of_shape [Allocator] {m n : Memory} (h : m.Writable) (hshape : n.shape = m.shape) :
    n.Writable := by
  rw [Writable, hshape]
  exact h

theorem Native.of_shape [Allocator] {m n : Memory} (h : m.Native) (hshape : n.shape = m.shape) :
    n.Native where
  writable := h.writable.of_shape hshape
  size_le := size_eq_of_shape hshape ▸ h.size_le

/-- **No read is stuck.** -/
theorem checkedRead_eq {m : Memory} (h : m.Addressable) (address : UInt64) (length : Nat) :
    m.checkedRead address length = .total (m.read address length) := by
  cases m with
  | dense store => exact store.checkedRead_eq address length
  | sparse store => exact Sparse.checkedRead_eq h address length

/-- **No read into a new buffer is stuck** that the memory has room for. -/
theorem checkedReadNew_eq [Allocator] {m : Memory} (h : m.Addressable)
    (hsize : m.size.toNat ≤ Allocator.limit) (address : UInt64) (length : Nat) :
    m.checkedReadNew address length = .total (m.read address length) := by
  unfold checkedReadNew
  by_cases hrange : InRange m.size address length
  · rw [check_of_inRange hrange]
    have hallocate : allocate length = some () := allocate_of_le (by omega)
    exact (Checked.bind_some hallocate _).trans (checkedRead_eq h address length)
  · rw [check_of_not hrange, read_of_not hrange]
    rfl

theorem checkedWrite_dense [Allocator] (store : Dense) (address : UInt64) (bytes : List UInt8) :
    (Memory.dense store).checkedWrite address bytes =
      .total ((Memory.dense store).write address bytes) := by
  rw [checkedWrite, write, store.checkedWrite_eq]
  cases store.write address bytes <;> rfl

theorem checkedWrite_sparse [Allocator] {store : Sparse} {address : UInt64} {bytes : List UInt8}
    (h : store.checkedWrite address bytes = .total (store.write address bytes)) :
    (Memory.sparse store).checkedWrite address bytes =
      .total ((Memory.sparse store).write address bytes) := by
  rw [checkedWrite, write, h]
  cases store.write address bytes <;> rfl

/-- **No write is stuck.** -/
theorem checkedWrite_eq [Allocator] {m : Memory} (h : m.Writable) (address : UInt64)
    (bytes : List UInt8) : m.checkedWrite address bytes = .total (m.write address bytes) := by
  cases m with
  | dense store => exact checkedWrite_dense store address bytes
  | sparse store => exact checkedWrite_sparse (Sparse.checkedWrite_eq h.1 h.2 address bytes)

/-- A write that puts no byte into the memory is not stuck, however large the chunks are. -/
theorem checkedWrite_of_not [Allocator] {m : Memory} {address : UInt64} {bytes : List UInt8}
    (h : ¬ (InRange m.size address bytes.length ∧ bytes ≠ [])) :
    m.checkedWrite address bytes = .total (m.write address bytes) := by
  cases m with
  | dense store => exact checkedWrite_dense store address bytes
  | sparse store => exact checkedWrite_sparse (Sparse.checkedWrite_of_not h)

end Memory

/-! ### Apertures -/

namespace Aperture

/-- A read as the machine does it. -/
def checkedRead (a : Aperture) (address : UInt64) (length : Nat) :
    Checked MemoryFault (List UInt8) := do
  a.store.checkedRead (← a.translate address length) length

/-- A write as the machine does it. -/
def checkedWrite [Allocator] (a : Aperture) (address : UInt64) (bytes : List UInt8) :
    Checked MemoryFault Aperture := do
  let store ← a.store.checkedWrite (← a.translate address bytes.length) bytes
  return { a with store }

/-- The read of a word as the machine does it. -/
def checkedReadUInt32 (a : Aperture) (address : UInt64) : Checked MemoryFault UInt32 :=
  return UInt32.ofNat (LittleEndian.decode (← a.checkedRead address 4))

/-- The write of a word as the machine does it. -/
def checkedWriteUInt32 [Allocator] (a : Aperture) (address : UInt64) (value : UInt32) :
    Checked MemoryFault Aperture :=
  a.checkedWrite address (LittleEndian.encode 4 value.toNat)

/-- Reads of consecutive words as the machine does them. -/
def checkedReadWords (a : Aperture) : (count : Nat) → (address : UInt64) →
    Checked MemoryFault (List UInt32)
  | 0, _ => return []
  | count + 1, address => do
      let word ← a.checkedReadUInt32 address
      return word :: (← a.checkedReadWords count (address + 4))

/-- Writes of consecutive words as the machine does them. -/
def checkedWriteWords [Allocator] (a : Aperture) : (address : UInt64) → List UInt32 →
    Option (Aperture × Option MemoryFault)
  | _, [] => some (a, none)
  | address, word :: rest => do
      match ← (a.checkedWriteUInt32 address word).run with
      | .ok written => written.checkedWriteWords (address + 4) rest
      | .error fault => return (a, some fault)

/-- A write leaves a memory that the machine can write to. -/
theorem writable_of_write [Allocator] {a written : Aperture} {address : UInt64} {bytes : List UInt8}
    (hwritable : a.store.Writable) (h : a.write address bytes = .ok written) :
    written.store.Writable :=
  hwritable.of_shape (Prod.mk.inj (shape_of_write h)).2

section Read

variable {a : Aperture} (h : a.store.Addressable)

include h

theorem checkedRead_eq (address : UInt64) (length : Nat) :
    a.checkedRead address length = .total (a.read address length) :=
  Checked.total_bind fun _ _ => Memory.checkedRead_eq h _ length

theorem checkedReadUInt32_eq (address : UInt64) :
    a.checkedReadUInt32 address = .total (a.readUInt32 address) := by
  rw [checkedReadUInt32, checkedRead_eq h]
  exact Checked.total_bind fun _ _ => rfl

theorem checkedReadWords_eq (count : Nat) (address : UInt64) :
    a.checkedReadWords count address = .total (a.readWords count address) := by
  induction count generalizing address with
  | zero => rfl
  | succ count ih =>
      rw [checkedReadWords, checkedReadUInt32_eq h]
      refine Checked.total_bind fun word _ => ?_
      rw [ih]
      exact Checked.total_bind fun _ _ => rfl

end Read

section Write

variable [Allocator] {a : Aperture} (h : a.store.Writable)

include h

theorem checkedWrite_eq (address : UInt64) (bytes : List UInt8) :
    a.checkedWrite address bytes = .total (a.write address bytes) :=
  Checked.total_bind fun offset _ => by
    rw [Memory.checkedWrite_eq h]
    cases a.store.write offset bytes <;> rfl

theorem checkedWriteUInt32_eq (address : UInt64) (value : UInt32) :
    a.checkedWriteUInt32 address value = .total (a.writeUInt32 address value) :=
  checkedWrite_eq h ..

theorem checkedWriteWords_eq (address : UInt64) (words : List UInt32) :
    a.checkedWriteWords address words = some (a.writeWords address words) := by
  induction words generalizing a address with
  | nil => rfl
  | cons word rest ih =>
      rw [checkedWriteWords, checkedWriteUInt32_eq h, writeWords]
      cases hword : a.writeUInt32 address word with
      | error fault => rfl
      | ok written => exact ih (writable_of_write h hword) _

end Write

end Aperture

end PacketDma
