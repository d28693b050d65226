/-
**Byte-addressable memory.**

The engine copies frames into and out of a memory without knowing how it is kept.  A memory is
either contiguous or chunked; the accesses are the same for both, and words are byte strings in
little-endian order.

Main definitions:

* `PacketDma.Memory` — a contiguous or a chunked memory;
* `PacketDma.Memory.byteAt` — the view that accesses are stated through;
* `PacketDma.Memory.read`, `PacketDma.Memory.write` — range-checked byte accesses;
* `PacketDma.Memory.readUInt32`, `PacketDma.Memory.writeUInt32` and their narrower kin.

Main results:

* `PacketDma.Memory.read_of_inRange`, `PacketDma.Memory.read_of_not` — a read returns the bytes of
  the view exactly when its range lies inside the memory;
* `PacketDma.Memory.write_of_inRange`, `PacketDma.Memory.write_of_not` — a write replaces the bytes
  of its range exactly when that lies inside the memory.
-/

import PacketDma.LittleEndian
import PacketDma.Memory.Dense
import PacketDma.Memory.Sparse

set_option autoImplicit false

namespace PacketDma

/-- A memory, kept contiguously or in chunks allocated on demand. -/
inductive Memory where
  | dense (store : Dense)
  | sparse (store : Sparse)

namespace Memory

/-- The number of bytes. -/
def size : Memory → UInt64
  | .dense store => store.size
  | .sparse store => store.size

/-- The byte at position `i`. -/
def byteAt : Memory → Nat → UInt8
  | .dense store => store.byteAt
  | .sparse store => store.byteAt

/-- The positions of the bytes that are not zero, lowest first. -/
def support : Memory → List Nat
  | .dense store => store.support
  | .sparse store => store.support

/-- The number of allocated chunks of a chunked memory. -/
def allocatedChunks? : Memory → Option Nat
  | .dense _ => none
  | .sparse store => some store.allocatedChunks

/-- The `length` bytes from `address` on. -/
def read : Memory → UInt64 → Nat → Except MemoryFault (List UInt8)
  | .dense store, address, length => store.read address length
  | .sparse store, address, length => store.read address length

/-- The memory after `bytes` have been written from `address` on. -/
def write : Memory → UInt64 → List UInt8 → Except MemoryFault Memory
  | .dense store, address, bytes => (store.write address bytes).map .dense
  | .sparse store, address, bytes => (store.write address bytes).map .sparse

/-- The memory with every byte zero. -/
def clear : Memory → Memory
  | .dense store => .dense store.clear
  | .sparse store => .sparse store.clear

/-- Refuses a range that does not lie inside the memory. -/
def check (m : Memory) (address : UInt64) (length : Nat) : Except MemoryFault Unit :=
  checkRange m.size address length

/-! ### Words -/

/-- The byte at `address`. -/
def readUInt8 (m : Memory) (address : UInt64) : Except MemoryFault UInt8 :=
  return UInt8.ofNat (LittleEndian.decode (← m.read address 1))

/-- The 16-bit word at `address`. -/
def readUInt16 (m : Memory) (address : UInt64) : Except MemoryFault UInt16 :=
  return UInt16.ofNat (LittleEndian.decode (← m.read address 2))

/-- The 32-bit word at `address`. -/
def readUInt32 (m : Memory) (address : UInt64) : Except MemoryFault UInt32 :=
  return UInt32.ofNat (LittleEndian.decode (← m.read address 4))

/-- Writes a byte at `address`. -/
def writeUInt8 (m : Memory) (address : UInt64) (value : UInt8) : Except MemoryFault Memory :=
  m.write address (LittleEndian.encode 1 value.toNat)

/-- Writes a 16-bit word at `address`. -/
def writeUInt16 (m : Memory) (address : UInt64) (value : UInt16) : Except MemoryFault Memory :=
  m.write address (LittleEndian.encode 2 value.toNat)

/-- Writes a 32-bit word at `address`. -/
def writeUInt32 (m : Memory) (address : UInt64) (value : UInt32) : Except MemoryFault Memory :=
  m.write address (LittleEndian.encode 4 value.toNat)

/-! ### Sizes -/

@[simp] theorem size_dense (store : Dense) : (dense store).size = store.size := rfl

@[simp] theorem size_sparse (store : Sparse) : (sparse store).size = store.size := rfl

@[simp] theorem size_clear (m : Memory) : m.clear.size = m.size := by
  cases m <;> rfl

theorem mem_support_iff {m : Memory} {i : Nat} : i ∈ m.support ↔ m.byteAt i ≠ 0 := by
  cases m with
  | dense store => exact Dense.mem_support_iff
  | sparse store => exact Sparse.mem_support_iff

/-! ### Accesses in and out of range -/

theorem check_of_inRange {m : Memory} {address : UInt64} {length : Nat}
    (h : InRange m.size address length) : m.check address length = .ok () :=
  checkRange_of_inRange h

theorem check_of_not {m : Memory} {address : UInt64} {length : Nat}
    (h : ¬ InRange m.size address length) :
    m.check address length = .error (.outOfRange address length m.size) :=
  checkRange_of_not h

/-- **A read inside the memory returns the bytes of the view.** -/
theorem read_of_inRange {m : Memory} {address : UInt64} {length : Nat}
    (h : InRange m.size address length) :
    m.read address length = .ok ((List.range' address.toNat length).map m.byteAt) := by
  cases m with
  | dense store => exact Dense.read_of_inRange h
  | sparse store =>
      have hcheck := checkRange_of_inRange h
      rw [size_sparse] at hcheck
      rw [read, Sparse.read, hcheck, Sparse.loadFrom_eq]
      rfl

/-- A read that leaves the memory is refused, and the refusal names the access. -/
theorem read_of_not {m : Memory} {address : UInt64} {length : Nat}
    (h : ¬ InRange m.size address length) :
    m.read address length = .error (.outOfRange address length m.size) := by
  cases m with
  | dense store => exact Dense.read_of_not h
  | sparse store =>
      have hcheck := checkRange_of_not h
      rw [size_sparse] at hcheck
      rw [read, Sparse.read, hcheck]
      rfl

/-- **A write inside the memory replaces the bytes of its range and nothing else.** -/
theorem write_of_inRange {m : Memory} {address : UInt64} {bytes : List UInt8}
    (h : InRange m.size address bytes.length) :
    ∃ written, m.write address bytes = .ok written ∧ written.size = m.size ∧
      ∀ i, written.byteAt i =
        if address.toNat ≤ i ∧ i < address.toNat + bytes.length then
          bytes.getD (i - address.toNat) 0
        else m.byteAt i := by
  cases m with
  | dense store =>
      refine ⟨.dense (store.store address.toNat bytes), ?_, rfl, fun i => ?_⟩
      · rw [write, Dense.write_of_inRange h]
        rfl
      · refine (store.byteAt_store address.toNat bytes i).trans ?_
        rw [size_dense] at h
        by_cases hi : address.toNat ≤ i ∧ i < address.toNat + bytes.length
        · rw [if_pos hi, if_pos ⟨hi.1, hi.2, by omega⟩]
        · rw [if_neg hi, if_neg fun hc => hi ⟨hc.1, hc.2.1⟩]
          rfl
  | sparse store =>
      have hcheck := checkRange_of_inRange h
      rw [size_sparse] at hcheck h
      obtain ⟨stored, hok, hsize, -, hbyte⟩ := store.storeFrom_of_le address.toNat bytes h
      refine ⟨.sparse stored, ?_, hsize, hbyte⟩
      rw [write, Sparse.write, hcheck]
      show (store.storeFrom address.toNat bytes).map Memory.sparse = _
      rw [hok]
      rfl

/-- A write that leaves the memory is refused, and the refusal names the access. -/
theorem write_of_not {m : Memory} {address : UInt64} {bytes : List UInt8}
    (h : ¬ InRange m.size address bytes.length) :
    m.write address bytes = .error (.outOfRange address bytes.length m.size) := by
  cases m with
  | dense store =>
      rw [write, Dense.write_of_not h]
      rfl
  | sparse store =>
      have hcheck := checkRange_of_not h
      rw [size_sparse] at hcheck
      rw [write, Sparse.write, hcheck]
      rfl

/-- A write keeps the size. -/
theorem size_of_write {m written : Memory} {address : UInt64} {bytes : List UInt8}
    (h : m.write address bytes = .ok written) : written.size = m.size := by
  by_cases hr : InRange m.size address bytes.length
  · obtain ⟨w, hw, hsize, -⟩ := write_of_inRange hr
    rw [h] at hw
    cases hw
    exact hsize
  · rw [write_of_not hr] at h
    cases h

end Memory

end PacketDma
