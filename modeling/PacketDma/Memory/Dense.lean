/-
**Contiguous memory.**

All bytes exist from the start and are zero.  An access is checked against the size and then goes
straight to the block.

Main definitions:

* `PacketDma.Dense` — a memory kept as one block;
* `PacketDma.Dense.read`, `PacketDma.Dense.write` — range-checked accesses.

Main results:

* `PacketDma.Dense.read_of_inRange`, `PacketDma.Dense.byteAt_store` — what accesses see and change.
-/

import PacketDma.Memory.Block
import PacketDma.Memory.Fault

set_option autoImplicit false

namespace PacketDma

/-- A memory of `size` bytes kept as one block. -/
structure Dense where
  size : UInt64
  block : Block size.toNat

namespace Dense

/-- The contiguous memory of `size` zero bytes. -/
def ofSize (size : UInt64) : Dense := ⟨size, Block.zero size.toNat⟩

/-- The byte at position `i`, zero past the end. -/
def byteAt (m : Dense) (i : Nat) : UInt8 := m.block.byteAt i

/-- The positions of the bytes that are not zero, lowest first. -/
def support (m : Dense) : List Nat := m.block.support

/-- The memory with the bytes from position `start` on replaced. -/
def store (m : Dense) (start : Nat) (bytes : List UInt8) : Dense :=
  { m with block := m.block.store start bytes }

/-- The `length` bytes from `address` on. -/
def read (m : Dense) (address : UInt64) (length : Nat) : Except MemoryFault (List UInt8) := do
  checkRange m.size address length
  return m.block.load address.toNat length

/-- The memory after `bytes` have been written from `address` on. -/
def write (m : Dense) (address : UInt64) (bytes : List UInt8) : Except MemoryFault Dense := do
  checkRange m.size address bytes.length
  return m.store address.toNat bytes

/-- The memory with every byte zero. -/
def clear (m : Dense) : Dense := { m with block := Block.zero m.size.toNat }

@[simp] theorem size_ofSize (size : UInt64) : (ofSize size).size = size := rfl

@[simp] theorem size_store (m : Dense) (start : Nat) (bytes : List UInt8) :
    (m.store start bytes).size = m.size := rfl

@[simp] theorem clear_ofSize (size : UInt64) : (ofSize size).clear = ofSize size := rfl

@[simp] theorem size_clear (m : Dense) : m.clear.size = m.size := rfl

theorem clear_eq_ofSize (m : Dense) : m.clear = ofSize m.size := rfl

/-- The bytes of a memory after a store. -/
theorem byteAt_store (m : Dense) (start : Nat) (bytes : List UInt8) (i : Nat) :
    (m.store start bytes).byteAt i =
      if start ≤ i ∧ i < start + bytes.length ∧ i < m.size.toNat then bytes.getD (i - start) 0
      else m.byteAt i :=
  m.block.byteAt_store start bytes i

/-- Bytes past the end read as zero. -/
theorem byteAt_of_le (m : Dense) {i : Nat} (h : m.size.toNat ≤ i) : m.byteAt i = 0 :=
  m.block.byteAt_of_le h

theorem mem_support_iff {m : Dense} {i : Nat} : i ∈ m.support ↔ m.byteAt i ≠ 0 :=
  Block.mem_support_iff

/-! ### Accesses in and out of range -/

theorem read_of_inRange {m : Dense} {address : UInt64} {length : Nat}
    (h : InRange m.size address length) :
    m.read address length = .ok ((List.range' address.toNat length).map m.byteAt) := by
  rw [read, checkRange_of_inRange h]
  rfl

theorem read_of_not {m : Dense} {address : UInt64} {length : Nat}
    (h : ¬ InRange m.size address length) :
    m.read address length = .error (.outOfRange address length m.size) := by
  rw [read, checkRange_of_not h]
  rfl

theorem write_of_inRange {m : Dense} {address : UInt64} {bytes : List UInt8}
    (h : InRange m.size address bytes.length) :
    m.write address bytes = .ok (m.store address.toNat bytes) := by
  rw [write, checkRange_of_inRange h]
  rfl

theorem write_of_not {m : Dense} {address : UInt64} {bytes : List UInt8}
    (h : ¬ InRange m.size address bytes.length) :
    m.write address bytes = .error (.outOfRange address bytes.length m.size) := by
  rw [write, checkRange_of_not h]
  rfl

end Dense

end PacketDma
