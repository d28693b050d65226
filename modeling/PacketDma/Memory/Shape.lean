/-
**The shape of memory.**

How large a memory is, and how it is kept, is decided when it is built.  No access changes that, and
a memory that has been cleared has nothing else left.

Main definitions:

* `PacketDma.MemoryShape`, `PacketDma.Memory.shape` — what is left of a memory without its bytes;
* `PacketDma.Aperture.shape` — the place and the shape of an aperture.

Main results:

* `PacketDma.Memory.clear_eq_of_shape` — **a memory that has been cleared is its shape**;
* `PacketDma.Memory.shape_of_write`, `PacketDma.Aperture.shape_of_write` — a write keeps the shape.
-/

import PacketDma.Memory.Aperture

set_option autoImplicit false

namespace PacketDma

/-- How a memory is kept. -/
inductive MemoryShape where
  | dense (size : UInt64)
  | sparse (size : UInt64) (chunkSize : Nat)
deriving DecidableEq, Repr

/-! ### One memory -/

/-- The shape that chunkwise stores keep. -/
theorem Sparse.shape_of_storeFrom {m stored : Sparse} {start : Nat} {bytes : List UInt8}
    (h : m.storeFrom start bytes = .ok stored) :
    stored.size = m.size ∧ stored.chunkSize = m.chunkSize := by
  fun_induction storeFrom m start bytes with
  | case1 m start =>
      cases h
      exact ⟨rfl, rfl⟩
  | case2 m start bytes hne part hindex ih => exact ih h
  | case3 m start bytes hne part hindex => cases h

namespace Memory

/-- The shape of a memory. -/
def shape : Memory → MemoryShape
  | .dense store => .dense store.size
  | .sparse store => .sparse store.size store.chunkSize

/-- **A memory that has been cleared is its shape.** -/
theorem clear_eq_of_shape {m n : Memory} (h : m.shape = n.shape) : m.clear = n.clear := by
  cases m with
  | dense store =>
      cases n with
      | dense other =>
          obtain ⟨size, block⟩ := store
          obtain ⟨size', block'⟩ := other
          cases h
          rfl
      | sparse other => cases h
  | sparse store =>
      cases n with
      | dense other => cases h
      | sparse other =>
          obtain ⟨size, chunkSize, hpos, chunks, hnone⟩ := store
          obtain ⟨size', chunkSize', hpos', chunks', hnone'⟩ := other
          cases h
          rfl

/-- **A write keeps the shape.** -/
theorem shape_of_write {m written : Memory} {address : UInt64} {bytes : List UInt8}
    (h : m.write address bytes = .ok written) : written.shape = m.shape := by
  cases m with
  | dense store =>
      by_cases hrange : InRange store.size address bytes.length
      · rw [write, Dense.write_of_inRange hrange] at h
        cases h
        rfl
      · rw [write, Dense.write_of_not hrange] at h
        cases h
  | sparse store =>
      by_cases hrange : InRange store.size address bytes.length
      · rw [write, Sparse.write, checkRange_of_inRange hrange] at h
        change (store.storeFrom address.toNat bytes).map Memory.sparse = .ok written at h
        cases hstored : store.storeFrom address.toNat bytes with
        | error fault =>
            rw [hstored] at h
            cases h
        | ok stored =>
            rw [hstored] at h
            cases h
            obtain ⟨hsize, hchunk⟩ := Sparse.shape_of_storeFrom hstored
            rw [shape, shape, hsize, hchunk]
      · rw [write, Sparse.write, checkRange_of_not hrange] at h
        cases h

theorem size_eq_of_shape {m n : Memory} (h : m.shape = n.shape) : m.size = n.size := by
  cases m with
  | dense store =>
      cases n with
      | dense other => exact MemoryShape.dense.inj h
      | sparse other => cases h
  | sparse store =>
      cases n with
      | dense other => cases h
      | sparse other => exact (MemoryShape.sparse.inj h).1

theorem shape_clear (m : Memory) : m.clear.shape = m.shape := by
  cases m <;> rfl

end Memory

/-! ### Apertures -/

namespace Aperture

/-- The place and the shape of an aperture. -/
def shape (a : Aperture) : UInt64 × MemoryShape := (a.base, a.store.shape)

theorem shape_of_write {a written : Aperture} {address : UInt64} {bytes : List UInt8}
    (h : a.write address bytes = .ok written) : written.shape = a.shape := by
  by_cases hcovers : a.Covers address bytes.length
  · rw [write_of_covers hcovers] at h
    cases hstore : a.store.write (address - a.base) bytes with
    | error fault =>
        rw [hstore] at h
        cases h
    | ok store =>
        rw [hstore] at h
        cases h
        exact congrArg (Prod.mk a.base) (Memory.shape_of_write hstore)
  · rw [write_of_not hcovers] at h
    cases h

theorem shape_writeWords (a : Aperture) (address : UInt64) (words : List UInt32) :
    (a.writeWords address words).1.shape = a.shape := by
  induction words generalizing a address with
  | nil => rfl
  | cons word rest ih =>
      rw [writeWords]
      split
      · next written h => exact (ih ..).trans (shape_of_write h)
      · rfl

theorem clear_eq_of_shape {a b : Aperture} (h : a.shape = b.shape) : a.clear = b.clear := by
  obtain ⟨hbase, hshape⟩ := Prod.mk.inj h
  rw [clear, clear, hbase, Memory.clear_eq_of_shape hshape]

end Aperture

end PacketDma
