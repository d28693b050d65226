/-
**Bus apertures.**

Private memory is seen in two ways: by offset from its first byte, and by the bus addresses that
data structures inside it hold.  An aperture places a zero-based memory at a base address on the
bus and translates bus addresses into offsets.

Main definitions:

* `PacketDma.Aperture` — a memory placed at a base address;
* `PacketDma.Aperture.translate` — from a bus address to an offset;
* `PacketDma.Aperture.read`, `PacketDma.Aperture.write` — accesses by bus address;
* `PacketDma.Aperture.writeWords` — consecutive words, up to the first that is refused.

Main results:

* `PacketDma.Aperture.translate_of_covers`, `PacketDma.Aperture.translate_of_not` — translation
  succeeds exactly inside the aperture, and a refusal names the bus address;
* `PacketDma.Aperture.read_of_covers`, `PacketDma.Aperture.write_of_covers` — accesses inside the
  aperture are those of the memory, moved by the base.
-/

import PacketDma.Memory.Basic

set_option autoImplicit false

namespace PacketDma

/-- A memory whose first byte has the bus address `base`. -/
structure Aperture where
  base : UInt64
  store : Memory

namespace Aperture

/-- The number of bytes. -/
def size (a : Aperture) : UInt64 := a.store.size

/-- The bus address just past the aperture, or the largest address when that is not representable;
refusals report it. -/
def limit (a : Aperture) : UInt64 :=
  UInt64.ofNat (min (a.base.toNat + a.size.toNat) (UInt64.size - 1))

/-- The offset of the range of `length` bytes at bus address `address`, if it lies inside. -/
def translate (a : Aperture) (address : UInt64) (length : Nat) : Except MemoryFault UInt64 :=
  if a.base ≤ address ∧ InRange a.size (address - a.base) length then .ok (address - a.base)
  else .error (.outOfRange address length a.limit)

/-- Whether the range of `length` bytes at bus address `address` lies inside. -/
def contains (a : Aperture) (address : UInt64) (length : Nat) : Bool :=
  (a.translate address length).isOk

/-- The `length` bytes from bus address `address` on. -/
def read (a : Aperture) (address : UInt64) (length : Nat) : Except MemoryFault (List UInt8) := do
  a.store.read (← a.translate address length) length

/-- The aperture after `bytes` have been written from bus address `address` on. -/
def write (a : Aperture) (address : UInt64) (bytes : List UInt8) :
    Except MemoryFault Aperture := do
  let store ← a.store.write (← a.translate address bytes.length) bytes
  return { a with store }

/-- The 32-bit word at bus address `address`. -/
def readUInt32 (a : Aperture) (address : UInt64) : Except MemoryFault UInt32 :=
  return UInt32.ofNat (LittleEndian.decode (← a.read address 4))

/-- Writes a 32-bit word at bus address `address`. -/
def writeUInt32 (a : Aperture) (address : UInt64) (value : UInt32) : Except MemoryFault Aperture :=
  a.write address (LittleEndian.encode 4 value.toNat)

/-- The `count` consecutive words from bus address `address` on, or the first refusal. -/
def readWords (a : Aperture) : (count : Nat) → (address : UInt64) →
    Except MemoryFault (List UInt32)
  | 0, _ => return []
  | count + 1, address => do
      let word ← a.readUInt32 address
      return word :: (← a.readWords count (address + 4))

/-- Writes consecutive words from bus address `address` on.  The words before the first refused
one stay written. -/
def writeWords (a : Aperture) : (address : UInt64) → List UInt32 → Aperture × Option MemoryFault
  | _, [] => (a, none)
  | address, word :: rest =>
      match a.writeUInt32 address word with
      | .ok written => written.writeWords (address + 4) rest
      | .error fault => (a, some fault)

/-- The aperture with every byte zero. -/
def clear (a : Aperture) : Aperture := { a with store := a.store.clear }

@[simp] theorem size_mk (base : UInt64) (store : Memory) : (mk base store).size = store.size := rfl

@[simp] theorem base_clear (a : Aperture) : a.clear.base = a.base := rfl

@[simp] theorem size_clear (a : Aperture) : a.clear.size = a.size := Memory.size_clear a.store

/-- The `length` bus addresses from `address` on lie inside the aperture, in unbounded numbers. -/
abbrev Covers (a : Aperture) (address : UInt64) (length : Nat) : Prop :=
  a.base.toNat ≤ address.toNat ∧ address.toNat + length ≤ a.base.toNat + a.size.toNat

/-- The test of the translation is the one in unbounded numbers. -/
theorem covers_iff {a : Aperture} {address : UInt64} {length : Nat} :
    a.Covers address length ↔
      a.base ≤ address ∧ InRange a.size (address - a.base) length := by
  constructor
  · rintro ⟨hbase, hend⟩
    have hle : a.base ≤ address := UInt64.le_iff_toNat_le.2 hbase
    refine ⟨hle, ?_⟩
    show (address - a.base).toNat + length ≤ a.size.toNat
    rw [UInt64.toNat_sub_of_le _ _ hle]
    omega
  · rintro ⟨hle, hend⟩
    have hbase := UInt64.le_iff_toNat_le.1 hle
    have hend' : (address - a.base).toNat + length ≤ a.size.toNat := hend
    rw [UInt64.toNat_sub_of_le _ _ hle] at hend'
    exact ⟨hbase, by omega⟩

theorem translate_of_covers {a : Aperture} {address : UInt64} {length : Nat}
    (h : a.Covers address length) : a.translate address length = .ok (address - a.base) :=
  if_pos (covers_iff.1 h)

theorem translate_of_not {a : Aperture} {address : UInt64} {length : Nat}
    (h : ¬ a.Covers address length) :
    a.translate address length = .error (.outOfRange address length a.limit) :=
  if_neg fun hc => h (covers_iff.2 hc)

/-- **Accesses inside the aperture are those of the memory, moved by the base.** -/
theorem read_of_covers {a : Aperture} {address : UInt64} {length : Nat}
    (h : a.Covers address length) :
    a.read address length = a.store.read (address - a.base) length := by
  rw [read, translate_of_covers h]
  rfl

theorem read_of_not {a : Aperture} {address : UInt64} {length : Nat}
    (h : ¬ a.Covers address length) :
    a.read address length = .error (.outOfRange address length a.limit) := by
  rw [read, translate_of_not h]
  rfl

theorem write_of_covers {a : Aperture} {address : UInt64} {bytes : List UInt8}
    (h : a.Covers address bytes.length) :
    a.write address bytes =
      (a.store.write (address - a.base) bytes).map fun store => { a with store } := by
  rw [write, translate_of_covers h]
  show (a.store.write (address - a.base) bytes >>= fun store => Except.ok { a with store }) = _
  cases a.store.write (address - a.base) bytes <;> rfl

theorem write_of_not {a : Aperture} {address : UInt64} {bytes : List UInt8}
    (h : ¬ a.Covers address bytes.length) :
    a.write address bytes = .error (.outOfRange address bytes.length a.limit) := by
  rw [write, translate_of_not h]
  rfl

end Aperture

end PacketDma
