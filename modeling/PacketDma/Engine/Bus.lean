/-
**Bus accesses.**

The window of the subsystem on the bus has two halves: the registers, and the descriptor RAM.
Accesses are one, two or four bytes wide and aligned to their width.  In the lower half an access
addresses a lane of a register; a narrow write is a write of the whole register whose other lanes
are zero.  In the upper half an access addresses bytes of the descriptor RAM; software polls its
descriptors there, and so a read lets waiting frames land first.

Main definitions:

* `PacketDma.AccessWidth` — the widths of accesses;
* `PacketDma.BusTarget` — what an access addresses;
* `PacketDma.System.busRead`, `PacketDma.System.busWrite` — accesses.

Main results:

* `PacketDma.System.busRead_of_unsupported`, `PacketDma.System.busWrite_of_unsupported` — an access
  of any other width reads all ones and writes nothing.
-/

import PacketDma.Engine.Registers

set_option autoImplicit false

namespace PacketDma

/-- The width of a bus access. -/
inductive AccessWidth where
  | byte
  | half
  | word
deriving DecidableEq, Repr

namespace AccessWidth

/-- The width of an access of `size` bytes, if there is one. -/
def ofSize? : Nat → Option AccessWidth
  | 1 => some .byte
  | 2 => some .half
  | 4 => some .word
  | _ => none

/-- The number of bytes. -/
def bytes : AccessWidth → Nat
  | .byte => 1
  | .half => 2
  | .word => 4

/-- The value with all bits of the width set. -/
def mask : AccessWidth → UInt64
  | .byte => 0xFF
  | .half => 0xFFFF
  | .word => 0xFFFFFFFF

theorem bytes_of_ofSize? {size : Nat} {width : AccessWidth} (h : ofSize? size = some width) :
    width.bytes = size := by
  unfold ofSize? at h
  split at h <;> simp_all <;> (subst h; rfl)

end AccessWidth

/-- What a bus access addresses. -/
inductive BusTarget where
  /-- The lane of a register that starts `lane` bytes behind the lowest. -/
  | register (register : Register) (lane : Nat)
  /-- Bytes of the descriptor RAM. -/
  | ram (offset : UInt64)
deriving DecidableEq, Repr

namespace BusTarget

/-- The number of bytes of the window. -/
def windowSize : Nat := 0x4000

/-- What an aligned access inside the window addresses. -/
def decode (offset : UInt64) (width : AccessWidth) : Option BusTarget :=
  if offset.toNat % width.bytes ≠ 0 ∨ windowSize ≤ offset.toNat then none
  else if h : offset.toNat < Register.windowSize then
    some (.register
      (Register.ofIndex ⟨offset.toNat / 4, by unfold Register.windowSize at h; omega⟩)
      (offset.toNat % 4))
  else some (.ram (offset - UInt64.ofNat Register.windowSize))

end BusTarget

namespace Engine

/-- The lane of a register, all other bits zero; a register that cannot be read counts as zero. -/
def loadLane (e : Engine) (register : Register) (lane : Nat) (width : AccessWidth) : UInt64 :=
  let value := (e.load register).toOption.getD 0
  (value.toUInt64 >>> UInt64.ofNat (8 * lane)) &&& width.mask

/-- Bytes of the descriptor RAM as a number, all ones if they do not all exist. -/
def loadRam (e : Engine) (offset : UInt64) (width : AccessWidth) : UInt64 :=
  match e.ram.store.read offset width.bytes with
  | .ok bytes => UInt64.ofNat (LittleEndian.decode bytes)
  | .error _ => width.mask

/-- The engine after bytes of its descriptor RAM have been written, if they all exist. -/
def storeRam (e : Engine) (offset : UInt64) (bytes : List UInt8) : Engine :=
  match e.ram.store.write offset bytes with
  | .ok store => { e with ram := { e.ram with store } }
  | .error _ => e

end Engine

namespace System

/-- A read of `size` bytes at `offset`.  An access that is not supported, not aligned or outside the
window reads all ones. -/
def busRead (s : System) (offset : UInt64) (size : Nat) : UInt64 × System :=
  match AccessWidth.ofSize? size with
  | none => (0xFFFFFFFFFFFFFFFF, s)
  | some width =>
      match BusTarget.decode offset width with
      | none => (width.mask, s)
      | some (.register register lane) => (s.engine.loadLane register lane width, s)
      | some (.ram offset) =>
          let drained := s.drain.2
          (drained.engine.loadRam offset width, drained)

/-- A write of the low `size` bytes of `value` at `offset`.  An access that is not supported, not
aligned or outside the window is ignored. -/
def busWrite (s : System) (offset : UInt64) (size : Nat) (value : UInt64) : System :=
  match AccessWidth.ofSize? size with
  | none => s
  | some width =>
      match BusTarget.decode offset width with
      | none => s
      | some (.register register lane) =>
          (s.store ((value &&& width.mask).toUInt32 <<< UInt32.ofNat (8 * lane)) register).2
      | some (.ram offset) =>
          s.mapEngine (·.storeRam offset (LittleEndian.encode width.bytes value.toNat))

theorem busRead_of_unsupported (s : System) (offset : UInt64) {size : Nat}
    (h : AccessWidth.ofSize? size = none) : s.busRead offset size = (0xFFFFFFFFFFFFFFFF, s) := by
  simp [busRead, h]

theorem busWrite_of_unsupported (s : System) (offset value : UInt64) {size : Nat}
    (h : AccessWidth.ofSize? size = none) : s.busWrite offset size value = s := by
  simp [busWrite, h]

end System

end PacketDma
