/-
**Accesses to memory.**

All that a memory answers, as data: an access is read, written or tested, its reply is a value or a
refusal, and a sequence of accesses has a sequence of replies.  Each is carried out twice, on the
memory itself, and as the machine does it.

Main definitions:

* `PacketDma.MemoryAccess`, `PacketDma.MemoryReply` — the accesses to a memory, and their replies;
* `PacketDma.Memory.perform`, `PacketDma.Memory.run` — one access, and a sequence of accesses;
* `PacketDma.Memory.checkedPerform`, `PacketDma.Memory.checkedRun` — the same as the machine does
  them.
-/

import PacketDma.Memory.Checked

set_option autoImplicit false

namespace PacketDma

open Machine

/-- An access to a memory. -/
inductive MemoryAccess where
  /-- Bytes are read into a buffer of their number. -/
  | read (address : UInt64) (length : Nat)
  /-- Bytes are read into a new buffer, which is only made when the range is inside. -/
  | readNew (address : UInt64) (length : Nat)
  | readUInt8 (address : UInt64)
  | readUInt16 (address : UInt64)
  | readUInt32 (address : UInt64)
  | write (address : UInt64) (bytes : List UInt8)
  | writeUInt8 (address : UInt64) (value : UInt8)
  | writeUInt16 (address : UInt64) (value : UInt16)
  | writeUInt32 (address : UInt64) (value : UInt32)
  /-- A range is tested and neither read nor written. -/
  | check (address : UInt64) (length : Nat)
deriving DecidableEq, Repr

/-- What an access answers when it is not refused. -/
inductive MemoryReply where
  | done
  | bytes (bytes : List UInt8)
  | byte (value : UInt8)
  | half (value : UInt16)
  | word (value : UInt32)
deriving DecidableEq, Repr

namespace MemoryAccess

/-- The first address of an access. -/
def address : MemoryAccess → UInt64
  | read address _ | readNew address _ | readUInt8 address | readUInt16 address
  | readUInt32 address | write address _ | writeUInt8 address _ | writeUInt16 address _
  | writeUInt32 address _ | check address _ => address

/-- The number of bytes of an access. -/
def length : MemoryAccess → Nat
  | read _ length | readNew _ length | check _ length => length
  | write _ bytes => bytes.length
  | readUInt8 _ | writeUInt8 .. => 1
  | readUInt16 _ | writeUInt16 .. => 2
  | readUInt32 _ | writeUInt32 .. => 4

/-- The bytes that an access writes, if it is a write. -/
def data? : MemoryAccess → Option (List UInt8)
  | write _ bytes => some bytes
  | writeUInt8 _ value => some (LittleEndian.encode 1 value.toNat)
  | writeUInt16 _ value => some (LittleEndian.encode 2 value.toNat)
  | writeUInt32 _ value => some (LittleEndian.encode 4 value.toNat)
  | _ => none

theorem length_of_data? {access : MemoryAccess} {bytes : List UInt8}
    (h : access.data? = some bytes) : access.length = bytes.length := by
  cases access with
  | write address data | writeUInt8 address value | writeUInt16 address value
  | writeUInt32 address value =>
      cases h
      rfl
  | _ => cases h

/-- The access puts at least one byte into a memory of `size` bytes. -/
def StoresWithin (access : MemoryAccess) (size : UInt64) : Prop :=
  ∃ bytes, access.data? = some bytes ∧ bytes ≠ [] ∧ InRange size access.address bytes.length

end MemoryAccess

namespace Memory

/-- The reply to a write and the memory after it. -/
def settle (m : Memory) : Except MemoryFault Memory → Except MemoryFault MemoryReply × Memory
  | .ok written => (.ok .done, written)
  | .error fault => (.error fault, m)

/-- The reply to an access and the memory after it. -/
def perform (m : Memory) : MemoryAccess → Except MemoryFault MemoryReply × Memory
  | .read address length => ((m.read address length).map .bytes, m)
  | .readNew address length =>
      ((m.check address length).bind fun _ => (m.read address length).map .bytes, m)
  | .readUInt8 address => ((m.readUInt8 address).map .byte, m)
  | .readUInt16 address => ((m.readUInt16 address).map .half, m)
  | .readUInt32 address => ((m.readUInt32 address).map .word, m)
  | .write address bytes => m.settle (m.write address bytes)
  | .writeUInt8 address value => m.settle (m.writeUInt8 address value)
  | .writeUInt16 address value => m.settle (m.writeUInt16 address value)
  | .writeUInt32 address value => m.settle (m.writeUInt32 address value)
  | .check address length => ((m.check address length).map fun _ => .done, m)

/-- The replies to a sequence of accesses and the memory after them. -/
def run (m : Memory) : List MemoryAccess → List (Except MemoryFault MemoryReply) × Memory
  | [] => ([], m)
  | access :: rest =>
      ((m.perform access).1 :: ((m.perform access).2.run rest).1,
        ((m.perform access).2.run rest).2)

@[simp] theorem run_nil (m : Memory) : m.run [] = ([], m) := rfl

theorem run_cons (m : Memory) (access : MemoryAccess) (rest : List MemoryAccess) :
    m.run (access :: rest) =
      ((m.perform access).1 :: ((m.perform access).2.run rest).1,
        ((m.perform access).2.run rest).2) := rfl

/-! ### On a machine -/

/-- The reply to a write and the memory after it, as the machine does it. -/
def checkedSettle (m : Memory) (write : Checked MemoryFault Memory) :
    Option (Except MemoryFault MemoryReply × Memory) := do
  let result ← write.run
  return m.settle result

/-- An access as the machine does it. -/
def checkedPerform [Allocator] (m : Memory) :
    MemoryAccess → Option (Except MemoryFault MemoryReply × Memory)
  | .read address length => do
      let result ← (m.checkedRead address length).run
      return (result.map .bytes, m)
  | .readNew address length => do
      let result ← (m.checkedReadNew address length).run
      return (result.map .bytes, m)
  | .readUInt8 address => do
      let result ← (m.checkedRead address 1).run
      return (result.map fun bytes => .byte (UInt8.ofNat (LittleEndian.decode bytes)), m)
  | .readUInt16 address => do
      let result ← (m.checkedRead address 2).run
      return (result.map fun bytes => .half (UInt16.ofNat (LittleEndian.decode bytes)), m)
  | .readUInt32 address => do
      let result ← (m.checkedRead address 4).run
      return (result.map fun bytes => .word (UInt32.ofNat (LittleEndian.decode bytes)), m)
  | .write address bytes => m.checkedSettle (m.checkedWrite address bytes)
  | .writeUInt8 address value =>
      m.checkedSettle (m.checkedWrite address (LittleEndian.encode 1 value.toNat))
  | .writeUInt16 address value =>
      m.checkedSettle (m.checkedWrite address (LittleEndian.encode 2 value.toNat))
  | .writeUInt32 address value =>
      m.checkedSettle (m.checkedWrite address (LittleEndian.encode 4 value.toNat))
  | .check address length => some ((m.check address length).map fun _ => .done, m)

/-- A sequence of accesses as the machine does them. -/
def checkedRun [Allocator] (m : Memory) :
    List MemoryAccess → Option (List (Except MemoryFault MemoryReply) × Memory)
  | [] => some ([], m)
  | access :: rest => do
      let (reply, next) ← m.checkedPerform access
      let (replies, last) ← next.checkedRun rest
      return (reply :: replies, last)

end Memory

end PacketDma
