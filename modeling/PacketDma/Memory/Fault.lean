/-
**Faults of byte memory.**

An access to memory is refused when its range does not lie inside the memory, and a memory cannot
be built with every size and chunk size.  A fault records the cause; its wording is one function.

Main definitions:

* `PacketDma.MemoryFault` — why an access or a construction was refused;
* `PacketDma.InRange` — a range of addresses lies inside a memory of some size;
* `PacketDma.checkRange` — the test that every access starts with.

Main results:

* `PacketDma.checkRange_eq_ok_iff`, `PacketDma.checkRange_of_not` — the test answers exactly
  whether the range lies inside, and names the access when it does not.
-/

import PacketDma.Hexadecimal

set_option autoImplicit false

namespace PacketDma

/-- Why an access to a memory, or the construction of one, was refused. -/
inductive MemoryFault where
  /-- The range of the access does not lie inside the memory. -/
  | outOfRange (address : UInt64) (length : Nat) (size : UInt64)
  /-- The number of chunks for this size cannot be computed in 64 bits. -/
  | sizeTooLarge (size : UInt64)
  /-- Chunks of this size cannot make up a memory. -/
  | invalidChunkSize (chunkSize : Nat)
deriving DecidableEq, Repr

/-- The wording of a fault. -/
def MemoryFault.message : MemoryFault → String
  | .outOfRange address length size =>
      s!"guest memory access out of range: paddr=0x{Hexadecimal.text address.toNat}" ++
        s!" len={length} size=0x{Hexadecimal.text size.toNat}"
  | .sizeTooLarge size => s!"guest memory size {size.toNat} does not fit in usize"
  | .invalidChunkSize chunkSize => s!"invalid guest memory chunk size {chunkSize}"

/-- The `length` addresses from `address` on lie inside a memory of `size` bytes.  The sum is
taken without wrapping, so a range that passes the largest address lies inside no memory. -/
abbrev InRange (size address : UInt64) (length : Nat) : Prop :=
  address.toNat + length ≤ size.toNat

/-- Refuses a range that does not lie inside a memory of `size` bytes.  An empty range is checked
like any other. -/
def checkRange (size address : UInt64) (length : Nat) : Except MemoryFault Unit :=
  if InRange size address length then .ok () else .error (.outOfRange address length size)

theorem checkRange_of_inRange {size address : UInt64} {length : Nat}
    (h : InRange size address length) : checkRange size address length = .ok () :=
  if_pos h

theorem checkRange_of_not {size address : UInt64} {length : Nat}
    (h : ¬ InRange size address length) :
    checkRange size address length = .error (.outOfRange address length size) :=
  if_neg h

/-- The test passes exactly for the ranges inside the memory. -/
theorem checkRange_eq_ok_iff {size address : UInt64} {length : Nat} :
    checkRange size address length = .ok () ↔ InRange size address length := by
  constructor
  · intro h
    by_cases hr : InRange size address length
    · exact hr
    · rw [checkRange_of_not hr] at h
      cases h
  · exact checkRange_of_inRange

end PacketDma
