/-
**An aperture is its memory, moved by the base.**

Private memory is accessed by bus address through its aperture, and directly by offset.  However
the two are mixed, the aperture shows the memory behind it, with every address moved by the base:
an access by bus address is the access at the offset if its range lies inside the aperture, and
otherwise it is refused and changes nothing.  Inside means inside in unbounded numbers, also where
the aperture ends past the largest bus address.  The machine, whose sums and differences have 64
bits, decides it alike.

Main definitions:

* `PacketDma.ApertureAccess`, `PacketDma.ApertureCall` — the accesses by bus address, and all that
  can be asked of an aperture and of the memory behind it;
* `PacketDma.Aperture.run` — a sequence of calls, with the replies;
* `PacketDma.Aperture.inner?` — the access to the memory that a call stands for;
* `PacketDma.Aperture.wordTranslate` — translation in the arithmetic of the machine.

Main results:

* `PacketDma.Aperture.perform_of_covers`, `PacketDma.Aperture.perform_of_not` — what an access does
  inside the aperture and outside;
* `PacketDma.Aperture.run_eq` — **calls change the memory as their inner accesses do**;
* `PacketDma.Aperture.wordTranslate_eq` — no sum or difference of the translation wraps;
* `PacketDma.Aperture.is_memory_moved_by_base` — **an aperture is its memory, moved by the base**.
-/

import PacketDma.Machine
import PacketDma.Proofs.ByteView
import PacketDma.Proofs.MemoryRefinement

set_option autoImplicit false

namespace PacketDma

/-! ### Calls -/

/-- An access by bus address. -/
inductive ApertureAccess where
  | read (address : UInt64) (length : Nat)
  | write (address : UInt64) (bytes : List UInt8)
  | readUInt32 (address : UInt64)
  | writeUInt32 (address : UInt64) (value : UInt32)
deriving DecidableEq, Repr

namespace ApertureAccess

/-- The first bus address of an access. -/
def address : ApertureAccess → UInt64
  | read address _ | write address _ | readUInt32 address | writeUInt32 address _ => address

/-- The number of bytes of an access. -/
def length : ApertureAccess → Nat
  | read _ length => length
  | write _ bytes => bytes.length
  | readUInt32 _ | writeUInt32 .. => 4

/-- The access to the memory itself that begins at an offset. -/
def atOffset (offset : UInt64) : ApertureAccess → MemoryAccess
  | read _ length => .read offset length
  | write _ bytes => .write offset bytes
  | readUInt32 _ => .readUInt32 offset
  | writeUInt32 _ value => .writeUInt32 offset value

@[simp] theorem address_atOffset (offset : UInt64) (access : ApertureAccess) :
    (access.atOffset offset).address = offset := by
  cases access <;> rfl

@[simp] theorem length_atOffset (offset : UInt64) (access : ApertureAccess) :
    (access.atOffset offset).length = access.length := by
  cases access <;> rfl

end ApertureAccess

/-- What can be asked of an aperture, and of the memory behind it. -/
inductive ApertureCall where
  | access (access : ApertureAccess)
  | translate (address : UInt64) (length : Nat)
  | contains (address : UInt64) (length : Nat)
  /-- An access past the aperture, by offset. -/
  | direct (access : MemoryAccess)
deriving DecidableEq, Repr

/-- The answer to a call. -/
inductive ApertureReply where
  | memory (result : Except MemoryFault MemoryReply)
  | offset (result : Except MemoryFault UInt64)
  | inside (answer : Bool)

namespace Aperture

/-- The reply to a write and the aperture after it. -/
def settle (a : Aperture) : Except MemoryFault Aperture → Except MemoryFault MemoryReply × Aperture
  | .ok written => (.ok .done, written)
  | .error fault => (.error fault, a)

/-- The reply to an access by bus address and the aperture after it. -/
def perform (a : Aperture) : ApertureAccess → Except MemoryFault MemoryReply × Aperture
  | .read address length => ((a.read address length).map .bytes, a)
  | .write address bytes => a.settle (a.write address bytes)
  | .readUInt32 address => ((a.readUInt32 address).map .word, a)
  | .writeUInt32 address value => a.settle (a.writeUInt32 address value)

/-- The reply to an access to the memory itself and the aperture after it. -/
def direct (a : Aperture) (access : MemoryAccess) : Except MemoryFault MemoryReply × Aperture :=
  ((a.store.perform access).1, { a with store := (a.store.perform access).2 })

/-- The reply to a call and the aperture after it. -/
def call (a : Aperture) : ApertureCall → ApertureReply × Aperture
  | .access access => (.memory (a.perform access).1, (a.perform access).2)
  | .translate address length => (.offset (a.translate address length), a)
  | .contains address length => (.inside (a.contains address length), a)
  | .direct access => (.memory (a.direct access).1, (a.direct access).2)

/-- The replies to a sequence of calls and the aperture after them. -/
def run (a : Aperture) : List ApertureCall → List ApertureReply × Aperture
  | [] => ([], a)
  | call :: rest =>
      ((a.call call).1 :: ((a.call call).2.run rest).1, ((a.call call).2.run rest).2)

/-- The access to the memory that a call stands for.  There is none for a call that only asks, and
none for an access that leaves the aperture. -/
def inner? (a : Aperture) : ApertureCall → Option MemoryAccess
  | .access access =>
      if a.Covers access.address access.length then
        some (access.atOffset (access.address - a.base))
      else none
  | .translate .. | .contains .. => none
  | .direct access => some access

variable {a : Aperture}

/-! ### One access -/

theorem settle_write_of_covers {address : UInt64} {bytes : List UInt8}
    (h : a.Covers address bytes.length) :
    a.settle (a.write address bytes) =
      ((a.store.settle (a.store.write (address - a.base) bytes)).1,
        { a with store := (a.store.settle (a.store.write (address - a.base) bytes)).2 }) := by
  rw [write_of_covers h]
  cases a.store.write (address - a.base) bytes <;> rfl

theorem settle_write_of_not {address : UInt64} {bytes : List UInt8}
    (h : ¬ a.Covers address bytes.length) :
    a.settle (a.write address bytes) = (.error (.outOfRange address bytes.length a.limit), a) := by
  rw [write_of_not h]
  rfl

theorem readUInt32_eq_map (a : Aperture) (address : UInt64) :
    a.readUInt32 address =
      (a.read address 4).map fun bytes => UInt32.ofNat (LittleEndian.decode bytes) := by
  rw [readUInt32]
  cases a.read address 4 <;> rfl

/-- **An access inside the aperture is the access at the offset.** -/
theorem perform_of_covers {access : ApertureAccess} (h : a.Covers access.address access.length) :
    a.perform access = a.direct (access.atOffset (access.address - a.base)) := by
  cases access with
  | read address length =>
      simp only [ApertureAccess.address, ApertureAccess.length] at h ⊢
      rw [perform, read_of_covers h]
      rfl
  | readUInt32 address =>
      simp only [ApertureAccess.address, ApertureAccess.length] at h ⊢
      rw [perform, readUInt32_eq_map, read_of_covers h]
      simp only [direct, ApertureAccess.atOffset, Memory.perform, Memory.readUInt32_eq_map]
  | write address bytes | writeUInt32 address value => exact settle_write_of_covers h

/-- **An access that leaves the aperture is refused, and changes nothing.** -/
theorem perform_of_not {access : ApertureAccess} (h : ¬ a.Covers access.address access.length) :
    a.perform access = (.error (.outOfRange access.address access.length a.limit), a) := by
  cases access with
  | read address length =>
      simp only [ApertureAccess.address, ApertureAccess.length] at h ⊢
      rw [perform, read_of_not h]
      rfl
  | readUInt32 address =>
      simp only [ApertureAccess.address, ApertureAccess.length] at h ⊢
      rw [perform, readUInt32_eq_map, read_of_not h]
      rfl
  | write address bytes | writeUInt32 address value => exact settle_write_of_not h

/-- An access is answered, and not refused, exactly inside the aperture. -/
theorem exists_perform_iff {access : ApertureAccess} :
    (∃ reply, (a.perform access).1 = .ok reply) ↔ a.Covers access.address access.length := by
  by_cases h : a.Covers access.address access.length
  · let inner := access.atOffset (access.address - a.base)
    have hinner : InRange a.store.size inner.address inner.length := by
      simpa [inner] using inRange_of_covers h
    obtain ⟨reply, next, hreply⟩ := Memory.exists_perform hinner
    refine iff_of_true ⟨reply, ?_⟩ h
    rw [perform_of_covers h, direct, hreply]
  · refine iff_of_false ?_ h
    rintro ⟨reply, hreply⟩
    rw [perform_of_not h] at hreply
    cases hreply

/-- A range is translated exactly inside the aperture. -/
theorem exists_translate_iff {address : UInt64} {length : Nat} :
    (∃ offset, a.translate address length = .ok offset) ↔ a.Covers address length := by
  by_cases h : a.Covers address length
  · exact iff_of_true ⟨_, translate_of_covers h⟩ h
  · refine iff_of_false ?_ h
    rintro ⟨offset, hoffset⟩
    rw [translate_of_not h] at hoffset
    cases hoffset

theorem contains_iff {address : UInt64} {length : Nat} :
    a.contains address length = true ↔ a.Covers address length := by
  by_cases h : a.Covers address length
  · refine iff_of_true ?_ h
    rw [contains, translate_of_covers h]
    rfl
  · refine iff_of_false ?_ h
    rw [contains, translate_of_not h]
    exact Bool.false_ne_true

/-! ### One call -/

/-- Which accesses calls stand for is a matter of the extent. -/
theorem SameExtent.inner?_eq {other : Aperture} (h : a.SameExtent other) :
    a.inner? = other.inner? := by
  funext call
  cases call with
  | access access => simp only [inner?, h.covers_iff, h.1]
  | _ => rfl

/-- **A call changes the memory as its inner access does**, and nothing else. -/
theorem call_eq (a : Aperture) (call : ApertureCall) :
    (a.call call).2 = { a with store := (a.store.run (a.inner? call).toList).2 } := by
  cases call with
  | access access =>
      by_cases h : a.Covers access.address access.length
      · simp only [Aperture.call, inner?, if_pos h, perform_of_covers h]
        rfl
      · simp only [Aperture.call, inner?, if_neg h, perform_of_not h]
        rfl
  | _ => rfl

theorem sameExtent_call (a : Aperture) (call : ApertureCall) : (a.call call).2.SameExtent a := by
  rw [call_eq]
  exact ⟨rfl, a.store.size_run _⟩

/-! ### Sequences of calls -/

/-- **Calls change the memory as their inner accesses do**, and nothing else. -/
theorem run_eq (a : Aperture) (calls : List ApertureCall) :
    (a.run calls).2 = { a with store := (a.store.run (calls.filterMap a.inner?)).2 } := by
  induction calls generalizing a with
  | nil => rfl
  | cons call rest ih =>
      refine (ih _).trans ?_
      rw [(a.sameExtent_call call).inner?_eq, call_eq]
      cases hinner : a.inner? call with
      | none => rw [List.filterMap_cons_none hinner]; rfl
      | some access => rw [List.filterMap_cons_some hinner]; rfl

theorem run_snoc (a : Aperture) (calls : List ApertureCall) (call : ApertureCall) :
    a.run (calls ++ [call]) =
      ((a.run calls).1 ++ [((a.run calls).2.call call).1], ((a.run calls).2.call call).2) := by
  induction calls generalizing a with
  | nil => rfl
  | cons first rest ih =>
      rw [List.cons_append, run, ih]
      rfl

theorem sameExtent_run (a : Aperture) (calls : List ApertureCall) :
    (a.run calls).2.SameExtent a := by
  rw [run_eq]
  exact ⟨rfl, a.store.size_run _⟩

end Aperture

/-! ### The arithmetic of the machine -/

namespace Machine

/-- The difference of two addresses, which must not be negative. -/
def subAddress (a b : UInt64) : Option UInt64 := within (b ≤ a) (a - b)

/-- The sum of two addresses, or the largest address in its place. -/
def addOrLargest (a b : UInt64) : UInt64 := (addAddress a b).getD (UInt64.ofNat (UInt64.size - 1))

theorem toNat_addOrLargest (a b : UInt64) :
    (addOrLargest a b).toNat = min (a.toNat + b.toNat) (UInt64.size - 1) := by
  unfold addOrLargest addAddress
  by_cases h : a.toNat + b.toNat < UInt64.size
  · rw [within_of h, Option.getD_some, UInt64.toNat_add, Nat.mod_eq_of_lt h]
    omega
  · rw [within_eq_none_iff.2 h, Option.getD_none, Nat.min_eq_right (by omega)]
    rfl

/-- The test of a range, with the end of the range as an address. -/
def checkRange (size address length : UInt64) : Except MemoryFault Unit :=
  match addAddress address length with
  | some stop => if stop ≤ size then .ok () else .error (.outOfRange address length.toNat size)
  | none => .error (.outOfRange address length.toNat size)

theorem checkRange_eq (size address length : UInt64) :
    checkRange size address length = PacketDma.checkRange size address length.toNat := by
  unfold checkRange PacketDma.checkRange
  by_cases h : address.toNat + length.toNat < UInt64.size
  · have hstop : (address + length).toNat = address.toNat + length.toNat := by
      rw [UInt64.toNat_add, Nat.mod_eq_of_lt h]
    simp only [addAddress_of_lt h, UInt64.le_iff_toNat_le, hstop]
  · have hout : ¬ InRange size address length.toNat := by
      have hsize := size.toNat_lt
      unfold UInt64.size at h
      omega
    rw [addAddress, within_eq_none_iff.2 h, if_neg hout]

end Machine

namespace Aperture

/-- Translation in the arithmetic of the machine: the difference to the base must not be negative,
the end of the range must be representable, and the reported size is the largest address where the
end of the aperture is not. -/
def wordTranslate (a : Aperture) (address length : UInt64) : Except MemoryFault UInt64 :=
  let refusal := .outOfRange address length.toNat (Machine.addOrLargest a.base a.size)
  match Machine.subAddress address a.base with
  | none => .error refusal
  | some offset =>
      match Machine.checkRange a.size offset length with
      | .ok _ => .ok offset
      | .error _ => .error refusal

theorem toNat_limit (a : Aperture) :
    a.limit.toNat = min (a.base.toNat + a.size.toNat) (UInt64.size - 1) := by
  rw [limit, UInt64.toNat_ofNat', Nat.mod_eq_of_lt]
  exact Nat.lt_of_le_of_lt (Nat.min_le_right ..) (by decide)

/-- **No sum or difference of the translation wraps.** -/
theorem wordTranslate_eq (a : Aperture) (address length : UInt64) :
    a.wordTranslate address length = a.translate address length.toNat := by
  have hlimit : Machine.addOrLargest a.base a.size = a.limit :=
    UInt64.toNat.inj ((Machine.toNat_addOrLargest ..).trans a.toNat_limit.symm)
  unfold wordTranslate
  rw [hlimit, Machine.subAddress]
  by_cases hbase : a.base ≤ address
  · rw [Machine.within_of hbase]
    simp only [Machine.checkRange_eq]
    by_cases hrange : InRange a.size (address - a.base) length.toNat
    · rw [checkRange_of_inRange hrange, translate, if_pos ⟨hbase, hrange⟩]
    · rw [checkRange_of_not hrange, translate, if_neg fun h => hrange h.2]
  · rw [Machine.within_eq_none_iff.2 hbase, translate, if_neg fun h => hbase h.1]

/-! ### The whole history -/

/-- **An aperture is its memory, moved by the base.**  Take any base, any contiguous or chunked
memory and any sequence of calls, by bus address and past the aperture.  The memory behind the
aperture is then the one that the inner accesses alone have left, and base and size are as they
were.  An access by bus address is answered if and only if its range lies inside the aperture, in
unbounded numbers; it is then, in effect and result, the access to the memory at the offset, and
otherwise it changes nothing and is refused, with its own address and length and with the end of the
aperture, or the largest address in its place.  Translation gives the offset in the same cases, and
an aperture contains the ranges that it translates.  The machine translates alike. -/
theorem is_memory_moved_by_base (a : Aperture) (history : List ApertureCall) :
    let b := (a.run history).2
    let Inside (address : UInt64) (length : Nat) : Prop :=
      a.base.toNat ≤ address.toNat ∧
        address.toNat + length ≤ a.base.toNat + a.store.size.toNat
    let refusal (address : UInt64) (length : Nat) : MemoryFault :=
      .outOfRange address length a.limit
    a.limit.toNat = min (a.base.toNat + a.store.size.toNat) (UInt64.size - 1) ∧
    b.base = a.base ∧ b.store.size = a.store.size ∧
    b.store = (a.store.run (history.filterMap a.inner?)).2 ∧
    (∀ call, a.run (history ++ [call]) =
      ((a.run history).1 ++ [(b.call call).1], (b.call call).2)) ∧
    (∀ access : ApertureAccess,
      ((∃ reply, (b.perform access).1 = .ok reply) ↔ Inside access.address access.length) ∧
      (Inside access.address access.length → ∃ offset : UInt64,
        a.base.toNat + offset.toNat = access.address.toNat ∧
        b.perform access = b.direct (access.atOffset offset)) ∧
      (¬ Inside access.address access.length →
        b.perform access = (.error (refusal access.address access.length), b))) ∧
    (∀ (address : UInt64) (length : Nat),
      (Inside address length → ∃ offset : UInt64,
        a.base.toNat + offset.toNat = address.toNat ∧ b.translate address length = .ok offset) ∧
      (¬ Inside address length → b.translate address length = .error (refusal address length)) ∧
      (b.contains address length = true ↔ ∃ offset, b.translate address length = .ok offset)) ∧
    ∀ address length : UInt64,
      b.wordTranslate address length = b.translate address length.toNat := by
  intro b Inside refusal
  have hextent : b.SameExtent a := a.sameExtent_run history
  have hcovers (address : UInt64) (length : Nat) :
      b.Covers address length ↔ Inside address length := hextent.covers_iff
  have hlimit : b.limit = a.limit := by rw [limit, limit, hextent.1, hextent.2]
  -- the offset, without the wrapping of its difference
  have hoffset {address : UInt64} {length : Nat} (h : b.Covers address length) :
      a.base.toNat + (address - b.base).toNat = address.toNat := by
    rw [toNat_sub_base h, ← hextent.1]
    exact Nat.add_sub_cancel' h.1
  refine ⟨a.toNat_limit, hextent.1, hextent.2, ?_, a.run_snoc history, ?_, ?_, b.wordTranslate_eq⟩
  · exact congrArg Aperture.store (a.run_eq history)
  · intro access
    rw [← hcovers]
    refine ⟨exists_perform_iff, fun h => ⟨_, hoffset h, perform_of_covers h⟩, fun h => ?_⟩
    rw [perform_of_not h, hlimit]
  · intro address length
    rw [← hcovers]
    refine ⟨fun h => ⟨_, hoffset h, translate_of_covers h⟩, fun h => ?_,
      contains_iff.trans exists_translate_iff.symm⟩
    rw [translate_of_not h, hlimit]

/-- Sixteen bytes, the last eight of them past the largest bus address.  Words are written by bus
address and by offset, and a word is read over both.  All bytes can then be read at once, a write
below the base is refused, and an empty range is inside at the base and outside one byte below. -/
theorem aperture_past_the_largest_address :
    let a : Aperture := ⟨0xFFFFFFFFFFFFFFF8, .dense (Dense.ofSize 16)⟩
    let history : List ApertureCall :=
      [.access (.writeUInt32 0xFFFFFFFFFFFFFFFC 0x04030201), .direct (.writeUInt32 8 0x08070605),
        .access (.readUInt32 0xFFFFFFFFFFFFFFFF)]
    let b := (a.run history).2
    (a.run history).1 =
      [.memory (.ok .done), .memory (.ok .done), .memory (.ok (.word 0x07060504))] ∧
    b.perform (.read 0xFFFFFFFFFFFFFFF8 16) = b.direct (.read 0 16) ∧
    b.perform (.write 0 [9]) = (.error (.outOfRange 0 1 0xFFFFFFFFFFFFFFFF), b) ∧
    b.translate 0xFFFFFFFFFFFFFFF8 0 = .ok 0 ∧
    b.translate 0xFFFFFFFFFFFFFFF7 0 =
      .error (.outOfRange 0xFFFFFFFFFFFFFFF7 0 0xFFFFFFFFFFFFFFFF) := by
  intro a history b
  obtain ⟨-, -, -, -, -, haccess, htranslate, -⟩ := is_memory_moved_by_base a history
  obtain ⟨-, hread, -⟩ := haccess (.read 0xFFFFFFFFFFFFFFF8 16)
  obtain ⟨-, -, hwrite⟩ := haccess (.write 0 [9])
  obtain ⟨hinside, -, -⟩ := htranslate 0xFFFFFFFFFFFFFFF8 0
  obtain ⟨-, hbelow, -⟩ := htranslate 0xFFFFFFFFFFFFFFF7 0
  have hzero {offset : UInt64} (h : a.base.toNat + offset.toNat = a.base.toNat) : offset = 0 :=
    UInt64.toNat.inj (Nat.add_left_cancel h)
  refine ⟨?_, ?_, hwrite (by decide), ?_, hbelow (by decide)⟩
  · subst history a
    rfl
  · obtain ⟨offset, hoffset, hsame⟩ := hread (by decide)
    obtain rfl := hzero hoffset
    exact hsame
  · obtain ⟨offset, hoffset, hsame⟩ := hinside (by decide)
    obtain rfl := hzero hoffset
    exact hsame

end Aperture

end PacketDma
