/-
**Rewriting descriptors.**

A descriptor that has been decoded holds every bit of its words, also those that belong to no field.
Whoever decodes one may assign new values to its fields and write it back.  What is found later are
the assigned values, each cut to the width of its field, in the words that are written back; what
lies in the other words, and the bits without a meaning, is as it was before.

Status bits are written back without being cut.  One that has no meaning is not found again as a
status bit; it lies in the place of another field or among the bits that belong to none.

Main definitions:

* `PacketDma.TransmitFields`, `PacketDma.ReceiveFields` — values for the fields of a descriptor;
* `PacketDma.TransmitDescriptor.assign`, `PacketDma.ReceiveDescriptor.assign` — the descriptor with
  these values in its fields;
* `PacketDma.TransmitDescriptor.Rewritten`, `PacketDma.ReceiveDescriptor.Rewritten` — what a
  descriptor says after these values have been written back.

Main results:

* `PacketDma.TransmitDescriptor.slot_ofSlot`, `PacketDma.ReceiveDescriptor.slot_ofSlot` — **a
  decoded descriptor holds every bit of its words**;
* `PacketDma.TransmitDescriptor.statusWord_assign`, `PacketDma.ReceiveDescriptor.words_assign` — the
  words that are written back;
* `PacketDma.descriptors_round_trip` — **what is found after a descriptor has been rewritten**.
-/

import PacketDma.Proofs.DescriptorCodec
import PacketDma.Proofs.FillWalk
import PacketDma.Proofs.GatherWalk

set_option autoImplicit false

namespace PacketDma

/-! ### Fields cut to their widths -/

/-- A mask of low bits cuts a number to its width. -/
theorem toNat_and_lowMask (x : UInt32) {mask : UInt32} (width : Nat)
    (hmask : mask.toNat = 2 ^ width - 1) : (x &&& mask).toNat = x.toNat % 2 ^ width := by
  rw [UInt32.toNat_and, hmask, Nat.and_two_pow_sub_one_eq_mod]

theorem toUInt32_mod_lengthMask (x : UInt16) :
    (x % 2048).toUInt32 = x.toUInt32 &&& lengthMask := by
  refine UInt32.toNat.inj ?_
  rw [toNat_and_lowMask _ 11 rfl, UInt16.toNat_toUInt32, UInt16.toNat_toUInt32, UInt16.toNat_mod]
  rfl

theorem toUInt32_mod_mask (x : UInt8) {modulus : UInt8} {mask : UInt32} (width : Nat)
    (hmask : mask.toNat = 2 ^ width - 1) (hmodulus : modulus.toNat = 2 ^ width) :
    (x % modulus).toUInt32 = x.toUInt32 &&& mask := by
  refine UInt32.toNat.inj ?_
  rw [toNat_and_lowMask _ width hmask, UInt8.toNat_toUInt32, UInt8.toNat_toUInt32,
    UInt8.toNat_mod, hmodulus]

theorem toUInt32_toUInt16_eq_and (x : UInt32) : x.toUInt16.toUInt32 = x &&& 0xFFFF := by
  rw [← TransmitDescriptor.toUInt16_and_low]
  exact (inside_and x 0xFFFF).toUInt32_toUInt16 (by decide)

/-- The halves of a word make up the word. -/
theorem halves_of_word (x : UInt32) :
    x.toUInt16.toUInt32 ||| (x >>> 16).toUInt16.toUInt32 <<< 16 = x := by
  rw [toUInt32_toUInt16_eq_and, toUInt32_toUInt16_eq_and, shiftRight_and_shiftLeft, ← and_or]
  exact UInt32.and_neg_one

/-! ### Bits in the place of a field -/

/-- Bits that a word does not have are not in any part of it. -/
theorem and_and_eq_zero {x mask : UInt32} (h : x &&& mask = 0) (y : UInt32) :
    (x &&& y) &&& mask = 0 := by
  rw [UInt32.and_assoc, UInt32.and_comm y, ← UInt32.and_assoc, h, UInt32.zero_and]

theorem shiftRight_and_and_eq_zero {x mask k : UInt32} (h : (x >>> k) &&& mask = 0) (y : UInt32) :
    ((x &&& y) >>> k) &&& mask = 0 := by
  rw [UInt32.shiftRight_and, and_and_eq_zero h]

/-- Bits outside a mask do not change what lies under it. -/
theorem or_and_of_apart {y mask : UInt32} (h : y &&& mask = 0) (x : UInt32) :
    (x ||| y) &&& mask = x &&& mask := by
  rw [or_and, h, UInt32.or_zero]

theorem or_shiftRight_and_of_apart {y mask k : UInt32} (h : (y >>> k) &&& mask = 0) (x : UInt32) :
    ((x ||| y) >>> k) &&& mask = (x >>> k) &&& mask := by
  rw [UInt32.shiftRight_or, or_and_of_apart h]

/-! ### Transmit descriptors -/

/-- Values for the fields of a transmit descriptor. -/
structure TransmitFields where
  next : UInt32
  bufferPointer : UInt32
  bufferOffset : UInt16
  bufferLength : UInt16
  packetLength : UInt16
  toPort : UInt8
  /-- The status bits, also those without a meaning. -/
  status : UInt32
deriving DecidableEq, Repr

namespace TransmitDescriptor

/-- The descriptor with new values in all its fields.  Its address, and the bits that belong to no
field, stay. -/
def assign (d : TransmitDescriptor) (v : TransmitFields) : TransmitDescriptor :=
  { d with
    next := v.next
    bufferPointer := v.bufferPointer
    bufferOffset := v.bufferOffset
    bufferLength := v.bufferLength
    packetLength := v.packetLength
    toPort := v.toPort
    status := v.status }

/-- The descriptor with the new values that are written back, each cut to the width of its field. -/
def rewritten (d : TransmitDescriptor) (v : TransmitFields) : TransmitDescriptor :=
  { d with
    packetLength := v.packetLength % 2048
    toPort := v.toPort % 4
    status := v.status &&& statusMask }

/-- What a descriptor says that is decoded after the values `v` have been written back into the slot
of `d`.  A status bit without a meaning gets lost, and where there is one in the place of another
field, nothing is said about that field. -/
structure Rewritten (d : TransmitDescriptor) (v : TransmitFields) (after : TransmitDescriptor) :
    Prop where
  address : after.address = d.address
  next : after.next = d.next
  bufferPointer : after.bufferPointer = d.bufferPointer
  bufferOffset : after.bufferOffset = d.bufferOffset
  bufferLength : after.bufferLength = d.bufferLength
  packetLength : v.status &&& lengthMask = 0 → after.packetLength = v.packetLength % 2048
  toPort : (v.status >>> 16) &&& portMask = 0 → after.toPort = v.toPort % 4
  status : after.status = v.status &&& statusMask
  reserved : v.status &&& ~~~(lengthMask ||| portMask <<< 16 ||| statusMask) = 0 →
    after.reserved = d.reserved

/-- Every field of the fourth word fits its mask. -/
structure Canonical (d : TransmitDescriptor) : Prop where
  packetLength : Inside d.packetLength.toUInt32 lengthMask
  toPort : Inside d.toPort.toUInt32 portMask
  status : Inside d.status statusMask
  reserved : Inside d.reserved (~~~(lengthMask ||| portMask <<< 16 ||| statusMask))

namespace Canonical

variable {d : TransmitDescriptor}

theorem statusWord_eq (h : d.Canonical) :
    d.statusWord =
      d.packetLength.toUInt32 ||| d.toPort.toUInt32 <<< 16 ||| d.status ||| d.reserved := by
  rw [statusWord, h.packetLength, h.toPort]

theorem statusWord_and_lengthMask (h : d.Canonical) :
    d.statusWord &&& lengthMask = d.packetLength.toUInt32 := by
  rw [h.statusWord_eq, or_and, or_and, or_and, h.packetLength,
    (h.toPort.shiftLeft 16).and_eq_zero rfl, h.status.and_eq_zero rfl,
    h.reserved.and_eq_zero rfl]
  simp only [UInt32.or_zero]

theorem statusWord_shiftRight_and_portMask (h : d.Canonical) :
    (d.statusWord >>> 16) &&& portMask = d.toPort.toUInt32 := by
  have hback : (d.toPort.toUInt32 <<< 16) >>> 16 = d.toPort.toUInt32 :=
    shiftLeft_shiftRight (by decide) (by
      rw [UInt8.toNat_toUInt32]
      exact Nat.lt_trans d.toPort.toNat_lt (by decide))
  rw [h.statusWord_eq]
  simp only [UInt32.shiftRight_or, or_and, hback]
  rw [h.toPort, (h.packetLength.shiftRight 16).and_eq_zero rfl,
    (h.status.shiftRight 16).and_eq_zero rfl, (h.reserved.shiftRight 16).and_eq_zero rfl]
  simp only [UInt32.or_zero, UInt32.zero_or]

theorem statusWord_and_statusMask (h : d.Canonical) : d.statusWord &&& statusMask = d.status := by
  rw [h.statusWord_eq, or_and, or_and, or_and, h.status, h.packetLength.and_eq_zero rfl,
    (h.toPort.shiftLeft 16).and_eq_zero rfl, h.reserved.and_eq_zero rfl]
  simp only [UInt32.or_zero, UInt32.zero_or]

theorem statusWord_and_reserved (h : d.Canonical) :
    d.statusWord &&& ~~~(lengthMask ||| portMask <<< 16 ||| statusMask) = d.reserved := by
  rw [h.statusWord_eq, or_and, or_and, or_and, h.reserved, h.packetLength.and_eq_zero rfl,
    (h.toPort.shiftLeft 16).and_eq_zero rfl, h.status.and_eq_zero rfl]
  simp only [UInt32.zero_or]

end Canonical

/-- **A decoded descriptor holds every bit of its words.** -/
theorem slot_ofSlot (address : UInt32) (w : Slot) : (ofSlot address w).slot = w := by
  have hextent : (ofSlot address w).slot.extent = w.extent := halves_of_word w.extent
  have hstatus : (ofSlot address w).slot.status = w.status := statusWord_ofSlot address w
  calc (ofSlot address w).slot
      = ⟨w.next, w.buffer, (ofSlot address w).slot.extent, (ofSlot address w).slot.status⟩ := rfl
    _ = w := by rw [hextent, hstatus]

theorem toUInt32_mod_portMask (x : UInt8) : (x % 4).toUInt32 = x.toUInt32 &&& portMask :=
  toUInt32_mod_mask x 2 rfl rfl

/-- New values are written back as their cut, and with them all status bits without a meaning. -/
theorem statusWord_assign (d : TransmitDescriptor) (v : TransmitFields) :
    (d.assign v).statusWord = ((d.rewritten v).statusWord ||| v.status &&& ~~~statusMask) := by
  have hlength : (v.packetLength % 2048).toUInt32 &&& lengthMask =
      v.packetLength.toUInt32 &&& lengthMask := by
    rw [toUInt32_mod_lengthMask, UInt32.and_assoc, UInt32.and_self]
  have hport : (v.toPort % 4).toUInt32 &&& portMask = v.toPort.toUInt32 &&& portMask := by
    rw [toUInt32_mod_portMask, UInt32.and_assoc, UInt32.and_self]
  have hstatus : v.status = v.status &&& statusMask ||| v.status &&& ~~~statusMask := by
    rw [← and_or]
    exact UInt32.and_neg_one.symm
  simp only [statusWord, rewritten, assign, hlength, hport]
  conv => lhs; rw [hstatus]
  simp only [UInt32.or_assoc, UInt32.or_comm d.reserved]

theorem canonical_rewritten (address : UInt32) (w : Slot) (v : TransmitFields) :
    ((ofSlot address w).rewritten v).Canonical where
  packetLength := by
    rw [rewritten, toUInt32_mod_lengthMask]
    exact inside_and ..
  toPort := by
    rw [rewritten, toUInt32_mod_portMask]
    exact inside_and ..
  status := inside_and ..
  reserved := inside_and ..

/-- **What is decoded from the words that are written back.** -/
theorem rewritten_ofSlot (address : UInt32) (w : Slot) (v : TransmitFields) :
    (ofSlot address w).Rewritten v
      (ofSlot address { w with status := ((ofSlot address w).assign v).statusWord }) := by
  have hcanonical := canonical_rewritten address w v
  rw [statusWord_assign]
  constructor
  case packetLength =>
    intro hfree
    rw [ofSlot, or_and_of_apart (and_and_eq_zero hfree _), hcanonical.statusWord_and_lengthMask,
      UInt16.toUInt16_toUInt32]
    rfl
  case toPort =>
    intro hfree
    rw [ofSlot, or_shiftRight_and_of_apart (shiftRight_and_and_eq_zero hfree _),
      hcanonical.statusWord_shiftRight_and_portMask, UInt8.toUInt8_toUInt32]
    rfl
  case status =>
    have hlost : (v.status &&& ~~~statusMask) &&& statusMask = 0 := by
      rw [UInt32.and_assoc, UInt32.not_and_self, UInt32.and_zero]
    rw [ofSlot, or_and_of_apart hlost, hcanonical.statusWord_and_statusMask]
    rfl
  case reserved =>
    intro hfree
    rw [ofSlot, or_and_of_apart (and_and_eq_zero hfree _), hcanonical.statusWord_and_reserved]
    rfl
  all_goals rfl

/-- Status bits that all have a meaning are found again, and no field suffers from them. -/
theorem Rewritten.eq_of_inside {d after : TransmitDescriptor} {v : TransmitFields}
    (h : d.Rewritten v after) (hmeaning : Inside v.status statusMask) :
    after =
      { d with
        packetLength := v.packetLength % 2048
        toPort := v.toPort % 4
        status := v.status } := by
  have hlength := h.packetLength (hmeaning.and_eq_zero rfl)
  have hport := h.toPort ((hmeaning.shiftRight 16).and_eq_zero rfl)
  have hreserved := h.reserved (hmeaning.and_eq_zero rfl)
  have hstatus : after.status = v.status := h.status.trans hmeaning
  calc after
      = ⟨after.address, after.next, after.bufferPointer, after.bufferOffset, after.bufferLength,
          after.packetLength, after.toPort, after.status, after.reserved⟩ := rfl
    _ = _ := by
      rw [h.address, h.next, h.bufferPointer, h.bufferOffset, h.bufferLength, hlength, hport,
        hstatus, hreserved]

/-- **A descriptor that has been decoded can be rewritten**, and only its fourth word changes. -/
theorem exists_encode_assign {ram : Aperture} {address : UInt32} {d : TransmitDescriptor}
    (h : decode ram address = .ok d) (v : TransmitFields) :
    ∃ written after, (d.assign v).encode ram = .ok written ∧
      decode written address = .ok after ∧ d.Rewritten v after ∧
      ram.EqOff written (InStatus address) := by
  obtain ⟨hcovers, rfl⟩ := decode_eq_ok_iff.1 h
  obtain ⟨written, hok, heq, hslot⟩ :=
    exists_encode (d := (ofSlot address (ram.slotAt address)).assign v) hcovers
  refine ⟨written, _, hok, decode_eq_ok_iff.2 ⟨heq.covers_iff.2 hcovers, rfl⟩, ?_, heq⟩
  change written.slotAt address = _ at hslot
  rw [hslot]
  exact rewritten_ofSlot address _ v

end TransmitDescriptor

/-! ### Receive descriptors -/

/-- Values for the fields of a receive descriptor. -/
structure ReceiveFields where
  next : UInt32
  bufferPointer : UInt32
  bufferOffset : UInt16
  bufferLength : UInt16
  packetLength : UInt16
  fromPort : UInt8
  packetError : UInt8
  /-- The status bits, also those without a meaning. -/
  status : UInt32
deriving DecidableEq, Repr

namespace ReceiveDescriptor

/-- The descriptor with new values in all its fields.  Its address, and the bits that belong to no
field, stay. -/
def assign (d : ReceiveDescriptor) (v : ReceiveFields) : ReceiveDescriptor :=
  { d with
    next := v.next
    bufferPointer := v.bufferPointer
    bufferOffset := v.bufferOffset
    bufferLength := v.bufferLength
    packetLength := v.packetLength
    fromPort := v.fromPort
    packetError := v.packetError
    status := v.status }

/-- The descriptor with the new values that are written back, each cut to the width of its field. -/
def rewritten (d : ReceiveDescriptor) (v : ReceiveFields) : ReceiveDescriptor :=
  { d with
    bufferOffset := v.bufferOffset % 2048
    bufferLength := v.bufferLength % 2048
    packetLength := v.packetLength % 2048
    fromPort := v.fromPort % 8
    packetError := v.packetError % 4
    status := v.status &&& statusMask }

/-- What a descriptor says that is decoded after the values `v` have been written back into the slot
of `d`.  A status bit without a meaning gets lost, and where there is one in the place of another
field, nothing is said about that field. -/
structure Rewritten (d : ReceiveDescriptor) (v : ReceiveFields) (after : ReceiveDescriptor) :
    Prop where
  address : after.address = d.address
  next : after.next = d.next
  bufferPointer : after.bufferPointer = d.bufferPointer
  bufferOffset : after.bufferOffset = v.bufferOffset % 2048
  bufferLength : after.bufferLength = v.bufferLength % 2048
  packetLength : v.status &&& lengthMask = 0 → after.packetLength = v.packetLength % 2048
  fromPort : (v.status >>> 16) &&& portMask = 0 → after.fromPort = v.fromPort % 8
  packetError : (v.status >>> 20) &&& errorMask = 0 → after.packetError = v.packetError % 4
  status : after.status = v.status &&& statusMask
  reservedExtent : after.reservedExtent = d.reservedExtent
  reservedStatus :
    v.status &&& ~~~(lengthMask ||| portMask <<< 16 ||| errorMask <<< 20 ||| statusMask) = 0 →
    after.reservedStatus = d.reservedStatus

theorem extentWord_ofSlot (address : UInt32) (w : Slot) :
    (ofSlot address w).extentWord = w.extent := by
  have hlength : (ofSlot address w).bufferLength.toUInt32 = w.extent &&& lengthMask :=
    (inside_and ..).toUInt32_toUInt16 (by decide)
  rw [extentWord, hlength, bufferOffset_ofSlot]
  simp only [UInt32.and_assoc, UInt32.and_self, shiftRight_and_shiftLeft]
  rw [ofSlot, ← and_or, ← and_or]
  exact UInt32.and_neg_one

theorem statusWord_ofSlot (address : UInt32) (w : Slot) :
    (ofSlot address w).statusWord = w.status := by
  refine (statusWord_replace address w (w.status &&& statusMask)).trans ?_
  rw [← and_or]
  exact UInt32.and_neg_one

/-- **A decoded descriptor holds every bit of its words.** -/
theorem slot_ofSlot (address : UInt32) (w : Slot) : (ofSlot address w).slot = w := by
  rw [slot, extentWord_ofSlot, statusWord_ofSlot]
  rfl

theorem toUInt32_mod_portMask (x : UInt8) : (x % 8).toUInt32 = x.toUInt32 &&& portMask :=
  toUInt32_mod_mask x 3 rfl rfl

theorem toUInt32_mod_errorMask (x : UInt8) : (x % 4).toUInt32 = x.toUInt32 &&& errorMask :=
  toUInt32_mod_mask x 2 rfl rfl

/-- New values are written back as their cut, and with them all status bits without a meaning. -/
theorem words_assign (d : ReceiveDescriptor) (v : ReceiveFields) :
    (d.assign v).extentWord = (d.rewritten v).extentWord ∧
      (d.assign v).statusWord = ((d.rewritten v).statusWord ||| v.status &&& ~~~statusMask) := by
  have hlength : ∀ x : UInt16, (x % 2048).toUInt32 &&& lengthMask = x.toUInt32 &&& lengthMask := by
    intro x
    rw [toUInt32_mod_lengthMask, UInt32.and_assoc, UInt32.and_self]
  have hport : (v.fromPort % 8).toUInt32 &&& portMask = v.fromPort.toUInt32 &&& portMask := by
    rw [toUInt32_mod_portMask, UInt32.and_assoc, UInt32.and_self]
  have herror : (v.packetError % 4).toUInt32 &&& errorMask =
      v.packetError.toUInt32 &&& errorMask := by
    rw [toUInt32_mod_errorMask, UInt32.and_assoc, UInt32.and_self]
  have hstatus : v.status = v.status &&& statusMask ||| v.status &&& ~~~statusMask := by
    rw [← and_or]
    exact UInt32.and_neg_one.symm
  constructor
  · simp only [extentWord, rewritten, assign, hlength]
  · simp only [statusWord, rewritten, assign, hlength, hport, herror]
    conv => lhs; rw [hstatus]
    simp only [UInt32.or_assoc, UInt32.or_comm d.reservedStatus]

theorem canonical_rewritten (address : UInt32) (w : Slot) (v : ReceiveFields) :
    ((ofSlot address w).rewritten v).Canonical where
  bufferLength := by
    rw [rewritten, toUInt32_mod_lengthMask]
    exact inside_and ..
  bufferOffset := by
    rw [rewritten, toUInt32_mod_lengthMask]
    exact inside_and ..
  packetLength := by
    rw [rewritten, toUInt32_mod_lengthMask]
    exact inside_and ..
  fromPort := by
    rw [rewritten, toUInt32_mod_portMask]
    exact inside_and ..
  packetError := by
    rw [rewritten, toUInt32_mod_errorMask]
    exact inside_and ..
  status := inside_and ..
  reservedExtent := inside_and ..
  reservedStatus := inside_and ..

/-- **What is decoded from the words that are written back.** -/
theorem rewritten_ofSlot (address : UInt32) (w : Slot) (v : ReceiveFields) :
    (ofSlot address w).Rewritten v (ofSlot address
      { w with
        extent := ((ofSlot address w).assign v).extentWord
        status := ((ofSlot address w).assign v).statusWord }) := by
  have hcanonical := canonical_rewritten address w v
  obtain ⟨hextent, hstatus⟩ := words_assign (ofSlot address w) v
  rw [hextent, hstatus]
  constructor
  case bufferOffset =>
    rw [ofSlot, hcanonical.extentWord_shiftRight_and_lengthMask, UInt16.toUInt16_toUInt32]
    rfl
  case bufferLength =>
    rw [ofSlot, hcanonical.extentWord_and_lengthMask, UInt16.toUInt16_toUInt32]
    rfl
  case packetLength =>
    intro hfree
    rw [ofSlot, or_and_of_apart (and_and_eq_zero hfree _), hcanonical.statusWord_and_lengthMask,
      UInt16.toUInt16_toUInt32]
    rfl
  case fromPort =>
    intro hfree
    rw [ofSlot, or_shiftRight_and_of_apart (shiftRight_and_and_eq_zero hfree _),
      hcanonical.statusWord_shiftRight_and_portMask, UInt8.toUInt8_toUInt32]
    rfl
  case packetError =>
    intro hfree
    rw [ofSlot, or_shiftRight_and_of_apart (shiftRight_and_and_eq_zero hfree _),
      hcanonical.statusWord_shiftRight_and_errorMask, UInt8.toUInt8_toUInt32]
    rfl
  case status =>
    have hlost : (v.status &&& ~~~statusMask) &&& statusMask = 0 := by
      rw [UInt32.and_assoc, UInt32.not_and_self, UInt32.and_zero]
    rw [ofSlot, or_and_of_apart hlost, hcanonical.statusWord_and_statusMask]
    rfl
  case reservedExtent =>
    rw [ofSlot, hcanonical.extentWord_and_reserved]
    rfl
  case reservedStatus =>
    intro hfree
    rw [ofSlot, or_and_of_apart (and_and_eq_zero hfree _), hcanonical.statusWord_and_reserved]
    rfl
  all_goals rfl

/-- Status bits that all have a meaning are found again, and no field suffers from them. -/
theorem Rewritten.eq_of_inside {d after : ReceiveDescriptor} {v : ReceiveFields}
    (h : d.Rewritten v after) (hmeaning : Inside v.status statusMask) :
    after =
      { d with
        bufferOffset := v.bufferOffset % 2048
        bufferLength := v.bufferLength % 2048
        packetLength := v.packetLength % 2048
        fromPort := v.fromPort % 8
        packetError := v.packetError % 4
        status := v.status } := by
  have hlength := h.packetLength (hmeaning.and_eq_zero rfl)
  have hport := h.fromPort ((hmeaning.shiftRight 16).and_eq_zero rfl)
  have herror := h.packetError ((hmeaning.shiftRight 20).and_eq_zero rfl)
  have hreserved := h.reservedStatus (hmeaning.and_eq_zero rfl)
  have hstatus : after.status = v.status := h.status.trans hmeaning
  calc after
      = ⟨after.address, after.next, after.bufferPointer, after.bufferOffset, after.bufferLength,
          after.packetLength, after.fromPort, after.packetError, after.status,
          after.reservedExtent, after.reservedStatus⟩ := rfl
    _ = _ := by
      rw [h.address, h.next, h.bufferPointer, h.bufferOffset, h.bufferLength, hlength, hport,
        herror, hstatus, h.reservedExtent, hreserved]

/-- **A descriptor that has been decoded can be rewritten**, and only its third and fourth words
change. -/
theorem exists_encode_assign {ram : Aperture} {address : UInt32} {d : ReceiveDescriptor}
    (h : decode ram address = .ok d) (v : ReceiveFields) :
    ∃ written after, (d.assign v).encode ram = .ok written ∧
      decode written address = .ok after ∧ d.Rewritten v after ∧
      ram.EqOff written (InReport address) := by
  obtain ⟨hcovers, rfl⟩ := decode_eq_ok_iff.1 h
  obtain ⟨written, hok, heq, hslot⟩ :=
    exists_encode (d := (ofSlot address (ram.slotAt address)).assign v) hcovers
  refine ⟨written, _, hok, decode_eq_ok_iff.2 ⟨heq.covers_iff.2 hcovers, rfl⟩, ?_, heq⟩
  change written.slotAt address = _ at hslot
  rw [hslot]
  exact rewritten_ofSlot address _ v

end ReceiveDescriptor

/-! ### Both layouts -/

/-- **What is found after a descriptor has been rewritten.**  A decoded descriptor holds every bit
of its words.  And when new values are assigned to the fields of a descriptor that has been decoded,
writing it back succeeds, and no byte of the RAM changes outside the words that are written back.

If all assigned status bits have a meaning, the next one to decode the descriptor finds the fields of
these words with their new values, cut to their widths, and all other fields and the bits without a
meaning as they were.  Other status bits are not found as such.  They do not touch the words before,
and they leave every field alone in whose place there is none of them. -/
theorem descriptors_round_trip :
    (∀ (address : UInt32) (w : Slot),
      (TransmitDescriptor.ofSlot address w).slot = w ∧
      (ReceiveDescriptor.ofSlot address w).slot = w) ∧
    (∀ (ram : Aperture) (address : UInt32) (d : TransmitDescriptor) (v : TransmitFields),
      TransmitDescriptor.decode ram address = .ok d →
      ∃ written after, (d.assign v).encode ram = .ok written ∧
        TransmitDescriptor.decode written address = .ok after ∧
        (v.status &&& TransmitDescriptor.statusMask = v.status →
          after =
            { d with
              packetLength := v.packetLength % 2048
              toPort := v.toPort % 4
              status := v.status }) ∧
        d.Rewritten v after ∧ written.SameExtent ram ∧
        ∀ i, ¬ (address.toNat + 12 ≤ i ∧ i < address.toNat + 16) →
          written.byteAt i = ram.byteAt i) ∧
    ∀ (ram : Aperture) (address : UInt32) (d : ReceiveDescriptor) (v : ReceiveFields),
      ReceiveDescriptor.decode ram address = .ok d →
      ∃ written after, (d.assign v).encode ram = .ok written ∧
        ReceiveDescriptor.decode written address = .ok after ∧
        (v.status &&& ReceiveDescriptor.statusMask = v.status →
          after =
            { d with
              bufferOffset := v.bufferOffset % 2048
              bufferLength := v.bufferLength % 2048
              packetLength := v.packetLength % 2048
              fromPort := v.fromPort % 8
              packetError := v.packetError % 4
              status := v.status }) ∧
        d.Rewritten v after ∧ written.SameExtent ram ∧
        ∀ i, ¬ (address.toNat + 8 ≤ i ∧ i < address.toNat + 16) →
          written.byteAt i = ram.byteAt i := by
  refine ⟨fun address w => ?_, fun ram address d v h => ?_, fun ram address d v h => ?_⟩
  · exact ⟨TransmitDescriptor.slot_ofSlot address w, ReceiveDescriptor.slot_ofSlot address w⟩
  · obtain ⟨written, after, hok, hdecode, hafter, hsame, hbytes⟩ :=
      TransmitDescriptor.exists_encode_assign h v
    exact ⟨written, after, hok, hdecode, hafter.eq_of_inside, hafter, hsame, hbytes⟩
  · obtain ⟨written, after, hok, hdecode, hafter, hsame, hbytes⟩ :=
      ReceiveDescriptor.exists_encode_assign h v
    exact ⟨written, after, hok, hdecode, hafter.eq_of_inside, hafter, hsame, hbytes⟩

/-- Values that are too wide for their fields are assigned to a transmit and to a receive descriptor
with bits that have no meaning.  The pointers stay, these bits stay, and the values are cut. -/
theorem wide_values_are_cut :
    let ram := ((⟨0x48486000, .dense (Dense.ofSize 64)⟩ : Aperture).writeWords 0x48486000
      [0x48486010, 0x100, 0x00040040, 0x2000F040, 0, 0x200, 0x40001040, 0x20002000]).1
    (∃ written d,
      ((ram.transmitAt 0x48486000).assign ⟨7, 7, 7, 7, 0x0FFF, 6, 0x10000000⟩).encode ram =
        .ok written ∧
      TransmitDescriptor.decode written 0x48486000 = .ok d ∧
      d.next = 0x48486010 ∧ d.bufferLength = 0x40 ∧ d.packetLength = 0x7FF ∧ d.toPort = 2 ∧
      d.status = Status.endOfQueue ∧ d.reserved = 0xF000) ∧
    ∃ written d,
      ((ram.descriptorAt 0x48486010).assign ⟨7, 7, 0x0810, 0x0FFF, 60, 9, 7, 0xF0000000⟩).encode
        ram = .ok written ∧
      ReceiveDescriptor.decode written 0x48486010 = .ok d ∧
      d.next = 0 ∧ d.bufferPointer = 0x200 ∧ d.bufferOffset = 0x10 ∧ d.bufferLength = 0x7FF ∧
      d.fromPort = 1 ∧ d.packetError = 3 ∧ d.status = 0xF0000000 ∧
      d.reservedExtent = 0x40001000 ∧ d.reservedStatus = 0x2000 := by
  intro ram
  obtain ⟨-, htransmit, hreceive⟩ := descriptors_round_trip
  constructor
  · obtain ⟨written, d, hok, hdecode, hafter, -⟩ :=
      htransmit ram 0x48486000 (ram.transmitAt 0x48486000) ⟨7, 7, 7, 7, 0x0FFF, 6, 0x10000000⟩
        (by decide +kernel)
    refine ⟨written, d, hok, hdecode, ?_⟩
    rw [hafter (by decide)]
    decide +kernel
  · obtain ⟨written, d, hok, hdecode, hafter, -⟩ :=
      hreceive ram 0x48486010 (ram.descriptorAt 0x48486010)
        ⟨7, 7, 0x0810, 0x0FFF, 60, 9, 7, 0xF0000000⟩ (by decide +kernel)
    refine ⟨written, d, hok, hdecode, ?_⟩
    rw [hafter (by decide)]
    decide +kernel

/-- A status bit without a meaning is assigned to a transmit descriptor together with the length 0.
Whoever decodes it next finds no status bit, and the length 1. -/
theorem meaningless_status_bit_becomes_length :
    let ram : Aperture := ⟨0x48486000, .dense (Dense.ofSize 16)⟩
    let v : TransmitFields := ⟨0, 0, 0, 0, 0, 0, 1⟩
    ∃ d written after, TransmitDescriptor.decode ram 0x48486000 = .ok d ∧
      (d.assign v).encode ram = .ok written ∧
      TransmitDescriptor.decode written 0x48486000 = .ok after ∧
      after.status = 0 ∧ after.status ≠ v.status ∧
      after.packetLength = 1 ∧ after.packetLength ≠ v.packetLength % 2048 := by
  intro ram v
  have hdecode : TransmitDescriptor.decode ram 0x48486000 = .ok (ram.transmitAt 0x48486000) := by
    decide +kernel
  obtain ⟨written, after, hok, hafter, -⟩ := TransmitDescriptor.exists_encode_assign hdecode v
  have hvalue : (((ram.transmitAt 0x48486000).assign v).encode ram).bind
      (TransmitDescriptor.decode · 0x48486000) =
        .ok { ram.transmitAt 0x48486000 with packetLength := 1 } := by
    decide +kernel
  rw [hok] at hvalue
  cases hafter.symm.trans hvalue
  exact ⟨_, written, _, hdecode, hok, hafter, by decide +kernel⟩

end PacketDma
