/-
**The words of a descriptor.**

A word of a descriptor is a union of fields whose masks do not overlap.  Taking a field out of the
union that the engine has written gives the field back, as long as it fits its mask; so what the
engine reports in a descriptor is what software, or the engine itself, reads out of it later.

Main definitions:

* `PacketDma.Inside` — all bits of a word are bits of a mask;
* `PacketDma.ReceiveDescriptor.Canonical` — every field of a receive descriptor fits its mask.

Main results:

* `PacketDma.ReceiveDescriptor.ofSlot_slot` — **a canonical descriptor is decoded from its words**;
* `PacketDma.ReceiveDescriptor.extentWord_filled_of_ofSlot`,
  `PacketDma.ReceiveDescriptor.statusWord_filled_of_ofSlot`,
  `PacketDma.ReceiveDescriptor.statusWord_announce_of_ofSlot` — the words that a report consists of;
* `PacketDma.TransmitDescriptor.statusWord_ofSlot` — a decoded descriptor is written back as it was;
* `PacketDma.TransmitDescriptor.bufferLength_ofSlot_extentWord`,
  `PacketDma.TransmitDescriptor.bufferOffset_ofSlot_extentWord` — the transmit side reads the same
  length and offset out of the third word of a receive descriptor.
-/

import Mathlib.Algebra.Ring.Nat
import PacketDma.Chain.Report

set_option autoImplicit false

namespace PacketDma

/-! ### Masks -/

/-- All bits of `x` are bits of `mask`. -/
def Inside (x mask : UInt32) : Prop := x &&& mask = x

theorem inside_and (x mask : UInt32) : Inside (x &&& mask) mask := by
  rw [Inside, UInt32.and_assoc, UInt32.and_self]

theorem or_and (x y mask : UInt32) : (x ||| y) &&& mask = x &&& mask ||| y &&& mask :=
  UInt32.toBitVec_inj.1 (by simp [BitVec.and_or_distrib_right])

theorem and_or (x a b : UInt32) : x &&& (a ||| b) = x &&& a ||| x &&& b :=
  UInt32.toBitVec_inj.1 (by simp [BitVec.and_or_distrib_left])

theorem inside_of_toNat_lt {x mask : UInt32} (width : Nat) (hmask : mask.toNat = 2 ^ width - 1)
    (h : x.toNat < 2 ^ width) : Inside x mask := by
  refine UInt32.toNat.inj ?_
  rw [UInt32.toNat_and, hmask, Nat.and_two_pow_sub_one_eq_mod, Nat.mod_eq_of_lt h]

namespace Inside

variable {x y mask other : UInt32}

/-- Another mask without a common bit finds nothing. -/
theorem and_eq_zero (h : Inside x mask) (hapart : mask &&& other = 0) : x &&& other = 0 := by
  rw [← h, UInt32.and_assoc, hapart, UInt32.and_zero]

/-- Another mask with all the bits finds everything. -/
theorem and_eq_self (h : Inside x mask) (hsub : mask &&& other = mask) : x &&& other = x := by
  rw [← h, UInt32.and_assoc, hsub]

theorem mono (h : Inside x mask) (hsub : mask &&& other = mask) : Inside x other :=
  h.and_eq_self hsub

theorem or (hx : Inside x mask) (hy : Inside y mask) : Inside (x ||| y) mask := by
  rw [Inside, or_and, hx, hy]

theorem and (h : Inside x mask) (y : UInt32) : Inside (x &&& y) mask := by
  rw [Inside, UInt32.and_assoc, UInt32.and_comm y, ← UInt32.and_assoc, h]

theorem shiftLeft (h : Inside x mask) (k : UInt32) : Inside (x <<< k) (mask <<< k) := by
  rw [Inside, ← UInt32.shiftLeft_and, h]

theorem shiftRight (h : Inside x mask) (k : UInt32) : Inside (x >>> k) (mask >>> k) := by
  rw [Inside, ← UInt32.shiftRight_and, h]

theorem toNat_le (h : Inside x mask) : x.toNat ≤ mask.toNat := by
  rw [← h, UInt32.toNat_and]
  exact Nat.and_le_right

theorem toUInt32_toUInt16 (h : Inside x mask) (hmask : mask.toNat < 2 ^ 16) :
    x.toUInt16.toUInt32 = x := by
  refine UInt32.toNat.inj ?_
  rw [UInt16.toNat_toUInt32, UInt32.toNat_toUInt16,
    Nat.mod_eq_of_lt (Nat.lt_of_le_of_lt h.toNat_le hmask)]

theorem toUInt32_toUInt8 (h : Inside x mask) (hmask : mask.toNat < 2 ^ 8) :
    x.toUInt8.toUInt32 = x := by
  refine UInt32.toNat.inj ?_
  rw [UInt8.toNat_toUInt32, UInt32.toNat_toUInt8,
    Nat.mod_eq_of_lt (Nat.lt_of_le_of_lt h.toNat_le hmask)]

end Inside

/-- A length that a descriptor can say fits its field. -/
theorem inside_lengthMask {length : Nat} (h : length ≤ maxPacketLength) :
    Inside (UInt16.ofNat length).toUInt32 lengthMask := by
  have hlt : length < 2 ^ 11 := Nat.lt_succ_of_le h
  refine inside_of_toNat_lt 11 rfl ?_
  rw [UInt16.toNat_toUInt32, UInt16.toNat_ofNat', Nat.mod_eq_of_lt (by omega)]
  exact hlt

/-- A length that a descriptor can say is written into its field as it is. -/
theorem lengthField_ofNat {length : Nat} (h : length ≤ maxPacketLength) :
    (UInt16.ofNat length).toUInt32 &&& lengthMask = UInt32.ofNat length := by
  have hmax : maxPacketLength = 2047 := rfl
  have hinside : (UInt16.ofNat length).toUInt32 &&& lengthMask = (UInt16.ofNat length).toUInt32 :=
    inside_lengthMask h
  refine UInt32.toNat.inj ?_
  rw [hinside, UInt16.toNat_toUInt32, UInt16.toNat_ofNat', UInt32.toNat_ofNat']
  omega

/-- A shift to the left that loses no bits is undone. -/
theorem shiftLeft_shiftRight {x k : UInt32} (hk : k.toNat < 32)
    (hx : x.toNat < 2 ^ (32 - k.toNat)) : (x <<< k) >>> k = x := by
  have hlt : x.toNat * 2 ^ k.toNat < 2 ^ 32 := by
    have hpow : 2 ^ (32 - k.toNat) * 2 ^ k.toNat = 2 ^ 32 := by
      rw [← Nat.pow_add, Nat.sub_add_cancel (Nat.le_of_lt hk)]
    rw [← hpow]
    exact Nat.mul_lt_mul_of_pos_right hx (Nat.two_pow_pos _)
  refine UInt32.toNat.inj ?_
  rw [UInt32.toNat_shiftRight, UInt32.toNat_shiftLeft, Nat.mod_eq_of_lt hk, Nat.shiftLeft_eq,
    Nat.mod_eq_of_lt hlt, Nat.shiftRight_eq_div_pow, Nat.mul_div_cancel _ (Nat.two_pow_pos _)]

/-- A field that is moved down, cut out and moved back is the field in its place. -/
theorem shiftRight_and_shiftLeft (x mask k : UInt32) :
    ((x >>> k) &&& mask) <<< k = x &&& mask <<< k := by
  refine UInt32.toBitVec_inj.1 (BitVec.eq_of_getLsbD_eq ?_)
  intro i hi
  by_cases h : i < k.toNat % 32
  · simp [h]
  · have hback : k.toNat % 32 + (i - k.toNat % 32) = i := by omega
    simp [h, hback, hi]

/-! ### Receive descriptors -/

namespace ReceiveDescriptor

/-- Every field fits its mask. -/
structure Canonical (d : ReceiveDescriptor) : Prop where
  bufferLength : Inside d.bufferLength.toUInt32 lengthMask
  bufferOffset : Inside d.bufferOffset.toUInt32 lengthMask
  packetLength : Inside d.packetLength.toUInt32 lengthMask
  fromPort : Inside d.fromPort.toUInt32 portMask
  packetError : Inside d.packetError.toUInt32 errorMask
  status : Inside d.status statusMask
  reservedExtent : Inside d.reservedExtent (~~~(lengthMask ||| lengthMask <<< 16))
  reservedStatus : Inside d.reservedStatus
    (~~~(lengthMask ||| portMask <<< 16 ||| errorMask <<< 20 ||| statusMask))

namespace Canonical

variable {d : ReceiveDescriptor}

theorem extentWord_eq (h : d.Canonical) :
    d.extentWord =
      d.bufferLength.toUInt32 ||| d.bufferOffset.toUInt32 <<< 16 ||| d.reservedExtent := by
  rw [extentWord, h.bufferLength, h.bufferOffset]

theorem statusWord_eq (h : d.Canonical) :
    d.statusWord =
      d.packetLength.toUInt32 ||| d.fromPort.toUInt32 <<< 16 ||| d.packetError.toUInt32 <<< 20 |||
        d.status ||| d.reservedStatus := by
  rw [statusWord, h.packetLength, h.fromPort, h.packetError]

theorem extentWord_and_lengthMask (h : d.Canonical) :
    d.extentWord &&& lengthMask = d.bufferLength.toUInt32 := by
  rw [h.extentWord_eq, or_and, or_and, h.bufferLength,
    (h.bufferOffset.shiftLeft 16).and_eq_zero rfl,
    h.reservedExtent.and_eq_zero rfl, UInt32.or_zero, UInt32.or_zero]

theorem extentWord_shiftRight_and_lengthMask (h : d.Canonical) :
    (d.extentWord >>> 16) &&& lengthMask = d.bufferOffset.toUInt32 := by
  have hback : (d.bufferOffset.toUInt32 <<< 16) >>> 16 = d.bufferOffset.toUInt32 :=
    shiftLeft_shiftRight (by decide) (by
      rw [UInt16.toNat_toUInt32]
      exact d.bufferOffset.toNat_lt)
  rw [h.extentWord_eq, UInt32.shiftRight_or, UInt32.shiftRight_or, or_and, or_and, hback,
    h.bufferOffset, (h.bufferLength.shiftRight 16).and_eq_zero rfl,
    (h.reservedExtent.shiftRight 16).and_eq_zero rfl, UInt32.or_zero, UInt32.zero_or]

theorem extentWord_and_reserved (h : d.Canonical) :
    d.extentWord &&& ~~~(lengthMask ||| lengthMask <<< 16) = d.reservedExtent := by
  rw [h.extentWord_eq, or_and, or_and, h.reservedExtent,
    h.bufferLength.and_eq_zero rfl,
    (h.bufferOffset.shiftLeft 16).and_eq_zero rfl, UInt32.or_zero, UInt32.zero_or]

theorem statusWord_and_lengthMask (h : d.Canonical) :
    d.statusWord &&& lengthMask = d.packetLength.toUInt32 := by
  -- no other field has a bit under this mask
  rw [h.statusWord_eq, or_and, or_and, or_and, or_and, h.packetLength,
    (h.fromPort.shiftLeft 16).and_eq_zero rfl,
    (h.packetError.shiftLeft 20).and_eq_zero rfl, h.status.and_eq_zero rfl,
    h.reservedStatus.and_eq_zero rfl]
  simp only [UInt32.or_zero]

theorem statusWord_shiftRight_and_portMask (h : d.Canonical) :
    (d.statusWord >>> 16) &&& portMask = d.fromPort.toUInt32 := by
  have hback : (d.fromPort.toUInt32 <<< 16) >>> 16 = d.fromPort.toUInt32 :=
    shiftLeft_shiftRight (by decide) (by
      rw [UInt8.toNat_toUInt32]
      exact Nat.lt_trans d.fromPort.toNat_lt (by decide))
  rw [h.statusWord_eq]
  simp only [UInt32.shiftRight_or, or_and, hback]
  rw [h.fromPort, (h.packetLength.shiftRight 16).and_eq_zero rfl,
    ((h.packetError.shiftLeft 20).shiftRight 16).and_eq_zero rfl,
    (h.status.shiftRight 16).and_eq_zero rfl,
    (h.reservedStatus.shiftRight 16).and_eq_zero rfl]
  simp only [UInt32.or_zero, UInt32.zero_or]

theorem statusWord_shiftRight_and_errorMask (h : d.Canonical) :
    (d.statusWord >>> 20) &&& errorMask = d.packetError.toUInt32 := by
  have hback : (d.packetError.toUInt32 <<< 20) >>> 20 = d.packetError.toUInt32 :=
    shiftLeft_shiftRight (by decide) (by
      rw [UInt8.toNat_toUInt32]
      exact Nat.lt_trans d.packetError.toNat_lt (by decide))
  rw [h.statusWord_eq]
  simp only [UInt32.shiftRight_or, or_and, hback]
  rw [h.packetError, (h.packetLength.shiftRight 20).and_eq_zero rfl,
    ((h.fromPort.shiftLeft 16).shiftRight 20).and_eq_zero rfl,
    (h.status.shiftRight 20).and_eq_zero rfl,
    (h.reservedStatus.shiftRight 20).and_eq_zero rfl]
  simp only [UInt32.or_zero, UInt32.zero_or]

theorem statusWord_and_statusMask (h : d.Canonical) : d.statusWord &&& statusMask = d.status := by
  rw [h.statusWord_eq, or_and, or_and, or_and, or_and, h.status,
    h.packetLength.and_eq_zero rfl, (h.fromPort.shiftLeft 16).and_eq_zero rfl,
    (h.packetError.shiftLeft 20).and_eq_zero rfl,
    h.reservedStatus.and_eq_zero rfl]
  simp only [UInt32.or_zero, UInt32.zero_or]

theorem statusWord_and_reserved (h : d.Canonical) :
    d.statusWord &&& ~~~(lengthMask ||| portMask <<< 16 ||| errorMask <<< 20 ||| statusMask) =
      d.reservedStatus := by
  rw [h.statusWord_eq, or_and, or_and, or_and, or_and, h.reservedStatus,
    h.packetLength.and_eq_zero rfl, (h.fromPort.shiftLeft 16).and_eq_zero rfl,
    (h.packetError.shiftLeft 20).and_eq_zero rfl, h.status.and_eq_zero rfl]
  simp only [UInt32.zero_or]

end Canonical

/-- **A canonical descriptor is decoded from its words.** -/
theorem ofSlot_slot {d : ReceiveDescriptor} (h : d.Canonical) : ofSlot d.address d.slot = d := by
  rw [ofSlot, slot]
  simp only [h.extentWord_and_lengthMask, h.extentWord_shiftRight_and_lengthMask,
    h.extentWord_and_reserved, h.statusWord_and_lengthMask, h.statusWord_shiftRight_and_portMask,
    h.statusWord_shiftRight_and_errorMask, h.statusWord_and_statusMask,
    h.statusWord_and_reserved, UInt16.toUInt16_toUInt32, UInt8.toUInt8_toUInt32]

/-- A decoded descriptor is canonical. -/
theorem canonical_ofSlot (address : UInt32) (s : Slot) : (ofSlot address s).Canonical where
  bufferLength := by
    rw [ofSlot, (inside_and ..).toUInt32_toUInt16 (by decide)]
    exact inside_and ..
  bufferOffset := by
    rw [ofSlot, (inside_and ..).toUInt32_toUInt16 (by decide)]
    exact inside_and ..
  packetLength := by
    rw [ofSlot, (inside_and ..).toUInt32_toUInt16 (by decide)]
    exact inside_and ..
  fromPort := by
    rw [ofSlot, (inside_and ..).toUInt32_toUInt8 (by decide)]
    exact inside_and ..
  packetError := by
    rw [ofSlot, (inside_and ..).toUInt32_toUInt8 (by decide)]
    exact inside_and ..
  status := inside_and ..
  reservedExtent := inside_and ..
  reservedStatus := inside_and ..

theorem Canonical.toNat_bufferLength_le {d : ReceiveDescriptor} (h : d.Canonical) :
    d.bufferLength.toNat ≤ maxPacketLength := by
  rw [← UInt16.toNat_toUInt32]
  exact h.bufferLength.toNat_le

/-! ### Reports -/

/-- Filling a descriptor does not change whose it is. -/
theorem isOwned_filled (t : Segment) (isLast : Bool) :
    (t.filled isLast).isOwned = t.descriptor.isOwned := by
  -- neither the bits that are cleared nor those that are set contain the owner bit
  have hkeep : (t.descriptor.status &&& ~~~reportMask) &&& Status.owner =
      t.descriptor.status &&& Status.owner := by
    rw [UInt32.and_assoc]
    rfl
  have hnone : (Status.endOfPacket ||| Status.endOfQueue) &&& Status.owner = 0 := by decide
  cases isLast with
  | false => simp [isOwned, has, Segment.filled, lower, hkeep]
  | true => simp [isOwned, has, Segment.filled, lower, raise, or_and, hkeep, hnone]

/-- The first descriptor of a frame belongs to software. -/
theorem isOwned_announce (d : ReceiveDescriptor) (frame : InboundFrame) :
    (d.announce frame).isOwned = false := by
  have hlost : (d.status &&& ~~~Status.owner) &&& Status.owner = 0 := by
    rw [UInt32.and_assoc, UInt32.not_and_self, UInt32.and_zero]
  cases hfcs : frame.carriesFcs <;>
    simp [isOwned, has, announce, lower, raise, or_and, hlost, hfcs] <;> decide

/-- The report of a filled descriptor is canonical. -/
theorem Canonical.filled {t : Segment} (h : t.descriptor.Canonical)
    (hlength : t.length ≤ t.descriptor.bufferLength.toNat) (isLast : Bool) :
    (t.filled isLast).Canonical := by
  have hbuffer := inside_lengthMask (Nat.le_trans hlength h.toNat_bufferLength_le)
  have hstatus : Inside (t.descriptor.status &&& ~~~reportMask) statusMask := h.status.and _
  cases isLast with
  | false =>
      exact ⟨hbuffer, h.bufferOffset, h.packetLength, h.fromPort, h.packetError, hstatus,
        h.reservedExtent, h.reservedStatus⟩
  | true =>
      exact ⟨hbuffer, h.bufferOffset, h.packetLength, h.fromPort, h.packetError,
        hstatus.or (show Inside _ _ by unfold Inside; decide), h.reservedExtent, h.reservedStatus⟩

/-- The report of the first descriptor is canonical. -/
theorem Canonical.announce {d : ReceiveDescriptor} (h : d.Canonical) {frame : InboundFrame}
    (hlength : frame.bytes.length ≤ maxPacketLength) : (d.announce frame).Canonical := by
  have hstatus : Inside (d.status &&& ~~~Status.owner) statusMask := h.status.and _
  refine ⟨h.bufferLength, h.bufferOffset, inside_lengthMask hlength, ?_, ?_, hstatus.or ?_,
    h.reservedExtent, h.reservedStatus⟩
  · show receivePort.toUInt32 &&& portMask = receivePort.toUInt32
    decide
  · show (0 : UInt8).toUInt32 &&& errorMask = (0 : UInt8).toUInt32
    decide
  · cases frame.carriesFcs <;> (unfold Inside; decide)

/-! ### Words written back -/

section Words

variable (address : UInt32) (w : Slot)

theorem packetLength_ofSlot :
    (ofSlot address w).packetLength.toUInt32 = w.status &&& lengthMask :=
  (inside_and ..).toUInt32_toUInt16 (by decide)

theorem fromPort_ofSlot :
    (ofSlot address w).fromPort.toUInt32 = (w.status >>> 16) &&& portMask :=
  (inside_and ..).toUInt32_toUInt8 (by decide)

theorem packetError_ofSlot :
    (ofSlot address w).packetError.toUInt32 = (w.status >>> 20) &&& errorMask :=
  (inside_and ..).toUInt32_toUInt8 (by decide)

theorem bufferOffset_ofSlot :
    (ofSlot address w).bufferOffset.toUInt32 = (w.extent >>> 16) &&& lengthMask :=
  (inside_and ..).toUInt32_toUInt16 (by decide)

/-- The third word of a filled descriptor: the number of bytes is new, and the rest is as before. -/
theorem extentWord_filled_of_ofSlot {t : Segment} (ht : t.descriptor = ofSlot address w)
    (hlength : t.length ≤ maxPacketLength) (isLast : Bool) :
    (t.filled isLast).extentWord = UInt32.ofNat t.length ||| w.extent &&& 0xFFFFF800 := by
  have hword : (t.filled isLast).extentWord =
      (UInt16.ofNat t.length).toUInt32 &&& lengthMask |||
        ((ofSlot address w).bufferOffset.toUInt32 &&& lengthMask) <<< 16 |||
        (ofSlot address w).reservedExtent := by
    rw [← ht]
    cases isLast <;> rfl
  rw [hword, lengthField_ofNat hlength, bufferOffset_ofSlot, UInt32.and_assoc,
    UInt32.and_self, shiftRight_and_shiftLeft, UInt32.or_assoc, ofSlot, ← and_or]
  rfl

/-- The fourth word of a decoded descriptor with new status bits: all other bits are as before. -/
theorem statusWord_replace (bits : UInt32) :
    ({ ofSlot address w with status := bits } : ReceiveDescriptor).statusWord =
      (w.status &&& ~~~statusMask ||| bits) := by
  have hword : ({ ofSlot address w with status := bits } : ReceiveDescriptor).statusWord =
      (((ofSlot address w).packetLength.toUInt32 &&& lengthMask) |||
        ((ofSlot address w).fromPort.toUInt32 &&& portMask) <<< 16 |||
        ((ofSlot address w).packetError.toUInt32 &&& errorMask) <<< 20 ||| bits |||
        (ofSlot address w).reservedStatus) := rfl
  rw [hword, packetLength_ofSlot, fromPort_ofSlot, packetError_ofSlot]
  simp only [UInt32.and_assoc, UInt32.and_self, shiftRight_and_shiftLeft]
  rw [UInt32.or_assoc _ bits, UInt32.or_comm bits, ← UInt32.or_assoc, ofSlot, ← and_or, ← and_or,
    ← and_or]
  rfl

/-- The fourth word of a filled descriptor: old reports are gone, and the last descriptor of a
packet ends it. -/
theorem statusWord_filled_of_ofSlot {t : Segment} (ht : t.descriptor = ofSlot address w)
    (isLast : Bool) :
    (t.filled isLast).statusWord = (w.status &&& 0x2037FFFF |||
      if isLast then Status.endOfPacket ||| Status.endOfQueue else 0) := by
  have hclean : w.status &&& ~~~statusMask ||| (w.status &&& statusMask) &&& ~~~reportMask =
      w.status &&& 0x2037FFFF := by
    rw [UInt32.and_assoc, ← and_or]
    rfl
  have hword : (t.filled isLast).statusWord =
      ({ ofSlot address w with
        status := (w.status &&& statusMask) &&& ~~~reportMask |||
          if isLast then Status.endOfPacket ||| Status.endOfQueue else 0 } :
        ReceiveDescriptor).statusWord := by
    rw [Segment.filled, ht]
    cases isLast with
    | false => simp only [lower, Bool.false_eq_true, if_false, UInt32.or_zero]; rfl
    | true => rfl
  rw [hword, statusWord_replace, ← UInt32.or_assoc, hclean]

/-- The status bits of the first descriptor of a frame, whatever they were before. -/
theorem status_announce_of_ofSlot {t : Segment} (ht : t.descriptor = ofSlot address w)
    (frame : InboundFrame) (isLast : Bool) :
    ((t.filled isLast).announce frame).status =
      (Status.startOfPacket ||| (if frame.carriesFcs then Status.passCrc else 0) |||
        if isLast then Status.endOfPacket ||| Status.endOfQueue else 0) := by
  -- all bits with a meaning are cleared: those of a report, and then the owner bit
  have hlost : ((w.status &&& statusMask) &&& ~~~reportMask) &&& ~~~Status.owner = 0 := by
    rw [UInt32.and_assoc, UInt32.and_assoc]
    exact UInt32.and_zero
  have hend : (Status.endOfPacket ||| Status.endOfQueue) &&& ~~~Status.owner =
      Status.endOfPacket ||| Status.endOfQueue := by decide
  have hdescriptor : t.descriptor.status = w.status &&& statusMask := by rw [ht, ofSlot]
  cases isLast <;> cases hfcs : frame.carriesFcs <;>
    simp [announce, Segment.filled, lower, raise, hdescriptor, hlost, or_and, hend, hfcs,
      UInt32.or_comm]

/-- The fourth word of the first descriptor of a frame: it describes the frame, and only the bits
without a meaning are as before. -/
theorem statusWord_announce_of_ofSlot {t : Segment} (ht : t.descriptor = ofSlot address w)
    {frame : InboundFrame} (hlength : frame.bytes.length ≤ maxPacketLength) (isLast : Bool) :
    ((t.filled isLast).announce frame).statusWord =
      (w.status &&& 0xF800 ||| UInt32.ofNat frame.bytes.length ||| 0x10000 |||
        (Status.startOfPacket ||| (if frame.carriesFcs then Status.passCrc else 0) |||
          if isLast then Status.endOfPacket ||| Status.endOfQueue else 0)) := by
  have hport : (receivePort.toUInt32 &&& portMask) <<< 16 = 0x10000 := by decide
  have herror : ((0 : UInt8).toUInt32 &&& errorMask) <<< 20 = 0 := by decide
  have hreserved : ((t.filled isLast).announce frame).reservedStatus = w.status &&& 0xF800 := by
    have hkept : (t.filled isLast).reservedStatus = t.descriptor.reservedStatus := by
      cases isLast <;> rfl
    show (t.filled isLast).reservedStatus = _
    rw [hkept, ht, ofSlot]
    rfl
  rw [statusWord, status_announce_of_ofSlot address w ht frame isLast, hreserved]
  simp only [announce, lengthField_ofNat hlength, hport, herror, UInt32.or_zero]
  rw [UInt32.or_comm _ (w.status &&& 0xF800)]
  simp only [UInt32.or_assoc]

end Words

end ReceiveDescriptor

/-! ### The transmit side -/

namespace TransmitDescriptor

variable {d : ReceiveDescriptor} {address : UInt32} {s : Slot}

theorem toUInt16_and_low (x : UInt32) : (x &&& 0xFFFF).toUInt16 = x.toUInt16 := by
  refine UInt16.toNat.inj ?_
  rw [UInt32.toNat_toUInt16, UInt32.toNat_toUInt16, UInt32.toNat_and]
  show (x.toNat &&& 2 ^ 16 - 1) % 2 ^ 16 = _
  rw [Nat.and_two_pow_sub_one_eq_mod, Nat.mod_mod]

/-- The transmit side reads the length that the receive side has written. -/
theorem bufferLength_ofSlot_extentWord (h : d.Canonical) (hreserved : d.reservedExtent = 0)
    (hs : s.extent = d.extentWord) : (ofSlot address s).bufferLength = d.bufferLength := by
  have hlow : d.extentWord &&& 0xFFFF = d.bufferLength.toUInt32 := by
    rw [h.extentWord_eq, hreserved, UInt32.or_zero, or_and,
      h.bufferLength.and_eq_self rfl,
      (h.bufferOffset.shiftLeft 16).and_eq_zero rfl, UInt32.or_zero]
  show s.extent.toUInt16 = d.bufferLength
  rw [hs, ← toUInt16_and_low, hlow, UInt16.toUInt16_toUInt32]

/-- The transmit side reads the offset that the receive side has written. -/
theorem bufferOffset_ofSlot_extentWord (h : d.Canonical) (hreserved : d.reservedExtent = 0)
    (hs : s.extent = d.extentWord) : (ofSlot address s).bufferOffset = d.bufferOffset := by
  have hback : (d.bufferOffset.toUInt32 <<< 16) >>> 16 = d.bufferOffset.toUInt32 :=
    shiftLeft_shiftRight (by decide) (by
      rw [UInt16.toNat_toUInt32]
      exact d.bufferOffset.toNat_lt)
  have hlost : d.bufferLength.toUInt32 >>> 16 = 0 := by
    rw [← h.bufferLength.shiftRight 16]
    exact UInt32.and_zero
  rw [ofSlot, hs, h.extentWord_eq, hreserved, UInt32.or_zero, UInt32.shiftRight_or, hback, hlost,
    UInt32.zero_or, UInt16.toUInt16_toUInt32]

theorem has_ofSlot {mask : UInt32} (hmask : statusMask &&& mask = mask) :
    (ofSlot address s).has mask = (s.status &&& mask == mask) := by
  rw [has, ofSlot, UInt32.and_assoc, hmask]

theorem toNat_packetLength_ofSlot {length : Nat} (hlength : length ≤ maxPacketLength)
    (hs : s.status &&& lengthMask = UInt32.ofNat length) :
    (ofSlot address s).packetLength.toNat = length := by
  have hmax : maxPacketLength = 2047 := rfl
  rw [ofSlot, hs, UInt32.toNat_toUInt16, UInt32.toNat_ofNat']
  omega

/-- The fourth word of a decoded descriptor with new status bits: all other bits are as before. -/
theorem statusWord_replace (address : UInt32) (w : Slot) (bits : UInt32) :
    ({ ofSlot address w with status := bits } : TransmitDescriptor).statusWord =
      (w.status &&& ~~~statusMask ||| bits) := by
  have hlength : (ofSlot address w).packetLength.toUInt32 = w.status &&& lengthMask :=
    (inside_and ..).toUInt32_toUInt16 (by decide)
  have hport : (ofSlot address w).toPort.toUInt32 = (w.status >>> 16) &&& portMask :=
    (inside_and ..).toUInt32_toUInt8 (by decide)
  have hword : ({ ofSlot address w with status := bits } : TransmitDescriptor).statusWord =
      (((ofSlot address w).packetLength.toUInt32 &&& lengthMask) |||
        ((ofSlot address w).toPort.toUInt32 &&& portMask) <<< 16 ||| bits |||
        (ofSlot address w).reserved) := rfl
  rw [hword, hlength, hport]
  simp only [UInt32.and_assoc, UInt32.and_self, shiftRight_and_shiftLeft]
  rw [UInt32.or_assoc _ bits, UInt32.or_comm bits, ← UInt32.or_assoc, ofSlot, ← and_or, ← and_or]
  rfl

/-- A decoded descriptor is written back as it was. -/
theorem statusWord_ofSlot (address : UInt32) (w : Slot) :
    (ofSlot address w).statusWord = w.status := by
  refine (statusWord_replace address w (w.status &&& statusMask)).trans ?_
  rw [← and_or]
  exact UInt32.and_neg_one

/-- A decoded descriptor that passes to software loses its owner bit and nothing else. -/
theorem statusWord_lower_owner (address : UInt32) (w : Slot) :
    ((ofSlot address w).lower Status.owner).statusWord = w.status &&& ~~~Status.owner := by
  refine (statusWord_replace address w ((w.status &&& statusMask) &&& ~~~Status.owner)).trans ?_
  rw [UInt32.and_assoc, ← and_or]
  rfl

/-- Setting status bits sets them in the fourth word. -/
theorem statusWord_closed (d : TransmitDescriptor) (isLast : Bool) :
    (d.closed isLast).statusWord =
      (d.statusWord ||| if isLast then Status.endOfQueue else 0) := by
  cases isLast with
  | false => simp [closed]
  | true =>
      simp only [closed, raise, statusWord, if_true, UInt32.or_assoc,
        UInt32.or_comm Status.endOfQueue]

end TransmitDescriptor

end PacketDma
