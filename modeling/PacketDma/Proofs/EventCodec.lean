/-
**The metadata word of an event.**

The port, the kind, the message type and the sequence number of a stamped frame are packed into one
word.  As long as the port fits its five bits and the message type its four, software finds all four
of them in the word again, and so two events of different frames can be told apart by it.

Main definitions:

* `PacketDma.EventMetadata.ofWord?` — what a word says;
* `PacketDma.EventMetadata.Canonical` — every field fits its bits.

Main results:

* `PacketDma.EventMetadata.Canonical.ofWord?_word` — **what has been packed is found again**.
-/

import PacketDma.Proofs.DescriptorCodec
import PacketDma.Timestamp.Event

set_option autoImplicit false

namespace PacketDma

/-- The kind of events with a number, if there is one. -/
def EventKind.ofCode? : UInt32 → Option EventKind
  | 4 => some .received
  | 5 => some .transmitted
  | _ => none

theorem EventKind.ofCode?_code (kind : EventKind) : ofCode? kind.code = some kind := by
  cases kind <;> rfl

theorem EventKind.inside_code (kind : EventKind) : Inside kind.code 0xF := by
  cases kind <;> rfl

/-- A field of five bits that is moved up and down again comes back. -/
theorem Inside.shiftLeft_shiftRight {x k : UInt32} (h : Inside x 0x1F) (hk : k.toNat ≤ 24) :
    (x <<< k) >>> k = x := by
  have hwidth : (0x1F : UInt32).toNat < 2 ^ (32 - k.toNat) :=
    Nat.lt_of_lt_of_le (by decide : (0x1F : UInt32).toNat < 2 ^ 8)
      (Nat.pow_le_pow_right (by decide) (by omega))
  exact PacketDma.shiftLeft_shiftRight (by omega) (Nat.lt_of_le_of_lt h.toNat_le hwidth)

namespace EventMetadata

/-- What the metadata word of an event says, if it names a kind of events. -/
def ofWord? (word : UInt32) : Option EventMetadata :=
  (EventKind.ofCode? ((word >>> 20) &&& 0xF)).map fun kind =>
    { port := ((word >>> 24) &&& 0x1F).toUInt8
      kind
      messageType := ((word >>> 16) &&& 0xF).toUInt8
      sequenceId := (word &&& 0xFFFF).toUInt16 }

/-- The port and the message type fit their bits; the other two always do. -/
structure Canonical (m : EventMetadata) : Prop where
  port : m.port &&& 0x1F = m.port
  messageType : m.messageType &&& 0x0F = m.messageType

theorem inside_sequenceId (m : EventMetadata) : Inside m.sequenceId.toUInt32 0xFFFF := by
  refine inside_of_toNat_lt 16 rfl ?_
  rw [UInt16.toNat_toUInt32]
  exact m.sequenceId.toNat_lt

namespace Canonical

variable {m : EventMetadata}

theorem inside_port (h : m.Canonical) : Inside m.port.toUInt32 0x1F := by
  rw [← h.port, UInt8.toUInt32_and]
  exact inside_and ..

theorem inside_messageType (h : m.Canonical) : Inside m.messageType.toUInt32 0xF := by
  rw [← h.messageType, UInt8.toUInt32_and]
  exact inside_and ..

theorem word_eq (h : m.Canonical) :
    m.word = m.port.toUInt32 <<< 24 ||| m.kind.code <<< 20 ||| m.messageType.toUInt32 <<< 16 |||
      m.sequenceId.toUInt32 := by
  rw [word, h.port, h.messageType]

theorem word_port (h : m.Canonical) : (m.word >>> 24) &&& 0x1F = m.port.toUInt32 := by
  rw [h.word_eq]
  simp only [UInt32.shiftRight_or, or_and]
  rw [h.inside_port.shiftLeft_shiftRight (by decide), h.inside_port,
    ((m.kind.inside_code.shiftLeft 20).shiftRight 24).and_eq_zero rfl,
    ((h.inside_messageType.shiftLeft 16).shiftRight 24).and_eq_zero rfl,
    (m.inside_sequenceId.shiftRight 24).and_eq_zero rfl]
  simp only [UInt32.or_zero]

theorem word_kind (h : m.Canonical) : (m.word >>> 20) &&& 0xF = m.kind.code := by
  rw [h.word_eq]
  simp only [UInt32.shiftRight_or, or_and]
  rw [(m.kind.inside_code.mono rfl).shiftLeft_shiftRight (by decide), m.kind.inside_code,
    ((h.inside_port.shiftLeft 24).shiftRight 20).and_eq_zero rfl,
    ((h.inside_messageType.shiftLeft 16).shiftRight 20).and_eq_zero rfl,
    (m.inside_sequenceId.shiftRight 20).and_eq_zero rfl]
  simp only [UInt32.or_zero, UInt32.zero_or]

theorem word_messageType (h : m.Canonical) :
    (m.word >>> 16) &&& 0xF = m.messageType.toUInt32 := by
  rw [h.word_eq]
  simp only [UInt32.shiftRight_or, or_and]
  rw [(h.inside_messageType.mono rfl).shiftLeft_shiftRight (by decide), h.inside_messageType,
    ((h.inside_port.shiftLeft 24).shiftRight 16).and_eq_zero rfl,
    ((m.kind.inside_code.shiftLeft 20).shiftRight 16).and_eq_zero rfl,
    (m.inside_sequenceId.shiftRight 16).and_eq_zero rfl]
  simp only [UInt32.or_zero, UInt32.zero_or]

theorem word_sequenceId (h : m.Canonical) : m.word &&& 0xFFFF = m.sequenceId.toUInt32 := by
  rw [h.word_eq, or_and, or_and, or_and, m.inside_sequenceId,
    (h.inside_port.shiftLeft 24).and_eq_zero rfl,
    (m.kind.inside_code.shiftLeft 20).and_eq_zero rfl,
    (h.inside_messageType.shiftLeft 16).and_eq_zero rfl]
  simp only [UInt32.zero_or]

/-- **What has been packed is found again.** -/
theorem ofWord?_word (h : m.Canonical) : ofWord? m.word = some m := by
  rw [ofWord?, h.word_port, h.word_kind, h.word_messageType, h.word_sequenceId,
    EventKind.ofCode?_code, Option.map_some, UInt8.toUInt8_toUInt32, UInt8.toUInt8_toUInt32,
    UInt16.toUInt16_toUInt32]

end Canonical

end EventMetadata

end PacketDma
