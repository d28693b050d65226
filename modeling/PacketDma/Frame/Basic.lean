/-
**Ethernet frames.**

A frame is a byte string that begins with two six-byte addresses and a two-byte EtherType.  The
engine looks no further than the EtherType and, for a frame of the precision time protocol, at two
fields of the header behind it.

Main definitions:

* `PacketDma.Frame` — the bytes of a frame;
* `PacketDma.Frame.etherType?` — the EtherType, if the frame is long enough to have one;
* `PacketDma.Frame.classify` — whether a frame belongs to the precision time protocol;
* `PacketDma.Frame.messageType`, `PacketDma.Frame.sequenceId` — the fields that a timestamp names;
* `PacketDma.InboundFrame` — a frame on its way into a receive ring.

Main results:

* `PacketDma.Frame.messageType_append`, `PacketDma.Frame.sequenceId_append`,
  `PacketDma.Frame.classify_append` — bytes added at the end of a frame that holds the whole
  header change none of this.
-/

set_option autoImplicit false

namespace PacketDma

/-- The bytes of an Ethernet frame. -/
abbrev Frame := List UInt8

/-- How the engine treats a frame. -/
inductive FrameClass where
  /-- A frame of the precision time protocol: it has a receive channel of its own and is stamped. -/
  | ptp
  /-- Any other frame. -/
  | normal
deriving DecidableEq, Repr

namespace Frame

/-- The byte at position `i`, zero past the end. -/
def byteAt (frame : Frame) (i : Nat) : UInt8 := frame.getD i 0

/-- The big-endian 16-bit word at position `i`, bytes past the end counting as zero. -/
def word (frame : Frame) (i : Nat) : UInt16 :=
  (frame.byteAt i).toUInt16 <<< 8 ||| (frame.byteAt (i + 1)).toUInt16

/-- The EtherType of the precision time protocol. -/
def ptpEtherType : UInt16 := 0x88F7

/-- The EtherType at bytes 12 and 13, if the frame has both. -/
def etherType? (frame : Frame) : Option UInt16 :=
  if 14 ≤ frame.length then some (frame.word 12) else none

/-- A frame belongs to the precision time protocol if its EtherType is the protocol's own or one of
the additional ones; an additional type of zero stands for none. -/
def classify (frame : Frame) (ptpType : UInt16) (additional : List UInt16) : FrameClass :=
  match frame.etherType? with
  | some type =>
      if type = ptpType ∨ (type ≠ 0 ∧ type ∈ additional) then .ptp else .normal
  | none => .normal

/-- The message type of a frame of the precision time protocol, zero when it is missing. -/
def messageType (frame : Frame) : UInt8 := frame.byteAt 14 &&& 0x0F

/-- The sequence number of a frame of the precision time protocol, zero when it is missing. -/
def sequenceId (frame : Frame) : UInt16 := frame.word 44

/-! ### Bytes added at the end -/

theorem byteAt_append {frame : Frame} {i : Nat} (h : i < frame.length) (tail : List UInt8) :
    byteAt (frame ++ tail) i = frame.byteAt i := by
  simp [byteAt, List.getElem?_append_left h]

theorem word_append {frame : Frame} {i : Nat} (h : i + 1 < frame.length) (tail : List UInt8) :
    word (frame ++ tail) i = frame.word i := by
  rw [word, word, byteAt_append (by omega), byteAt_append h]

/-- Bytes added at the end of a frame with an EtherType do not change its class. -/
theorem classify_append {frame : Frame} (h : 14 ≤ frame.length) (tail : List UInt8)
    (ptpType : UInt16) (additional : List UInt16) :
    classify (frame ++ tail) ptpType additional = frame.classify ptpType additional := by
  have htype : etherType? (frame ++ tail) = frame.etherType? := by
    rw [etherType?, etherType?, if_pos h, if_pos (by rw [List.length_append]; omega),
      word_append (by omega)]
  rw [classify, classify, htype]

theorem messageType_append {frame : Frame} (h : 14 < frame.length) (tail : List UInt8) :
    messageType (frame ++ tail) = frame.messageType := by
  rw [messageType, messageType, byteAt_append h]

theorem sequenceId_append {frame : Frame} (h : 45 < frame.length) (tail : List UInt8) :
    sequenceId (frame ++ tail) = frame.sequenceId :=
  word_append h tail

end Frame

/-- A frame on its way into a receive ring. -/
structure InboundFrame where
  bytes : Frame
  /-- The last four bytes are the frame's check sequence. -/
  carriesFcs : Bool := false
  /-- The class that the sender of the frame has given it, if any. -/
  class? : Option FrameClass := none
deriving DecidableEq, Repr

end PacketDma
