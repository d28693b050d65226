/-
**Descriptor slots.**

A descriptor occupies a slot of sixteen bytes, four little-endian words: the address of the next
descriptor, the address of the buffer, the extent of the data in the buffer, and the length and
status of the packet.  Transmit and receive descriptors lay out the last two words differently.

Main definitions:

* `PacketDma.Slot` — the four words of a descriptor;
* `PacketDma.Aperture.readSlot` — the slot at a bus address;
* `PacketDma.Status` — the status bits of the last word.

Main results:

* `PacketDma.Slot.ofBytes_bytes` — a slot is read back from its bytes.
-/

import PacketDma.Memory.Aperture

set_option autoImplicit false

namespace PacketDma

/-- The four words of a descriptor. -/
structure Slot where
  /-- The bus address of the next descriptor, zero at the end of a list. -/
  next : UInt32
  /-- The address of the buffer. -/
  buffer : UInt32
  /-- The length and the offset of the data in the buffer. -/
  extent : UInt32
  /-- The length of the packet, its port and the status bits. -/
  status : UInt32
deriving DecidableEq, Repr

namespace Slot

/-- The number of bytes of a slot. -/
def length : Nat := 16

/-- The words of a slot in order. -/
def words (s : Slot) : List UInt32 := [s.next, s.buffer, s.extent, s.status]

/-- The little-endian word at byte `offset` of a byte string. -/
def wordOf (bytes : List UInt8) (offset : Nat) : UInt32 :=
  UInt32.ofNat (LittleEndian.decode ((bytes.drop offset).take 4))

/-- The slot that sixteen bytes hold. -/
def ofBytes (bytes : List UInt8) : Slot :=
  ⟨wordOf bytes 0, wordOf bytes 4, wordOf bytes 8, wordOf bytes 12⟩

/-- The bytes of a word. -/
def bytesOf (word : UInt32) : List UInt8 := LittleEndian.encode 4 word.toNat

/-- The sixteen bytes of a slot. -/
def bytes (s : Slot) : List UInt8 := s.words.flatMap bytesOf

@[simp] theorem length_bytesOf (word : UInt32) : (bytesOf word).length = 4 :=
  LittleEndian.length_encode ..

theorem ofNat_decode_bytesOf (word : UInt32) :
    UInt32.ofNat (LittleEndian.decode (bytesOf word)) = word := by
  rw [bytesOf, LittleEndian.decode_encode_of_lt word.toNat_lt, UInt32.ofNat_toNat]

/-- A slot is read back from its bytes. -/
theorem ofBytes_bytes (s : Slot) : ofBytes s.bytes = s := by
  have hdrop : ∀ (word : UInt32) (rest : List UInt8) (n : Nat),
      (bytesOf word ++ rest).drop (n + 4) = rest.drop n := fun word rest n => by
    rw [List.drop_append, length_bytesOf, List.drop_eq_nil_of_le (by simp), List.nil_append,
      Nat.add_sub_cancel]
  have htake : ∀ (word : UInt32) (rest : List UInt8),
      (bytesOf word ++ rest).take 4 = bytesOf word := fun word rest =>
    List.take_left' (length_bytesOf word)
  have hbytes : s.bytes =
      bytesOf s.next ++ (bytesOf s.buffer ++ (bytesOf s.extent ++ (bytesOf s.status ++ []))) := rfl
  have h₁ := hdrop s.next (bytesOf s.buffer ++ (bytesOf s.extent ++ (bytesOf s.status ++ [])))
  have h₂ := hdrop s.buffer (bytesOf s.extent ++ (bytesOf s.status ++ []))
  have h₃ := hdrop s.extent (bytesOf s.status ++ [])
  simp only [ofBytes, wordOf, hbytes, List.drop_zero, htake, ofNat_decode_bytesOf, h₁ 0, h₁ 4,
    h₁ 8, h₂ 0, h₂ 4, h₃ 0]

end Slot

/-- The slot at bus address `address`. -/
def Aperture.readSlot (ram : Aperture) (address : UInt32) : Except MemoryFault Slot :=
  (ram.read address.toUInt64 Slot.length).map Slot.ofBytes

namespace Status

/-! ### Status bits -/

/-- The frame came with a VLAN tag. -/
def vlanEncapsulated : UInt32 := 0x00080000

/-- The frame is sent to the port that its descriptor names. -/
def toPortEnable : UInt32 := 0x00100000

/-- The frame was cut for lack of buffers. -/
def overrun : UInt32 := 0x00400000

/-- The frame is a control frame. -/
def macControl : UInt32 := 0x00800000

/-- The frame is too short. -/
def short : UInt32 := 0x01000000

/-- The frame is too long. -/
def long : UInt32 := 0x02000000

/-- The data ends with the check sequence of the frame. -/
def passCrc : UInt32 := 0x04000000

/-- The channel has been torn down. -/
def teardown : UInt32 := 0x08000000

/-- The list of descriptors ends here. -/
def endOfQueue : UInt32 := 0x10000000

/-- The descriptor belongs to the engine. -/
def owner : UInt32 := 0x20000000

/-- The packet ends here. -/
def endOfPacket : UInt32 := 0x40000000

/-- The packet starts here. -/
def startOfPacket : UInt32 := 0x80000000

end Status

/-- The bits of a packet or buffer length field, and so the greatest length of a frame. -/
def lengthMask : UInt32 := 0x7FF

/-- The greatest number of bytes that a packet length can say. -/
def maxPacketLength : Nat := 0x7FF

end PacketDma
