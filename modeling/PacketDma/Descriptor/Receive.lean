/-
**Receive descriptors.**

The third word holds the length of the data in bits 10 to 0 and its offset in bits 26 to 16.  The
fourth holds the packet length in bits 10 to 0, the port in bits 18 to 16, an error code in bits 21
and 20, and status bits.  The engine writes the third and fourth words back; bits that belong to no
field pass through unchanged.

Main definitions:

* `PacketDma.ReceiveDescriptor` — the fields of a receive descriptor;
* `PacketDma.ReceiveDescriptor.ofSlot`, `PacketDma.ReceiveDescriptor.slot` — from and to words;
* `PacketDma.ReceiveDescriptor.decode`, `PacketDma.ReceiveDescriptor.encode` — from and to
  descriptor RAM.
-/

import PacketDma.Descriptor.Slot
import PacketDma.Fault

set_option autoImplicit false

namespace PacketDma

/-- The fields of a receive descriptor. -/
structure ReceiveDescriptor where
  /-- The bus address of the slot. -/
  address : UInt32
  next : UInt32
  bufferPointer : UInt32
  bufferOffset : UInt16
  bufferLength : UInt16
  packetLength : UInt16
  fromPort : UInt8
  packetError : UInt8
  /-- The status bits.  Decoding finds those that have a meaning; others can only be assigned. -/
  status : UInt32
  /-- The bits of the third word that belong to no field. -/
  reservedExtent : UInt32
  /-- The bits of the fourth word that belong to no field. -/
  reservedStatus : UInt32
deriving DecidableEq, Repr

namespace ReceiveDescriptor

/-- The status bits that describe a received frame; the engine clears them all before it reports
one. -/
def reportMask : UInt32 :=
  Status.startOfPacket ||| Status.endOfPacket ||| Status.endOfQueue ||| Status.teardown |||
    Status.passCrc ||| Status.vlanEncapsulated ||| Status.overrun ||| Status.macControl |||
    Status.short ||| Status.long

/-- The status bits that have a meaning on receive. -/
def statusMask : UInt32 := reportMask ||| Status.owner

/-- The bits of the port in the fourth word, before they are moved down. -/
def portMask : UInt32 := 0x7

/-- The bits of the error code in the fourth word, before they are moved down. -/
def errorMask : UInt32 := 0x3

/-- The descriptor at `address` with the given words. -/
def ofSlot (address : UInt32) (s : Slot) : ReceiveDescriptor where
  address
  next := s.next
  bufferPointer := s.buffer
  bufferLength := (s.extent &&& lengthMask).toUInt16
  bufferOffset := ((s.extent >>> 16) &&& lengthMask).toUInt16
  packetLength := (s.status &&& lengthMask).toUInt16
  fromPort := ((s.status >>> 16) &&& portMask).toUInt8
  packetError := ((s.status >>> 20) &&& errorMask).toUInt8
  status := s.status &&& statusMask
  reservedExtent := s.extent &&& ~~~(lengthMask ||| lengthMask <<< 16)
  reservedStatus :=
    s.status &&& ~~~(lengthMask ||| portMask <<< 16 ||| errorMask <<< 20 ||| statusMask)

/-- The third word; fields are cut to their width. -/
def extentWord (d : ReceiveDescriptor) : UInt32 :=
  (d.bufferLength.toUInt32 &&& lengthMask) ||| (d.bufferOffset.toUInt32 &&& lengthMask) <<< 16 |||
    d.reservedExtent

/-- The fourth word; fields are cut to their width, but the status bits are not. -/
def statusWord (d : ReceiveDescriptor) : UInt32 :=
  (d.packetLength.toUInt32 &&& lengthMask) ||| (d.fromPort.toUInt32 &&& portMask) <<< 16 |||
    (d.packetError.toUInt32 &&& errorMask) <<< 20 ||| d.status ||| d.reservedStatus

/-- The words of the descriptor. -/
def slot (d : ReceiveDescriptor) : Slot where
  next := d.next
  buffer := d.bufferPointer
  extent := d.extentWord
  status := d.statusWord

/-- The descriptor at bus address `address`. -/
def decode (ram : Aperture) (address : UInt32) : Except DmaFault ReceiveDescriptor :=
  liftMemory ((ram.readSlot address).map (ofSlot address))

/-- The descriptor RAM after the third and fourth words have been written back.  The slot has to
lie inside as a whole. -/
def encode (d : ReceiveDescriptor) (ram : Aperture) : Except DmaFault Aperture :=
  liftMemory do
    let _ ← ram.translate d.address.toUInt64 Slot.length
    ram.write (d.address.toUInt64 + 8) (Slot.bytesOf d.extentWord ++ Slot.bytesOf d.statusWord)

/-- The address of the first byte of data. -/
def dataAddress (d : ReceiveDescriptor) : UInt64 :=
  d.bufferPointer.toUInt64 + d.bufferOffset.toUInt64

/-- Whether all bits of `mask` are set in the status. -/
def has (d : ReceiveDescriptor) (mask : UInt32) : Bool := d.status &&& mask == mask

/-- Whether the descriptor belongs to the engine. -/
def isOwned (d : ReceiveDescriptor) : Bool := d.has Status.owner

/-- Sets status bits. -/
def raise (d : ReceiveDescriptor) (mask : UInt32) : ReceiveDescriptor :=
  { d with status := d.status ||| mask }

/-- Clears status bits. -/
def lower (d : ReceiveDescriptor) (mask : UInt32) : ReceiveDescriptor :=
  { d with status := d.status &&& ~~~mask }

@[simp] theorem address_ofSlot (address : UInt32) (s : Slot) :
    (ofSlot address s).address = address := rfl

@[simp] theorem address_raise (d : ReceiveDescriptor) (mask : UInt32) :
    (d.raise mask).address = d.address := rfl

@[simp] theorem address_lower (d : ReceiveDescriptor) (mask : UInt32) :
    (d.lower mask).address = d.address := rfl

end ReceiveDescriptor

end PacketDma
