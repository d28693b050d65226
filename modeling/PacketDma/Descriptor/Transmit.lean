/-
**Transmit descriptors.**

The third word holds the length of the data in its low half and the offset in its high half.  The
fourth holds the packet length in bits 10 to 0, the port in bits 17 and 16, and status bits.  The
engine writes only the fourth word back; bits that belong to no field pass through unchanged.

Main definitions:

* `PacketDma.TransmitDescriptor` — the fields of a transmit descriptor;
* `PacketDma.TransmitDescriptor.ofSlot`, `PacketDma.TransmitDescriptor.slot` — from and to words;
* `PacketDma.TransmitDescriptor.decode`, `PacketDma.TransmitDescriptor.encode` — from and to
  descriptor RAM.
-/

import PacketDma.Descriptor.Slot
import PacketDma.Fault

set_option autoImplicit false

namespace PacketDma

/-- The fields of a transmit descriptor. -/
structure TransmitDescriptor where
  /-- The bus address of the slot. -/
  address : UInt32
  next : UInt32
  bufferPointer : UInt32
  bufferOffset : UInt16
  bufferLength : UInt16
  packetLength : UInt16
  toPort : UInt8
  /-- The status bits.  Decoding finds those that have a meaning; others can only be assigned. -/
  status : UInt32
  /-- The bits of the fourth word that belong to no field. -/
  reserved : UInt32
deriving DecidableEq, Repr

namespace TransmitDescriptor

/-- The status bits that have a meaning on transmit. -/
def statusMask : UInt32 :=
  Status.toPortEnable ||| Status.passCrc ||| Status.teardown ||| Status.endOfQueue |||
    Status.owner ||| Status.endOfPacket ||| Status.startOfPacket

/-- The bits of the port in the fourth word, before they are moved down. -/
def portMask : UInt32 := 0x3

/-- The descriptor at `address` with the given words. -/
def ofSlot (address : UInt32) (s : Slot) : TransmitDescriptor where
  address
  next := s.next
  bufferPointer := s.buffer
  bufferLength := s.extent.toUInt16
  bufferOffset := (s.extent >>> 16).toUInt16
  packetLength := (s.status &&& lengthMask).toUInt16
  toPort := ((s.status >>> 16) &&& portMask).toUInt8
  status := s.status &&& statusMask
  reserved := s.status &&& ~~~(lengthMask ||| portMask <<< 16 ||| statusMask)

/-- The fourth word; fields are cut to their width, but the status bits are not. -/
def statusWord (d : TransmitDescriptor) : UInt32 :=
  (d.packetLength.toUInt32 &&& lengthMask) ||| (d.toPort.toUInt32 &&& portMask) <<< 16 |||
    d.status ||| d.reserved

/-- The words of the descriptor. -/
def slot (d : TransmitDescriptor) : Slot where
  next := d.next
  buffer := d.bufferPointer
  extent := d.bufferLength.toUInt32 ||| d.bufferOffset.toUInt32 <<< 16
  status := d.statusWord

/-- The descriptor at bus address `address`. -/
def decode (ram : Aperture) (address : UInt32) : Except DmaFault TransmitDescriptor :=
  liftMemory ((ram.readSlot address).map (ofSlot address))

/-- The descriptor RAM after the fourth word has been written back. -/
def encode (d : TransmitDescriptor) (ram : Aperture) : Except DmaFault Aperture :=
  liftMemory (ram.writeUInt32 (d.address.toUInt64 + 12) d.statusWord)

/-- The address of the first byte of data. -/
def dataAddress (d : TransmitDescriptor) : UInt64 :=
  d.bufferPointer.toUInt64 + d.bufferOffset.toUInt64

/-- Whether all bits of `mask` are set in the status. -/
def has (d : TransmitDescriptor) (mask : UInt32) : Bool := d.status &&& mask == mask

/-- Whether the descriptor belongs to the engine. -/
def isOwned (d : TransmitDescriptor) : Bool := d.has Status.owner

/-- Sets status bits. -/
def raise (d : TransmitDescriptor) (mask : UInt32) : TransmitDescriptor :=
  { d with status := d.status ||| mask }

/-- Clears status bits. -/
def lower (d : TransmitDescriptor) (mask : UInt32) : TransmitDescriptor :=
  { d with status := d.status &&& ~~~mask }

@[simp] theorem address_ofSlot (address : UInt32) (s : Slot) :
    (ofSlot address s).address = address := rfl

@[simp] theorem address_raise (d : TransmitDescriptor) (mask : UInt32) :
    (d.raise mask).address = d.address := rfl

@[simp] theorem address_lower (d : TransmitDescriptor) (mask : UInt32) :
    (d.lower mask).address = d.address := rfl

end TransmitDescriptor

end PacketDma
