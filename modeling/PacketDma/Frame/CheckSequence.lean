/-
**The frame check sequence.**

An Ethernet frame ends with the CRC-32 of what comes before it: the remainder of a polynomial
division, kept in a shift register whose bits run from the highest power down.  The register starts
with all ones, and the remainder is sent complemented, least significant byte first.

Main definitions:

* `PacketDma.Crc32.shift` — one step of the division;
* `PacketDma.Crc32.absorb` — the register after a further byte;
* `PacketDma.Crc32.checksum` — the CRC-32 of a byte string;
* `PacketDma.Frame.withFcs` — a frame followed by its check sequence.

Main results:

* `PacketDma.Crc32.register_append` — the register takes in a byte string piece by piece;
* `PacketDma.Frame.length_withFcs` — the check sequence has four bytes.
-/

import PacketDma.Frame.Basic
import PacketDma.LittleEndian

set_option autoImplicit false

namespace PacketDma

namespace Crc32

/-- The coefficients of the polynomial below the highest, the bit of the highest power first. -/
def polynomial : UInt32 := 0xEDB88320

/-- One step of the division: the register moves down by a bit, and the polynomial is subtracted
when the bit that leaves is set. -/
def shift (register : UInt32) : UInt32 :=
  if register &&& 1 = 1 then (register >>> 1) ^^^ polynomial else register >>> 1

/-- `steps` steps of the division. -/
def shifts : (steps : Nat) → UInt32 → UInt32
  | 0, register => register
  | steps + 1, register => shifts steps (shift register)

/-- The register after a further byte. -/
def absorb (register : UInt32) (byte : UInt8) : UInt32 := shifts 8 (register ^^^ byte.toUInt32)

/-- The register after a byte string, from a given start. -/
def register (start : UInt32) (bytes : List UInt8) : UInt32 := bytes.foldl absorb start

/-- The CRC-32 of a byte string. -/
def checksum (bytes : List UInt8) : UInt32 := ~~~ register 0xFFFFFFFF bytes

@[simp] theorem register_nil (start : UInt32) : register start [] = start := rfl

@[simp] theorem register_cons (start : UInt32) (byte : UInt8) (rest : List UInt8) :
    register start (byte :: rest) = register (absorb start byte) rest := rfl

/-- The register takes in a byte string piece by piece. -/
theorem register_append (start : UInt32) (first second : List UInt8) :
    register start (first ++ second) = register (register start first) second :=
  List.foldl_append ..

end Crc32

namespace Frame

/-- The frame followed by its check sequence, least significant byte first. -/
def withFcs (frame : Frame) : Frame :=
  frame ++ LittleEndian.encode 4 (Crc32.checksum frame).toNat

@[simp] theorem length_withFcs (frame : Frame) : frame.withFcs.length = frame.length + 4 := by
  simp [withFcs]

end Frame

end PacketDma
