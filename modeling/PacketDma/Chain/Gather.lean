/-
**Gathering a transmit frame.**

A frame to be sent lies scattered over the buffers of a chain of descriptors.  The first descriptor
says how long the packet is, and every descriptor contributes at most the bytes of its buffer.
Gathering reads memory and changes nothing.

Main definitions:

* `PacketDma.Gathered` — a frame and the descriptors that contributed to it;
* `PacketDma.gather` — the walk over a chain.
-/

import PacketDma.Chain.Fill
import PacketDma.Descriptor.Transmit
import PacketDma.Frame.Basic

set_option autoImplicit false

namespace PacketDma

/-- A frame and the descriptors that contributed to it, first descriptor first. -/
structure Gathered where
  first : TransmitDescriptor
  rest : List TransmitDescriptor
  frame : Frame
deriving DecidableEq, Repr

/-- All descriptors that contributed, in the order of the frame. -/
def Gathered.descriptors (g : Gathered) : List TransmitDescriptor := g.first :: g.rest

@[simp] theorem Gathered.descriptors_mk (first : TransmitDescriptor)
    (rest : List TransmitDescriptor) (frame : Frame) :
    (Gathered.mk first rest frame).descriptors = first :: rest := rfl

/-- The descriptor at `address`, which has to belong to the engine. -/
def ownedAt (ram : Aperture) (channel : Nat) (address : UInt32) :
    Except DmaFault TransmitDescriptor := do
  let descriptor ← TransmitDescriptor.decode ram address
  if descriptor.isOwned then return descriptor
  else .error (.chain channel (.notOwned address))

/-- The `missing` bytes that a chain from `descriptor` on contributes, with at most `budget`
descriptors behind it, none of which has been visited before. -/
def gatherFrom (ram : Aperture) (memory : Memory) (channel : Nat) (head : UInt32) (limit : Nat)
    (budget : Nat) (visited : List UInt32) (descriptor : TransmitDescriptor) (missing : Nat) :
    Except DmaFault Gathered := do
  let length := min descriptor.bufferLength.toNat missing
  let bytes ← liftMemory (memory.read descriptor.dataAddress length)
  if length = missing then return ⟨descriptor, [], bytes⟩
  else
    match nextDescriptor descriptor.next head with
    | none => .error (.chain channel (.truncated (missing - length)))
    | some following =>
        if following ∈ visited then .error (.chain channel (.truncated (missing - length)))
        else
          match budget with
          | 0 => .error (.chain channel (.walkLimit limit))
          | budget + 1 => do
              let successor ← ownedAt ram channel following
              let tail ← gatherFrom ram memory channel head limit budget (following :: visited)
                successor (missing - length)
              return ⟨descriptor, tail.descriptors, bytes ++ tail.frame⟩

/-- The frame of the chain from `head` on, gathered from at most `limit` descriptors; the first one
counts even if the limit is zero. -/
def gather (ram : Aperture) (memory : Memory) (channel : Nat) (head : UInt32) (limit : Nat) :
    Except DmaFault Gathered := do
  let first ← ownedAt ram channel head
  if first.packetLength = 0 then .error (.chain channel .emptyPacket)
  else
    gatherFrom ram memory channel head limit (limit - 1) [head] first first.packetLength.toNat

end PacketDma
