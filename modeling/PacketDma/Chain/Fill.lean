/-
**Planning a receive fill.**

A received frame is spread over the descriptors of a ring.  The walk that chooses them happens
before any byte moves: it visits descriptors from a start, follows their next pointers, and assigns
each of them the part of the frame that fits into its buffer, until the whole frame is placed.
Whatever goes wrong on the way leaves everything as it was.

Main definitions:

* `PacketDma.nextDescriptor` — the descriptor behind another one;
* `PacketDma.Segment` — a descriptor and the part of the frame that it takes;
* `PacketDma.FillPlan` — the segments of a frame and where the next frame starts;
* `PacketDma.planFill` — the walk.

Main results:

* `PacketDma.nextDescriptor_eq_none_iff` — a list ends at a zero pointer on an idle channel only.
-/

import PacketDma.Descriptor.Receive

set_option autoImplicit false

namespace PacketDma

/-- The descriptor behind one with next pointer `next`: a pointer of zero leads back to the head of
the channel, and nowhere when the channel is idle. -/
def nextDescriptor (next head : UInt32) : Option UInt32 :=
  if next ≠ 0 then some next else if head ≠ 0 then some head else none

theorem nextDescriptor_eq_none_iff {next head : UInt32} :
    nextDescriptor next head = none ↔ next = 0 ∧ head = 0 := by
  unfold nextDescriptor
  split
  · simp_all
  · split <;> simp_all

theorem nextDescriptor_ne_zero {next head address : UInt32}
    (h : nextDescriptor next head = some address) : address ≠ 0 := by
  unfold nextDescriptor at h
  split at h
  · simp_all
  · split at h <;> simp_all

/-- A receive descriptor and the part of a frame that it takes. -/
structure Segment where
  descriptor : ReceiveDescriptor
  /-- The position of the part in the frame. -/
  offset : Nat
  /-- The number of bytes of the part. -/
  length : Nat
deriving DecidableEq, Repr

/-- The part of a frame that a segment takes. -/
def Segment.part (s : Segment) (frame : List UInt8) : List UInt8 :=
  (frame.drop s.offset).take s.length

/-- Where a frame goes: one segment or more, and where the frame after it starts. -/
structure FillPlan where
  first : Segment
  rest : List Segment
  next : Option UInt32
deriving DecidableEq, Repr

/-- All segments of a plan, in the order of the frame. -/
def FillPlan.segments (p : FillPlan) : List Segment := p.first :: p.rest

@[simp] theorem FillPlan.segments_mk (first : Segment) (rest : List Segment)
    (next : Option UInt32) : (FillPlan.mk first rest next).segments = first :: rest := rfl

/-- The segment that the descriptor at `address` takes of a frame with `missing` bytes still to be
placed.  The descriptor has to belong to the engine and the bytes have to fit into memory. -/
def segmentAt (ram : Aperture) (memory : Memory) (channel : Nat) (address : UInt32)
    (offset missing : Nat) : Except DmaFault Segment := do
  let descriptor ← ReceiveDescriptor.decode ram address
  if descriptor.isOwned then
    let length := min descriptor.bufferLength.toNat missing
    liftMemory (memory.check descriptor.dataAddress length)
    return { descriptor, offset, length }
  else .error (.overrun channel address)

/-- The plan for the `missing` bytes from position `offset` of a frame, starting at `address`, with
at most `budget` descriptors none of which has been visited before. -/
def planFrom (ram : Aperture) (memory : Memory) (channel : Nat) (head : UInt32) :
    (budget : Nat) → (visited : List UInt32) → (address : UInt32) → (offset missing : Nat) →
    Except DmaFault FillPlan
  | 0, _, _, _, _ => .error (.ringExhausted channel)
  | budget + 1, visited, address, offset, missing =>
      if address ∈ visited then .error (.ringExhausted channel)
      else do
        let segment ← segmentAt ram memory channel address offset missing
        let next := nextDescriptor segment.descriptor.next head
        if segment.length = missing then return ⟨segment, [], next⟩
        else
          match next with
          | none => .error (.ringExhausted channel)
          | some following => do
              let plan ← planFrom ram memory channel head budget (address :: visited) following
                (offset + segment.length) (missing - segment.length)
              return ⟨segment, plan.segments, plan.next⟩

/-- The plan for a frame of `length` bytes on a channel with the given head, starting at `start`
and using at most `limit` descriptors. -/
def planFill (ram : Aperture) (memory : Memory) (channel : Nat) (start head : UInt32)
    (length limit : Nat) : Except DmaFault FillPlan :=
  planFrom ram memory channel head limit [] start 0 length

end PacketDma
