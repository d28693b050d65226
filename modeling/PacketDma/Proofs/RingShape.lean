/-
**Receive rings as software builds them.**

Software lays descriptors out, links each of them to the next, and closes the list with a pointer of
zero or back to the first descriptor.  The engine follows either, so that the list is a circle: it
may be cut at any place, and the two halves lead to each other.

Main definitions:

* `PacketDma.RingSlot` — a descriptor as software arms it;
* `PacketDma.Ring` — the descriptors of a ring;
* `PacketDma.LinkedTo`, `PacketDma.Circular` — the engine gets from each descriptor to the next.

Main results:

* `PacketDma.Ring.circular` — **a ring is a circle**;
* `PacketDma.Circular.of_isRotated` — a circle may be cut anywhere.
-/

import Mathlib.Data.List.Chain
import Mathlib.Data.List.Rotate
import PacketDma.Proofs.FillReport

set_option autoImplicit false

namespace PacketDma

/-- The address of a descriptor and the words that software arms it with: the armed descriptor
belongs to the engine. -/
structure RingSlot where
  address : UInt32
  armed : Slot
  nonzero : address ≠ 0
  owned : (ReceiveDescriptor.ofSlot address armed).isOwned = true
deriving DecidableEq

namespace RingSlot

/-- The armed descriptor. -/
def descriptor (x : RingSlot) : ReceiveDescriptor := .ofSlot x.address x.armed

/-- The number of bytes that the armed descriptor has room for. -/
def capacity (x : RingSlot) : Nat := x.descriptor.bufferLength.toNat

@[simp] theorem address_descriptor (x : RingSlot) : x.descriptor.address = x.address := rfl

end RingSlot

/-! ### Lists of descriptors that lead to each other -/

/-- The address of the first descriptor of a list, or `beyond` when there is none. -/
def entry : List RingSlot → UInt32 → UInt32
  | [], beyond => beyond
  | x :: _, _ => x.address

@[simp] theorem entry_nil (beyond : UInt32) : entry [] beyond = beyond := rfl

@[simp] theorem entry_cons (x : RingSlot) (rest : List RingSlot) (beyond : UInt32) :
    entry (x :: rest) beyond = x.address := rfl

theorem entry_append (first second : List RingSlot) (beyond : UInt32) :
    entry (first ++ second) beyond = entry first (entry second beyond) := by
  cases first <;> rfl

/-- The engine gets from each descriptor of a list to the next, and from the last one to
`beyond`. -/
def LinkedTo (head : UInt32) : List RingSlot → UInt32 → Prop
  | [], _ => True
  | x :: rest, beyond =>
      nextDescriptor x.armed.next head = some (entry rest beyond) ∧ LinkedTo head rest beyond

variable {head : UInt32}

theorem linkedTo_append {first second : List RingSlot} {beyond : UInt32} :
    LinkedTo head (first ++ second) beyond ↔
      LinkedTo head first (entry second beyond) ∧ LinkedTo head second beyond := by
  induction first with
  | nil => simp [LinkedTo]
  | cons x rest ih => rw [List.cons_append, LinkedTo, LinkedTo, ih, entry_append, and_assoc]

/-- The engine gets from the last descriptor of a list back to the first. -/
def Circular (head : UInt32) (slots : List RingSlot) : Prop := LinkedTo head slots (entry slots 0)

namespace Circular

/-- The two parts of a circle lead to each other. -/
theorem append_comm {first second : List RingSlot} (h : Circular head (first ++ second)) :
    Circular head (second ++ first) := by
  cases first with
  | nil => rwa [List.append_nil]
  | cons x rest =>
      cases second with
      | nil => rwa [List.append_nil] at h
      | cons y others =>
          -- with both parts present, neither leads to what is behind the circle
          obtain ⟨hfirst, hsecond⟩ := linkedTo_append.1 h
          exact linkedTo_append.2 ⟨hsecond, hfirst⟩

/-- **A circle may be cut anywhere.** -/
theorem of_isRotated {slots others : List RingSlot} (h : Circular head slots)
    (hrotated : slots ~r others) : Circular head others := by
  obtain ⟨n, hn, rfl⟩ := List.isRotated_iff_mod.1 hrotated
  rw [List.rotate_eq_drop_append_take hn]
  rw [← List.take_append_drop n slots] at h
  exact h.append_comm

end Circular

/-- The descriptors of a list lead to each other when each points to the next and the last one
closes the list. -/
theorem linkedTo_of_isChain (hhead : head ≠ 0) {slots : List RingSlot}
    (hlinked : slots.IsChain fun x y => x.armed.next = y.address)
    (hclosed : ∀ x ∈ slots.getLast?, x.armed.next = 0 ∨ x.armed.next = head) :
    LinkedTo head slots head := by
  induction slots with
  | nil => exact trivial
  | cons x rest ih =>
      cases rest with
      | nil =>
          refine ⟨?_, trivial⟩
          -- a pointer of zero leads back to the head just as the pointer to it does
          rcases hclosed x rfl with h | h
          · rw [h, nextDescriptor, if_neg (by simp), if_pos hhead]
            rfl
          · rw [h, nextDescriptor, if_pos hhead]
            rfl
      | cons y others =>
          obtain ⟨hnext, hothers⟩ := List.isChain_cons_cons.1 hlinked
          refine ⟨?_, ih hothers fun z hz => ?_⟩
          · rw [hnext, nextDescriptor, if_pos y.nonzero]
            rfl
          · exact hclosed z (by simpa using hz)

/-! ### Rings -/

/-- The descriptors of a receive ring in the order of its links: neither their slots nor their
buffers overlap, and the last one leads nowhere or back to the first. -/
structure Ring where
  first : RingSlot
  rest : List RingSlot
  slotsApart : (first :: rest).Pairwise fun x y => SlotsDisjoint x.address y.address
  buffersApart : (first :: rest).Pairwise fun x y => x.descriptor.BuffersDisjoint y.descriptor
  linked : (first :: rest).IsChain fun x y => x.armed.next = y.address
  closed : ∀ x ∈ (first :: rest).getLast?, x.armed.next = 0 ∨ x.armed.next = first.address

namespace Ring

/-- The descriptors of a ring, from the first on. -/
def slots (ring : Ring) : List RingSlot := ring.first :: ring.rest

/-- **A ring is a circle.** -/
theorem circular (ring : Ring) : Circular ring.first.address ring.slots :=
  linkedTo_of_isChain ring.first.nonzero ring.linked ring.closed

variable {ring : Ring} {slots : List RingSlot}

/-- The slots of a ring do not overlap, wherever it is cut. -/
theorem slotsApart_of_isRotated (h : ring.slots ~r slots) :
    slots.Pairwise fun x y => SlotsDisjoint x.address y.address :=
  h.perm.pairwise ring.slotsApart fun hdisjoint => hdisjoint.symm

/-- The buffers of a ring do not overlap, wherever it is cut. -/
theorem buffersApart_of_isRotated (h : ring.slots ~r slots) :
    slots.Pairwise fun x y => x.descriptor.BuffersDisjoint y.descriptor :=
  h.perm.pairwise ring.buffersApart fun hdisjoint i hi hj => hdisjoint i hj hi

end Ring

end PacketDma
