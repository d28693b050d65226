/-
**What a placed frame leaves behind.**

The descriptors of a placed frame are written back with what there is to say about it.  Software
that decodes them later finds just this: each descriptor as it has been reported, and the frame, cut
into pieces, in the buffers that the descriptors describe.

Main definitions:

* `PacketDma.ReceiveDescriptor.BuffersDisjoint` — two buffers have no byte in common.

Main results:

* `PacketDma.System.Placed.ofSlot_of_report` — **a descriptor is decoded as it has been reported**;
* `PacketDma.System.Placed.flatMap_bytes` — **the buffers hold the frame**.
-/

import PacketDma.Proofs.DescriptorCodec
import PacketDma.Proofs.FillEffect

set_option autoImplicit false

namespace PacketDma

/-! ### Buffers -/

/-- The address `i` lies in the buffer of a receive descriptor. -/
def ReceiveDescriptor.InBuffer (d : ReceiveDescriptor) (i : Nat) : Prop :=
  d.dataAddress.toNat ≤ i ∧ i < d.dataAddress.toNat + d.bufferLength.toNat

/-- Two receive descriptors have no byte of their buffers in common. -/
def ReceiveDescriptor.BuffersDisjoint (d e : ReceiveDescriptor) : Prop :=
  ∀ i, d.InBuffer i → ¬ e.InBuffer i

/-- A buffer that ends before another one starts has no byte in common with it. -/
theorem ReceiveDescriptor.BuffersDisjoint.of_le {d e : ReceiveDescriptor}
    (h : d.dataAddress.toNat + d.bufferLength.toNat ≤ e.dataAddress.toNat) :
    d.BuffersDisjoint e := by
  intro i hi hj
  exact absurd (Nat.lt_of_lt_of_le hi.2 h) (Nat.not_lt.2 hj.1)

/-! ### Reports -/

theorem extentWord_filled (t : Segment) (isLast : Bool) :
    (t.filled isLast).extentWord = (t.filled false).extentWord := by
  cases isLast <;> rfl

theorem ReceiveDescriptor.extentWord_announce (d : ReceiveDescriptor) (frame : InboundFrame) :
    (d.announce frame).extentWord = d.extentWord :=
  rfl

/-- Every segment of a plan has a report, which says where its data lies. -/
theorem FillPlan.exists_report (p : FillPlan) (frame : InboundFrame) {t : Segment}
    (ht : t ∈ p.segments) :
    ∃ d ∈ p.report frame, d.address = t.descriptor.address ∧
      d.extentWord = (t.filled false).extentWord := by
  obtain ⟨i, hi⟩ := List.mem_iff_getElem?.1 ht
  refine ⟨_, List.mem_of_getElem? (p.report_getElem? frame hi), ?_⟩
  split
  · rw [ReceiveDescriptor.address_announce, ReceiveDescriptor.extentWord_announce]
    exact ⟨Segment.address_filled .., extentWord_filled ..⟩
  · exact ⟨Segment.address_filled .., extentWord_filled ..⟩

/-- Every report is that of a segment, and the first one announces the frame. -/
theorem FillPlan.exists_segment (p : FillPlan) (frame : InboundFrame) {d : ReceiveDescriptor}
    (hd : d ∈ p.report frame) :
    ∃ t ∈ p.segments, ∃ isLast, d = t.filled isLast ∨ d = (t.filled isLast).announce frame := by
  rw [report_eq_mapIdx] at hd
  obtain ⟨i, hi, rfl⟩ := List.mem_mapIdx.1 hd
  refine ⟨p.segments[i], List.getElem_mem hi, i + 1 == p.segments.length, ?_⟩
  split
  · exact Or.inr rfl
  · exact Or.inl rfl

/-- A filled descriptor says where its data lies and how much there is. -/
theorem Segment.extent_filled (t : Segment) (isLast : Bool) :
    (t.filled isLast).dataAddress = t.descriptor.dataAddress ∧
      (t.filled isLast).bufferLength = UInt16.ofNat t.length := by
  cases isLast <;> exact ⟨rfl, rfl⟩

/-- What the buffers of the reports of a plan hold is what its segments hold. -/
theorem FillPlan.flatMap_report (p : FillPlan) (frame : InboundFrame) (memory : Memory)
    (hlength : ∀ t ∈ p.segments, t.length ≤ maxPacketLength) :
    ((p.report frame).flatMap fun d => memory.bytes d.dataAddress d.bufferLength.toNat) =
      p.segments.flatMap fun t => memory.bytes t.descriptor.dataAddress t.length := by
  have hmax : maxPacketLength = 2047 := rfl
  have hone : ∀ t ∈ p.segments, ∀ isLast,
      memory.bytes (t.filled isLast).dataAddress (t.filled isLast).bufferLength.toNat =
        memory.bytes t.descriptor.dataAddress t.length := by
    intro t ht isLast
    obtain ⟨hdata, hbuffer⟩ := t.extent_filled isLast
    have hle := hlength t ht
    rw [hdata, hbuffer, UInt16.toNat_ofNat', Nat.mod_eq_of_lt (by omega)]
  have hrest : ∀ segments : List Segment, (∀ t ∈ segments, t ∈ p.segments) →
      ((fillReports segments).flatMap fun d => memory.bytes d.dataAddress d.bufferLength.toNat) =
        segments.flatMap fun t => memory.bytes t.descriptor.dataAddress t.length := by
    intro segments hsub
    induction segments with
    | nil => rfl
    | cons t rest ih =>
        rw [fillReports, List.flatMap_cons, List.flatMap_cons,
          hone t (hsub t (List.mem_cons_self ..)), ih fun u hu => hsub u (List.mem_cons_of_mem _ hu)]
  rw [FillPlan.report, FillPlan.segments, List.flatMap_cons, List.flatMap_cons,
    hrest p.rest fun t ht => List.mem_cons_of_mem _ ht]
  exact congrArg (· ++ _) (hone p.first (List.mem_cons_self ..) _)

/-! ### The slots and the buffers of a placed frame -/

namespace System

variable {s : System} {frame : InboundFrame} {plan : FillPlan}

/-- A placed frame leaves the buffer pointers alone and says how much data each buffer holds. -/
theorem Placed.slot_of_segment {memory : Memory} {ram : Aperture}
    (h : s.Placed frame plan memory ram)
    (hslots : plan.segments.Pairwise fun t u => SlotsDisjoint t.descriptor.address
      u.descriptor.address) {t : Segment} (ht : t ∈ plan.segments) :
    (ram.slotAt t.descriptor.address).buffer = (s.engine.ram.slotAt t.descriptor.address).buffer ∧
      (ram.slotAt t.descriptor.address).extent = (t.filled false).extentWord := by
  obtain ⟨d, hd, haddress, hextent⟩ := plan.exists_report frame ht
  have hslot := h.slots hslots d hd
  rw [haddress] at hslot
  rw [hslot]
  exact ⟨rfl, hextent⟩

/-- Segments that fill no address in common hold their parts of the frame after it has been
placed. -/
theorem Placed.bytes_of_apart {memory : Memory} {ram : Aperture}
    (h : s.Placed frame plan memory ram) {channel : ChannelId}
    (hplan : s.engine.plan s.memory channel frame.bytes.length = .ok plan)
    (hapart : plan.segments.Pairwise Segment.Apart) {t : Segment} (ht : t ∈ plan.segments) :
    memory.bytes t.descriptor.dataAddress t.length = t.part frame.bytes := by
  have hlength := (walk_of_plan hplan).length_part frame.bytes (Nat.zero_add _) t ht
  refine List.ext_getElem ?_ ?_
  · rw [Memory.length_bytes, hlength]
  · intro k hk hk'
    have hbyte := h.parts hapart t ht k hk'
    rw [List.getD_eq_getElem _ _ hk'] at hbyte
    rw [← hbyte]
    simp [Memory.bytes]

/-- Buffers without a common byte hold the parts of the frame after it has been placed. -/
theorem Placed.bytes_of_segment {memory : Memory} {ram : Aperture}
    (h : s.Placed frame plan memory ram) {channel : ChannelId}
    (hplan : s.engine.plan s.memory channel frame.bytes.length = .ok plan)
    (hbuffers : plan.segments.Pairwise fun t u => t.descriptor.BuffersDisjoint u.descriptor)
    {t : Segment} (ht : t ∈ plan.segments) :
    memory.bytes t.descriptor.dataAddress t.length = t.part frame.bytes := by
  have hinside : ∀ u ∈ plan.segments, ∀ i, u.Touches i → u.descriptor.InBuffer i := by
    intro u hu i hi
    obtain ⟨o, m, htaken⟩ := (walk_of_plan hplan).exists_takenAt u hu
    exact ⟨hi.1, Nat.lt_of_lt_of_le hi.2 (Nat.add_le_add_left htaken.length_le_buffer _)⟩
  refine h.bytes_of_apart hplan (List.Pairwise.imp_of_mem ?_ hbuffers) ht
  intro u v hu hv hdisjoint i hi hj
  exact hdisjoint i (hinside u hu i hi) (hinside v hv i hj)

/-- **The buffers hold the frame.** -/
theorem Placed.flatMap_bytes {memory : Memory} {ram : Aperture}
    (h : s.Placed frame plan memory ram) {channel : ChannelId}
    (hplan : s.engine.plan s.memory channel frame.bytes.length = .ok plan)
    (hbuffers : plan.segments.Pairwise fun t u => t.descriptor.BuffersDisjoint u.descriptor) :
    (plan.segments.flatMap fun t => memory.bytes t.descriptor.dataAddress t.length) =
      frame.bytes := by
  have hparts := (walk_of_plan hplan).flatMap_part frame.bytes (Nat.zero_add _)
  rw [List.drop_zero] at hparts
  rw [← hparts, List.flatMap_def, List.flatMap_def]
  refine congrArg List.flatten (List.map_congr_left fun t ht => ?_)
  exact h.bytes_of_segment hplan hbuffers ht

/-- **A descriptor is decoded as it has been reported.** -/
theorem Placed.ofSlot_of_report {memory : Memory} {ram : Aperture}
    (h : s.Placed frame plan memory ram) {channel : ChannelId}
    (hplan : s.engine.plan s.memory channel frame.bytes.length = .ok plan)
    (hlength : frame.bytes.length ≤ maxPacketLength)
    (hslots : plan.segments.Pairwise fun t u => SlotsDisjoint t.descriptor.address
      u.descriptor.address) {d : ReceiveDescriptor} (hd : d ∈ plan.report frame) :
    ReceiveDescriptor.ofSlot d.address (ram.slotAt d.address) = d := by
  obtain ⟨t, ht, isLast, hreport⟩ := plan.exists_segment frame hd
  obtain ⟨o, m, htaken⟩ := (walk_of_plan hplan).exists_takenAt t ht
  have hcanonical : t.descriptor.Canonical := by
    rw [htaken.descriptor_eq]
    exact ReceiveDescriptor.canonical_ofSlot ..
  have hfilled := hcanonical.filled htaken.length_le_buffer isLast
  have hkept : d.Canonical ∧ d.address = t.descriptor.address ∧ d.next = t.descriptor.next ∧
      d.bufferPointer = t.descriptor.bufferPointer := by
    rcases hreport with rfl | rfl
    · exact ⟨hfilled, by cases isLast <;> exact ⟨rfl, rfl, rfl⟩⟩
    · exact ⟨hfilled.announce hlength, by cases isLast <;> exact ⟨rfl, rfl, rfl⟩⟩
  obtain ⟨hd', haddress, hnext, hpointer⟩ := hkept
  have hslot := h.slots hslots d hd
  -- the first two words are the old ones, and the report has kept them as well
  have hwords : ram.slotAt d.address = d.slot := by
    have hbefore := congrArg ReceiveDescriptor.next htaken.descriptor_eq
    have hbefore' := congrArg ReceiveDescriptor.bufferPointer htaken.descriptor_eq
    rw [hslot, haddress, ReceiveDescriptor.slot, hnext, hpointer, hbefore, hbefore']
    rfl
  rw [hwords]
  exact ReceiveDescriptor.ofSlot_slot hd'

end System

end PacketDma
