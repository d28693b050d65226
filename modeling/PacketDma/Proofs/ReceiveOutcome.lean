/-
**The exact effect of a fill.**

A frame that has been placed leaves its pieces in memory, a report in each of its descriptors, and a
channel that goes on behind the last of them.  The reports are given here word by word: what the
engine writes, what it clears, and which bits of the old words pass through.

Main definitions:

* `PacketDma.Slot.reported` — the words of a descriptor after its frame has been placed;
* `PacketDma.System.Filled` — what has changed after a fill, and what has not.

Main results:

* `PacketDma.System.Placed.slotAt_of_segment` — each slot holds its report;
* `PacketDma.System.fill_effect` — **the exact effect of a fill**.
-/

import PacketDma.Proofs.FillReport

set_option autoImplicit false

namespace PacketDma

/-- The words of a descriptor that had the words `w`, after `length` bytes of `frame` have been
placed in its buffer.  The first descriptor of a frame describes the frame, and the last one ends
the packet. -/
def Slot.reported (w : Slot) (frame : InboundFrame) (length : Nat) (isFirst isLast : Bool) :
    Slot where
  next := w.next
  buffer := w.buffer
  extent := (w.extent &&& 0xFFFFF800) ||| UInt32.ofNat length
  status :=
    (if isFirst then
      (w.status &&& 0xF800) ||| UInt32.ofNat frame.bytes.length ||| 0x10000 |||
        Status.startOfPacket ||| (if frame.carriesFcs then Status.passCrc else 0)
    else w.status &&& 0x2037FFFF) |||
      if isLast then Status.endOfPacket ||| Status.endOfQueue else 0

namespace System

variable {s : System} {frame : InboundFrame} {plan : FillPlan}

/-- What has changed after a frame has been placed by a plan, and what has not. -/
structure Filled (s : System) (frame : InboundFrame) (plan : FillPlan) (after : System) :
    Prop where
  size_eq : after.memory.size = s.memory.size
  pieces : ∀ t ∈ plan.segments,
    after.memory.bytes t.descriptor.dataAddress t.length = t.part frame.bytes
  elsewhere : ∀ i, (∀ t ∈ plan.segments, ¬ t.Touches i) →
    after.memory.byteAt i = s.memory.byteAt i
  slots : ∀ i t, plan.segments[i]? = some t →
    after.engine.ram.slotAt t.descriptor.address =
      (s.engine.ram.slotAt t.descriptor.address).reported frame t.length (i == 0)
        (i + 1 == plan.segments.length)
  /-- The first descriptor passes to software, and the others stay with the engine. -/
  owned : ∀ i t, plan.segments[i]? = some t →
    (after.engine.ram.descriptorAt t.descriptor.address).isOwned = (i != 0)
  ram : s.engine.ram.EqOff after.engine.ram fun i =>
    ∃ t ∈ plan.segments, InReport t.descriptor.address i
  channel : ∃ last, plan.segments.getLast? = some last ∧
    after.engine.channels.receiveChannel (s.engine.channelOf frame) =
      { head := (s.engine.channels.receiveChannel (s.engine.channelOf frame)).head
        completion := plan.first.descriptor.bufferPointer
        cursor := nextDescriptor last.descriptor.next
          (s.engine.channels.receiveChannel (s.engine.channelOf frame)).head } ∧
    (after.engine.channels.receiveChannel (s.engine.channelOf frame)).start =
      if last.descriptor.next = 0 then
        (s.engine.channels.receiveChannel (s.engine.channelOf frame)).head
      else last.descriptor.next
  receive : ∀ c, c ≠ s.engine.channelOf frame →
    after.engine.channels.receiveChannel c = s.engine.channels.receiveChannel c
  transmit : ∀ c, after.engine.channels.transmitChannel c = s.engine.channels.transmitChannel c
  received_eq : after.engine.stats.received = s.engine.stats.received + 1

/-- Behind a descriptor whose next pointer is zero, a channel starts at its head. -/
theorem start_of_nextDescriptor (next head completion : UInt32) :
    ReceiveChannel.start { head, completion, cursor := nextDescriptor next head } =
      if next = 0 then head else next := by
  unfold ReceiveChannel.start nextDescriptor
  by_cases hnext : next = 0
  · by_cases hhead : head = 0 <;> simp [hnext, hhead]
  · simp [hnext]

/-- The words of a report are those of a descriptor whose frame has been placed. -/
theorem slot_of_report {t : Segment} {w : Slot} {d : ReceiveDescriptor} {i : Nat} {isLast : Bool}
    (ht : t.descriptor = .ofSlot t.descriptor.address w) (hlength : t.length ≤ maxPacketLength)
    (hframe : frame.bytes.length ≤ maxPacketLength)
    (hd : d = if i = 0 then (t.filled isLast).announce frame else t.filled isLast) :
    { w with extent := d.extentWord, status := d.statusWord } =
      w.reported frame t.length (i == 0) isLast := by
  have hextent : d.extentWord = (w.extent &&& 0xFFFFF800) ||| UInt32.ofNat t.length := by
    have hkept : d.extentWord = (t.filled isLast).extentWord := by
      rw [hd]
      split <;> rfl
    rw [hkept, ReceiveDescriptor.extentWord_filled_of_ofSlot _ w ht hlength, UInt32.or_comm]
  by_cases hi : i = 0
  · rw [if_pos hi] at hd
    have hstatus := ReceiveDescriptor.statusWord_announce_of_ofSlot _ w ht hframe isLast
    rw [← hd] at hstatus
    simp only [Slot.reported, hextent, hstatus, hi, beq_self_eq_true, if_true, UInt32.or_assoc]
  · rw [if_neg hi] at hd
    have hstatus := ReceiveDescriptor.statusWord_filled_of_ofSlot _ w ht isLast
    rw [← hd] at hstatus
    have hlater : (i == 0) = false := beq_false_of_ne hi
    simp only [Slot.reported, hextent, hstatus, hlater, Bool.false_eq_true, if_false]

/-- Each segment of a plan belongs to a descriptor that is found in the RAM, is owned by the engine,
and takes no more than a descriptor can say. -/
theorem segment_of_plan {channel : ChannelId} {length : Nat}
    (hplan : s.engine.plan s.memory channel length = .ok plan) {t : Segment}
    (ht : t ∈ plan.segments) :
    t.descriptor = .ofSlot t.descriptor.address (s.engine.ram.slotAt t.descriptor.address) ∧
      t.descriptor.isOwned = true ∧ t.length ≤ maxPacketLength := by
  obtain ⟨o, m, htaken⟩ := (walk_of_plan hplan).exists_takenAt t ht
  refine ⟨htaken.descriptor_eq, htaken.owned, Nat.le_trans htaken.length_le_buffer ?_⟩
  rw [htaken.descriptor_eq]
  exact (ReceiveDescriptor.canonical_ofSlot _ _).toNat_bufferLength_le

/-- **Each slot of a plan holds its report** after the frame has been placed. -/
theorem Placed.slotAt_of_segment {memory : Memory} {ram : Aperture}
    (h : s.Placed frame plan memory ram) {channel : ChannelId}
    (hplan : s.engine.plan s.memory channel frame.bytes.length = .ok plan)
    (hframe : frame.bytes.length ≤ maxPacketLength)
    (hslots : plan.segments.Pairwise fun t u => SlotsDisjoint t.descriptor.address
      u.descriptor.address) {i : Nat} {t : Segment} (ht : plan.segments[i]? = some t) :
    ram.slotAt t.descriptor.address =
        (s.engine.ram.slotAt t.descriptor.address).reported frame t.length (i == 0)
          (i + 1 == plan.segments.length) ∧
      (ram.descriptorAt t.descriptor.address).isOwned = (i != 0) := by
  obtain ⟨hdescriptor, howned, hlength⟩ := segment_of_plan hplan (List.mem_of_getElem? ht)
  generalize hd : (if i = 0 then (t.filled (i + 1 == plan.segments.length)).announce frame
    else t.filled (i + 1 == plan.segments.length)) = d
  have hmem : d ∈ plan.report frame := by
    rw [← hd]
    exact List.mem_of_getElem? (plan.report_getElem? frame ht)
  have haddress : d.address = t.descriptor.address := by
    rw [← hd]
    split
    · rw [ReceiveDescriptor.address_announce, Segment.address_filled]
    · rw [Segment.address_filled]
  have hslot := h.slots hslots d hmem
  have hdecoded := h.ofSlot_of_report hplan hframe hslots hmem
  rw [haddress] at hslot hdecoded
  refine ⟨?_, ?_⟩
  · rw [hslot]
    exact slot_of_report hdescriptor hlength hframe hd.symm
  · rw [Aperture.descriptorAt, hdecoded, ← hd]
    by_cases hi : i = 0
    · rw [if_pos hi, ReceiveDescriptor.isOwned_announce, hi]
      rfl
    · rw [if_neg hi, ReceiveDescriptor.isOwned_filled, howned]
      exact (bne_iff_ne.2 hi).symm

/-- **The exact effect of a fill.**  A frame that is placed has a plan, which cuts it into
consecutive pieces for descriptors that are found in the RAM.  If their slots do not overlap, nor
the parts of their buffers that are used, then memory, the RAM, the channels and the count of
received frames have changed as `System.Filled` says, and nothing of them beyond that. -/
theorem fill_effect (s : System) (frame : InboundFrame)
    (hframe : frame.bytes.length ≤ maxPacketLength) (hfill : (s.fill frame).1 = none) :
    ∃ plan, s.engine.plan s.memory (s.engine.channelOf frame) frame.bytes.length = .ok plan ∧
      (∀ t ∈ plan.segments, t.descriptor = s.engine.ram.descriptorAt t.descriptor.address) ∧
      plan.segments.flatMap (·.part frame.bytes) = frame.bytes ∧
      ((plan.segments.Pairwise fun t u =>
          SlotsDisjoint t.descriptor.address u.descriptor.address) →
        plan.segments.Pairwise Segment.Apart → s.Filled frame plan (s.fill frame).2) := by
  cases hplan : s.engine.plan s.memory (s.engine.channelOf frame) frame.bytes.length with
  | error fault =>
      rw [fill_of_error hplan] at hfill
      cases hfill
  | ok plan =>
      have hwalk := walk_of_plan hplan
      have hparts := hwalk.flatMap_part frame.bytes (Nat.zero_add _)
      rw [List.drop_zero] at hparts
      refine ⟨plan, rfl, fun t ht => (segment_of_plan hplan ht).1, hparts, ?_⟩
      intro hslots hapart
      obtain ⟨memory, ram, hplaced, hafter⟩ := exists_fill_of_plan hplan
      obtain ⟨_, _, _, _, _, hcount, -⟩ := Engine.exists_countReceived
        ({ s.engine with ram }.advance (s.engine.channelOf frame) plan) (s.engine.classOf frame)
        frame.bytes
      obtain ⟨last, hlast, hnext⟩ := hwalk.exists_last
      have hchannel := ChannelBank.receiveChannel_modifyReceive_self s.engine.channels
        (s.engine.channelOf frame) fun receive =>
          { receive with
            cursor := plan.next
            completion := plan.first.descriptor.bufferPointer }
      rw [hnext] at hchannel
      rw [hafter, hcount]
      refine ⟨hplaced.size, fun t ht => hplaced.bytes_of_apart hplan hapart ht,
        hplaced.elsewhere, ?_, ?_, hplaced.reports, ⟨last, hlast, ?_, ?_⟩, ?_, fun c => rfl, rfl⟩
      · intro i t ht
        exact (hplaced.slotAt_of_segment hplan hframe hslots ht).1
      · intro i t ht
        exact (hplaced.slotAt_of_segment hplan hframe hslots ht).2
      · rw [← hchannel, ← hnext]
        rfl
      · rw [← start_of_nextDescriptor, ← hchannel, ← hnext]
        rfl
      · intro c hc
        exact ChannelBank.receiveChannel_modifyReceive_of_ne _ hc _

/-- A frame of five bytes, of which the last four are its check sequence, goes into a buffer of two
and three bytes of a buffer of four.  The bits of the old words that have no meaning stay. -/
theorem five_bytes_are_reported :
    let frame : InboundFrame := { bytes := [1, 2, 3, 4, 5], carriesFcs := true }
    let s := (small.run [.writeRam 0x48486000
      [0x48486010, 0x100, 0x30000002, 0x2000F800, 0, 0x200, 4, 0x2000F800],
      .writeRegister 0xA24 0x48486000]).2
    (s.fill frame).1 = none ∧
    ∃ plan, s.Filled frame plan (s.fill frame).2 ∧
      plan.segments.map (·.descriptor.address) = [0x48486000, 0x48486010] ∧
      (s.fill frame).2.engine.ram.slotAt 0x48486000 =
        ⟨0x48486010, 0x100, 0x30000002, 0x8401F805⟩ ∧
      (s.fill frame).2.engine.ram.slotAt 0x48486010 = ⟨0, 0x200, 3, 0x7000F800⟩ := by
  intro frame s
  have hfill : (s.fill frame).1 = none := by decide +kernel
  obtain ⟨plan, hplan, -, -, heffect⟩ := fill_effect s frame (by decide) hfill
  have hcomputed : s.engine.plan s.memory (s.engine.channelOf frame) frame.bytes.length =
      .ok ⟨⟨s.engine.ram.descriptorAt 0x48486000, 0, 2⟩,
        [⟨s.engine.ram.descriptorAt 0x48486010, 2, 3⟩], some 0x48486000⟩ := by decide +kernel
  obtain rfl := Except.ok.inj (hplan.symm.trans hcomputed)
  have hfirst : (s.engine.ram.descriptorAt 0x48486000).dataAddress.toNat = 0x100 := by
    decide +kernel
  have hsecond : (s.engine.ram.descriptorAt 0x48486010).dataAddress.toNat = 0x200 := by
    decide +kernel
  have hslots : SlotsDisjoint 0x48486000 0x48486010 := by decide
  have hapart : Segment.Apart ⟨s.engine.ram.descriptorAt 0x48486000, 0, 2⟩
      ⟨s.engine.ram.descriptorAt 0x48486010, 2, 3⟩ := by
    intro i hi hj
    simp only [Segment.Touches, hfirst, hsecond] at hi hj
    omega
  have hfilled := heffect (List.pairwise_pair.2 hslots) (List.pairwise_pair.2 hapart)
  refine ⟨hfill, _, hfilled, rfl, ?_, ?_⟩
  · exact (hfilled.slots 0 _ rfl).trans (by decide +kernel)
  · exact (hfilled.slots 1 _ rfl).trans (by decide +kernel)

end System

end PacketDma
