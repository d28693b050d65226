/-
**The exact effect of a transmission.**

A head pointer write whose chain can be gathered sends one frame.  Every descriptor of the chain is
written back from what was read of it, but all that this changes is one bit of the first descriptor
and one of the last: the first passes to software, and the last ends the queue.  The frame goes to
the end of the egress queue, or is counted as dropped where that is full.

Main definitions:

* `PacketDma.Slot.handedBack` — the words of a descriptor after its frame has been sent;
* `PacketDma.System.Sent` — what has changed after a transmission, and what has not.

Main results:

* `PacketDma.Gathered.HandedBack.slotAt_of_descriptor` — each slot is handed back;
* `PacketDma.Gathered.HandedBack.eqOff` — descriptors between the first and the last stay as they
  are, byte by byte;
* `PacketDma.System.transmit_effect` — **the exact effect of a transmission**.
-/

import Mathlib.Data.Nat.Bitwise
import PacketDma.Proofs.DescriptorCodec
import PacketDma.Proofs.TransmitRejection

set_option autoImplicit false

namespace PacketDma

/-- The words of a descriptor that had the words `w`, after its frame has been sent.  The first
descriptor of a chain passes to software, and the last one ends the queue. -/
def Slot.handedBack (w : Slot) (isFirst isLast : Bool) : Slot where
  next := w.next
  buffer := w.buffer
  extent := w.extent
  status :=
    (if isFirst then w.status &&& ~~~Status.owner else w.status) |||
      if isLast then Status.endOfQueue else 0

/-- The frame of a chain whose first descriptor has the words `w`, as it leaves the engine: the
check sequence follows the data if the descriptor does not say that the data brings it. -/
def Slot.outgoing (w : Slot) (data : Frame) : Frame :=
  if w.status &&& Status.passCrc = 0 then
    data ++ LittleEndian.encode 4 (Crc32.checksum data).toNat
  else data

/-! ### Handing a chain back -/

namespace Gathered

variable {g : Gathered} {ram written : Aperture}

/-- What is written back for a descriptor that was decoded from the words `w`. -/
theorem statusWord_of_returned (address : UInt32) (w : Slot) (i : Nat) (isLast : Bool) :
    { w with
      status := ((if i = 0 then (TransmitDescriptor.ofSlot address w).lower Status.owner
        else TransmitDescriptor.ofSlot address w).closed isLast).statusWord } =
      w.handedBack (i == 0) isLast := by
  by_cases hi : i = 0
  · simp [Slot.handedBack, hi, TransmitDescriptor.statusWord_closed,
      TransmitDescriptor.statusWord_lower_owner]
  · simp [Slot.handedBack, hi, TransmitDescriptor.statusWord_closed,
      TransmitDescriptor.statusWord_ofSlot]

/-- **Each slot of a chain is handed back.** -/
theorem HandedBack.slotAt_of_descriptor (h : g.HandedBack ram written)
    (hdecoded : ∀ d ∈ g.descriptors, d = ram.transmitAt d.address)
    (hslots : g.descriptors.Pairwise fun d e => SlotsDisjoint d.address e.address) {i : Nat}
    {d : TransmitDescriptor} (hd : g.descriptors[i]? = some d) :
    written.slotAt d.address =
      (ram.slotAt d.address).handedBack (i == 0) (i + 1 == g.descriptors.length) := by
  generalize he : (if i = 0 then d.lower Status.owner else d).closed
    (i + 1 == g.descriptors.length) = e
  have hmem : e ∈ g.returned := he ▸ List.mem_of_getElem? (g.returned_getElem? hd)
  have haddress : e.address = d.address := by
    rw [← he, TransmitDescriptor.address_closed]
    split <;> rfl
  have hslot := h.slots hslots e hmem
  rw [haddress] at hslot
  rw [hslot, ← statusWord_of_returned d.address, ← he]
  rw [show TransmitDescriptor.ofSlot d.address (ram.slotAt d.address) = d from
    (hdecoded d (List.mem_of_getElem? hd)).symm]

/-- **Descriptors between the first and the last stay as they are**, byte by byte. -/
theorem HandedBack.eqOff (h : g.HandedBack ram written)
    (hdecoded : ∀ d ∈ g.descriptors, d = ram.transmitAt d.address)
    (hslots : g.descriptors.Pairwise fun d e => SlotsDisjoint d.address e.address)
    {last : TransmitDescriptor} (hlast : g.descriptors.getLast? = some last) :
    ram.EqOff written fun i => InStatus g.first.address i ∨ InStatus last.address i := by
  refine ⟨h.elsewhere.1, ?_⟩
  intro i hi
  by_cases htouched : ∃ d ∈ g.returned, InStatus d.address i
  · obtain ⟨e, he, hin⟩ := htouched
    have hmem : e.address ∈ g.returned.map (·.address) := List.mem_map_of_mem he
    rw [address_returned] at hmem
    obtain ⟨d, hd, haddress⟩ := List.mem_map.1 hmem
    obtain ⟨j, hj⟩ := List.mem_iff_getElem?.1 hd
    rw [← haddress] at hin
    -- neither the first nor the last descriptor holds the byte, so its word is written as it was
    have hfirst : (j == 0) = false := by
      refine beq_false_of_ne ?_
      rintro rfl
      cases hj
      exact hi (Or.inl hin)
    have hbehind : (j + 1 == g.descriptors.length) = false := by
      refine beq_false_of_ne ?_
      intro hlength
      rw [List.getLast?_eq_getElem?, ← hlength, Nat.add_sub_cancel, hj] at hlast
      cases hlast
      exact hi (Or.inr hin)
    have hslot := h.slotAt_of_descriptor hdecoded hslots hj
    rw [hfirst, hbehind] at hslot
    have hstatus : written.wordAt (d.address.toNat + 12) = ram.wordAt (d.address.toNat + 12) :=
      (congrArg Slot.status hslot).trans UInt32.or_zero
    obtain ⟨k, hk, rfl⟩ : ∃ k < 4, i = d.address.toNat + 12 + k :=
      ⟨i - (d.address.toNat + 12), by omega, by omega⟩
    exact Aperture.byteAt_eq_of_wordAt_eq hstatus hk
  · exact h.elsewhere.2 i htouched

end Gathered

/-- A gathered chain has been decoded from the RAM. -/
theorem decoded_of_gather {ram : Aperture} {memory : Memory} {channel : Nat} {head : UInt32}
    {limit : Nat} {g : Gathered} (h : gather ram memory channel head limit = .ok g) :
    ∀ d ∈ g.descriptors, d = ram.transmitAt d.address := by
  obtain ⟨-, hwalk, -, -⟩ := gather_eq_ok_iff.1 h
  intro d hd
  exact (hwalk.ownedAt d hd).descriptor_eq

/-- A single bit of a word is clear or set. -/
theorem and_bne_mask_iff {x mask : UInt32} {k : Nat} (hmask : mask.toNat = 2 ^ k) :
    (x &&& mask == mask) = false ↔ x &&& mask = 0 := by
  have hbit : (x &&& mask).toNat = (x.toNat.testBit k).toNat * mask.toNat := by
    rw [UInt32.toNat_and, hmask, Nat.and_two_pow]
  have hpositive : 0 < mask.toNat := by
    rw [hmask]
    exact Nat.two_pow_pos k
  rw [beq_eq_false_iff_ne, ne_eq, ← UInt32.toNat_inj, ← UInt32.toNat_inj, hbit]
  cases x.toNat.testBit k with
  | false =>
      rw [Bool.toNat_false, Nat.zero_mul]
      exact iff_of_true (Nat.ne_of_lt hpositive) rfl
  | true =>
      rw [Bool.toNat_true, Nat.one_mul]
      exact iff_of_false (fun h => h rfl) (Nat.ne_of_gt hpositive)

/-- The frame of a chain leaves the engine as the words of its first descriptor say. -/
theorem outgoing_of_gather {ram : Aperture} {memory : Memory} {channel : Nat} {head : UInt32}
    {limit : Nat} {g : Gathered} (h : gather ram memory channel head limit = .ok g) :
    Engine.outgoing g = (ram.slotAt head).outgoing g.frame := by
  have hcrc : g.first.has Status.passCrc =
      ((ram.slotAt head).status &&& Status.passCrc == Status.passCrc) := by
    rw [(first_of_gather h).descriptor_eq]
    exact TransmitDescriptor.has_ofSlot rfl
  have hmask : Status.passCrc.toNat = 2 ^ 26 := by decide
  have hbit : ((ram.slotAt head).status &&& Status.passCrc == Status.passCrc) = false ↔
      (ram.slotAt head).status &&& Status.passCrc = 0 := and_bne_mask_iff hmask
  rw [Engine.outgoing, Slot.outgoing, hcrc]
  by_cases hclear : (ram.slotAt head).status &&& Status.passCrc = 0
  · rw [if_pos hclear, hbit.2 hclear]
    rfl
  · rw [if_neg hclear, if_pos]
    rw [← hbit, Bool.not_eq_false] at hclear
    exact hclear

/-! ### Transmissions -/

namespace System

/-- What has changed after the frame of the chain from `head` on has been sent on a channel, and
what has not. -/
structure Sent (s : System) (channel : ChannelId) (head : UInt32) (g : Gathered)
    (after : System) : Prop where
  memory_eq : after.memory = s.memory
  slots : ∀ i d, g.descriptors[i]? = some d →
    after.engine.ram.slotAt d.address =
      (s.engine.ram.slotAt d.address).handedBack (i == 0) (i + 1 == g.descriptors.length)
  ram : ∃ last, g.descriptors.getLast? = some last ∧
    s.engine.ram.EqOff after.engine.ram fun i => InStatus head i ∨ InStatus last.address i
  channel_eq : after.engine.channels.transmitChannel channel =
    { head := 0, completion := (s.engine.ram.slotAt head).buffer }
  transmit : ∀ c, c ≠ channel →
    after.engine.channels.transmitChannel c = s.engine.channels.transmitChannel c
  receive : ∀ c, after.engine.channels.receiveChannel c = s.engine.channels.receiveChannel c
  intake_eq : after.engine.intake = s.engine.intake
  transmitted_eq : after.engine.stats.transmitted = s.engine.stats.transmitted + 1
  egress_of_room : s.engine.egress.length < s.engine.settings.egressLimit →
    after.engine.egress = s.engine.egress ++ [(s.engine.ram.slotAt head).outgoing g.frame] ∧
      after.engine.stats.egressDropped = s.engine.stats.egressDropped
  egress_of_full : s.engine.settings.egressLimit ≤ s.engine.egress.length →
    after.engine.egress = s.engine.egress ∧
      after.engine.stats.egressDropped = s.engine.stats.egressDropped + 1

/-- A head pointer write whose chain can be gathered sends the frame. -/
theorem sent_of_gather {s : System} {channel : ChannelId} {value : UInt32} {g : Gathered}
    (hvalue : value ≠ 0)
    (hgather : gather s.engine.ram s.memory channel value s.engine.settings.walkLimit = .ok g)
    (hslots : g.descriptors.Pairwise fun d e => SlotsDisjoint d.address e.address) :
    (s.store value (.transmitHead channel)).1 = none ∧
      s.Sent channel value g (s.store value (.transmitHead channel)).2 := by
  have harmed : gather (s.mapEngine (·.setTransmitHead channel value)).engine.ram
      (s.mapEngine (·.setTransmitHead channel value)).memory channel
      ((s.mapEngine (·.setTransmitHead channel value)).engine.channels.transmitChannel
        channel).head
      (s.mapEngine (·.setTransmitHead channel value)).engine.settings.walkLimit = .ok g := by
    rw [engine_mapEngine, Engine.head_setTransmitHead]
    exact hgather
  obtain ⟨ram, hback, htransmit⟩ := exists_transmit_of_gather harmed
  obtain ⟨events, clock, registers, interrupt, count, hemit, -⟩ := Engine.exists_emit
    { (s.mapEngine (·.setTransmitHead channel value)).engine with ram } channel g
  have hfirst := first_of_gather hgather
  have hdecoded := decoded_of_gather hgather
  have hstore : s.store value (.transmitHead channel) =
      (s.mapEngine (·.setTransmitHead channel value)).transmit channel := if_neg hvalue
  rw [hstore, htransmit, hemit]
  refine ⟨rfl, ?_⟩
  exact
    { memory_eq := rfl
      slots := fun i d hd => hback.slotAt_of_descriptor hdecoded hslots hd
      ram := by
        have hlast : g.descriptors.getLast? = some (g.rest.getLast?.getD g.first) :=
          List.getLast?_cons
        have heq := hback.eqOff hdecoded hslots hlast
        rw [hfirst.address_eq] at heq
        exact ⟨_, hlast, heq⟩
      channel_eq := by
        simp only [Engine.setTransmitHead, ChannelBank.setTransmitHead,
          ChannelBank.transmitChannel_modifyTransmit_self, hfirst.descriptor_eq]
        rfl
      transmit := by
        intro c hc
        simp only [Engine.setTransmitHead, engine_mapEngine, ChannelBank.setTransmitHead,
          ChannelBank.transmitChannel_modifyTransmit_of_ne _ hc]
      receive := fun c => rfl
      intake_eq := rfl
      transmitted_eq := rfl
      egress_of_room := by
        intro hroom
        have hnot := Nat.not_le.2 hroom
        rw [← outgoing_of_gather hgather]
        exact ⟨if_neg hnot, if_neg hnot⟩
      egress_of_full := fun hfull => ⟨if_pos hfull, if_pos hfull⟩ }

/-- **The exact effect of a transmission.**  The write of a head pointer other than zero succeeds if
its chain can be gathered; and if the slots of the chain do not overlap, then descriptor RAM,
memory, the channels, the queues and the counters have changed as `System.Sent` says, however the
register was written.  The head pointer reads as zero, and the completion pointer as the buffer
pointer of the first descriptor. -/
theorem transmit_effect (s : System) (offset value : UInt32) (channel : ChannelId) (g : Gathered)
    (hdecode : Register.decode offset = some (.transmitHead channel)) (hvalue : value ≠ 0)
    (hgather : gather s.engine.ram s.memory channel value s.engine.settings.walkLimit = .ok g)
    (hslots : g.descriptors.Pairwise fun d e => SlotsDisjoint d.address e.address) :
    (s.writeRegister offset value).1 = none ∧
    s.Sent channel value g (s.writeRegister offset value).2 ∧
    g.first.address = value ∧
    (∀ d ∈ g.descriptors, d = s.engine.ram.transmitAt d.address) ∧
    (s.writeRegister offset value).2.engine.load (.transmitHead channel) = .ok 0 ∧
    (s.writeRegister offset value).2.engine.load (.transmitCompletion channel) =
      .ok (s.engine.ram.slotAt value).buffer ∧
    ∀ op : Operation, op.registerWrite? = some (.transmitHead channel, value) →
      (s.perform op).2 = (s.writeRegister offset value).2 := by
  have hwrite : s.writeRegister offset value = s.store value (.transmitHead channel) := by
    rw [writeRegister, hdecode]
  obtain ⟨hfault, hsent⟩ := sent_of_gather hvalue hgather hslots
  rw [hwrite]
  refine ⟨hfault, hsent, (first_of_gather hgather).address_eq, decoded_of_gather hgather, ?_, ?_,
    ?_⟩
  · rw [Engine.load, hsent.channel_eq]
  · rw [Engine.load, hsent.channel_eq]
  · intro op hop
    exact perform_of_registerWrite hop

/-- A packet of five bytes is sent from three buffers.  The first descriptor loses its owner bit, the
last one gains the end of the queue, and the one between them stays as it is. -/
theorem packet_from_three_buffers :
    let s := (small.run [.writeMemory 0x100 [1, 2], .writeMemory 0x200 [3],
      .writeMemory 0x300 [4, 5], .writeRam 0x48486000
        [0x48486010, 0x100, 2, 0xA000F805, 0x48486020, 0x200, 1, 0x2000F800,
          0, 0x300, 2, 0x6000F800]]).2
    (s.writeRegister 0xA00 0x48486000).1 = none ∧
    (s.writeRegister 0xA00 0x48486000).2.engine.ram.slotAt 0x48486000 =
      ⟨0x48486010, 0x100, 2, 0x8000F805⟩ ∧
    (s.writeRegister 0xA00 0x48486000).2.engine.ram.slotAt 0x48486010 =
      s.engine.ram.slotAt 0x48486010 ∧
    (s.writeRegister 0xA00 0x48486000).2.engine.ram.slotAt 0x48486020 =
      ⟨0, 0x300, 2, 0x7000F800⟩ ∧
    (s.writeRegister 0xA00 0x48486000).2.engine.egress =
      [[1, 2, 3, 4, 5, 0xF4, 0x99, 0x0B, 0x47]] ∧
    (s.writeRegister 0xA00 0x48486000).2.engine.load (.transmitCompletion 0) = .ok 0x100 := by
  intro s
  let g : Gathered := ⟨s.engine.ram.transmitAt 0x48486000,
    [s.engine.ram.transmitAt 0x48486010, s.engine.ram.transmitAt 0x48486020], [1, 2, 3, 4, 5]⟩
  have hgather : gather s.engine.ram s.memory (0 : ChannelId) 0x48486000
      s.engine.settings.walkLimit = .ok g := by decide +kernel
  have hslots : g.descriptors.Pairwise fun d e => SlotsDisjoint d.address e.address := by
    decide +kernel
  obtain ⟨hfault, hsent, -, -, -, hcompletion, -⟩ := transmit_effect s 0xA00 0x48486000 0 g
    (by decide +kernel) (by decide) hgather hslots
  obtain ⟨hegress, -⟩ := hsent.egress_of_room (by decide +kernel)
  have hempty : s.engine.egress = [] := by decide +kernel
  have hframe : (s.engine.ram.slotAt 0x48486000).outgoing g.frame =
      [1, 2, 3, 4, 5, 0xF4, 0x99, 0x0B, 0x47] := by decide +kernel
  have hbuffer : (s.engine.ram.slotAt 0x48486000).buffer = 0x100 := by decide +kernel
  rw [hempty, hframe, List.nil_append] at hegress
  rw [hbuffer] at hcompletion
  refine ⟨hfault, ?_, ?_, ?_, hegress, hcompletion⟩
  · exact (hsent.slots 0 _ rfl).trans (by decide +kernel)
  · exact (hsent.slots 1 _ rfl).trans (by decide +kernel)
  · exact (hsent.slots 2 _ rfl).trans (by decide +kernel)

end System

end PacketDma
