/-
**From a receive ring to the wire.**

Software may send a received frame on without touching its bytes: it links the descriptors that the
frame lies in, gives them back to the engine, and says how long the packet is.  The walk over the
transmit chain then finds, descriptor by descriptor, what the walk over the receive ring has left
there, although the two walks are written independently and read the fields of a descriptor
differently.

Main definitions:

* `PacketDma.Aperture.Relinked` — descriptors have been turned into a transmit chain;
* `PacketDma.System.ReadyToSend` — software has prepared a received frame for transmission.

Main results:

* `PacketDma.FillWalk.gatherWalk` — **a filled chain is gathered as it was filled**;
* `PacketDma.System.received_frame_is_sent` — **a received frame is sent unchanged**.
-/

import PacketDma.Engine.Registers
import PacketDma.Proofs.Drain
import PacketDma.Proofs.FillReport
import PacketDma.Proofs.TransmitEffect

set_option autoImplicit false

namespace PacketDma

/-! ### Transmit chains -/

/-- The descriptors at the given addresses have been turned into a transmit chain: each belongs to
the engine and leads to the next, the last leads nowhere, and the second and third words are those
of `before`. -/
def Aperture.Relinked (before after : Aperture) : List UInt32 → Prop
  | [] => True
  | address :: rest =>
      (after.CoversSlot address ∧ (after.slotAt address).next = rest.head?.getD 0 ∧
        (after.slotAt address).buffer = (before.slotAt address).buffer ∧
        (after.slotAt address).extent = (before.slotAt address).extent ∧
        (after.slotAt address).status &&& Status.owner = Status.owner) ∧
      before.Relinked after rest

/-- What the transmit side finds in the slot of a segment. -/
def Segment.sent (after : Aperture) (t : Segment) : TransmitDescriptor :=
  .ofSlot t.descriptor.address (after.slotAt t.descriptor.address)

/-! ### One descriptor -/

section Segments

variable {ram filled after : Aperture} {memory memory' : Memory} {head address : UInt32}
  {offset missing : Nat} {t : Segment} {segments : List Segment} {next : Option UInt32}

/-- The transmit side reads from a descriptor what the receive side has put there. -/
theorem Segment.TakenAt.sent (h : t.TakenAt ram memory address offset missing)
    (hreserved : t.descriptor.reservedExtent = 0)
    (hbuffer : (after.slotAt address).buffer = (ram.slotAt address).buffer)
    (hextent : (after.slotAt address).extent = (t.filled false).extentWord) :
    (t.sent after).bufferLength.toNat = t.length ∧
      (t.sent after).dataAddress = t.descriptor.dataAddress := by
  have hcanonical : t.descriptor.Canonical := by
    rw [h.descriptor_eq]
    exact ReceiveDescriptor.canonical_ofSlot ..
  have hfilled := hcanonical.filled h.length_le_buffer false
  have hbound := Nat.le_trans h.length_le_buffer hcanonical.toNat_bufferLength_le
  have hmax : maxPacketLength = 2047 := rfl
  rw [← h.address_eq] at hextent hbuffer
  refine ⟨?_, ?_⟩
  · rw [Segment.sent, TransmitDescriptor.bufferLength_ofSlot_extentWord hfilled hreserved hextent]
    show (UInt16.ofNat t.length).toNat = t.length
    rw [UInt16.toNat_ofNat', Nat.mod_eq_of_lt (by omega)]
  · have hpointer : (t.sent after).bufferPointer = t.descriptor.bufferPointer := by
      rw [h.descriptor_eq, ReceiveDescriptor.ofSlot, ← h.address_eq, ← hbuffer]
      rfl
    rw [TransmitDescriptor.dataAddress, hpointer, Segment.sent,
      TransmitDescriptor.bufferOffset_ofSlot_extentWord hfilled hreserved hextent]
    rfl

/-- A descriptor that has been given back to the engine gives the bytes that it has taken. -/
theorem Segment.TakenAt.givesAt (h : t.TakenAt ram memory address offset missing)
    (hreserved : t.descriptor.reservedExtent = 0)
    (hbuffer : (after.slotAt address).buffer = (ram.slotAt address).buffer)
    (hextent : (after.slotAt address).extent = (t.filled false).extentWord)
    (hcovers : after.CoversSlot address)
    (howner : (after.slotAt address).status &&& Status.owner = Status.owner)
    (hsize : memory'.size = memory.size) :
    (t.sent after).GivesAt after memory' address missing t.length := by
  obtain ⟨hlength, hdata⟩ := h.sent hreserved hbuffer hextent
  refine ⟨⟨hcovers, ?_, ?_⟩, ?_, ?_⟩
  · rw [Segment.sent, h.address_eq]
  · rw [Segment.sent, h.address_eq, TransmitDescriptor.isOwned,
      TransmitDescriptor.has_ofSlot rfl, howner]
    rfl
  · rw [hdata, hsize]
    exact h.inRange
  · rw [hlength, Nat.min_eq_left h.length_le]

/-- **A filled chain is gathered as it was filled.** -/
theorem FillWalk.gatherWalk (hwalk : FillWalk ram memory head address offset missing segments next)
    (hlinked : filled.Relinked after (segments.map (·.descriptor.address)))
    (hfilled : ∀ t ∈ segments,
      (filled.slotAt t.descriptor.address).buffer = (ram.slotAt t.descriptor.address).buffer ∧
      (filled.slotAt t.descriptor.address).extent = (t.filled false).extentWord)
    (hreserved : ∀ t ∈ segments, t.descriptor.reservedExtent = 0)
    (hnonzero : ∀ t ∈ segments, t.descriptor.address ≠ 0) (hsize : memory'.size = memory.size)
    (first : UInt32) :
    GatherWalk after memory' first address missing (segments.map (·.sent after))
      (segments.flatMap fun t => memory'.bytes t.descriptor.dataAddress t.length) := by
  induction hwalk with
  | @last address offset missing t taken complete =>
      rw [List.map_cons] at hlinked
      obtain ⟨⟨hcovers, -, hbuffer, hextent, howner⟩, -⟩ := hlinked
      obtain ⟨hpointer, hreport⟩ := hfilled t (List.mem_cons_self ..)
      rw [taken.address_eq] at hcovers hbuffer hextent howner hpointer hreport
      have hreserved := hreserved t (List.mem_cons_self ..)
      have hgives := taken.givesAt hreserved (hbuffer.trans hpointer) (hextent.trans hreport)
        hcovers howner hsize
      obtain ⟨-, hdata⟩ := taken.sent hreserved (hbuffer.trans hpointer) (hextent.trans hreport)
      rw [List.flatMap_singleton, ← hdata, complete]
      rw [complete] at hgives
      exact .last hgives
  | @more address following offset missing t rest next taken incomplete link walk ih =>
      rw [List.map_cons] at hlinked
      obtain ⟨⟨hcovers, hnext, hbuffer, hextent, howner⟩, hlinked⟩ := hlinked
      obtain ⟨hpointer, hreport⟩ := hfilled t (List.mem_cons_self ..)
      rw [taken.address_eq] at hcovers hnext hbuffer hextent howner hpointer hreport
      have hreserved' := hreserved t (List.mem_cons_self ..)
      have hgives := taken.givesAt hreserved' (hbuffer.trans hpointer) (hextent.trans hreport)
        hcovers howner hsize
      obtain ⟨-, hdata⟩ := taken.sent hreserved' (hbuffer.trans hpointer) (hextent.trans hreport)
      -- the transmit chain leads to the descriptor that the receive ring led to
      obtain ⟨second, others, rfl, haddress⟩ := walk.exists_cons
      have hfollowing : (t.sent after).next = following := by
        rw [Segment.sent, taken.address_eq]
        exact hnext.trans haddress
      have hsecond := hnonzero second (List.mem_cons_of_mem _ (List.mem_cons_self ..))
      have hlink : nextDescriptor (t.sent after).next first = some following := by
        rw [hfollowing, nextDescriptor, if_pos (haddress ▸ hsecond)]
      rw [List.flatMap_cons, ← hdata]
      exact .more hgives incomplete hlink
        (ih hlinked (fun u hu => hfilled u (List.mem_cons_of_mem _ hu))
          (fun u hu => hreserved u (List.mem_cons_of_mem _ hu))
          (fun u hu => hnonzero u (List.mem_cons_of_mem _ hu)))

end Segments

namespace System

variable {s t : System} {frame : InboundFrame} {plan : FillPlan}

/-- Software has turned the descriptors of a received frame into a transmit chain: `t` is `s` but
for the words of these descriptors. -/
structure ReadyToSend (s t : System) (frame : InboundFrame) (plan : FillPlan) : Prop where
  memory : t.memory = s.memory
  limit : t.engine.settings.walkLimit = s.engine.settings.walkLimit
  relinked : s.engine.ram.Relinked t.engine.ram (plan.segments.map (·.descriptor.address))
  packetLength : (t.engine.ram.slotAt plan.first.descriptor.address).status &&& lengthMask =
    UInt32.ofNat frame.bytes.length

theorem transmitHead_decode (channel : ChannelId) :
    Register.decode (0xA00 + 4 * UInt32.ofNat channel.val) = some (.transmitHead channel) := by
  revert channel
  decide +kernel

/-- A head pointer other than zero starts a transmission. -/
theorem writeRegister_transmitHead {channel : ChannelId} {head : UInt32} (hhead : head ≠ 0) :
    t.writeRegister (0xA00 + 4 * UInt32.ofNat channel.val) head =
      (t.mapEngine (·.setTransmitHead channel head)).transmit channel := by
  rw [writeRegister, transmitHead_decode]
  exact if_neg hhead

/-- What a write of a head pointer of a transmit channel does with a chain that is gathered. -/
theorem exists_writeRegister_transmitHead {g : Gathered} {channel : ChannelId} {head : UInt32}
    (hhead : head ≠ 0)
    (hgather : gather t.engine.ram t.memory channel head t.engine.settings.walkLimit = .ok g) :
    ∃ sent, t.writeRegister (0xA00 + 4 * UInt32.ofNat channel.val) head = (none, sent) ∧
      sent.engine.egress =
        if t.engine.settings.egressLimit ≤ t.engine.egress.length then t.engine.egress
        else t.engine.egress ++ [Engine.outgoing g] := by
  obtain ⟨ram, -, htransmit⟩ :=
    exists_transmit_of_gather (s := t.mapEngine (·.setTransmitHead channel head))
      (by rw [engine_mapEngine, Engine.head_setTransmitHead]; exact hgather)
  rw [writeRegister_transmitHead hhead, htransmit]
  exact ⟨_, rfl, Engine.egress_emit ..⟩

/-- The transmit side gathers a received frame as it has been received. -/
theorem gather_of_readyToSend (hdelivers : s.Delivers frame plan)
    (hslots : plan.segments.Pairwise fun t u => SlotsDisjoint t.descriptor.address
      u.descriptor.address)
    (hbuffers : plan.segments.Pairwise fun t u => t.descriptor.BuffersDisjoint u.descriptor)
    (hnonzero : ∀ t ∈ plan.segments, t.descriptor.address ≠ 0)
    (hreserved : ∀ t ∈ plan.segments, t.descriptor.reservedExtent = 0)
    (hready : (s.receive frame).2.ReadyToSend t frame plan) (channel : Nat) :
    gather t.engine.ram t.memory channel plan.first.descriptor.address
        t.engine.settings.walkLimit =
      .ok ⟨plan.first.sent t.engine.ram, plan.rest.map (·.sent t.engine.ram), frame.bytes⟩ := by
  obtain ⟨memory, ram, hplaced, hreceive⟩ := hdelivers.exists_receive
  obtain ⟨_, _, _, _, _, hcount, -⟩ := Engine.exists_countReceived
    ({ s.drain.2.engine with ram }.advance (s.drain.2.engine.channelOf frame) plan)
    (s.drain.2.engine.classOf frame) frame.bytes
  obtain ⟨hmemory, hlimit, hrelinked, hpacket⟩ := hready
  rw [hreceive] at hmemory hrelinked hlimit
  rw [hcount] at hrelinked hlimit
  obtain ⟨hwalk, hlength, hnodup⟩ := planFill_eq_ok_iff.1 hdelivers.planned
  obtain ⟨hpositive, hmax⟩ := hdelivers.length_bounds
  have hgathered := hwalk.gatherWalk hrelinked
    (fun u hu => hplaced.slot_of_segment hslots hu) hreserved hnonzero
    ((congrArg Memory.size hmemory).trans hplaced.size) plan.first.descriptor.address
  -- the pieces that are gathered are the parts that have been placed
  have hframe : (plan.segments.flatMap fun u =>
      t.memory.bytes u.descriptor.dataAddress u.length) = frame.bytes := by
    rw [hmemory]
    exact hplaced.flatMap_bytes hdelivers.planned hbuffers
  have hfirst : (plan.first.sent t.engine.ram).packetLength.toNat = frame.bytes.length :=
    TransmitDescriptor.toNat_packetLength_ofSlot hmax hpacket
  obtain ⟨first, rest, hsegments, haddress⟩ := hwalk.exists_cons
  cases hsegments
  rw [hframe, ← haddress] at hgathered
  refine gather_eq_ok_iff.2 ⟨?_, ?_, ?_, ?_⟩
  · rw [hfirst]
    exact hpositive
  · rw [hfirst]
    exact hgathered
  · rw [hlimit, List.length_map]
    exact Nat.le_sub_of_add_le hlength
  · rw [Gathered.descriptors_mk, ← List.map_cons (f := fun u : Segment => u.sent t.engine.ram),
      List.map_map]
    exact hnodup

/-- **A received frame is sent unchanged.**  Let a frame be delivered into descriptors that do not
overlap, at addresses other than zero, with buffers that do not overlap and with no reserved bit in
their third words.  When these descriptors have been turned into a transmit chain and the address of
the first is written to a transmit head pointer, the frame is gathered and sent: byte for byte as it
has been received when the chain says that it carries its check sequence, and otherwise with its
check sequence behind it. -/
theorem received_frame_is_sent {passCrc : Bool} (hdelivers : s.Delivers frame plan)
    (hslots : plan.segments.Pairwise fun t u => SlotsDisjoint t.descriptor.address
      u.descriptor.address)
    (hbuffers : plan.segments.Pairwise fun t u => t.descriptor.BuffersDisjoint u.descriptor)
    (hnonzero : ∀ t ∈ plan.segments, t.descriptor.address ≠ 0)
    (hreserved : ∀ t ∈ plan.segments, t.descriptor.reservedExtent = 0)
    (hready : (s.receive frame).2.ReadyToSend t frame plan)
    (hcrc : ((t.engine.ram.slotAt plan.first.descriptor.address).status &&& Status.passCrc ==
      Status.passCrc) = passCrc) (channel : ChannelId) :
    ∃ sent, t.writeRegister (0xA00 + 4 * UInt32.ofNat channel.val)
        plan.first.descriptor.address = (none, sent) ∧
      (t.engine.egress.length < t.engine.settings.egressLimit →
        sent.engine.egress = t.engine.egress ++
          [if passCrc then frame.bytes
            else frame.bytes ++ LittleEndian.encode 4 (Crc32.checksum frame.bytes).toNat]) := by
  have hgather := gather_of_readyToSend hdelivers hslots hbuffers hnonzero hreserved hready channel
  have hhead := hnonzero plan.first (List.mem_cons_self ..)
  obtain ⟨sent, hwrite, hegress⟩ := exists_writeRegister_transmitHead hhead hgather
  refine ⟨sent, hwrite, ?_⟩
  intro hroom
  have hhas : (plan.first.sent t.engine.ram).has Status.passCrc = passCrc := by
    rw [Segment.sent, TransmitDescriptor.has_ofSlot rfl]
    exact hcrc
  rw [hegress, if_neg (Nat.not_le.2 hroom), Engine.outgoing, hhas]
  rfl

/-- Software that writes descriptor RAM does not touch memory. -/
theorem memory_run_writeRam (s : System) (writes : List (UInt64 × List UInt32)) :
    (s.run (writes.map fun w => .writeRam w.1 w.2)).2.memory = s.memory := by
  induction writes generalizing s with
  | nil => rfl
  | cons w rest ih => exact ih (s.writeRam w.1 w.2).2

/-- Five bytes are received into buffers of two and of 32 bytes and sent from there. -/
theorem five_received_bytes_are_sent :
    let frame : InboundFrame := { bytes := [1, 2, 3, 4, 5] }
    let s := (small.run
      [.writeRam 0x48486000 [0x48486010, 0x100, 0x30002, 0x20000000],
        .writeRam 0x48486010 [0, 0x300, 0x20, 0x20000000],
        .writeRegister 0x814 1, .writeRegister 0xA24 0x48486000]).2
    let plan : FillPlan :=
      ⟨⟨.ofSlot 0x48486000 ⟨0x48486010, 0x100, 0x30002, 0x20000000⟩, 0, 2⟩,
        [⟨.ofSlot 0x48486010 ⟨0, 0x300, 0x20, 0x20000000⟩, 2, 3⟩], some 0x48486000⟩
    let t := ((s.receive frame).2.run
      [.writeRam 0x48486000 [0x48486010, 0x100, 0x30002, 0xA4000005],
        .writeRam 0x48486010 [0, 0x300, 3, 0x60000000]]).2
    s.Delivers frame plan ∧ (s.receive frame).2.ReadyToSend t frame plan ∧
      ∃ sent, t.writeRegister 0xA00 0x48486000 = (none, sent) ∧
        sent.engine.egress = [[1, 2, 3, 4, 5]] := by
  intro frame s plan t
  have hplan : (s.drain.2.engine.plan s.drain.2.memory (s.drain.2.engine.channelOf frame)
      frame.bytes.length).toOption = some plan := by decide +kernel
  have hdelivers : s.Delivers frame plan := by
    refine ⟨by decide +kernel, by decide +kernel, by decide +kernel, by decide +kernel, ?_⟩
    cases hresult : s.drain.2.engine.plan s.drain.2.memory (s.drain.2.engine.channelOf frame)
        frame.bytes.length with
    | error fault =>
        rw [hresult] at hplan
        cases hplan
    | ok found =>
        rw [hresult] at hplan
        exact congrArg Except.ok (Option.some.inj hplan)
  have hmemory : ∀ u : System, (u.run
      [.writeRam 0x48486000 [0x48486010, 0x100, 0x30002, 0xA4000005],
        .writeRam 0x48486010 [0, 0x300, 3, 0x60000000]]).2.memory = u.memory := fun u =>
    memory_run_writeRam u [(0x48486000, [0x48486010, 0x100, 0x30002, 0xA4000005]),
      (0x48486010, [0, 0x300, 3, 0x60000000])]
  have hready : (s.receive frame).2.ReadyToSend t frame plan := by
    refine ⟨?_, by decide +kernel, ⟨?_, ?_, trivial⟩, by decide +kernel⟩
    · exact hmemory _
    · decide +kernel
    · decide +kernel
  have hslots : plan.segments.Pairwise fun t u => SlotsDisjoint t.descriptor.address
      u.descriptor.address := by decide +kernel
  have hbuffers : plan.segments.Pairwise fun t u =>
      t.descriptor.BuffersDisjoint u.descriptor :=
    List.pairwise_pair.2 (.of_le (by decide +kernel))
  have hcrc : ((t.engine.ram.slotAt plan.first.descriptor.address).status &&& Status.passCrc ==
      Status.passCrc) = true := by decide +kernel
  obtain ⟨sent, hwrite, hegress⟩ := received_frame_is_sent hdelivers hslots hbuffers
    (by decide +kernel) (by decide +kernel) hready hcrc 0
  have hempty : t.engine.egress = [] := by decide +kernel
  refine ⟨hdelivers, hready, sent, hwrite, ?_⟩
  rw [hegress (by decide +kernel), hempty]
  rfl

end System

end PacketDma
