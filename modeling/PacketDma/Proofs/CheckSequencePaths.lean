/-
**Two ways to a check sequence.**

A frame leaves the engine with its check sequence.  Either the engine appends it, or the data of the
chain brings it along and the first descriptor says so.  From outside the two cannot be told apart:
the engine classifies and stamps a frame by its header, which lies before the check sequence, and
what a chain looks like shows in the chain only.

Main definitions:

* `PacketDma.Engine.depart` — what sending a frame does outside the chain and its channel;
* `PacketDma.System.SameButChains` — two systems that differ in memory and chains at most;
* `PacketDma.System.Carries` — a chain carries data.

Main results:

* `PacketDma.Engine.emit_eq_depart` — a frame is sent by a departure and an entry in its channel;
* `PacketDma.Engine.depart_withFcs` — **a departure does not look at the check sequence**;
* `PacketDma.System.check_sequence_paths_agree` — **both ways lead to the same outputs**.
-/

import PacketDma.Proofs.FillEffect
import PacketDma.Proofs.Passes
import PacketDma.Proofs.TransmitEffect

set_option autoImplicit false

namespace PacketDma

namespace Engine

/-! ### Departures -/

/-- Counts a frame that is sent. -/
def countTransmitted (e : Engine) : Engine :=
  { e with stats := { e.stats with transmitted := e.stats.transmitted + 1 } }

/-- What sending a frame does outside the chain and its channel: it is counted, it is stamped by the
header of `data` if it belongs to the precision time protocol, and `sent` goes into the egress
queue. -/
def depart (e : Engine) (port : UInt8) (data sent : Frame) : Engine :=
  (e.countTransmitted.stampFrame (e.classify data) port .transmitted data).enqueueEgress sent

variable (e : Engine) (ram : Aperture) (channels : ChannelBank)

theorem enqueueEgress_withChains (frame : Frame) :
    (e.withChains ram channels).enqueueEgress frame =
      (e.enqueueEgress frame).withChains ram channels := by
  have hlimit : (e.withChains ram channels).settings.egressLimit = e.settings.egressLimit := rfl
  have hqueue : (e.withChains ram channels).egress = e.egress := rfl
  unfold enqueueEgress
  rw [hlimit, hqueue]
  split <;> rfl

/-- A departure does not look at the chains. -/
theorem depart_withChains (port : UInt8) (data sent : Frame) :
    (e.withChains ram channels).depart port data sent =
      (e.depart port data sent).withChains ram channels := by
  rw [depart, depart, ← enqueueEgress_withChains, ← stampFrame_withChains]
  rfl

/-- **A frame is sent by a departure** and an entry in its channel. -/
theorem emit_eq_depart (channel : ChannelId) (g : Gathered) :
    e.emit channel g =
      (e.depart g.first.toPort g.frame (outgoing g)).withChains e.ram
        (e.channels.modifyTransmit channel fun transmit =>
          { transmit with completion := g.first.bufferPointer }) := by
  rw [← depart_withChains]
  rfl

/-- **A departure does not look at the check sequence**: the header of a frame lies before it. -/
theorem depart_withFcs (port : UInt8) {data : Frame} (h : 46 ≤ data.length) (sent : Frame) :
    e.depart port data.withFcs sent = e.depart port data sent := by
  have hclass : e.classify data.withFcs = e.classify data :=
    Frame.classify_append (by omega) _ _ _
  have hmessage : data.withFcs.messageType = data.messageType :=
    Frame.messageType_append (by omega) _
  have hsequence : data.withFcs.sequenceId = data.sequenceId :=
    Frame.sequenceId_append (by omega) _
  simp only [depart, stampFrame, hclass, hmessage, hsequence]

/-- What departs goes to the end of the egress queue, unless the queue is full. -/
theorem egress_depart (port : UInt8) (data sent : Frame) :
    (e.depart port data sent).egress =
      if e.settings.egressLimit ≤ e.egress.length then e.egress else e.egress ++ [sent] := by
  obtain ⟨_, _, _, _, _, hstamp, -⟩ :=
    exists_stampFrame e.countTransmitted (e.classify data) port .transmitted data
  rw [depart, hstamp, enqueueEgress, apply_ite Engine.egress]
  rfl

end Engine

namespace System

/-! ### Chains that carry a frame -/

/-- The two systems are the same apart from memory, descriptor RAM and the pointers of the
channels. -/
def SameButChains (s t : System) : Prop :=
  t.engine = s.engine.withChains t.engine.ram t.engine.channels

theorem sameButChains_withChains (e : Engine) (ram ram' : Aperture)
    (channels channels' : ChannelBank) (memory memory' : Memory) :
    SameButChains ⟨e.withChains ram channels, memory⟩ ⟨e.withChains ram' channels', memory'⟩ :=
  rfl

/-- Such systems show the same to everyone who does not look at chains. -/
theorem SameButChains.outputs_eq {s t : System} (h : s.SameButChains t) :
    t.engine.egress = s.engine.egress ∧ t.engine.events = s.engine.events ∧
      t.engine.clock = s.engine.clock ∧ t.engine.interrupt = s.engine.interrupt ∧
      t.engine.stats = s.engine.stats := by
  rw [h]
  exact ⟨rfl, rfl, rfl, rfl, rfl⟩

/-- A transmit channel accepts the chain from `head` on, which carries `data`.  The first descriptor
says how long the data is, which port it goes to, and whether it brings its check sequence. -/
def Carries (s : System) (channel : ChannelId) (head : UInt32) (data : Frame) (port : UInt8)
    (bringsFcs : Bool) : Prop :=
  ∃ g, gather s.engine.ram s.memory channel head s.engine.settings.walkLimit = .ok g ∧
    g.frame = data ∧ g.first.packetLength.toNat = data.length ∧ g.first.toPort = port ∧
    g.first.has Status.passCrc = bringsFcs

variable {s t : System} {channel : ChannelId} {head : UInt32} {data : Frame} {port : UInt8}
  {bringsFcs : Bool}

/-- **The data of an accepted chain departs** when the head pointer is written. -/
theorem Carries.exists_store (h : s.Carries channel head data port bringsFcs) (hhead : head ≠ 0) :
    ∃ ram channels, s.store head (.transmitHead channel) =
      (none,
        { engine :=
            (s.engine.depart port data (if bringsFcs then data else data.withFcs)).withChains ram
              channels
          memory := s.memory }) := by
  obtain ⟨g, hgather, rfl, -, rfl, rfl⟩ := h
  have harmed : gather (s.mapEngine (·.setTransmitHead channel head)).engine.ram
      (s.mapEngine (·.setTransmitHead channel head)).memory channel
      ((s.mapEngine (·.setTransmitHead channel head)).engine.channels.transmitChannel
        channel).head
      (s.mapEngine (·.setTransmitHead channel head)).engine.settings.walkLimit = .ok g := by
    rw [engine_mapEngine, Engine.head_setTransmitHead]
    exact hgather
  obtain ⟨ram, -, htransmit⟩ := exists_transmit_of_gather harmed
  have hstore : s.store head (.transmitHead channel) =
      (s.mapEngine (·.setTransmitHead channel head)).transmit channel := if_neg hhead
  -- the chain is handed back and the head pointer cleared around the departure
  let sent : Frame := Engine.outgoing g
  let armed : ChannelBank := s.engine.channels.setTransmitHead channel head
  let channels : ChannelBank := (armed.modifyTransmit channel fun transmit =>
    { transmit with completion := g.first.bufferPointer }).setTransmitHead channel 0
  have hsent : ((s.engine.withChains ram armed).emit channel g).setTransmitHead channel 0 =
      (s.engine.depart g.first.toPort g.frame sent).withChains ram channels := by
    rw [Engine.emit_eq_depart, Engine.depart_withChains]
    rfl
  refine ⟨ram, channels, ?_⟩
  rw [hstore, htransmit]
  exact congrArg (fun engine => (none, System.mk engine s.memory)) hsent

/-! ### Both ways -/

/-- **Both ways to a check sequence lead to the same outputs.**  On two systems that are the same
apart from memory and chains, an accepted chain carries a frame of at least 46 bytes without its
check sequence, and an accepted chain of any shape carries the same frame for the same port followed
by its check sequence.  However the head pointers are written, the same bytes go into the egress
queue, the same event is queued or none, the interrupt line is driven in the same way, and the
counters are the same; again only memory and chains tell the systems apart. -/
theorem check_sequence_paths_agree (hsame : s.SameButChains t) {other : ChannelId}
    {first : UInt32} (hlength : 46 ≤ data.length)
    (happended : s.Carries channel head data port false)
    (hbrought : t.Carries other first
      (data ++ LittleEndian.encode 4 (Crc32.checksum data).toNat) port true)
    {op op' : Operation} (hop : op.registerWrite? = some (.transmitHead channel, head))
    (hhead : head ≠ 0) (hop' : op'.registerWrite? = some (.transmitHead other, first))
    (hfirst : first ≠ 0) :
    let after := (s.perform op).2
    let after' := (t.perform op').2
    (s.store head (.transmitHead channel)).1 = none ∧
    (t.store first (.transmitHead other)).1 = none ∧
    after'.engine.egress = after.engine.egress ∧
    after.engine.egress = (if s.engine.settings.egressLimit ≤ s.engine.egress.length
      then s.engine.egress
      else s.engine.egress ++ [data ++ LittleEndian.encode 4 (Crc32.checksum data).toNat]) ∧
    after'.engine.events = after.engine.events ∧
    after'.engine.clock = after.engine.clock ∧
    after'.engine.interrupt = after.engine.interrupt ∧
    after'.engine.stats = after.engine.stats ∧
    after.SameButChains after' := by
  intro after after'
  obtain ⟨ram, channels, hstore⟩ := happended.exists_store hhead
  obtain ⟨ram', channels', hstore'⟩ := hbrought.exists_store hfirst
  have hafter : after.engine =
      (s.engine.depart port data data.withFcs).withChains ram channels := by
    show (s.perform op).2.engine = _
    rw [perform_of_registerWrite hop, hstore]
    rfl
  have hafter' : after'.engine =
      (s.engine.depart port data data.withFcs).withChains ram' channels' := by
    show (t.perform op').2.engine = _
    rw [perform_of_registerWrite hop', hstore']
    show (t.engine.depart port data.withFcs data.withFcs).withChains ram' channels' = _
    rw [hsame, Engine.depart_withChains, Engine.depart_withFcs _ _ hlength]
    rfl
  have hagree : after.SameButChains after' := by
    unfold SameButChains
    rw [hafter, hafter']
    rfl
  have hsent : after.engine.egress =
      if s.engine.settings.egressLimit ≤ s.engine.egress.length then s.engine.egress
      else s.engine.egress ++ [data.withFcs] := by
    rw [hafter]
    exact Engine.egress_depart ..
  obtain ⟨hegress, hevents, hclock, hinterrupt, hstats⟩ := hagree.outputs_eq
  exact ⟨by rw [hstore], by rw [hstore'], hegress, hsent, hevents, hclock, hinterrupt, hstats,
    hagree⟩

/-- A frame of the precision time protocol is sent from one buffer, and the engine appends the check
sequence; the same frame and its check sequence are sent from two buffers of another channel. -/
theorem stamped_frame_is_sent_both_ways :
    let data : Frame :=
      List.replicate 12 0 ++ [0x88, 0xF7, 0x1B] ++ List.replicate 29 0 ++ [0x12, 0x34]
    let e : Engine := (small.run [.writeRegister 0xC28 1]).2.engine
    let s : System :=
      { engine := e.withChains
          (e.ram.writeWords 0x48486000 [0, 0x100, 64, 0xE002002E]).1 e.channels
        memory := .dense ((Dense.ofSize 4096).store 0x100 data) }
    let t : System :=
      { engine := e.withChains (e.ram.writeWords 0x48486000
          [0x48486010, 0x200, 48, 0xA4020032, 0, 0x300, 8, 0x60000000]).1 e.channels
        memory := .dense (((Dense.ofSize 4096).store 0x200 (data.withFcs.take 48)).store 0x300
          (data.withFcs.drop 48)) }
    (s.perform (.writeRegister 0xA00 0x48486000)).2.engine.egress = [data.withFcs] ∧
    (t.perform (.writeRegister 0xA04 0x48486000)).2.engine.egress =
      (s.perform (.writeRegister 0xA00 0x48486000)).2.engine.egress ∧
    (s.perform (.writeRegister 0xA00 0x48486000)).2.engine.stats.events = 1 ∧
    (t.perform (.writeRegister 0xA04 0x48486000)).2.engine.events =
      (s.perform (.writeRegister 0xA00 0x48486000)).2.engine.events := by
  intro data e s t
  have hsame : s.SameButChains t := sameButChains_withChains ..
  have happended : s.Carries 0 0x48486000 data 2 false :=
    ⟨⟨⟨0x48486000, 0, 0x100, 0, 64, 46, 2, 0xE0000000, 0⟩, [], data⟩, by decide +kernel⟩
  have hbrought : t.Carries 1 0x48486000
      (data ++ LittleEndian.encode 4 (Crc32.checksum data).toNat) 2 true :=
    ⟨⟨⟨0x48486000, 0x48486010, 0x200, 0, 48, 50, 2, 0xA4000000, 0⟩,
      [⟨0x48486010, 0, 0x300, 0, 8, 0, 0, 0x60000000, 0⟩], data.withFcs⟩, by decide +kernel⟩
  have hwrite : (Operation.writeRegister 0xA00 0x48486000).registerWrite? =
      some (.transmitHead 0, 0x48486000) := by decide +kernel
  have hwrite' : (Operation.writeRegister 0xA04 0x48486000).registerWrite? =
      some (.transmitHead 1, 0x48486000) := by decide +kernel
  have hevents : (s.perform (.writeRegister 0xA00 0x48486000)).2.engine.stats.events = 1 := by
    decide +kernel
  obtain ⟨-, -, hegress', hegress, hevents', -⟩ := check_sequence_paths_agree hsame (by decide)
    happended hbrought hwrite (by decide) hwrite' (by decide)
  exact ⟨hegress, hegress', hevents, hevents'⟩

end System

end PacketDma
