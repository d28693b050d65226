/-
**What a transmission does.**

A chain that has been gathered can always be handed back, because each of its slots has been read
before.  So a transmission fails only for lack of a frame, and one that succeeds changes the status
words of the chain, the egress queue, and what is counted and stamped.

Main definitions:

* `PacketDma.Gathered.HandedBack` — descriptor RAM after a chain has been handed back.

Main results:

* `PacketDma.System.transmit_of_error`, `PacketDma.System.exists_transmit_of_gather` — the two
  outcomes of a transmission;
* `PacketDma.Engine.exists_emit` — what sending a frame can change;
* `PacketDma.Engine.egress_emit` — what becomes of the frame.
-/

import PacketDma.Engine.Transmit
import PacketDma.Proofs.GatherWalk

set_option autoImplicit false

namespace PacketDma

/-- Descriptor RAM after a gathered chain has been handed back. -/
structure Gathered.HandedBack (g : Gathered) (ram written : Aperture) : Prop where
  elsewhere : ram.EqOff written fun i => ∃ d ∈ g.returned, InStatus d.address i
  slots : g.descriptors.Pairwise (fun d e => SlotsDisjoint d.address e.address) →
    ∀ d ∈ g.returned, written.slotAt d.address =
      { ram.slotAt d.address with status := d.statusWord }

/-- **A gathered chain can always be handed back.** -/
theorem exists_handedBack {ram : Aperture} {memory : Memory} {channel : Nat} {head : UInt32}
    {limit : Nat} {g : Gathered} (h : gather ram memory channel head limit = .ok g) :
    ∃ written, applyEach TransmitDescriptor.encode g.returned ram = (none, written) ∧
      g.HandedBack ram written := by
  obtain ⟨-, hwalk, -, -⟩ := gather_eq_ok_iff.1 h
  have hcovers : ∀ d ∈ g.returned, ram.CoversSlot d.address := by
    intro d hd
    have hmem : d.address ∈ g.returned.map (·.address) := List.mem_map_of_mem hd
    rw [Gathered.address_returned] at hmem
    obtain ⟨e, he, haddress⟩ := List.mem_map.1 hmem
    exact haddress ▸ (hwalk.ownedAt e he).covered
  obtain ⟨written, hok, heq, hslots⟩ := exists_applyEach_slots TransmitDescriptor.address
    InStatus (fun d s => { s with status := d.statusWord }) (fun _ _ => InStatus.inSlot)
    (fun d ram hd => TransmitDescriptor.exists_encode hd) g.returned ram hcovers
  refine ⟨written, hok, heq, fun hapart => hslots ?_⟩
  rw [← List.pairwise_map (f := TransmitDescriptor.address), Gathered.address_returned,
    List.pairwise_map]
  exact hapart

namespace Engine

/-- The head pointer of a channel after it has been written. -/
theorem head_setTransmitHead (e : Engine) (channel : ChannelId) (head : UInt32) :
    ((e.setTransmitHead channel head).channels.transmitChannel channel).head = head := by
  simp [setTransmitHead, ChannelBank.setTransmitHead]

/-- **What sending a frame can change**: the completion pointer of its channel, what is counted,
what a stamp touches, and the egress queue; if that is full, one more dropped frame is counted
instead. -/
theorem exists_emit (e : Engine) (channel : ChannelId) (g : Gathered) :
    ∃ events clock registers interrupt count,
      e.emit channel g =
        { e with
          events, clock, registers, interrupt
          stats := { e.stats with
            transmitted := e.stats.transmitted + 1
            events := count
            egressDropped := if e.settings.egressLimit ≤ e.egress.length then
              e.stats.egressDropped + 1 else e.stats.egressDropped }
          channels := e.channels.modifyTransmit channel fun transmit =>
            { transmit with completion := g.first.bufferPointer }
          egress := if e.settings.egressLimit ≤ e.egress.length then e.egress
            else e.egress ++ [outgoing g] } ∧
      ∀ index, index ≠ .interruptStatus → registers.get index = e.registers.get index := by
  obtain ⟨events, clock, registers, interrupt, count, hstamp, hregisters⟩ := exists_stampFrame
    { e with
      channels := e.channels.modifyTransmit channel fun transmit =>
        { transmit with completion := g.first.bufferPointer }
      stats := { e.stats with transmitted := e.stats.transmitted + 1 } }
    (e.classify g.frame) g.first.toPort .transmitted g.frame
  have hemit : e.emit channel g = _ := congrArg (enqueueEgress · (outgoing g)) hstamp
  rw [hemit, enqueueEgress]
  dsimp only
  split
  · exact ⟨events, clock, registers, interrupt, _, rfl, hregisters⟩
  · exact ⟨events, clock, registers, interrupt, _, rfl, hregisters⟩

/-- A frame that is sent goes to the end of the egress queue, unless the queue is full. -/
theorem egress_emit (e : Engine) (channel : ChannelId) (g : Gathered) :
    (e.emit channel g).egress =
      if e.settings.egressLimit ≤ e.egress.length then e.egress
      else e.egress ++ [outgoing g] := by
  obtain ⟨_, _, _, _, _, hemit, -⟩ := e.exists_emit channel g
  rw [hemit]

end Engine

namespace System

variable {s : System} {channel : ChannelId}

/-- A chain that cannot be gathered is counted, and idles its channel. -/
theorem transmit_of_error {fault : DmaFault}
    (h : gather s.engine.ram s.memory channel (s.engine.channels.transmitChannel channel).head
      s.engine.settings.walkLimit = .error fault) :
    s.transmit channel =
      (some fault, s.mapEngine fun e => (e.setTransmitHead channel 0).countRejected) := by
  simp only [transmit, h]

theorem exists_transmit_of_gather {g : Gathered}
    (h : gather s.engine.ram s.memory channel (s.engine.channels.transmitChannel channel).head
      s.engine.settings.walkLimit = .ok g) :
    ∃ ram, g.HandedBack s.engine.ram ram ∧
      s.transmit channel =
        (none,
          { engine := ({ s.engine with ram }.emit channel g).setTransmitHead channel 0
            memory := s.memory }) := by
  obtain ⟨ram, hok, hback⟩ := exists_handedBack h
  refine ⟨ram, hback, ?_⟩
  simp only [transmit, h, hok]
  rfl

end System

end PacketDma
