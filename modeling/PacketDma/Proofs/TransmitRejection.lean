/-
**Rejected transmissions.**

A chain is gathered before anything is written, and a gathered chain can always be handed back.  So
a transmission that fails has failed while it was only reading: the channel is idle, the failure is
counted, and there is no other trace of it.

Main results:

* `PacketDma.System.transmit_fault_eq_some_iff` — a transmission fails exactly for lack of a frame;
* `PacketDma.System.rejected_transmit_changes_nothing_else` — **a rejected transmission is atomic**.
-/

import PacketDma.Proofs.FillEffect
import PacketDma.Proofs.Passes
import PacketDma.Proofs.TransmitEffect

set_option autoImplicit false

namespace PacketDma

/-- The head pointer of a transmit channel shows in its own register only. -/
theorem Engine.load_setTransmitHead (e : Engine) {register : Register} {channel : ChannelId}
    (head : UInt32) (h : register ≠ .transmitHead channel) :
    (e.setTransmitHead channel head).load register = e.load register := by
  cases register with
  | transmitHead other =>
      have hother : other ≠ channel := by
        rintro rfl
        exact h rfl
      simp only [load, setTransmitHead, ChannelBank.setTransmitHead,
        ChannelBank.transmitChannel_modifyTransmit_of_ne _ hother]
  | transmitCompletion other =>
      by_cases hother : other = channel
      · subst hother
        simp only [load, setTransmitHead, ChannelBank.setTransmitHead,
          ChannelBank.transmitChannel_modifyTransmit_self]
      · simp only [load, setTransmitHead, ChannelBank.setTransmitHead,
          ChannelBank.transmitChannel_modifyTransmit_of_ne _ hother]
  | _ => rfl

namespace System

variable {s : System} {channel : ChannelId} {fault : DmaFault}

/-- **A transmission fails exactly for lack of a frame.** -/
theorem transmit_fault_eq_some_iff : (s.transmit channel).1 = some fault ↔
    gather s.engine.ram s.memory channel (s.engine.channels.transmitChannel channel).head
      s.engine.settings.walkLimit = .error fault := by
  cases h : gather s.engine.ram s.memory channel (s.engine.channels.transmitChannel channel).head
      s.engine.settings.walkLimit with
  | error cause =>
      rw [transmit_of_error h]
      simp
  | ok g =>
      obtain ⟨ram, -, htransmit⟩ := exists_transmit_of_gather h
      rw [htransmit]
      simp

/-- The system after a rejected transmission. -/
def rejected (s : System) (channel : ChannelId) : System :=
  s.mapEngine fun e => (e.setTransmitHead channel 0).countRejected

/-- A head pointer write that fails leaves the head pointer at zero and one more failure behind. -/
theorem store_transmitHead_of_fault {value : UInt32} (hvalue : value ≠ 0)
    (h : (s.store value (.transmitHead channel)).1 = some fault) :
    (s.store value (.transmitHead channel)).2 = s.rejected channel := by
  simp only [store, if_neg hvalue] at h ⊢
  rw [transmit_of_error (transmit_fault_eq_some_iff.1 h)]
  simp only [rejected, mapEngine, Engine.setTransmitHead, Engine.countRejected,
    ChannelBank.setTransmitHead_setTransmitHead]

/-- **A rejected transmission is atomic.**  A chain that has been gathered can always be handed
back; and when the write of a head pointer other than zero fails, the head pointer is zero, one
more rejected chain is counted, and nothing else has changed, however the register was written. -/
theorem rejected_transmit_changes_nothing_else (s : System) :
    (∀ (ram : Aperture) (memory : Memory) (channel : Nat) (head : UInt32) (limit : Nat)
      (g : Gathered), gather ram memory channel head limit = .ok g →
        (applyEach TransmitDescriptor.encode g.returned ram).1 = none) ∧
    ∀ offset value channel fault, Register.decode offset = some (.transmitHead channel) →
      value ≠ 0 → (s.writeRegister offset value).1 = some fault →
      let after := (s.writeRegister offset value).2
      after =
        { engine :=
            { s.engine with
              channels := s.engine.channels.setTransmitHead channel 0
              stats := { s.engine.stats with
                transmitErrors := s.engine.stats.transmitErrors + 1 } }
          memory := s.memory } ∧
      after.engine.readRegister offset = .ok 0 ∧
      (∀ register, register ≠ .transmitHead channel →
        after.engine.load register = s.engine.load register) ∧
      (∀ other, after.engine.channels.receiveChannel other =
        s.engine.channels.receiveChannel other) ∧
      ∀ op : Operation, op.registerWrite? = some (.transmitHead channel, value) →
        (s.perform op).2 = after := by
  refine ⟨?_, ?_⟩
  · intro ram memory channel head limit g hgather
    obtain ⟨written, hok, -⟩ := exists_handedBack hgather
    rw [hok]
  · intro offset value channel fault hdecode hvalue hfault after
    have hwrite : s.writeRegister offset value = s.store value (.transmitHead channel) := by
      rw [writeRegister, hdecode]
    have hafter : after = s.rejected channel := by
      show (s.writeRegister offset value).2 = _
      rw [hwrite] at hfault ⊢
      exact store_transmitHead_of_fault hvalue hfault
    refine ⟨hafter, ?_, ?_, ?_, ?_⟩
    · rw [hafter, Engine.readRegister, hdecode]
      show Except.ok
        ((s.engine.channels.setTransmitHead channel 0).transmitChannel channel).head = _
      rw [ChannelBank.setTransmitHead, ChannelBank.transmitChannel_modifyTransmit_self]
    · intro register hregister
      rw [hafter]
      exact Engine.load_setTransmitHead s.engine 0 hregister
    · intro other
      rw [hafter]
      rfl
    · intro op hop
      rw [perform_of_registerWrite hop, ← hwrite]

/-- The second descriptor of a chain belongs to software: the chain is rejected, and its first
descriptor still belongs to the engine. -/
theorem chain_into_software_is_rejected :
    let s := (small.run [.writeRam 0x48486000 [0x48486010, 0x100, 4, 0xA0000008]]).2
    (s.writeRegister 0xA00 0x48486000).1 = some (.chain 0 (.notOwned 0x48486010)) ∧
    (s.writeRegister 0xA00 0x48486000).2.engine.ram = s.engine.ram ∧
    (s.writeRegister 0xA00 0x48486000).2.engine.readRegister 0xA00 = .ok 0 := by
  intro s
  have hfault : (s.writeRegister 0xA00 0x48486000).1 =
      some (.chain 0 (.notOwned 0x48486010)) := by decide +kernel
  obtain ⟨hafter, hhead, -⟩ := (rejected_transmit_changes_nothing_else s).2 0xA00 0x48486000 0 _
    (by decide +kernel) (by decide) hfault
  exact ⟨hfault, by rw [hafter], hhead⟩

end System

end PacketDma
