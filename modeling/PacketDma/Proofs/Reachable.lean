/-
**Reachable systems.**

A system is reachable when operations lead to it from a fresh engine.  Two places say whether
receive is enabled: the register that software writes, and the intake that takes or refuses frames.
They are set together, and so on every reachable system they say the same.

Main definitions:

* `PacketDma.System.Reachable` — the systems to which operations lead;
* `PacketDma.Engine.gate`, `PacketDma.System.Gated` — the two places, and that they say the same.

Main results:

* `PacketDma.System.Gated.perform` — every operation keeps the two places together;
* `PacketDma.System.Reachable.gated` — **frames are taken exactly while receive is enabled**.
-/

import PacketDma.Proofs.Passes
import PacketDma.Proofs.ReceiveRules
import PacketDma.Proofs.TransmitEffect

set_option autoImplicit false

namespace PacketDma

/-- Operations lead to a system from a fresh engine, with any settings, clock, interrupt line and
memory. -/
inductive System.Reachable : System → Prop
  | fresh (settings : AcceptedSettings) (clock : Clock) (interrupt : InterruptLine)
      (memory : Memory) : Reachable ⟨.fresh settings clock interrupt, memory⟩
  | step {s : System} (h : Reachable s) (op : Operation) : Reachable (s.perform op).2

/-- Operations lead from a reachable system to a reachable one. -/
theorem System.Reachable.run {s : System} (h : s.Reachable) (ops : List Operation) :
    (s.run ops).2.Reachable := by
  induction ops generalizing s with
  | nil => exact h
  | cons op rest ih => exact ih (h.step op)

/-! ### Which registers only store a word -/

/-- A register that only stores a word stores it at its own position. -/
theorem Register.eq_of_ofIndex {i j : RegisterIndex}
    (h : ofIndex i = .storage j ∨ ofIndex i = .phyAccess j) : i = j := by
  unfold ofIndex at h
  split at h
  · unfold ofPointerOffset at h
    dsimp only at h
    split at h <;> simp at h
  · split at h <;> simp_all

theorem Register.ofIndex_receiveControl : ofIndex .receiveControl = .receiveControl := by
  decide +kernel

/-- The register that enables receive is not one of those. -/
theorem Register.ne_receiveControl_of_ofIndex {i j : RegisterIndex}
    (h : ofIndex i = .storage j ∨ ofIndex i = .phyAccess j) : j ≠ .receiveControl := by
  rintro rfl
  rw [eq_of_ofIndex h, ofIndex_receiveControl] at h
  rcases h with h | h <;> cases h

/-- A register that is written stands at some position. -/
theorem Operation.exists_ofIndex {op : Operation} {register : Register} {value : UInt32}
    (h : op.registerWrite? = some (register, value)) : ∃ i, register = Register.ofIndex i := by
  cases op with
  | writeRegister offset word =>
      obtain ⟨found, hdecode, heq⟩ := Option.map_eq_some_iff.1 h
      cases heq
      unfold Register.decode at hdecode
      split at hdecode
      · exact ⟨_, (Option.some.inj hdecode).symm⟩
      · cases hdecode
  | busWrite offset size word =>
      obtain ⟨width, -, htarget⟩ := Option.bind_eq_some_iff.1 h
      split at htarget
      · next hdecode =>
          cases htarget
          unfold BusTarget.decode at hdecode
          split at hdecode
          · cases hdecode
          · split at hdecode <;> cases hdecode
            exact ⟨_, rfl⟩
      · cases htarget
  | _ => cases h

/-! ### The two places -/

/-- Whether the intake takes frames, and the register that enables receive. -/
def Engine.gate (e : Engine) : Bool × UInt32 := (e.intake.accepting, e.register .receiveControl)

/-- The two places that say whether receive is enabled say the same. -/
def System.Gated (s : System) : Prop := s.engine.intake.accepting = s.engine.receiveEnabled

namespace System

variable {s t : System}

theorem Gated.congr (h : s.Gated) (hgate : t.engine.gate = s.engine.gate) : t.Gated := by
  obtain ⟨haccepting, hregister⟩ := Prod.mk.inj hgate
  unfold Gated Engine.receiveEnabled at h ⊢
  rw [haccepting, hregister]
  exact h

theorem gate_of_sameRules (h : s.SameRules t) : t.engine.gate = s.engine.gate :=
  Prod.ext h.accepting (h.registers .receiveControl (by decide) (by decide))

theorem gate_setRegister (e : Engine) {index : RegisterIndex} (h : index ≠ .receiveControl)
    (value : UInt32) : (e.setRegister index value).gate = e.gate :=
  Prod.ext rfl (RegisterFile.get_set_of_ne _ h.symm _)

theorem gate_transmit (s : System) (channel : ChannelId) :
    (s.transmit channel).2.engine.gate = s.engine.gate := by
  cases hgather : gather s.engine.ram s.memory channel
      (s.engine.channels.transmitChannel channel).head s.engine.settings.walkLimit with
  | error fault =>
      rw [transmit_of_error hgather]
      rfl
  | ok g =>
      obtain ⟨ram, -, htransmit⟩ := exists_transmit_of_gather hgather
      obtain ⟨_, _, _, _, _, hemit, hregisters⟩ :=
        Engine.exists_emit { s.engine with ram } channel g
      rw [htransmit, hemit]
      exact Prod.ext rfl (hregisters .receiveControl (by decide))

theorem gate_offer (e : Engine) (frame : InboundFrame) : (e.offer frame).2.gate = e.gate := by
  cases hrefusal : e.intake.refusal? e.settings.pendingLimit frame with
  | none =>
      rw [Engine.offer_of_none hrefusal]
      rfl
  | some fault =>
      rw [Engine.offer_of_refusal hrefusal]
      rfl

theorem gate_drain (s : System) : s.drain.2.engine.gate = s.engine.gate :=
  gate_of_sameRules (sameRules_drain s)

/-- Writing the register that enables receive sets both places. -/
theorem gated_controlReceive (s : System) (value : UInt32) :
    (s.mapEngine (·.controlReceive value)).Gated := by
  show (value &&& 1 != 0) = ((s.engine.registers.set .receiveControl value).get _ &&& 1 != 0)
  rw [RegisterFile.get_set_self]

/-- With all registers zero, receive is disabled. -/
theorem gated_of_zero (hregisters : s.engine.registers = .zero)
    (haccepting : s.engine.intake.accepting = false) : s.Gated := by
  unfold Gated Engine.receiveEnabled Engine.register
  rw [hregisters, haccepting, RegisterFile.get_zero]
  rfl

/-- A reset of the DMA engine clears both places. -/
theorem gated_resetDma (s : System) : (s.mapEngine (·.resetDma)).Gated := by
  show false = ((((s.engine.registers.set .transmitControl 0).set .receiveControl 0).set .dmaStatus
    0).get .receiveControl &&& 1 != 0)
  rw [RegisterFile.get_set_of_ne _ (by decide), RegisterFile.get_set_self]
  rfl

/-- **A write of a register keeps the two places together.** -/
theorem Gated.store (h : s.Gated) (index : RegisterIndex) (value : UInt32) :
    (s.store value (.ofIndex index)).2.Gated := by
  cases hregister : Register.ofIndex index with
  | dmaReset =>
      simp only [System.store]
      split
      · exact h
      · exact gated_resetDma s
  | transmitHead channel =>
      simp only [System.store]
      split
      · exact h
      · exact h.congr (gate_transmit ..)
  | receiveHead channel => exact h.congr (gate_drain (s.mapEngine (·.armReceive channel value)))
  | receiveControl =>
      simp only [System.store]
      split
      · exact gated_controlReceive s value
      · exact (gated_controlReceive s value).congr (gate_drain _)
  | eventPop =>
      simp only [System.store]
      split <;> exact h
  | tableControl => exact h.congr (gate_setRegister s.engine (by decide) _)
  | tableSelect => exact h.congr (gate_setRegister s.engine (by decide) value)
  | phyAccess position =>
      have hother := Register.ne_receiveControl_of_ofIndex (Or.inr hregister)
      exact h.congr (gate_setRegister s.engine hother _)
  | storage position =>
      have hother := Register.ne_receiveControl_of_ofIndex (Or.inl hregister)
      exact h.congr (gate_setRegister s.engine hother value)
  | _ => exact h

/-- **Every operation keeps the two places together.** -/
theorem Gated.perform (h : s.Gated) (op : Operation) : (s.perform op).2.Gated := by
  cases hwrite : op.registerWrite? with
  | some write =>
      obtain ⟨register, value⟩ := write
      obtain ⟨index, rfl⟩ := Operation.exists_ofIndex hwrite
      rw [perform_of_registerWrite hwrite]
      exact h.store index value
  | none =>
      cases op with
      | busRead offset size =>
          by_cases hread : (Operation.busRead offset size).readsRam = true
          · rw [perform_of_readsRam hread]
            exact h.congr (gate_drain s)
          · rw [System.perform, busRead_of_not_readsRam (Bool.not_eq_true _ ▸ hread)]
            exact h
      | busWrite offset size value =>
          obtain ⟨⟨ram, hwritten⟩, -⟩ := busWrite_of_no_register (s := s) hwrite
          rw [System.perform, hwritten]
          exact h
      | receive frame =>
          cases hoffer : s.engine.offer frame with
          | mk fault engine =>
              have hoffered : engine.gate = s.engine.gate := by
                rw [← gate_offer s.engine frame, hoffer]
              simp only [System.perform, System.receive, hoffer]
              cases fault with
              | none => exact h.congr ((gate_drain { s with engine }).trans hoffered)
              | some fault => exact h.congr hoffered
      | deliver frame => exact h.congr (gate_offer s.engine frame)
      | poll => exact h.congr (gate_drain s)
      | writeRegister offset value =>
          rw [Operation.registerWrite?, Option.map_eq_none_iff] at hwrite
          simpa [System.perform, writeRegister, hwrite] using h
      | reset => exact gated_of_zero rfl rfl
      | writeMemory address bytes =>
          simp only [System.perform, writeMemory]
          split <;> exact h
      | _ => exact h

/-- **Frames are taken exactly while receive is enabled.** -/
theorem Reachable.gated (h : s.Reachable) : s.Gated := by
  induction h with
  | fresh settings clock interrupt memory => exact gated_of_zero rfl rfl
  | step _ op ih => exact ih.perform op

end System

end PacketDma
