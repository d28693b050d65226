/-
**The passes that operations set off.**

Whatever reaches the engine, it sets off at most one pass: waiting frames are moved into their
rings, or one frame is sent.  Waiting frames are tried when a frame arrives, when software polls,
when it reads descriptor RAM or writes the head pointer of a receive channel, and when it enables
receive; a frame is sent when software writes the head pointer of a transmit channel.

Main definitions:

* `PacketDma.Operation.Drains` — the operations that try the waiting frames;
* `PacketDma.System.StartsDrain`, `PacketDma.System.StartsSend` — the system at the start of a pass.

Main results:

* `PacketDma.System.perform_cases` — **an operation is a drain, a transmission, or neither**.
-/

import PacketDma.Engine.Operation

set_option autoImplicit false

namespace PacketDma

namespace Operation

/-- The register that an operation writes, and the value. -/
def registerWrite? : Operation → Option (Register × UInt32)
  | .writeRegister offset value => (Register.decode offset).map (·, value)
  | .busWrite offset size value =>
      (AccessWidth.ofSize? size).bind fun width =>
        match BusTarget.decode offset width with
        | some (.register register lane) =>
            some (register, (value &&& width.mask).toUInt32 <<< UInt32.ofNat (8 * lane))
        | _ => none
  | _ => none

/-- Whether an operation is a bus read of descriptor RAM. -/
def readsRam : Operation → Bool
  | .busRead offset size =>
      match (AccessWidth.ofSize? size).bind (BusTarget.decode offset) with
      | some (.ram _) => true
      | _ => false
  | _ => false

/-- Whether an operation writes or clears descriptor RAM by itself. -/
def writesRam : Operation → Bool
  | .busWrite offset size _ =>
      match (AccessWidth.ofSize? size).bind (BusTarget.decode offset) with
      | some (.ram _) => true
      | _ => false
  | .writeRam .. | .reset => true
  | _ => false

/-- An operation of software that tries the waiting frames, and what it does to the engine before:
a poll, a read of descriptor RAM, a head pointer write of a receive channel, or a write that
enables receive. -/
inductive Drains : Operation → (Engine → Engine) → Prop
  | poll : Drains .poll id
  | ramRead {op : Operation} (h : op.readsRam = true) : Drains op id
  | receiveHead {op : Operation} {channel : ChannelId} {value : UInt32}
      (h : op.registerWrite? = some (.receiveHead channel, value)) :
      Drains op (·.armReceive channel value)
  | receiveControl {op : Operation} {value : UInt32}
      (h : op.registerWrite? = some (.receiveControl, value)) (enables : value &&& 1 ≠ 0) :
      Drains op (·.controlReceive value)

end Operation

namespace System

variable {s : System}

/-! ### Accesses by software -/

/-- A bus read of descriptor RAM lets waiting frames land first. -/
theorem perform_of_readsRam {op : Operation} (h : op.readsRam = true) :
    (s.perform op).2 = s.drain.2 := by
  cases op with
  | busRead offset size =>
      simp only [Operation.readsRam] at h
      split at h
      · next htarget =>
          obtain ⟨width, hwidth, hdecode⟩ := Option.bind_eq_some_iff.1 htarget
          simp [perform, busRead, hwidth, hdecode]
      · cases h
  | _ => cases h

/-- Every write of a register is a store. -/
theorem perform_of_registerWrite {op : Operation} {register : Register} {value : UInt32}
    (h : op.registerWrite? = some (register, value)) :
    (s.perform op).2 = (s.store value register).2 := by
  cases op with
  | writeRegister offset word =>
      obtain ⟨found, hdecode, heq⟩ := Option.map_eq_some_iff.1 h
      cases heq
      simp [perform, writeRegister, hdecode]
  | busWrite offset size word =>
      obtain ⟨width, hwidth, htarget⟩ := Option.bind_eq_some_iff.1 h
      split at htarget
      · next hdecode =>
          cases htarget
          simp [perform, busWrite, hwidth, hdecode]
      · cases htarget
  | _ => cases h

/-- Any other bus read changes nothing. -/
theorem busRead_of_not_readsRam {offset : UInt64} {size : Nat}
    (h : (Operation.busRead offset size).readsRam = false) : (s.busRead offset size).2 = s := by
  unfold busRead
  cases hwidth : AccessWidth.ofSize? size with
  | none => rfl
  | some width =>
      cases htarget : BusTarget.decode offset width with
      | none => simp [htarget]
      | some target =>
          cases target with
          | register register lane => simp [htarget]
          | ram offset => simp [Operation.readsRam, hwidth, htarget] at h

theorem registerWrite?_of_readsRam {op : Operation} (h : op.readsRam = true) :
    op.registerWrite? = none := by
  cases op with
  | busRead offset size => rfl
  | _ => cases h

/-- **A write of a register** tries the waiting frames, sends a frame, or leaves memory and
descriptor RAM alone. -/
theorem store_cases (s : System) (value : UInt32) (register : Register) :
    (∃ channel, register = .receiveHead channel) ∨
      (register = .receiveControl ∧ value &&& 1 ≠ 0) ∨
      (∃ channel, register = .transmitHead channel ∧ value ≠ 0) ∨
      ((s.store value register).2.memory = s.memory ∧
        (s.store value register).2.engine.ram = s.engine.ram) := by
  cases register with
  | receiveHead channel => exact Or.inl ⟨channel, rfl⟩
  | receiveControl =>
      by_cases hbit : value &&& 1 = 0
      · simp only [store, if_pos hbit]
        exact Or.inr (Or.inr (Or.inr ⟨rfl, rfl⟩))
      · exact Or.inr (Or.inl ⟨rfl, hbit⟩)
  | transmitHead channel =>
      by_cases hzero : value = 0
      · simp only [store, if_pos hzero]
        exact Or.inr (Or.inr (Or.inr ⟨rfl, rfl⟩))
      · exact Or.inr (Or.inr (Or.inl ⟨channel, rfl, hzero⟩))
  | dmaReset =>
      simp only [store]
      split <;> exact Or.inr (Or.inr (Or.inr ⟨rfl, rfl⟩))
  | eventPop =>
      simp only [store]
      split <;> exact Or.inr (Or.inr (Or.inr ⟨rfl, rfl⟩))
  | _ => exact Or.inr (Or.inr (Or.inr ⟨rfl, rfl⟩))

/-- A bus write that writes no register writes descriptor RAM at most. -/
theorem busWrite_of_no_register {offset value : UInt64} {size : Nat}
    (h : (Operation.busWrite offset size value).registerWrite? = none) :
    (∃ ram, s.busWrite offset size value = s.mapEngine ({ · with ram })) ∧
      ((Operation.busWrite offset size value).writesRam = false →
        s.busWrite offset size value = s) := by
  cases hwidth : AccessWidth.ofSize? size with
  | none =>
      have hsame := s.busWrite_of_unsupported offset value hwidth
      exact ⟨⟨s.engine.ram, hsame⟩, fun _ => hsame⟩
  | some width =>
      cases htarget : BusTarget.decode offset width with
      | none =>
          have hsame : s.busWrite offset size value = s := by simp [busWrite, hwidth, htarget]
          exact ⟨⟨s.engine.ram, hsame⟩, fun _ => hsame⟩
      | some target =>
          cases target with
          | register register lane => simp [Operation.registerWrite?, hwidth, htarget] at h
          | ram offset =>
              refine ⟨?_, fun hram => by simp [Operation.writesRam, hwidth, htarget] at hram⟩
              simp only [busWrite, hwidth, htarget, mapEngine, Engine.storeRam]
              split
              · exact ⟨_, rfl⟩
              · exact ⟨s.engine.ram, rfl⟩

/-! ### Passes -/

/-- `op` tries the waiting frames, and `t` is the system when it does. -/
inductive StartsDrain (s : System) : Operation → System → Prop
  | arrival {frame : InboundFrame} {engine : Engine} (h : s.engine.offer frame = (none, engine)) :
      StartsDrain s (.receive frame) { s with engine }
  | trigger {op : Operation} {adjust : Engine → Engine} (h : op.Drains adjust) :
      StartsDrain s op (s.mapEngine adjust)

/-- `op` sends the frame that the head pointer of a channel leads to, and `t` is the system when it
does. -/
inductive StartsSend (s : System) : Operation → System → ChannelId → Prop
  | head {op : Operation} {channel : ChannelId} {value : UInt32}
      (h : op.registerWrite? = some (.transmitHead channel, value)) (armed : value ≠ 0) :
      StartsSend s op (s.mapEngine (·.setTransmitHead channel value)) channel

theorem perform_of_drains {op : Operation} {adjust : Engine → Engine} (h : op.Drains adjust) :
    (s.perform op).2 = (s.mapEngine adjust).drain.2 := by
  cases h with
  | poll => rfl
  | ramRead h => exact perform_of_readsRam h
  | receiveHead h => exact perform_of_registerWrite h
  | receiveControl h enables =>
      rw [perform_of_registerWrite h]
      simp only [store, if_neg enables]

/-- A drain is all that the operation does which starts it. -/
theorem StartsDrain.perform_eq {op : Operation} {t : System} (h : s.StartsDrain op t) :
    (s.perform op).2 = t.drain.2 := by
  cases h with
  | arrival h => simp only [perform, receive, h]
  | trigger h => exact perform_of_drains h

/-- A transmission is all that the operation does which starts it. -/
theorem StartsSend.perform_eq {op : Operation} {t : System} {channel : ChannelId}
    (h : s.StartsSend op t channel) : (s.perform op).2 = (t.transmit channel).2 := by
  cases h with
  | head h armed =>
      rw [perform_of_registerWrite h]
      simp only [store, if_neg armed]

/-- When a drain starts, memory and descriptor RAM are as they were. -/
theorem StartsDrain.kept {op : Operation} {t : System} (h : s.StartsDrain op t) :
    t.memory = s.memory ∧ t.engine.ram = s.engine.ram := by
  cases h with
  | arrival h =>
      obtain rfl := (congrArg Prod.snd h : (s.engine.offer _).2 = _)
      exact ⟨rfl, rfl⟩
  | trigger h => cases h <;> exact ⟨rfl, rfl⟩

/-- When a transmission starts, memory and descriptor RAM are as they were. -/
theorem StartsSend.kept {op : Operation} {t : System} {channel : ChannelId}
    (h : s.StartsSend op t channel) : t.memory = s.memory ∧ t.engine.ram = s.engine.ram := by
  cases h
  exact ⟨rfl, rfl⟩

/-- A register is no place of descriptor RAM. -/
theorem writesRam_of_registerWrite {op : Operation} {write : Register × UInt32}
    (h : op.registerWrite? = some write) : op.writesRam = false := by
  cases op with
  | busWrite offset size value =>
      obtain ⟨width, hwidth, htarget⟩ := Option.bind_eq_some_iff.1 h
      split at htarget
      · next hdecode => simp [Operation.writesRam, hwidth, hdecode]
      · cases htarget
  | writeRegister offset value => rfl
  | _ => cases h

/-- An operation that starts a drain does not write descriptor RAM by itself. -/
theorem StartsDrain.writesRam_eq {op : Operation} {t : System} (h : s.StartsDrain op t) :
    op.writesRam = false := by
  cases h with
  | arrival h => rfl
  | trigger h =>
      cases h with
      | poll => rfl
      | ramRead h =>
          cases op with
          | busRead offset size => rfl
          | _ => cases h
      | receiveHead h => exact writesRam_of_registerWrite h
      | receiveControl h enables => exact writesRam_of_registerWrite h

/-- An operation that starts a transmission does not write descriptor RAM by itself. -/
theorem StartsSend.writesRam_eq {op : Operation} {t : System} {channel : ChannelId}
    (h : s.StartsSend op t channel) : op.writesRam = false := by
  cases h with
  | head h armed => exact writesRam_of_registerWrite h

/-- **An operation is a drain, a transmission, or neither**; in the last case it leaves memory and
descriptor RAM alone unless it is a write of them. -/
theorem perform_cases (s : System) (op : Operation) :
    (∃ t, s.StartsDrain op t) ∨ (∃ t channel, s.StartsSend op t channel) ∨
      ((∀ address bytes, op ≠ .writeMemory address bytes) →
        (s.perform op).2.memory = s.memory) ∧
      (op.writesRam = false → (s.perform op).2.engine.ram = s.engine.ram) := by
  cases hwrite : op.registerWrite? with
  | some write =>
      obtain ⟨register, value⟩ := write
      rcases s.store_cases value register with
        ⟨channel, rfl⟩ | ⟨rfl, hbit⟩ | ⟨channel, rfl, harmed⟩ | ⟨hmemory, hram⟩
      · exact Or.inl ⟨_, .trigger (.receiveHead hwrite)⟩
      · exact Or.inl ⟨_, .trigger (.receiveControl hwrite hbit)⟩
      · exact Or.inr (Or.inl ⟨_, channel, .head hwrite harmed⟩)
      · rw [perform_of_registerWrite hwrite]
        exact Or.inr (Or.inr ⟨fun _ => hmemory, fun _ => hram⟩)
  | none =>
      cases op with
      | busRead offset size =>
          by_cases hread : (Operation.busRead offset size).readsRam = true
          · exact Or.inl ⟨_, .trigger (.ramRead hread)⟩
          · rw [perform, busRead_of_not_readsRam (Bool.not_eq_true _ ▸ hread)]
            exact Or.inr (Or.inr ⟨fun _ => rfl, fun _ => rfl⟩)
      | busWrite offset size value =>
          obtain ⟨⟨ram, hwritten⟩, hsame⟩ := busWrite_of_no_register (s := s) hwrite
          refine Or.inr (Or.inr ⟨fun _ => ?_, fun h => congrArg (·.engine.ram) (hsame h)⟩)
          rw [perform, hwritten, memory_mapEngine]
      | writeRegister offset value =>
          rw [Operation.registerWrite?, Option.map_eq_none_iff] at hwrite
          simp [perform, writeRegister, hwrite]
      | receive frame =>
          cases hrefusal : s.engine.intake.refusal? s.engine.settings.pendingLimit frame with
          | none => exact Or.inl ⟨_, .arrival (Engine.offer_of_none hrefusal)⟩
          | some fault =>
              have hrefused : (s.perform (.receive frame)).2 =
                  { s with engine := (s.engine.offer frame).2 } := by
                simp only [perform, receive, Engine.offer_of_refusal hrefusal]
              rw [hrefused, Engine.offer_of_refusal hrefusal]
              exact Or.inr (Or.inr ⟨fun _ => rfl, fun _ => rfl⟩)
      | poll => exact Or.inl ⟨_, .trigger .poll⟩
      | writeMemory address bytes =>
          refine Or.inr (Or.inr ⟨fun h => absurd rfl (h address bytes), fun _ => ?_⟩)
          simp only [perform, writeMemory]
          split <;> rfl
      | writeRam address words => exact Or.inr (Or.inr ⟨fun _ => rfl, fun h => by cases h⟩)
      | reset => exact Or.inr (Or.inr ⟨fun _ => rfl, fun h => by cases h⟩)
      | _ => exact Or.inr (Or.inr ⟨fun _ => rfl, fun _ => rfl⟩)

end System

end PacketDma
