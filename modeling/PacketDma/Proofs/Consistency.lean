/-
**Consistent engines.**

An engine says many things twice.  The register that enables receive is mirrored in the intake, the
register that selects an entry in the address table, and the head pointer of a receive channel in
the place where its next frame starts; queues respect the limits of the settings, and bits that only
trigger something are never stored.  About ten operations change one or the other of these places,
and all of them change both.

Main definitions:

* `PacketDma.ReceiveChannel.Consistent` — head pointer and cursor of a receive channel agree;
* `PacketDma.Engine.Consistent` — what holds of an engine between operations.

Main results:

* `PacketDma.Engine.Consistent.fill`, `PacketDma.Engine.Consistent.transmit` — a frame that is
  placed, and a frame that is sent, keep an engine consistent;
* `PacketDma.Engine.Consistent.act` — so does every action;
* `PacketDma.System.engine_stays_consistent` — **the engine is consistent at every moment**.
-/

import PacketDma.Proofs.Actions
import PacketDma.Proofs.DescriptorCodec

set_option autoImplicit false

namespace PacketDma

/-! ### Receive channels -/

/-- A receive channel knows where its next frame starts exactly while it is armed. -/
structure ReceiveChannel.Consistent (c : ReceiveChannel) : Prop where
  cursor_eq_none_iff : c.cursor = none ↔ c.head = 0
  cursor_ne_zero : c.cursor ≠ some 0

theorem ReceiveChannel.consistent_idle : ReceiveChannel.Consistent {} := by
  constructor <;> simp

theorem ReceiveChannel.consistent_arm (c : ReceiveChannel) (head : UInt32) :
    (c.arm head).Consistent := by
  by_cases hzero : head = 0
  · constructor <;> simp [arm, hzero]
  · constructor <;> simp [arm, hzero]

/-- The place behind the last segment of a walk follows from some next pointer. -/
theorem FillWalk.exists_next {ram : Aperture} {memory : Memory} {head address : UInt32}
    {offset missing : Nat} {segments : List Segment} {next : Option UInt32}
    (h : FillWalk ram memory head address offset missing segments next) :
    ∃ pointer, next = nextDescriptor pointer head := by
  induction h with
  | last taken complete => exact ⟨_, rfl⟩
  | more taken incomplete link walk ih => exact ih

/-- On an armed channel there is always a place where the next frame starts. -/
theorem nextDescriptor_consistent (pointer : UInt32) {head : UInt32} (hhead : head ≠ 0) :
    nextDescriptor pointer head ≠ none ∧ nextDescriptor pointer head ≠ some 0 := by
  constructor
  · intro hnone
    exact hhead (nextDescriptor_eq_none_iff.1 hnone).2
  · intro hzero
    exact nextDescriptor_ne_zero hzero rfl

/-! ### Consistent engines -/

namespace Register

/-- The registers whose word says something that must hold elsewhere too. -/
def isTied : Register → Bool
  | .receiveControl | .tableControl | .tableSelect | .phyAccess _ => true
  | _ => false

theorem ofIndex_tableControl : ofIndex .tableControl = .tableControl := by decide +kernel

theorem ofIndex_tableSelect : ofIndex .tableSelect = .tableSelect := by decide +kernel

/-- The registers that the engine itself writes while it moves frames are not tied. -/
theorem ne_status_of_isTied {index : RegisterIndex} (h : (ofIndex index).isTied = true) :
    index ≠ .interruptStatus ∧ index ≠ .dmaStatus := by
  constructor
  · rintro rfl
    exact absurd h (by decide +kernel)
  · rintro rfl
    exact absurd h (by decide +kernel)

/-- Transceiver registers are none of the registers of the engine. -/
theorem ne_of_ofIndex_phyAccess {i j : RegisterIndex} (h : ofIndex i = .phyAccess j) :
    i ≠ .receiveControl ∧ i ≠ .tableControl ∧ i ≠ .tableSelect := by
  refine ⟨?_, ?_, ?_⟩
  · rintro rfl
    exact Register.noConfusion (ofIndex_receiveControl.symm.trans h)
  · rintro rfl
    exact Register.noConfusion (ofIndex_tableControl.symm.trans h)
  · rintro rfl
    exact Register.noConfusion (ofIndex_tableSelect.symm.trans h)

end Register

/-- What holds of an engine between operations. -/
structure Engine.Consistent (e : Engine) : Prop where
  cursor : ∀ channel, (e.channels.receiveChannel channel).Consistent
  /-- A transmit channel is idle again when its frame has been sent. -/
  idle : ∀ channel, (e.channels.transmitChannel channel).head = 0
  /-- Frames are taken exactly while the register enables receive. -/
  gate : e.intake.accepting = true ↔ e.register .receiveControl &&& 1 ≠ 0
  /-- The selected entry is the one that the register names. -/
  selection : e.table.index = e.register .tableSelect &&& ~~~0x80000000
  /-- The bit that clears the address table is not stored. -/
  clearBit : e.register .tableControl &&& 0x40000000 = 0
  /-- The bit that starts a transaction with a transceiver is not stored. -/
  startBit : ∀ i j, Register.ofIndex i = .phyAccess j → e.register i &&& 0x80000000 = 0
  waiting : e.intake.frames.length ≤ e.settings.pendingLimit
  waitingLength : ∀ frame ∈ e.intake.frames,
    0 < frame.bytes.length ∧ frame.bytes.length ≤ maxPacketLength
  egress : e.egress.length ≤ e.settings.egressLimit
  /-- A frame to be sent may have its check sequence behind it. -/
  egressLength : ∀ frame ∈ e.egress, 0 < frame.length ∧ frame.length ≤ maxPacketLength + 4
  ramBase : e.ram.base = e.settings.ramBase.toUInt64
  ramSize : e.ram.size = e.settings.ramSize.toUInt64

namespace Engine.Consistent

variable {e : Engine}

theorem fresh (settings : AcceptedSettings) (clock : Clock) (interrupt : InterruptLine) :
    (Engine.fresh settings clock interrupt).Consistent where
  cursor channel := by
    rw [Engine.fresh, ChannelBank.receiveChannel_idle]
    exact ReceiveChannel.consistent_idle
  idle channel := by simp [Engine.fresh]
  gate := by simp [Engine.fresh, register]
  selection := by simp [Engine.fresh, register, AddressTable.zero]
  clearBit := by simp [Engine.fresh, register]
  startBit i j _ := by simp [Engine.fresh, register]
  waiting := Nat.zero_le _
  waitingLength := by simp [Engine.fresh]
  egress := Nat.zero_le _
  egressLength := by simp [Engine.fresh]
  ramBase := rfl
  ramSize := rfl

/-- A full reset leads to a consistent engine. -/
theorem reset (h : e.Consistent) : e.reset.Consistent :=
  { fresh e.settings e.clock e.interrupt with
    ramBase := h.ramBase
    ramSize := (Aperture.size_clear e.ram).trans h.ramSize }

/-! ### Registers -/

/-- Words that are not tied to anything may change. -/
theorem setRegisters (h : e.Consistent) (registers : RegisterFile)
    (hkept : ∀ index, (Register.ofIndex index).isTied = true →
      registers.get index = e.registers.get index) :
    Engine.Consistent { e with registers } where
  cursor := h.cursor
  idle := h.idle
  gate := by
    rw [register, hkept _ (by rw [Register.ofIndex_receiveControl]; rfl)]
    exact h.gate
  selection := by
    rw [register, hkept _ (by rw [Register.ofIndex_tableSelect]; rfl)]
    exact h.selection
  clearBit := by
    rw [register, hkept _ (by rw [Register.ofIndex_tableControl]; rfl)]
    exact h.clearBit
  startBit i j hphy := by
    rw [register, hkept i (by rw [hphy]; rfl)]
    exact h.startBit i j hphy
  waiting := h.waiting
  waitingLength := h.waitingLength
  egress := h.egress
  egressLength := h.egressLength
  ramBase := h.ramBase
  ramSize := h.ramSize

/-- A register that only stores a word may store any word. -/
theorem setStorage (h : e.Consistent) (index : RegisterIndex)
    (hindex : (Register.ofIndex index).isTied = false) (value : UInt32) :
    (e.setRegister index value).Consistent := by
  refine h.setRegisters _ fun i htied => RegisterFile.get_set_of_ne _ ?_ value
  rintro rfl
  rw [htied] at hindex
  cases hindex

theorem controlReceive (h : e.Consistent) (value : UInt32) : (e.controlReceive value).Consistent :=
  { h with
    gate := by
      show (value &&& 1 != 0) = true ↔ (e.registers.set .receiveControl value).get _ &&& 1 ≠ 0
      rw [RegisterFile.get_set_self, bne_iff_ne]
    selection := by
      rw [register, Engine.controlReceive, RegisterFile.get_set_of_ne _ (by decide)]
      exact h.selection
    clearBit := by
      rw [register, Engine.controlReceive, RegisterFile.get_set_of_ne _ (by decide)]
      exact h.clearBit
    startBit := fun i j hphy => by
      rw [register, Engine.controlReceive,
        RegisterFile.get_set_of_ne _ (Register.ne_of_ofIndex_phyAccess hphy).1]
      exact h.startBit i j hphy }

theorem controlTable (h : e.Consistent) (value : UInt32) : (e.controlTable value).Consistent :=
  { h with
    gate := by
      rw [register, Engine.controlTable, RegisterFile.get_set_of_ne _ (by decide)]
      exact h.gate
    selection := by
      rw [register, Engine.controlTable, RegisterFile.get_set_of_ne _ (by decide)]
      -- clearing the table keeps the index
      dsimp only
      split
      · exact h.selection
      · exact (AddressTable.index_clear _).trans h.selection
    clearBit := by
      rw [register, Engine.controlTable, RegisterFile.get_set_self, UInt32.and_assoc,
        UInt32.and_comm (~~~0x40000000)]
      simp
    startBit := fun i j hphy => by
      rw [register, Engine.controlTable,
        RegisterFile.get_set_of_ne _ (Register.ne_of_ofIndex_phyAccess hphy).2.1]
      exact h.startBit i j hphy }

theorem selectEntry (h : e.Consistent) (value : UInt32) : (e.selectEntry value).Consistent :=
  { h with
    gate := by
      rw [register, Engine.selectEntry, RegisterFile.get_set_of_ne _ (by decide)]
      exact h.gate
    selection := by
      rw [register, Engine.selectEntry, RegisterFile.get_set_self]
      rfl
    clearBit := by
      rw [register, Engine.selectEntry, RegisterFile.get_set_of_ne _ (by decide)]
      exact h.clearBit
    startBit := fun i j hphy => by
      rw [register, Engine.selectEntry,
        RegisterFile.get_set_of_ne _ (Register.ne_of_ofIndex_phyAccess hphy).2.2]
      exact h.startBit i j hphy }

/-- A write that starts a transaction with a transceiver does not store the bit that does. -/
theorem accessPhy (h : e.Consistent) {index position : RegisterIndex}
    (hphy : Register.ofIndex position = .phyAccess index) (value : UInt32) :
    (e.setRegister index (value &&& ~~~0x80000000)).Consistent := by
  obtain rfl := Register.eq_of_ofIndex (Or.inr hphy)
  obtain ⟨hreceive, hcontrol, hselect⟩ := Register.ne_of_ofIndex_phyAccess hphy
  exact
    { h with
      gate := by
        rw [register, setRegister, RegisterFile.get_set_of_ne _ hreceive.symm]
        exact h.gate
      selection := by
        rw [register, setRegister, RegisterFile.get_set_of_ne _ hselect.symm]
        exact h.selection
      clearBit := by
        rw [register, setRegister, RegisterFile.get_set_of_ne _ hcontrol.symm]
        exact h.clearBit
      startBit := fun i j hother => by
        rw [register, setRegister, RegisterFile.get_set]
        split
        · rw [UInt32.and_assoc, UInt32.and_comm (~~~0x80000000)]
          simp
        · exact h.startBit i j hother }

/-- A reset of the DMA engine idles its channels and closes the gate. -/
theorem resetDma (h : e.Consistent) : e.resetDma.Consistent :=
  have htransmit := h.setStorage .transmitControl (by decide +kernel) 0
  have hregisters := (htransmit.controlReceive 0).setStorage .dmaStatus (by decide +kernel) 0
  { hregisters with
    cursor := fun channel => by
      rw [Engine.resetDma, ChannelBank.receiveChannel_idle]
      exact ReceiveChannel.consistent_idle
    idle := fun channel => by simp [Engine.resetDma]
    waiting := Nat.zero_le _
    waitingLength := by simp [Engine.resetDma, Intake.clear] }

/-! ### Channels -/

theorem armReceive (h : e.Consistent) (channel : ChannelId) (head : UInt32) :
    (e.armReceive channel head).Consistent :=
  { h with
    cursor := fun other => by
      rw [Engine.armReceive, ChannelBank.armReceive, ChannelBank.receiveChannel_modifyReceive]
      split
      · exact ReceiveChannel.consistent_arm ..
      · exact h.cursor other }

/-! ### Frames -/

/-- A frame that arrives is taken within the limits, or refused. -/
theorem offer (h : e.Consistent) (frame : InboundFrame) : (e.offer frame).2.Consistent := by
  cases hrefusal : e.intake.refusal? e.settings.pendingLimit frame with
  | some fault =>
      rw [Engine.offer_of_refusal hrefusal]
      exact { h with }
  | none =>
      rw [Engine.offer_of_none hrefusal]
      obtain ⟨-, hpositive, hshort, hroom⟩ := (Intake.refusal?_eq_none_iff ..).1 hrefusal
      exact
        { h with
          waiting := by
            rw [List.length_append, List.length_singleton]
            exact hroom
          waitingLength := by
            intro other hother
            rcases List.mem_append.1 hother with hother | hother
            · exact h.waitingLength other hother
            · rw [List.mem_singleton.1 hother]
              exact ⟨hpositive, hshort⟩ }

/-- The oldest waiting frame may leave the queue. -/
theorem setWaiting (h : e.Consistent) {frame : InboundFrame} {rest : List InboundFrame}
    (hframes : e.intake.frames = frame :: rest) : (e.setWaiting rest).Consistent :=
  { h with
    waiting := by
      have hle := h.waiting
      rw [hframes, List.length_cons] at hle
      exact Nat.le_of_succ_le hle
    waitingLength := fun other hother =>
      h.waitingLength other (hframes ▸ List.mem_cons_of_mem _ hother) }

/-- **A frame that is placed keeps an engine consistent**: on an armed channel there is always a
place where the next frame starts. -/
theorem fill {s : System} (h : s.engine.Consistent) {frame : InboundFrame}
    (hready : s.engine.ready frame = true) : (s.fill frame).2.engine.Consistent := by
  rcases System.fill_cases s frame with
    ⟨fault, registers, stats, -, hfill, hregisters⟩ |
    ⟨plan, memory, ram, events, clock, registers, interrupt, stats, hplan, hplaced, hfill,
      hregisters⟩
  · have hkept := h.setRegisters registers fun index htied =>
      hregisters index (Register.ne_status_of_isTied htied).2
    rw [hfill]
    exact { hkept with }
  · have hkept := h.setRegisters registers fun index htied =>
      hregisters index (Register.ne_status_of_isTied htied).1
    have hhead := Engine.ready_iff.1 hready
    obtain ⟨pointer, hnext⟩ := (System.walk_of_plan hplan).exists_next
    obtain ⟨hsome, hnonzero⟩ := nextDescriptor_consistent pointer hhead
    rw [hfill]
    exact
      { hkept with
        cursor := fun channel => by
          dsimp only
          rw [ChannelBank.receiveChannel_modifyReceive]
          split
          · rw [hnext]
            exact ⟨iff_of_false hsome hhead, hnonzero⟩
          · exact h.cursor channel
        ramBase := hplaced.reports.1.1.trans h.ramBase
        ramSize := hplaced.reports.1.2.trans h.ramSize }

end Engine.Consistent

/-- A gathered frame is as long as its first descriptor says, and not empty. -/
theorem length_of_gather {ram : Aperture} {memory : Memory} {channel : Nat} {head : UInt32}
    {limit : Nat} {g : Gathered} (h : gather ram memory channel head limit = .ok g) :
    0 < g.frame.length ∧ g.frame.length ≤ maxPacketLength := by
  obtain ⟨hpositive, hwalk, -, -⟩ := gather_eq_ok_iff.1 h
  rw [hwalk.length_frame]
  refine ⟨hpositive, ?_⟩
  rw [(first_of_gather h).descriptor_eq, TransmitDescriptor.ofSlot, UInt32.toNat_toUInt16]
  exact Nat.le_trans (Nat.mod_le ..) (inside_and _ lengthMask).toNat_le

theorem Engine.length_outgoing (g : Gathered) :
    g.frame.length ≤ (outgoing g).length ∧ (outgoing g).length ≤ g.frame.length + 4 := by
  unfold outgoing
  split
  · omega
  · rw [Frame.length_withFcs]
    omega

namespace Engine.Consistent

/-- **A frame that is sent keeps an engine consistent**: the channel is idle afterwards, and what
was so before apart from the channel is so again. -/
theorem transmit {s : System} {channel : ChannelId}
    (h : (s.engine.setTransmitHead channel 0).Consistent) :
    (s.transmit channel).2.engine.Consistent := by
  cases hgather : gather s.engine.ram s.memory channel
      (s.engine.channels.transmitChannel channel).head s.engine.settings.walkLimit with
  | error fault =>
      rw [System.transmit_of_error hgather]
      exact { h with }
  | ok g =>
      obtain ⟨ram, hback, htransmit⟩ := System.exists_transmit_of_gather hgather
      obtain ⟨events, clock, registers, interrupt, stats, hemit, hregisters⟩ :=
        Engine.exists_emit { s.engine with ram } channel g
      obtain ⟨hpositive, hshort⟩ := length_of_gather hgather
      have hlength := Engine.length_outgoing g
      have hkept := h.setRegisters registers fun index htied =>
        hregisters index (Register.ne_status_of_isTied htied).1
      rw [htransmit, hemit]
      exact
        { hkept with
          idle := fun other => by
            by_cases hother : other = channel
            · subst hother
              exact head_setTransmitHead ..
            · have hidle := h.idle other
              simp only [setTransmitHead, ChannelBank.setTransmitHead,
                ChannelBank.transmitChannel_modifyTransmit_of_ne _ hother] at hidle ⊢
              exact hidle
          egress := by
            dsimp only [setTransmitHead]
            split
            · exact h.egress
            · rw [List.length_append, List.length_singleton]
              omega
          egressLength := by
            intro frame hframe
            dsimp only [setTransmitHead] at hframe
            split at hframe
            · exact h.egressLength frame hframe
            · rcases List.mem_append.1 hframe with hframe | hframe
              · exact h.egressLength frame hframe
              · rw [List.mem_singleton.1 hframe]
                omega
          ramBase := hback.elsewhere.1.1.trans h.ramBase
          ramSize := hback.elsewhere.1.2.trans h.ramSize }

/-! ### Actions -/

/-- A drain keeps an engine consistent, because every fill does. -/
theorem drain {s : System} (h : s.engine.Consistent) : s.drain.2.engine.Consistent :=
  System.drain_induction (P := fun s => s.engine.Consistent)
    (fun _ _ _ hframes hready h => (h.setWaiting hframes).fill hready) h

/-- A head pointer write of a transmit channel leaves the channel idle. -/
theorem storeTransmitHead {s : System} (h : s.engine.Consistent) (channel : ChannelId)
    (value : UInt32) : (s.store value (.transmitHead channel)).2.engine.Consistent := by
  have hidle (head : UInt32) :
      ((s.engine.setTransmitHead channel head).setTransmitHead channel 0).Consistent :=
    { h with
      idle := fun other => by
        simp only [setTransmitHead, ChannelBank.setTransmitHead_setTransmitHead]
        rw [ChannelBank.setTransmitHead, ChannelBank.transmitChannel_modifyTransmit]
        split
        · rfl
        · exact h.idle other }
  simp only [System.store]
  split
  · next hzero =>
      subst hzero
      have hsame := hidle 0
      simp only [setTransmitHead, ChannelBank.setTransmitHead_setTransmitHead] at hsame
      exact hsame
  · exact transmit (hidle value)

/-- **A write of a register keeps an engine consistent.** -/
theorem store {s : System} (h : s.engine.Consistent) (index : RegisterIndex) (value : UInt32) :
    (s.store value (.ofIndex index)).2.engine.Consistent := by
  cases hregister : Register.ofIndex index with
  | dmaReset =>
      simp only [System.store]
      split
      · exact h
      · exact h.resetDma
  | transmitHead channel => exact h.storeTransmitHead channel value
  | receiveHead channel => exact drain (s := s.mapEngine _) (h.armReceive channel value)
  | receiveControl =>
      simp only [System.store]
      split
      · exact h.controlReceive value
      · exact drain (s := s.mapEngine _) (h.controlReceive value)
  | eventPop =>
      simp only [System.store]
      split
      · exact h
      · exact { h with }
  | tableControl => exact h.controlTable value
  | tableSelect => exact h.selectEntry value
  | tableWord slot => exact { h with selection := (AddressTable.index_write ..).trans h.selection }
  | phyAccess position => exact h.accessPhy hregister value
  | storage position =>
      obtain rfl := Register.eq_of_ofIndex (Or.inl hregister)
      exact h.setStorage index (by rw [hregister]; rfl) value
  | _ => exact h

/-- **Every action keeps an engine consistent.** -/
theorem act {s : System} (h : s.engine.Consistent) {action : Action} (hpossible : action.Possible) :
    (s.act action).engine.Consistent := by
  cases action with
  | idle => exact h
  | drain => exact h.drain
  | store register value =>
      obtain ⟨index, rfl⟩ := hpossible
      exact h.store index value
  | arrive frame =>
      show (s.receive frame).2.engine.Consistent
      rcases s.receive_cases frame with hrefused | htaken
      · rw [hrefused]
        exact h.offer frame
      · rw [htaken]
        exact drain (s := s.mapEngine _) (h.offer frame)
  | queue frame => exact h.offer frame
  | takeEgress =>
      exact
        { h with
          egress := by
            have hle := h.egress
            show s.engine.egress.tail.length ≤ s.engine.settings.egressLimit
            rw [List.length_tail]
            omega
          egressLength := fun frame hframe => h.egressLength frame (List.mem_of_mem_tail hframe) }
  | reset => exact h.reset
  | pushEvent event => exact { h with }
  | popEvent => exact { h with }
  | storeRam offset bytes =>
      simp only [System.act, System.mapEngine, storeRam]
      split
      · next heq => exact { h with ramSize := (Memory.size_of_write heq).trans h.ramSize }
      · exact h
  | writeRam address words =>
      have hextent := Aperture.sameExtent_writeWords s.engine.ram address words
      exact { h with
        ramBase := hextent.1.trans h.ramBase
        ramSize := hextent.2.trans h.ramSize }
  | writeMemory address bytes =>
      simp only [System.act, System.writeMemory]
      split <;> exact h

end Engine.Consistent

/-- **The engine is consistent at every moment.**  Whatever operations follow each other on a new
engine, the settings and the extents of descriptor RAM and of the register file stay; every receive
channel knows where its next frame starts exactly while it is armed, and every transmit channel is
idle; the intake, the address table and the stored bits agree with the registers; and the queues
hold no more frames than they may, none of them empty or too long. -/
theorem System.engine_stays_consistent (settings : AcceptedSettings) (clock : Clock)
    (interrupt : InterruptLine) (memory : Memory) (ops : List Operation) :
    let e := ((⟨.fresh settings clock interrupt, memory⟩ : System).run ops).2.engine
    e.settings = settings ∧ e.registers.words.toList.length = 2048 ∧ e.Consistent := by
  intro e
  have hrun := run_induction
    (P := fun s => s.engine.settings = settings ∧ s.engine.Consistent)
    (fun s action hpossible h => ⟨(s.settings_act action).trans h.1, h.2.act hpossible⟩)
    (s := ⟨.fresh settings clock interrupt, memory⟩) ⟨rfl, .fresh settings clock interrupt⟩ ops
  exact ⟨hrun.1, Vector.length_toList .., hrun.2⟩

end PacketDma
