/-
**The address table and the packets.**

No frame looks at the address table, and nothing but the registers of the table and a full reset
reaches it.  So two engines that differ in nothing else answer alike to everything but reads of
these registers, and stay alike.  In turn the table follows from the writes of its registers and the
full resets alone.

Main definitions:

* `PacketDma.Station.Step.tableChange?`, `PacketDma.Station.Step.readsTable` — the steps that change
  the table, and those that show it.

Main results:

* `PacketDma.System.fill_withTable`, `PacketDma.System.transmit_withTable` — **packets do not meet
  the table**;
* `PacketDma.System.perform_withTable`, `PacketDma.Station.run_withTable` — **operations and
  sessions do not meet the table**;
* `PacketDma.Station.table_does_not_interfere` — **the table and the packets do not interfere**.
-/

import PacketDma.Proofs.PumpBudgets
import PacketDma.Proofs.Sessions
import PacketDma.Proofs.TablePart

set_option autoImplicit false

namespace PacketDma

variable (p : TablePart)

/-! ### Packets -/

namespace System

variable (s : System)

/-- Carrying out a plan does not meet the table. -/
theorem commit_withTable (channel : ChannelId) (frame : InboundFrame) (plan : FillPlan) :
    (s.withTable p).commit channel frame plan =
      ((s.commit channel frame plan).1, (s.commit channel frame plan).2.withTable p) := by
  unfold commit withTable
  simp only [engine_mapEngine, memory_mapEngine, Engine.withTable]
  split
  · rfl
  · split <;> rfl

/-- **Placing a frame does not meet the table.** -/
theorem fill_withTable (frame : InboundFrame) :
    (s.withTable p).fill frame = ((s.fill frame).1, (s.fill frame).2.withTable p) := by
  have hchannel : (s.withTable p).engine.channelOf frame = s.engine.channelOf frame :=
    Engine.channelOf_withTable p s.engine frame
  have hclass : (s.withTable p).engine.classOf frame = s.engine.classOf frame :=
    Engine.classOf_withTable p s.engine frame
  have hplan : (s.withTable p).engine.plan (s.withTable p).memory
        ((s.withTable p).engine.channelOf frame) frame.bytes.length =
      s.engine.plan s.memory (s.engine.channelOf frame) frame.bytes.length := by
    rw [hchannel]
    rfl
  cases h : s.engine.plan s.memory (s.engine.channelOf frame) frame.bytes.length with
  | error fault =>
      rw [fill_of_error h, fill_of_error (hplan.trans h), hchannel]
      refine congrArg (Prod.mk (some fault)) ?_
      exact congrArg (System.mk · s.memory) (Engine.countFailure_withTable ..)
  | ok plan =>
      obtain ⟨memory, ram, -, hcommit⟩ := exists_commit h
      have hcommit' := commit_withTable p s (s.engine.channelOf frame) frame plan
      rw [hcommit] at hcommit'
      rw [← congrArg ((s.withTable p).commit · frame plan) hchannel] at hcommit'
      rw [fill_of_commit h hcommit, fill_of_commit (hplan.trans h) hcommit', hclass]
      refine congrArg (Prod.mk none) ?_
      exact congrArg (System.mk · memory) (Engine.countReceived_withTable ..)

theorem drainFrames_withTable (frames : List InboundFrame) :
    drainFrames frames (s.withTable p) =
      ((drainFrames frames s).1, (drainFrames frames s).2.withTable p) := by
  induction frames generalizing s with
  | nil => rfl
  | cons frame rest ih =>
      have hready : (s.withTable p).engine.ready frame = s.engine.ready frame :=
        congrArg (fun channel => (s.engine.channels.receiveChannel channel).head != 0)
          (Engine.channelOf_withTable p s.engine frame)
      by_cases h : s.engine.ready frame = true
      · have hfill := fill_withTable p (s.mapEngine (·.setWaiting rest)) frame
        have hwaiting : (s.withTable p).mapEngine (·.setWaiting rest) =
            (s.mapEngine (·.setWaiting rest)).withTable p := rfl
        simp only [drainFrames, hready, h, if_true, hwaiting, hfill, ih]
      · have hidle : s.engine.ready frame = false := Bool.not_eq_true _ ▸ h
        rw [drainFrames_of_not_ready (hready.trans hidle), drainFrames_of_not_ready hidle]

/-- **Moving waiting frames does not meet the table.** -/
theorem drain_withTable : (s.withTable p).drain = (s.drain.1, s.drain.2.withTable p) := by
  have henabled : (s.withTable p).engine.receiveEnabled = s.engine.receiveEnabled :=
    Engine.receiveEnabled_withTable p s.engine
  have hframes : (s.withTable p).engine.intake.frames = s.engine.intake.frames := rfl
  unfold drain
  rw [henabled, hframes]
  split
  · exact drainFrames_withTable p s _
  · rfl

theorem receive_withTable (frame : InboundFrame) :
    (s.withTable p).receive frame = ((s.receive frame).1, (s.receive frame).2.withTable p) := by
  have hrefusal : (s.withTable p).engine.intake.refusal?
      (s.withTable p).engine.settings.pendingLimit frame =
    s.engine.intake.refusal? s.engine.settings.pendingLimit frame := rfl
  cases h : s.engine.intake.refusal? s.engine.settings.pendingLimit frame with
  | some fault =>
      simp only [receive, Engine.offer_of_refusal h, Engine.offer_of_refusal (hrefusal.trans h)]
      rfl
  | none =>
      simp only [receive, Engine.offer_of_none h, Engine.offer_of_none (hrefusal.trans h)]
      exact drain_withTable p (s.mapEngine (·.setWaiting (s.engine.intake.frames ++ [frame])))

/-- **Sending a frame does not meet the table.** -/
theorem transmit_withTable (channel : ChannelId) :
    (s.withTable p).transmit channel =
      ((s.transmit channel).1, (s.transmit channel).2.withTable p) := by
  cases hgather : gather s.engine.ram s.memory channel
      (s.engine.channels.transmitChannel channel).head s.engine.settings.walkLimit with
  | error fault =>
      have hgather' : gather (s.withTable p).engine.ram (s.withTable p).memory channel
        ((s.withTable p).engine.channels.transmitChannel channel).head
        (s.withTable p).engine.settings.walkLimit = .error fault := hgather
      rw [transmit_of_error hgather, transmit_of_error hgather']
      rfl
  | ok g =>
      obtain ⟨ram, hok, -⟩ := exists_handedBack hgather
      have hgather' : gather (s.withTable p).engine.ram (s.withTable p).memory channel
        ((s.withTable p).engine.channels.transmitChannel channel).head
        (s.withTable p).engine.settings.walkLimit = .ok g := hgather
      have hok' : applyEach TransmitDescriptor.encode g.returned (s.withTable p).engine.ram =
        (none, ram) := hok
      have hemit := Engine.emit_withTable p { s.engine with ram } channel g
      simp only [transmit, hgather, hgather', hok, hok']
      exact congrArg (fun e : Engine => ((none : Option DmaFault),
        System.mk (e.setTransmitHead channel 0) s.memory)) hemit

/-! ### Operations -/

/-- A write of a register does the same to everything but the table, and to the table what it says
itself. -/
theorem store_withTable (value : UInt32) (index : RegisterIndex) :
    (s.withTable p).store value (.ofIndex index) =
      ((s.store value (.ofIndex index)).1,
        (s.store value (.ofIndex index)).2.withTable
          (p.after ((Register.ofIndex index).tableChange? value))) := by
  cases hregister : Register.ofIndex index with
  | dmaReset =>
      simp only [store]
      split
      · rfl
      · exact congrArg (fun e => ((none : Option DmaFault), System.mk e s.memory))
          (Engine.resetDma_withTable p s.engine)
  | transmitHead channel =>
      simp only [store]
      split
      · rfl
      · exact transmit_withTable p (s.mapEngine (·.setTransmitHead channel value)) channel
  | receiveHead channel =>
      exact drain_withTable p (s.mapEngine (·.armReceive channel value))
  | receiveControl =>
      have hcontrol : (s.withTable p).mapEngine (·.controlReceive value) =
          (s.mapEngine (·.controlReceive value)).withTable p :=
        congrArg (System.mk · s.memory) (Engine.controlReceive_withTable p s.engine value)
      simp only [store, hcontrol]
      split
      · rfl
      · exact drain_withTable p (s.mapEngine (·.controlReceive value))
  | eventPop =>
      simp only [store]
      split <;> rfl
  | tableControl =>
      exact congrArg (fun e => ((none : Option DmaFault), System.mk e s.memory))
        (Engine.controlTable_withTable p s.engine value)
  | tableSelect =>
      exact congrArg (fun e => ((none : Option DmaFault), System.mk e s.memory))
        (Engine.selectEntry_withTable p s.engine value)
  | phyAccess position =>
      obtain rfl := Register.eq_of_ofIndex (Or.inr hregister)
      obtain ⟨-, hcontrol, hselect⟩ := Register.ne_of_ofIndex_phyAccess hregister
      exact congrArg (fun e => ((none : Option DmaFault), System.mk e s.memory))
        (Engine.setRegister_withTable p s.engine hcontrol hselect _)
  | storage position =>
      obtain rfl := Register.eq_of_ofIndex (Or.inl hregister)
      have hcontrol : index ≠ .tableControl := by
        rintro rfl
        exact Register.noConfusion (Register.ofIndex_tableControl.symm.trans hregister)
      have hselect : index ≠ .tableSelect := by
        rintro rfl
        exact Register.noConfusion (Register.ofIndex_tableSelect.symm.trans hregister)
      exact congrArg (fun e => ((none : Option DmaFault), System.mk e s.memory))
        (Engine.setRegister_withTable p s.engine hcontrol hselect value)
  | _ => rfl

/-- **What an operation does to the table does not depend on the rest, and the other way round.** -/
theorem act_withTable {action : Action} (h : action.Possible) :
    (s.withTable p).act action = (s.act action).withTable (p.after action.tableChange?) := by
  cases action with
  | store register value =>
      obtain ⟨index, rfl⟩ := h
      exact congrArg Prod.snd (store_withTable p s value index)
  | drain => exact congrArg Prod.snd (drain_withTable p s)
  | arrive frame => exact congrArg Prod.snd (receive_withTable p s frame)
  | reset => exact congrArg (System.mk · s.memory) (Engine.reset_withTable p s.engine)
  | storeRam offset bytes =>
      simp only [act, withTable, mapEngine, Engine.storeRam, Engine.withTable]
      split <;> rfl
  | writeMemory address bytes =>
      simp only [act, writeMemory, withTable, memory_mapEngine]
      split <;> rfl
  | _ => rfl

end System

/-- The register at a byte offset stands at a position. -/
theorem Register.exists_ofIndex_of_decode {offset : UInt32} {register : Register}
    (h : decode offset = some register) : ∃ index, register = ofIndex index := by
  unfold decode at h
  split at h
  · exact ⟨_, (Option.some.inj h).symm⟩
  · cases h

/-- The register that a bus access addresses stands at a position. -/
theorem BusTarget.exists_ofIndex {offset : UInt64} {width : AccessWidth} {register : Register}
    {lane : Nat} (h : decode offset width = some (.register register lane)) :
    ∃ index, register = .ofIndex index := by
  unfold decode at h
  split at h
  · cases h
  · split at h <;> cases h
    exact ⟨_, rfl⟩

namespace System

variable (s : System)

/-- An operation that shows nothing of the table answers the same whatever is in the table. -/
theorem reply_withTable {op : Operation} (h : op.readsTable = false) :
    ((s.withTable p).perform op).1 = (s.perform op).1 := by
  cases op with
  | busRead offset size =>
      simp only [perform, busRead]
      simp only [Operation.readsTable] at h
      cases hwidth : AccessWidth.ofSize? size with
      | none => rfl
      | some width =>
          rw [hwidth, Option.bind_some] at h
          cases hdecode : BusTarget.decode offset width with
          | none => simp only [hdecode]
          | some target =>
              cases target with
              | register register lane =>
                  obtain ⟨index, rfl⟩ := BusTarget.exists_ofIndex hdecode
                  rw [hdecode] at h
                  have hload := Engine.load_withTable p s.engine h
                  simp only [hdecode]
                  exact congrArg (fun value : Except DmaFault UInt32 => Reply.value
                    (((value.toOption.getD 0).toUInt64 >>> UInt64.ofNat (8 * lane)) &&& width.mask))
                    hload
              | ram inner =>
                  simp only [hdecode, drain_withTable]
                  rfl
  | busWrite offset size value => rfl
  | readRegister offset =>
      simp only [perform, Engine.readRegister]
      cases hdecode : Register.decode offset with
      | none => rfl
      | some register =>
          obtain ⟨index, rfl⟩ := Register.exists_ofIndex_of_decode hdecode
          simp only [Operation.readsTable, hdecode, Option.map_some, Option.getD_some] at h
          exact congrArg Reply.word (Engine.load_withTable p s.engine h)
  | writeRegister offset value =>
      simp only [perform, writeRegister]
      cases hdecode : Register.decode offset with
      | none => rfl
      | some register =>
          obtain ⟨index, rfl⟩ := Register.exists_ofIndex_of_decode hdecode
          simp only [store_withTable]
  | receive frame => simp only [perform, receive_withTable]
  | poll =>
      simp only [perform, poll, drain_withTable]
      rfl
  | writeMemory address bytes =>
      simp only [perform, writeMemory, withTable, memory_mapEngine]
      split <;> rfl
  | _ => rfl

/-- **An operation and the table do not meet**: the rest goes the same way whatever is in the table,
and the table takes the changes that the operation says itself. -/
theorem perform_withTable (op : Operation) :
    ((s.withTable p).perform op).2 =
      (s.perform op).2.withTable (p.after op.action.tableChange?) := by
  rw [perform_eq_act, perform_eq_act]
  exact act_withTable p s op.possible_action

end System

/-! ### Sessions -/

namespace Station.Step

variable {β : Type}

/-- What a step does to the table. -/
def tableChange? : Step β → Option TableChange
  | .engine op => op.action.tableChange?
  | _ => none

/-- Whether a step reads a register that shows something of the table. -/
def readsTable : Step β → Bool
  | .engine op => op.readsTable
  | _ => false

end Station.Step

namespace Station

variable {β : Type}

/-- A station whose engine has another part that belongs to the table. -/
def withTable (st : Station β) (p : TablePart) : Station β :=
  { st with system := st.system.withTable p }

theorem withTable_tablePart (st : Station β) : st.withTable st.system.engine.tablePart = st :=
  congrArg (fun e => (⟨⟨e, st.system.memory⟩, st.link⟩ : Station β))
    st.system.engine.withTable_tablePart

variable [Backend β]

theorem send_withTable (n : Nat) (st : Station β) :
    (st.withTable p).send n = ((st.send n).1, (st.send n).2.withTable p) := by
  induction n generalizing st with
  | zero => rfl
  | succ n ih =>
      cases h : st.system.engine.egress with
      | nil =>
          have h' : (st.withTable p).system.engine.egress = [] := h
          rw [send_of_nil h, send_of_nil h']
      | cons frame rest =>
          have h' : (st.withTable p).system.engine.egress = frame :: rest := h
          have hhanded : (st.withTable p).handOver frame rest =
              (st.handOver frame rest).withTable p := rfl
          rw [send_of_cons h, send_of_cons h', hhanded, ih]

theorem fetch_withTable (n : Nat) (st : Station β) :
    (st.withTable p).fetch n = ((st.fetch n).1, (st.fetch n).2.withTable p) := by
  induction n generalizing st with
  | zero => rfl
  | succ n ih =>
      cases h : (Backend.poll st.link).1 with
      | none =>
          have h' : (Backend.poll (st.withTable p).link).1 = none := h
          rw [fetch_of_none h, fetch_of_none h']
          rfl
      | some frame =>
          have h' : (Backend.poll (st.withTable p).link).1 = some frame := h
          have hlater := ih
            { system := (st.system.receive { bytes := frame }).2
              link := (Backend.poll st.link).2 }
          have hreceive := System.receive_withTable p st.system { bytes := frame }
          rw [fetch_of_some h, fetch_of_some h']
          dsimp only [withTable] at hreceive hlater ⊢
          rw [hreceive]
          dsimp only
          rw [hlater]

/-- A tick of the pump does not meet the table. -/
theorem tick_withTable (budget : PumpBudget) (st : Station β) :
    (st.withTable p).tick budget = ((st.tick budget).1, (st.tick budget).2.withTable p) := by
  have hretry : (st.withTable p).retry = st.retry.withTable p := by
    unfold retry withTable
    rw [System.drain_withTable]
  rw [tick_eq, tick_eq, hretry]
  dsimp only
  rw [send_withTable]
  dsimp only
  rw [fetch_withTable]

/-- A step that shows nothing of the table answers the same whatever is in the table. -/
theorem reply_withTable {step : Step β} (h : step.readsTable = false) (st : Station β) :
    ((st.withTable p).perform step).1 = (st.perform step).1 := by
  cases step with
  | engine op => exact congrArg StepReply.reply (System.reply_withTable p st.system h)
  | storeRam address bytes =>
      have hram : (st.withTable p).system.engine.ram = st.system.engine.ram := rfl
      simp only [perform, hram]
      split <;> rfl
  | tick budget => exact congrArg StepReply.moved (congrArg Prod.fst (tick_withTable p budget st))
  | _ => rfl

/-- **A step and the table do not meet.** -/
theorem perform_withTable (step : Step β) (st : Station β) :
    ((st.withTable p).perform step).2 =
      (st.perform step).2.withTable (p.after step.tableChange?) := by
  cases step with
  | engine op =>
      exact congrArg (fun system => ({ st with system } : Station β))
        (System.perform_withTable p st.system op)
  | storeRam address bytes =>
      have hram : (st.withTable p).system.engine.ram = st.system.engine.ram := rfl
      simp only [perform, hram]
      split <;> rfl
  | tick budget => exact congrArg Prod.snd (tick_withTable p budget st)
  | _ => rfl

/-- **A session and the table do not meet.** -/
theorem run_withTable (steps : List (Step β)) (st : Station β) :
    ((st.withTable p).run steps).2 =
      (st.run steps).2.withTable ((steps.filterMap Step.tableChange?).foldl TablePart.change p) := by
  induction steps generalizing st p with
  | nil => rfl
  | cons step rest ih =>
      rw [run_cons, run_cons]
      dsimp only
      rw [perform_withTable, ih]
      cases h : step.tableChange? with
      | none => rw [List.filterMap_cons_none h, TablePart.after_none]
      | some c => rw [List.filterMap_cons_some h, TablePart.after_some, List.foldl_cons]

/-- The steps of a session that show nothing of the table answer the same whatever is in it. -/
theorem replies_withTable (steps : List (Step β)) (st : Station β) {i : Nat} {step : Step β}
    (hstep : steps[i]? = some step) (h : step.readsTable = false) :
    ((st.withTable p).run steps).1[i]? = (st.run steps).1[i]? := by
  induction steps generalizing st p i with
  | nil => cases hstep
  | cons first rest ih =>
      rw [run_cons, run_cons]
      cases i with
      | zero =>
          cases hstep
          exact congrArg some (reply_withTable p h st)
      | succ i =>
          rw [List.getElem?_cons_succ, List.getElem?_cons_succ, perform_withTable]
          exact ih (p.after first.tableChange?) (st.perform first).2 hstep

/-- **A session does to the table what its steps say**, one after the other. -/
theorem tablePart_run (steps : List (Step β)) (st : Station β) :
    (st.run steps).2.system.engine.tablePart =
      (steps.filterMap Step.tableChange?).foldl TablePart.change st.system.engine.tablePart := by
  -- the station is its own variant with the part that it has
  have hself := run_withTable st.system.engine.tablePart steps st
  rw [withTable_tablePart] at hself
  have hpart := congrArg (fun last : Station β => last.system.engine.tablePart) hself
  exact hpart.trans (Engine.tablePart_withTable _ _)

/-- **The table and the packets do not interfere.**  Take any two stations that differ in nothing
but the entries and the index of the address table and the words stored in the registers that
control it and select an entry, and let the same session happen on both.  Every step that does not
read one of the registers of the table answers the same on both, and the two stations still differ
in nothing else.  In turn the entries and the index follow from the ones at the start, the full
resets and the writes of the registers of the table, in their order, and from nothing else. -/
theorem table_does_not_interfere (st : Station β) (p : TablePart) (steps : List (Step β)) :
    (∀ (i : Nat) (step : Step β), steps[i]? = some step → step.readsTable = false →
      ((st.withTable p).run steps).1[i]? = (st.run steps).1[i]?) ∧
    ((st.withTable p).run steps).2 =
      (st.run steps).2.withTable ((steps.filterMap Step.tableChange?).foldl TablePart.change p) ∧
    (st.run steps).2.system.engine.table =
      (steps.filterMap Step.tableChange?).foldl AddressTable.change st.system.engine.table := by
  refine ⟨fun i step hstep h => replies_withTable p steps st hstep h, run_withTable p steps st, ?_⟩
  have htable := congrArg TablePart.table (tablePart_run steps st)
  exact htable.trans (TablePart.table_foldl_change st.system.engine.tablePart _)

/-- Software writes a word of the selected entry, and a frame arrives and is refused.  The frame is
refused whatever is in the table, and the word is written where the index says. -/
theorem frame_beside_a_table_write :
    let st : Station := ⟨System.small, Link.detached⟩
    let p : TablePart := ⟨AddressTable.zero.select 7, 1, 7⟩
    let steps : List (Step Link) :=
      [.engine (.writeRegister 0xD34 5), .engine (.receive { bytes := [1] })]
    ((st.withTable p).run steps).1[1]? = (st.run steps).1[1]? ∧
    ((st.withTable p).run steps).2 = (st.run steps).2.withTable (p.change (.word 2 5)) ∧
    (p.change (.word 2 5)).table.word 7 2 = 5 ∧
    (st.run steps).2.system.engine.table = AddressTable.zero.write 2 5 := by
  intro st p steps
  obtain ⟨hreplies, hlast, htable⟩ := table_does_not_interfere st p steps
  have hchanges : steps.filterMap Step.tableChange? = [.word 2 5] := by decide +kernel
  rw [hchanges] at hlast htable
  exact ⟨hreplies 1 _ rfl (by decide +kernel), hlast, by decide +kernel, htable⟩

end Station

end PacketDma
