/-
**Registers read back.**

Most registers of the window store a word for software, and show it again when they are read.  A few
of them do not store all of it, and the engine writes three of them itself: a reset of the DMA engine
disables transmit and receive, and every timestamp event is announced in the interrupt status.  A
history lists the words that have been written and the events; the registers then show what has been
written to them last, and nothing else that happens changes them.

Main definitions:

* `PacketDma.ReadsBack` — the offsets whose registers show what has been written;
* `PacketDma.RegisterEntry.leaves` — what an entry of a history leaves in a register;
* `PacketDma.RegisterFile.command` — what a write does to the stored words;
* `PacketDma.Engine.Announced` — what frames that pass do to them;
* `PacketDma.System.registerEntries` — the entries of an operation.

Main results:

* `PacketDma.System.announced_store` — a write does its own part, and then frames pass;
* `PacketDma.System.recalls_perform` — every operation keeps registers and history together;
* `PacketDma.System.registers_read_back` — **the registers show what has been written to them
  last**.
-/

import PacketDma.Proofs.RegisterHistory
import PacketDma.Proofs.TimestampLog

set_option autoImplicit false

namespace PacketDma

/-! ### What registers should show -/

/-- The registers that show what has been written: all but those that reset something, the channel
pointers, the failure status, the event registers and the words of the address table. -/
def ReadsBack (offset : UInt32) : Prop :=
  offset.toNat % 4 = 0 ∧ offset.toNat < 0x2000 ∧
    ¬ (0xA00 ≤ offset.toNat ∧ offset.toNat < 0xA80) ∧
    offset.toNat ∉ [0x008, 0x81C, 0xD8C, 0xDCC, 0x1204, 0x824, 0xC20, 0xC24, 0xC30, 0xC34, 0xC38,
      0xD34, 0xD38, 0xD3C]

instance : DecidablePred ReadsBack := fun _ => inferInstanceAs (Decidable (_ ∧ _))

/-- The bits of a written word that a register shows: the register that controls the address table
does not keep the bit that clears it, and the transceiver registers keep neither the bit that starts
a transaction nor data. -/
def keptBits (offset : UInt32) : UInt32 :=
  match offset.toNat with
  | 0xD08 => 0xBFFFFFFF
  | 0x1080 | 0x1088 => 0x7FFF0000
  | _ => 0xFFFFFFFF

/-- What can happen to the registers. -/
inductive RegisterEntry where
  /-- A word is written at an offset. -/
  | written (offset word : UInt32)
  /-- A frame passes, and a timestamp event is queued. -/
  | stamped
deriving DecidableEq, Repr

/-- The word that an entry leaves in the register at an offset, if it concerns the register. -/
def RegisterEntry.leaves (offset : UInt32) : RegisterEntry → Option UInt32
  | .written other word =>
      if other = offset then some (word &&& keptBits offset)
      else if other = 0x81C ∧ word &&& 1 ≠ 0 ∧ (offset = 0x804 ∨ offset = 0x814) then some 0
      else none
  | .stamped => if offset = 0x124C then some 0x10 else none

open RegisterEntry

/-! ### Registers that store a word -/

namespace Register

/-- The position of the word that a register stores for software, if it stores one. -/
def word? : Register → Option RegisterIndex
  | .receiveControl => some .receiveControl
  | .tableControl => some .tableControl
  | .tableSelect => some .tableSelect
  | .phyAccess index | .storage index => some index
  | _ => none

/-- The bits of a word that a register stores. -/
def storedBits : Register → UInt32
  | .tableControl => 0xBFFFFFFF
  | .phyAccess _ => 0x7FFFFFFF
  | _ => 0xFFFFFFFF

/-- The bits of the stored word that a register shows. -/
def shownBits : Register → UInt32
  | .phyAccess _ => 0xFFFF0000
  | _ => 0xFFFFFFFF

theorem and_ones (bits : UInt32) : bits &&& 0xFFFFFFFF = bits := UInt32.and_neg_one

theorem word?_ofPointerOffset (offset : Nat) : (ofPointerOffset offset).word? = none := by
  unfold ofPointerOffset
  dsimp only
  split <;> rfl

/-- **The registers that store a word are those that read back**, and of a written word they show
the bits that they store and do not hide. -/
theorem word?_ofIndex (index : RegisterIndex) :
    ReadsBack index.offset ∧ (ofIndex index).word? = some index ∧
        (ofIndex index).storedBits &&& (ofIndex index).shownBits = keptBits index.offset ∨
      ¬ ReadsBack index.offset ∧ (ofIndex index).word? = none := by
  have hwindow : 4 * index.val < 0x2000 := by omega
  have hphy : (0x7FFFFFFF : UInt32) &&& 0xFFFF0000 = 0x7FFF0000 := rfl
  unfold ReadsBack keptBits ofIndex
  rw [RegisterIndex.toNat_offset]
  split
  · next hpointer => exact Or.inr ⟨fun h => h.2.2.1 hpointer, word?_ofPointerOffset _⟩
  · -- one case for each line of the map
    split <;> simp_all [word?, storedBits, shownBits, and_ones, Fin.ext_iff]
    · show 0x814 / 4 = index.val
      omega
    · show 0xD08 / 4 = index.val
      omega
    · show 0xD20 / 4 = index.val
      omega

variable {register : Register} {index : RegisterIndex}

theorem load_of_word (h : register.word? = some index) (e : Engine) :
    e.load register = .ok (e.register index &&& register.shownBits) := by
  cases register with
  | phyAccess position =>
      cases h
      rfl
  | receiveControl | tableControl | tableSelect | storage =>
      cases h
      exact congrArg Except.ok (and_ones _).symm
  | _ => cases h

end Register

/-- What a write of a register does by itself to the stored words. -/
def RegisterFile.command (words : RegisterFile) (value : UInt32) (register : Register) :
    RegisterFile :=
  match register.word? with
  | some index => words.set index (value &&& register.storedBits)
  | none =>
      if register = .dmaReset ∧ value &&& 1 ≠ 0 then
        ((words.set .transmitControl 0).set .receiveControl 0).set .dmaStatus 0
      else words

/-- The stored words and the count of events, when frames have passed and `count` events have been
queued for them. -/
structure Engine.Announced (e : Engine) (words : RegisterFile) (events count : Nat) : Prop where
  others : ∀ index, index ≠ .interruptStatus → index ≠ .dmaStatus →
    e.register index = words.get index
  status : e.register .interruptStatus =
    if count = 0 then words.get .interruptStatus else eventAnnounced
  events : e.stats.events = events + count

/-! ### Words and histories -/

/-- The stored words show what a history says. -/
def RegisterFile.Shows (words : RegisterFile) (past : List RegisterEntry) : Prop :=
  ∀ index, (Register.ofIndex index).word? = some index →
    words.get index &&& (Register.ofIndex index).shownBits =
      (lastSaid (leaves index.offset) past).getD 0

/-- What a write at one position leaves in the register at another. -/
theorem RegisterEntry.leaves_written (index other : RegisterIndex) (value : UInt32) :
    leaves other.offset (.written index.offset value) =
      if index = other then some (value &&& keptBits other.offset)
      else if Register.ofIndex index = .dmaReset ∧ value &&& 1 ≠ 0 ∧
        (other = .transmitControl ∨ other = .receiveControl) then some 0
      else none := by
  have htransmit : (0x804 : UInt32) = RegisterIndex.transmitControl.offset := rfl
  have hreceive : (0x814 : UInt32) = RegisterIndex.receiveControl.offset := rfl
  simp only [leaves, Register.ofIndex_eq_dmaReset_iff, htransmit, hreceive, RegisterIndex.offset_inj]

namespace RegisterFile.Shows

variable {words : RegisterFile} {past : List RegisterEntry}

theorem zero_nil : RegisterFile.zero.Shows [] := by
  intro index _
  rw [get_zero, UInt32.zero_and]
  rfl

/-- A register that stores a word is none of those that store none. -/
theorem ne_of_word {i j : RegisterIndex} (hi : (Register.ofIndex i).word? = some i)
    (hj : (Register.ofIndex j).word? = none) : i ≠ j := by
  rintro rfl
  cases hi.symm.trans hj

theorem word?_dmaStatus : (Register.ofIndex .dmaStatus).word? = none := by decide +kernel

/-- A reset of the DMA engine alone disables transmit and receive. -/
theorem get_reset (words : RegisterFile) {index : RegisterIndex} (h : index ≠ .dmaStatus) :
    (((words.set .transmitControl 0).set .receiveControl 0).set .dmaStatus 0).get index =
      if index = .transmitControl ∨ index = .receiveControl then 0 else words.get index := by
  rw [get_set_of_ne _ h, get_set, get_set]
  by_cases hreceive : index = .receiveControl <;> simp [hreceive]

/-- **A write of a word** leaves in the registers what its entry does. -/
theorem command (h : words.Shows past) (index : RegisterIndex) (value : UInt32) :
    (words.command value (Register.ofIndex index)).Shows
      (past ++ [.written index.offset value]) := by
  intro other hother
  rw [lastSaid_concat, leaves_written, RegisterFile.command]
  rcases Register.word?_ofIndex index with ⟨-, hword, hbits⟩ | ⟨-, hword⟩
  · rw [hword]
    by_cases hsame : index = other
    · subst hsame
      rw [get_set_self, UInt32.and_assoc, hbits, if_pos rfl]
      rfl
    · have hreset : Register.ofIndex index ≠ .dmaReset := fun hreset => by
        rw [hreset] at hword
        cases hword
      rw [get_set_of_ne _ (Ne.symm hsame), if_neg hsame, if_neg fun h => hreset h.1]
      exact h other hother
  · have hsame : index ≠ other := (ne_of_word hother hword).symm
    rw [hword, if_neg hsame]
    by_cases hreset : Register.ofIndex index = .dmaReset ∧ value &&& 1 ≠ 0
    · dsimp only
      rw [if_pos hreset, get_reset words (ne_of_word hother word?_dmaStatus)]
      by_cases hcontrol : other = .transmitControl ∨ other = .receiveControl
      · rw [if_pos hcontrol, if_pos ⟨hreset.1, hreset.2, hcontrol⟩, UInt32.zero_and]
        rfl
      · rw [if_neg hcontrol, if_neg fun h => hcontrol h.2.2]
        exact h other hother
    · dsimp only
      rw [if_neg hreset, if_neg fun h => hreset ⟨h.1, h.2.1⟩]
      exact h other hother

/-- **Frames that pass** leave their events in the history. -/
theorem announced (h : words.Shows past) {e : Engine} {events count : Nat}
    (hannounced : e.Announced words events count) :
    e.registers.Shows (past ++ List.replicate count .stamped) := by
  intro index hindex
  rw [lastSaid_append, lastSaid, List.reverse_replicate, List.findSome?_replicate]
  by_cases hstatus : index = .interruptStatus
  · subst hstatus
    have hword := hannounced.status
    by_cases hcount : count = 0
    · rw [if_pos hcount] at hword ⊢
      rw [← Engine.register, hword]
      exact h _ hindex
    · rw [if_neg hcount] at hword ⊢
      have hsaid : leaves RegisterIndex.interruptStatus.offset .stamped = some 0x10 := rfl
      have hshown : (Register.ofIndex .interruptStatus).shownBits = 0xFFFFFFFF := by
        decide +kernel
      rw [← Engine.register, hword, hsaid, hshown]
      rfl
  · have hsilent : leaves index.offset .stamped = none :=
      if_neg fun heq => hstatus (RegisterIndex.offset_inj.1 heq)
    have hword := hannounced.others index hstatus (ne_of_word hindex word?_dmaStatus)
    rw [hsilent, ite_self, ← Engine.register, hword]
    exact h index hindex

end RegisterFile.Shows

/-! ### Frames that pass -/

/-- What a frame that passes does to the interrupt status and the count of events. -/
def Passage.announce (signal : UInt32 × Nat) (p : Passage) : UInt32 × Nat :=
  if p.isStamped then (Engine.eventAnnounced, signal.2 + 1) else signal

theorem Passage.foldl_announce (passages : List Passage) (signal : UInt32 × Nat) :
    passages.foldl announce signal =
      (if passages.countP isStamped = 0 then signal.1 else Engine.eventAnnounced,
        signal.2 + passages.countP isStamped) := by
  induction passages generalizing signal with
  | nil => rfl
  | cons p rest ih =>
      rw [List.foldl_cons, ih, announce, List.countP_cons]
      by_cases hstamped : p.isStamped = true
      · simp [hstamped, Nat.add_comm, Nat.add_left_comm]
      · simp [hstamped]

namespace Engine

/-- The interrupt status and the count of events. -/
def signal (e : Engine) : UInt32 × Nat := (e.register .interruptStatus, e.stats.events)

theorem signal_stampFrame (e : Engine) (frameClass : FrameClass) (port : UInt8) (kind : EventKind)
    (frame : Frame) :
    (e.stampFrame frameClass port kind frame).signal =
      Passage.announce e.signal ⟨frameClass, e.register .eventEnable, port, kind, frame⟩ := by
  unfold stampFrame Passage.announce
  by_cases h : frameClass = .ptp ∧ e.stampsEnabled = true
  · rw [if_pos h, if_pos ((isStamped_iff ..).2 h)]
    exact Prod.ext (RegisterFile.get_set_self ..) rfl
  · rw [if_neg h, if_neg (mt (isStamped_iff ..).1 h)]

theorem signal_enqueueEgress (e : Engine) (frame : Frame) :
    (e.enqueueEgress frame).signal = e.signal := by
  unfold enqueueEgress
  split <;> rfl

theorem signal_countFailure (e : Engine) (channel : ChannelId) (fault : DmaFault) :
    (e.countFailure channel fault).signal = e.signal := by
  cases fault with
  | overrun | ringExhausted => exact Prod.ext (RegisterFile.get_set_of_ne _ (by decide) _) rfl
  | _ => rfl

theorem signal_countReceived (e : Engine) (frameClass : FrameClass) (frame : Frame) :
    (e.countReceived frameClass frame).signal =
      Passage.announce e.signal ⟨frameClass, e.register .eventEnable, receivePort, .received, frame⟩ :=
  signal_stampFrame { e with stats := { e.stats with received := e.stats.received + 1 } } ..

theorem signal_emit (e : Engine) (channel : ChannelId) (g : Gathered) :
    (e.emit channel g).signal =
      Passage.announce e.signal
        ⟨e.classify g.frame, e.register .eventEnable, g.first.toPort, .transmitted, g.frame⟩ := by
  unfold emit
  rw [signal_enqueueEgress, signal_stampFrame]
  rfl

/-- Where no frame passes, nothing is announced. -/
theorem Announced.of_same {e : Engine} {words : RegisterFile} {events : Nat}
    (hwords : e.registers = words) (hevents : e.stats.events = events) :
    e.Announced words events 0 := by
  subst hwords hevents
  exact ⟨fun _ _ _ => rfl, rfl, rfl⟩

theorem Announced.of_signal {e : Engine} {words : RegisterFile} {events : Nat}
    {passages : List Passage}
    (hothers : ∀ index, index ≠ .interruptStatus → index ≠ .dmaStatus →
      e.register index = words.get index)
    (hsignal : e.signal =
      passages.foldl Passage.announce (words.get .interruptStatus, events)) :
    e.Announced words events (passages.countP Passage.isStamped) := by
  rw [Passage.foldl_announce] at hsignal
  obtain ⟨hstatus, hevents⟩ := Prod.mk.inj hsignal
  exact ⟨hothers, hstatus, hevents⟩

end Engine

namespace System

theorem signal_fill (s : System) (frame : InboundFrame) :
    (s.fill frame).2.engine.signal =
      (s.receipt frame).foldl Passage.announce s.engine.signal := by
  cases hplan : s.engine.plan s.memory (s.engine.channelOf frame) frame.bytes.length with
  | error fault =>
      rw [receipt, fill_of_error hplan]
      exact Engine.signal_countFailure ..
  | ok plan =>
      obtain ⟨memory, ram, -, hfill⟩ := exists_fill_of_plan hplan
      rw [receipt, hfill]
      exact Engine.signal_countReceived ..

/-- **A drain** leaves the words alone, but for those that say what has happened. -/
theorem announced_drain (s : System) :
    s.drain.2.engine.Announced s.engine.registers s.engine.stats.events
      (s.receipts.countP Passage.isStamped) :=
  .of_signal (sameRules_drain s).registers (foldl_drain (fun _ _ => rfl) signal_fill s)

/-- **A transmission** leaves the words alone, but for those that say what has happened. -/
theorem announced_transmit (s : System) (channel : ChannelId) :
    (s.transmit channel).2.engine.Announced s.engine.registers s.engine.stats.events
      ((s.departure channel (s.engine.channels.transmitChannel channel).head).countP
        Passage.isStamped) := by
  cases hgather : gather s.engine.ram s.memory channel
      (s.engine.channels.transmitChannel channel).head s.engine.settings.walkLimit with
  | error fault =>
      rw [transmit_of_error hgather, departure, hgather]
      exact .of_same rfl rfl
  | ok g =>
      obtain ⟨ram, -, htransmit⟩ := exists_transmit_of_gather hgather
      obtain ⟨_, _, _, _, _, hemit, hothers⟩ :=
        { s.engine with ram }.exists_emit channel g
      have hsignal := { s.engine with ram }.signal_emit channel g
      rw [hemit] at hsignal
      rw [htransmit, departure, hgather, hemit]
      exact .of_signal (fun index hindex _ => hothers index hindex) hsignal

/-! ### Operations -/

/-- How many events an action queues for frames that pass. -/
def stampCount (s : System) (action : Action) : Nat :=
  ((s.timestampEntries action).flatMap TimestampEntry.passages).countP Passage.isStamped

/-- The entries of an operation: the word that it writes, and then the events that it queues. -/
def registerEntries (s : System) (op : Operation) : List RegisterEntry :=
  op.wordWrite?.toList.map (fun w => .written w.1 w.2) ++
    List.replicate (s.stampCount op.action) .stamped

variable {s : System}

theorem flatMap_passages (passages : List Passage) :
    (passages.map TimestampEntry.passed).flatMap TimestampEntry.passages = passages := by
  rw [List.flatMap_map]
  exact List.flatMap_singleton' passages

/-- **A write of a register** does its own part to the words, and then frames pass. -/
theorem announced_store (s : System) (value : UInt32) (register : Register) :
    (s.store value register).2.engine.Announced (s.engine.registers.command value register)
      s.engine.stats.events (s.stampCount (.store register value)) := by
  cases register with
  | transmitHead channel =>
      simp only [store, stampCount, timestampEntries, storeEntries]
      split
      · exact .of_same rfl rfl
      · have hsent := announced_transmit (s.mapEngine (·.setTransmitHead channel value)) channel
        rw [engine_mapEngine, Engine.head_setTransmitHead] at hsent
        rw [flatMap_passages]
        exact hsent
  | receiveHead channel =>
      simp only [store, stampCount, timestampEntries, storeEntries, flatMap_passages]
      exact announced_drain (s.mapEngine (·.armReceive channel value))
  | receiveControl =>
      simp only [store, stampCount, timestampEntries, storeEntries]
      have hcommand : s.engine.registers.command value .receiveControl =
          (s.engine.controlReceive value).registers :=
        congrArg (s.engine.registers.set .receiveControl) (Register.and_ones value)
      rw [hcommand]
      split
      · exact .of_same rfl rfl
      · rw [flatMap_passages]
        exact announced_drain (s.mapEngine (·.controlReceive value))
  | dmaReset =>
      simp only [store]
      by_cases hbit : value &&& 1 = 0
      · have hcommand : s.engine.registers.command value .dmaReset = s.engine.registers :=
          if_neg fun h => h.2 hbit
        rw [if_pos hbit, hcommand]
        exact .of_same rfl rfl
      · have hcommand : s.engine.registers.command value .dmaReset =
            s.engine.resetDma.registers := if_pos ⟨rfl, hbit⟩
        rw [if_neg hbit, hcommand]
        exact .of_same rfl rfl
  | eventPop =>
      -- an event that software removes is no frame that passes
      have hnone : s.stampCount (.store .eventPop value) = 0 := by
        simp only [stampCount, timestampEntries, storeEntries]
        split
        · rfl
        · cases s.engine.events.pop.1 <;> rfl
      rw [hnone]
      simp only [store]
      split <;> exact .of_same rfl rfl
  | storage index =>
      exact .of_same (congrArg (s.engine.registers.set index) (Register.and_ones value).symm) rfl
  | tableSelect =>
      exact .of_same (congrArg (s.engine.registers.set .tableSelect) (Register.and_ones value).symm)
        rfl
  | tableControl => exact .of_same rfl rfl
  | phyAccess index => exact .of_same rfl rfl
  | _ => exact .of_same rfl rfl

/-- A frame that arrives leaves the words alone, but for those that say what has happened. -/
theorem announced_receive (s : System) (frame : InboundFrame) :
    (s.receive frame).2.engine.Announced s.engine.registers s.engine.stats.events
      (s.stampCount (.arrive frame)) := by
  have hoffer : (s.engine.offer frame).2.registers = s.engine.registers ∧
      (s.engine.offer frame).2.stats = s.engine.stats := ⟨rfl, rfl⟩
  simp only [receive, stampCount, timestampEntries, arrivalEntries]
  cases heq : s.engine.offer frame with
  | mk fault engine =>
      rw [heq] at hoffer
      obtain ⟨hwords, hstats⟩ := hoffer
      cases fault with
      | none =>
          rw [← hwords, ← hstats]
          dsimp only
          rw [flatMap_passages]
          exact announced_drain { s with engine }
      | some fault => exact .of_same hwords (congrArg EngineStats.events hstats)

/-- An action that writes no register leaves the words alone, but for those that say what has
happened. -/
theorem announced_act {action : Action} (hreset : action ≠ .reset)
    (hstore : ∀ register value, action ≠ .store register value) :
    (s.act action).engine.Announced s.engine.registers s.engine.stats.events
      (s.stampCount action) := by
  cases action with
  | reset => exact absurd rfl hreset
  | store register value => exact absurd rfl (hstore register value)
  | drain =>
      simp only [stampCount, timestampEntries, flatMap_passages]
      exact announced_drain s
  | arrive frame => exact announced_receive s frame
  | storeRam offset bytes =>
      simp only [act, mapEngine, Engine.storeRam]
      split <;> exact .of_same rfl rfl
  | writeMemory address bytes =>
      simp only [act, writeMemory]
      split <;> exact .of_same rfl rfl
  | _ => exact .of_same rfl rfl

/-- The registers show what a history says, and it holds as many events as the engine counts. -/
structure Recalls (past : List RegisterEntry) (s : System) : Prop where
  words : s.engine.registers.Shows past
  events : s.engine.stats.events = past.count .stamped

theorem Recalls.of_announced {past : List RegisterEntry} {words : RegisterFile}
    {events count : Nat} (hwords : words.Shows past) (hevents : events = past.count .stamped)
    (h : s.engine.Announced words events count) :
    s.Recalls (past ++ List.replicate count .stamped) where
  words := hwords.announced h
  events := by rw [h.events, hevents, List.count_append, List.count_replicate_self]

/-- **Every operation keeps registers and history together.** -/
theorem recalls_perform {past : List RegisterEntry} (h : s.Recalls past) {op : Operation}
    (hop : op ≠ .reset) : (s.perform op).2.Recalls (past ++ s.registerEntries op) := by
  rw [perform_eq_act, registerEntries, ← List.append_assoc]
  cases hwrite : op.wordWrite? with
  | none =>
      have hannounced := announced_act (s := s) (mt Operation.action_eq_reset_iff.1 hop)
        (Operation.action_ne_store_of_no_word hwrite)
      rw [Option.toList_none, List.map_nil, List.append_nil]
      exact .of_announced h.words h.events hannounced
  | some write =>
      obtain ⟨index, hoffset, haction⟩ := Operation.exists_store_of_wordWrite hwrite
      have hwritten := h.words.command index write.2
      rw [hoffset] at hwritten
      have hevents : s.engine.stats.events =
          (past ++ [RegisterEntry.written write.1 write.2]).count .stamped := by
        rw [h.events, List.count_append]
        rfl
      rw [haction]
      exact .of_announced hwritten hevents (announced_store s write.2 (.ofIndex index))

/-- After a full reset there is nothing to show. -/
theorem recalls_reset (s : System) : (s.mapEngine (·.reset)).Recalls [] where
  words := RegisterFile.Shows.zero_nil
  events := rfl

/-- **Every run keeps registers and history together.** -/
theorem recalls_run (h : s.Recalls []) (ops : List Operation) :
    (s.run ops).2.Recalls (s.history registerEntries ops) :=
  history_induction (I := fun past s => s.Recalls past) recalls_reset
    (fun _ _ _ hop h => recalls_perform h hop) h ops

/-! ### What is read -/

variable {past : List RegisterEntry} {offset : UInt32}

/-- **What the registers read** when they show what a history says. -/
theorem readRegister_of_recalls (h : s.Recalls past) (hoffset : ReadsBack offset) :
    s.engine.readRegister offset = .ok ((lastSaid (leaves offset) past).getD 0) := by
  obtain ⟨index, rfl⟩ := RegisterIndex.exists_offset hoffset.1 hoffset.2.1
  rcases Register.word?_ofIndex index with ⟨-, hword, -⟩ | ⟨hnot, -⟩
  · rw [Engine.readRegister, index.decode_offset]
    show s.engine.load _ = _
    rw [Register.load_of_word hword, Engine.register, h.words index hword]
  · exact absurd hoffset hnot

/-- An operation that changes what a register reads says so in the history. -/
theorem cause_of_ne {op : Operation} (h : s.Recalls past) (hoffset : ReadsBack offset)
    (hne : (s.perform op).2.engine.readRegister offset ≠ s.engine.readRegister offset) :
    op = .reset ∨ (∃ word, op.wordWrite? = some (offset, word)) ∨
      (∃ word, op.wordWrite? = some (0x81C, word) ∧ word &&& 1 ≠ 0 ∧
        (offset = 0x804 ∨ offset = 0x814)) ∨
      (offset = 0x124C ∧ s.engine.stats.events < (s.perform op).2.engine.stats.events) := by
  by_cases hop : op = .reset
  · exact Or.inl hop
  have hnext := recalls_perform h hop
  rw [readRegister_of_recalls h hoffset, readRegister_of_recalls hnext hoffset] at hne
  obtain ⟨entry, hentry, word, hleft⟩ :=
    exists_of_lastSaid_ne fun heq => hne (by rw [heq])
  cases entry with
  | written other value =>
      have hwrite : op.wordWrite? = some (other, value) := by
        rcases List.mem_append.1 hentry with hwritten | hstamped
        · obtain ⟨write, hwrite, heq⟩ := List.mem_map.1 hwritten
          cases heq
          exact Option.mem_toList.1 hwrite
        · cases (List.mem_replicate.1 hstamped).2
      simp only [leaves] at hleft
      split at hleft
      · next hsame => exact Or.inr (Or.inl ⟨value, hsame ▸ hwrite⟩)
      · split at hleft
        · next hreset =>
            obtain ⟨rfl, hbit, hcontrol⟩ := hreset
            exact Or.inr (Or.inr (Or.inl ⟨value, hwrite, hbit, hcontrol⟩))
        · cases hleft
  | stamped =>
      have hmore : 0 < (s.registerEntries op).count .stamped := List.count_pos_iff.2 hentry
      have hevents := hnext.events
      rw [List.count_append, ← h.events] at hevents
      have hsaid : offset = 0x124C := (Option.ite_none_right_eq_some.1 hleft).1
      exact Or.inr (Or.inr (Or.inr ⟨hsaid, by omega⟩))

/-- A bus write of a size that the bus does not know, one that is not aligned, and one beyond the
window change nothing at all. -/
theorem busWrite_of_refused {offset value : UInt64} {size : Nat}
    (h : ¬ (size = 1 ∨ size = 2 ∨ size = 4) ∨ offset.toNat % size ≠ 0 ∨
      0x4000 ≤ offset.toNat) : s.busWrite offset size value = s := by
  cases hwidth : AccessWidth.ofSize? size with
  | none => exact s.busWrite_of_unsupported offset value hwidth
  | some width =>
      obtain rfl := AccessWidth.bytes_of_ofSize? hwidth
      have htarget : BusTarget.decode offset width = none :=
        if_pos (h.resolve_left (not_not_intro width.bytes_cases))
      simp only [busWrite, hwidth, htarget]

/-- The register that says whether an event is queued and announced is the one that says whether an
event is queued, masked by the bit that enables events. -/
theorem readRegister_eventMasked (e : Engine) :
    ∃ raw enable, e.readRegister 0xC20 = .ok raw ∧ e.readRegister 0xC28 = .ok enable ∧
      e.readRegister 0xC24 = .ok (raw &&& (enable &&& 1)) := by
  have hraw : Register.decode 0xC20 = some .eventRaw := by decide +kernel
  have hmasked : Register.decode 0xC24 = some .eventMasked := by decide +kernel
  have henable : Register.decode 0xC28 = some (.storage .eventEnable) := by decide +kernel
  refine ⟨e.eventPending, e.register .eventEnable, ?_, ?_, ?_⟩
  · rw [Engine.readRegister, hraw]
    rfl
  · rw [Engine.readRegister, henable]
    rfl
  · have hbit : e.eventPending &&& 1 = e.eventPending := by
      unfold Engine.eventPending
      split <;> rfl
    rw [Engine.readRegister, hmasked, UInt32.and_comm (e.register .eventEnable), ← UInt32.and_assoc,
      hbit]
    rfl

/-! ### Runs -/

/-- **The registers show what has been written to them last.**  At every moment of a run of a new
engine, each register that reads back shows the last word written to it since the last full reset,
less the bits that it does not keep, and zero if there is none; a byte or a half counts as a word
that is zero elsewhere.  A reset of the DMA engine alone zeroes the registers that enable transmit
and receive, and every timestamp event that the engine counts sets the interrupt status.

Whatever happens next changes what such a register reads only if it is a full reset, a write of this
very register, a reset of the DMA engine, or an event; a bus write of any other size, one that is
not aligned, and one beyond the window change nothing at all; and the masked event register is the
raw one, masked by the bit that enables events. -/
theorem registers_read_back (settings : AcceptedSettings) (clock : Clock)
    (interrupt : InterruptLine) (memory : Memory) (ops : List Operation) :
    let s : System := ⟨.fresh settings clock interrupt, memory⟩
    let t := (s.run ops).2
    let past := s.history registerEntries ops
    (∀ offset, ReadsBack offset →
      t.engine.readRegister offset = .ok ((lastSaid (leaves offset) past).getD 0)) ∧
    t.engine.stats.events = past.count .stamped ∧
    (∃ raw enable, t.engine.readRegister 0xC20 = .ok raw ∧
      t.engine.readRegister 0xC28 = .ok enable ∧
      t.engine.readRegister 0xC24 = .ok (raw &&& (enable &&& 1))) ∧
    (∀ (offset value : UInt64) (size : Nat),
      ¬ (size = 1 ∨ size = 2 ∨ size = 4) ∨ offset.toNat % size ≠ 0 ∨ 0x4000 ≤ offset.toNat →
      (t.perform (.busWrite offset size value)).2 = t) ∧
    ∀ op offset, ReadsBack offset →
      let u := (t.perform op).2
      u.engine.readRegister offset ≠ t.engine.readRegister offset →
        op = .reset ∨ (∃ word, op.wordWrite? = some (offset, word)) ∨
        (∃ word, op.wordWrite? = some (0x81C, word) ∧ word &&& 1 ≠ 0 ∧
          (offset = 0x804 ∨ offset = 0x814)) ∨
        (offset = 0x124C ∧ t.engine.stats.events < u.engine.stats.events) := by
  intro s t past
  have hstart : s.engine.registers.Shows [] := RegisterFile.Shows.zero_nil
  have hrecalls : t.Recalls past := recalls_run ⟨hstart, rfl⟩ ops
  exact ⟨fun offset => readRegister_of_recalls hrecalls, hrecalls.events,
    readRegister_eventMasked t.engine, fun offset value size => busWrite_of_refused,
    fun op offset => cause_of_ne hrecalls⟩

/-- A byte has been written to the register that enables transmit, a half to a transceiver register,
and a frame has been stamped.  A half that is not aligned changes nothing, and a reset of the DMA
engine is what zeroes the first of these registers. -/
theorem byte_half_and_event_are_shown :
    let frame : Frame := [0, 0, 0, 0, 0, 0, 0, 0, 0, 0, 0, 0, 0x88, 0xF7, 0x3B]
    let s : System :=
      ⟨.fresh ⟨{ ramSize := 64 }, by decide⟩ {} {}, .dense (Dense.ofSize 4096)⟩
    let ops : List Operation :=
      [.busWrite 0x805 1 0x1FF, .busWrite 0x1082 2 0xFFFF, .writeRegister 0xC28 1,
        .writeRegister 0x814 1, .writeRam 0x48486000 [0, 0x100, 64, 0x20000000],
        .writeRegister 0xA20 0x48486000, .receive { bytes := frame }]
    let t := (s.run ops).2
    s.history registerEntries ops =
      [.written 0x804 0xFF00, .written 0x1080 0xFFFF0000, .written 0xC28 1, .written 0x814 1,
        .written 0xA20 0x48486000, .stamped] ∧
    (ReadsBack 0x804 ∧ t.engine.readRegister 0x804 = .ok 0xFF00) ∧
    (ReadsBack 0x1080 ∧ t.engine.readRegister 0x1080 = .ok 0x7FFF0000) ∧
    (ReadsBack 0x124C ∧ t.engine.readRegister 0x124C = .ok 0x10) ∧
    (t.perform (.busWrite 0x805 2 7)).2 = t ∧
    (t.perform (.writeRegister 0x81C 1)).2.engine.readRegister 0x804 ≠
      t.engine.readRegister 0x804 ∧
    ∃ word, (Operation.writeRegister 0x81C 1).wordWrite? = some (0x81C, word) ∧
      word &&& 1 ≠ 0 := by
  intro frame s ops t
  have hpast : s.history registerEntries ops =
      [.written 0x804 0xFF00, .written 0x1080 0xFFFF0000, .written 0xC28 1, .written 0x814 1,
        .written 0xA20 0x48486000, .stamped] := by
    decide +kernel
  have hchanged : (t.perform (.writeRegister 0x81C 1)).2.engine.readRegister 0x804 ≠
      t.engine.readRegister 0x804 := by
    decide +kernel
  obtain ⟨hread, -, -, hrefused, hcause⟩ := registers_read_back
    ⟨{ ramSize := 64 }, by decide⟩ {} {} (.dense (Dense.ofSize 4096)) ops
  have hstart : (⟨.fresh ⟨{ ramSize := 64 }, by decide⟩ {} {}, .dense (Dense.ofSize 4096)⟩ :
    System) = s := rfl
  rw [hstart, hpast] at hread
  rw [hstart] at hrefused hcause
  have htransmit : ReadsBack 0x804 := by decide
  have hphy : ReadsBack 0x1080 := by decide
  have hstatus : ReadsBack 0x124C := by decide
  refine ⟨hpast, ⟨htransmit, (hread _ htransmit).trans (by decide +kernel)⟩,
    ⟨hphy, (hread _ hphy).trans (by decide +kernel)⟩,
    ⟨hstatus, (hread _ hstatus).trans (by decide +kernel)⟩,
    hrefused 0x805 7 2 (Or.inr (Or.inl (by decide))), hchanged, ?_⟩
  rcases hcause (.writeRegister 0x81C 1) 0x804 htransmit hchanged with
    hreset | ⟨word, hword⟩ | ⟨word, hword, hbit, -⟩ | ⟨hoffset, -⟩
  · cases hreset
  · exact absurd hword (by simp [Operation.wordWrite?])
  · exact ⟨word, hword, hbit⟩
  · exact absurd hoffset (by decide)

end System

end PacketDma
