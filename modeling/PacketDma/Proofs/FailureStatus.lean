/-
**The failure status.**

When a frame finds no free descriptor in its ring, it is dropped and counted, and the status register
names the channel of the ring and says what was missing.  Software only reads this register: it keeps
the last failure until the engine, or the DMA engine alone, is reset.  Other failures, frames that
are placed or sent, and frames that are refused are not its concern.

Main definitions:

* `PacketDma.RingFailure`, `PacketDma.RingFailure.code` — what can be missing in a ring;
* `PacketDma.StatusEntry` — what can happen to the status;
* `PacketDma.System.ringFailures` — the failures of a drain;
* `PacketDma.System.statusEntries` — the entries of an operation.

Main results:

* `PacketDma.System.latch_fill`, `PacketDma.System.latch_drain` — fills that fail leave their entries;
* `PacketDma.System.latch_perform` — what an operation does to the status and to the count;
* `PacketDma.System.failure_status_is_last_failure` — **the status is the last failure**.
-/

import PacketDma.Proofs.ChannelHistory
import PacketDma.Proofs.RegisterHistory

set_option autoImplicit false

namespace PacketDma

/-! ### Failures -/

/-- What can be missing in a receive ring. -/
inductive RingFailure where
  /-- The next descriptor belongs to software. -/
  | notOwned
  /-- There is no next descriptor. -/
  | noDescriptor
deriving DecidableEq, Repr

namespace RingFailure

/-- The code of a failure in the status register. -/
def code : RingFailure → UInt32
  | .notOwned => 2
  | .noDescriptor => 4

/-- The failure of a ring that a fault of the engine stands for. -/
def ofFault? : DmaFault → Option RingFailure
  | .overrun .. => some .notOwned
  | .ringExhausted _ => some .noDescriptor
  | _ => none

end RingFailure

/-- What can happen to the failure status. -/
inductive StatusEntry where
  /-- The DMA engine is reset alone. -/
  | cleared
  /-- A frame for a channel finds no free descriptor. -/
  | failed (failure : RingFailure) (channel : ChannelId)
deriving DecidableEq, Repr

namespace StatusEntry

/-- What the status register shows after an entry. -/
def word : StatusEntry → UInt32
  | .cleared => 0
  | .failed failure channel => failure.code <<< 12 ||| UInt32.ofNat channel.val <<< 8

/-- Whether an entry is a failure. -/
def isFailed : StatusEntry → Bool
  | .cleared => false
  | .failed .. => true

/-- What an entry does to the status and to the count of failures. -/
def latch (state : UInt32 × Nat) (entry : StatusEntry) : UInt32 × Nat :=
  (entry.word, if entry.isFailed then state.2 + 1 else state.2)

/-- The status is what the last entry says, and the failures are counted. -/
theorem foldl_latch (past : List StatusEntry) (state : UInt32 × Nat) :
    past.foldl latch state =
      ((past.getLast?.map word).getD state.1, state.2 + past.countP isFailed) := by
  induction past generalizing state with
  | nil => rfl
  | cons entry rest ih =>
      rw [List.foldl_cons, ih, List.countP_cons, List.getLast?_cons]
      refine Prod.ext ?_ ?_
      · cases rest.getLast? <;> rfl
      · simp only [latch]
        split <;> omega

/-- The engine packs a failure into a word. -/
theorem word_failed (failure : RingFailure) (channel : ChannelId) :
    (failed failure channel).word = Engine.failureStatus failure.code channel := by
  revert channel
  cases failure <;> decide

end StatusEntry

/-! ### Fills and drains -/

/-- The failure status and the count of failures. -/
def Engine.latch (e : Engine) : UInt32 × Nat := (e.register .dmaStatus, e.stats.overruns)

/-- The words that software stores are none of the status. -/
theorem Register.ne_dmaStatus_of_ofIndex {i j : RegisterIndex}
    (h : ofIndex i = .storage j ∨ ofIndex i = .phyAccess j) : j ≠ .dmaStatus := by
  have hstatus : ofIndex .dmaStatus = .dmaStatus := by decide +kernel
  rintro rfl
  rw [eq_of_ofIndex h, hstatus] at h
  rcases h with h | h <;> cases h

namespace System

/-- The entry of a frame that finds no free descriptor. -/
def ringFailure (s : System) (frame : InboundFrame) : List StatusEntry :=
  ((s.fill frame).1.bind RingFailure.ofFault?).toList.map (.failed · (s.engine.channelOf frame))

/-- The entries of the frames that find no free descriptor in a drain. -/
def ringFailures (s : System) : List StatusEntry := s.fills.flatMap fun f => f.1.ringFailure f.2

/-- **A fill that fails** for lack of a descriptor leaves its entry, and any other fill none. -/
theorem latch_fill (s : System) (frame : InboundFrame) :
    (s.fill frame).2.engine.latch = (s.ringFailure frame).foldl StatusEntry.latch s.engine.latch := by
  cases hplan : s.engine.plan s.memory (s.engine.channelOf frame) frame.bytes.length with
  | error fault =>
      rw [ringFailure, fill_of_error hplan]
      cases fault with
      | overrun =>
          refine Prod.ext ((RegisterFile.get_set_self ..).trans ?_) rfl
          exact (StatusEntry.word_failed .notOwned _).symm
      | ringExhausted =>
          refine Prod.ext ((RegisterFile.get_set_self ..).trans ?_) rfl
          exact (StatusEntry.word_failed .noDescriptor _).symm
      | _ => rfl
  | ok plan =>
      obtain ⟨memory, ram, -, hfill⟩ := exists_fill_of_plan hplan
      obtain ⟨_, _, _, _, _, hcount, hregisters⟩ := Engine.exists_countReceived
        ({ s.engine with ram }.advance (s.engine.channelOf frame) plan) (s.engine.classOf frame)
        frame.bytes
      rw [ringFailure, hfill, hcount]
      exact Prod.ext (hregisters .dmaStatus (by decide)) rfl

/-- **A drain** leaves the entries of its fills. -/
theorem latch_drain (s : System) :
    s.drain.2.engine.latch = s.ringFailures.foldl StatusEntry.latch s.engine.latch :=
  foldl_drain (fun _ _ => rfl) latch_fill s

/-- A transmission is no concern of the status. -/
theorem latch_transmit (s : System) (channel : ChannelId) :
    (s.transmit channel).2.engine.latch = s.engine.latch := by
  cases hgather : gather s.engine.ram s.memory channel
      (s.engine.channels.transmitChannel channel).head s.engine.settings.walkLimit with
  | error fault =>
      rw [transmit_of_error hgather]
      rfl
  | ok g =>
      obtain ⟨ram, -, htransmit⟩ := exists_transmit_of_gather hgather
      obtain ⟨_, _, _, _, _, hemit, hregisters⟩ := { s.engine with ram }.exists_emit channel g
      rw [htransmit, hemit]
      exact Prod.ext (hregisters .dmaStatus (by decide)) rfl

/-- A fill that fails leaves the interrupt line alone. -/
theorem interrupt_fill_of_fault {s : System} {frame : InboundFrame} {fault : DmaFault}
    (h : (s.fill frame).1 = some fault) :
    (s.fill frame).2.engine.interrupt = s.engine.interrupt := by
  rw [fill_of_error (fill_fault_eq_some_iff.1 h)]
  cases fault <;> rfl

/-! ### Actions -/

/-- The entry of an action that resets the DMA engine alone. -/
def clearedEntry : Action → List StatusEntry
  | .store .dmaReset value => if value &&& 1 = 0 then [] else [.cleared]
  | _ => []

/-- The entries of an action: a reset, or the failures of the drain that it starts. -/
def statusEntries (s : System) (action : Action) : List StatusEntry :=
  clearedEntry action ++ ((s.drainStart? action).map ringFailures).getD []

variable {s : System}

/-- A write of a register does to status and count what its entries say. -/
theorem latch_store (s : System) (index : RegisterIndex) (value : UInt32) :
    (s.store value (.ofIndex index)).2.engine.latch =
      (s.statusEntries (.store (.ofIndex index) value)).foldl StatusEntry.latch s.engine.latch := by
  have hstored {word : UInt32} {position : RegisterIndex} (h : position ≠ .dmaStatus) :
      (s.engine.setRegister position word).latch = s.engine.latch :=
    Prod.ext (RegisterFile.get_set_of_ne _ h.symm _) rfl
  cases hregister : Register.ofIndex index with
  | dmaReset =>
      simp only [store, statusEntries, clearedEntry, drainStart?]
      split
      · rfl
      · exact Prod.ext (RegisterFile.get_set_self ..) rfl
  | transmitHead channel =>
      simp only [store]
      split
      · rfl
      · exact latch_transmit ..
  | receiveHead channel => exact latch_drain (s.mapEngine (·.armReceive channel value))
  | receiveControl =>
      simp only [store, statusEntries, clearedEntry, drainStart?]
      have hcontrol : (s.engine.controlReceive value).latch = s.engine.latch :=
        Prod.ext (RegisterFile.get_set_of_ne _ (by decide) _) rfl
      split
      · exact hcontrol
      · have hdrain := latch_drain (s.mapEngine (·.controlReceive value))
        rw [engine_mapEngine, hcontrol] at hdrain
        exact hdrain
  | eventPop =>
      simp only [store]
      split <;> rfl
  | tableControl => exact Prod.ext (RegisterFile.get_set_of_ne _ (by decide) _) rfl
  | tableSelect => exact Prod.ext (RegisterFile.get_set_of_ne _ (by decide) _) rfl
  | phyAccess position => exact hstored (Register.ne_dmaStatus_of_ofIndex (Or.inr hregister))
  | storage position => exact hstored (Register.ne_dmaStatus_of_ofIndex (Or.inl hregister))
  | _ => rfl

/-- A frame that arrives does to status and count what its entries say. -/
theorem latch_receive (s : System) (frame : InboundFrame) :
    (s.receive frame).2.engine.latch =
      (s.statusEntries (.arrive frame)).foldl StatusEntry.latch s.engine.latch := by
  have hoffer : (s.engine.offer frame).2.latch = s.engine.latch := rfl
  simp only [receive, statusEntries, clearedEntry, drainStart?]
  cases heq : s.engine.offer frame with
  | mk fault engine =>
      rw [heq] at hoffer
      cases fault with
      | none =>
          rw [← hoffer]
          exact latch_drain { s with engine }
      | some fault => exact hoffer

/-- **An action does to status and count what its entries say**, but for a full reset. -/
theorem latch_act {action : Action} (hpossible : action.Possible) (hreset : action ≠ .reset) :
    (s.act action).engine.latch =
      (s.statusEntries action).foldl StatusEntry.latch s.engine.latch := by
  cases action with
  | reset => exact absurd rfl hreset
  | drain => exact latch_drain s
  | store register value =>
      obtain ⟨index, rfl⟩ := hpossible
      exact latch_store s index value
  | arrive frame => exact latch_receive s frame
  | storeRam offset bytes =>
      simp only [act, mapEngine, Engine.storeRam]
      split <;> rfl
  | writeMemory address bytes =>
      simp only [act, writeMemory]
      split <;> rfl
  | _ => rfl

/-- Status and count are what a log says. -/
def Latched (past : List StatusEntry) (s : System) : Prop :=
  s.engine.latch = past.foldl StatusEntry.latch (0, 0)

/-- **Every action keeps status and log together.** -/
theorem latched_act {past : List StatusEntry} (h : s.Latched past) {action : Action}
    (hpossible : action.Possible) :
    (s.act action).Latched (s.extend statusEntries past action) := by
  by_cases hreset : action = .reset
  · subst hreset
    rw [extend, if_pos rfl]
    exact Prod.ext (RegisterFile.get_zero _) rfl
  · rw [extend_of_ne hreset, Latched, latch_act hpossible hreset, h, List.foldl_append]

/-! ### What is read -/

variable {past : List StatusEntry}

/-- **The status register reads what the last entry says.** -/
theorem readRegister_of_latched (h : s.Latched past) :
    s.engine.readRegister 0x824 = .ok ((past.getLast?.map StatusEntry.word).getD 0) := by
  have hdecode : Register.decode 0x824 = some .dmaStatus := by decide +kernel
  rw [Latched, StatusEntry.foldl_latch] at h
  rw [Engine.readRegister, hdecode]
  exact congrArg (Except.ok ·.1) h

/-- The failures are those that are counted. -/
theorem overruns_of_latched (h : s.Latched past) :
    s.engine.stats.overruns = past.countP StatusEntry.isFailed := by
  rw [Latched, StatusEntry.foldl_latch] at h
  exact (congrArg Prod.snd h).trans (Nat.zero_add _)

/-- What an action is that starts a drain. -/
theorem act_of_drainStart {action : Action} {start : System}
    (h : s.drainStart? action = some start) : s.act action = start.drain.2 := by
  cases action with
  | drain =>
      cases h
      rfl
  | store register value =>
      cases register with
      | receiveHead channel =>
          cases h
          rfl
      | receiveControl =>
          simp only [drainStart?] at h
          split at h
          · cases h
          · next hbit =>
              cases h
              simp only [act, store, if_neg hbit]
      | _ => cases h
  | arrive frame =>
      simp only [drainStart?] at h
      split at h
      · next heq =>
          cases h
          simp only [act, receive, heq]
      · cases h
  | _ => cases h

/-- A fill fails because a descriptor is not owned or missing, and then the fault names the channel
of the frame, or because something lies outside its memory; the interrupt line is left alone. -/
theorem fill_fault_cases {frame : InboundFrame} {fault : DmaFault}
    (h : (s.fill frame).1 = some fault) :
    (fault = .ringExhausted (s.engine.channelOf frame) ∨
      (∃ address, fault = .overrun (s.engine.channelOf frame) address) ∨
      ∃ cause, fault = .outOfRange cause) ∧
    (s.fill frame).2.engine.interrupt = s.engine.interrupt :=
  ⟨planFrom_fault (fill_fault_eq_some_iff.1 h), interrupt_fill_of_fault h⟩

/-- An operation that changes the status is a reset, or starts a drain in which a frame finds no free
descriptor. -/
theorem status_cause_of_ne {op : Operation} (h : s.Latched past)
    (hne : (s.perform op).2.engine.readRegister 0x824 ≠ s.engine.readRegister 0x824) :
    op = .reset ∨ (∃ word, op.wordWrite? = some (0x81C, word) ∧ word &&& 1 ≠ 0) ∨
      ∃ start f failure, s.drainStart? op.action = some start ∧ f ∈ start.fills ∧
        (f.1.fill f.2).1.bind RingFailure.ofFault? = some failure := by
  by_cases hop : op = .reset
  · exact Or.inl hop
  have hnext := latched_act h op.possible_action
  rw [← perform_eq_act, extend_of_ne (mt Operation.action_eq_reset_iff.1 hop)] at hnext
  have hentries : s.statusEntries op.action ≠ [] := by
    intro hnone
    rw [hnone, List.append_nil] at hnext
    exact hne (by rw [readRegister_of_latched hnext, readRegister_of_latched h])
  obtain ⟨entry, hentry⟩ := List.exists_mem_of_ne_nil _ hentries
  rcases List.mem_append.1 hentry with hcleared | hfailed
  · unfold clearedEntry at hcleared
    split at hcleared
    · next word haction =>
        split at hcleared
        · cases hcleared
        · next hbit =>
            exact Or.inr (Or.inl ⟨word, Operation.wordWrite?_of_dmaReset haction, hbit⟩)
    · cases hcleared
  · cases hstart : s.drainStart? op.action with
    | none =>
        rw [hstart] at hfailed
        cases hfailed
    | some start =>
        rw [hstart] at hfailed
        obtain ⟨f, hf, hfailure⟩ := List.mem_flatMap.1 hfailed
        obtain ⟨failure, hfault, -⟩ := List.mem_map.1 hfailure
        exact Or.inr (Or.inr ⟨start, f, failure, rfl, hf, Option.mem_toList.1 hfault⟩)

/-- A write of the status register, of any width, changes nothing at all. -/
theorem perform_of_statusWrite {op : Operation} {word : UInt32}
    (h : op.wordWrite? = some (0x824, word)) : (s.perform op).2 = s := by
  have hregister : Register.ofIndex .dmaStatus = .dmaStatus := by decide +kernel
  rw [perform_eq_act, Operation.action_of_wordWrite .dmaStatus h, hregister]
  rfl

/-! ### Runs -/

/-- The log of resets of the DMA engine and of failures of rings along a run. -/
def statusLog (s : System) (ops : List Operation) : List StatusEntry := s.log statusEntries ops

/-- **The status is the last failure.**  At every moment of a run of a new engine, the status
register shows the code and the channel of the last frame that has found no free descriptor in its
ring, two when the next descriptor belonged to software and four when there was none, and zero if
there has been no such frame since the last reset of the engine or of the DMA engine; and as many of
them as there have been since the last full reset are counted.

Whatever happens next changes the status only if it is a reset, or starts a drain in which some frame
finds no free descriptor.  A write of the status register, of any width, changes nothing at all.  A
frame that cannot be placed in a drain finds no free descriptor in the ring of its channel, or
something lies outside its memory; in no case does the interrupt line change. -/
theorem failure_status_is_last_failure (settings : AcceptedSettings) (clock : Clock)
    (interrupt : InterruptLine) (memory : Memory) (ops : List Operation) :
    let s : System := ⟨.fresh settings clock interrupt, memory⟩
    let t := (s.run ops).2
    let log := s.statusLog ops
    t.engine.readRegister 0x824 = .ok ((log.getLast?.map StatusEntry.word).getD 0) ∧
    t.engine.stats.overruns = log.countP StatusEntry.isFailed ∧
    ∀ op,
      let u := (t.perform op).2
      (u.engine.readRegister 0x824 ≠ t.engine.readRegister 0x824 →
        op = .reset ∨ (∃ word, op.wordWrite? = some (0x81C, word) ∧ word &&& 1 ≠ 0) ∨
        ∃ start f failure, t.drainStart? op.action = some start ∧ f ∈ start.fills ∧
          (f.1.fill f.2).1.bind RingFailure.ofFault? = some failure) ∧
      (∀ word, op.wordWrite? = some (0x824, word) → u = t) ∧
      ∀ start, t.drainStart? op.action = some start →
        u = start.drain.2 ∧
        ∀ f ∈ start.fills, ∀ fault, (f.1.fill f.2).1 = some fault →
          (fault = .ringExhausted (f.1.engine.channelOf f.2) ∨
            (∃ address, fault = .overrun (f.1.engine.channelOf f.2) address) ∨
            ∃ cause, fault = .outOfRange cause) ∧
          (f.1.fill f.2).2.engine.interrupt = f.1.engine.interrupt := by
  intro s t log
  have hlatched : t.Latched log :=
    log_induction (I := fun past s => s.Latched past)
      (fun op _ s log h => latched_act h op.possible_action)
      (Prod.ext (RegisterFile.get_zero _) rfl)
  refine ⟨readRegister_of_latched hlatched, overruns_of_latched hlatched, fun op => ⟨?_, ?_, ?_⟩⟩
  · exact status_cause_of_ne hlatched
  · exact fun word => perform_of_statusWrite
  · intro start hstart
    exact ⟨(perform_eq_act t op).trans (act_of_drainStart hstart),
      fun f _ fault => fill_fault_cases⟩

/-- A frame finds a descriptor that belongs to software, and a longer one finds no second descriptor.
A byte written to the status changes nothing, a reset of the DMA engine clears it, and another frame
starts a drain. -/
theorem two_frames_find_no_descriptor :
    let s := small
    let ops : List Operation :=
      [.writeRam 0x48486000 [0, 0x100, 1, 0], .writeRegister 0x814 1,
        .writeRegister 0xA24 0x48486000, .receive { bytes := [1] },
        .writeRam 0x48486000 [0, 0x100, 1, 0x20000000], .receive { bytes := [1, 2] }]
    let t := (s.run ops).2
    s.statusLog ops = [.failed .notOwned 1, .failed .noDescriptor 1] ∧
    t.engine.readRegister 0x824 = .ok 0x4100 ∧
    (s.run ops).2.engine.stats.overruns = 2 ∧
    (t.perform (.busWrite 0x825 1 0)).2 = t ∧
    (t.perform (.writeRegister 0x81C 1)).2.engine.readRegister 0x824 = .ok 0 ∧
    ((Operation.writeRegister 0x81C 1 = .reset) ∨
      (∃ word, (Operation.writeRegister 0x81C 1).wordWrite? = some (0x81C, word) ∧
        word &&& 1 ≠ 0) ∨
      ∃ start f failure, t.drainStart? (Operation.writeRegister 0x81C 1).action = some start ∧
        f ∈ start.fills ∧ (f.1.fill f.2).1.bind RingFailure.ofFault? = some failure) ∧
    (t.perform .poll).2 = t.drain.2 := by
  intro s ops t
  have hlog : s.statusLog ops = [.failed .notOwned 1, .failed .noDescriptor 1] := by
    decide +kernel
  have hcleared : (t.perform (.writeRegister 0x81C 1)).2.engine.readRegister 0x824 = .ok 0 := by
    decide +kernel
  obtain ⟨hread, hcount, hnext⟩ := failure_status_is_last_failure
    ⟨{ ramSize := 64 }, by decide⟩ {} {} (.dense (Dense.ofSize 4096)) ops
  have hstart : (⟨.fresh ⟨{ ramSize := 64 }, by decide⟩ {} {}, .dense (Dense.ofSize 4096)⟩ :
    System) = s := rfl
  rw [hstart, hlog] at hread hcount
  rw [hstart] at hnext
  have hshown : t.engine.readRegister 0x824 = .ok 0x4100 := hread.trans (by decide +kernel)
  obtain ⟨hcause, -, -⟩ := hnext (.writeRegister 0x81C 1)
  refine ⟨hlog, hshown, hcount.trans (by decide),
    (hnext (.busWrite 0x825 1 0)).2.1 0 (by decide +kernel), hcleared, hcause ?_,
    ((hnext .poll).2.2 t rfl).1⟩
  rw [hcleared, hshown]
  decide

end System

end PacketDma
