/-
**The engine and the ledger of frames.**

Frames enter by two paths, and drains are triggered in five ways.  Each operation makes its entries
into the ledger as it happens, and the ledger stays balanced along every run: no frame is lost, none
is counted twice, and none overtakes another.

Main definitions:

* `PacketDma.System.tally` — what the engine knows about the frames offered to it;
* `PacketDma.System.drainLog` — the frames that a drain takes and what becomes of each;
* `PacketDma.System.record` — the entries of an operation;
* `PacketDma.System.ledger` — the ledger of a run.

Main results:

* `PacketDma.System.balanced_record` — every operation keeps the ledger balanced;
* `PacketDma.System.every_frame_is_accounted_for` — **frames are conserved and kept in order**.
-/

import PacketDma.Proofs.FillEffect
import PacketDma.Proofs.FrameLedger
import PacketDma.Proofs.Passes

set_option autoImplicit false

namespace PacketDma

/-- What the engine knows about the frames offered to it. -/
def Engine.tally (e : Engine) : Tally where
  waiting := e.intake.frames
  refused := e.intake.refused
  received := e.stats.received
  overruns := e.stats.overruns
  errors := e.stats.receiveErrors

namespace System

/-- What the engine of a system knows about the frames offered to it. -/
def tally (s : System) : Tally := s.engine.tally

/-! ### The entries of an operation -/

/-- The frames that are placed one after the other, up to the first whose channel is idle, and
what becomes of each. -/
def drainLogFrom : List InboundFrame → System → List (InboundFrame × Fate)
  | [], _ => []
  | frame :: rest, s =>
      if s.engine.ready frame then
        let (fault, filled) := (s.mapEngine (·.setWaiting rest)).fill frame
        (frame, .ofFill fault) :: drainLogFrom rest filled
      else []

/-- The frames that a drain takes and what becomes of each. -/
def drainLog (s : System) : List (InboundFrame × Fate) :=
  if s.engine.receiveEnabled then drainLogFrom s.engine.intake.frames s else []

/-- The entries of a write of a register. -/
def recordStore (s : System) (value : UInt32) (l : Ledger) : Register → Ledger
  | .dmaReset =>
      if value &&& 1 = 0 then l else l.settleAll (s.engine.intake.frames.map (·, .discarded))
  | .receiveHead channel => l.settleAll (s.mapEngine (·.armReceive channel value)).drainLog
  | .receiveControl =>
      if value &&& 1 = 0 then l else l.settleAll (s.mapEngine (·.controlReceive value)).drainLog
  | _ => l

end System

namespace Operation

/-- The frames offered since the last full reset, after one more operation. -/
def offer (offered : List InboundFrame) : Operation → List InboundFrame
  | .receive frame | .deliver frame => offered ++ [frame]
  | .reset => []
  | _ => offered

end Operation

namespace System

/-- The entries of an access by software. -/
def recordAccess (s : System) (l : Ledger) (op : Operation) : Ledger :=
  if op.readsRam then l.settleAll s.drainLog
  else
    match op.registerWrite? with
    | some (register, value) => s.recordStore value l register
    | none => l

/-- The entries of an operation.  A full reset starts a new ledger. -/
def record (s : System) (l : Ledger) : Operation → Ledger
  | .receive frame =>
      match s.engine.offer frame with
      | (some _, _) => l.refuse frame
      | (none, engine) => (l.accept frame).settleAll { s with engine : System }.drainLog
  | .deliver frame =>
      match s.engine.offer frame with
      | (some _, _) => l.refuse frame
      | (none, _) => l.accept frame
  | .poll => l.settleAll s.drainLog
  | .reset => {}
  | op => s.recordAccess l op

/-- The ledger after a run that starts with the given one. -/
def ledgerFrom (s : System) (l : Ledger) : List Operation → Ledger
  | [] => l
  | op :: rest => ledgerFrom (s.perform op).2 (s.record l op) rest

/-- The ledger of a run. -/
def ledger (s : System) (ops : List Operation) : Ledger := s.ledgerFrom {} ops

/-- How many frames wait when an operation resets the DMA engine. -/
def discards (s : System) (op : Operation) : Nat :=
  match op.registerWrite? with
  | some (.dmaReset, value) => if value &&& 1 = 0 then 0 else s.engine.intake.frames.length
  | _ => 0

/-- How many frames have been waiting at the resets of the DMA engine since the last full reset,
when they were `count` before a run. -/
def discardsFrom (s : System) (count : Nat) : List Operation → Nat
  | [] => count
  | op :: rest =>
      discardsFrom (s.perform op).2 (if op = .reset then 0 else count + s.discards op) rest

end System

/-! ### One operation -/

namespace Engine

theorem tally_stampFrame (e : Engine) (frameClass : FrameClass) (port : UInt8) (kind : EventKind)
    (frame : Frame) : (e.stampFrame frameClass port kind frame).tally = e.tally := by
  unfold stampFrame
  split <;> rfl

theorem tally_enqueueEgress (e : Engine) (frame : Frame) :
    (e.enqueueEgress frame).tally = e.tally := by
  unfold enqueueEgress
  split <;> rfl

/-- Sending a frame does not touch the frames that come in. -/
theorem tally_emit (e : Engine) (channel : ChannelId) (g : Gathered) :
    (e.emit channel g).tally = e.tally := by
  rw [emit, tally_enqueueEgress, tally_stampFrame]
  rfl

end Engine

namespace System

variable {s : System} {l : Ledger}

/-- A fill counts its frame under its fate, and nothing else. -/
theorem tally_fill (s : System) (frame : InboundFrame) :
    (s.fill frame).2.tally = s.tally.settle s.tally.waiting (.ofFill (s.fill frame).1) := by
  cases h : s.engine.plan s.memory (s.engine.channelOf frame) frame.bytes.length with
  | error fault =>
      rw [fill_of_error h]
      cases fault <;> rfl
  | ok plan =>
      obtain ⟨memory, ram, -, hfill⟩ := exists_fill_of_plan h
      rw [hfill, tally, Engine.countReceived, Engine.tally_stampFrame]
      rfl

/-- A fill neither refuses a frame nor discards it. -/
theorem ofFill_ne (fault : Option DmaFault) :
    Fate.ofFill fault ≠ .refused ∧ Fate.ofFill fault ≠ .discarded := by
  cases fault with
  | none => exact ⟨Fate.noConfusion, Fate.noConfusion⟩
  | some fault => cases fault <;> exact ⟨Fate.noConfusion, Fate.noConfusion⟩

/-- Taking the oldest frame out of the queue and placing it keeps the ledger balanced. -/
theorem balanced_fill {frame : InboundFrame} {rest : List InboundFrame}
    (hframes : s.engine.intake.frames = frame :: rest) (h : l.Balanced s.tally) :
    (l.settle frame (.ofFill ((s.mapEngine (·.setWaiting rest)).fill frame).1)).Balanced
      ((s.mapEngine (·.setWaiting rest)).fill frame).2.tally := by
  have hnext := h.settle hframes
    (ofFill_ne ((s.mapEngine (·.setWaiting rest)).fill frame).1).1
  rw [tally_fill]
  generalize Fate.ofFill ((s.mapEngine (·.setWaiting rest)).fill frame).1 = fate at hnext ⊢
  cases fate <;> exact hnext

/-- A series of fills keeps the ledger balanced. -/
theorem balanced_drainFrames (frames : List InboundFrame) (s : System) (l : Ledger)
    (hframes : s.engine.intake.frames = frames) (h : l.Balanced s.tally) :
    (l.settleAll (drainLogFrom frames s)).Balanced (drainFrames frames s).2.tally := by
  induction frames generalizing s l with
  | nil => exact h
  | cons frame rest ih =>
      -- the fill of the first frame is the entry of that frame
      unfold drainLogFrom drainFrames
      by_cases hready : s.engine.ready frame = true
      · rw [if_pos hready, if_pos hready]
        refine ih _ _ ?_ (balanced_fill hframes h)
        -- a fill leaves the queue alone
        have hwaiting := congrArg Tally.waiting (tally_fill (s.mapEngine (·.setWaiting rest)) frame)
        rw [Tally.waiting_settle] at hwaiting
        exact hwaiting
      · rw [if_neg hready, if_neg hready]
        exact h

/-- **A drain keeps the ledger balanced.** -/
theorem balanced_drain (h : l.Balanced s.tally) :
    (l.settleAll s.drainLog).Balanced s.drain.2.tally := by
  unfold drainLog drain
  split
  · exact balanced_drainFrames _ s l rfl h
  · exact h

theorem tally_transmit (s : System) (channel : ChannelId) :
    (s.transmit channel).2.tally = s.tally := by
  simp only [transmit]
  split
  · rfl
  · split
    · rfl
    · exact Engine.tally_emit ..

/-- **A write of a register keeps the ledger balanced.** -/
theorem balanced_recordStore (h : l.Balanced s.tally) (value : UInt32) (register : Register) :
    (s.recordStore value l register).Balanced (s.store value register).2.tally := by
  cases register with
  | dmaReset =>
      simp only [recordStore, store]
      by_cases hbit : value &&& 1 = 0
      · rw [if_pos hbit, if_pos hbit]
        exact h
      · rw [if_neg hbit, if_neg hbit]
        exact h.discard
  | transmitHead channel =>
      simp only [store]
      by_cases hzero : value = 0
      · rw [if_pos hzero]
        exact h
      · rw [if_neg hzero, tally_transmit]
        exact h
  | receiveHead channel =>
      exact balanced_drain (s := s.mapEngine (·.armReceive channel value)) h
  | receiveControl =>
      simp only [recordStore, store]
      by_cases hbit : value &&& 1 = 0
      · rw [if_pos hbit, if_pos hbit]
        exact h
      · rw [if_neg hbit, if_neg hbit]
        exact balanced_drain (s := s.mapEngine (·.controlReceive value)) h
  | eventPop =>
      simp only [store]
      split <;> exact h
  | _ => exact h

/-- Any other bus write changes descriptor RAM at most. -/
theorem tally_busWrite_of_none {offset value : UInt64} {size : Nat}
    (h : (Operation.busWrite offset size value).registerWrite? = none) :
    (s.busWrite offset size value).tally = s.tally := by
  obtain ⟨⟨ram, hwritten⟩, -⟩ := busWrite_of_no_register (s := s) h
  rw [hwritten]
  rfl

/-- An access by software keeps the ledger balanced. -/
theorem balanced_recordAccess {op : Operation} (h : l.Balanced s.tally)
    (hother : op.readsRam = false → op.registerWrite? = none →
      (s.perform op).2.tally = s.tally) :
    (s.recordAccess l op).Balanced (s.perform op).2.tally := by
  unfold recordAccess
  by_cases hread : op.readsRam = true
  · rw [if_pos hread, perform_of_readsRam hread]
    exact balanced_drain h
  · rw [if_neg hread]
    cases hwrite : op.registerWrite? with
    | none =>
        rw [hother (Bool.not_eq_true _ ▸ hread) hwrite]
        exact h
    | some write =>
        rw [perform_of_registerWrite hwrite]
        exact balanced_recordStore h ..

/-- **Every operation keeps the ledger balanced.** -/
theorem balanced_record (h : l.Balanced s.tally) (op : Operation) :
    (s.record l op).Balanced (s.perform op).2.tally := by
  cases op with
  | receive frame =>
      cases hrefusal : s.engine.intake.refusal? s.engine.settings.pendingLimit frame with
      | some fault =>
          simp only [record, perform, receive, Engine.offer_of_refusal hrefusal]
          exact h.refuse frame
      | none =>
          simp only [record, perform, receive, Engine.offer_of_none hrefusal]
          exact balanced_drain (h.accept frame)
  | deliver frame =>
      cases hrefusal : s.engine.intake.refusal? s.engine.settings.pendingLimit frame with
      | some fault =>
          simp only [record, perform, deliver, Engine.offer_of_refusal hrefusal]
          exact h.refuse frame
      | none =>
          simp only [record, perform, deliver, Engine.offer_of_none hrefusal]
          exact h.accept frame
  | poll => exact balanced_drain h
  | reset => exact Ledger.balanced_empty
  | busRead offset size =>
      exact balanced_recordAccess h fun hread _ => by
        rw [perform, busRead_of_not_readsRam hread]
  | busWrite offset size value =>
      exact balanced_recordAccess h fun _ hwrite => tally_busWrite_of_none hwrite
  | writeRegister offset value =>
      exact balanced_recordAccess h fun _ hwrite => by
        rw [Operation.registerWrite?, Option.map_eq_none_iff] at hwrite
        simp [perform, writeRegister, hwrite]
  | writeMemory address bytes =>
      exact balanced_recordAccess h fun _ _ => by
        simp only [perform, writeMemory]
        split <;> rfl
  | _ => exact balanced_recordAccess h fun _ _ => rfl

/-! ### What the entries leave alone -/

theorem ne_discarded_of_mem_drainLogFrom {frames : List InboundFrame} {s : System}
    {entry : InboundFrame × Fate} (hentry : entry ∈ drainLogFrom frames s) :
    entry.2 ≠ .discarded := by
  induction frames generalizing s with
  | nil => exact absurd hentry List.not_mem_nil
  | cons frame rest ih =>
      unfold drainLogFrom at hentry
      split at hentry
      · rcases List.mem_cons.1 hentry with rfl | hentry
        · exact (ofFill_ne _).2
        · exact ih hentry
      · exact absurd hentry List.not_mem_nil

theorem count_discarded_drainLog (l : Ledger) (s : System) :
    (l.settleAll s.drainLog).count .discarded = l.count .discarded := by
  refine l.count_settleAll_of_ne _ fun entry hentry => ?_
  unfold drainLog at hentry
  split at hentry
  · exact ne_discarded_of_mem_drainLogFrom hentry
  · exact absurd hentry List.not_mem_nil

/-- A write of a register settles waiting frames at most. -/
theorem exists_recordStore (s : System) (l : Ledger) (value : UInt32) (register : Register) :
    ∃ log, s.recordStore value l register = l.settleAll log := by
  cases register with
  | dmaReset =>
      simp only [recordStore]
      split
      · exact ⟨[], rfl⟩
      · exact ⟨_, rfl⟩
  | receiveHead channel => exact ⟨_, rfl⟩
  | receiveControl =>
      simp only [recordStore]
      split
      · exact ⟨[], rfl⟩
      · exact ⟨_, rfl⟩
  | _ => exact ⟨[], rfl⟩

/-- An access by software settles waiting frames at most. -/
theorem exists_recordAccess (s : System) (l : Ledger) (op : Operation) :
    ∃ log, s.recordAccess l op = l.settleAll log := by
  unfold recordAccess
  split
  · exact ⟨_, rfl⟩
  · split
    · exact exists_recordStore ..
    · exact ⟨[], rfl⟩

/-- The ledger lists the frames as they are offered. -/
theorem offered_record (s : System) (l : Ledger) (op : Operation) :
    (s.record l op).offered = op.offer l.offered := by
  cases op with
  | receive frame =>
      simp only [record]
      split
      · rfl
      · exact Ledger.offered_settleAll ..
  | deliver frame =>
      simp only [record]
      split <;> rfl
  | poll => exact Ledger.offered_settleAll ..
  | reset => rfl
  | _ =>
      obtain ⟨log, hlog⟩ := s.exists_recordAccess l _
      exact (congrArg Ledger.offered hlog).trans (Ledger.offered_settleAll ..)

/-- What is settled stays settled until the next full reset. -/
theorem settled_prefix_record (s : System) (l : Ledger) {op : Operation} (hop : op ≠ .reset) :
    l.settled <+: (s.record l op).settled := by
  cases op with
  | receive frame =>
      simp only [record]
      split
      · exact List.prefix_append ..
      · exact Ledger.settled_prefix_settleAll (l.accept frame) _
  | deliver frame =>
      simp only [record]
      split
      · exact List.prefix_append ..
      · exact List.prefix_rfl
  | poll => exact Ledger.settled_prefix_settleAll ..
  | reset => exact absurd rfl hop
  | _ =>
      obtain ⟨log, hlog⟩ := s.exists_recordAccess l _
      exact (l.settled_prefix_settleAll log).trans (hlog ▸ List.prefix_rfl)

theorem count_discarded_recordStore {s : System} {l : Ledger} (h : l.Balanced s.tally)
    {op : Operation} {register : Register} {value : UInt32}
    (hwrite : op.registerWrite? = some (register, value)) :
    (s.recordStore value l register).count .discarded = l.count .discarded + s.discards op := by
  rw [discards, hwrite]
  cases register with
  | dmaReset =>
      simp only [recordStore]
      split
      · rfl
      · exact h.count_discard
  | receiveHead channel => exact count_discarded_drainLog ..
  | receiveControl =>
      simp only [recordStore]
      split
      · rfl
      · exact count_discarded_drainLog ..
  | _ => rfl

theorem count_discarded_recordAccess {s : System} {l : Ledger} (h : l.Balanced s.tally)
    (op : Operation) :
    (s.recordAccess l op).count .discarded = l.count .discarded + s.discards op := by
  unfold recordAccess
  by_cases hread : op.readsRam = true
  · rw [if_pos hread, discards, registerWrite?_of_readsRam hread]
    exact count_discarded_drainLog ..
  · rw [if_neg hread]
    cases hwrite : op.registerWrite? with
    | none =>
        rw [discards, hwrite]
        rfl
    | some write => exact count_discarded_recordStore h hwrite

/-- Only a reset of the DMA engine discards frames, and it discards all that wait. -/
theorem count_discarded_record {s : System} {l : Ledger} (h : l.Balanced s.tally)
    {op : Operation} (hop : op ≠ .reset) :
    (s.record l op).count .discarded = l.count .discarded + s.discards op := by
  cases op with
  | receive frame =>
      simp only [record]
      split
      · rw [Ledger.count_refuse, if_neg (by decide)]
        rfl
      · exact count_discarded_drainLog ..
  | deliver frame =>
      simp only [record]
      split
      · rw [Ledger.count_refuse, if_neg (by decide)]
        rfl
      · rfl
  | poll => exact count_discarded_drainLog ..
  | reset => exact absurd rfl hop
  | _ => exact count_discarded_recordAccess h _

/-- **Counters never fall**, except at a full reset. -/
theorem tally_le_perform {s : System} {l : Ledger} (h : l.Balanced s.tally) {op : Operation}
    (hop : op ≠ .reset) :
    s.tally.refused ≤ (s.perform op).2.tally.refused ∧
      s.tally.received ≤ (s.perform op).2.tally.received ∧
      s.tally.overruns ≤ (s.perform op).2.tally.overruns ∧
      s.tally.errors ≤ (s.perform op).2.tally.errors := by
  -- every counter is the count of a fate, and settlements are never taken back
  have hnext := balanced_record h op
  have hcount (fate : Fate) : l.count fate ≤ (s.record l op).count fate :=
    (s.settled_prefix_record l hop).sublist.countP_le
  rw [h.refused, h.received, h.overruns, h.errors, hnext.refused, hnext.received,
    hnext.overruns, hnext.errors]
  exact ⟨hcount _, hcount _, hcount _, hcount _⟩

/-! ### Runs -/

/-- **The ledger of a run is balanced.** -/
theorem balanced_ledgerFrom {s : System} {l : Ledger} (h : l.Balanced s.tally)
    (ops : List Operation) : (s.ledgerFrom l ops).Balanced (s.run ops).2.tally := by
  induction ops generalizing s l with
  | nil => exact h
  | cons op rest ih => exact ih (balanced_record h op)

theorem offered_ledgerFrom (s : System) (l : Ledger) (ops : List Operation) :
    (s.ledgerFrom l ops).offered = ops.foldl Operation.offer l.offered := by
  induction ops generalizing s l with
  | nil => rfl
  | cons op rest ih => rw [ledgerFrom, ih, offered_record, List.foldl_cons]

theorem count_discarded_ledgerFrom {s : System} {l : Ledger} (h : l.Balanced s.tally)
    (ops : List Operation) :
    (s.ledgerFrom l ops).count .discarded = s.discardsFrom (l.count .discarded) ops := by
  induction ops generalizing s l with
  | nil => rfl
  | cons op rest ih =>
      rw [ledgerFrom, ih (balanced_record h op), discardsFrom]
      by_cases hop : op = .reset
      · rw [if_pos hop, hop]
        rfl
      · rw [if_neg hop, count_discarded_record h hop]

/-- **Frames are conserved and kept in order.**  At every moment of a run that begins with a fresh
or a fully reset engine, each frame offered since the last full reset has been refused, received,
dropped for its ring, dropped for an error, or discarded by a reset of the DMA engine, or it waits;
the counters of the engine say how many of each there are; frames leave the queue in the order in
which they were taken into it; no counter ever falls before the next full reset; and a poll answers
with the number of frames it has placed. -/
theorem every_frame_is_accounted_for (s : System)
    (hstart : (∃ settings clock interrupt, s.engine = .fresh settings clock interrupt) ∨
      ∃ e : Engine, s.engine = e.reset)
    (ops : List Operation) :
    let t := (s.run ops).2
    let l := s.ledger ops
    l.offered = ops.foldl Operation.offer [] ∧
    l.Balanced t.tally ∧
    l.count .discarded = s.discardsFrom 0 ops ∧
    l.offered.length = t.engine.intake.refused + t.engine.stats.received +
      t.engine.stats.overruns + t.engine.stats.receiveErrors + t.engine.intake.frames.length +
      s.discardsFrom 0 ops ∧
    (∀ op, op ≠ .reset →
      let u := (t.perform op).2
      l.settled <+: (t.record l op).settled ∧
      t.engine.intake.refused ≤ u.engine.intake.refused ∧
      t.engine.stats.received ≤ u.engine.stats.received ∧
      t.engine.stats.overruns ≤ u.engine.stats.overruns ∧
      t.engine.stats.receiveErrors ≤ u.engine.stats.receiveErrors) ∧
    ∃ placed, (t.perform .poll).1 = .count placed ∧
      (t.perform .poll).2.engine.stats.received = t.engine.stats.received + placed := by
  intro t l
  have hempty : ({} : Ledger).Balanced s.tally := by
    have htally : s.tally = ⟨[], 0, 0, 0, 0⟩ := by
      rcases hstart with ⟨settings, clock, interrupt, h⟩ | ⟨e, h⟩ <;> rw [tally, h] <;> rfl
    rw [htally]
    exact Ledger.balanced_empty
  have hbalanced : l.Balanced t.tally := balanced_ledgerFrom hempty ops
  have hdiscarded : l.count .discarded = s.discardsFrom 0 ops :=
    count_discarded_ledgerFrom hempty ops
  refine ⟨offered_ledgerFrom s {} ops, hbalanced, hdiscarded, ?_, ?_, _, rfl, ?_⟩
  · rw [hbalanced.length_offered, hdiscarded]
    rfl
  · intro op hop
    exact ⟨t.settled_prefix_record l hop, tally_le_perform hbalanced hop⟩
  · have hle : t.engine.stats.received ≤ (t.perform .poll).2.engine.stats.received :=
      (tally_le_perform hbalanced (by decide : Operation.poll ≠ .reset)).2.1
    exact (Nat.add_sub_cancel' hle).symm

/-- Five frames of one byte: one comes before receive is enabled, one waits at a reset of the DMA
engine, one is written into a ring of one descriptor, one finds the ring spent, and one waits for
an idle channel. -/
theorem five_frames_are_accounted_for :
    let ops : List Operation :=
      [.deliver { bytes := [1] }, .writeRegister 0x814 1, .deliver { bytes := [2] },
        .writeRegister 0x81C 1, .writeRam 0x48486000 [0, 0x100, 16, 0x20000000],
        .writeRegister 0xA24 0x48486000, .writeRegister 0x814 1, .receive { bytes := [3] },
        .receive { bytes := [4] }, .writeRegister 0xA24 0, .receive { bytes := [5] }]
    (∃ settings clock interrupt, small.engine = .fresh settings clock interrupt) ∧
    (small.ledger ops).settled.map (fun x => (x.number, x.fate)) =
      [(0, .refused), (1, .discarded), (2, .received), (3, .overrun)] ∧
    (small.ledger ops).waiting = [4] ∧
    (small.ledger ops).offered.length = 1 + 1 + 1 + 0 + 1 + 1 := by
  intro ops
  obtain ⟨-, -, -, hlength, -⟩ :=
    every_frame_is_accounted_for small (Or.inl ⟨_, _, _, rfl⟩) ops
  refine ⟨⟨_, _, _, rfl⟩, by decide +kernel, by decide +kernel, hlength.trans ?_⟩
  decide +kernel

end System

end PacketDma
