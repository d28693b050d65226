/-
**The egress queue and its log.**

A head pointer write of a transmit channel sends one frame: its chain is rejected, or the frame goes
behind the frames that wait for the host, or it is dropped because as many frames wait as may wait.
The host takes the frames from the front.  A log lists these events in the order in which they
happen on all channels together.  The counters of the engine only say how many there are of each;
the log says which frame was sent when, and shows that no frame is lost or overtaken.

Main definitions:

* `PacketDma.EgressEntry` — what happens at the egress queue;
* `PacketDma.EgressTally` — what the engine knows about it;
* `PacketDma.EgressTally.Balanced` — the tally agrees with a log;
* `PacketDma.System.egressLog` — the log of a run.

Main results:

* `PacketDma.EgressTally.Balanced.send`, `PacketDma.EgressTally.Balanced.take` — an entry keeps the
  balance;
* `PacketDma.System.balanced_egress` — so does every action;
* `PacketDma.System.every_sent_frame_is_accounted_for` — **sent frames are conserved and kept in
  order**.
-/

import PacketDma.Proofs.Actions

set_option autoImplicit false

namespace PacketDma

/-! ### Entries -/

/-- What happens at the egress queue. -/
inductive EgressEntry where
  /-- A chain is rejected. -/
  | rejected (fault : DmaFault)
  /-- A frame is sent while the queue is full. -/
  | dropped (frame : Frame)
  /-- A frame is sent and waits for the host. -/
  | queued (frame : Frame)
  /-- The host takes a frame. -/
  | taken (frame : Frame)
deriving DecidableEq, Repr

namespace EgressEntry

/-- Whether a head pointer write has made the entry. -/
def isSend : EgressEntry → Bool
  | .taken _ => false
  | _ => true

def isRejected : EgressEntry → Bool
  | .rejected _ => true
  | _ => false

def isDropped : EgressEntry → Bool
  | .dropped _ => true
  | _ => false

/-- The frame that is put into the queue, if any. -/
def entering : EgressEntry → List Frame
  | .queued frame => [frame]
  | _ => []

/-- The frame that is taken out of the queue, if any. -/
def leaving : EgressEntry → List Frame
  | .taken frame => [frame]
  | _ => []

/-- Every send is rejected, dropped or queued. -/
theorem countP_isSend (log : List EgressEntry) :
    log.countP isSend =
      log.countP isRejected + log.countP isDropped + (log.flatMap entering).length := by
  induction log with
  | nil => rfl
  | cons entry rest ih =>
      rw [List.countP_cons, List.countP_cons, List.countP_cons, List.flatMap_cons,
        List.length_append, ih]
      cases entry <;> simp [isSend, isRejected, isDropped, entering] <;> omega

end EgressEntry

/-! ### The balance of a log -/

/-- What the engine knows about the frames that it has sent: those that wait for the host, how many
may wait, and three counts. -/
structure EgressTally where
  limit : Nat
  waiting : List Frame
  transmitted : Nat
  rejected : Nat
  dropped : Nat
deriving DecidableEq, Repr

namespace EgressTally

open EgressEntry

/-- A frame goes behind the waiting ones, or is dropped when as many wait as may wait. -/
def enqueue (t : EgressTally) (frame : Frame) : EgressTally :=
  if t.limit ≤ t.waiting.length then { t with dropped := t.dropped + 1 }
  else { t with waiting := t.waiting ++ [frame] }

/-- The entry of a frame that is sent. -/
def sent (t : EgressTally) (frame : Frame) : EgressEntry :=
  if t.limit ≤ t.waiting.length then .dropped frame else .queued frame

/-- A tally agrees with a log: the frames that have been taken and those that wait are the frames
that have been queued, in their order, and the counts say how many entries there are of each
kind. -/
structure Balanced (t : EgressTally) (log : List EgressEntry) : Prop where
  order : log.flatMap leaving ++ t.waiting = log.flatMap entering
  bounded : t.waiting.length ≤ t.limit
  transmitted : t.transmitted = t.dropped + (log.flatMap entering).length
  rejected : t.rejected = log.countP isRejected
  dropped : t.dropped = log.countP isDropped

namespace Balanced

variable {t : EgressTally} {log : List EgressEntry}

theorem empty (limit : Nat) : Balanced ⟨limit, [], 0, 0, 0⟩ [] :=
  ⟨rfl, Nat.zero_le _, rfl, rfl, rfl⟩

theorem reject (h : t.Balanced log) (fault : DmaFault) :
    Balanced { t with rejected := t.rejected + 1 } (log ++ [.rejected fault]) where
  order := by simpa [leaving, entering] using h.order
  bounded := h.bounded
  transmitted := by simpa [entering] using h.transmitted
  rejected := by simp [isRejected, h.rejected]
  dropped := by simpa [isDropped] using h.dropped

/-- **A frame that is sent keeps the balance.** -/
theorem send (h : t.Balanced log) (frame : Frame) :
    (enqueue { t with transmitted := t.transmitted + 1 } frame).Balanced
      (log ++ [t.sent frame]) := by
  unfold enqueue sent
  by_cases hfull : t.limit ≤ t.waiting.length
  · rw [if_pos hfull, if_pos hfull]
    exact
      { order := by simpa [leaving, entering] using h.order
        bounded := h.bounded
        transmitted := by
          rw [List.flatMap_append, List.length_append, ← Nat.add_right_comm]
          exact congrArg (· + 1) h.transmitted
        rejected := by simpa [isRejected] using h.rejected
        dropped := by simp [isDropped, h.dropped] }
  · rw [if_neg hfull, if_neg hfull]
    exact
      { order := by simp [leaving, entering, ← h.order]
        bounded := by
          rw [List.length_append, List.length_singleton]
          exact Nat.not_le.1 hfull
        transmitted := by
          rw [List.flatMap_append, List.length_append]
          exact congrArg (· + 1) h.transmitted
        rejected := by simpa [isRejected] using h.rejected
        dropped := by simpa [isDropped] using h.dropped }

/-- **A frame that is taken keeps the balance.** -/
theorem take (h : t.Balanced log) :
    Balanced { t with waiting := t.waiting.tail }
      (log ++ t.waiting.head?.toList.map .taken) := by
  obtain ⟨limit, waiting, transmitted, rejected, dropped⟩ := t
  cases waiting with
  | nil => simpa using h
  | cons frame rest =>
      exact
        { order := by simpa [leaving, entering] using h.order
          bounded := Nat.le_of_succ_le h.bounded
          transmitted := by simpa [entering] using h.transmitted
          rejected := by simpa [isRejected] using h.rejected
          dropped := by simpa [isDropped] using h.dropped }

/-- The frames that have been sent. -/
theorem transmitted_eq (h : t.Balanced log) :
    t.transmitted = t.dropped + (log.flatMap leaving).length + t.waiting.length := by
  have hlength := congrArg List.length h.order
  rw [List.length_append] at hlength
  have htransmitted := h.transmitted
  omega

/-- The sends. -/
theorem countP_isSend_eq (h : t.Balanced log) :
    log.countP isSend = t.transmitted + t.rejected := by
  have htransmitted := h.transmitted
  have hrejected := h.rejected
  have hdropped := h.dropped
  rw [EgressEntry.countP_isSend]
  omega

end Balanced

end EgressTally

/-! ### The tally of an engine -/

namespace Engine

/-- What the engine knows about the frames that it has sent. -/
def egressTally (e : Engine) : EgressTally where
  limit := e.settings.egressLimit
  waiting := e.egress
  transmitted := e.stats.transmitted
  rejected := e.stats.transmitErrors
  dropped := e.stats.egressDropped

theorem egressTally_stampFrame (e : Engine) (frameClass : FrameClass) (port : UInt8)
    (kind : EventKind) (frame : Frame) :
    (e.stampFrame frameClass port kind frame).egressTally = e.egressTally := by
  unfold stampFrame
  split <;> rfl

theorem egressTally_enqueueEgress (e : Engine) (frame : Frame) :
    (e.enqueueEgress frame).egressTally = e.egressTally.enqueue frame := by
  unfold enqueueEgress EgressTally.enqueue egressTally
  split <;> rfl

/-- What sending a frame does to the tally. -/
theorem egressTally_emit (e : Engine) (channel : ChannelId) (g : Gathered) :
    (e.emit channel g).egressTally =
      ({ e.egressTally with transmitted := e.egressTally.transmitted + 1 } :
        EgressTally).enqueue (outgoing g) := by
  unfold emit
  rw [egressTally_enqueueEgress, egressTally_stampFrame]
  rfl

theorem egressTally_countFailure (e : Engine) (channel : ChannelId) (fault : DmaFault) :
    (e.countFailure channel fault).egressTally = e.egressTally := by
  cases fault <;> rfl

end Engine

namespace System

/-- A frame that comes in does not touch the frames that have been sent. -/
theorem egressTally_fill (s : System) (frame : InboundFrame) :
    (s.fill frame).2.engine.egressTally = s.engine.egressTally := by
  cases hplan : s.engine.plan s.memory (s.engine.channelOf frame) frame.bytes.length with
  | error fault =>
      rw [fill_of_error hplan]
      exact Engine.egressTally_countFailure ..
  | ok plan =>
      obtain ⟨memory, ram, -, hfill⟩ := exists_fill_of_plan hplan
      rw [hfill]
      exact Engine.egressTally_stampFrame ..

theorem egressTally_drain (s : System) : s.drain.2.engine.egressTally = s.engine.egressTally :=
  drain_induction (P := fun t => t.engine.egressTally = s.engine.egressTally)
    (fun t frame rest _ _ ht => (egressTally_fill (t.mapEngine (·.setWaiting rest)) frame).trans ht)
    rfl

theorem egressTally_receive (s : System) (frame : InboundFrame) :
    (s.receive frame).2.engine.egressTally = s.engine.egressTally := by
  rcases s.receive_cases frame with hrefused | htaken
  · rw [hrefused]
    rfl
  · rw [htaken]
    exact egressTally_drain _

theorem SameTraffic.egressTally {s t : System} (h : s.SameTraffic t) :
    t.engine.egressTally = s.engine.egressTally := by
  unfold Engine.egressTally
  rw [h.settings, h.egress, h.stats]

/-! ### The log of a run -/

/-- The entry of a head pointer write: the chain from `head` on decides. -/
def sendEntry (s : System) (channel : ChannelId) (head : UInt32) : EgressEntry :=
  match gather s.engine.ram s.memory channel head s.engine.settings.walkLimit with
  | .error fault => .rejected fault
  | .ok g => s.engine.egressTally.sent (Engine.outgoing g)

/-- The entries of an action. -/
def egressEntries (s : System) : Action → List EgressEntry
  | .store (.transmitHead channel) value => if value = 0 then [] else [s.sendEntry channel value]
  | .takeEgress => s.engine.takeEgress.1.toList.map .taken
  | _ => []

/-- A head pointer write that is not zero makes one entry. -/
theorem egressEntries_transmitHead (s : System) (channel : ChannelId) {value : UInt32}
    (h : value ≠ 0) :
    s.egressEntries (.store (.transmitHead channel) value) = [s.sendEntry channel value] :=
  if_neg h

/-- An action that neither sends nor takes a frame makes no entry. -/
theorem egressEntries_of_isQuiet (s : System) {action : Action} (h : action.isQuiet = true) :
    s.egressEntries action = [] := by
  cases action with
  | takeEgress => cases h
  | store register value =>
      cases register with
      | transmitHead channel => exact if_pos (eq_of_beq h)
      | _ => rfl
  | _ => rfl

theorem extend_egressEntries_of_isQuiet {s : System} {log : List EgressEntry} {action : Action}
    (h : action.isQuiet = true) : s.extend egressEntries log action = log := by
  have hreset : action ≠ .reset := by
    rintro rfl
    cases h
  rw [extend_of_ne hreset, egressEntries_of_isQuiet s h, List.append_nil]

/-- The log of a run. -/
def egressLog (s : System) (ops : List Operation) : List EgressEntry := s.log egressEntries ops

end System

namespace Operation

/-- Whether an operation writes a head pointer of a transmit channel that is not zero. -/
def sends (op : Operation) : Bool :=
  match op.registerWrite? with
  | some (.transmitHead _, value) => value != 0
  | _ => false

/-- How many such writes there have been since the last full reset, after one more operation. -/
def countSends (count : Nat) (op : Operation) : Nat :=
  if op = .reset then 0 else if op.sends then count + 1 else count

theorem sends_iff {op : Operation} : op.sends = true ↔
    ∃ channel value, op.action = .store (.transmitHead channel) value ∧ value ≠ 0 := by
  constructor
  · intro h
    unfold sends at h
    split at h
    · next hwrite => exact ⟨_, _, action_eq_store_iff.2 hwrite, by simpa using h⟩
    · cases h
  · rintro ⟨channel, value, haction, hvalue⟩
    rw [sends, action_eq_store_iff.1 haction]
    simpa using hvalue

end Operation

namespace System

open EgressEntry

variable {s : System} {log : List EgressEntry}

/-- **A transmission keeps the balance.** -/
theorem balanced_transmit (h : s.engine.egressTally.Balanced log) (channel : ChannelId) :
    (s.transmit channel).2.engine.egressTally.Balanced
      (log ++ [s.sendEntry channel (s.engine.channels.transmitChannel channel).head]) := by
  cases hgather : gather s.engine.ram s.memory channel
      (s.engine.channels.transmitChannel channel).head s.engine.settings.walkLimit with
  | error fault =>
      rw [transmit_of_error hgather, sendEntry, hgather]
      exact h.reject fault
  | ok g =>
      obtain ⟨ram, -, htransmit⟩ := exists_transmit_of_gather hgather
      have htally := Engine.egressTally_emit { s.engine with ram } channel g
      rw [htransmit, sendEntry, hgather]
      -- idling the channel afterwards does not touch the tally
      exact htally ▸ h.send (Engine.outgoing g)

/-- **Every action keeps the balance.** -/
theorem balanced_egress (h : s.engine.egressTally.Balanced log) (action : Action) :
    (s.act action).engine.egressTally.Balanced (s.extend egressEntries log action) := by
  cases act_cases s action with
  | reset => exact .empty _
  | takeEgress => exact h.take
  | send channel value hvalue =>
      have hsent := balanced_transmit (s := s.mapEngine (·.setTransmitHead channel value)) h channel
      rw [engine_mapEngine, Engine.head_setTransmitHead] at hsent
      rw [extend_store, egressEntries_transmitHead s channel hvalue]
      simp only [act, store, hvalue, if_false]
      exact hsent
  | quiet hquiet hsame =>
      rw [extend_egressEntries_of_isQuiet hquiet, hsame.egressTally]
      exact h
  | drain hquiet hsame hact =>
      rw [extend_egressEntries_of_isQuiet hquiet, hact, egressTally_drain, hsame.egressTally]
      exact h

/-! ### Sends -/

theorem isSend_sendEntry (s : System) (channel : ChannelId) (head : UInt32) :
    (s.sendEntry channel head).isSend = true := by
  unfold sendEntry EgressTally.sent
  split
  · rfl
  · split <;> rfl

/-- A head pointer write that is not zero makes one entry for a send, and nothing else does. -/
theorem countP_isSend_egressEntries (s : System) (op : Operation) :
    (s.egressEntries op.action).countP isSend = if op.sends then 1 else 0 := by
  by_cases hsends : op.sends = true
  · obtain ⟨channel, value, haction, hvalue⟩ := Operation.sends_iff.1 hsends
    rw [if_pos hsends, haction, egressEntries_transmitHead s channel hvalue]
    simp [isSend_sendEntry]
  · rw [if_neg hsends]
    rw [Operation.sends_iff] at hsends
    have hcases := act_cases s op.action
    generalize op.action = action at hsends hcases ⊢
    cases hcases with
    | reset => rfl
    | takeEgress =>
        show (s.engine.takeEgress.1.toList.map EgressEntry.taken).countP isSend = 0
        cases s.engine.takeEgress.1 <;> rfl
    | send channel value hvalue => exact absurd ⟨channel, value, rfl, hvalue⟩ hsends
    | quiet hquiet _ | drain hquiet _ _ =>
        rw [egressEntries_of_isQuiet s hquiet]
        rfl

/-- The log has an entry for every send since the last full reset. -/
theorem countP_isSend_logFrom (s : System) (log : List EgressEntry) (ops : List Operation) :
    (s.logFrom egressEntries log ops).countP isSend =
      ops.foldl Operation.countSends (log.countP isSend) := by
  induction ops generalizing s log with
  | nil => rfl
  | cons op rest ih =>
      rw [logFrom, ih, List.foldl_cons]
      congr 1
      unfold Operation.countSends
      by_cases hreset : op = .reset
      · rw [if_pos hreset, hreset]
        rfl
      · rw [extend_of_ne (mt Operation.action_eq_reset_iff.1 hreset), if_neg hreset,
          List.countP_append, countP_isSend_egressEntries]
        split <;> rfl

/-- A frame is only dropped when as many frames wait as may wait. -/
theorem le_length_of_isDropped_sendEntry {channel : ChannelId} {head : UInt32}
    (h : (s.sendEntry channel head).isDropped = true) :
    s.engine.settings.egressLimit ≤ s.engine.egress.length := by
  by_contra hroom
  have hsent (frame : Frame) : s.engine.egressTally.sent frame = .queued frame := if_neg hroom
  unfold sendEntry at h
  simp only [hsent] at h
  split at h <;> cases h

theorem full_of_egressDropped_lt (h : s.engine.egressTally.Balanced log) {op : Operation}
    (hdropped : s.engine.stats.egressDropped < (s.perform op).2.engine.stats.egressDropped) :
    op.sends = true ∧ s.engine.egress.length = s.engine.settings.egressLimit := by
  rw [perform_eq_act] at hdropped
  have hnext := (balanced_egress h op.action).dropped
  have hcases := act_cases s op.action
  rw [Operation.sends_iff]
  generalize op.action = action at hdropped hnext hcases ⊢
  cases hcases with
  | reset => exact absurd hdropped (Nat.not_lt_zero _)
  | takeEgress => exact absurd hdropped (Nat.lt_irrefl _)
  | send channel value hvalue =>
      refine ⟨⟨channel, value, rfl, hvalue⟩, ?_⟩
      have hentry : (s.sendEntry channel value).isDropped = true := by
        by_contra hkept
        have hbefore := h.dropped
        rw [extend_store, egressEntries_transmitHead s channel hvalue, List.countP_append,
          List.countP_singleton, if_neg hkept, Nat.add_zero, ← hbefore] at hnext
        exact absurd hnext (Nat.ne_of_gt hdropped)
      exact Nat.le_antisymm h.bounded (le_length_of_isDropped_sendEntry hentry)
  | quiet _ hsame =>
      have hkept := congrArg EgressTally.dropped hsame.egressTally
      exact absurd hkept (Nat.ne_of_gt hdropped)
  | drain _ hsame hact =>
      rw [hact] at hdropped
      have hkept := congrArg EgressTally.dropped ((egressTally_drain _).trans hsame.egressTally)
      exact absurd hkept (Nat.ne_of_gt hdropped)

/-! ### Runs -/

/-- **Sent frames are conserved and kept in order.**  At every moment of a run that begins with a
fresh or a fully reset engine, each head pointer write that is not zero since the last full reset
has been counted as a frame or as a rejected chain; each frame has been dropped, or has been taken
by the host, or waits; the frames that have been taken and those that wait are those that were
queued, in the order of the writes on all channels together; a frame is only dropped when as many
frames wait as may wait; and a reset of the DMA engine changes nothing of this. -/
theorem every_sent_frame_is_accounted_for (s : System)
    (hstart : (∃ settings clock interrupt, s.engine = .fresh settings clock interrupt) ∨
      ∃ e : Engine, s.engine = e.reset)
    (ops : List Operation) :
    let t := (s.run ops).2
    let log := s.egressLog ops
    ops.foldl Operation.countSends 0 =
      t.engine.stats.transmitted + t.engine.stats.transmitErrors ∧
    t.engine.stats.transmitErrors = log.countP isRejected ∧
    t.engine.stats.egressDropped = log.countP isDropped ∧
    t.engine.stats.transmitted =
      t.engine.stats.egressDropped + (log.flatMap leaving).length + t.engine.egress.length ∧
    log.flatMap leaving ++ t.engine.egress = log.flatMap entering ∧
    (∃ frame?, (t.perform .takeEgress).1 = .frame frame? ∧
      s.egressLog (ops ++ [.takeEgress]) = log ++ frame?.toList.map .taken) ∧
    ∀ op,
      let u := (t.perform op).2
      (t.engine.stats.egressDropped < u.engine.stats.egressDropped →
        op.sends = true ∧ t.engine.egress.length = t.engine.settings.egressLimit) ∧
      ∀ value, op.registerWrite? = some (.dmaReset, value) →
        u.engine.egress = t.engine.egress ∧ u.engine.stats = t.engine.stats ∧
        s.egressLog (ops ++ [op]) = log := by
  intro t log
  have hempty : s.engine.egressTally.Balanced [] := by
    have htally : s.engine.egressTally = ⟨s.engine.settings.egressLimit, [], 0, 0, 0⟩ := by
      rcases hstart with ⟨settings, clock, interrupt, h⟩ | ⟨e, h⟩ <;> rw [h] <;> rfl
    rw [htally]
    exact .empty _
  have hbalanced : t.engine.egressTally.Balanced log :=
    log_induction (I := fun log s => s.engine.egressTally.Balanced log)
      (fun op _ s log h => balanced_egress h op.action) hempty
  have hsends : log.countP isSend = ops.foldl Operation.countSends 0 :=
    countP_isSend_logFrom s [] ops
  refine ⟨hsends.symm.trans hbalanced.countP_isSend_eq, hbalanced.rejected, hbalanced.dropped,
    hbalanced.transmitted_eq, hbalanced.order,
    ⟨t.engine.takeEgress.1, rfl, log_concat egressEntries s ops .takeEgress⟩, ?_⟩
  intro op u
  refine ⟨full_of_egressDropped_lt hbalanced, ?_⟩
  intro value hwrite
  have haction := Operation.action_eq_store_iff.2 hwrite
  have hu : u = t.act op.action := perform_eq_act t op
  refine ⟨?_, ?_, ?_⟩
  · rw [hu, haction]
    simp only [act, store]
    split <;> rfl
  · rw [hu, haction]
    simp only [act, store]
    split <;> rfl
  · rw [egressLog, log_concat, haction, extend_store]
    exact List.append_nil _

/-- Three sends with room for one frame: the first frame waits until the host takes it, the second
one is dropped, and the third chain belongs to software by then. -/
theorem three_sends_are_accounted_for :
    let s : System :=
      ⟨Engine.fresh ⟨{ ramSize := 64, egressLimit := 1 }, by decide⟩ {} {}, .dense (Dense.ofSize 64)⟩
    let ops : List Operation :=
      [.writeMemory 0x20 [7, 8], .writeRam 0x48486000 [0, 0x20, 1, 0xE4000001],
        .writeRam 0x48486010 [0, 0x21, 1, 0xE4000001], .writeRegister 0xA00 0x48486000,
        .writeRegister 0xA1C 0x48486010, .takeEgress, .writeRegister 0xA00 0x48486000]
    (∃ settings clock interrupt, s.engine = .fresh settings clock interrupt) ∧
    s.egressLog ops =
      [.queued [7], .dropped [8], .taken [7], .rejected (.chain 0 (.notOwned 0x48486000))] ∧
    ops.foldl Operation.countSends 0 = 2 + 1 := by
  intro s ops
  obtain ⟨hsends, -⟩ := every_sent_frame_is_accounted_for s (Or.inl ⟨_, _, _, rfl⟩) ops
  refine ⟨⟨_, _, _, rfl⟩, by decide +kernel, hsends.trans ?_⟩
  decide +kernel

end System

end PacketDma
