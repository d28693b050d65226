/-
**The log of timestamps.**

A frame passes the engine when it has been written into a ring, or when it has been gathered and
sent.  If it belongs to the precision time protocol and stamps are enabled at that moment, an event
is queued, the clock is read once, and the interrupt line is raised and lowered; nothing else does
any of this.  A log lists the frames that pass, in both directions together, and the events that
software removes.  The events of the log and those still queued are then exactly the stamped frames,
in the order in which they have passed.

Main definitions:

* `PacketDma.Passage` — a frame that passes, and `PacketDma.Passage.isStamped`, whether an event is
  due;
* `PacketDma.StampTally` — what the engine knows about the frames that have passed;
* `PacketDma.StampTally.Faithful` — the tally agrees with a log;
* `PacketDma.System.receipts`, `PacketDma.System.departures` — the frames that pass in a drain and in
  a transmission;
* `PacketDma.System.timestampLog` — the log of a run.

Main results:

* `PacketDma.System.stampTally_drain`, `PacketDma.System.stampTally_transmit` — what a drain and a
  transmission do to the tally;
* `PacketDma.System.faithful_act` — every action keeps the tally faithful;
* `PacketDma.System.timestamp_log_is_faithful` — **the events are the stamped frames**.
-/

import PacketDma.Proofs.Actions
import PacketDma.Proofs.Confinement
import PacketDma.Proofs.EventCodec

set_option autoImplicit false

namespace PacketDma

/-! ### Passages -/

/-- A frame that passes the engine. -/
structure Passage where
  /-- The class of the frame when it passes. -/
  frameClass : FrameClass
  /-- The word of the register that enables events when it passes. -/
  enable : UInt32
  port : UInt8
  kind : EventKind
  /-- The bytes of the frame, without a check sequence that the engine adds. -/
  frame : Frame
deriving DecidableEq, Repr

namespace Passage

/-- An event is due for frames of the precision time protocol, while stamps are enabled by the lowest
bit of the register. -/
def isStamped (p : Passage) : Bool := p.frameClass = .ptp && p.enable.toNat.testBit 0

/-- What the event of a passage says. -/
def metadata (p : Passage) : EventMetadata where
  port := p.port
  kind := p.kind
  messageType := p.frame.byteAt 14 &&& 0x0F
  sequenceId := p.frame.word 44

/-- A passage names the port of the receive side, or a port that a transmit descriptor can name. -/
structure Canonical (p : Passage) : Prop where
  received : p.kind = .received → p.port = receivePort
  port : p.port &&& 0x3 = p.port

theorem Canonical.metadata {p : Passage} (h : p.Canonical) : p.metadata.Canonical where
  port := by
    show p.port &&& 0x1F = p.port
    rw [← h.port, UInt8.and_assoc]
    rfl
  messageType := by
    show (p.frame.byteAt 14 &&& 0x0F) &&& 0x0F = p.frame.byteAt 14 &&& 0x0F
    rw [UInt8.and_assoc, UInt8.and_self]

end Passage

/-- What is logged. -/
inductive TimestampEntry where
  /-- A frame passes. -/
  | passed (passage : Passage)
  /-- Software removes an event. -/
  | removed (event : Event)
deriving DecidableEq, Repr

namespace TimestampEntry

/-- The frame that passes, if any. -/
def passages : TimestampEntry → List Passage
  | .passed passage => [passage]
  | .removed _ => []

/-- The event that is removed, if any. -/
def removals : TimestampEntry → List Event
  | .passed _ => []
  | .removed event => [event]

end TimestampEntry

/-- The events of passages that are stamped, when the clock is read once for each of them. -/
def stampAll (clock : Clock) (stamped : List Passage) : List Event :=
  stamped.mapIdx fun n p => ⟨p.metadata.word, (clock.reading n).toUInt32⟩

theorem stampAll_concat (clock : Clock) (stamped : List Passage) (p : Passage) :
    stampAll clock (stamped ++ [p]) =
      stampAll clock stamped ++ [⟨p.metadata.word, (clock.after stamped.length).stamp⟩] := by
  rw [stampAll, List.mapIdx_concat]
  rfl

/-! ### The tally of an engine -/

/-- What the engine knows about the frames that have passed it. -/
structure StampTally where
  events : EventQueue
  clock : Clock
  line : InterruptLine
  stamped : Nat
  received : Nat
  transmitted : Nat

namespace StampTally

open TimestampEntry

/-- Counts a frame. -/
def count (t : StampTally) : EventKind → StampTally
  | .received => { t with received := t.received + 1 }
  | .transmitted => { t with transmitted := t.transmitted + 1 }

/-- Queues an event and announces it. -/
def stamp (t : StampTally) (m : EventMetadata) : StampTally :=
  { t with
    events := t.events.push ⟨m.word, t.clock.stamp⟩
    clock := t.clock.next
    line := t.line.pulse
    stamped := t.stamped + 1 }

/-- A frame passes. -/
def pass (t : StampTally) (p : Passage) : StampTally :=
  if p.isStamped then (t.count p.kind).stamp p.metadata else t.count p.kind

/-- Software removes the oldest event. -/
def remove (t : StampTally) : StampTally := { t with events := t.events.pop.2 }

@[simp] theorem events_count (t : StampTally) (kind : EventKind) :
    (t.count kind).events = t.events := by
  cases kind <;> rfl

@[simp] theorem clock_count (t : StampTally) (kind : EventKind) :
    (t.count kind).clock = t.clock := by
  cases kind <;> rfl

@[simp] theorem line_count (t : StampTally) (kind : EventKind) : (t.count kind).line = t.line := by
  cases kind <;> rfl

@[simp] theorem stamped_count (t : StampTally) (kind : EventKind) :
    (t.count kind).stamped = t.stamped := by
  cases kind <;> rfl

theorem received_count (t : StampTally) (kind : EventKind) :
    (t.count kind).received = t.received + if kind = .received then 1 else 0 := by
  cases kind <;> rfl

theorem transmitted_count (t : StampTally) (kind : EventKind) :
    (t.count kind).transmitted = t.transmitted + if kind = .transmitted then 1 else 0 := by
  cases kind <;> rfl

/-- A tally agrees with a log that was started with the given clock and interrupt line: the events
that have been removed and those that are queued are those of the stamped frames, the clock has been
read and the line raised and lowered once for each of them, and all frames are counted. -/
structure Faithful (clock : Clock) (line : InterruptLine) (t : StampTally)
    (log : List TimestampEntry) : Prop where
  events : log.flatMap removals ++ t.events.events =
    stampAll clock ((log.flatMap passages).filter Passage.isStamped)
  clock : t.clock = clock.after t.stamped
  pulses : t.line.pulses = line.pulses + t.stamped
  level : line.level = false → t.line.level = false
  stamped : t.stamped = ((log.flatMap passages).filter Passage.isStamped).length
  received : t.received = (log.flatMap passages).countP (·.kind = .received)
  transmitted : t.transmitted = (log.flatMap passages).countP (·.kind = .transmitted)
  canonical : ∀ p ∈ log.flatMap passages, p.Canonical

namespace Faithful

variable {clock : Clock} {line : InterruptLine} {t : StampTally} {log : List TimestampEntry}

theorem empty (clock : Clock) (line : InterruptLine) :
    Faithful clock line ⟨{}, clock, line, 0, 0, 0⟩ [] :=
  ⟨rfl, rfl, rfl, id, rfl, rfl, rfl, by simp⟩

theorem canonical_concat (h : t.Faithful clock line log) {p : Passage} (hp : p.Canonical) :
    ∀ q ∈ (log ++ [TimestampEntry.passed p]).flatMap passages, q.Canonical := by
  intro q hq
  rw [List.flatMap_append] at hq
  rcases List.mem_append.1 hq with hq | hq
  · exact h.canonical q hq
  · rw [List.mem_singleton.1 hq]
    exact hp

/-- A frame that is not stamped is counted. -/
theorem count (h : t.Faithful clock line log) {p : Passage} (hp : p.Canonical)
    (hstamped : p.isStamped = false) :
    (t.count p.kind).Faithful clock line (log ++ [TimestampEntry.passed p]) where
  events := by simpa [passages, removals, hstamped] using h.events
  clock := by simpa using h.clock
  pulses := by simpa using h.pulses
  level := by simpa using h.level
  stamped := by simpa [passages, hstamped] using h.stamped
  received := by simp [passages, received_count, h.received, List.countP_singleton]
  transmitted := by simp [passages, transmitted_count, h.transmitted, List.countP_singleton]
  canonical := h.canonical_concat hp

/-- A frame that is stamped is counted, and its event is queued. -/
theorem stamp (h : t.Faithful clock line log) {p : Passage} (hp : p.Canonical)
    (hstamped : p.isStamped = true) :
    ((t.count p.kind).stamp p.metadata).Faithful clock line
      (log ++ [TimestampEntry.passed p]) where
  events := by
    have hstamp : t.clock.stamp =
        (clock.after ((log.flatMap passages).filter Passage.isStamped).length).stamp := by
      rw [h.clock, h.stamped]
    have hpassages : ((log ++ [TimestampEntry.passed p]).flatMap passages).filter
        Passage.isStamped = (log.flatMap passages).filter Passage.isStamped ++ [p] := by
      simp [passages, hstamped]
    rw [hpassages, stampAll_concat, ← h.events]
    simp [StampTally.stamp, removals, hstamp]
  clock := by
    show (t.count p.kind).clock.next = clock.after ((t.count p.kind).stamped + 1)
    rw [clock_count, stamped_count, h.clock]
    rfl
  pulses := by
    show (t.count p.kind).line.pulse.pulses = line.pulses + ((t.count p.kind).stamped + 1)
    rw [line_count, stamped_count, InterruptLine.pulses_pulse, h.pulses, Nat.add_assoc]
  level := fun _ => rfl
  stamped := by simp [StampTally.stamp, passages, hstamped, h.stamped]
  received := by
    simp [StampTally.stamp, passages, received_count, h.received, List.countP_singleton]
  transmitted := by
    simp [StampTally.stamp, passages, transmitted_count, h.transmitted, List.countP_singleton]
  canonical := h.canonical_concat hp

/-- **A frame that passes keeps the tally faithful.** -/
theorem pass (h : t.Faithful clock line log) {p : Passage} (hp : p.Canonical) :
    (t.pass p).Faithful clock line (log ++ [TimestampEntry.passed p]) := by
  unfold StampTally.pass
  by_cases hstamped : p.isStamped = true
  · rw [if_pos hstamped]
    exact h.stamp hp hstamped
  · rw [if_neg hstamped]
    exact h.count hp (Bool.not_eq_true _ ▸ hstamped)

/-- Frames that pass one after the other keep the tally faithful. -/
theorem passAll (h : t.Faithful clock line log) {ps : List Passage}
    (hps : ∀ p ∈ ps, p.Canonical) :
    (ps.foldl StampTally.pass t).Faithful clock line (log ++ ps.map .passed) := by
  induction ps generalizing t log with
  | nil =>
      rw [List.map_nil, List.append_nil]
      exact h
  | cons p rest ih =>
      have hrest := ih (h.pass (hps p (List.mem_cons_self ..)))
        fun q hq => hps q (List.mem_cons_of_mem _ hq)
      rwa [List.append_assoc] at hrest

/-- **An event that is removed keeps the tally faithful.** -/
theorem remove (h : t.Faithful clock line log) :
    t.remove.Faithful clock line (log ++ t.events.pop.1.toList.map .removed) := by
  obtain ⟨⟨events⟩, now, level, stamped, received, transmitted⟩ := t
  cases events with
  | nil => simpa [StampTally.remove] using h
  | cons event rest =>
      exact
        { events := by simpa [StampTally.remove, removals, passages] using h.events
          clock := h.clock
          pulses := h.pulses
          level := h.level
          stamped := by simpa [StampTally.remove, passages] using h.stamped
          received := by simpa [StampTally.remove, passages] using h.received
          transmitted := by simpa [StampTally.remove, passages] using h.transmitted
          canonical := by simpa [passages] using h.canonical }

end Faithful

end StampTally

/-! ### The tally of an engine -/

namespace Engine

/-- What the engine knows about the frames that have passed it. -/
def stampTally (e : Engine) : StampTally where
  events := e.events
  clock := e.clock
  line := e.interrupt
  stamped := e.stats.events
  received := e.stats.received
  transmitted := e.stats.transmitted

/-- The engine stamps the frames for which an event is due. -/
theorem isStamped_iff (e : Engine) (frameClass : FrameClass) (port : UInt8) (kind : EventKind)
    (frame : Frame) :
    (Passage.mk frameClass (e.register .eventEnable) port kind frame).isStamped = true ↔
      frameClass = .ptp ∧ e.stampsEnabled = true := by
  have hbit : (e.register .eventEnable).toNat.testBit 0 = e.stampsEnabled := by
    have hword : (e.register .eventEnable &&& 1).toNat = (e.register .eventEnable).toNat % 2 := by
      rw [UInt32.toNat_and]
      exact Nat.and_one_is_mod _
    rw [Nat.testBit_zero, stampsEnabled, Bool.eq_iff_iff, decide_eq_true_iff, bne_iff_ne, ne_eq,
      ← UInt32.toNat_inj, hword]
    exact Nat.mod_two_ne_zero.symm
  rw [Passage.isStamped, hbit, Bool.and_eq_true, decide_eq_true_iff]

theorem stampTally_stampFrame (e : Engine) (frameClass : FrameClass) (port : UInt8)
    (kind : EventKind) (frame : Frame) :
    (e.stampFrame frameClass port kind frame).stampTally =
      let p : Passage := ⟨frameClass, e.register .eventEnable, port, kind, frame⟩
      if p.isStamped then e.stampTally.stamp p.metadata else e.stampTally := by
  unfold stampFrame
  by_cases h : frameClass = .ptp ∧ e.stampsEnabled = true
  · rw [if_pos h, if_pos ((isStamped_iff ..).2 h)]
    rfl
  · rw [if_neg h, if_neg (mt (isStamped_iff ..).1 h)]

theorem stampTally_enqueueEgress (e : Engine) (frame : Frame) :
    (e.enqueueEgress frame).stampTally = e.stampTally := by
  unfold enqueueEgress
  split <;> rfl

theorem stampTally_countFailure (e : Engine) (channel : ChannelId) (fault : DmaFault) :
    (e.countFailure channel fault).stampTally = e.stampTally := by
  cases fault <;> rfl

/-- A frame that has been received passes. -/
theorem stampTally_countReceived (e : Engine) (frameClass : FrameClass) (frame : Frame) :
    (e.countReceived frameClass frame).stampTally =
      e.stampTally.pass ⟨frameClass, e.register .eventEnable, receivePort, .received, frame⟩ :=
  stampTally_stampFrame { e with stats := { e.stats with received := e.stats.received + 1 } } ..

/-- A frame that is sent passes. -/
theorem stampTally_emit (e : Engine) (channel : ChannelId) (g : Gathered) :
    (e.emit channel g).stampTally =
      e.stampTally.pass
        ⟨e.classify g.frame, e.register .eventEnable, g.first.toPort, .transmitted, g.frame⟩ := by
  unfold emit
  rw [stampTally_enqueueEgress, stampTally_stampFrame]
  rfl

/-- The register that says whether an event is queued. -/
theorem readRegister_eventRaw (e : Engine) :
    e.readRegister 0xC20 = .ok (if e.events.events = [] then 0 else 1) := by
  have hdecode : Register.decode 0xC20 = some .eventRaw := by decide +kernel
  rw [readRegister, hdecode]
  show Except.ok (if e.events.pending then 1 else 0) = _
  cases hevents : e.events.events <;> simp [EventQueue.pending, hevents]

/-- The registers that show the oldest event fail when none is queued. -/
theorem readRegister_of_no_event {e : Engine} (h : e.events.events = []) :
    e.readRegister 0xC34 = .error .noEvent ∧ e.readRegister 0xC38 = .error .noEvent := by
  have hlow : Register.decode 0xC34 = some .eventLow := by decide +kernel
  have hhigh : Register.decode 0xC38 = some .eventHigh := by decide +kernel
  rw [readRegister, hlow, readRegister, hhigh]
  simp only [load, (EventQueue.peek_eq_noEvent_iff e.events).2 h]
  exact ⟨rfl, rfl⟩

/-- The registers that show the oldest event. -/
theorem readRegister_of_event {e : Engine} {event : Event}
    (h : e.events.events.head? = some event) :
    e.readRegister 0xC34 = .ok event.timestamp ∧ e.readRegister 0xC38 = .ok event.metadata := by
  have hlow : Register.decode 0xC34 = some .eventLow := by decide +kernel
  have hhigh : Register.decode 0xC38 = some .eventHigh := by decide +kernel
  obtain ⟨rest, hevents⟩ := List.head?_eq_some_iff.1 h
  have hpeek : e.events.peek = .ok event := by rw [EventQueue.peek, hevents]
  rw [readRegister, hlow, readRegister, hhigh]
  simp only [load, hpeek]
  exact ⟨rfl, rfl⟩

end Engine

namespace System

/-! ### Frames that pass -/

/-- The passage of a frame that is placed, if there is a place for it. -/
def receipt (s : System) (frame : InboundFrame) : List Passage :=
  match (s.fill frame).1 with
  | none =>
      [⟨s.engine.classOf frame, s.engine.register .eventEnable, receivePort, .received,
        frame.bytes⟩]
  | some _ => []

/-- The passages of the frames that a drain places. -/
def receipts (s : System) : List Passage := s.fills.flatMap fun f => f.1.receipt f.2

/-- The passage of the frame that the chain from `head` on holds, if the chain is not rejected. -/
def departure (s : System) (channel : ChannelId) (head : UInt32) : List Passage :=
  match gather s.engine.ram s.memory channel head s.engine.settings.walkLimit with
  | .error _ => []
  | .ok g =>
      [⟨s.engine.classify g.frame, s.engine.register .eventEnable, g.first.toPort, .transmitted,
        g.frame⟩]

theorem stampTally_fill (s : System) (frame : InboundFrame) :
    (s.fill frame).2.engine.stampTally =
      (s.receipt frame).foldl StampTally.pass s.engine.stampTally := by
  cases hplan : s.engine.plan s.memory (s.engine.channelOf frame) frame.bytes.length with
  | error fault =>
      rw [receipt, fill_of_error hplan]
      exact Engine.stampTally_countFailure ..
  | ok plan =>
      obtain ⟨memory, ram, -, hfill⟩ := exists_fill_of_plan hplan
      rw [receipt, hfill]
      exact Engine.stampTally_countReceived ..

/-- **What a drain does to the tally**: the frames that it places pass. -/
theorem stampTally_drain (s : System) :
    s.drain.2.engine.stampTally = s.receipts.foldl StampTally.pass s.engine.stampTally :=
  foldl_drain (fun _ _ => rfl) stampTally_fill s

/-- **What a transmission does to the tally**: the frame that it sends passes. -/
theorem stampTally_transmit (s : System) (channel : ChannelId) :
    (s.transmit channel).2.engine.stampTally =
      (s.departure channel (s.engine.channels.transmitChannel channel).head).foldl
        StampTally.pass s.engine.stampTally := by
  cases hgather : gather s.engine.ram s.memory channel
      (s.engine.channels.transmitChannel channel).head s.engine.settings.walkLimit with
  | error fault =>
      rw [transmit_of_error hgather, departure, hgather]
      rfl
  | ok g =>
      obtain ⟨ram, -, htransmit⟩ := exists_transmit_of_gather hgather
      rw [htransmit, departure, hgather]
      exact Engine.stampTally_emit { s.engine with ram } channel g

/-! ### The log of a run -/

/-- The entries of a write of a register. -/
def storeEntries (s : System) (value : UInt32) : Register → List TimestampEntry
  | .transmitHead channel => if value = 0 then [] else (s.departure channel value).map .passed
  | .receiveHead channel => (s.mapEngine (·.armReceive channel value)).receipts.map .passed
  | .receiveControl =>
      if value &&& 1 = 0 then [] else (s.mapEngine (·.controlReceive value)).receipts.map .passed
  | .eventPop => if value &&& 1 = 0 then [] else s.engine.events.pop.1.toList.map .removed
  | _ => []

/-- The entries of a frame that arrives. -/
def arrivalEntries (s : System) (frame : InboundFrame) : List TimestampEntry :=
  match s.engine.offer frame with
  | (some _, _) => []
  | (none, engine) => ({ s with engine } : System).receipts.map .passed

/-- The entries of an action. -/
def timestampEntries (s : System) : Action → List TimestampEntry
  | .drain => s.receipts.map .passed
  | .store register value => s.storeEntries value register
  | .arrive frame => s.arrivalEntries frame
  | _ => []

/-- The log of a run. -/
def timestampLog (s : System) (ops : List Operation) : List TimestampEntry :=
  s.log timestampEntries ops

variable {s : System} {clock : Clock} {line : InterruptLine} {log : List TimestampEntry}

theorem canonical_receipts (s : System) : ∀ p ∈ s.receipts, p.Canonical := by
  intro p hp
  obtain ⟨f, -, hf⟩ := List.mem_flatMap.1 hp
  unfold receipt at hf
  split at hf
  · rw [List.mem_singleton.1 hf]
    exact ⟨fun _ => rfl, (by decide : receivePort &&& 0x3 = receivePort)⟩
  · exact absurd hf List.not_mem_nil

theorem canonical_departure (s : System) (channel : ChannelId) (head : UInt32) :
    ∀ p ∈ s.departure channel head, p.Canonical := by
  intro p hp
  unfold departure at hp
  split at hp
  · exact absurd hp List.not_mem_nil
  · next g hgather =>
      have howned := first_of_gather hgather
      rw [List.mem_singleton.1 hp]
      refine ⟨fun hkind => EventKind.noConfusion hkind, ?_⟩
      -- the port is cut to two bits when the descriptor is read
      show g.first.toPort &&& 0x3 = g.first.toPort
      rw [howned.descriptor_eq, TransmitDescriptor.ofSlot, UInt32.toUInt8_and, UInt8.and_assoc]
      rfl

theorem faithful_drain (h : s.engine.stampTally.Faithful clock line log) :
    s.drain.2.engine.stampTally.Faithful clock line (log ++ s.receipts.map .passed) := by
  rw [stampTally_drain]
  exact h.passAll (canonical_receipts s)

theorem faithful_transmit (h : s.engine.stampTally.Faithful clock line log) (channel : ChannelId) :
    (s.transmit channel).2.engine.stampTally.Faithful clock line
      (log ++ (s.departure channel (s.engine.channels.transmitChannel channel).head).map
        .passed) := by
  rw [stampTally_transmit]
  exact h.passAll (canonical_departure s channel _)

/-- A write of a register keeps the tally faithful. -/
theorem faithful_store (h : s.engine.stampTally.Faithful clock line log) (register : Register)
    (value : UInt32) :
    (s.store value register).2.engine.stampTally.Faithful clock line
      (log ++ s.storeEntries value register) := by
  have hkept : s.engine.stampTally.Faithful clock line (log ++ []) := by rwa [List.append_nil]
  cases register with
  | transmitHead channel =>
      simp only [store, storeEntries]
      by_cases hzero : value = 0
      · rw [if_pos hzero, if_pos hzero]
        exact hkept
      · have hsent := faithful_transmit (s := s.mapEngine (·.setTransmitHead channel value)) h
          channel
        rw [engine_mapEngine, Engine.head_setTransmitHead] at hsent
        rw [if_neg hzero, if_neg hzero]
        exact hsent
  | receiveHead channel => exact faithful_drain (s := s.mapEngine (·.armReceive channel value)) h
  | receiveControl =>
      simp only [store, storeEntries]
      by_cases hzero : value &&& 1 = 0
      · rw [if_pos hzero, if_pos hzero]
        exact hkept
      · rw [if_neg hzero, if_neg hzero]
        exact faithful_drain (s := s.mapEngine (·.controlReceive value)) h
  | eventPop =>
      simp only [store, storeEntries]
      by_cases hzero : value &&& 1 = 0
      · rw [if_pos hzero, if_pos hzero]
        exact hkept
      · rw [if_neg hzero, if_neg hzero]
        exact h.remove
  | dmaReset =>
      simp only [store]
      split <;> exact hkept
  | _ => exact hkept

/-- A frame that arrives keeps the tally faithful. -/
theorem faithful_receive (h : s.engine.stampTally.Faithful clock line log) (frame : InboundFrame) :
    (s.receive frame).2.engine.stampTally.Faithful clock line (log ++ s.arrivalEntries frame) := by
  have hoffer : (s.engine.offer frame).2.stampTally = s.engine.stampTally := rfl
  unfold receive arrivalEntries
  cases heq : s.engine.offer frame with
  | mk fault engine =>
      rw [heq] at hoffer
      have hkept : engine.stampTally.Faithful clock line log := hoffer ▸ h
      cases fault with
      | none => exact faithful_drain (s := { s with engine }) hkept
      | some fault =>
          rw [List.append_nil]
          exact hkept

/-- **Every action keeps the tally faithful**, but for a full reset and for a host that queues or
takes events itself. -/
theorem faithful_act (h : s.engine.stampTally.Faithful clock line log) {action : Action}
    (hreset : action ≠ .reset) (hpush : ∀ event, action ≠ .pushEvent event)
    (hpop : action ≠ .popEvent) :
    (s.act action).engine.stampTally.Faithful clock line
      (s.extend timestampEntries log action) := by
  have hkept : s.engine.stampTally.Faithful clock line (log ++ []) := by rwa [List.append_nil]
  rw [extend_of_ne hreset]
  cases action with
  | reset => exact absurd rfl hreset
  | pushEvent event => exact absurd rfl (hpush event)
  | popEvent => exact absurd rfl hpop
  | drain => exact faithful_drain h
  | store register value => exact faithful_store h register value
  | arrive frame => exact faithful_receive h frame
  | storeRam offset bytes =>
      simp only [act, mapEngine, Engine.storeRam]
      split <;> exact hkept
  | writeMemory address bytes =>
      simp only [act, writeMemory]
      split <;> exact hkept
  | _ => exact hkept

/-! ### Runs -/

/-- **The events are the stamped frames.**  At every moment of a run that begins with a fresh
engine, in which the engine is not reset as a whole and the host leaves the event queue alone, the
events that software has removed and those still queued are those of the frames that have passed,
in both directions together, while they belonged to the precision time protocol and stamps were
enabled: one for each of them, in their order, with one reading of the clock each.  The frames that
have passed are those that the engine counts; the word of an event says what has been packed into
it; the interrupt line is low and has been raised once for every event; and the event registers
show whether an event is queued, and the oldest one. -/
theorem timestamp_log_is_faithful (settings : AcceptedSettings) (clock : Clock)
    (line : InterruptLine) (memory : Memory) (ops : List Operation)
    (hops : ∀ op ∈ ops, op ≠ .reset ∧ op ≠ .popEvent ∧ ∀ event, op ≠ .pushEvent event) :
    let s : System := ⟨.fresh settings clock line, memory⟩
    let e := (s.run ops).2.engine
    let passages := (s.timestampLog ops).flatMap TimestampEntry.passages
    let removals := (s.timestampLog ops).flatMap TimestampEntry.removals
    let stamped := passages.filter Passage.isStamped
    removals ++ e.events.events =
      stamped.mapIdx (fun n p => ⟨p.metadata.word, (clock.reading n).toUInt32⟩) ∧
    e.stats.received = passages.countP (·.kind = .received) ∧
    e.stats.transmitted = passages.countP (·.kind = .transmitted) ∧
    (∀ p ∈ passages, (p.kind = .received → p.port = 1) ∧
      EventMetadata.ofWord? p.metadata.word =
        some ⟨p.port, p.kind, p.frame.byteAt 14 &&& 0x0F, p.frame.word 44⟩) ∧
    e.stats.events = stamped.length ∧
    e.interrupt.pulses = line.pulses + stamped.length ∧
    (line.level = false → e.interrupt.level = false) ∧
    e.readRegister 0xC20 = .ok (if e.events.events = [] then 0 else 1) ∧
    (e.events.events = [] →
      e.readRegister 0xC34 = .error .noEvent ∧ e.readRegister 0xC38 = .error .noEvent) ∧
    ∀ event, e.events.events.head? = some event →
      e.readRegister 0xC34 = .ok event.timestamp ∧ e.readRegister 0xC38 = .ok event.metadata := by
  intro s e passages removals stamped
  have hfaithful : e.stampTally.Faithful clock line (s.timestampLog ops) :=
    log_induction (I := fun log s => s.engine.stampTally.Faithful clock line log)
      (fun op hop s log h => by
        obtain ⟨hreset, hpop, hpush⟩ := hops op hop
        obtain ⟨hresetIff, hpopIff, hpushIff⟩ := op.action_eq_host_iff
        exact faithful_act h (mt hresetIff.1 hreset)
          (fun event => mt (hpushIff event).1 (hpush event)) (mt hpopIff.1 hpop))
      (.empty clock line)
  refine ⟨hfaithful.events, hfaithful.received, hfaithful.transmitted, ?_, hfaithful.stamped, ?_,
    hfaithful.level, e.readRegister_eventRaw, e.readRegister_of_no_event,
    fun event => e.readRegister_of_event⟩
  · intro p hp
    have hcanonical := hfaithful.canonical p hp
    exact ⟨hcanonical.received, hcanonical.metadata.ofWord?_word⟩
  · rw [← hfaithful.stamped]
    exact hfaithful.pulses

/-- A frame of the precision time protocol is received and sent again while another frame waits;
software has removed the event of its receipt. -/
theorem receipt_and_departure_are_stamped :
    let frame : Frame := [0, 0, 0, 0, 0, 0, 0, 0, 0, 0, 0, 0, 0x88, 0xF7, 0x3B]
    let s : System :=
      ⟨.fresh ⟨{ ramSize := 64 }, by decide⟩ { now := 5, step := (3 : UInt64) } {},
        .dense (Dense.ofSize 4096)⟩
    let ops : List Operation :=
      [.writeRegister 0xC28 1, .writeRegister 0x814 1,
        .writeRam 0x48486000 [0, 0x100, 64, 0x20000000], .writeRegister 0xA20 0x48486000,
        .receive { bytes := frame }, .receive { bytes := [1] }, .writeMemory 0x200 frame,
        .writeRam 0x48486010 [0, 0x200, 15, 0xE402000F], .writeRegister 0xA00 0x48486010,
        .writeRegister 0xC30 1]
    (∀ op ∈ ops, op ≠ .reset ∧ op ≠ .popEvent ∧ ∀ event, op ≠ .pushEvent event) ∧
    ((s.timestampLog ops).flatMap TimestampEntry.passages).map (fun p => (p.port, p.kind)) =
      [(1, .received), (2, .transmitted)] ∧
    (s.timestampLog ops).flatMap TimestampEntry.removals = [⟨0x014B0000, 5⟩] ∧
    (s.run ops).2.engine.events.events = [⟨0x025B0000, 8⟩] ∧
    (s.run ops).2.engine.stats.events = 2 := by
  intro frame s ops
  have hops : ∀ op ∈ ops, op ≠ .reset ∧ op ≠ .popEvent ∧ ∀ event, op ≠ .pushEvent event := by
    simp [ops]
  obtain ⟨-, -, -, -, hevents, -⟩ := timestamp_log_is_faithful _ _ _ s.memory ops hops
  refine ⟨hops, by decide +kernel, by decide +kernel, by decide +kernel, hevents.trans ?_⟩
  decide +kernel

end System

end PacketDma
