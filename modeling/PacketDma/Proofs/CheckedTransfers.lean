/-
**Transfers are never stuck.**

Placing a frame and sending one consist of a walk, of the accesses that the walk has led to, and of
counting.  A plan never leads outside its frame, because its segments end where the frame ends at the
latest; there is a last segment because there is a first one; and a counter has room for one more as
long as the counters fit into their words afterwards.

Main definitions:

* `PacketDma.checkedEach` — a sequence of steps as the machine does them;
* `PacketDma.System.checkedFill`, `PacketDma.System.checkedDrain` — placing frames as the machine
  does it;
* `PacketDma.System.checkedTransmit` — sending a frame as the machine does it;
* `PacketDma.System.Native` — systems that a machine can have.

Main results:

* `PacketDma.FillWalk.offset_add_le` — a plan does not lead outside its frame;
* `PacketDma.System.checkedFill_eq`, `PacketDma.System.checkedDrain_eq`,
  `PacketDma.System.checkedTransmit_eq` — **no transfer is stuck**;
* `PacketDma.System.Native.drain` — a drain leaves a system that a machine can have.
-/

import PacketDma.Proofs.CheckedWalks
import PacketDma.Proofs.Counters
import PacketDma.Proofs.Drain
import PacketDma.Proofs.MemoryShape

set_option autoImplicit false

namespace PacketDma

open Machine

/-! ### Sequences of steps -/

/-- A sequence of steps as the machine does them. -/
def checkedEach {σ α : Type} (step : α → σ → Checked DmaFault σ) :
    List α → σ → Option (Option DmaFault × σ)
  | [], state => some (none, state)
  | item :: rest, state => do
      match ← (step item state).run with
      | .ok next => checkedEach step rest next
      | .error fault => return (some fault, state)

/-- **A sequence is not stuck if none of its steps is.** -/
theorem checkedEach_eq {σ α : Type} {checked : α → σ → Checked DmaFault σ}
    {step : α → σ → Except DmaFault σ} {P : σ → Prop} {items : List α}
    (hstep : ∀ item ∈ items, ∀ state, P state → checked item state = .total (step item state))
    (hkept : ∀ item state next, step item state = .ok next → P state → P next)
    {state : σ} (h : P state) :
    checkedEach checked items state = some (applyEach step items state) := by
  induction items generalizing state with
  | nil => rfl
  | cons item rest ih =>
      rw [checkedEach, hstep item (List.mem_cons_self ..) state h]
      cases hitem : step item state with
      | error fault =>
          rw [applyEach_cons_error hitem]
          rfl
      | ok next =>
          rw [applyEach_cons_ok hitem]
          exact ih (fun other hother => hstep other (List.mem_cons_of_mem _ hother))
            (hkept item state next hitem h)

/-! ### Classes and channels -/

/-- The EtherType as the machine reads it, from the two bytes at position 12 if there are two. -/
def Frame.checkedEtherType? (frame : Frame) : Option (Option UInt16) :=
  match slice frame 12 14 with
  | none => some none
  | some bytes => do
      let high ← bytes[0]?
      let low ← bytes[1]?
      return some (high.toUInt16 <<< 8 ||| low.toUInt16)

/-- The class of a frame as the machine finds it. -/
def Frame.checkedClassify (frame : Frame) (ptpType : UInt16) (additional : List UInt16) :
    Option FrameClass := do
  match ← frame.checkedEtherType? with
  | some type => return if type = ptpType ∨ (type ≠ 0 ∧ type ∈ additional) then .ptp else .normal
  | none => return .normal

/-- The receive channel of a class as the machine finds it. -/
def AcceptedSettings.checkedChannel (s : AcceptedSettings) (frameClass : FrameClass) :
    Option ChannelId :=
  channelIndex (match frameClass with | .ptp => s.ptpChannel | .normal => s.normalChannel)

theorem Frame.checkedEtherType?_eq (frame : Frame) :
    frame.checkedEtherType? = some frame.etherType? := by
  unfold checkedEtherType? etherType?
  by_cases h : 14 ≤ frame.length
  · have hbyte : ∀ i < 2, ((frame.drop 12).take 2)[i]? = some (frame.byteAt (12 + i)) := by
      intro i hi
      rw [List.getElem?_take_of_lt hi, List.getElem?_drop, List.getElem?_eq_getElem (by omega),
        byteAt, List.getD_eq_getElem _ _ (by omega)]
    rw [slice_of_le (by decide) h, if_pos h]
    simp only [hbyte 0 (by decide), hbyte 1 (by decide)]
    rfl
  · rw [if_neg h, slice, within, if_neg fun hslice => h hslice.2]

theorem Frame.checkedClassify_eq (frame : Frame) (ptpType : UInt16) (additional : List UInt16) :
    frame.checkedClassify ptpType additional = some (frame.classify ptpType additional) := by
  rw [checkedClassify, checkedEtherType?_eq, classify]
  cases frame.etherType? <;> rfl

/-- **Accepted settings name channels that there are.** -/
theorem AcceptedSettings.checkedChannel_eq (s : AcceptedSettings) (frameClass : FrameClass) :
    s.checkedChannel frameClass = some (s.channel frameClass) := by
  cases frameClass with
  | ptp => exact channelIndex_val ⟨s.ptpChannel, s.ptpChannel_lt⟩
  | normal => exact channelIndex_val ⟨s.normalChannel, s.normalChannel_lt⟩

/-! ### Counting -/

namespace Engine

/-- Stamping as the machine does it. -/
def checkedStamp (e : Engine) (metadata : EventMetadata) : Option Engine := do
  let events ← add e.stats.events 1
  return { e.stamp metadata with stats := { e.stats with events } }

/-- Stamping a frame as the machine does it. -/
def checkedStampFrame (e : Engine) (frameClass : FrameClass) (port : UInt8) (kind : EventKind)
    (frame : Frame) : Option Engine :=
  if frameClass = .ptp ∧ e.stampsEnabled = true then
    e.checkedStamp ⟨port, kind, frame.messageType, frame.sequenceId⟩
  else some e

/-- Counting a placed frame as the machine does it. -/
def checkedCountReceived (e : Engine) (frameClass : FrameClass) (frame : Frame) :
    Option Engine := do
  let received ← add e.stats.received 1
  checkedStampFrame { e with stats := { e.stats with received } } frameClass receivePort .received
    frame

/-- Counting a frame that could not be placed as the machine does it. -/
def checkedCountFailure (e : Engine) (channel : ChannelId) (fault : DmaFault) : Option Engine :=
  match fault with
  | .overrun .. => do
      let overruns ← add e.stats.overruns 1
      return { e with
        stats := { e.stats with overruns }
        registers := e.registers.set .dmaStatus (failureStatus 2 channel) }
  | .ringExhausted .. => do
      let overruns ← add e.stats.overruns 1
      return { e with
        stats := { e.stats with overruns }
        registers := e.registers.set .dmaStatus (failureStatus 4 channel) }
  | _ => do
      let receiveErrors ← add e.stats.receiveErrors 1
      return { e with stats := { e.stats with receiveErrors } }

/-- Putting a frame into the egress queue as the machine does it. -/
def checkedEnqueueEgress (e : Engine) (frame : Frame) : Option Engine :=
  if e.settings.egressLimit ≤ e.egress.length then do
    let egressDropped ← add e.stats.egressDropped 1
    return { e with stats := { e.stats with egressDropped } }
  else some { e with egress := e.egress ++ [frame] }

/-- Counting a rejected chain as the machine does it. -/
def checkedCountRejected (e : Engine) : Option Engine := do
  let transmitErrors ← add e.stats.transmitErrors 1
  return { e with stats := { e.stats with transmitErrors } }

/-- What becomes of a gathered frame, as the machine does it. -/
def checkedEmit (e : Engine) (channel : ChannelId) (g : Gathered) : Option Engine := do
  let transmitted ← add e.stats.transmitted 1
  let completed : Engine :=
    { e with
      channels := e.channels.modifyTransmit channel fun transmit =>
        { transmit with completion := g.first.bufferPointer }
      stats := { e.stats with transmitted } }
  let frameClass ← g.frame.checkedClassify e.settings.ptpType e.additionalTypes
  let stamped ← completed.checkedStampFrame frameClass g.first.toPort .transmitted g.frame
  stamped.checkedEnqueueEgress (outgoing g)

variable {e : Engine}

theorem checkedStampFrame_eq {frameClass : FrameClass} {port : UInt8} {kind : EventKind}
    {frame : Frame} (h : (e.stampFrame frameClass port kind frame).stats.Fits) :
    e.checkedStampFrame frameClass port kind frame =
      some (e.stampFrame frameClass port kind frame) := by
  unfold checkedStampFrame
  unfold stampFrame at h ⊢
  split at h
  · next hptp =>
      rw [if_pos hptp, if_pos hptp, checkedStamp, add_of_lt h.events]
      rfl
  · next hother => rw [if_neg hother, if_neg hother]

theorem checkedCountReceived_eq {frameClass : FrameClass} {frame : Frame}
    (h : (e.countReceived frameClass frame).stats.Fits) :
    e.checkedCountReceived frameClass frame = some (e.countReceived frameClass frame) := by
  have hstamp := stats_le_stampFrame
    { e with stats := { e.stats with received := e.stats.received + 1 } } frameClass receivePort
    .received frame
  rw [checkedCountReceived, add_of_lt (h.of_le hstamp).received]
  exact checkedStampFrame_eq h

theorem checkedCountFailure_eq {channel : ChannelId} {fault : DmaFault}
    (h : (e.countFailure channel fault).stats.Fits) :
    e.checkedCountFailure channel fault = some (e.countFailure channel fault) := by
  cases fault with
  | overrun =>
      rw [checkedCountFailure, add_of_lt h.overruns]
      rfl
  | ringExhausted =>
      rw [checkedCountFailure, add_of_lt h.overruns]
      rfl
  | _ =>
      simp only [checkedCountFailure, add_of_lt h.receiveErrors]
      rfl

theorem checkedCountRejected_eq (h : e.countRejected.stats.Fits) :
    e.checkedCountRejected = some e.countRejected := by
  rw [checkedCountRejected, add_of_lt h.transmitErrors]
  rfl

theorem checkedEnqueueEgress_eq {frame : Frame} (h : (e.enqueueEgress frame).stats.Fits) :
    e.checkedEnqueueEgress frame = some (e.enqueueEgress frame) := by
  unfold checkedEnqueueEgress
  unfold enqueueEgress at h ⊢
  split at h
  · next hfull =>
      rw [if_pos hfull, if_pos hfull, add_of_lt h.egressDropped]
      rfl
  · next hroom => rw [if_neg hroom, if_neg hroom]

theorem checkedEmit_eq {channel : ChannelId} {g : Gathered} (h : (e.emit channel g).stats.Fits) :
    e.checkedEmit channel g = some (e.emit channel g) := by
  unfold emit at h ⊢
  dsimp only at h ⊢
  have hstamped := h.of_le (stats_le_enqueueEgress _ _)
  have hcompleted := hstamped.of_le (stats_le_stampFrame _ _ _ _ _)
  rw [checkedEmit, add_of_lt hcompleted.transmitted]
  show (g.frame.checkedClassify _ _ >>= fun frameClass => _) = _
  rw [Frame.checkedClassify_eq]
  exact (congrArg (· >>= fun stamped => checkedEnqueueEgress stamped (outgoing g))
    (checkedStampFrame_eq hstamped)).trans (checkedEnqueueEgress_eq h)

end Engine

/-! ### Handing descriptors back -/

/-- The descriptors of a placed frame as the machine builds them: the last one is known by its
index. -/
def FillPlan.checkedReport (p : FillPlan) (frame : InboundFrame) :
    Option (List ReceiveDescriptor) := do
  let last ← sub p.segments.length 1
  return p.segments.mapIdx fun i s =>
    let d := s.filled (i == last)
    if i = 0 then d.announce frame else d

/-- The descriptors of a sent frame as the machine builds them. -/
def Gathered.checkedReturned (g : Gathered) : Option (List TransmitDescriptor) := do
  let last ← sub g.descriptors.length 1
  return g.descriptors.mapIdx fun i d =>
    (if i = 0 then d.lower Status.owner else d).closed (i == last)

theorem FillPlan.checkedReport_eq (p : FillPlan) (frame : InboundFrame) :
    p.checkedReport frame = some (p.report frame) := by
  rw [checkedReport, sub_of_le (by simp [segments]), report_eq_mapIdx, segments]
  simp only [List.length_cons, Nat.add_sub_cancel, succ_beq_succ]
  rfl

theorem Gathered.checkedReturned_eq (g : Gathered) : g.checkedReturned = some g.returned := by
  rw [checkedReturned, sub_of_le (by simp [descriptors]), returned_eq_mapIdx, descriptors]
  simp only [List.length_cons, Nat.add_sub_cancel, succ_beq_succ]
  rfl

/-! ### Placing a frame -/

/-- The plan for a frame as the machine makes it. -/
def Engine.checkedPlan (e : Engine) (memory : Memory) (channel : ChannelId) (length : Nat) :
    Checked DmaFault FillPlan :=
  let receive := e.channels.receiveChannel channel
  checkedPlanFrom e.ram memory channel receive.head length e.settings.walkLimit [] receive.start 0

/-- The class of a waiting frame as the machine finds it. -/
def Engine.checkedClassOf (e : Engine) (frame : InboundFrame) : Option FrameClass :=
  match frame.class? with
  | some frameClass => some frameClass
  | none => frame.bytes.checkedClassify e.settings.ptpType e.additionalTypes

/-- Whether the channel of a waiting frame is armed, as the machine finds it. -/
def Engine.checkedReady (e : Engine) (frame : InboundFrame) : Option Bool := do
  let frameClass ← e.checkedClassOf frame
  let channel ← e.settings.checkedChannel frameClass
  return (e.channels.receiveChannel channel).head != 0

namespace System

/-- Changes the engine alone, unless the change is stuck. -/
def checkedMapEngine (s : System) (change : Engine → Option Engine) : Option System := do
  let engine ← change s.engine
  return { s with engine }

/-- The part of a frame that a segment takes, as the machine cuts it out and writes it. -/
def checkedWriteSegment [Allocator] (frame : Frame) (segment : Segment) (memory : Memory) :
    Checked DmaFault Memory := do
  let stop ← add segment.offset segment.length
  let part ← slice frame segment.offset stop
  let data ← segment.descriptor.checkedDataAddress
  Checked.liftMemory (memory.checkedWrite data part)

/-- Carrying out a plan as the machine does it. -/
def checkedCommit [Allocator] (s : System) (channel : ChannelId) (frame : InboundFrame)
    (plan : FillPlan) : Option (Option DmaFault × System) := do
  match ← checkedEach (checkedWriteSegment frame.bytes) plan.segments s.memory with
  | (some fault, memory) => return (some fault, { s with memory })
  | (none, memory) =>
      let report ← plan.checkedReport frame
      match ← checkedEach ReceiveDescriptor.checkedEncode report s.engine.ram with
      | (some fault, ram) => return (some fault, { engine := { s.engine with ram }, memory })
      | (none, ram) =>
          return (none, { engine := { s.engine with ram }.advance channel plan, memory })

/-- Placing a frame of a class on a channel as the machine does it. -/
def checkedPlace [Allocator] (s : System) (frameClass : FrameClass) (channel : ChannelId)
    (frame : InboundFrame) : Option (Option DmaFault × System) := do
  match ← (s.engine.checkedPlan s.memory channel frame.bytes.length).run with
  | .error fault =>
      return (some fault, ← s.checkedMapEngine (·.checkedCountFailure channel fault))
  | .ok plan =>
      match ← s.checkedCommit channel frame plan with
      | (some fault, s) =>
          return (some fault, ← s.checkedMapEngine (·.checkedCountFailure channel fault))
      | (none, s) =>
          return (none, ← s.checkedMapEngine (·.checkedCountReceived frameClass frame.bytes))

/-- Placing a frame as the machine does it. -/
def checkedFill [Allocator] (s : System) (frame : InboundFrame) :
    Option (Option DmaFault × System) := do
  let frameClass ← s.engine.checkedClassOf frame
  let channel ← s.engine.settings.checkedChannel frameClass
  s.checkedPlace frameClass channel frame

/-- Placing the given waiting frames as the machine does it. -/
def checkedDrainFrames [Allocator] :
    List InboundFrame → System → Option (Option DmaFault × System)
  | [], s => some (none, s)
  | frame :: rest, s => do
      if ← s.engine.checkedReady frame then
        let (fault, filled) ← (s.mapEngine (·.setWaiting rest)).checkedFill frame
        let (later, drained) ← checkedDrainFrames rest filled
        return (fault <|> later, drained)
      else return (none, s)

/-- Moving waiting frames into their rings as the machine does it. -/
def checkedDrain [Allocator] (s : System) : Option (Option DmaFault × System) :=
  if s.engine.receiveEnabled then checkedDrainFrames s.engine.intake.frames s else some (none, s)

/-- The arrival of a frame as the machine handles it. -/
def checkedReceive [Allocator] (s : System) (frame : InboundFrame) :
    Option (Option DmaFault × System) :=
  match s.engine.offer frame with
  | (some fault, engine) => some (some fault, { s with engine })
  | (none, engine) => checkedDrain { s with engine }

/-- Trying the waiting frames again as the machine does it. -/
def checkedPoll [Allocator] (s : System) : Option (Nat × System) := do
  let (_, drained) ← s.checkedDrain
  let frames ← sub drained.engine.stats.received s.engine.stats.received
  return (frames, drained)

/-- Sending a frame as the machine does it. -/
def checkedTransmit [Allocator] (s : System) (channel : ChannelId) :
    Option (Option DmaFault × System) := do
  let head := (s.engine.channels.transmitChannel channel).head
  let walk := checkedGather s.engine.ram s.memory channel head s.engine.settings.walkLimit
  match ← walk.run with
  | .error fault =>
      return (some fault,
        ← s.checkedMapEngine fun e => (e.setTransmitHead channel 0).checkedCountRejected)
  | .ok g =>
      let returned ← g.checkedReturned
      match ← checkedEach TransmitDescriptor.checkedEncode returned s.engine.ram with
      | (some fault, ram) =>
          return (some fault,
            ← s.checkedMapEngine fun e =>
              ({ e with ram }.setTransmitHead channel 0).checkedCountRejected)
      | (none, ram) =>
          return (none,
            ← s.checkedMapEngine fun e => do
              let sent ← { e with ram }.checkedEmit channel g
              return sent.setTransmitHead channel 0)

end System

/-- **A plan does not lead outside its frame**: its segments end where the frame ends at the
latest. -/
theorem FillWalk.offset_add_le {ram : Aperture} {memory : Memory} {head address : UInt32}
    {offset missing : Nat} {segments : List Segment} {next : Option UInt32}
    (h : FillWalk ram memory head address offset missing segments next) :
    ∀ s ∈ segments, s.offset + s.length ≤ offset + missing := by
  induction h with
  | last taken complete =>
      intro s hs
      rcases List.mem_singleton.1 hs with rfl
      rw [taken.offset_eq, complete]
  | more taken incomplete link walk ih =>
      intro s hs
      have hle := taken.length_le
      rcases List.mem_cons.1 hs with rfl | hs
      · rw [taken.offset_eq]
        omega
      · have := ih s hs
        omega

/-- A machine can have the system: its memory is one of a machine, its descriptor RAM is contiguous,
and the waiting frames have lengths that descriptors can say. -/
structure System.Native [Allocator] (s : System) : Prop where
  memory : s.memory.Native
  ram : s.engine.ram.store.Contiguous
  waiting : ∀ frame ∈ s.engine.intake.frames, frame.bytes.length ≤ maxPacketLength

namespace Engine

theorem checkedClassOf_eq (e : Engine) (frame : InboundFrame) :
    e.checkedClassOf frame = some (e.classOf frame) := by
  unfold checkedClassOf classOf
  cases frame.class? with
  | some frameClass => rfl
  | none => exact frame.bytes.checkedClassify_eq _ _

theorem checkedReady_eq (e : Engine) (frame : InboundFrame) :
    e.checkedReady frame = some (e.ready frame) := by
  rw [checkedReady, bind_of_some (e.checkedClassOf_eq frame),
    bind_of_some (e.settings.checkedChannel_eq _)]
  rfl

theorem checkedPlan_eq {e : Engine} (hram : e.ram.store.Addressable) {length : Nat}
    (hlength : length < UInt64.size) (memory : Memory) (channel : ChannelId) :
    e.checkedPlan memory channel length = .total (e.plan memory channel length) :=
  checkedPlanFrom_eq hram hlength _ [] _ (Nat.zero_le _)

end Engine

namespace System

variable {s : System}

theorem checkedMapEngine_eq {change : Engine → Option Engine} {engine : Engine}
    (h : change s.engine = some engine) : s.checkedMapEngine change = some { s with engine } := by
  rw [checkedMapEngine, h]
  rfl

variable [Allocator]

theorem checkedWriteSegment_eq {frame : Frame} {segment : Segment} {memory : Memory}
    (hmemory : memory.Writable) (hframe : frame.length < UInt64.size)
    (h : segment.offset + segment.length ≤ frame.length) :
    checkedWriteSegment frame segment memory = .total (writeSegment frame segment memory) := by
  rw [checkedWriteSegment, Checked.bind_some (add_of_lt (Nat.lt_of_le_of_lt h hframe)),
    Checked.bind_some (slice_of_le (Nat.le_add_right ..) h), Nat.add_sub_cancel_left,
    Checked.bind_some segment.descriptor.checkedDataAddress_eq, Memory.checkedWrite_eq hmemory]
  rfl

/-- **Carrying out a plan is not stuck.** -/
theorem checkedCommit_eq {channel : ChannelId} {frame : InboundFrame} {plan : FillPlan}
    (hmemory : s.memory.Native) (hram : s.engine.ram.store.Contiguous)
    (hframe : frame.bytes.length < UInt64.size)
    (hplan : s.engine.plan s.memory channel frame.bytes.length = .ok plan) :
    s.checkedCommit channel frame plan = some (s.commit channel frame plan) := by
  have hinside := (walk_of_plan hplan).offset_add_le
  rw [Nat.zero_add] at hinside
  have hcopy : checkedEach (checkedWriteSegment frame.bytes) plan.segments s.memory =
      some (applyEach (writeSegment frame.bytes) plan.segments s.memory) :=
    checkedEach_eq (P := Memory.Writable)
      (fun segment hsegment _ hwritable =>
        checkedWriteSegment_eq hwritable hframe (hinside segment hsegment))
      (fun _ _ _ hwrite hwritable => hwritable.of_shape
        (Memory.shape_of_write (liftMemory_eq_ok_iff.1 hwrite))) hmemory.writable
  have hreport : checkedEach ReceiveDescriptor.checkedEncode (plan.report frame) s.engine.ram =
      some (applyEach ReceiveDescriptor.encode (plan.report frame) s.engine.ram) :=
    checkedEach_eq (P := fun ram => ram.store.Contiguous)
      (fun d _ _ hcontiguous => ReceiveDescriptor.checkedEncode_eq hcontiguous d)
      (fun _ _ _ hencode hcontiguous => hcontiguous.of_shape
        (Prod.mk.inj (ReceiveDescriptor.shape_of_encode hencode)).2) hram
  rw [checkedCommit, commit, hcopy]
  cases applyEach (writeSegment frame.bytes) plan.segments s.memory with
  | mk fault memory =>
      cases fault with
      | some fault => rfl
      | none =>
          rw [plan.checkedReport_eq]
          show (checkedEach _ _ _ >>= _) = _
          rw [hreport]
          cases applyEach ReceiveDescriptor.encode (plan.report frame) s.engine.ram with
          | mk fault ram => cases fault <;> rfl

/-- **Placing a frame is not stuck**, as long as the counters fit afterwards. -/
theorem checkedFill_eq {frame : InboundFrame} (hmemory : s.memory.Native)
    (hram : s.engine.ram.store.Contiguous) (hframe : frame.bytes.length < UInt64.size)
    (hfits : (s.fill frame).2.engine.stats.Fits) :
    s.checkedFill frame = some (s.fill frame) := by
  have hplace : s.checkedFill frame =
      s.checkedPlace (s.engine.classOf frame) (s.engine.channelOf frame) frame := by
    rw [checkedFill, bind_of_some (s.engine.checkedClassOf_eq frame),
      bind_of_some (s.engine.settings.checkedChannel_eq _)]
    rfl
  rw [hplace, checkedPlace, Engine.checkedPlan_eq hram.addressable hframe,
    bind_of_some (Checked.run_total _)]
  cases hplan : s.engine.plan s.memory (s.engine.channelOf frame) frame.bytes.length with
  | error fault =>
      rw [fill_of_error hplan] at hfits ⊢
      show (s.checkedMapEngine _ >>= _) = _
      rw [checkedMapEngine_eq (Engine.checkedCountFailure_eq hfits)]
      rfl
  | ok plan =>
      obtain ⟨memory, ram, -, hcommit⟩ := exists_commit hplan
      rw [fill_of_commit hplan hcommit] at hfits ⊢
      show (s.checkedCommit _ _ _ >>= _) = _
      rw [checkedCommit_eq hmemory hram hframe hplan, hcommit]
      show (checkedMapEngine _ _ >>= _) = _
      rw [checkedMapEngine_eq (Engine.checkedCountReceived_eq hfits)]
      rfl

/-- **Sending a frame is not stuck**, as long as the counters fit afterwards. -/
theorem checkedTransmit_eq {channel : ChannelId} (hmemory : s.memory.Native)
    (hram : s.engine.ram.store.Contiguous)
    (hfits : (s.transmit channel).2.engine.stats.Fits) :
    s.checkedTransmit channel = some (s.transmit channel) := by
  rw [checkedTransmit, checkedGather_eq hram.addressable hmemory.addressable,
    bind_of_some (Checked.run_total _)]
  cases hgather : gather s.engine.ram s.memory channel
      (s.engine.channels.transmitChannel channel).head s.engine.settings.walkLimit with
  | error fault =>
      rw [transmit_of_error hgather] at hfits ⊢
      have hcount : (s.checkedMapEngine fun e => (e.setTransmitHead channel 0).checkedCountRejected) =
          some (s.mapEngine fun e => (e.setTransmitHead channel 0).countRejected) :=
        checkedMapEngine_eq (Engine.checkedCountRejected_eq hfits)
      show (s.checkedMapEngine _ >>= _) = _
      rw [hcount]
      rfl
  | ok g =>
      have hreturn : checkedEach TransmitDescriptor.checkedEncode g.returned s.engine.ram =
          some (applyEach TransmitDescriptor.encode g.returned s.engine.ram) :=
        checkedEach_eq (P := fun ram => ram.store.Contiguous)
          (fun d _ _ hcontiguous => TransmitDescriptor.checkedEncode_eq hcontiguous.writable d)
          (fun _ _ _ hencode hcontiguous => hcontiguous.of_shape
            (Prod.mk.inj (TransmitDescriptor.shape_of_encode hencode)).2) hram
      obtain ⟨ram, hok, -⟩ := exists_handedBack hgather
      simp only [transmit, hgather, hok] at hfits ⊢
      rw [g.checkedReturned_eq]
      show (checkedEach _ _ _ >>= _) = _
      rw [hreturn, hok]
      show (checkedMapEngine _ _ >>= _) = _
      have hemit : (do
          let sent ← { s.engine with ram }.checkedEmit channel g
          return sent.setTransmitHead channel 0) =
            some (({ s.engine with ram }.emit channel g).setTransmitHead channel 0) := by
        rw [Engine.checkedEmit_eq hfits]
        rfl
      rw [checkedMapEngine_eq hemit]
      rfl

/-! ### Trying the waiting frames -/

/-- What keeps the shapes and lets no other frames wait leaves a system that a machine can have. -/
theorem Native.of_shapes {t : System} (h : s.Native) (hshapes : t.shapes = s.shapes)
    (hwaiting : ∀ frame ∈ t.engine.intake.frames, frame.bytes.length ≤ maxPacketLength) :
    t.Native where
  memory := h.memory.of_shape (Prod.mk.inj hshapes).1
  ram := h.ram.of_shape (Prod.mk.inj (Prod.mk.inj hshapes).2).2
  waiting := hwaiting

/-- A fill leaves a system that a machine can have. -/
theorem Native.fill (h : s.Native) {frame : InboundFrame} {rest : List InboundFrame}
    (hframes : s.engine.intake.frames = frame :: rest) :
    ((s.mapEngine (·.setWaiting rest)).fill frame).2.Native := by
  refine h.of_shapes (shapes_fill _ frame) fun other hother => h.waiting other ?_
  rw [intake_fill] at hother
  rw [hframes]
  exact List.mem_cons_of_mem _ hother

/-- **A drain leaves a system that a machine can have.** -/
theorem Native.drain (h : s.Native) : s.drain.2.Native :=
  drain_induction (P := Native) (fun _ _ _ hframes _ hnative => hnative.fill hframes) h

theorem checkedDrainFrames_eq {frames : List InboundFrame} (h : s.Native)
    (hframes : s.engine.intake.frames = frames)
    (hfits : (drainFrames frames s).2.engine.stats.Fits) :
    checkedDrainFrames frames s = some (drainFrames frames s) := by
  induction frames generalizing s with
  | nil => rfl
  | cons frame rest ih =>
      rw [checkedDrainFrames, drainFrames, bind_of_some (s.engine.checkedReady_eq frame)]
      by_cases hready : s.engine.ready frame = true
      · rw [drainFrames_cons hready] at hfits
        have hlength : frame.bytes.length < UInt64.size :=
          Nat.lt_of_le_of_lt (h.waiting frame (hframes ▸ List.mem_cons_self ..)) (by decide)
        have hfill : (s.mapEngine (·.setWaiting rest)).checkedFill frame =
            some ((s.mapEngine (·.setWaiting rest)).fill frame) :=
          checkedFill_eq h.memory h.ram hlength (hfits.of_le (stats_le_drainFrames _ rest))
        -- a fill leaves the queue alone
        have hrest := congrArg Intake.frames (intake_fill (s.mapEngine (·.setWaiting rest)) frame)
        rw [if_pos hready, if_pos hready, bind_of_some hfill]
        exact congrArg (· >>= _) (ih (h.fill hframes) hrest hfits)
      · rw [if_neg hready, if_neg hready]
        rfl

/-- **A drain is not stuck**, as long as the counters fit afterwards. -/
theorem checkedDrain_eq (h : s.Native) (hfits : s.drain.2.engine.stats.Fits) :
    s.checkedDrain = some s.drain := by
  unfold checkedDrain
  unfold drain at hfits ⊢
  split at hfits
  · next henabled =>
      rw [if_pos henabled, if_pos henabled]
      exact checkedDrainFrames_eq h rfl hfits
  · next hdisabled => rw [if_neg hdisabled, if_neg hdisabled]

/-- A frame that is taken has a length that descriptors can say. -/
theorem Native.offer (h : s.Native) (frame : InboundFrame) :
    (s.mapEngine fun e => (e.offer frame).2).Native := by
  refine h.of_shapes rfl fun other hother => ?_
  cases hrefusal : s.engine.intake.refusal? s.engine.settings.pendingLimit frame with
  | some fault =>
      simp only [engine_mapEngine, Engine.offer_of_refusal hrefusal] at hother
      exact h.waiting other hother
  | none =>
      simp only [engine_mapEngine, Engine.offer_of_none hrefusal] at hother
      obtain ⟨-, -, hlength, -⟩ := (Intake.refusal?_eq_none_iff ..).1 hrefusal
      rcases List.mem_append.1 hother with hold | hnew
      · exact h.waiting other hold
      · rw [List.mem_singleton.1 hnew]
        exact hlength

/-- **The arrival of a frame is not stuck**, as long as the counters fit afterwards. -/
theorem checkedReceive_eq (h : s.Native) {frame : InboundFrame}
    (hfits : (s.receive frame).2.engine.stats.Fits) :
    s.checkedReceive frame = some (s.receive frame) := by
  have hoffer := h.offer frame
  unfold checkedReceive
  unfold receive at hfits ⊢
  cases hresult : s.engine.offer frame with
  | mk fault engine =>
      rw [hresult] at hfits
      cases fault with
      | some fault => rfl
      | none =>
          simp only [mapEngine, hresult] at hoffer
          exact checkedDrain_eq hoffer hfits

/-- **A poll is not stuck**: its difference is not negative, because a drain lowers no counter. -/
theorem checkedPoll_eq (h : s.Native) (hfits : s.drain.2.engine.stats.Fits) :
    s.checkedPoll = some s.poll := by
  have hreceived : s.engine.stats.received ≤ s.drain.2.engine.stats.received :=
    s.stats_le_drain.1
  simp only [checkedPoll, checkedDrain_eq h hfits, Option.bind_eq_bind, Option.bind_some,
    sub_of_le hreceived]
  rfl

end System

end PacketDma
