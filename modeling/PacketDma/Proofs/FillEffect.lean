/-
**What a fill does.**

A fill is planned before any byte moves, and the plan tests every range with the bounds of the later
writes.  Carrying out a plan therefore never fails: the only fills that fail are those without a
plan, and these leave everything but the count and the latched status as it was.

Main definitions:

* `PacketDma.Segment.Touches` — the addresses of memory that a segment fills;
* `PacketDma.Engine.withChains` — an engine with other chains;
* `PacketDma.System.Placed` — memory and descriptor RAM after a plan has been carried out.

Main results:

* `PacketDma.System.exists_commit` — **a plan can always be carried out**;
* `PacketDma.System.fill_of_error`, `PacketDma.System.exists_fill_of_plan` — the two outcomes of a
  fill;
* `PacketDma.System.fill_cases` — **what a fill can change**;
* `PacketDma.System.failed_fill_changes_nothing_else` — **a failed fill is atomic**.
-/

import PacketDma.Engine.Operation
import PacketDma.Proofs.FillWalk

set_option autoImplicit false

namespace PacketDma

/-! ### Copying a frame into its buffers -/

/-- The addresses of memory that a segment fills. -/
def Segment.Touches (s : Segment) (i : Nat) : Prop :=
  s.descriptor.dataAddress.toNat ≤ i ∧ i < s.descriptor.dataAddress.toNat + s.length

/-- Two segments fill no address in common. -/
def Segment.Apart (s t : Segment) : Prop := ∀ i, s.Touches i → ¬ t.Touches i

theorem Segment.length_part_le (s : Segment) (frame : List UInt8) :
    (s.part frame).length ≤ s.length := by
  rw [Segment.part, List.length_take]
  exact Nat.min_le_left ..

/-- A frame can be copied into buffers that lie inside memory.  Only the bytes of the buffers
change, and buffers that do not overlap hold their parts of the frame afterwards. -/
theorem exists_writeSegments (frame : List UInt8) (segments : List Segment) (memory : Memory)
    (hrange : ∀ s ∈ segments, InRange memory.size s.descriptor.dataAddress s.length) :
    ∃ written, applyEach (System.writeSegment frame) segments memory = (none, written) ∧
      written.size = memory.size ∧
      (∀ i, (∀ s ∈ segments, ¬ s.Touches i) → written.byteAt i = memory.byteAt i) ∧
      (segments.Pairwise Segment.Apart → ∀ s ∈ segments, ∀ k, k < (s.part frame).length →
        written.byteAt (s.descriptor.dataAddress.toNat + k) = (s.part frame).getD k 0) := by
  induction segments generalizing memory with
  | nil =>
      refine ⟨memory, rfl, rfl, fun i _ => rfl, fun _ s hs => ?_⟩
      exact absurd hs List.not_mem_nil
  | cons s rest ih =>
      have hle := s.length_part_le frame
      have hs := hrange s (List.mem_cons_self ..)
      have hpart : InRange memory.size s.descriptor.dataAddress (s.part frame).length :=
        Nat.le_trans (Nat.add_le_add_left hle _) hs
      obtain ⟨first, hok, hsize, hbyte⟩ := Memory.write_of_inRange hpart
      have hstep : System.writeSegment frame s memory = .ok first := by
        rw [System.writeSegment, hok]
        rfl
      obtain ⟨written, hrest, hsize', helse, hparts⟩ := ih first fun t ht => by
        rw [hsize]
        exact hrange t (List.mem_cons_of_mem _ ht)
      refine ⟨written, ?_, hsize'.trans hsize, ?_, ?_⟩
      · rw [applyEach_cons_ok hstep, hrest]
      · intro i hi
        have hout := hi s (List.mem_cons_self ..)
        rw [helse i fun t ht => hi t (List.mem_cons_of_mem _ ht), hbyte, if_neg]
        exact fun hin => hout ⟨hin.1, Nat.lt_of_lt_of_le hin.2 (Nat.add_le_add_left hle _)⟩
      · intro hapart t ht k hk
        obtain ⟨hfirst, hothers⟩ := List.pairwise_cons.1 hapart
        rcases List.mem_cons.1 ht with rfl | ht
        · have htouch : t.Touches (t.descriptor.dataAddress.toNat + k) :=
            ⟨Nat.le_add_right .., by omega⟩
          -- the later buffers do not overlap the first one
          rw [helse _ fun u hu => hfirst u hu _ htouch, hbyte, if_pos (by omega),
            Nat.add_sub_cancel_left]
        · exact hparts hothers t ht k hk

/-! ### Writing descriptors back -/

/-- Descriptors whose slots lie inside the RAM can be written back.  Only their third and fourth
words change, and slots that do not overlap hold the new words afterwards. -/
theorem exists_encodeAll (descriptors : List ReceiveDescriptor) (ram : Aperture)
    (hcovers : ∀ d ∈ descriptors, ram.CoversSlot d.address) :
    ∃ written, applyEach ReceiveDescriptor.encode descriptors ram = (none, written) ∧
      ram.EqOff written (fun i => ∃ d ∈ descriptors, InReport d.address i) ∧
      (descriptors.Pairwise (fun d e => SlotsDisjoint d.address e.address) →
        ∀ d ∈ descriptors, written.slotAt d.address =
          { ram.slotAt d.address with extent := d.extentWord, status := d.statusWord }) := by
  exact exists_applyEach_slots ReceiveDescriptor.address InReport
    (fun d s => { s with extent := d.extentWord, status := d.statusWord })
    (fun _ _ => InReport.inSlot)
    (fun d ram h => ReceiveDescriptor.exists_encode h) descriptors ram hcovers

/-! ### Carrying out a plan -/

/-- The engine with other descriptor RAM and other channels. -/
def Engine.withChains (e : Engine) (ram : Aperture) (channels : ChannelBank) : Engine :=
  { e with ram, channels }

/-- Stamping a frame does not look at the chains. -/
theorem Engine.stampFrame_withChains (e : Engine) (ram : Aperture) (channels : ChannelBank)
    (frameClass : FrameClass) (port : UInt8) (kind : EventKind) (frame : Frame) :
    (e.withChains ram channels).stampFrame frameClass port kind frame =
      (e.stampFrame frameClass port kind frame).withChains ram channels := by
  have henabled : (e.withChains ram channels).stampsEnabled = e.stampsEnabled := rfl
  unfold stampFrame
  rw [henabled]
  split <;> rfl

/-- Counting a placed frame, and stamping it, touches neither the channels nor the frame. -/
theorem Engine.exists_countReceived (e : Engine) (frameClass : FrameClass) (frame : Frame) :
    ∃ events clock registers interrupt count,
      e.countReceived frameClass frame =
        { e with
          events, clock, registers, interrupt
          stats := { e.stats with received := e.stats.received + 1, events := count } } ∧
      ∀ index, index ≠ .interruptStatus → registers.get index = e.registers.get index :=
  exists_stampFrame { e with stats := { e.stats with received := e.stats.received + 1 } } frameClass
    receivePort .received frame

namespace System

variable {s : System} {channel : ChannelId} {frame : InboundFrame} {plan : FillPlan}
  {fault : DmaFault}

/-- Memory and descriptor RAM after a frame has been placed by a plan. -/
structure Placed (s : System) (frame : InboundFrame) (plan : FillPlan) (memory : Memory)
    (ram : Aperture) : Prop where
  size : memory.size = s.memory.size
  elsewhere : ∀ i, (∀ t ∈ plan.segments, ¬ t.Touches i) → memory.byteAt i = s.memory.byteAt i
  parts : plan.segments.Pairwise Segment.Apart → ∀ t ∈ plan.segments, ∀ k,
    k < (t.part frame.bytes).length →
      memory.byteAt (t.descriptor.dataAddress.toNat + k) = (t.part frame.bytes).getD k 0
  reports : s.engine.ram.EqOff ram fun i => ∃ t ∈ plan.segments, InReport t.descriptor.address i
  slots : plan.segments.Pairwise (fun t u => SlotsDisjoint t.descriptor.address
      u.descriptor.address) →
    ∀ d ∈ plan.report frame, ram.slotAt d.address =
      { s.engine.ram.slotAt d.address with extent := d.extentWord, status := d.statusWord }

/-- The walk behind a plan of the engine. -/
theorem walk_of_plan {length : Nat} (h : s.engine.plan s.memory channel length = .ok plan) :
    FillWalk s.engine.ram s.memory (s.engine.channels.receiveChannel channel).head
      (s.engine.channels.receiveChannel channel).start 0 length plan.segments plan.next :=
  (planFill_eq_ok_iff.1 h).1

/-- What a descriptor is written back as goes to a slot of the plan. -/
theorem exists_segment_of_report {d : ReceiveDescriptor} (hd : d ∈ plan.report frame) :
    ∃ t ∈ plan.segments, t.descriptor.address = d.address := by
  have hmem : d.address ∈ (plan.report frame).map (·.address) := List.mem_map_of_mem hd
  rw [FillPlan.address_report] at hmem
  obtain ⟨t, ht, haddress⟩ := List.mem_map.1 hmem
  exact ⟨t, ht, haddress⟩

/-- **A plan can always be carried out**: every range that is written has been tested before. -/
theorem exists_commit (h : s.engine.plan s.memory channel frame.bytes.length = .ok plan) :
    ∃ memory ram, s.Placed frame plan memory ram ∧
      s.commit channel frame plan =
        (none, { engine := { s.engine with ram }.advance channel plan, memory }) := by
  have hwalk := walk_of_plan h
  -- the walk has tested every buffer and every slot of the plan
  obtain ⟨memory, hwrite, hsize, helse, hparts⟩ :=
    exists_writeSegments frame.bytes plan.segments s.memory fun t ht => by
      obtain ⟨o, m, htaken⟩ := hwalk.exists_takenAt t ht
      exact htaken.inRange
  obtain ⟨ram, hencode, heq, hslots⟩ :=
    exists_encodeAll (plan.report frame) s.engine.ram fun d hd => by
      obtain ⟨t, ht, haddress⟩ := exists_segment_of_report hd
      obtain ⟨o, m, htaken⟩ := hwalk.exists_takenAt t ht
      rw [← haddress]
      exact htaken.covered
  refine ⟨memory, ram, ⟨hsize, helse, hparts, ?_, ?_⟩, ?_⟩
  · refine heq.mono ?_
    rintro i ⟨d, hd, hin⟩
    obtain ⟨t, ht, haddress⟩ := exists_segment_of_report hd
    exact ⟨t, ht, haddress ▸ hin⟩
  · intro hapart
    apply hslots
    rw [← List.pairwise_map (f := ReceiveDescriptor.address), FillPlan.address_report,
      List.pairwise_map]
    exact hapart
  · rw [commit, hwrite]
    simp only [hencode]

/-! ### The outcomes of a fill -/

theorem fill_of_error
    (h : s.engine.plan s.memory (s.engine.channelOf frame) frame.bytes.length = .error fault) :
    s.fill frame =
      (some fault, s.mapEngine (·.countFailure (s.engine.channelOf frame) fault)) := by
  unfold Engine.channelOf at h ⊢
  simp only [fill, h]

theorem fill_of_commit {after : System}
    (hplan : s.engine.plan s.memory (s.engine.channelOf frame) frame.bytes.length = .ok plan)
    (hcommit : s.commit (s.engine.channelOf frame) frame plan = (none, after)) :
    s.fill frame =
      (none, after.mapEngine (·.countReceived (s.engine.classOf frame) frame.bytes)) := by
  unfold Engine.channelOf at hplan hcommit
  simp only [fill, hplan, hcommit]

theorem exists_fill_of_plan
    (h : s.engine.plan s.memory (s.engine.channelOf frame) frame.bytes.length = .ok plan) :
    ∃ memory ram, s.Placed frame plan memory ram ∧
      s.fill frame =
        (none,
          { engine := ({ s.engine with ram }.advance (s.engine.channelOf frame) plan).countReceived
              (s.engine.classOf frame) frame.bytes
            memory }) := by
  obtain ⟨memory, ram, hplaced, hcommit⟩ := exists_commit h
  refine ⟨memory, ram, hplaced, ?_⟩
  rw [fill_of_commit h hcommit]
  rfl

/-- A fill fails exactly for lack of a plan. -/
theorem fill_fault_eq_some_iff : (s.fill frame).1 = some fault ↔
    s.engine.plan s.memory (s.engine.channelOf frame) frame.bytes.length = .error fault := by
  cases h : s.engine.plan s.memory (s.engine.channelOf frame) frame.bytes.length with
  | error cause =>
      rw [fill_of_error h]
      simp
  | ok plan =>
      obtain ⟨memory, ram, -, hfill⟩ := exists_fill_of_plan h
      rw [hfill]
      simp

/-- **What a fill can change.**  Without a plan it counts a failure and may latch it.  With a plan
it writes memory and descriptor RAM, moves the place where the next frame of the channel starts,
counts the frame, and may stamp it. -/
theorem fill_cases (s : System) (frame : InboundFrame) :
    (∃ fault registers stats,
      s.engine.plan s.memory (s.engine.channelOf frame) frame.bytes.length = .error fault ∧
      (s.fill frame).2 = s.mapEngine ({ · with registers, stats }) ∧
      ∀ index, index ≠ .dmaStatus → registers.get index = s.engine.registers.get index) ∨
    ∃ plan memory ram events clock registers interrupt stats,
      s.engine.plan s.memory (s.engine.channelOf frame) frame.bytes.length = .ok plan ∧
      s.Placed frame plan memory ram ∧
      (s.fill frame).2 =
        { engine :=
            { s.engine with
              ram, events, clock, registers, interrupt, stats
              channels := s.engine.channels.modifyReceive (s.engine.channelOf frame) fun receive =>
                { receive with
                  cursor := plan.next
                  completion := plan.first.descriptor.bufferPointer } }
          memory } ∧
      ∀ index, index ≠ .interruptStatus → registers.get index = s.engine.registers.get index := by
  cases hplan : s.engine.plan s.memory (s.engine.channelOf frame) frame.bytes.length with
  | error fault =>
      have hlatched : ∀ word index, index ≠ RegisterIndex.dmaStatus →
          (s.engine.registers.set .dmaStatus word).get index = s.engine.registers.get index :=
        fun word index hindex => RegisterFile.get_set_of_ne _ hindex word
      rw [fill_of_error hplan]
      cases fault with
      | overrun => exact Or.inl ⟨_, _, _, rfl, rfl, hlatched _⟩
      | ringExhausted => exact Or.inl ⟨_, _, _, rfl, rfl, hlatched _⟩
      | _ => exact Or.inl ⟨_, s.engine.registers, _, rfl, rfl, fun _ _ => rfl⟩
  | ok plan =>
      obtain ⟨memory, ram, hplaced, hfill⟩ := exists_fill_of_plan hplan
      obtain ⟨_, _, _, _, _, hcount, hregisters⟩ := Engine.exists_countReceived
        ({ s.engine with ram }.advance (s.engine.channelOf frame) plan) (s.engine.classOf frame)
        frame.bytes
      rw [hfill, hcount]
      exact Or.inr ⟨plan, memory, ram, _, _, _, _, _, rfl, hplaced, rfl, hregisters⟩

end System

/-! ### Fills that fail -/

namespace System

/-- **A failed fill is atomic.**  Once a frame has a plan, carrying it out never fails; and when the
fill of the oldest waiting frame fails, the frame is gone, one failure is counted, a failure of the
ring may be latched in the status register, and nothing else has changed. -/
theorem failed_fill_changes_nothing_else (s : System) (frame : InboundFrame) :
    (∀ channel plan, s.engine.plan s.memory channel frame.bytes.length = .ok plan →
      (s.commit channel frame plan).1 = none) ∧
    ∀ rest fault, s.engine.intake.frames = frame :: rest →
      ((s.mapEngine (·.setWaiting rest)).fill frame).1 = some fault →
      ∃ registers stats,
        ((s.mapEngine (·.setWaiting rest)).fill frame).2 =
          { engine :=
              { s.engine with
                intake := { s.engine.intake with frames := s.engine.intake.frames.tail }
                registers
                stats }
            memory := s.memory } ∧
        (∀ index, index ≠ .dmaStatus → registers.get index = s.engine.registers.get index) ∧
        ((((∃ address, fault = .overrun (s.engine.channelOf frame) address) ∨
              fault = .ringExhausted (s.engine.channelOf frame)) ∧
            stats = { s.engine.stats with overruns := s.engine.stats.overruns + 1 }) ∨
          ((∃ cause, fault = .outOfRange cause) ∧ registers = s.engine.registers ∧
            stats = { s.engine.stats with
              receiveErrors := s.engine.stats.receiveErrors + 1 })) := by
  constructor
  · intro channel plan hplan
    obtain ⟨memory, ram, -, hcommit⟩ := exists_commit hplan
    rw [hcommit]
  · intro rest fault hwaiting hfault
    have hplan := fill_fault_eq_some_iff.1 hfault
    rw [fill_of_error hplan, hwaiting, List.tail_cons]
    have hkept : ∀ word index, index ≠ RegisterIndex.dmaStatus →
        (s.engine.registers.set .dmaStatus word).get index = s.engine.registers.get index :=
      fun word index hindex => RegisterFile.get_set_of_ne _ hindex word
    rcases planFrom_fault hplan with rfl | ⟨address, rfl⟩ | ⟨cause, rfl⟩
    · exact ⟨_, _, rfl, hkept _, Or.inl ⟨Or.inr rfl, rfl⟩⟩
    · exact ⟨_, _, rfl, hkept _, Or.inl ⟨Or.inl ⟨address, rfl⟩, rfl⟩⟩
    · exact ⟨_, _, rfl, fun _ _ => rfl, Or.inr ⟨⟨cause, rfl⟩, rfl, rfl⟩⟩

/-- A system with 64 bytes of descriptor RAM and 4096 bytes of memory. -/
def small : System :=
  ⟨Engine.fresh ⟨{ ramSize := 64 }, by decide⟩ {} {}, .dense (Dense.ofSize 4096)⟩

/-- A frame of three bytes waits for a ring whose first buffer holds two bytes and whose second
descriptor belongs to software: it is dropped, and the first buffer stays empty. -/
theorem failed_fill_of_short_ring :
    let frame : InboundFrame := { bytes := [1, 2, 3] }
    let s := (small.run [.writeRam 0x48486000 [0x48486010, 0x100, 2, 0x20000000],
      .writeRegister 0x814 1, .writeRegister 0xA24 0x48486000, .deliver frame]).2
    s.engine.intake.frames = [frame] ∧
    ((s.mapEngine (·.setWaiting [])).fill frame).1 = some (.overrun 1 0x48486010) ∧
    ((s.mapEngine (·.setWaiting [])).fill frame).2.memory = s.memory := by
  intro frame s
  have hwaiting : s.engine.intake.frames = [frame] := by decide +kernel
  have hfault : ((s.mapEngine (·.setWaiting [])).fill frame).1 =
      some (.overrun 1 0x48486010) := by decide +kernel
  obtain ⟨registers, stats, hafter, -⟩ :=
    (failed_fill_changes_nothing_else s frame).2 [] _ hwaiting hfault
  exact ⟨hwaiting, hfault, by rw [hafter]⟩

end System

end PacketDma
