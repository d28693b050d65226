/-
**The order of two frames.**

Frames of the precision time protocol and other frames go to channels of their own.  When their
rings and buffers have nothing in common, it does not matter which of two such frames comes first:
neither is planned differently because of the other, their writes change places, and only one of
them is stamped.

Main definitions:

* `PacketDma.FillPlan.Apart` — two plans write nothing in common;
* `PacketDma.Engine.place` — the engine after a frame has been placed.

Main results:

* `PacketDma.FillWalk.congr` — a chain is found again where its slots have not changed;
* `PacketDma.System.fill_eq_iff` — **what it takes to place a frame**;
* `PacketDma.System.fill_swap` — two fills change places;
* `PacketDma.System.receive_channels_commute` — **so do two arrivals**.
-/

import PacketDma.Proofs.DisjointWrites
import PacketDma.Proofs.ReceiveRules

set_option autoImplicit false

namespace PacketDma

/-! ### Plans without anything in common -/

/-- Two plans write no descriptor slot and no byte of memory in common. -/
structure FillPlan.Apart (p q : FillPlan) : Prop where
  slots : ∀ t ∈ p.segments, ∀ u ∈ q.segments,
    SlotsDisjoint t.descriptor.address u.descriptor.address
  buffers : ∀ t ∈ p.segments, ∀ u ∈ q.segments, t.Apart u

theorem FillPlan.Apart.symm {p q : FillPlan} (h : p.Apart q) : q.Apart p where
  slots t ht u hu := (h.slots u hu t ht).symm
  buffers t ht u hu i hi hi' := h.buffers u hu t ht i hi' hi

/-- What a descriptor takes depends on its slot and on the extents only. -/
theorem Segment.TakenAt.congr {ram ram' : Aperture} {memory memory' : Memory} {address : UInt32}
    {offset missing : Nat} {s : Segment} (h : s.TakenAt ram memory address offset missing)
    (hextent : ram'.SameExtent ram) (hsize : memory'.size = memory.size)
    (hslot : ram'.slotAt address = ram.slotAt address) :
    s.TakenAt ram' memory' address offset missing where
  covered := hextent.covers_iff.2 h.covered
  descriptor_eq := hslot.symm ▸ h.descriptor_eq
  owned := h.owned
  inRange := hsize.symm ▸ h.inRange
  offset_eq := h.offset_eq
  length_eq := h.length_eq

/-- **A chain is found again where its slots have not changed.** -/
theorem FillWalk.congr {ram ram' : Aperture} {memory memory' : Memory} {head address : UInt32}
    {offset missing : Nat} {segments : List Segment} {next : Option UInt32}
    (h : FillWalk ram memory head address offset missing segments next)
    (hextent : ram'.SameExtent ram) (hsize : memory'.size = memory.size)
    (hslots : ∀ t ∈ segments,
      ram'.slotAt t.descriptor.address = ram.slotAt t.descriptor.address) :
    FillWalk ram' memory' head address offset missing segments next := by
  induction h with
  | last taken complete =>
      have hslot := hslots _ (List.mem_cons_self ..)
      rw [taken.address_eq] at hslot
      exact .last (taken.congr hextent hsize hslot) complete
  | more taken incomplete link walk ih =>
      have hslot := hslots _ (List.mem_cons_self ..)
      rw [taken.address_eq] at hslot
      exact .more (taken.congr hextent hsize hslot) incomplete link
        (ih fun t ht => hslots t (List.mem_cons_of_mem _ ht))

/-- Changes of two receive channels change places. -/
theorem ChannelBank.modifyReceive_modifyReceive (b : ChannelBank) {c d : ChannelId} (h : c ≠ d)
    (f g : ReceiveChannel → ReceiveChannel) :
    (b.modifyReceive c f).modifyReceive d g = (b.modifyReceive d g).modifyReceive c f := by
  refine ext_channels (fun _ => rfl) fun x => ?_
  by_cases hc : x = c
  · subst hc
    simp only [receiveChannel_modifyReceive_of_ne _ h, receiveChannel_modifyReceive_self]
  · by_cases hd : x = d
    · subst hd
      simp only [receiveChannel_modifyReceive_of_ne _ hc, receiveChannel_modifyReceive_self]
    · simp only [receiveChannel_modifyReceive_of_ne _ hc, receiveChannel_modifyReceive_of_ne _ hd]

namespace Engine

variable {e : Engine} {f g : InboundFrame} {p q : FillPlan}

/-- The class of a frame depends on the settings and one register only. -/
theorem classOf_congr {e' : Engine} (hsettings : e'.settings = e.settings)
    (htypes : e'.registers.get .timestampTypes = e.registers.get .timestampTypes)
    (frame : InboundFrame) : e'.classOf frame = e.classOf frame := by
  unfold classOf classify additionalTypes register
  rw [hsettings, htypes]

/-- Counts a frame that is placed. -/
def countPlaced (e : Engine) : Engine :=
  { e with stats := { e.stats with received := e.stats.received + 1 } }

theorem stampFrame_countPlaced (e : Engine) (frameClass : FrameClass) (port : UInt8)
    (kind : EventKind) (frame : Frame) :
    e.countPlaced.stampFrame frameClass port kind frame =
      (e.stampFrame frameClass port kind frame).countPlaced := by
  have henabled : e.countPlaced.stampsEnabled = e.stampsEnabled := rfl
  unfold stampFrame
  rw [henabled]
  split <;> rfl

/-- A channel that has received a frame by a plan. -/
def moved (plan : FillPlan) (receive : ReceiveChannel) : ReceiveChannel :=
  { receive with cursor := plan.next, completion := plan.first.descriptor.bufferPointer }

/-- The engine after a frame has been placed by a plan and its descriptors have been written back to
the RAM. -/
def place (e : Engine) (frame : InboundFrame) (plan : FillPlan) (ram : Aperture) : Engine :=
  ({ e with ram }.advance (e.channelOf frame) plan).countReceived (e.classOf frame) frame.bytes

/-- A frame that is placed is counted, stamped, and entered in its channel. -/
theorem place_eq (e : Engine) (frame : InboundFrame) (plan : FillPlan) (ram : Aperture) :
    e.place frame plan ram =
      (e.countPlaced.stampFrame (e.classOf frame) receivePort .received frame.bytes).withChains ram
        (e.channels.modifyReceive (e.channelOf frame) (moved plan)) := by
  rw [← stampFrame_withChains]
  rfl

theorem classOf_place (e : Engine) (frame : InboundFrame) (plan : FillPlan) (ram : Aperture)
    (later : InboundFrame) : (e.place frame plan ram).classOf later = e.classOf later := by
  obtain ⟨_, _, registers, _, _, hstamp, hregisters⟩ := e.countPlaced.exists_stampFrame
    (e.classOf frame) receivePort .received frame.bytes
  rw [place_eq, hstamp]
  refine classOf_congr (e := e) ?_ ?_ later
  · rfl
  · exact hregisters .timestampTypes (by decide)

theorem settings_place (e : Engine) (frame : InboundFrame) (plan : FillPlan) (ram : Aperture) :
    (e.place frame plan ram).settings = e.settings := by
  obtain ⟨_, _, _, _, _, hstamp, -⟩ := e.countPlaced.exists_stampFrame
    (e.classOf frame) receivePort .received frame.bytes
  rw [place_eq, hstamp]
  rfl

theorem channelOf_place (e : Engine) (frame : InboundFrame) (plan : FillPlan) (ram : Aperture)
    (later : InboundFrame) : (e.place frame plan ram).channelOf later = e.channelOf later := by
  rw [channelOf, channelOf, classOf_place, settings_place]

theorem channels_place (e : Engine) (frame : InboundFrame) (plan : FillPlan) (ram : Aperture) :
    (e.place frame plan ram).channels =
      e.channels.modifyReceive (e.channelOf frame) (moved plan) := by
  rw [place_eq]
  rfl

theorem ram_place (e : Engine) (frame : InboundFrame) (plan : FillPlan) (ram : Aperture) :
    (e.place frame plan ram).ram = ram := by
  rw [place_eq]
  rfl

/-- **Two frames change places in the engine** if they go to different channels and the second one
is not stamped. -/
theorem place_place (hclass : e.classOf g = .normal) (hchannel : e.channelOf f ≠ e.channelOf g)
    (ram other last : Aperture) :
    (e.place f p ram).place g q last = (e.place g q other).place f p last := by
  have hunstamped : ∀ x : Engine, x.stampFrame .normal receivePort .received g.bytes = x :=
    fun x => if_neg (by simp)
  -- both ways, `f` is stamped once, two frames are counted, and two channels move on
  let stamped : Engine := e.countPlaced.stampFrame (e.classOf f) receivePort .received f.bytes
  have hlater : (e.place f p ram).place g q last =
      stamped.countPlaced.withChains last
        ((e.channels.modifyReceive (e.channelOf f) (moved p)).modifyReceive (e.channelOf g)
          (moved q)) := by
    rw [place_eq (e.place f p ram), classOf_place, channelOf_place, hclass, hunstamped, place_eq]
    rfl
  have hearlier : (e.place g q other).place f p last =
      stamped.countPlaced.withChains last
        ((e.channels.modifyReceive (e.channelOf g) (moved q)).modifyReceive (e.channelOf f)
          (moved p)) := by
    have hcounted : (e.place g q other).countPlaced =
        e.countPlaced.countPlaced.withChains other
          (e.channels.modifyReceive (e.channelOf g) (moved q)) := by
      rw [place_eq, hclass, hunstamped]
      rfl
    rw [place_eq (e.place g q other), classOf_place, channelOf_place, hcounted, channels_place,
      stampFrame_withChains, stampFrame_countPlaced]
    rfl
  rw [hlater, hearlier, e.channels.modifyReceive_modifyReceive hchannel]

end Engine

namespace System

variable {s t u : System} {f g : InboundFrame} {p q : FillPlan} {memory : Memory} {ram : Aperture}

/-! ### Two fills -/

/-- A frame has a plan; `memory` is what copying its parts leaves behind, and `ram` what reporting
its descriptors does. -/
structure Transfers (s : System) (frame : InboundFrame) (plan : FillPlan) (memory : Memory)
    (ram : Aperture) : Prop where
  planned : s.engine.plan s.memory (s.engine.channelOf frame) frame.bytes.length = .ok plan
  copied : applyEach (writeSegment frame.bytes) plan.segments s.memory = (none, memory)
  reported : applyEach ReceiveDescriptor.encode (plan.report frame) s.engine.ram = (none, ram)

/-- A plan is carried out by its writes and its reports. -/
theorem commit_eq_none_iff {channel : ChannelId} : s.commit channel f p = (none, t) ↔
    ∃ memory ram, applyEach (writeSegment f.bytes) p.segments s.memory = (none, memory) ∧
      applyEach ReceiveDescriptor.encode (p.report f) s.engine.ram = (none, ram) ∧
      t = ⟨{ s.engine with ram }.advance channel p, memory⟩ := by
  unfold commit
  constructor
  · intro h
    split at h
    · cases h
    · next memory hcopied =>
        split at h
        · cases h
        · next ram hreported =>
            cases h
            exact ⟨memory, ram, hcopied, hreported, rfl⟩
  · rintro ⟨memory, ram, hcopied, hreported, rfl⟩
    simp only [hcopied, hreported]

theorem Transfers.fill_eq (h : s.Transfers f p memory ram) :
    s.fill f = (none, ⟨s.engine.place f p ram, memory⟩) :=
  fill_of_commit h.planned (commit_eq_none_iff.2 ⟨memory, ram, h.copied, h.reported, rfl⟩)

/-- **What it takes to place a frame.** -/
theorem fill_eq_none_iff : s.fill f = (none, t) ↔
    ∃ plan memory ram, s.Transfers f plan memory ram ∧ t = ⟨s.engine.place f plan ram, memory⟩ := by
  constructor
  · intro h
    cases hplan : s.engine.plan s.memory (s.engine.channelOf f) f.bytes.length with
    | error fault =>
        rw [fill_of_error hplan] at h
        cases h
    | ok plan =>
        obtain ⟨memory, ram, -, hcommit⟩ := exists_commit hplan
        obtain ⟨memory, ram, hcopied, hreported, -⟩ := commit_eq_none_iff.1 hcommit
        have htransfers : s.Transfers f plan memory ram := ⟨hplan, hcopied, hreported⟩
        rw [htransfers.fill_eq] at h
        cases h
        exact ⟨plan, memory, ram, htransfers, rfl⟩
  · rintro ⟨plan, memory, ram, htransfers, rfl⟩
    exact htransfers.fill_eq

theorem Transfers.placed (h : s.Transfers f p memory ram) : s.Placed f p memory ram := by
  obtain ⟨memory', ram', hplaced, hcommit⟩ := exists_commit h.planned
  obtain ⟨_, _, hcopied, hreported, hsame⟩ := commit_eq_none_iff.1 hcommit
  rw [h.copied] at hcopied
  rw [h.reported] at hreported
  cases hcopied
  cases hreported
  have hmemory : memory' = memory := congrArg System.memory hsame
  have hram : ram' = ram := congrArg (fun t : System => t.engine.ram) hsame
  rw [← hmemory, ← hram]
  exact hplaced

/-- **A plan for another channel does not depend on a frame that has been placed elsewhere.** -/
theorem Transfers.plan_eq_ok_iff (h : s.Transfers f p memory ram) {channel : ChannelId}
    (hchannel : channel ≠ s.engine.channelOf f)
    (hslots : ∀ t ∈ p.segments, ∀ u ∈ q.segments,
      SlotsDisjoint t.descriptor.address u.descriptor.address) {length : Nat} :
    (s.engine.place f p ram).plan memory channel length = .ok q ↔
      s.engine.plan s.memory channel length = .ok q := by
  have hplaced := h.placed
  have hkept : ∀ u ∈ q.segments,
      ram.slotAt u.descriptor.address = s.engine.ram.slotAt u.descriptor.address := by
    intro u hu
    refine hplaced.reports.slotAt_of_apart ?_
    rintro i ⟨t, ht, hin⟩
    exact ⟨t.descriptor.address, hslots t ht u hu, hin.inSlot⟩
  have hsame : ((s.engine.place f p ram).channels.receiveChannel channel) =
      s.engine.channels.receiveChannel channel := by
    rw [Engine.channels_place, ChannelBank.receiveChannel_modifyReceive_of_ne _ hchannel]
  rw [Engine.plan, Engine.plan, planFill_eq_ok_iff, planFill_eq_ok_iff, Engine.settings_place,
    Engine.ram_place, hsame]
  refine and_congr_left fun _ => ⟨fun hwalk => ?_, fun hwalk => ?_⟩
  · exact hwalk.congr hplaced.reports.1.symm hplaced.size.symm fun u hu => (hkept u hu).symm
  · exact hwalk.congr hplaced.reports.1 hplaced.size hkept

/-- Parts of frames whose buffers have no used byte in common change places. -/
theorem swaps_writeSegment {frame other : Frame} {t u : Segment} (h : t.Apart u) :
    Swaps (writeSegment frame t) (writeSegment other u) := by
  have hin : ∀ (frame : Frame) (t : Segment) i,
      Memory.InWrite t.descriptor.dataAddress (t.part frame) i → t.Touches i := fun frame t i hi =>
    ⟨hi.1, Nat.lt_of_lt_of_le hi.2 (Nat.add_le_add_left (t.length_part_le frame) _)⟩
  intro a b c hfirst hsecond
  obtain ⟨middle, hmiddle, hlast⟩ := Memory.swaps_write
    (fun i hi hi' => h i (hin frame t i hi) (hin other u i hi'))
    (liftMemory_eq_ok_iff.1 hfirst) (liftMemory_eq_ok_iff.1 hsecond)
  exact ⟨middle, liftMemory_eq_ok_iff.2 hmiddle, liftMemory_eq_ok_iff.2 hlast⟩

/-- **Two fills change places** when they go to different channels, have nothing in common, and the
second frame is not stamped. -/
theorem fill_swap (hclass : s.engine.classOf g = .normal)
    (hchannel : s.engine.channelOf f ≠ s.engine.channelOf g)
    (hapart : ∀ p q,
      s.engine.plan s.memory (s.engine.channelOf f) f.bytes.length = .ok p →
      t.engine.plan t.memory (t.engine.channelOf g) g.bytes.length = .ok q → p.Apart q)
    (hfirst : s.fill f = (none, t)) (hsecond : t.fill g = (none, u)) :
    ∃ t', s.fill g = (none, t') ∧ t'.fill f = (none, u) := by
  obtain ⟨p, memory, ram, hf, rfl⟩ := fill_eq_none_iff.1 hfirst
  obtain ⟨q, memory', ram', hg, rfl⟩ := fill_eq_none_iff.1 hsecond
  have hpq : p.Apart q := hapart p q hf.planned hg.planned
  have hplanned := hg.planned
  rw [Engine.channelOf_place, hf.plan_eq_ok_iff hchannel.symm hpq.slots] at hplanned
  obtain ⟨first, hcopied, hcopied'⟩ := Swaps.applyEach
    (fun t ht u hu => swaps_writeSegment (hpq.buffers t ht u hu)) hf.copied hg.copied
  have hreports : ∀ d ∈ p.report f, ∀ e ∈ q.report g, Swaps d.encode e.encode := by
    intro d hd e he
    obtain ⟨t, ht, hd'⟩ := exists_segment_of_report hd
    obtain ⟨u, hu, he'⟩ := exists_segment_of_report he
    exact ReceiveDescriptor.swaps_encode (hd' ▸ he' ▸ hpq.slots t ht u hu)
  have hreported := hg.reported
  rw [Engine.ram_place] at hreported
  obtain ⟨other, hreported', hrepeated⟩ := Swaps.applyEach hreports hf.reported hreported
  have hg' : s.Transfers g q first other := ⟨hplanned, hcopied, hreported'⟩
  have hf' : System.Transfers ⟨s.engine.place g q other, first⟩ f p memory' ram' := by
    refine ⟨?_, hcopied', ?_⟩
    · show (s.engine.place g q other).plan first ((s.engine.place g q other).channelOf f) _ = _
      rw [Engine.channelOf_place, hg'.plan_eq_ok_iff hchannel hpq.symm.slots]
      exact hf.planned
    · rw [Engine.ram_place]
      exact hrepeated
  refine ⟨_, hg'.fill_eq, ?_⟩
  rw [hf'.fill_eq, Engine.place_place hclass hchannel]

/-! ### Two arrivals -/

/-- Where no frame waits, a frame that arrives for an armed channel is placed at once. -/
theorem receive_of_empty (hempty : s.engine.intake.frames = [])
    (henabled : s.engine.receiveEnabled = true)
    (haccepted : s.engine.intake.refusal? s.engine.settings.pendingLimit f = none)
    (hready : s.engine.ready f = true) : s.receive f = s.fill f := by
  have hdrain : s.drain = (none, s) := by
    rw [drain_of_enabled henabled, hempty, drainFrames_nil]
  rw [receive_of_drained haccepted henabled (by rw [hdrain, hempty]) (by rw [hdrain, hready]),
    hdrain]
  rfl

theorem accepted_of_receive (h : (s.receive f).1 = none) :
    s.engine.intake.refusal? s.engine.settings.pendingLimit f = none := by
  cases hrefusal : s.engine.intake.refusal? s.engine.settings.pendingLimit f with
  | none => rfl
  | some fault =>
      rw [receive, Engine.offer_of_refusal hrefusal] at h
      cases h

/-- A frame that is placed does not change which frames are placed at once. -/
theorem receive_fill_of_empty (hempty : s.engine.intake.frames = [])
    (henabled : s.engine.receiveEnabled = true) (hready : s.engine.ready g = true) :
    ((s.fill f).2.engine.intake.refusal? (s.fill f).2.engine.settings.pendingLimit g =
        s.engine.intake.refusal? s.engine.settings.pendingLimit g) ∧
      (s.engine.intake.refusal? s.engine.settings.pendingLimit g = none →
        (s.fill f).2.receive g = (s.fill f).2.fill g) := by
  have hrules := sameRules_fill s f
  have hrefusal : (s.fill f).2.engine.intake.refusal? (s.fill f).2.engine.settings.pendingLimit g =
      s.engine.intake.refusal? s.engine.settings.pendingLimit g := by
    rw [intake_fill, hrules.settings]
  refine ⟨hrefusal, fun haccepted => ?_⟩
  refine receive_of_empty ?_ (hrules.receiveEnabled_eq.trans henabled) (hrefusal.trans haccepted)
    ((hrules.ready_eq g).trans hready)
  rw [intake_fill, hempty]

/-- **Two receive channels do not get in each other's way.**  Receive is enabled, no frame waits,
the two classes of frames have channels of their own, and both channels are armed.  When a frame `f`
of the precision time protocol and then another frame `g` are received without a fault, and their
plans write no slot and no used byte of a buffer in common, then `g` and then `f` are received
without a fault as well, and the system is the same in the end: the engine with its descriptor RAM,
channels, registers, event queue and counters, and the memory with what is allocated of it. -/
theorem receive_channels_commute (henabled : s.engine.receiveEnabled = true)
    (hempty : s.engine.intake.frames = [])
    (hchannels : s.engine.settings.channel .ptp ≠ s.engine.settings.channel .normal)
    (hptp : (s.engine.channels.receiveChannel (s.engine.settings.channel .ptp)).head ≠ 0)
    (hnormal : (s.engine.channels.receiveChannel (s.engine.settings.channel .normal)).head ≠ 0)
    (hf : s.engine.classOf f = .ptp) (hg : s.engine.classOf g = .normal)
    (hapart : ∀ p q,
      s.engine.plan s.memory (s.engine.settings.channel .ptp) f.bytes.length = .ok p →
      (s.receive f).2.engine.plan (s.receive f).2.memory (s.engine.settings.channel .normal)
        g.bytes.length = .ok q → p.Apart q)
    (hfirst : (s.receive f).1 = none) (hsecond : ((s.receive f).2.receive g).1 = none) :
    (s.receive g).1 = none ∧ ((s.receive g).2.receive f).1 = none ∧
      ((s.receive g).2.receive f).2 = ((s.receive f).2.receive g).2 := by
  have hchannelf : s.engine.channelOf f = s.engine.settings.channel .ptp := by
    rw [Engine.channelOf, hf]
  have hchannelg : s.engine.channelOf g = s.engine.settings.channel .normal := by
    rw [Engine.channelOf, hg]
  have hreadyf : s.engine.ready f = true := Engine.ready_iff.2 (by rwa [hchannelf])
  have hreadyg : s.engine.ready g = true := Engine.ready_iff.2 (by rwa [hchannelg])
  have haccepted := accepted_of_receive hfirst
  have hreceive : s.receive f = s.fill f := receive_of_empty hempty henabled haccepted hreadyf
  rw [hreceive] at hapart hfirst hsecond ⊢
  -- what is accepted behind `f` is accepted without it
  obtain ⟨hrefusal, hbehind⟩ := receive_fill_of_empty (f := f) hempty henabled hreadyg
  have haccepted' := hrefusal.symm.trans (accepted_of_receive hsecond)
  rw [hbehind haccepted'] at hsecond ⊢
  rw [receive_of_empty hempty henabled haccepted' hreadyg,
    (receive_fill_of_empty hempty henabled hreadyf).2 haccepted]
  have hrules := sameRules_fill s f
  obtain ⟨t', hfill, hfill'⟩ := fill_swap hg (by rwa [hchannelf, hchannelg])
    (fun p q hp hq => hapart p q (hchannelf ▸ hp) (by rwa [hrules.channelOf_eq, hchannelg] at hq))
    (Prod.ext hfirst rfl) (Prod.ext hsecond rfl)
  rw [hfill]
  exact ⟨rfl, by rw [hfill'], by rw [hfill']⟩

/-- Two frames find their channels in either order; the frame of the precision time protocol is
stamped both times. -/
theorem two_channels_in_either_order :
    let f : InboundFrame := { bytes := [1, 2], class? := some .ptp }
    let g : InboundFrame := { bytes := [3, 4, 5], class? := some .normal }
    let s := (small.run [.writeRam 0x48486000 [0, 0x100, 16, 0x20000000, 0, 0x200, 16, 0x20000000],
      .writeRegister 0x814 1, .writeRegister 0xC28 1, .writeRegister 0xA20 0x48486000,
      .writeRegister 0xA24 0x48486010]).2
    ((s.receive g).2.receive f).2 = ((s.receive f).2.receive g).2 ∧
    ((s.receive f).2.receive g).2.engine.stats.received = 2 ∧
    ((s.receive f).2.receive g).2.engine.stats.events = 1 := by
  intro f g s
  have hp : s.engine.plan s.memory (s.engine.settings.channel .ptp) f.bytes.length =
      .ok ⟨⟨⟨0x48486000, 0, 0x100, 0, 16, 0, 0, 0, 0x20000000, 0, 0⟩, 0, 2⟩, [],
        some 0x48486000⟩ := by decide +kernel
  have hq : (s.receive f).2.engine.plan (s.receive f).2.memory (s.engine.settings.channel .normal)
      g.bytes.length =
      .ok ⟨⟨⟨0x48486010, 0, 0x200, 0, 16, 0, 0, 0, 0x20000000, 0, 0⟩, 0, 3⟩, [],
        some 0x48486010⟩ := by decide +kernel
  have hapart : ∀ p q,
      s.engine.plan s.memory (s.engine.settings.channel .ptp) f.bytes.length = .ok p →
      (s.receive f).2.engine.plan (s.receive f).2.memory (s.engine.settings.channel .normal)
        g.bytes.length = .ok q → p.Apart q := by
    intro p q hp' hq'
    cases hp.symm.trans hp'
    cases hq.symm.trans hq'
    refine ⟨by decide, fun t ht u hu i hi hi' => ?_⟩
    cases List.mem_singleton.1 ht
    cases List.mem_singleton.1 hu
    have hend : i < 0x100 + 2 := hi.2
    have hstart : 0x200 ≤ i := hi'.1
    omega
  obtain ⟨-, -, hsame⟩ := receive_channels_commute (s := s) (f := f) (g := g)
    (by decide +kernel) (by decide +kernel) (by decide +kernel) (by decide +kernel)
    (by decide +kernel) rfl rfl hapart (by decide +kernel) (by decide +kernel)
  exact ⟨hsame, by decide +kernel, by decide +kernel⟩

end System

end PacketDma
