/-
**The receive ring protocol.**

Frames arrive and software hands the oldest one back, in any order.  Either action keeps the
invariant of the ring, so that engine and software together are a queue: frames go in at one end and
come out at the other, none is overwritten while software has it, and a frame is refused exactly
when the armed descriptors have no room for it.

Main results:

* `PacketDma.RingQueue.Agrees.deliver`, `PacketDma.RingQueue.Agrees.refuse`,
  `PacketDma.RingQueue.Agrees.handBack` — what one action does;
* `PacketDma.RingQueue.Agrees.play` — any sequence of actions keeps the invariant;
* `PacketDma.System.ring_is_bounded_queue` — **a receive ring is a bounded queue of frames**.
-/

import PacketDma.Proofs.RingInvariant

set_option autoImplicit false

namespace PacketDma

namespace RingQueue.Agrees

variable {q : RingQueue} {ring : Ring} {channel : ChannelId} {base s : System}
  {frame : InboundFrame}

/-! ### A frame arrives -/

/-- **A frame that fits is delivered**: it goes behind the outstanding frames, and its descriptors
behind theirs. -/
theorem deliver (h : q.Agrees ring channel s) (hlistens : base.Listens s)
    (hsuits : frame.Suits base.engine channel) {span : Span} {left : List RingSlot}
    (hspan : takeSlots base.engine.settings.walkLimit q.free frame.bytes.length =
      some (span, left)) :
    (s.receive frame).1 = none ∧
      (RingQueue.mk left (q.outstanding ++ [⟨frame, span⟩])).Agrees ring channel
        (s.receive frame).2 := by
  rw [hlistens.receive_eq_fill hsuits h.head_ne_zero]
  rw [← hlistens.settings] at hspan
  obtain ⟨-, hlength, hchannel⟩ := hsuits
  rw [← hlistens.channelOf_eq] at hchannel
  subst hchannel
  have hplan := h.planned hspan
  obtain ⟨memory, ram, hplaced, hfill⟩ := System.exists_fill_of_plan hplan
  obtain ⟨_, _, _, _, _, hcount, -⟩ := Engine.exists_countReceived
    ({ s.engine with ram }.advance (s.engine.channelOf frame) (span.plan frame.bytes.length
      (some (entry left q.beyond)))) (s.engine.classOf frame) frame.bytes
  rw [hfill, hcount]
  have hslots := slots_of_takeSlots hspan
  have hafter := q.slots_concat left ⟨frame, span⟩
  have hrotated := h.rotated
  rw [hslots] at hrotated
  -- nothing but the descriptors of the frame and their buffers is written
  obtain ⟨hown, -, hslotsApart⟩ :=
    List.pairwise_append.1 (Ring.slotsApart_of_isRotated hrotated)
  obtain ⟨hown', -, hbuffersApart⟩ :=
    List.pairwise_append.1 (Ring.buffersApart_of_isRotated hrotated)
  refine ⟨rfl, ?_, ?_, ?_, ?_, ?_, ?_⟩
  · rw [hafter]
    exact hrotated.trans List.isRotated_append
  · simp [Engine.advance, h.head]
  · have hfirst : entry q.slots 0 = entry span.slots 0 := by
      rw [hslots]
      rfl
    -- the next frame starts behind the last descriptor that has been taken
    rw [hafter, entry_append, entry_append, ← hfirst]
    simp [Engine.advance, Span.plan, beyond]
  · refine h.laid.of_placed hplaced fun x hx => h.mem_iff.2 ?_
    rw [hslots]
    exact List.mem_append_left _ hx
  · intro x hx
    have harmed := h.armed x (by
      rw [(append_of_takeSlots hspan).1]
      exact List.mem_append_right _ hx)
    rw [← harmed]
    exact hplaced.slotAt_of_apart fun y hy => hslotsApart y hy x (List.mem_append_left _ hx)
  · intro d hd
    rcases List.mem_append.1 hd with hd | hd
    · have harc : ∀ x ∈ d.span.slots, x ∈ left ++ q.arc := fun x hx =>
        List.mem_append_right _ (mem_arc hd hx)
      exact hplaced.heldIn_of_apart (h.held d hd)
        (fun y hy x hx => hslotsApart y hy x (harc x hx))
        (fun y hy x hx => hbuffersApart y hy x (harc x hx))
    · rcases List.mem_singleton.1 hd with rfl
      exact hplaced.heldIn hplan hlength hown hown'

/-- **A frame that does not fit is dropped**: it is counted, the failure is latched, and nothing
else changes. -/
theorem refuse (h : q.Agrees ring channel s) (hlistens : base.Listens s)
    (hsuits : frame.Suits base.engine channel)
    (hspan : takeSlots base.engine.settings.walkLimit q.free frame.bytes.length = none) :
    s.receive frame =
      (some (q.refusal base.engine.settings.walkLimit channel),
        s.mapEngine (·.countFailure channel
          (q.refusal base.engine.settings.walkLimit channel))) := by
  rw [hlistens.receive_eq_fill hsuits h.head_ne_zero]
  rw [← hlistens.settings] at hspan ⊢
  obtain ⟨-, -, hchannel⟩ := hsuits
  rw [← hlistens.channelOf_eq] at hchannel
  subst hchannel
  exact System.fill_of_error (h.refused hspan)

/-- The invariant does not depend on the counters and the latched status. -/
theorem countFailure (h : q.Agrees ring channel s) (other : ChannelId) (fault : DmaFault) :
    q.Agrees ring channel (s.mapEngine (·.countFailure other fault)) := by
  cases fault <;> exact ⟨h.rotated, h.head, h.cursor, h.laid, h.armed, h.held⟩

/-! ### The oldest frame is handed back -/

/-- **The oldest frame can be handed back**: its descriptors go behind the armed ones. -/
theorem handBack (h : q.Agrees ring channel s) {oldest : Delivery} {later : List Delivery}
    (houtstanding : q.outstanding = oldest :: later) :
    ∃ ram, (s.run (oldest.span.slots.map RingSlot.rearm)).2 = s.mapEngine ({ · with ram }) ∧
      (RingQueue.mk (q.free ++ oldest.span.slots) later).Agrees ring channel
        (s.mapEngine ({ · with ram })) := by
  have harc : q.arc = oldest.span.slots ++ later.flatMap (·.span.slots) := by
    rw [arc, houtstanding, List.flatMap_cons]
  have hafter := slots_handBack houtstanding
  have hmem : ∀ x ∈ oldest.span.slots, x ∈ ring.slots := by
    intro x hx
    refine h.mem_iff.2 (List.mem_append_right _ ?_)
    rw [harc]
    exact List.mem_append_left _ hx
  have hapart := Ring.slotsApart_of_isRotated h.rotated
  rw [slots, harc] at hapart
  obtain ⟨-, harcApart, hfree⟩ := List.pairwise_append.1 hapart
  obtain ⟨hown, -, hlater⟩ := List.pairwise_append.1 harcApart
  obtain ⟨ram, hrun, heq, hrearmed⟩ := s.exists_run_rearm oldest.span.slots fun x hx =>
    h.laid.covered x (hmem x hx)
  have hkept : ∀ x : RingSlot, (∀ y ∈ oldest.span.slots, SlotsDisjoint y.address x.address) →
      ram.slotAt x.address = s.engine.ram.slotAt x.address := by
    intro x hx
    refine heq.slotAt_of_apart ?_
    rintro i ⟨y, hy, hin⟩
    exact ⟨y.address, hx y hy, hin.inSlot⟩
  refine ⟨ram, hrun, ?_, h.head, ?_, ?_, ?_, ?_⟩
  · rw [hafter]
    exact h.rotated
  · rw [hafter]
    exact h.cursor
  · refine h.laid.of_eqOff heq (fun i hin => ?_) rfl
    obtain ⟨x, hx, hin⟩ := hin
    exact ⟨x, hmem x hx, hin⟩
  · intro x hx
    rcases List.mem_append.1 hx with hx | hx
    · refine (hkept x fun y hy => ?_).trans (h.armed x hx)
      -- the descriptors handed back were none of the armed ones
      exact (hfree x hx y (List.mem_append_left _ hy)).symm
    · exact h.laid.slotAt_of_rearmed (hmem x hx) (hrearmed hown x hx)
  · intro d hd
    have hd' : d ∈ q.outstanding := by
      rw [houtstanding]
      exact List.mem_cons_of_mem _ hd
    refine (h.held d hd').congr (fun x hx => hkept x fun y hy => ?_) fun _ _ _ _ => rfl
    exact hlater y hy x (List.mem_flatMap.2 ⟨d, hd, hx⟩)

/-! ### Sequences of actions -/

/-- **One action keeps the invariant.** -/
theorem step (h : q.Agrees ring channel s) (hlistens : base.Listens s) (action : RingAction)
    (hsuits : ∀ frame, action = .arrive frame → frame.Suits base.engine channel) :
    (q.after base.engine.settings.walkLimit action).Agrees ring channel
        (s.run (q.operations action)).2 ∧
      base.Listens (s.run (q.operations action)).2 := by
  cases action with
  | arrive frame =>
      have hsuits := hsuits frame rfl
      have hrun : (s.run (q.operations (.arrive frame))).2 = (s.receive frame).2 := rfl
      rw [hrun, after]
      refine ⟨?_, ?_⟩
      · cases hspan : takeSlots base.engine.settings.walkLimit q.free frame.bytes.length with
        | none =>
            rw [h.refuse hlistens hsuits hspan]
            exact h.countFailure ..
        | some found => exact (h.deliver hlistens hsuits hspan).2
      · rw [hlistens.receive_eq_fill hsuits h.head_ne_zero]
        exact hlistens.fill frame
  | handBack =>
      cases houtstanding : q.outstanding with
      | nil =>
          simp only [after, operations, houtstanding]
          exact ⟨h, hlistens⟩
      | cons oldest later =>
          simp only [after, operations, houtstanding]
          obtain ⟨ram, hrun, hagrees⟩ := h.handBack houtstanding
          rw [hrun]
          exact ⟨hagrees, hlistens.settings, hlistens.registers, hlistens.enabled,
            hlistens.accepting, hlistens.waiting⟩

/-- **Any sequence of actions keeps the invariant.** -/
theorem play (h : q.Agrees ring channel s) (hlistens : base.Listens s)
    (actions : List RingAction)
    (hsuits : ∀ frame, .arrive frame ∈ actions → frame.Suits base.engine channel) :
    let result := System.play base.engine.settings.walkLimit actions (s, q)
    result.2.Agrees ring channel result.1 ∧ base.Listens result.1 := by
  induction actions generalizing s q with
  | nil => exact ⟨h, hlistens⟩
  | cons action rest ih =>
      obtain ⟨hagrees, hlistens'⟩ := h.step hlistens action fun frame heq =>
        hsuits frame (heq ▸ List.mem_cons_self ..)
      exact ih hagrees hlistens' fun frame hmem => hsuits frame (List.mem_cons_of_mem _ hmem)

end RingQueue.Agrees

/-! ### Arming a ring -/

namespace System

variable {s : System}

theorem receiveHead_decode (channel : ChannelId) :
    Register.decode (0xA20 + 4 * UInt32.ofNat channel.val) = some (.receiveHead channel) := by
  revert channel
  decide +kernel

/-- With no frame waiting, a write of a head pointer of a receive channel arms the channel and does
nothing else. -/
theorem writeRegister_receiveHead (hwaiting : s.engine.intake.frames = []) (channel : ChannelId)
    (head : UInt32) :
    s.writeRegister (0xA20 + 4 * UInt32.ofNat channel.val) head =
      (none, s.mapEngine (·.armReceive channel head)) := by
  have hwaiting' : (s.mapEngine (·.armReceive channel head)).engine.intake.frames = [] := hwaiting
  rw [writeRegister, receiveHead_decode]
  show (s.mapEngine (·.armReceive channel head)).drain = _
  rw [drain, hwaiting', drainFrames_nil, ite_self]

/-- A ring whose descriptors are all armed agrees with the empty queue. -/
theorem agrees_armReceive {ring : Ring} (hready : ∀ x ∈ ring.slots, x.ReadyIn s.engine.ram s.memory)
    (channel : ChannelId) :
    (RingQueue.mk ring.slots []).Agrees ring channel
      (s.mapEngine (·.armReceive channel ring.first.address)) := by
  have hslots : (RingQueue.mk ring.slots []).slots = ring.slots := List.append_nil _
  refine ⟨?_, ?_, ?_, ⟨fun x hx => (hready x hx).covered, fun x hx => (hready x hx).inRange, ?_⟩,
    fun x hx => (hready x hx).armed, fun d hd => absurd hd List.not_mem_nil⟩
  · rw [hslots]
  · simp [Engine.armReceive, ChannelBank.armReceive, ReceiveChannel.arm]
  · rw [hslots]
    simp [Engine.armReceive, ChannelBank.armReceive, ReceiveChannel.arm, ring.first.nonzero,
      Ring.slots]
  · intro x hx
    have harmed : (s.engine.ram.slotAt x.address) = x.armed := (hready x hx).armed
    exact ⟨congrArg Slot.next harmed, congrArg Slot.buffer harmed⟩

/-! ### The ring as a queue -/

/-- **A receive ring is a bounded queue of frames.**  Let all descriptors of a ring be armed, let
receive be enabled and no frame wait, and let the ring be given to a channel.  Whatever frames of
the channel arrive then, and however often software hands the oldest outstanding frame back in
between, the descriptors of the outstanding frames lie behind each other in the order of the frames
and end where the engine will place the next frame; software finds every outstanding frame in its
descriptors, of which the first and only the first belongs to software; and a frame that arrives is
delivered into the first armed descriptors when the armed descriptors that it may use have room for
it, and is otherwise counted and dropped without any other effect. -/
theorem ring_is_bounded_queue (ring : Ring) (channel : ChannelId)
    (henabled : s.engine.receiveEnabled = true) (haccepting : s.engine.intake.accepting = true)
    (hwaiting : s.engine.intake.frames = [])
    (hready : ∀ x ∈ ring.slots, x.ReadyIn s.engine.ram s.memory) (actions : List RingAction)
    (hsuits : ∀ frame, .arrive frame ∈ actions → frame.Suits s.engine channel) :
    let limit := s.engine.settings.walkLimit
    ∃ start t q,
      s.writeRegister (0xA20 + 4 * UInt32.ofNat channel.val) ring.first.address = (none, start) ∧
      play limit actions (start, ⟨ring.slots, []⟩) = (t, q) ∧ q.Agrees ring channel t ∧
      (∀ d ∈ q.outstanding,
        (t.engine.ram.descriptorAt d.span.first.address).isOwned = false ∧
        ∀ x ∈ d.span.rest, (t.engine.ram.descriptorAt x.address).isOwned = true) ∧
      ∀ frame : InboundFrame, frame.Suits s.engine channel →
        (frame.bytes.length ≤ q.room limit →
          (t.receive frame).1 = none ∧
          (q.after limit (.arrive frame)).Agrees ring channel (t.receive frame).2 ∧
          ∃ span left, q.free = span.slots ++ left ∧
            q.after limit (.arrive frame) = ⟨left, q.outstanding ++ [⟨frame, span⟩]⟩) ∧
        (q.room limit < frame.bytes.length →
          t.receive frame = (some (q.refusal limit channel),
            t.mapEngine (·.countFailure channel (q.refusal limit channel)))) := by
  intro limit
  have hlistens : s.Listens (s.mapEngine (·.armReceive channel ring.first.address)) :=
    ⟨rfl, fun _ _ _ => rfl, henabled, haccepting, hwaiting⟩
  obtain ⟨hagrees, hlistens⟩ := (agrees_armReceive hready channel).play hlistens actions hsuits
  refine ⟨_, _, _, writeRegister_receiveHead hwaiting channel _, rfl, hagrees, ?_, ?_⟩
  · intro d hd
    exact ⟨(hagrees.held d hd).not_owned_first, (hagrees.held d hd).owned_rest⟩
  · intro frame hframe
    constructor
    · intro hroom
      obtain ⟨⟨span, left⟩, hspan⟩ :=
        Option.isSome_iff_exists.1 ((takeSlots_isSome_iff hframe.positive).2 hroom)
      obtain ⟨hdelivered, hafter⟩ := hagrees.deliver hlistens hframe hspan
      rw [RingQueue.after_of_takeSlots hspan]
      exact ⟨hdelivered, hafter, span, left, (append_of_takeSlots hspan).1, rfl⟩
    · intro hroom
      have hspan := mt (takeSlots_isSome_iff hframe.positive).1 (Nat.not_le.2 hroom)
      rw [Bool.not_eq_true, Option.isSome_eq_false_iff, Option.isNone_iff_eq_none] at hspan
      exact hagrees.refuse hlistens hframe hspan

/-- A ring of three descriptors with room for two, four and four bytes. -/
def smallRing : Ring where
  first := ⟨0x48486000, ⟨0x48486010, 0x100, 2, 0x20000000⟩, by decide, by decide⟩
  rest :=
    [⟨0x48486010, ⟨0x48486020, 0x200, 4, 0x20000000⟩, by decide, by decide⟩,
      ⟨0x48486020, ⟨0, 0x300, 4, 0x20000000⟩, by decide, by decide⟩]
  slotsApart := by decide
  buffersApart := by
    refine List.Pairwise.imp (fun h => ReceiveDescriptor.BuffersDisjoint.of_le h) ?_
    decide +kernel
  linked := by decide
  closed := by decide

/-- Three bytes take the first two descriptors and two bytes the third.  When the first frame has
been handed back, four bytes take the first two descriptors again, and then the ring is full. -/
theorem small_ring_is_bounded_queue :
    let s := (small.run [.writeRam 0x48486000 [0x48486010, 0x100, 2, 0x20000000],
      .writeRam 0x48486010 [0x48486020, 0x200, 4, 0x20000000],
      .writeRam 0x48486020 [0, 0x300, 4, 0x20000000], .writeRegister 0x814 1]).2
    let actions : List RingAction :=
      [.arrive { bytes := [1, 2, 3] }, .arrive { bytes := [4, 5] }, .handBack,
        .arrive { bytes := [6, 7, 8, 9] }]
    ∃ t q,
      play 1024 actions ((s.writeRegister 0xA24 0x48486000).2, ⟨smallRing.slots, []⟩) = (t, q) ∧
      q.Agrees smallRing 1 t ∧
      q.outstanding.map (·.frame.bytes) = [[4, 5], [6, 7, 8, 9]] ∧
      (t.receive { bytes := [10] }).1 = some (.overrun 1 0x48486020) := by
  intro s actions
  have hsuits : ∀ bytes ∈ ([[1, 2, 3], [4, 5], [6, 7, 8, 9], [10]] : List (List UInt8)),
      InboundFrame.Suits { bytes } s.engine 1 := by
    intro bytes hbytes
    have hlength : ∀ bytes ∈ ([[1, 2, 3], [4, 5], [6, 7, 8, 9], [10]] : List (List UInt8)),
        0 < bytes.length ∧ bytes.length ≤ maxPacketLength ∧
          s.engine.channelOf { bytes } = 1 := by decide +kernel
    obtain ⟨hpositive, hbounded, hchannel⟩ := hlength bytes hbytes
    exact ⟨hpositive, hbounded, hchannel⟩
  have hready : ∀ x ∈ smallRing.slots, x.ReadyIn s.engine.ram s.memory := by
    have hwords : ∀ x ∈ smallRing.slots, s.engine.ram.CoversSlot x.address ∧
        s.engine.ram.slotAt x.address = x.armed ∧
        InRange s.memory.size x.descriptor.dataAddress x.capacity := by decide +kernel
    intro x hx
    obtain ⟨hcovered, harmed, hrange⟩ := hwords x hx
    exact ⟨hcovered, harmed, hrange⟩
  obtain ⟨start, t, q, hstart, hplay, hagrees, -, hnext⟩ :=
    ring_is_bounded_queue (s := s) smallRing 1 (by decide +kernel) (by decide +kernel)
      (by decide +kernel) hready actions fun frame hframe => by
        simp only [actions, List.mem_cons, RingAction.arrive.injEq, reduceCtorEq, false_or,
          List.not_mem_nil, or_false] at hframe
        rcases hframe with rfl | rfl | rfl <;> exact hsuits _ (by decide)
  have hlimit : s.engine.settings.walkLimit = 1024 := by decide +kernel
  rw [hlimit] at hplay hnext
  have hsystem : (s.writeRegister 0xA24 0x48486000).2 = start := congrArg Prod.snd hstart
  have hqueue : (play 1024 actions
      ((s.writeRegister 0xA24 0x48486000).2, ⟨smallRing.slots, []⟩)).2 = q := by
    rw [hsystem]
    exact congrArg Prod.snd hplay
  have hroom : q.room 1024 < 1 := by
    rw [← hqueue]
    decide +kernel
  have hrefusal : q.refusal 1024 1 = .overrun 1 0x48486020 := by
    rw [← hqueue]
    decide +kernel
  refine ⟨t, q, ?_, hagrees, ?_, ?_⟩
  · rw [hsystem]
    exact hplay
  · rw [← hqueue]
    decide +kernel
  · rw [(hnext _ (hsuits [10] (by decide))).2 hroom, ← hrefusal]
    rfl

end System

end PacketDma
