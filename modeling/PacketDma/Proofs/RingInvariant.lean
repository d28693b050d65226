/-
**The invariant of a receive ring.**

The engine finds out whether it may use a descriptor by its owner bit, but of the descriptors of a
frame only the first passes to software.  That this is enough is due to the order of the ring: the
descriptors of the outstanding frames lie behind each other, and the engine can come upon them only
at the first descriptor of the oldest frame.

Main definitions:

* `PacketDma.Ring.LaidIn` — a ring as far as neither the engine nor software ever changes it;
* `PacketDma.RingQueue.Agrees` — **the invariant**: a system holds what the queue says;
* `PacketDma.System.Listens` — nothing has changed in how frames are received.

Main results:

* `PacketDma.System.Listens.receive_eq_fill` — with no frame waiting, a frame is placed at once;
* `PacketDma.RingQueue.Agrees.planned`, `PacketDma.RingQueue.Agrees.refused` — **the engine plans a
  frame as the queue does**.
-/

import PacketDma.Proofs.ReceiveRules
import PacketDma.Proofs.RingQueue

set_option autoImplicit false

namespace PacketDma

/-! ### What never changes -/

/-- Two different descriptors of a ring do not share a byte. -/
theorem Ring.slotsDisjoint (ring : Ring) {x y : RingSlot} (hx : x ∈ ring.slots)
    (hy : y ∈ ring.slots) (hne : x ≠ y) : SlotsDisjoint x.address y.address := by
  have hsymm : Std.Symm fun x y : RingSlot => SlotsDisjoint x.address y.address :=
    ⟨fun _ _ h => h.symm⟩
  exact ring.slotsApart.forall hx hy hne

/-- The descriptor RAM and memory have room for a ring, and the first two words of its descriptors
are those that software has written. -/
structure Ring.LaidIn (ring : Ring) (ram : Aperture) (memory : Memory) : Prop where
  covered : ∀ x ∈ ring.slots, ram.CoversSlot x.address
  inRange : ∀ x ∈ ring.slots, InRange memory.size x.descriptor.dataAddress x.capacity
  pointers : ∀ x ∈ ring.slots, (ram.slotAt x.address).next = x.armed.next ∧
    (ram.slotAt x.address).buffer = x.armed.buffer

namespace Ring.LaidIn

variable {ring : Ring} {ram other : Aperture} {memory memory' : Memory}

/-- Reports to descriptors of a ring leave the ring as it has been laid. -/
theorem of_eqOff {touched : Nat → Prop} (h : ring.LaidIn ram memory) (heq : ram.EqOff other touched)
    (htouched : ∀ i, touched i → ∃ y ∈ ring.slots, InReport y.address i)
    (hsize : memory'.size = memory.size) : ring.LaidIn other memory' := by
  refine ⟨?_, ?_, ?_⟩
  · intro x hx
    exact heq.covers_iff.2 (h.covered x hx)
  · intro x hx
    rw [hsize]
    exact h.inRange x hx
  · intro x hx
    have hbehind : ∀ k, k < 8 → ¬ touched (x.address.toNat + k) := by
      intro k hk hin
      obtain ⟨y, hy, hreport⟩ := htouched _ hin
      -- a report lies behind these words in its own slot, and in no other slot at all
      by_cases hsame : x = y
      · subst hsame
        exact absurd hreport.1 (by omega)
      · have hlength : Slot.length = 16 := rfl
        exact (ring.slotsDisjoint hx hy hsame).symm.not_inSlot hreport.inSlot
          ⟨by omega, by omega⟩
    obtain ⟨hnext, hbuffer⟩ := heq.pointers_eq hbehind
    rw [hnext, hbuffer]
    exact h.pointers x hx

/-- A frame that is placed in descriptors of a ring leaves the ring as it has been laid. -/
theorem of_placed {s : System} {frame : InboundFrame} {span : Span} {length : Nat}
    {next : Option UInt32} (h : ring.LaidIn s.engine.ram s.memory)
    (hplaced : s.Placed frame (span.plan length next) memory ram)
    (hspan : ∀ x ∈ span.slots, x ∈ ring.slots) : ring.LaidIn ram memory := by
  refine h.of_eqOff hplaced.reports ?_ hplaced.size
  rintro i ⟨t, ht, hin⟩
  rw [Span.segments_plan] at ht
  obtain ⟨x, hx, hdescriptor, -⟩ := exists_slot_of_segment ht
  rw [hdescriptor] at hin
  exact ⟨x, hspan x hx, hin⟩

/-- A descriptor whose last two words have been written as software armed them is armed. -/
theorem slotAt_of_rearmed (h : ring.LaidIn ram memory) {x : RingSlot} (hx : x ∈ ring.slots)
    (hslot : other.slotAt x.address =
      { ram.slotAt x.address with extent := x.armed.extent, status := x.armed.status }) :
    other.slotAt x.address = x.armed := by
  obtain ⟨hnext, hbuffer⟩ := h.pointers x hx
  rw [hslot]
  show Slot.mk (ram.slotAt x.address).next (ram.slotAt x.address).buffer _ _ = _
  rw [hnext, hbuffer]

end Ring.LaidIn

/-- `s` receives frames by the same rules as `base`, receive is enabled, and no frame waits. -/
structure System.Listens (base s : System) : Prop where
  settings : s.engine.settings = base.engine.settings
  registers : ∀ index, index ≠ .interruptStatus → index ≠ .dmaStatus →
    s.engine.registers.get index = base.engine.registers.get index
  enabled : s.engine.receiveEnabled = true
  accepting : s.engine.intake.accepting = true
  waiting : s.engine.intake.frames = []

/-- A frame that a descriptor can describe and that goes to the given channel. -/
structure InboundFrame.Suits (frame : InboundFrame) (e : Engine) (channel : ChannelId) : Prop where
  positive : 0 < frame.bytes.length
  bounded : frame.bytes.length ≤ maxPacketLength
  channel_eq : e.channelOf frame = channel

namespace System.Listens

variable {base s : System} {frame : InboundFrame} {channel : ChannelId}

theorem channelOf_eq (h : base.Listens s) (frame : InboundFrame) :
    s.engine.channelOf frame = base.engine.channelOf frame :=
  Engine.channelOf_congr h.settings (h.registers .timestampTypes (by decide) (by decide)) frame

/-- Placing a frame changes nothing in how frames are received. -/
theorem fill (h : base.Listens s) (frame : InboundFrame) : base.Listens (s.fill frame).2 := by
  have hrules := sameRules_fill s frame
  refine ⟨hrules.settings.trans h.settings, ?_, ?_, ?_, ?_⟩
  · intro index hinterrupt hstatus
    rw [hrules.registers index hinterrupt hstatus, h.registers index hinterrupt hstatus]
  · rw [hrules.receiveEnabled_eq]
    exact h.enabled
  · rw [hrules.accepting]
    exact h.accepting
  · rw [intake_fill]
    exact h.waiting

/-- With no frame waiting, a frame that arrives is placed at once. -/
theorem receive_eq_fill (h : base.Listens s) (hsuits : frame.Suits base.engine channel)
    (hhead : (s.engine.channels.receiveChannel channel).head ≠ 0) :
    s.receive frame = s.fill frame := by
  have hdrain : s.drain = (none, s) := by
    rw [drain_of_enabled h.enabled, h.waiting, drainFrames_nil]
  have hpending : 0 < s.engine.settings.pendingLimit :=
    ((Settings.firstFault_eq_none_iff _).1 s.engine.settings.noFault).2.1.2.1
  have haccepted : s.engine.intake.refusal? s.engine.settings.pendingLimit frame = none := by
    refine (Intake.refusal?_eq_none_iff ..).2 ⟨h.accepting, hsuits.positive, hsuits.bounded, ?_⟩
    rw [h.waiting]
    exact hpending
  have hready : s.engine.ready frame = true := by
    rw [Engine.ready, h.channelOf_eq, hsuits.channel_eq]
    simpa using hhead
  rw [receive_of_drained haccepted h.enabled (by rw [hdrain]; exact h.waiting)
    (by rw [hdrain]; exact hready), hdrain]
  rfl

end System.Listens

/-! ### The invariant -/

namespace RingQueue

/-- The system holds what the queue says: the armed descriptors and those of the outstanding frames
are the ring, cut at the descriptor at which the engine will place the next frame; the former are
armed, and the latter hold their frames. -/
structure Agrees (q : RingQueue) (ring : Ring) (channel : ChannelId) (s : System) : Prop where
  rotated : ring.slots ~r q.slots
  head : (s.engine.channels.receiveChannel channel).head = ring.first.address
  cursor : (s.engine.channels.receiveChannel channel).cursor = some (entry q.slots 0)
  laid : ring.LaidIn s.engine.ram s.memory
  armed : ∀ x ∈ q.free, s.engine.ram.slotAt x.address = x.armed
  held : ∀ d ∈ q.outstanding, d.HeldIn s.engine.ram s.memory

/-- The address behind the armed descriptors. -/
def beyond (q : RingQueue) : UInt32 := entry q.arc (entry q.slots 0)

namespace Agrees

variable {q : RingQueue} {ring : Ring} {channel : ChannelId} {s : System}

theorem mem_iff (h : q.Agrees ring channel s) {x : RingSlot} : x ∈ ring.slots ↔ x ∈ q.slots :=
  h.rotated.mem_iff

theorem head_ne_zero (h : q.Agrees ring channel s) :
    (s.engine.channels.receiveChannel channel).head ≠ 0 := by
  rw [h.head]
  exact ring.first.nonzero

theorem slots_ne_nil (h : q.Agrees ring channel s) : q.slots ≠ [] := by
  intro hnil
  have hfirst := h.mem_iff.1 (List.mem_cons_self (a := ring.first) (l := ring.rest))
  rw [hnil] at hfirst
  exact absurd hfirst List.not_mem_nil

theorem nodup (h : q.Agrees ring channel s) : (q.slots.map (·.address)).Nodup := by
  rw [List.Nodup, List.pairwise_map]
  exact (Ring.slotsApart_of_isRotated h.rotated).imp fun hdisjoint => hdisjoint.ne

theorem readyIn (h : q.Agrees ring channel s) {x : RingSlot} (hx : x ∈ q.free) :
    x.ReadyIn s.engine.ram s.memory := by
  have hmem := h.mem_iff.2 (List.mem_append_left _ hx)
  exact ⟨h.laid.covered x hmem, h.armed x hx, h.laid.inRange x hmem⟩

/-- The armed descriptors lead to what lies behind them. -/
theorem linkedTo (h : q.Agrees ring channel s) :
    LinkedTo ring.first.address q.free q.beyond :=
  (linkedTo_append.1 (ring.circular.of_isRotated h.rotated)).1

/-- The next frame starts at the armed descriptors. -/
theorem start_eq (h : q.Agrees ring channel s) :
    (s.engine.channels.receiveChannel channel).start = entry q.free q.beyond := by
  have hentry : entry q.slots 0 = entry q.slots (entry q.slots 0) := by
    obtain ⟨x, rest, hslots⟩ := List.exists_cons_of_ne_nil h.slots_ne_nil
    rw [hslots, entry_cons, entry_cons]
  rw [ReceiveChannel.start, h.cursor, Option.getD_some, hentry]
  exact entry_append ..

/-- **A frame that fits is planned on the first armed descriptors.** -/
theorem planned (h : q.Agrees ring channel s) {length : Nat} {span : Span} {left : List RingSlot}
    (hspan : takeSlots s.engine.settings.walkLimit q.free length = some (span, left)) :
    s.engine.plan s.memory channel length =
      .ok (span.plan length (some (entry left q.beyond))) := by
  have hnodup := h.nodup
  rw [slots, List.map_append] at hnodup
  rw [Engine.plan, h.start_eq, h.head]
  exact planFill_of_takeSlots hspan (fun x hx => h.readyIn hx) h.linkedTo
    (List.nodup_append.1 hnodup).1

/-- The walk fails behind the armed descriptors: it comes upon the oldest frame, or back to where it
has started. -/
theorem planFrom_beyond (h : q.Agrees ring channel s) (budget offset missing : Nat) :
    planFrom s.engine.ram s.memory channel ring.first.address (budget + 1)
        (q.free.map (·.address)).reverse q.beyond offset missing =
      .error (match q.outstanding with
        | [] => .ringExhausted channel
        | oldest :: _ => .overrun channel oldest.span.first.address) := by
  cases houtstanding : q.outstanding with
  | nil =>
      -- every descriptor is armed, and the walk is back where it has started
      have harc : q.arc = [] := by rw [arc, houtstanding, List.flatMap_nil]
      have hslots : q.slots = q.free := by rw [slots, harc, List.append_nil]
      obtain ⟨x, rest, hfree⟩ := List.exists_cons_of_ne_nil h.slots_ne_nil
      have hbeyond : q.beyond = x.address := by rw [beyond, harc, hfree, entry_nil, entry_cons]
      rw [hslots] at hfree
      rw [hbeyond, planFrom, if_pos]
      rw [hfree]
      simp
  | cons oldest later =>
      -- the walk comes upon the one descriptor of the oldest frame that belongs to software
      have hmem : oldest ∈ q.outstanding := by
        rw [houtstanding]
        exact List.mem_cons_self ..
      have hfirst : oldest.span.first ∈ q.arc := mem_arc hmem (List.mem_cons_self ..)
      have hbeyond : q.beyond = oldest.span.first.address := by
        rw [beyond, arc, houtstanding, List.flatMap_cons]
        rfl
      have hfresh : oldest.span.first.address ∉ (q.free.map (·.address)).reverse := by
        have hnodup := h.nodup
        rw [slots, List.map_append] at hnodup
        intro hin
        exact (List.nodup_append.1 hnodup).2.2 _ (List.mem_reverse.1 hin) _
          (List.mem_map_of_mem hfirst) rfl
      rw [hbeyond]
      refine planFrom_of_fault hfresh (segmentAt_of_not_owned ?_ (h.held _ hmem).not_owned_first)
      exact h.laid.covered _ (h.mem_iff.2 (List.mem_append_right _ hfirst))

/-- **How a frame that does not fit is refused.** -/
theorem refused (h : q.Agrees ring channel s) {length : Nat}
    (hspan : takeSlots s.engine.settings.walkLimit q.free length = none) :
    s.engine.plan s.memory channel length =
      .error (q.refusal s.engine.settings.walkLimit channel) := by
  have hnodup := h.nodup
  rw [slots, List.map_append] at hnodup
  rw [Engine.plan, h.start_eq, h.head, planFill_of_takeSlots_eq_none hspan
    (fun x hx => h.readyIn hx) h.linkedTo (List.nodup_append.1 hnodup).1 h.planFrom_beyond, refusal]
  cases q.outstanding with
  | nil => exact congrArg Except.error (ite_self _)
  | cons oldest later => rfl

end Agrees

end RingQueue

end PacketDma
