/-
**A ring as a queue of frames.**

Software and the engine share a ring: the engine puts frames into the descriptors that are armed,
and software arms the descriptors of the oldest frame again.  Seen from a distance the ring is a
queue with room for a bounded number of bytes.  The queue knows nothing of the engine; a frame of it
lies in its descriptors as long as nobody writes to them or to their buffers.

Main definitions:

* `PacketDma.RingQueue` — the armed descriptors of a ring, and the frames in the others;
* `PacketDma.RingQueue.after` — what an action does to the queue;
* `PacketDma.RingQueue.refusal` — how a frame that does not fit fails;
* `PacketDma.RingQueue.operations` — the same action as operations of a system;
* `PacketDma.Delivery.HeldIn` — software finds a frame in its descriptors.

Main results:

* `PacketDma.Delivery.HeldIn.congr` — a frame is found as long as its descriptors and buffers are
  left alone;
* `PacketDma.System.Placed.heldIn` — a frame that has been placed is found;
* `PacketDma.System.exists_run_rearm` — what arming descriptors again does.
-/

import PacketDma.Engine.Operation
import PacketDma.Proofs.RingPlan

set_option autoImplicit false

namespace PacketDma

/-- A frame and the descriptors that it has been put into. -/
structure Delivery where
  frame : InboundFrame
  span : Span
deriving DecidableEq

/-- A ring seen as a queue. -/
structure RingQueue where
  /-- The armed descriptors, from the one at which the next frame starts on. -/
  free : List RingSlot
  /-- The frames that software has not handed back, oldest first. -/
  outstanding : List Delivery
deriving DecidableEq

/-- What happens to a ring. -/
inductive RingAction where
  /-- A frame arrives from the network. -/
  | arrive (frame : InboundFrame)
  /-- Software arms the descriptors of the oldest frame again. -/
  | handBack
deriving DecidableEq

/-- Software writes the last two words of a descriptor as it armed them. -/
def RingSlot.rearm (x : RingSlot) : Operation :=
  .writeRam (x.address.toUInt64 + 8) [x.armed.extent, x.armed.status]

namespace RingQueue

/-- The descriptors of the outstanding frames, in the order of the frames. -/
def arc (q : RingQueue) : List RingSlot := q.outstanding.flatMap (·.span.slots)

/-- All descriptors, from the one at which the next frame starts on. -/
def slots (q : RingQueue) : List RingSlot := q.free ++ q.arc

/-- The number of bytes that the next frame has room for when it may use `limit` descriptors. -/
def room (limit : Nat) (q : RingQueue) : Nat := ((q.free.take limit).map (·.capacity)).sum

/-- The queue after an action.  A frame that does not fit is not taken. -/
def after (limit : Nat) (q : RingQueue) : RingAction → RingQueue
  | .arrive frame =>
      match takeSlots limit q.free frame.bytes.length with
      | none => q
      | some (span, left) => ⟨left, q.outstanding ++ [⟨frame, span⟩]⟩
  | .handBack =>
      match q.outstanding with
      | [] => q
      | oldest :: later => ⟨q.free ++ oldest.span.slots, later⟩

theorem mem_arc {q : RingQueue} {d : Delivery} (hd : d ∈ q.outstanding) {x : RingSlot}
    (hx : x ∈ d.span.slots) : x ∈ q.arc :=
  List.mem_flatMap.2 ⟨d, hd, hx⟩

/-- The descriptors that a frame takes are the first ones of the queue. -/
theorem slots_of_takeSlots {limit missing : Nat} {q : RingQueue} {span : Span}
    {left : List RingSlot} (h : takeSlots limit q.free missing = some (span, left)) :
    q.slots = span.slots ++ (left ++ q.arc) := by
  rw [slots, (append_of_takeSlots h).1, List.append_assoc]

/-- The descriptors of a new frame are the last ones of the queue. -/
theorem slots_concat (q : RingQueue) (left : List RingSlot) (d : Delivery) :
    (mk left (q.outstanding ++ [d])).slots = left ++ q.arc ++ d.span.slots := by
  simp [slots, arc]

/-- A frame that is handed back leaves the order of the descriptors as it is. -/
theorem slots_handBack {q : RingQueue} {oldest : Delivery} {later : List Delivery}
    (h : q.outstanding = oldest :: later) :
    (mk (q.free ++ oldest.span.slots) later).slots = q.slots := by
  rw [slots, slots, arc, arc, h, List.flatMap_cons, ← List.append_assoc]

theorem after_of_takeSlots {limit : Nat} {q : RingQueue} {frame : InboundFrame} {span : Span}
    {left : List RingSlot} (h : takeSlots limit q.free frame.bytes.length = some (span, left)) :
    q.after limit (.arrive frame) = ⟨left, q.outstanding ++ [⟨frame, span⟩]⟩ := by
  rw [after, h]

/-- How a frame that does not fit fails: it comes upon the oldest frame, or it may not use so many
descriptors, or all descriptors together are too small. -/
def refusal (limit channel : Nat) (q : RingQueue) : DmaFault :=
  match q.outstanding with
  | [] => .ringExhausted channel
  | oldest :: _ =>
      if q.free.length < limit then .overrun channel oldest.span.first.address
      else .ringExhausted channel

/-- An action as operations of a system. -/
def operations (q : RingQueue) : RingAction → List Operation
  | .arrive frame => [.receive frame]
  | .handBack =>
      match q.outstanding with
      | [] => []
      | oldest :: _ => oldest.span.slots.map RingSlot.rearm

end RingQueue

/-- A system and a queue after a sequence of actions. -/
def System.play (limit : Nat) : List RingAction → System × RingQueue → System × RingQueue
  | [], (s, q) => (s, q)
  | action :: rest, (s, q) =>
      play limit rest ((s.run (q.operations action)).2, q.after limit action)

/-! ### Frames in their descriptors -/

/-- The bytes that the buffer of a descriptor holds. -/
def ReceiveDescriptor.contents (d : ReceiveDescriptor) (memory : Memory) : List UInt8 :=
  memory.bytes d.dataAddress d.bufferLength.toNat

namespace Delivery

/-- What the engine reports of a frame. -/
def report (d : Delivery) : List ReceiveDescriptor :=
  (d.span.plan d.frame.bytes.length none).report d.frame

/-- Software finds the frame: the descriptors are those that the engine has reported, and their
buffers hold the bytes of the frame. -/
structure HeldIn (d : Delivery) (ram : Aperture) (memory : Memory) : Prop where
  descriptors : d.span.slots.map (ram.descriptorAt ·.address) = d.report
  data : (d.span.slots.flatMap fun x => (ram.descriptorAt x.address).contents memory) =
    d.frame.bytes

/-- A reported descriptor says how much of the buffer of an armed one is used. -/
theorem exists_slot_of_report {d : Delivery} {r : ReceiveDescriptor} (h : r ∈ d.report) :
    ∃ x ∈ d.span.slots, r.dataAddress = x.descriptor.dataAddress ∧
      r.bufferLength.toNat ≤ x.capacity := by
  obtain ⟨t, ht, isLast, hr⟩ := FillPlan.exists_segment _ _ h
  rw [Span.segments_plan] at ht
  obtain ⟨x, hx, hdescriptor, hlength⟩ := exists_slot_of_segment ht
  obtain ⟨hdata, hbuffer⟩ := t.extent_filled isLast
  -- a length that did not fit its field could only become smaller
  have hle : (UInt16.ofNat t.length).toNat ≤ x.capacity := by
    rw [UInt16.toNat_ofNat']
    exact Nat.le_trans (Nat.mod_le ..) hlength
  refine ⟨x, hx, ?_⟩
  rw [← hdescriptor, ← hdata]
  rcases hr with rfl | rfl
  · exact ⟨rfl, hbuffer ▸ hle⟩
  · refine ⟨rfl, ?_⟩
    show (t.filled isLast).bufferLength.toNat ≤ x.capacity
    exact hbuffer ▸ hle

variable {d : Delivery} {ram other : Aperture} {memory memory' : Memory}

/-- **A frame is found as long as its descriptors and buffers are left alone.** -/
theorem HeldIn.congr (h : d.HeldIn ram memory)
    (hslots : ∀ x ∈ d.span.slots, other.slotAt x.address = ram.slotAt x.address)
    (hbytes : ∀ x ∈ d.span.slots, ∀ i, x.descriptor.InBuffer i →
      memory'.byteAt i = memory.byteAt i) : d.HeldIn other memory' := by
  have hsame : ∀ x ∈ d.span.slots, other.descriptorAt x.address = ram.descriptorAt x.address := by
    intro x hx
    rw [Aperture.descriptorAt, hslots x hx, Aperture.descriptorAt]
  refine ⟨?_, ?_⟩
  · rw [← h.descriptors]
    exact List.map_congr_left hsame
  · rw [← h.data, List.flatMap_def, List.flatMap_def]
    refine congrArg List.flatten (List.map_congr_left fun x hx => ?_)
    have hmem : ram.descriptorAt x.address ∈ d.report := by
      rw [← h.descriptors]
      exact List.mem_map_of_mem (f := fun y : RingSlot => ram.descriptorAt y.address) hx
    -- what the engine has reported lies inside the buffer that software has given it
    obtain ⟨y, hy, hdata, hlength⟩ := exists_slot_of_report hmem
    rw [hsame x hx]
    refine Memory.bytes_congr fun i hstart hend => hbytes y hy i ⟨?_, ?_⟩
    · rw [← hdata]
      exact hstart
    · rw [← hdata]
      exact Nat.lt_of_lt_of_le hend (Nat.add_le_add_left hlength _)

/-- The first descriptor of a frame belongs to software. -/
theorem HeldIn.not_owned_first (h : d.HeldIn ram memory) :
    (ram.descriptorAt d.span.first.address).isOwned = false := by
  have hfirst := congrArg List.head? h.descriptors
  have hreported := Option.some.inj hfirst
  dsimp only at hreported
  rw [hreported]
  exact ReceiveDescriptor.isOwned_announce ..

theorem isOwned_of_fillReports {slots : List RingSlot} {offset missing : Nat}
    {r : ReceiveDescriptor} (h : r ∈ fillReports (segmentsOf slots offset missing)) :
    r.isOwned = true := by
  induction slots generalizing offset missing with
  | nil => exact absurd h List.not_mem_nil
  | cons x rest ih =>
      rcases List.mem_cons.1 h with rfl | h
      · rw [ReceiveDescriptor.isOwned_filled]
        exact x.owned
      · exact ih h

/-- The other descriptors of a frame still belong to the engine. -/
theorem HeldIn.owned_rest (h : d.HeldIn ram memory) :
    ∀ x ∈ d.span.rest, (ram.descriptorAt x.address).isOwned = true := by
  intro x hx
  have hrest := congrArg List.tail h.descriptors
  refine isOwned_of_fillReports (?_ : _ ∈ d.report.tail)
  rw [← hrest]
  exact List.mem_map_of_mem (f := fun y : RingSlot => ram.descriptorAt y.address) hx

end Delivery

/-! ### Frames that have just been placed -/

namespace System

variable {s : System} {d : Delivery} {next : Option UInt32} {memory : Memory} {ram : Aperture}

/-- **A frame that has been placed is found.** -/
theorem Placed.heldIn
    (h : s.Placed d.frame (d.span.plan d.frame.bytes.length next) memory ram)
    {channel : ChannelId}
    (hplan : s.engine.plan s.memory channel d.frame.bytes.length =
      .ok (d.span.plan d.frame.bytes.length next))
    (hlength : d.frame.bytes.length ≤ maxPacketLength)
    (hslots : d.span.slots.Pairwise fun x y => SlotsDisjoint x.address y.address)
    (hbuffers : d.span.slots.Pairwise fun x y => x.descriptor.BuffersDisjoint y.descriptor) :
    d.HeldIn ram memory := by
  have hreport : (d.span.plan d.frame.bytes.length next).report d.frame = d.report := rfl
  have haddress : d.report.map (·.address) = d.span.slots.map (·.address) := by
    rw [← hreport, FillPlan.address_report, Span.segments_plan, map_address_segmentsOf]
  have hdescriptors : d.span.slots.map (ram.descriptorAt ·.address) = d.report := by
    have hcompose := congrArg (List.map ram.descriptorAt) haddress
    rw [List.map_map, List.map_map] at hcompose
    refine hcompose.symm.trans ?_
    refine (List.map_congr_left fun r hr => ?_).trans (List.map_id _)
    exact h.ofSlot_of_report hplan hlength
      (pairwise_segmentsOf (R := fun d e => SlotsDisjoint d.address e.address) hslots ..) hr
  refine ⟨hdescriptors, ?_⟩
  have hbytes := h.flatMap_bytes hplan (pairwise_segmentsOf hbuffers ..)
  rw [← FillPlan.flatMap_report _ d.frame _ fun t ht => ?_, hreport, ← hdescriptors,
    List.flatMap_map] at hbytes
  · exact hbytes
  · obtain ⟨o, m, htaken⟩ := (walk_of_plan hplan).exists_takenAt t ht
    have hcanonical : t.descriptor.Canonical := by
      rw [htaken.descriptor_eq]
      exact ReceiveDescriptor.canonical_ofSlot ..
    exact Nat.le_trans htaken.length_le_buffer hcanonical.toNat_bufferLength_le

variable {frame : InboundFrame} {span : Span} {length : Nat} {x : RingSlot}

/-- A placed frame leaves the descriptors alone that it has not taken. -/
theorem Placed.slotAt_of_apart (h : s.Placed frame (span.plan length next) memory ram)
    (hx : ∀ y ∈ span.slots, SlotsDisjoint y.address x.address) :
    ram.slotAt x.address = s.engine.ram.slotAt x.address := by
  refine h.reports.slotAt_of_apart ?_
  rintro i ⟨t, ht, hin⟩
  rw [Span.segments_plan] at ht
  obtain ⟨y, hy, hdescriptor, -⟩ := exists_slot_of_segment ht
  rw [hdescriptor, RingSlot.address_descriptor] at hin
  exact ⟨y.address, hx y hy, hin.inSlot⟩

/-- A placed frame leaves the buffers alone that it has not taken. -/
theorem Placed.byteAt_of_apart (h : s.Placed frame (span.plan length next) memory ram)
    (hx : ∀ y ∈ span.slots, y.descriptor.BuffersDisjoint x.descriptor) {i : Nat}
    (hi : x.descriptor.InBuffer i) : memory.byteAt i = s.memory.byteAt i := by
  refine h.elsewhere i fun t ht htouch => ?_
  rw [Span.segments_plan] at ht
  obtain ⟨y, hy, hdescriptor, hle⟩ := exists_slot_of_segment ht
  rw [Segment.Touches, hdescriptor] at htouch
  exact hx y hy i ⟨htouch.1, Nat.lt_of_lt_of_le htouch.2 (Nat.add_le_add_left hle _)⟩ hi

/-- A frame is still found after another one has been placed apart from it. -/
theorem Placed.heldIn_of_apart (h : s.Placed frame (span.plan length next) memory ram)
    (hheld : d.HeldIn s.engine.ram s.memory)
    (hslots : ∀ y ∈ span.slots, ∀ x ∈ d.span.slots, SlotsDisjoint y.address x.address)
    (hbuffers : ∀ y ∈ span.slots, ∀ x ∈ d.span.slots,
      y.descriptor.BuffersDisjoint x.descriptor) : d.HeldIn ram memory := by
  refine hheld.congr (fun x hx => ?_) fun x hx i hi => ?_
  · exact h.slotAt_of_apart fun y hy => hslots y hy x hx
  · exact h.byteAt_of_apart (fun y hy => hbuffers y hy x hx) hi

end System

/-! ### Descriptors that are armed again -/

/-- Software arms a descriptor again. -/
def RingSlot.rearmIn (x : RingSlot) (ram : Aperture) : Except DmaFault Aperture :=
  .ok (ram.writeWords (x.address.toUInt64 + 8) [x.armed.extent, x.armed.status]).1

theorem RingSlot.exists_rearmIn {x : RingSlot} {ram : Aperture} (h : ram.CoversSlot x.address) :
    ∃ written, x.rearmIn ram = .ok written ∧ ram.EqOff written (InReport x.address) ∧
      written.slotAt x.address =
        { ram.slotAt x.address with extent := x.armed.extent, status := x.armed.status } := by
  obtain ⟨written, hwrite, heq, hslot⟩ :=
    Aperture.exists_writeWords_report x.armed.extent x.armed.status h
  refine ⟨written, ?_, heq, hslot⟩
  rw [rearmIn, hwrite]

theorem System.run_rearm (s : System) (slots : List RingSlot) :
    (s.run (slots.map RingSlot.rearm)).2 =
      s.mapEngine ({ · with ram := (applyEach RingSlot.rearmIn slots s.engine.ram).2 }) := by
  induction slots generalizing s with
  | nil => rfl
  | cons x rest ih =>
      rw [List.map_cons, run_cons, applyEach_cons_ok (rfl : x.rearmIn s.engine.ram = .ok _)]
      exact ih _

/-- **Descriptors can be armed again**: their last two words are written and nothing else. -/
theorem System.exists_run_rearm (s : System) (slots : List RingSlot)
    (hcovers : ∀ x ∈ slots, s.engine.ram.CoversSlot x.address) :
    ∃ ram, (s.run (slots.map RingSlot.rearm)).2 = s.mapEngine ({ · with ram }) ∧
      s.engine.ram.EqOff ram (fun i => ∃ x ∈ slots, InReport x.address i) ∧
      (slots.Pairwise (fun x y => SlotsDisjoint x.address y.address) → ∀ x ∈ slots,
        ram.slotAt x.address = { s.engine.ram.slotAt x.address with
          extent := x.armed.extent, status := x.armed.status }) := by
  obtain ⟨ram, happly, heq, hslots⟩ := exists_applyEach_slots RingSlot.address InReport
    (fun x old => { old with extent := x.armed.extent, status := x.armed.status })
    (fun _ _ => InReport.inSlot)
    (fun _ _ h => RingSlot.exists_rearmIn h) slots s.engine.ram hcovers
  refine ⟨ram, ?_, heq, hslots⟩
  rw [run_rearm, happly]

end PacketDma
