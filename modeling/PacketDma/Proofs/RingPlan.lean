/-
**Planning on a list of armed descriptors.**

When the descriptors from the start of a walk on are armed and lead to each other, the plan of the
engine is that of a simple count: descriptors are taken while bytes are missing, as many as one
frame may use.  The walk fails when they run out before the frame is complete, and how it fails is
decided by what lies behind them.

Main definitions:

* `PacketDma.takeSlots` — the descriptors that a frame takes and those that it leaves;
* `PacketDma.Span.plan` — the plan on the descriptors that a frame takes.

Main results:

* `PacketDma.takeSlots_isSome_iff` — **a frame fits exactly when there is room for its bytes**;
* `PacketDma.planFill_of_takeSlots` — a frame that fits is planned on the first descriptors;
* `PacketDma.planFill_of_takeSlots_eq_none` — **how a frame that does not fit fails**.
-/

import PacketDma.Proofs.RingShape

set_option autoImplicit false

namespace PacketDma

/-! ### Counting descriptors -/

/-- Consecutive descriptors of a ring, at least one. -/
structure Span where
  first : RingSlot
  rest : List RingSlot
deriving DecidableEq

/-- The descriptors of a span. -/
def Span.slots (span : Span) : List RingSlot := span.first :: span.rest

/-- The descriptors that `missing` bytes take, at most `budget`, and the descriptors behind them. -/
def takeSlots : (budget : Nat) → List RingSlot → (missing : Nat) → Option (Span × List RingSlot)
  | 0, _, _ => none
  | _ + 1, [], _ => none
  | budget + 1, x :: slots, missing =>
      if missing ≤ x.capacity then some (⟨x, []⟩, slots)
      else
        (takeSlots budget slots (missing - x.capacity)).map fun found =>
          (⟨x, found.1.slots⟩, found.2)

theorem takeSlots_nil (budget missing : Nat) : takeSlots budget [] missing = none := by
  cases budget <;> rfl

/-- Either the first descriptor is enough, or the others take what it leaves. -/
theorem takeSlots_cons_eq_some {budget missing : Nat} {x : RingSlot} {slots left : List RingSlot}
    {span : Span} (h : takeSlots (budget + 1) (x :: slots) missing = some (span, left)) :
    (missing ≤ x.capacity ∧ span = ⟨x, []⟩ ∧ left = slots) ∨
      (x.capacity < missing ∧ ∃ others,
        takeSlots budget slots (missing - x.capacity) = some (others, left) ∧
        span = ⟨x, others.slots⟩) := by
  rw [takeSlots] at h
  split at h
  · next hfits =>
      cases h
      exact Or.inl ⟨hfits, rfl, rfl⟩
  · next hfits =>
      obtain ⟨found, hfound, heq⟩ := Option.map_eq_some_iff.1 h
      cases heq
      exact Or.inr ⟨Nat.lt_of_not_le hfits, found.1, hfound, rfl⟩

theorem takeSlots_cons_eq_none {budget missing : Nat} {x : RingSlot} {slots : List RingSlot} :
    takeSlots (budget + 1) (x :: slots) missing = none ↔
      x.capacity < missing ∧ takeSlots budget slots (missing - x.capacity) = none := by
  rw [takeSlots]
  split
  · next hfits => exact iff_of_false (by simp) fun h => absurd hfits (Nat.not_le.2 h.1)
  · next hfits => simp [Nat.lt_of_not_le hfits]

/-- What is taken and what is left are all descriptors in their order, and no more are taken than
may be. -/
theorem append_of_takeSlots {budget missing : Nat} {slots left : List RingSlot} {span : Span}
    (h : takeSlots budget slots missing = some (span, left)) :
    slots = span.slots ++ left ∧ span.slots.length ≤ budget := by
  induction slots generalizing budget missing span with
  | nil =>
      rw [takeSlots_nil] at h
      cases h
  | cons x rest ih =>
      cases budget with
      | zero => cases h
      | succ budget =>
          rcases takeSlots_cons_eq_some h with ⟨-, rfl, rfl⟩ | ⟨-, others, hothers, rfl⟩
          · exact ⟨rfl, by simp [Span.slots]⟩
          · obtain ⟨happend, hlength⟩ := ih hothers
            refine ⟨?_, Nat.succ_le_succ hlength⟩
            rw [happend]
            rfl

/-- **A frame fits exactly when there is room for its bytes** in the descriptors that it may use. -/
theorem takeSlots_isSome_iff {budget missing : Nat} {slots : List RingSlot} (h : 0 < missing) :
    (takeSlots budget slots missing).isSome ↔
      missing ≤ ((slots.take budget).map (·.capacity)).sum := by
  induction slots generalizing budget missing with
  | nil =>
      rw [takeSlots_nil, List.take_nil]
      exact iff_of_false (by simp) (Nat.not_le.2 h)
  | cons x rest ih =>
      cases budget with
      | zero => exact iff_of_false (by simp [takeSlots]) (Nat.not_le.2 h)
      | succ budget =>
          rw [List.take_succ_cons, List.map_cons, List.sum_cons, takeSlots]
          split
          · next hfits => exact iff_of_true rfl (Nat.le_trans hfits (Nat.le_add_right ..))
          · next hfits =>
              rw [Option.isSome_map, ih (by omega)]
              omega

/-! ### Segments -/

/-- What an armed descriptor takes of a frame. -/
def RingSlot.segment (x : RingSlot) (offset missing : Nat) : Segment :=
  ⟨x.descriptor, offset, min x.capacity missing⟩

/-- What consecutive armed descriptors take of a frame. -/
def segmentsOf : List RingSlot → (offset missing : Nat) → List Segment
  | [], _, _ => []
  | x :: rest, offset, missing =>
      x.segment offset missing ::
        segmentsOf rest (offset + min x.capacity missing) (missing - min x.capacity missing)

/-- The plan of a frame of `length` bytes on the descriptors that it takes. -/
def Span.plan (span : Span) (length : Nat) (next : Option UInt32) : FillPlan where
  first := span.first.segment 0 length
  rest := segmentsOf span.rest (0 + min span.first.capacity length)
    (length - min span.first.capacity length)
  next := next

theorem Span.segments_plan (span : Span) (length : Nat) (next : Option UInt32) :
    (span.plan length next).segments = segmentsOf span.slots 0 length := rfl

theorem map_descriptor_segmentsOf (slots : List RingSlot) (offset missing : Nat) :
    (segmentsOf slots offset missing).map (·.descriptor) = slots.map (·.descriptor) := by
  induction slots generalizing offset missing with
  | nil => rfl
  | cons x rest ih => rw [segmentsOf, List.map_cons, List.map_cons, ih, RingSlot.segment]

theorem map_address_segmentsOf (slots : List RingSlot) (offset missing : Nat) :
    (segmentsOf slots offset missing).map (·.descriptor.address) = slots.map (·.address) := by
  have h := congrArg (List.map ReceiveDescriptor.address)
    (map_descriptor_segmentsOf slots offset missing)
  rw [List.map_map, List.map_map] at h
  exact h

/-- Every segment is what one of the descriptors takes. -/
theorem exists_slot_of_segment {slots : List RingSlot} {offset missing : Nat} {t : Segment}
    (h : t ∈ segmentsOf slots offset missing) :
    ∃ x ∈ slots, t.descriptor = x.descriptor ∧ t.length ≤ x.capacity := by
  induction slots generalizing offset missing with
  | nil => exact absurd h List.not_mem_nil
  | cons x rest ih =>
      rcases List.mem_cons.1 h with rfl | h
      · exact ⟨x, List.mem_cons_self .., rfl, Nat.min_le_left ..⟩
      · obtain ⟨y, hy, hdescriptor, hlength⟩ := ih h
        exact ⟨y, List.mem_cons_of_mem _ hy, hdescriptor, hlength⟩

/-- What holds of any two descriptors holds of their segments. -/
theorem pairwise_segmentsOf {R : ReceiveDescriptor → ReceiveDescriptor → Prop}
    {slots : List RingSlot} (h : slots.Pairwise fun x y => R x.descriptor y.descriptor)
    (offset missing : Nat) :
    (segmentsOf slots offset missing).Pairwise fun t u => R t.descriptor u.descriptor := by
  rw [← List.pairwise_map, map_descriptor_segmentsOf, List.pairwise_map]
  exact h

/-! ### Armed descriptors in descriptor RAM -/

/-- The descriptor RAM holds a descriptor as software has armed it, and its buffer lies inside
memory. -/
structure RingSlot.ReadyIn (x : RingSlot) (ram : Aperture) (memory : Memory) : Prop where
  covered : ram.CoversSlot x.address
  armed : ram.slotAt x.address = x.armed
  inRange : InRange memory.size x.descriptor.dataAddress x.capacity

section Walk

variable {ram : Aperture} {memory : Memory} {head beyond : UInt32} {channel : Nat}
  {slots left : List RingSlot} {span : Span}

theorem RingSlot.ReadyIn.takenAt {x : RingSlot} (h : x.ReadyIn ram memory) (offset missing : Nat) :
    (x.segment offset missing).TakenAt ram memory x.address offset missing where
  covered := h.covered
  descriptor_eq := by
    rw [h.armed]
    rfl
  owned := x.owned
  inRange := Nat.le_trans (Nat.add_le_add_left (Nat.min_le_left ..) _) h.inRange
  offset_eq := rfl
  length_eq := rfl

/-- A frame that fits is placed in the descriptors that it takes, and the next one starts behind
them. -/
theorem fillWalk_of_takeSlots {budget offset missing : Nat}
    (hspan : takeSlots budget slots missing = some (span, left))
    (hready : ∀ x ∈ slots, x.ReadyIn ram memory) (hlinked : LinkedTo head slots beyond) :
    FillWalk ram memory head (entry slots beyond) offset missing
      (segmentsOf span.slots offset missing) (some (entry left beyond)) := by
  induction slots generalizing budget offset missing span with
  | nil =>
      rw [takeSlots_nil] at hspan
      cases hspan
  | cons x rest ih =>
      obtain ⟨hnext, hrest⟩ := hlinked
      have htaken := (hready x (List.mem_cons_self ..)).takenAt offset missing
      cases budget with
      | zero => cases hspan
      | succ budget =>
          rcases takeSlots_cons_eq_some hspan with
            ⟨hfits, rfl, rfl⟩ | ⟨hfits, others, hothers, rfl⟩
          · have hwalk : FillWalk ram memory head x.address offset missing
                [x.segment offset missing] (nextDescriptor x.armed.next head) :=
              .last htaken (Nat.min_eq_right hfits)
            rw [hnext] at hwalk
            exact hwalk
          · have hlength : (x.segment offset missing).length = x.capacity :=
              Nat.min_eq_left (Nat.le_of_lt hfits)
            have hincomplete : (x.segment offset missing).length ≠ missing := by omega
            rw [← hlength] at hothers
            exact .more htaken hincomplete hnext
              (ih hothers (fun y hy => hready y (List.mem_cons_of_mem _ hy)) hrest)

/-- **A frame that fits is planned on the first descriptors.** -/
theorem planFill_of_takeSlots {length limit : Nat}
    (hspan : takeSlots limit slots length = some (span, left))
    (hready : ∀ x ∈ slots, x.ReadyIn ram memory) (hlinked : LinkedTo head slots beyond)
    (hnodup : (slots.map (·.address)).Nodup) :
    planFill ram memory channel (entry slots beyond) head length limit =
      .ok (span.plan length (some (entry left beyond))) := by
  obtain ⟨happend, hlength⟩ := append_of_takeSlots hspan
  refine planFill_eq_ok_iff.2 ⟨fillWalk_of_takeSlots hspan hready hlinked, ?_, ?_⟩
  · have hsame := congrArg List.length (map_descriptor_segmentsOf span.slots 0 length)
    rw [List.length_map, List.length_map] at hsame
    rw [Span.segments_plan, hsame]
    exact hlength
  · rw [Span.segments_plan, map_address_segmentsOf]
    rw [happend, List.map_append] at hnodup
    exact (List.nodup_append.1 hnodup).1

/-- A walk over descriptors without enough room fails as it fails behind them, unless the frame may
not use so many. -/
theorem planFrom_of_takeSlots_eq_none {budget offset missing : Nat} {visited : List UInt32}
    {fault : DmaFault} (hspan : takeSlots budget slots missing = none)
    (hready : ∀ x ∈ slots, x.ReadyIn ram memory) (hlinked : LinkedTo head slots beyond)
    (hnodup : (slots.map (·.address)).Nodup) (hfresh : ∀ x ∈ slots, x.address ∉ visited)
    (hbeyond : ∀ budget offset missing, planFrom ram memory channel head (budget + 1)
      ((slots.map (·.address)).reverse ++ visited) beyond offset missing = .error fault) :
    planFrom ram memory channel head budget visited (entry slots beyond) offset missing =
      .error (if slots.length < budget then fault else .ringExhausted channel) := by
  induction slots generalizing budget offset missing visited with
  | nil =>
      cases budget with
      | zero => rfl
      | succ budget => exact hbeyond ..
  | cons x rest ih =>
      cases budget with
      | zero => rfl
      | succ budget =>
          obtain ⟨hnext, hrest⟩ := hlinked
          obtain ⟨hfits, hothers⟩ := takeSlots_cons_eq_none.1 hspan
          rw [List.map_cons, List.nodup_cons] at hnodup
          obtain ⟨hnew, hnodup⟩ := hnodup
          -- the first descriptor is filled, and is one of the visited ones from now on
          have htaken := (hready x (List.mem_cons_self ..)).takenAt offset missing
          have hlength : (x.segment offset missing).length = x.capacity :=
            Nat.min_eq_left (Nat.le_of_lt hfits)
          rw [entry_cons,
            planFrom_of_more (hfresh x (List.mem_cons_self ..)) htaken (by omega) hnext, hlength,
            ih hothers (fun y hy => hready y (List.mem_cons_of_mem _ hy)) hrest hnodup]
          · simp only [List.length_cons, Nat.add_lt_add_iff_right]
            rfl
          · intro y hy hmem
            rcases List.mem_cons.1 hmem with heq | hmem
            · exact hnew (heq ▸ List.mem_map_of_mem hy)
            · exact hfresh y (List.mem_cons_of_mem _ hy) hmem
          · intro budget offset missing
            rw [← hbeyond budget offset missing]
            simp

/-- **How a frame that does not fit fails**: as the walk fails behind the armed descriptors, unless
the frame may not use so many. -/
theorem planFill_of_takeSlots_eq_none {length limit : Nat} {fault : DmaFault}
    (hspan : takeSlots limit slots length = none)
    (hready : ∀ x ∈ slots, x.ReadyIn ram memory) (hlinked : LinkedTo head slots beyond)
    (hnodup : (slots.map (·.address)).Nodup)
    (hbeyond : ∀ budget offset missing, planFrom ram memory channel head (budget + 1)
      (slots.map (·.address)).reverse beyond offset missing = .error fault) :
    planFill ram memory channel (entry slots beyond) head length limit =
      .error (if slots.length < limit then fault else .ringExhausted channel) := by
  refine planFrom_of_takeSlots_eq_none hspan hready hlinked hnodup (fun x _ => ?_) ?_
  · exact List.not_mem_nil
  · rw [List.append_nil]
    exact hbeyond

end Walk

end PacketDma
