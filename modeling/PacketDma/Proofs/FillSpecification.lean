/-
**The declarative reading of a fill plan.**

The addresses that a walk over a receive ring meets are a sequence of their own: it starts at the
start, and each address is the next pointer of the descriptor before, or the head where that pointer
is zero.  Along this sequence the descriptors take a frame piece by piece, and at each of them one
thing at most stands in the way.  A plan exists exactly when the frame is complete before anything
stands in the way, and it consists of the descriptors up to there; without a plan the fault is the
first obstacle of the sequence.

Main definitions:

* `PacketDma.FillTask` — everything that a plan depends on;
* `PacketDma.FillTask.address`, `PacketDma.FillTask.taken` — the walk as a sequence;
* `PacketDma.FillTask.obstacle?` — what stands in the way at a descriptor;
* `PacketDma.FillTask.Completes`, `PacketDma.FillTask.FailsAt` — where a walk ends, read off the
  sequence alone;
* `PacketDma.FillTask.Tiles` — the segments of a plan cut the frame into consecutive pieces.

Main results:

* `PacketDma.FillTask.planFrom_stops` — the walk follows the sequence up to where it stops;
* `PacketDma.FillTask.planFill_meets_specification` — **planning is its declarative specification**.
-/

import PacketDma.Proofs.FillEffect
import PacketDma.Proofs.WalkSequence

set_option autoImplicit false

namespace PacketDma

/-- Everything that a plan depends on. -/
structure FillTask where
  ram : Aperture
  memory : Memory
  channel : Nat
  start : UInt32
  head : UInt32
  /-- The number of bytes of the frame. -/
  length : Nat
  /-- The number of descriptors that a walk may use. -/
  limit : Nat

namespace FillTask

/-- The address of the `i`-th descriptor from the start on, as long as there is one. -/
def address (t : FillTask) : Nat → Option UInt32
  | 0 => some t.start
  | i + 1 => (t.address i).bind fun a => nextDescriptor (t.ram.descriptorAt a).next t.head

/-- The number of bytes that fit into the buffer of the `i`-th descriptor. -/
def room (t : FillTask) (i : Nat) : Nat :=
  ((t.address i).map fun a => (t.ram.descriptorAt a).bufferLength.toNat).getD 0

/-- The number of bytes that the descriptors before the `i`-th take. -/
def placed (t : FillTask) : Nat → Nat
  | 0 => 0
  | i + 1 => t.placed i + min (t.room i) (t.length - t.placed i)

/-- The number of bytes that the `i`-th descriptor takes: what fits into its buffer, or all that is
still missing. -/
def taken (t : FillTask) (i : Nat) : Nat := min (t.room i) (t.length - t.placed i)

/-- The part of the frame that goes to the `i`-th descriptor. -/
def segment? (t : FillTask) (i : Nat) : Option Segment :=
  (t.address i).map fun a => ⟨t.ram.descriptorAt a, t.placed i, t.taken i⟩

/-- What stands in the way at the `i`-th descriptor, in the order in which it shows: the limit or a
descriptor met before, a slot outside the RAM, software as the owner, a buffer outside memory. -/
def obstacle? (t : FillTask) (i : Nat) : Option DmaFault :=
  match t.address i with
  | none => some (.ringExhausted t.channel)
  | some a =>
      if t.limit ≤ i ∨ some a ∈ (List.range i).map t.address then some (.ringExhausted t.channel)
      else if ¬ t.ram.CoversSlot a then
        some (.outOfRange (.outOfRange a.toUInt64 Slot.length t.ram.limit))
      else if (t.ram.descriptorAt a).isOwned = false then some (.overrun t.channel a)
      else if ¬ InRange t.memory.size (t.ram.descriptorAt a).dataAddress (t.taken i) then
        some (.outOfRange
          (.outOfRange (t.ram.descriptorAt a).dataAddress (t.taken i) t.memory.size))
      else none

/-- A frame is complete with the first `k` descriptors and not before, and each of them exists, is
met for the first time, lies inside the RAM, belongs to the engine and takes its bytes into
memory. -/
structure Completes (t : FillTask) (k : Nat) : Prop where
  pos : 1 ≤ k
  le_limit : k ≤ t.limit
  exists_address : ∀ i < k, ∃ a, t.address i = some a
  distinct : ∀ i < k, ∀ j < i, t.address j ≠ t.address i
  covered : ∀ i < k, ∀ a, t.address i = some a → t.ram.CoversSlot a
  owned : ∀ i < k, ∀ a, t.address i = some a → (t.ram.descriptorAt a).isOwned = true
  inRange : ∀ i < k, ∀ a, t.address i = some a →
    InRange t.memory.size (t.ram.descriptorAt a).dataAddress (t.taken i)
  placed_eq : t.placed k = t.length
  placed_ne : ∀ i, 1 ≤ i → i < k → t.placed i ≠ t.length

/-- The walk meets `fault` at the `m`-th descriptor, with nothing in the way before and the frame
incomplete up to there. -/
structure FailsAt (t : FillTask) (m : Nat) (fault : DmaFault) : Prop where
  clear : ∀ i < m, t.obstacle? i = none
  placed_ne : ∀ i, 1 ≤ i → i ≤ m → t.placed i ≠ t.length
  obstacle : t.obstacle? m = some fault

variable {t : FillTask}

/-! ### The walk as a sequence -/

theorem placed_succ (t : FillTask) (i : Nat) : t.placed (i + 1) = t.placed i + t.taken i := rfl

theorem address_succ {i : Nat} {a : UInt32} (h : t.address i = some a) :
    t.address (i + 1) = nextDescriptor (t.ram.descriptorAt a).next t.head := by
  rw [address, h, Option.bind_some]

theorem taken_eq {i : Nat} {a : UInt32} (h : t.address i = some a) :
    t.taken i = min (t.ram.descriptorAt a).bufferLength.toNat (t.length - t.placed i) := by
  rw [taken, room, h, Option.map_some, Option.getD_some]

theorem segment?_eq {i : Nat} {a : UInt32} (h : t.address i = some a) :
    t.segment? i = some ⟨t.ram.descriptorAt a, t.placed i, t.taken i⟩ := by
  rw [segment?, h, Option.map_some]

theorem taken_le (t : FillTask) (i : Nat) : t.taken i ≤ t.length - t.placed i := Nat.min_le_right ..

/-- No more is placed than the frame has. -/
theorem placed_le (t : FillTask) (i : Nat) : t.placed i ≤ t.length := by
  induction i with
  | zero => exact Nat.zero_le _
  | succ i ih =>
      have hle := t.taken_le i
      rw [placed_succ]
      omega

/-- What is placed is the running sum of what the descriptors take. -/
theorem sum_taken (t : FillTask) (i : Nat) : ((List.range i).map t.taken).sum = t.placed i := by
  induction i with
  | zero => rfl
  | succ i ih =>
      rw [List.range_succ, List.map_append, List.sum_append, ih, placed_succ, List.map_singleton,
        List.sum_singleton]

/-- A descriptor that does not complete the frame has its buffer filled. -/
theorem taken_eq_room {i : Nat} (h : t.placed (i + 1) ≠ t.length) : t.taken i = t.room i := by
  have hplaced := t.placed_le i
  rw [placed_succ] at h
  unfold taken at h ⊢
  omega

/-! ### Obstacles -/

/-- Nothing stands in the way at a descriptor that is met for the first time within the limit, lies
inside the RAM, belongs to the engine and takes its bytes into memory. -/
theorem obstacle?_eq_none_iff {i : Nat} : t.obstacle? i = none ↔
    ∃ a, t.address i = some a ∧ i < t.limit ∧ (∀ j < i, t.address j ≠ some a) ∧
      t.ram.CoversSlot a ∧ (t.ram.descriptorAt a).isOwned = true ∧
      InRange t.memory.size (t.ram.descriptorAt a).dataAddress (t.taken i) := by
  unfold obstacle?
  cases haddress : t.address i with
  | none => simp
  | some a =>
      simp only [List.mem_map, List.mem_range]
      constructor
      · intro h
        split at h
        · cases h
        · next hstart =>
            split at h
            · cases h
            · next hcovers =>
                split at h
                · cases h
                · next howned =>
                    split at h
                    · cases h
                    · next hrange =>
                        refine ⟨a, rfl, ?_, ?_, not_not.1 hcovers, by simpa using howned,
                          not_not.1 hrange⟩
                        · exact Nat.lt_of_not_le fun hle => hstart (Or.inl hle)
                        · exact fun j hj heq => hstart (Or.inr ⟨j, hj, heq⟩)
      · rintro ⟨b, hb, hlimit, hfresh, hcovers, howned, hrange⟩
        cases hb
        have hstart : ¬ (t.limit ≤ i ∨ ∃ j, j < i ∧ t.address j = some a) := by
          rintro (hle | ⟨j, hj, heq⟩)
          · omega
          · exact hfresh j hj heq
        rw [if_neg hstart, if_neg (not_not.2 hcovers), if_neg (by simp [howned]),
          if_neg (not_not.2 hrange)]

/-- A walk passes the `j`-th descriptor: nothing stands in the way, and the frame goes on. -/
def Passes (t : FillTask) (j : Nat) : Prop := t.obstacle? j = none ∧ t.placed (j + 1) ≠ t.length

instance (t : FillTask) (j : Nat) : Decidable (t.Passes j) := inferInstanceAs (Decidable (_ ∧ _))

/-- The descriptors with which a frame is complete are those that the walk passes and the one that
completes it. -/
theorem completes_succ_iff {m : Nat} : t.Completes (m + 1) ↔
    (∀ j < m, t.Passes j) ∧ t.obstacle? m = none ∧ t.placed (m + 1) = t.length := by
  constructor
  · intro h
    have hclear : ∀ i < m + 1, t.obstacle? i = none := by
      intro i hi
      obtain ⟨a, ha⟩ := h.exists_address i hi
      have hlimit := h.le_limit
      exact obstacle?_eq_none_iff.2 ⟨a, ha, by omega,
        fun j hj heq => h.distinct i hi j hj (heq.trans ha.symm), h.covered i hi a ha,
        h.owned i hi a ha, h.inRange i hi a ha⟩
    exact ⟨fun j hj => ⟨hclear j (by omega), h.placed_ne (j + 1) (by omega) (by omega)⟩,
      hclear m (by omega), h.placed_eq⟩
  · rintro ⟨hbefore, hlast, hplaced⟩
    have hat : ∀ i < m + 1, ∃ a, t.address i = some a ∧ i < t.limit ∧
        (∀ j < i, t.address j ≠ some a) ∧ t.ram.CoversSlot a ∧
        (t.ram.descriptorAt a).isOwned = true ∧
        InRange t.memory.size (t.ram.descriptorAt a).dataAddress (t.taken i) := by
      intro i hi
      apply obstacle?_eq_none_iff.1
      rcases Nat.lt_succ_iff_lt_or_eq.1 hi with hlt | rfl
      · exact (hbefore i hlt).1
      · exact hlast
    have hat' : ∀ i < m + 1, ∀ a, t.address i = some a → t.ram.CoversSlot a ∧
        (t.ram.descriptorAt a).isOwned = true ∧
        InRange t.memory.size (t.ram.descriptorAt a).dataAddress (t.taken i) := by
      intro i hi a ha
      obtain ⟨b, hb, -, -, hrest⟩ := hat i hi
      cases ha.symm.trans hb
      exact hrest
    refine ⟨by omega, ?_, ?_, ?_, fun i hi a ha => (hat' i hi a ha).1,
      fun i hi a ha => (hat' i hi a ha).2.1, fun i hi a ha => (hat' i hi a ha).2.2, hplaced, ?_⟩
    · obtain ⟨-, -, hlimit, -⟩ := hat m (by omega)
      omega
    · intro i hi
      obtain ⟨a, ha, -⟩ := hat i hi
      exact ⟨a, ha⟩
    · intro i hi j hj heq
      obtain ⟨a, ha, -, hfresh, -⟩ := hat i hi
      exact hfresh j hj (heq.trans ha)
    · intro i hpos hi
      obtain ⟨j, rfl⟩ : ∃ j, i = j + 1 := ⟨i - 1, by omega⟩
      exact (hbefore j (by omega)).2

/-- A walk fails at the obstacle behind the descriptors that it passes. -/
theorem failsAt_iff {m : Nat} {fault : DmaFault} : t.FailsAt m fault ↔
    (∀ j < m, t.Passes j) ∧ t.obstacle? m = some fault := by
  constructor
  · intro h
    exact ⟨fun j hj => ⟨h.clear j hj, h.placed_ne (j + 1) (by omega) (by omega)⟩, h.obstacle⟩
  · rintro ⟨hbefore, hobstacle⟩
    refine ⟨fun i hi => (hbefore i hi).1, ?_, hobstacle⟩
    intro i hpos hi
    obtain ⟨j, rfl⟩ : ∃ j, i = j + 1 := ⟨i - 1, by omega⟩
    exact (hbefore j (by omega)).2

/-- The walk finds the segment of the sequence where nothing stands in the way. -/
theorem takenAt_of_clear {i : Nat} {a : UInt32} (haddress : t.address i = some a)
    (hclear : t.obstacle? i = none) :
    Segment.TakenAt t.ram t.memory a (t.placed i) (t.length - t.placed i)
      ⟨t.ram.descriptorAt a, t.placed i, t.taken i⟩ := by
  obtain ⟨b, hb, -, -, hcovers, howned, hrange⟩ := obstacle?_eq_none_iff.1 hclear
  cases haddress.symm.trans hb
  exact ⟨hcovers, rfl, howned, hrange, rfl, taken_eq haddress⟩

end FillTask

/-- A slot outside the RAM cannot be decoded. -/
theorem ReceiveDescriptor.decode_of_not {ram : Aperture} {address : UInt32}
    (h : ¬ ram.CoversSlot address) : decode ram address =
      .error (.outOfRange (.outOfRange address.toUInt64 Slot.length ram.limit)) := by
  rw [decode, Aperture.readSlot, Aperture.read_of_not h]
  rfl

theorem segmentAt_of_not_covered {ram : Aperture} {memory : Memory} {channel : Nat}
    {address : UInt32} {offset missing : Nat} (h : ¬ ram.CoversSlot address) :
    segmentAt ram memory channel address offset missing =
      .error (.outOfRange (.outOfRange address.toUInt64 Slot.length ram.limit)) := by
  rw [segmentAt, ReceiveDescriptor.decode_of_not h]
  rfl

/-- A buffer outside memory stops the walk even where it takes no byte. -/
theorem segmentAt_of_not_inRange {ram : Aperture} {memory : Memory} {channel : Nat}
    {address : UInt32} {offset missing length : Nat} (hcovers : ram.CoversSlot address)
    (howned : (ram.descriptorAt address).isOwned = true)
    (hlength : length = min (ram.descriptorAt address).bufferLength.toNat missing)
    (hrange : ¬ InRange memory.size (ram.descriptorAt address).dataAddress length) :
    segmentAt ram memory channel address offset missing =
      .error (.outOfRange
        (.outOfRange (ram.descriptorAt address).dataAddress length memory.size)) := by
  subst hlength
  rw [segmentAt, ReceiveDescriptor.decode_eq_ok_iff.2 ⟨hcovers, rfl⟩]
  show (if (ram.descriptorAt address).isOwned then _ else _) = _
  rw [if_pos howned]
  show (liftMemory (memory.check (ram.descriptorAt address).dataAddress
    (min (ram.descriptorAt address).bufferLength.toNat missing)) >>= _) = _
  rw [Memory.check_of_not hrange]
  rfl

namespace FillTask

variable {t : FillTask}

/-! ### The walk follows the sequence -/

/-- A step of the walk within the limit fails with the obstacle at its descriptor. -/
theorem planFrom_of_obstacle {i budget : Nat} {a : UInt32} {visited : List UInt32}
    {fault : DmaFault} (hbudget : i + budget = t.limit) (haddress : t.address i = some a)
    (hvisited : ∀ b, b ∈ visited ↔ ∃ j < i, t.address j = some b)
    (hobstacle : t.obstacle? i = some fault) :
    planFrom t.ram t.memory t.channel t.head budget visited a (t.placed i)
      (t.length - t.placed i) = .error fault := by
  unfold obstacle? at hobstacle
  simp only [haddress, List.mem_map, List.mem_range, ← hvisited a] at hobstacle
  cases budget with
  | zero =>
      rw [if_pos (Or.inl (by omega))] at hobstacle
      cases hobstacle
      rfl
  | succ budget =>
      by_cases hmem : a ∈ visited
      · rw [if_pos (Or.inr hmem)] at hobstacle
        cases hobstacle
        rw [planFrom, if_pos hmem]
      · have hstart : ¬ (t.limit ≤ i ∨ a ∈ visited) := by
          rintro (hle | hin)
          · omega
          · exact hmem hin
        rw [if_neg hstart] at hobstacle
        apply planFrom_of_fault hmem
        split at hobstacle
        · next hcovers =>
            cases hobstacle
            exact segmentAt_of_not_covered hcovers
        · next hcovers =>
            rw [not_not] at hcovers
            split at hobstacle
            · next howned =>
                cases hobstacle
                exact segmentAt_of_not_owned hcovers howned
            · next howned =>
                split at hobstacle
                · next hrange =>
                    cases hobstacle
                    exact segmentAt_of_not_inRange hcovers (by simpa using howned)
                      (taken_eq haddress) hrange
                · cases hobstacle

/-- The result of a walk from the `i`-th descriptor on that comes to its end at the `m`-th. -/
inductive StopsAt (t : FillTask) (i m : Nat) : Except DmaFault FillPlan → Prop
  | obstructed {fault : DmaFault} (obstacle : t.obstacle? m = some fault) :
      StopsAt t i m (.error fault)
  | complete {plan : FillPlan} (clear : t.obstacle? m = none)
      (placed_eq : t.placed (m + 1) = t.length)
      (segments_eq : plan.segments.map some = (List.range' i (m + 1 - i)).map t.segment?)
      (next_eq : plan.next = t.address (m + 1)) : StopsAt t i m (.ok plan)

/-- The descriptor before a walk comes first in its plan. -/
theorem StopsAt.cons {i m : Nat} {s : Segment} {result : Except DmaFault FillPlan}
    (h : t.StopsAt (i + 1) m result) (him : i + 1 ≤ m) (hs : t.segment? i = some s) :
    t.StopsAt i m (result.map fun rest => ⟨s, rest.segments, rest.next⟩) := by
  cases h with
  | obstructed obstacle => exact .obstructed obstacle
  | complete clear placed_eq segments_eq next_eq =>
      refine .complete clear placed_eq ?_ next_eq
      have hcount : m + 1 - i = (m + 1 - (i + 1)) + 1 := by omega
      rw [hcount, List.range'_succ, List.map_cons, hs, ← segments_eq, FillPlan.segments_mk,
        List.map_cons]

/-- A walk does not pass the descriptor at which it stops. -/
theorem StopsAt.not_passes {i m : Nat} {result : Except DmaFault FillPlan}
    (h : t.StopsAt i m result) : ¬ t.Passes m := by
  rintro ⟨hclear, hincomplete⟩
  cases h with
  | obstructed obstacle =>
      rw [hclear] at obstacle
      cases obstacle
  | complete clear placed_eq segments_eq next_eq => exact hincomplete placed_eq

/-- **The walk follows the sequence up to where it stops**: at the first obstacle, with its fault,
or at the first descriptor that completes the frame, with the segments up to there. -/
theorem planFrom_stops {i budget : Nat} {a : UInt32} {visited : List UInt32}
    (hbudget : i + budget = t.limit) (haddress : t.address i = some a)
    (hvisited : ∀ b, b ∈ visited ↔ ∃ j < i, t.address j = some b) :
    ∃ m, i ≤ m ∧ (∀ j, i ≤ j → j < m → t.Passes j) ∧
      t.StopsAt i m (planFrom t.ram t.memory t.channel t.head budget visited a (t.placed i)
        (t.length - t.placed i)) := by
  -- the budget is what the limit leaves, and the visited descriptors are the sequence so far
  induction budget generalizing i a visited with
  | zero =>
      have hobstacle : t.obstacle? i = some (.ringExhausted t.channel) := by
        unfold obstacle?
        simp only [haddress]
        exact if_pos (Or.inl (by omega))
      exact ⟨i, Nat.le_refl i, fun j hij hj => absurd hj (by omega), .obstructed hobstacle⟩
  | succ budget ih =>
      have hnone : ∀ j, i ≤ j → j < i → t.Passes j := fun j hij hj => absurd hj (by omega)
      cases hobstacle : t.obstacle? i with
      | some fault =>
          rw [planFrom_of_obstacle hbudget haddress hvisited hobstacle]
          exact ⟨i, Nat.le_refl i, hnone, .obstructed hobstacle⟩
      | none =>
          have htaken := takenAt_of_clear haddress hobstacle
          have hfresh : a ∉ visited := by
            rw [hvisited]
            rintro ⟨j, hj, heq⟩
            obtain ⟨b, hb, -, hfresh, -⟩ := obstacle?_eq_none_iff.1 hobstacle
            cases haddress.symm.trans hb
            exact hfresh j hj heq
          have hplaced := t.placed_le i
          have hsucc := t.placed_succ i
          by_cases hcomplete : t.placed (i + 1) = t.length
          · have hlast : t.taken i = t.length - t.placed i := by omega
            rw [planFrom_of_last hfresh htaken hlast]
            refine ⟨i, Nat.le_refl i, hnone,
              .complete hobstacle hcomplete ?_ (address_succ haddress).symm⟩
            rw [Nat.add_sub_cancel_left, List.range'_one, List.map_singleton, segment?_eq haddress]
            rfl
          · have hincomplete : t.taken i ≠ t.length - t.placed i := by
              have hle := t.taken_le i
              omega
            cases hnext : t.address (i + 1) with
            | none =>
                rw [planFrom_of_end hfresh htaken hincomplete
                  ((address_succ haddress).symm.trans hnext)]
                refine ⟨i + 1, Nat.le_succ i, ?_, .obstructed (by unfold obstacle?; rw [hnext])⟩
                intro j hij hj
                obtain rfl : j = i := by omega
                exact ⟨hobstacle, hcomplete⟩
            | some following =>
                obtain ⟨m, him, hbefore, hstops⟩ :=
                  ih (by omega) hnext (mem_visited_succ haddress hvisited)
                have hmissing : t.length - t.placed (i + 1) =
                    t.length - t.placed i - t.taken i := by omega
                rw [planFrom_of_more hfresh htaken hincomplete
                  ((address_succ haddress).symm.trans hnext)]
                rw [hmissing, placed_succ] at hstops
                refine ⟨m, by omega, ?_, hstops.cons him (segment?_eq haddress)⟩
                intro j hij hj
                by_cases hji : j = i
                · subst hji
                  exact ⟨hobstacle, hcomplete⟩
                · exact hbefore j (by omega) hj

/-- A plan is the result of the walk along the sequence. -/
theorem planFill_stops (t : FillTask) :
    ∃ m, (∀ j < m, t.Passes j) ∧
      t.StopsAt 0 m (planFill t.ram t.memory t.channel t.start t.head t.length t.limit) := by
  have hvisited : ∀ b, b ∈ ([] : List UInt32) ↔ ∃ j < 0, t.address j = some b := by simp
  obtain ⟨m, -, hbefore, hstops⟩ := planFrom_stops (Nat.zero_add t.limit) rfl hvisited
  exact ⟨m, fun j hj => hbefore j (Nat.zero_le j) hj, hstops⟩

/-! ### Planning and its specification -/

/-- The segments of a plan lie behind each other in the frame, without gap or overlap, and every
buffer but the last is filled. -/
structure Tiles (t : FillTask) (plan : FillPlan) : Prop where
  offset_eq : ∀ i s, plan.segments[i]? = some s →
    s.offset = ((plan.segments.take i).map (·.length)).sum
  length_eq : ∀ i s, plan.segments[i]? = some s → i + 1 < plan.segments.length →
    s.length = s.descriptor.bufferLength.toNat
  sum_length : (plan.segments.map (·.length)).sum = t.length
  flatMap_part : ∀ frame : List UInt8, frame.length = t.length →
    plan.segments.flatMap (·.part frame) = frame

/-- The lengths of the segments of a walk are what the descriptors take. -/
theorem map_length_take {plan : FillPlan} {k i : Nat}
    (hsegments : plan.segments.map some = (List.range k).map t.segment?) (hi : i ≤ k) :
    (plan.segments.take i).map (·.length) = (List.range i).map t.taken := by
  have hlength : plan.segments.length = k := by
    simpa using congrArg List.length hsegments
  apply List.ext_getElem?
  intro j
  rw [List.getElem?_map, List.getElem?_map, List.getElem?_take]
  by_cases hj : j < i
  · have hlt : j < plan.segments.length := by omega
    obtain ⟨-, hs⟩ := getElem?_of_map_some hsegments (List.getElem?_eq_getElem hlt)
    rw [if_pos hj, List.getElem?_range hj, List.getElem?_eq_getElem hlt]
    obtain ⟨a, -, hsegment⟩ := Option.map_eq_some_iff.1 hs
    rw [Option.map_some, Option.map_some, ← hsegment]
  · rw [if_neg hj, List.getElem?_eq_none (by rw [List.length_range]; omega)]
    rfl

/-- A walk that completes the frame cuts it into consecutive pieces. -/
theorem Completes.tiles {k : Nat} {plan : FillPlan} (h : t.Completes k)
    (hplan : planFill t.ram t.memory t.channel t.start t.head t.length t.limit = .ok plan)
    (hsegments : plan.segments.map some = (List.range k).map t.segment?) : t.Tiles plan := by
  have hlength : plan.segments.length = k := by
    simpa using congrArg List.length hsegments
  obtain ⟨hwalk, -, -⟩ := planFill_eq_ok_iff.1 hplan
  refine ⟨?_, ?_, hwalk.sum_length, ?_⟩
  · intro i s hs
    obtain ⟨hi, hsegment⟩ := getElem?_of_map_some hsegments hs
    obtain ⟨a, -, rfl⟩ := Option.map_eq_some_iff.1 hsegment
    rw [map_length_take hsegments (by omega), sum_taken]
  · intro i s hs hi
    obtain ⟨-, hsegment⟩ := getElem?_of_map_some hsegments hs
    obtain ⟨a, ha, rfl⟩ := Option.map_eq_some_iff.1 hsegment
    show t.taken i = _
    rw [taken_eq_room (h.placed_ne (i + 1) (by omega) (by omega)), room, ha]
    rfl
  · intro frame hframe
    have hflat := hwalk.flatMap_part frame (by rw [hframe]; exact Nat.zero_add _)
    rwa [List.drop_zero] at hflat

/-- **Planning is its declarative specification.**  A plan exists exactly when some descriptors of
the walk complete the frame; it then consists of these descriptors, cuts the frame into consecutive
pieces and goes on behind the last of them.  Otherwise the fault is the first obstacle that the walk
meets. -/
theorem planFill_meets_specification (t : FillTask) :
    ((∃ plan, planFill t.ram t.memory t.channel t.start t.head t.length t.limit = .ok plan) ↔
      ∃ k, t.Completes k) ∧
    (∀ k, t.Completes k → ∃ plan : FillPlan,
      planFill t.ram t.memory t.channel t.start t.head t.length t.limit = .ok plan ∧
      plan.segments.map some = (List.range k).map t.segment? ∧ plan.next = t.address k ∧
      t.Tiles plan) ∧
    ∀ fault, planFill t.ram t.memory t.channel t.start t.head t.length t.limit = .error fault ↔
      ∃ m, t.FailsAt m fault := by
  obtain ⟨m, hbefore, hstops⟩ := t.planFill_stops
  refine outcome_of_stops t.obstacle? (t.placed · = t.length) (fun k hk => hk.pos)
    (fun _ => completes_succ_iff) (fun _ _ => failsAt_iff) hbefore ?_
  generalize hplan : planFill t.ram t.memory t.channel t.start t.head t.length t.limit = result
    at hstops
  cases hstops with
  | @obstructed fault obstacle => exact Or.inl ⟨fault, rfl, obstacle⟩
  | @complete plan clear placed_eq segments_eq next_eq =>
      rw [Nat.sub_zero, ← List.range_eq_range'] at segments_eq
      have hcomplete := completes_succ_iff.2 ⟨hbefore, clear, placed_eq⟩
      exact Or.inr ⟨plan, rfl, clear, placed_eq, segments_eq, next_eq,
        hcomplete.tiles hplan segments_eq⟩

/-- Five bytes fill a buffer of two and go on into a buffer of four, and the next frame starts at
the head again.  With one descriptor allowed, the walk fails at the second. -/
theorem five_bytes_take_two_buffers :
    let s := (System.small.run [.writeRam 0x48486000
      [0x48486010, 0x100, 2, 0x20000000, 0, 0x200, 4, 0x20000000]]).2
    let t : FillTask := ⟨s.engine.ram, s.memory, 0, 0x48486000, 0x48486000, 5, 2⟩
    let u : FillTask := { t with limit := 1 }
    t.Completes 2 ∧
    (∃ plan, planFill t.ram t.memory t.channel t.start t.head t.length t.limit = .ok plan ∧
      plan.segments.map some = (List.range 2).map t.segment? ∧ plan.next = some 0x48486000 ∧
      t.Tiles plan) ∧
    u.FailsAt 1 (.ringExhausted 0) ∧
    planFill u.ram u.memory u.channel u.start u.head u.length u.limit =
      .error (.ringExhausted 0) := by
  intro s t u
  have hcompletes : t.Completes 2 := completes_succ_iff.2 (by decide +kernel)
  have hfails : u.FailsAt 1 (.ringExhausted 0) := failsAt_iff.2 (by decide +kernel)
  obtain ⟨plan, hplan, hsegments, hnext, htiles⟩ :=
    (planFill_meets_specification t).2.1 2 hcompletes
  have haddress : t.address 2 = some 0x48486000 := by decide +kernel
  exact ⟨hcompletes, ⟨plan, hplan, hsegments, hnext.trans haddress, htiles⟩, hfails,
    ((planFill_meets_specification u).2.2 _).2 ⟨1, hfails⟩⟩

end FillTask

end PacketDma
