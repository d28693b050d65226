/-
**The declarative reading of a gathered frame.**

The addresses that a walk over a transmit chain meets are a sequence: it starts at the head, and each
address is the next pointer of the descriptor before, or the head again where that pointer is zero.
Along this sequence the buffers give the packet piece by piece.  The walk comes to a descriptor
first, and then to the bytes of its buffer; something may stand in its way at either time.  A frame
is gathered exactly when the packet is complete before anything stands in the way.

Main definitions:

* `PacketDma.GatherTask` — everything that a gathered frame depends on;
* `PacketDma.GatherTask.address`, `PacketDma.GatherTask.gathered` — the walk as a sequence;
* `PacketDma.GatherTask.arrival?`, `PacketDma.GatherTask.outside?` — what stands in the way of
  coming to a descriptor, and of its bytes;
* `PacketDma.GatherTask.Completes`, `PacketDma.GatherTask.FailsAt` — where a walk ends, read off the
  sequence alone.

Main results:

* `PacketDma.GatherTask.gatherFrom_cases` — what one step of the walk does;
* `PacketDma.GatherTask.gatherFrom_stops` — the walk follows the sequence up to where it stops;
* `PacketDma.GatherTask.gather_meets_specification` — **gathering is its declarative
  specification**.
-/

import PacketDma.Proofs.FillEffect
import PacketDma.Proofs.GatherWalk
import PacketDma.Proofs.WalkSequence

set_option autoImplicit false

namespace PacketDma

/-- Everything that a gathered frame depends on. -/
structure GatherTask where
  ram : Aperture
  memory : Memory
  channel : Nat
  head : UInt32
  /-- The number of descriptors that a walk may use; the first one counts even if it is zero. -/
  limit : Nat

namespace GatherTask

/-- The number of bytes of the packet, as its first descriptor says. -/
def length (t : GatherTask) : Nat := (t.ram.transmitAt t.head).packetLength.toNat

/-- The address of the `i`-th descriptor from the head on, as long as there is one. -/
def address (t : GatherTask) : Nat → Option UInt32
  | 0 => some t.head
  | i + 1 => (t.address i).bind fun a => nextDescriptor (t.ram.transmitAt a).next t.head

/-- The `i`-th descriptor, as long as there is one. -/
def descriptor? (t : GatherTask) (i : Nat) : Option TransmitDescriptor :=
  (t.address i).map t.ram.transmitAt

/-- The number of bytes in the buffer of the `i`-th descriptor. -/
def room (t : GatherTask) (i : Nat) : Nat :=
  ((t.descriptor? i).map (·.bufferLength.toNat)).getD 0

/-- The number of bytes that the descriptors before the `i`-th give: all that their buffers hold, or
the whole packet. -/
def gathered (t : GatherTask) (i : Nat) : Nat := min t.length ((List.range i).map t.room).sum

/-- The number of bytes that the `i`-th descriptor gives: what its buffer holds, or all that is still
missing. -/
def given (t : GatherTask) (i : Nat) : Nat := min (t.room i) (t.length - t.gathered i)

/-- The bytes that the `i`-th descriptor gives. -/
def slice (t : GatherTask) (i : Nat) : Frame :=
  ((t.descriptor? i).map fun d => t.memory.bytes d.dataAddress (t.given i)).getD []

/-- Why the descriptor at an address cannot be used, in the order in which it shows: its slot lies
outside the RAM, or software owns it. -/
def unusable? (t : GatherTask) (a : UInt32) : Option DmaFault :=
  if ¬ t.ram.CoversSlot a then
    some (.outOfRange (.outOfRange a.toUInt64 Slot.length t.ram.limit))
  else if (t.ram.transmitAt a).isOwned = false then some (.chain t.channel (.notOwned a))
  else none

/-- What stands in the way of coming to the `i`-th descriptor, in the order in which it shows.  The
first one may be unusable or announce an empty packet; at any other the chain may have ended or come
back on itself, the limit may be reached, or the descriptor may be unusable. -/
def arrival? (t : GatherTask) : Nat → Option DmaFault
  | 0 =>
      (t.unusable? t.head).or
        (if t.length = 0 then some (.chain t.channel .emptyPacket) else none)
  | i + 1 =>
      if t.address (i + 1) = none ∨ ∃ j < i + 1, t.address j = t.address (i + 1) then
        some (.chain t.channel (.truncated (t.length - t.gathered (i + 1))))
      else if t.limit ≤ i + 1 then some (.chain t.channel (.walkLimit t.limit))
      else (t.address (i + 1)).bind t.unusable?

/-- What stands in the way of the bytes of the `i`-th descriptor: they lie outside memory. -/
def outside? (t : GatherTask) (i : Nat) : Option DmaFault :=
  (t.descriptor? i).bind fun d =>
    if InRange t.memory.size d.dataAddress (t.given i) then none
    else some (.outOfRange (.outOfRange d.dataAddress (t.given i) t.memory.size))

/-- What stands in the way at the `i`-th descriptor. -/
def obstacle? (t : GatherTask) (i : Nat) : Option DmaFault := (t.arrival? i).or (t.outside? i)

/-- A packet of at least one byte is complete with the first `k` descriptors and not before, and each
of them exists, is met for the first time, lies inside the RAM, belongs to the engine and gives bytes
of memory. -/
structure Completes (t : GatherTask) (k : Nat) : Prop where
  length_pos : 0 < t.length
  pos : 1 ≤ k
  le_limit : k ≤ max 1 t.limit
  exists_address : ∀ i < k, ∃ a, t.address i = some a
  distinct : ∀ i < k, ∀ j < i, t.address j ≠ t.address i
  covered : ∀ i < k, ∀ a, t.address i = some a → t.ram.CoversSlot a
  owned : ∀ i < k, ∀ d, t.descriptor? i = some d → d.isOwned = true
  inRange : ∀ i < k, ∀ d, t.descriptor? i = some d →
    InRange t.memory.size d.dataAddress (t.given i)
  gathered_eq : t.gathered k = t.length
  gathered_ne : ∀ i, 1 ≤ i → i < k → t.gathered i ≠ t.length

/-- The walk meets `fault` at the `m`-th descriptor, with nothing in the way before and the packet
incomplete up to there. -/
structure FailsAt (t : GatherTask) (m : Nat) (fault : DmaFault) : Prop where
  clear : ∀ i < m, t.obstacle? i = none
  gathered_ne : ∀ i, 1 ≤ i → i ≤ m → t.gathered i ≠ t.length
  obstacle : t.obstacle? m = some fault

variable {t : GatherTask}

/-! ### The walk as a sequence -/

theorem address_succ {i : Nat} {a : UInt32} (h : t.address i = some a) :
    t.address (i + 1) = nextDescriptor (t.ram.transmitAt a).next t.head := by
  rw [address, h, Option.bind_some]

theorem descriptor?_eq {i : Nat} {a : UInt32} (h : t.address i = some a) :
    t.descriptor? i = some (t.ram.transmitAt a) := by
  rw [descriptor?, h, Option.map_some]

theorem given_eq {i : Nat} {a : UInt32} (h : t.address i = some a) :
    t.given i = min (t.ram.transmitAt a).bufferLength.toNat (t.length - t.gathered i) := by
  simp [given, room, descriptor?_eq h]

theorem slice_eq {i : Nat} {a : UInt32} (h : t.address i = some a) :
    t.slice i = t.memory.bytes (t.ram.transmitAt a).dataAddress (t.given i) := by
  simp [slice, descriptor?_eq h]

/-- Nothing is gathered at the head. -/
theorem gathered_zero (t : GatherTask) : t.gathered 0 = 0 := by
  simp [gathered]

/-- What is gathered is the running sum of what the descriptors give. -/
theorem gathered_succ (t : GatherTask) (i : Nat) :
    t.gathered (i + 1) = t.gathered i + t.given i := by
  simp only [gathered, given, List.range_succ, List.map_append, List.map_singleton,
    List.sum_append, List.sum_singleton]
  omega

theorem gathered_le (t : GatherTask) (i : Nat) : t.gathered i ≤ t.length := Nat.min_le_left ..

theorem given_le (t : GatherTask) (i : Nat) : t.given i ≤ t.length - t.gathered i :=
  Nat.min_le_right ..

/-! ### Obstacles -/

/-- A descriptor can be used that lies inside the RAM and belongs to the engine. -/
theorem unusable?_eq_none_iff {a : UInt32} :
    t.unusable? a = none ↔ (t.ram.transmitAt a).OwnedAt t.ram a := by
  unfold unusable?
  constructor
  · intro h
    split at h
    · cases h
    · next hcovers =>
        split at h
        · cases h
        · next howned => exact ⟨not_not.1 hcovers, rfl, by simpa using howned⟩
  · intro h
    rw [if_neg (not_not.2 h.covered), if_neg (by simp [h.owned])]

/-- The walk comes to a descriptor that exists, is met for the first time within the limit and can be
used; to the first one it comes if the packet has a byte. -/
theorem arrival?_eq_none_iff {i : Nat} : t.arrival? i = none ↔
    ∃ a, t.address i = some a ∧ (i = 0 → 0 < t.length) ∧ i < max 1 t.limit ∧
      (∀ j < i, t.address j ≠ some a) ∧ (t.ram.transmitAt a).OwnedAt t.ram a := by
  cases i with
  | zero =>
      have hhead : t.address 0 = some t.head := rfl
      simp only [arrival?, Option.or_eq_none_iff, unusable?_eq_none_iff, hhead, Option.some.injEq]
      constructor
      · rintro ⟨howned, hlength⟩
        refine ⟨t.head, rfl, ?_, by omega, by simp, howned⟩
        intro _
        by_contra hzero
        simp [show t.length = 0 by omega] at hlength
      · rintro ⟨a, rfl, hlength, -, -, howned⟩
        have hpositive := hlength trivial
        exact ⟨howned, if_neg (by omega)⟩
  | succ i =>
      cases haddress : t.address (i + 1) with
      | none => simp [arrival?, haddress]
      | some a =>
          simp only [arrival?, haddress, reduceCtorEq, false_or, Option.bind_some,
            Option.some.injEq, exists_eq_left']
          by_cases hrevisit : ∃ j < i + 1, t.address j = some a
          · rw [if_pos hrevisit]
            obtain ⟨j, hj, heq⟩ := hrevisit
            simp only [reduceCtorEq, false_iff]
            rintro ⟨-, -, hfresh, -⟩
            exact hfresh j hj heq
          · rw [if_neg hrevisit]
            by_cases hlimit : t.limit ≤ i + 1
            · rw [if_pos hlimit]
              simp only [reduceCtorEq, false_iff]
              rintro ⟨-, hlt, -⟩
              omega
            · rw [if_neg hlimit, unusable?_eq_none_iff]
              constructor
              · intro howned
                refine ⟨by simp, by omega, ?_, howned⟩
                intro j hj heq
                exact hrevisit ⟨j, hj, heq⟩
              · rintro ⟨-, -, -, howned⟩
                exact howned

theorem outside?_eq_none_iff {i : Nat} {a : UInt32} (h : t.address i = some a) :
    t.outside? i = none ↔
      InRange t.memory.size (t.ram.transmitAt a).dataAddress (t.given i) := by
  simp [outside?, descriptor?_eq h]

/-- Nothing stands in the way at a descriptor to which the walk comes and whose bytes lie in
memory. -/
theorem obstacle?_eq_none_iff {i : Nat} : t.obstacle? i = none ↔
    ∃ a, t.address i = some a ∧ (i = 0 → 0 < t.length) ∧ i < max 1 t.limit ∧
      (∀ j < i, t.address j ≠ some a) ∧ (t.ram.transmitAt a).OwnedAt t.ram a ∧
      InRange t.memory.size (t.ram.transmitAt a).dataAddress (t.given i) := by
  rw [obstacle?, Option.or_eq_none_iff, arrival?_eq_none_iff]
  constructor
  · rintro ⟨⟨a, ha, hlength, hlimit, hfresh, howned⟩, hinside⟩
    exact ⟨a, ha, hlength, hlimit, hfresh, howned, (outside?_eq_none_iff ha).1 hinside⟩
  · rintro ⟨a, ha, hlength, hlimit, hfresh, howned, hrange⟩
    exact ⟨⟨a, ha, hlength, hlimit, hfresh, howned⟩, (outside?_eq_none_iff ha).2 hrange⟩

/-- A walk passes the `j`-th descriptor: nothing stands in the way, and the packet goes on. -/
def Passes (t : GatherTask) (j : Nat) : Prop :=
  t.obstacle? j = none ∧ t.gathered (j + 1) ≠ t.length

instance (t : GatherTask) (j : Nat) : Decidable (t.Passes j) :=
  inferInstanceAs (Decidable (_ ∧ _))

/-- The descriptors with which a packet is complete are those that the walk passes and the one that
completes it. -/
theorem completes_succ_iff {m : Nat} : t.Completes (m + 1) ↔
    (∀ j < m, t.Passes j) ∧ t.obstacle? m = none ∧ t.gathered (m + 1) = t.length := by
  constructor
  · intro h
    have hclear : ∀ i < m + 1, t.obstacle? i = none := by
      intro i hi
      obtain ⟨a, ha⟩ := h.exists_address i hi
      have hlimit := h.le_limit
      refine obstacle?_eq_none_iff.2 ⟨a, ha, fun _ => h.length_pos, by omega, ?_, ?_, ?_⟩
      · intro j hj heq
        exact h.distinct i hi j hj (heq.trans ha.symm)
      · exact ⟨h.covered i hi a ha, rfl, h.owned i hi _ (descriptor?_eq ha)⟩
      · exact h.inRange i hi _ (descriptor?_eq ha)
    refine ⟨?_, hclear m (by omega), h.gathered_eq⟩
    intro j hj
    exact ⟨hclear j (by omega), h.gathered_ne (j + 1) (by omega) (by omega)⟩
  · rintro ⟨hbefore, hlast, hgathered⟩
    have hclear : ∀ i < m + 1, t.obstacle? i = none := by
      intro i hi
      rcases Nat.lt_succ_iff_lt_or_eq.1 hi with hlt | rfl
      · exact (hbefore i hlt).1
      · exact hlast
    have hat : ∀ i < m + 1, ∀ a, t.address i = some a →
        (t.ram.transmitAt a).OwnedAt t.ram a ∧
        InRange t.memory.size (t.ram.transmitAt a).dataAddress (t.given i) := by
      intro i hi a ha
      obtain ⟨b, hb, -, -, -, hrest⟩ := obstacle?_eq_none_iff.1 (hclear i hi)
      cases ha.symm.trans hb
      exact hrest
    have hdescriptor : ∀ i < m + 1, ∀ d, t.descriptor? i = some d →
        d.isOwned = true ∧ InRange t.memory.size d.dataAddress (t.given i) := by
      intro i hi d hd
      obtain ⟨a, ha, rfl⟩ := Option.map_eq_some_iff.1 hd
      exact ⟨(hat i hi a ha).1.owned, (hat i hi a ha).2⟩
    obtain ⟨-, -, hlength, -⟩ := obstacle?_eq_none_iff.1 (hclear 0 (by omega))
    obtain ⟨-, -, -, hlimit, -⟩ := obstacle?_eq_none_iff.1 (hclear m (by omega))
    refine ⟨hlength rfl, by omega, by omega, ?_, ?_, fun i hi a ha => (hat i hi a ha).1.covered,
      fun i hi d hd => (hdescriptor i hi d hd).1, fun i hi d hd => (hdescriptor i hi d hd).2,
      hgathered, ?_⟩
    · intro i hi
      obtain ⟨a, ha, -⟩ := obstacle?_eq_none_iff.1 (hclear i hi)
      exact ⟨a, ha⟩
    · intro i hi j hj heq
      obtain ⟨a, ha, -, -, hfresh, -⟩ := obstacle?_eq_none_iff.1 (hclear i hi)
      exact hfresh j hj (heq.trans ha)
    · intro i hpos hi
      obtain ⟨j, rfl⟩ : ∃ j, i = j + 1 := ⟨i - 1, by omega⟩
      exact (hbefore j (by omega)).2

/-- A walk fails at the obstacle behind the descriptors that it passes. -/
theorem failsAt_iff {m : Nat} {fault : DmaFault} : t.FailsAt m fault ↔
    (∀ j < m, t.Passes j) ∧ t.obstacle? m = some fault := by
  constructor
  · intro h
    exact ⟨fun j hj => ⟨h.clear j hj, h.gathered_ne (j + 1) (by omega) (by omega)⟩, h.obstacle⟩
  · rintro ⟨hbefore, hobstacle⟩
    refine ⟨fun i hi => (hbefore i hi).1, ?_, hobstacle⟩
    intro i hpos hi
    obtain ⟨j, rfl⟩ : ∃ j, i = j + 1 := ⟨i - 1, by omega⟩
    exact (hbefore j (by omega)).2

/-! ### The walk follows the sequence -/

/-- A descriptor that cannot be used stops the walk before it is looked at. -/
theorem ownedAt_of_unusable {a : UInt32} {fault : DmaFault} (h : t.unusable? a = some fault) :
    ownedAt t.ram t.channel a = .error fault := by
  unfold unusable? at h
  split at h
  · next hcovers =>
      cases h
      rw [ownedAt, TransmitDescriptor.decode, Aperture.readSlot, Aperture.read_of_not hcovers]
      rfl
  · next hcovers =>
      rw [not_not] at hcovers
      split at h
      · next howned =>
          cases h
          have howned' : (t.ram.transmitAt a).isOwned ≠ true := by simp [howned]
          rw [ownedAt, TransmitDescriptor.decode_eq_ok_iff.2 ⟨hcovers, rfl⟩]
          show (if (t.ram.transmitAt a).isOwned then _ else _) = _
          rw [if_neg howned']
      · cases h

section Steps

variable {i budget : Nat} {a : UInt32} {visited : List UInt32} {fault : DmaFault}

/-- Bytes outside memory stop the walk, even where there is none to be read. -/
theorem gatherFrom_of_outside (haddress : t.address i = some a)
    (houtside : t.outside? i = some fault) :
    gatherFrom t.ram t.memory t.channel t.head t.limit budget visited (t.ram.transmitAt a)
      (t.length - t.gathered i) = .error fault := by
  rw [outside?, descriptor?_eq haddress, Option.bind_some] at houtside
  split at houtside
  · cases houtside
  · next hrange =>
      cases houtside
      rw [given_eq haddress] at hrange ⊢
      unfold gatherFrom
      dsimp only
      rw [Memory.read_of_not hrange]
      rfl

/-- What stands in the way of coming to the next descriptor stops the walk behind a descriptor that
it passes. -/
theorem gatherFrom_of_arrival {d : TransmitDescriptor} {missing length : Nat}
    (hbudget : i + 1 + budget = max 1 t.limit)
    (hvisited : ∀ b, b ∈ visited ↔ ∃ j < i + 1, t.address j = some b)
    (hgives : d.GivesAt t.ram t.memory a missing length) (hincomplete : length ≠ missing)
    (hmissing : missing - length = t.length - t.gathered (i + 1))
    (hlink : nextDescriptor d.next t.head = t.address (i + 1))
    (harrival : t.arrival? (i + 1) = some fault) :
    gatherFrom t.ram t.memory t.channel t.head t.limit budget visited d missing =
      .error fault := by
  unfold gatherFrom
  dsimp only
  rw [← hgives.length_eq, Memory.read_of_inRange hgives.inRange]
  show (if length = missing then _ else _) = _
  rw [if_neg hincomplete, hlink]
  cases hnext : t.address (i + 1) with
  | none =>
      rw [arrival?, hnext, if_pos (Or.inl rfl), ← hmissing] at harrival
      cases harrival
      rfl
  | some following =>
      simp only [arrival?, hnext, reduceCtorEq, false_or, ← hvisited following, ← hmissing,
        Option.bind_some] at harrival
      show (if following ∈ visited then _ else _) = _
      by_cases hrevisit : following ∈ visited
      · rw [if_pos hrevisit] at harrival ⊢
        cases harrival
        rfl
      · rw [if_neg hrevisit] at harrival ⊢
        cases budget with
        | zero =>
            rw [if_pos (by omega)] at harrival
            cases harrival
            rfl
        | succ budget =>
            rw [if_neg (by omega)] at harrival
            dsimp only
            rw [ownedAt_of_unusable harrival]
            rfl

/-- The result of a walk from the `i`-th descriptor on that comes to its end at the `m`-th. -/
inductive StopsAt (t : GatherTask) (i m : Nat) : Except DmaFault Gathered → Prop
  | obstructed {fault : DmaFault} (obstacle : t.obstacle? m = some fault) :
      StopsAt t i m (.error fault)
  | complete {g : Gathered} (clear : t.obstacle? m = none)
      (gathered_eq : t.gathered (m + 1) = t.length)
      (descriptors_eq : g.descriptors.map some = (List.range' i (m + 1 - i)).map t.descriptor?)
      (frame_eq : g.frame = (List.range' i (m + 1 - i)).flatMap t.slice) : StopsAt t i m (.ok g)

/-- The descriptor before a walk comes first in what it gathers. -/
theorem StopsAt.cons {m : Nat} {d : TransmitDescriptor} {result : Except DmaFault Gathered}
    (h : t.StopsAt (i + 1) m result) (him : i + 1 ≤ m) (hd : t.descriptor? i = some d) :
    t.StopsAt i m (result.map fun tail => ⟨d, tail.descriptors, t.slice i ++ tail.frame⟩) := by
  cases h with
  | obstructed obstacle => exact .obstructed obstacle
  | @complete g clear gathered_eq descriptors_eq frame_eq =>
      have hcount : m + 1 - i = (m + 1 - (i + 1)) + 1 := by omega
      refine .complete clear gathered_eq ?_ ?_
      · rw [hcount, List.range'_succ, List.map_cons, hd, ← descriptors_eq,
          Gathered.descriptors_mk, List.map_cons]
      · rw [hcount, List.range'_succ, List.flatMap_cons, ← frame_eq]

/-- **What one step of the walk does** at a descriptor to which it has come.  It stops there, at an
obstacle or because the packet is complete; or it stops on the way to the next descriptor; or it
comes to the next descriptor and goes on from there. -/
theorem gatherFrom_cases (hbudget : i + 1 + budget = max 1 t.limit)
    (harrival : t.arrival? i = none) (haddress : t.address i = some a)
    (hvisited : ∀ b, b ∈ visited ↔ ∃ j < i + 1, t.address j = some b) :
    t.StopsAt i i (gatherFrom t.ram t.memory t.channel t.head t.limit budget visited
      (t.ram.transmitAt a) (t.length - t.gathered i)) ∨
    t.Passes i ∧
      (t.StopsAt i (i + 1) (gatherFrom t.ram t.memory t.channel t.head t.limit budget visited
        (t.ram.transmitAt a) (t.length - t.gathered i)) ∨
      ∃ rest following, budget = rest + 1 ∧ t.address (i + 1) = some following ∧
        t.arrival? (i + 1) = none ∧
        gatherFrom t.ram t.memory t.channel t.head t.limit budget visited (t.ram.transmitAt a)
            (t.length - t.gathered i) =
          (gatherFrom t.ram t.memory t.channel t.head t.limit rest (following :: visited)
            (t.ram.transmitAt following) (t.length - t.gathered (i + 1))).map fun tail =>
              ⟨t.ram.transmitAt a, tail.descriptors, t.slice i ++ tail.frame⟩) := by
  cases houtside : t.outside? i with
  | some fault =>
      rw [gatherFrom_of_outside haddress houtside]
      refine Or.inl (.obstructed ?_)
      rw [obstacle?, harrival, Option.none_or, houtside]
  | none =>
      have hclear : t.obstacle? i = none := by
        rw [obstacle?, harrival, Option.none_or, houtside]
      obtain ⟨b, hb, -, -, -, howned⟩ := arrival?_eq_none_iff.1 harrival
      cases haddress.symm.trans hb
      have hgives : (t.ram.transmitAt a).GivesAt t.ram t.memory a (t.length - t.gathered i)
          (t.given i) := ⟨howned, (outside?_eq_none_iff haddress).1 houtside, given_eq haddress⟩
      have hle := t.gathered_le i
      have hgiven := t.given_le i
      have hsucc := t.gathered_succ i
      by_cases hcomplete : t.gathered (i + 1) = t.length
      · have hlast : t.given i = t.length - t.gathered i := by omega
        rw [← hlast] at hgives ⊢
        rw [gatherFrom_of_last hgives]
        refine Or.inl (.complete hclear hcomplete ?_ ?_)
        · rw [Nat.add_sub_cancel_left, List.range'_one, List.map_singleton,
            descriptor?_eq haddress]
          rfl
        · rw [Nat.add_sub_cancel_left, List.range'_one, List.flatMap_singleton,
            slice_eq haddress]
      · have hincomplete : t.given i ≠ t.length - t.gathered i := by omega
        have hmissing : t.length - t.gathered i - t.given i = t.length - t.gathered (i + 1) := by
          omega
        have hlink := (address_succ haddress).symm
        refine Or.inr ⟨⟨hclear, hcomplete⟩, ?_⟩
        cases hnext : t.arrival? (i + 1) with
        | some fault =>
            rw [gatherFrom_of_arrival hbudget hvisited hgives hincomplete hmissing hlink hnext]
            refine Or.inl (.obstructed ?_)
            rw [obstacle?, hnext, Option.some_or]
        | none =>
            obtain ⟨following, hfollowing, -, hlimit, hfresh, howned'⟩ :=
              arrival?_eq_none_iff.1 hnext
            obtain ⟨rest, rfl⟩ : ∃ rest, budget = rest + 1 := ⟨budget - 1, by omega⟩
            have hunvisited : following ∉ visited := by
              rw [hvisited]
              rintro ⟨j, hj, heq⟩
              exact hfresh j hj heq
            refine Or.inr ⟨rest, following, rfl, hfollowing, rfl, ?_⟩
            rw [gatherFrom_of_more hgives hincomplete (hlink.trans hfollowing) hunvisited howned',
              hmissing, slice_eq haddress]

/-- **The walk follows the sequence up to where it stops**: at the first obstacle, with its fault,
or at the first descriptor that completes the packet, with what has been gathered up to there. -/
theorem gatherFrom_stops (hbudget : i + 1 + budget = max 1 t.limit)
    (harrival : t.arrival? i = none) (haddress : t.address i = some a)
    (hvisited : ∀ b, b ∈ visited ↔ ∃ j < i + 1, t.address j = some b) :
    ∃ m, i ≤ m ∧ (∀ j, i ≤ j → j < m → t.Passes j) ∧
      t.StopsAt i m (gatherFrom t.ram t.memory t.channel t.head t.limit budget visited
        (t.ram.transmitAt a) (t.length - t.gathered i)) := by
  -- the budget is what the limit leaves, and the visited descriptors are the sequence so far
  induction budget using Nat.strong_induction_on generalizing i a visited with
  | _ budget ih =>
      rcases gatherFrom_cases hbudget harrival haddress hvisited with
        hhere | ⟨hpasses, hnext | ⟨rest, following, rfl, hfollowing, harrival', hstep⟩⟩
      · exact ⟨i, Nat.le_refl i, fun j hij hj => absurd hj (by omega), hhere⟩
      · refine ⟨i + 1, Nat.le_succ i, ?_, hnext⟩
        intro j hij hj
        obtain rfl : j = i := by omega
        exact hpasses
      · obtain ⟨m, him, hbefore, hstops⟩ := ih rest (Nat.lt_succ_self rest) (by omega) harrival'
          hfollowing (mem_visited_succ hfollowing hvisited)
        rw [hstep]
        refine ⟨m, by omega, ?_, hstops.cons him (descriptor?_eq haddress)⟩
        intro j hij hj
        by_cases hji : j = i
        · subst hji
          exact hpasses
        · exact hbefore j (by omega) hj

end Steps

/-- A gathered frame is the result of the walk along the sequence. -/
theorem gather_stops (t : GatherTask) :
    ∃ m, (∀ j < m, t.Passes j) ∧
      t.StopsAt 0 m (gather t.ram t.memory t.channel t.head t.limit) := by
  cases hunusable : t.unusable? t.head with
  | some fault =>
      rw [gather, ownedAt_of_unusable hunusable]
      refine ⟨0, fun j hj => absurd hj (Nat.not_lt_zero j), .obstructed ?_⟩
      rw [obstacle?, arrival?, hunusable, Option.some_or, Option.some_or]
  | none =>
      rw [gather, ownedAt_eq_ok_iff.2 (unusable?_eq_none_iff.1 hunusable)]
      show ∃ m, _ ∧ t.StopsAt 0 m (if (t.ram.transmitAt t.head).packetLength = 0 then _ else _)
      by_cases hempty : (t.ram.transmitAt t.head).packetLength = 0
      · rw [if_pos hempty]
        have hlength : t.length = 0 := by rw [length, hempty]; rfl
        refine ⟨0, fun j hj => absurd hj (Nat.not_lt_zero j), .obstructed ?_⟩
        rw [obstacle?, arrival?, hunusable, if_pos hlength, Option.none_or, Option.some_or]
      · rw [if_neg hempty]
        have hlength : t.length ≠ 0 := fun hzero => hempty (UInt16.toNat.inj hzero)
        have harrival : t.arrival? 0 = none := by
          rw [arrival?, hunusable, if_neg hlength, Option.none_or]
        have hvisited : ∀ b, b ∈ [t.head] ↔ ∃ j < 0 + 1, t.address j = some b :=
          mem_visited_succ rfl (by simp)
        have hbudget : 0 + 1 + (t.limit - 1) = max 1 t.limit := by omega
        obtain ⟨m, -, hbefore, hstops⟩ := gatherFrom_stops hbudget harrival rfl hvisited
        rw [gathered_zero, Nat.sub_zero] at hstops
        exact ⟨m, fun j hj => hbefore j (Nat.zero_le j) hj, hstops⟩

/-! ### Gathering and its specification -/

/-- The pieces that the first descriptors give make up what has been gathered. -/
theorem length_flatMap_slice {k : Nat} (h : ∀ i < k, ∃ a, t.address i = some a) :
    ((List.range k).flatMap t.slice).length = t.gathered k := by
  induction k with
  | zero => rw [gathered_zero]; rfl
  | succ k ih =>
      obtain ⟨a, ha⟩ := h k (Nat.lt_succ_self k)
      rw [List.range_succ, List.flatMap_append, List.flatMap_singleton, List.length_append,
        ih fun i hi => h i (Nat.lt_succ_of_lt hi), slice_eq ha, Memory.length_bytes,
        gathered_succ]

/-- **Gathering is its declarative specification.**  A frame is gathered exactly when some
descriptors of the walk complete the packet; these descriptors are what has been gathered, and the
frame is what they give, one behind the other, as long as the packet.  Otherwise the fault is the
first obstacle that the walk meets. -/
theorem gather_meets_specification (t : GatherTask) :
    ((∃ g, gather t.ram t.memory t.channel t.head t.limit = .ok g) ↔ ∃ k, t.Completes k) ∧
    (∀ k, t.Completes k → ∃ g, gather t.ram t.memory t.channel t.head t.limit = .ok g ∧
      g.descriptors.map some = (List.range k).map t.descriptor? ∧
      g.frame = (List.range k).flatMap t.slice ∧ g.frame.length = t.length) ∧
    ∀ fault, gather t.ram t.memory t.channel t.head t.limit = .error fault ↔
      ∃ m, t.FailsAt m fault := by
  obtain ⟨m, hbefore, hstops⟩ := t.gather_stops
  refine outcome_of_stops t.obstacle? (t.gathered · = t.length) (fun k hk => hk.pos)
    (fun _ => completes_succ_iff) (fun _ _ => failsAt_iff) hbefore ?_
  generalize gather t.ram t.memory t.channel t.head t.limit = result at hstops
  cases hstops with
  | @obstructed fault obstacle => exact Or.inl ⟨fault, rfl, obstacle⟩
  | @complete g clear gathered_eq descriptors_eq frame_eq =>
      rw [Nat.sub_zero, ← List.range_eq_range'] at descriptors_eq frame_eq
      have hcomplete := completes_succ_iff.2 ⟨hbefore, clear, gathered_eq⟩
      refine Or.inr ⟨g, rfl, clear, gathered_eq, descriptors_eq, frame_eq, ?_⟩
      rw [frame_eq, length_flatMap_slice hcomplete.exists_address, gathered_eq]

/-- A packet of five bytes is gathered from a buffer of two and the first three bytes of a buffer of
four.  With one descriptor allowed, the walk fails on the way to the second. -/
theorem packet_from_two_buffers :
    let s := (System.small.run [.writeMemory 0x100 [1, 2], .writeMemory 0x200 [3, 4, 5, 6],
      .writeRam 0x48486000 [0x48486010, 0x100, 2, 0x20000005, 0, 0x200, 4, 0x20000000]]).2
    let t : GatherTask := ⟨s.engine.ram, s.memory, 0, 0x48486000, 2⟩
    let u : GatherTask := { t with limit := 1 }
    t.Completes 2 ∧
    (∃ g, gather t.ram t.memory t.channel t.head t.limit = .ok g ∧
      g.descriptors.map some = (List.range 2).map t.descriptor? ∧ g.frame = [1, 2, 3, 4, 5]) ∧
    u.FailsAt 1 (.chain 0 (.walkLimit 1)) ∧
    gather u.ram u.memory u.channel u.head u.limit = .error (.chain 0 (.walkLimit 1)) := by
  intro s t u
  have hcompletes : t.Completes 2 := completes_succ_iff.2 (by decide +kernel)
  have hfails : u.FailsAt 1 (.chain 0 (.walkLimit 1)) := failsAt_iff.2 (by decide +kernel)
  obtain ⟨g, hgather, hdescriptors, hframe, -⟩ := (gather_meets_specification t).2.1 2 hcompletes
  have hpieces : (List.range 2).flatMap t.slice = [1, 2, 3, 4, 5] := by decide +kernel
  exact ⟨hcompletes, ⟨g, hgather, hdescriptors, hframe.trans hpieces⟩, hfails,
    ((gather_meets_specification u).2.2 _).2 ⟨1, hfails⟩⟩

end GatherTask

end PacketDma
