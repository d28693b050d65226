/-
**What a fill plan is.**

`PacketDma.planFill` walks a ring with a budget and a list of visited descriptors.  This module says
what it finds without either: a chain of segments, each of which is what its descriptor takes of the
bytes still missing, linked by the next pointers, and ending where nothing is missing any more.  The
budget and the visited list only decide whether the chain is accepted.

Main definitions:

* `PacketDma.Segment.TakenAt` — what a descriptor takes of a frame;
* `PacketDma.FillWalk` — a chain of segments that places a part of a frame.

Main results:

* `PacketDma.planFill_eq_ok_iff` — **a plan is a chain of distinct descriptors within the limit**;
* `PacketDma.FillWalk.flatMap_part` — the segments of a chain cut the frame into consecutive pieces.
-/

import Mathlib.Algebra.Ring.Nat
import PacketDma.Chain.Fill
import PacketDma.Proofs.SlotView

set_option autoImplicit false

namespace PacketDma

/-- The descriptor at `address` belongs to the engine and takes `s` of a frame of which `missing`
bytes from position `offset` on are still to be placed. -/
structure Segment.TakenAt (ram : Aperture) (memory : Memory) (address : UInt32)
    (offset missing : Nat) (s : Segment) : Prop where
  covered : ram.CoversSlot address
  descriptor_eq : s.descriptor = .ofSlot address (ram.slotAt address)
  owned : s.descriptor.isOwned = true
  inRange : InRange memory.size s.descriptor.dataAddress s.length
  offset_eq : s.offset = offset
  length_eq : s.length = min s.descriptor.bufferLength.toNat missing

/-- A receive descriptor can be decoded exactly where its slot lies inside the RAM. -/
theorem ReceiveDescriptor.decode_eq_ok_iff {ram : Aperture} {address : UInt32}
    {d : ReceiveDescriptor} :
    decode ram address = .ok d ↔ ram.CoversSlot address ∧ d = ofSlot address (ram.slotAt address) := by
  constructor
  · intro h
    cases hread : ram.readSlot address with
    | error cause =>
        rw [decode, hread] at h
        cases h
    | ok s =>
        obtain ⟨hcovers, rfl⟩ := Aperture.readSlot_eq_ok_iff.1 hread
        rw [decode, hread] at h
        exact ⟨hcovers, (Except.ok.inj h).symm⟩
  · rintro ⟨hcovers, rfl⟩
    rw [decode, Aperture.readSlot_of_covers hcovers]
    rfl

namespace Segment.TakenAt

variable {ram : Aperture} {memory : Memory} {address : UInt32} {offset missing : Nat} {s : Segment}

theorem address_eq (h : s.TakenAt ram memory address offset missing) :
    s.descriptor.address = address := by
  rw [h.descriptor_eq, ReceiveDescriptor.address_ofSlot]

theorem length_le (h : s.TakenAt ram memory address offset missing) : s.length ≤ missing := by
  rw [h.length_eq]
  exact Nat.min_le_right ..

theorem length_le_buffer (h : s.TakenAt ram memory address offset missing) :
    s.length ≤ s.descriptor.bufferLength.toNat := by
  rw [h.length_eq]
  exact Nat.min_le_left ..

end Segment.TakenAt

/-- One step of the walk succeeds exactly with what the descriptor takes. -/
theorem segmentAt_eq_ok_iff {ram : Aperture} {memory : Memory} {channel : Nat} {address : UInt32}
    {offset missing : Nat} {s : Segment} :
    segmentAt ram memory channel address offset missing = .ok s ↔
      s.TakenAt ram memory address offset missing := by
  constructor
  · intro h
    cases hdecode : ReceiveDescriptor.decode ram address with
    | error fault =>
        rw [segmentAt, hdecode] at h
        cases h
    | ok d =>
        obtain ⟨hcovers, rfl⟩ := ReceiveDescriptor.decode_eq_ok_iff.1 hdecode
        rw [segmentAt, hdecode] at h
        change (if _ then _ else _) = _ at h
        split at h
        · next howned =>
            by_cases hrange : InRange memory.size
                (ReceiveDescriptor.ofSlot address (ram.slotAt address)).dataAddress
                (min (ReceiveDescriptor.ofSlot address (ram.slotAt address)).bufferLength.toNat
                  missing)
            · rw [Memory.check_of_inRange hrange] at h
              cases h
              exact ⟨hcovers, rfl, howned, hrange, rfl, rfl⟩
            · rw [Memory.check_of_not hrange] at h
              cases h
        · cases h
  · rintro ⟨hcovers, hdescriptor, howned, hrange, rfl, hlength⟩
    rw [segmentAt, ReceiveDescriptor.decode_eq_ok_iff.2 ⟨hcovers, hdescriptor⟩]
    show (if s.descriptor.isOwned then _ else _) = _
    rw [if_pos howned, ← hlength, Memory.check_of_inRange hrange]
    rfl

/-- One step of the walk fails because the descriptor belongs to software, or because a range lies
outside its memory. -/
theorem segmentAt_fault {ram : Aperture} {memory : Memory} {channel : Nat} {address : UInt32}
    {offset missing : Nat} {fault : DmaFault}
    (h : segmentAt ram memory channel address offset missing = .error fault) :
    (∃ a, fault = .overrun channel a) ∨ ∃ cause, fault = .outOfRange cause := by
  have hlift : ∀ {α : Type} {result : Except MemoryFault α},
      liftMemory result = .error fault → ∃ cause, fault = .outOfRange cause := by
    intro α result hresult
    cases result with
    | ok a => cases hresult
    | error cause => exact ⟨cause, (Except.error.inj hresult).symm⟩
  cases hdecode : ReceiveDescriptor.decode ram address with
  | error cause =>
      rw [segmentAt, hdecode] at h
      cases h
      exact Or.inr (hlift hdecode)
  | ok d =>
      rw [segmentAt, hdecode] at h
      change (if _ then _ else _) = _ at h
      split at h
      · cases hcheck : liftMemory (memory.check d.dataAddress (min d.bufferLength.toNat missing)) with
        | error cause =>
            rw [hcheck] at h
            cases h
            exact Or.inr (hlift hcheck)
        | ok u =>
            rw [hcheck] at h
            cases h
      · exact Or.inl ⟨address, (Except.error.inj h).symm⟩

/-- A descriptor inside the RAM that belongs to software is an overrun. -/
theorem segmentAt_of_not_owned {ram : Aperture} {memory : Memory} {channel : Nat}
    {address : UInt32} {offset missing : Nat} (hcovers : ram.CoversSlot address)
    (howned : (ReceiveDescriptor.ofSlot address (ram.slotAt address)).isOwned = false) :
    segmentAt ram memory channel address offset missing = .error (.overrun channel address) := by
  rw [segmentAt, ReceiveDescriptor.decode_eq_ok_iff.2 ⟨hcovers, rfl⟩]
  show (if _ then _ else _) = _
  rw [howned]
  rfl

/-- The segments, linked by the next pointers from `address` on, that place the `missing` bytes from
position `offset` of a frame, and the descriptor behind the last of them. -/
inductive FillWalk (ram : Aperture) (memory : Memory) (head : UInt32) :
    UInt32 → Nat → Nat → List Segment → Option UInt32 → Prop
  | last {address : UInt32} {offset missing : Nat} {s : Segment}
      (taken : s.TakenAt ram memory address offset missing) (complete : s.length = missing) :
      FillWalk ram memory head address offset missing [s] (nextDescriptor s.descriptor.next head)
  | more {address following : UInt32} {offset missing : Nat} {s : Segment} {rest : List Segment}
      {next : Option UInt32} (taken : s.TakenAt ram memory address offset missing)
      (incomplete : s.length ≠ missing)
      (link : nextDescriptor s.descriptor.next head = some following)
      (walk : FillWalk ram memory head following (offset + s.length) (missing - s.length) rest
        next) :
      FillWalk ram memory head address offset missing (s :: rest) next

namespace FillWalk

variable {ram : Aperture} {memory : Memory} {head address : UInt32} {offset missing : Nat}
  {segments : List Segment} {next : Option UInt32}

theorem ne_nil (h : FillWalk ram memory head address offset missing segments next) :
    segments ≠ [] := by
  cases h <;> exact List.cons_ne_nil _ _

/-- The first segment of a chain is that of the descriptor at its address. -/
theorem exists_cons (h : FillWalk ram memory head address offset missing segments next) :
    ∃ s rest, segments = s :: rest ∧ s.descriptor.address = address := by
  cases h with
  | last taken complete => exact ⟨_, _, rfl, taken.address_eq⟩
  | more taken incomplete link walk => exact ⟨_, _, rfl, taken.address_eq⟩

/-- Every segment of a chain is what its own descriptor takes. -/
theorem exists_takenAt (h : FillWalk ram memory head address offset missing segments next) :
    ∀ s ∈ segments, ∃ o m, s.TakenAt ram memory s.descriptor.address o m := by
  induction h with
  | last taken complete =>
      intro s hs
      rcases List.mem_singleton.1 hs with rfl
      exact ⟨_, _, taken.address_eq ▸ taken⟩
  | more taken incomplete link walk ih =>
      intro s hs
      rcases List.mem_cons.1 hs with rfl | hs
      · exact ⟨_, _, taken.address_eq ▸ taken⟩
      · exact ih s hs

/-- The segments of a chain take what is missing and no more. -/
theorem sum_length (h : FillWalk ram memory head address offset missing segments next) :
    (segments.map (·.length)).sum = missing := by
  induction h with
  | last taken complete => simpa using complete
  | more taken incomplete link walk ih =>
      have hle := taken.length_le
      rw [List.map_cons, List.sum_cons, ih]
      omega

/-- The part of a segment is as long as the segment says. -/
theorem length_part (h : FillWalk ram memory head address offset missing segments next)
    (frame : List UInt8) (hframe : offset + missing = frame.length) :
    ∀ s ∈ segments, (s.part frame).length = s.length := by
  induction h with
  | last taken complete =>
      intro s hs
      rcases List.mem_singleton.1 hs with rfl
      rw [Segment.part, List.length_take, List.length_drop, taken.offset_eq]
      omega
  | more taken incomplete link walk ih =>
      intro s hs
      have hle := taken.length_le
      rcases List.mem_cons.1 hs with rfl | hs
      · rw [Segment.part, List.length_take, List.length_drop, taken.offset_eq]
        omega
      · exact ih (by omega) s hs

/-- **The segments of a chain cut the frame into consecutive pieces.** -/
theorem flatMap_part (h : FillWalk ram memory head address offset missing segments next)
    (frame : List UInt8) (hframe : offset + missing = frame.length) :
    segments.flatMap (·.part frame) = frame.drop offset := by
  induction h with
  | last taken complete =>
      rw [List.flatMap_singleton, Segment.part, taken.offset_eq, complete]
      exact List.take_of_length_le (by rw [List.length_drop]; omega)
  | more taken incomplete link walk ih =>
      have hle := taken.length_le
      rw [List.flatMap_cons, ih (by omega), Segment.part, taken.offset_eq, ← List.drop_drop]
      exact List.take_append_drop _ _

/-- The descriptor behind a chain is the one behind its last segment. -/
theorem exists_last (h : FillWalk ram memory head address offset missing segments next) :
    ∃ last, segments.getLast? = some last ∧ next = nextDescriptor last.descriptor.next head := by
  induction h with
  | last taken complete => exact ⟨_, rfl, rfl⟩
  | more taken incomplete link walk ih =>
      obtain ⟨last, hlast, hnext⟩ := ih
      refine ⟨last, ?_, hnext⟩
      rw [List.getLast?_cons, hlast, Option.getD_some]

end FillWalk

/-- What a step of the walk over a ring has led to when the walk succeeds. -/
theorem planFrom_succ_eq_ok {ram : Aperture} {memory : Memory} {channel : Nat} {head : UInt32}
    {budget : Nat} {visited : List UInt32} {address : UInt32} {offset missing : Nat}
    {plan : FillPlan}
    (h : planFrom ram memory channel head (budget + 1) visited address offset missing = .ok plan) :
    address ∉ visited ∧ ∃ s : Segment, s.TakenAt ram memory address offset missing ∧
      ((s.length = missing ∧ plan = ⟨s, [], nextDescriptor s.descriptor.next head⟩) ∨
        (s.length ≠ missing ∧ ∃ following rest,
          nextDescriptor s.descriptor.next head = some following ∧
          planFrom ram memory channel head budget (address :: visited) following
            (offset + s.length) (missing - s.length) = .ok rest ∧
          plan = ⟨s, rest.segments, rest.next⟩)) := by
  rw [planFrom] at h
  split at h
  · cases h
  · next hvisited =>
      refine ⟨hvisited, ?_⟩
      cases hsegment : segmentAt ram memory channel address offset missing with
      | error fault =>
          rw [hsegment] at h
          cases h
      | ok s =>
          rw [hsegment] at h
          refine ⟨s, segmentAt_eq_ok_iff.1 hsegment, ?_⟩
          change (if s.length = missing then _ else _) = _ at h
          split at h
          · next hcomplete =>
              cases h
              exact Or.inl ⟨hcomplete, rfl⟩
          · next hincomplete =>
              refine Or.inr ⟨hincomplete, ?_⟩
              cases hnext : nextDescriptor s.descriptor.next head with
              | none =>
                  simp only [hnext] at h
                  cases h
              | some following =>
                  simp only [hnext] at h
                  cases hrest : planFrom ram memory channel head budget (address :: visited)
                      following (offset + s.length) (missing - s.length) with
                  | error fault =>
                      rw [hrest] at h
                      cases h
                  | ok rest =>
                      rw [hrest] at h
                      cases h
                      exact ⟨following, rest, rfl, hrest, rfl⟩

theorem planFrom_of_last {ram : Aperture} {memory : Memory} {channel : Nat} {head : UInt32}
    {budget : Nat} {visited : List UInt32} {address : UInt32} {offset missing : Nat} {s : Segment}
    (hvisited : address ∉ visited) (htaken : s.TakenAt ram memory address offset missing)
    (hcomplete : s.length = missing) :
    planFrom ram memory channel head (budget + 1) visited address offset missing =
      .ok ⟨s, [], nextDescriptor s.descriptor.next head⟩ := by
  rw [planFrom, if_neg hvisited, segmentAt_eq_ok_iff.2 htaken]
  exact if_pos hcomplete

theorem planFrom_of_more {ram : Aperture} {memory : Memory} {channel : Nat} {head : UInt32}
    {budget : Nat} {visited : List UInt32} {address following : UInt32} {offset missing : Nat}
    {s : Segment} (hvisited : address ∉ visited)
    (htaken : s.TakenAt ram memory address offset missing) (hincomplete : s.length ≠ missing)
    (hnext : nextDescriptor s.descriptor.next head = some following) :
    planFrom ram memory channel head (budget + 1) visited address offset missing =
      (planFrom ram memory channel head budget (address :: visited) following
        (offset + s.length) (missing - s.length)).map fun rest => ⟨s, rest.segments, rest.next⟩ := by
  rw [planFrom, if_neg hvisited, segmentAt_eq_ok_iff.2 htaken]
  show (if s.length = missing then _ else _) = _
  rw [if_neg hincomplete, hnext]
  show (planFrom _ _ _ _ _ _ _ _ _ >>= fun rest => Except.ok _) = _
  cases planFrom ram memory channel head budget (address :: visited) following
    (offset + s.length) (missing - s.length) <;> rfl

/-- A walk ends without a plan where the list ends before the frame is complete. -/
theorem planFrom_of_end {ram : Aperture} {memory : Memory} {channel : Nat} {head : UInt32}
    {budget : Nat} {visited : List UInt32} {address : UInt32} {offset missing : Nat} {s : Segment}
    (hvisited : address ∉ visited) (htaken : s.TakenAt ram memory address offset missing)
    (hincomplete : s.length ≠ missing) (hnext : nextDescriptor s.descriptor.next head = none) :
    planFrom ram memory channel head (budget + 1) visited address offset missing =
      .error (.ringExhausted channel) := by
  rw [planFrom, if_neg hvisited, segmentAt_eq_ok_iff.2 htaken]
  show (if s.length = missing then _ else _) = _
  rw [if_neg hincomplete, hnext]

/-- A walk ends without a plan where a step fails. -/
theorem planFrom_of_fault {ram : Aperture} {memory : Memory} {channel : Nat} {head : UInt32}
    {budget : Nat} {visited : List UInt32} {address : UInt32} {offset missing : Nat}
    {fault : DmaFault} (hvisited : address ∉ visited)
    (hsegment : segmentAt ram memory channel address offset missing = .error fault) :
    planFrom ram memory channel head (budget + 1) visited address offset missing = .error fault := by
  rw [planFrom, if_neg hvisited, hsegment]
  rfl

/-- A walk fails because the list ends or comes back on itself, because a descriptor belongs to
software, or because a range lies outside its memory. -/
theorem planFrom_fault {ram : Aperture} {memory : Memory} {channel : Nat} {head : UInt32}
    {budget : Nat} {visited : List UInt32} {address : UInt32} {offset missing : Nat}
    {fault : DmaFault}
    (h : planFrom ram memory channel head budget visited address offset missing = .error fault) :
    fault = .ringExhausted channel ∨ (∃ a, fault = .overrun channel a) ∨
      ∃ cause, fault = .outOfRange cause := by
  induction budget generalizing visited address offset missing with
  | zero =>
      cases h
      exact Or.inl rfl
  | succ budget ih =>
      by_cases hvisited : address ∈ visited
      · rw [planFrom, if_pos hvisited] at h
        cases h
        exact Or.inl rfl
      · cases hsegment : segmentAt ram memory channel address offset missing with
        | error cause =>
            rw [planFrom_of_fault hvisited hsegment] at h
            cases h
            exact Or.inr (segmentAt_fault hsegment)
        | ok s =>
            have htaken := segmentAt_eq_ok_iff.1 hsegment
            by_cases hcomplete : s.length = missing
            · rw [planFrom_of_last hvisited htaken hcomplete] at h
              cases h
            · cases hnext : nextDescriptor s.descriptor.next head with
              | none =>
                  rw [planFrom_of_end hvisited htaken hcomplete hnext] at h
                  cases h
                  exact Or.inl rfl
              | some following =>
                  rw [planFrom_of_more hvisited htaken hcomplete hnext] at h
                  cases hrest : planFrom ram memory channel head budget (address :: visited)
                      following (offset + s.length) (missing - s.length) with
                  | error cause =>
                      rw [hrest] at h
                      cases h
                      exact ih hrest
                  | ok rest =>
                      rw [hrest] at h
                      cases h

/-- A walk succeeds exactly with a chain that fits its budget, meets no descriptor twice and none of
the visited ones. -/
theorem planFrom_eq_ok_iff {ram : Aperture} {memory : Memory} {channel : Nat} {head : UInt32}
    {budget : Nat} {visited : List UInt32} {address : UInt32} {offset missing : Nat}
    {plan : FillPlan} :
    planFrom ram memory channel head budget visited address offset missing = .ok plan ↔
      FillWalk ram memory head address offset missing plan.segments plan.next ∧
      plan.segments.length ≤ budget ∧ (plan.segments.map (·.descriptor.address)).Nodup ∧
      ∀ s ∈ plan.segments, s.descriptor.address ∉ visited := by
  -- the budget bounds the walk, and the visited descriptors grow along it
  induction budget generalizing visited address offset missing plan with
  | zero =>
      constructor
      · intro h
        cases h
      · rintro ⟨hwalk, hlength, -, -⟩
        exact absurd (List.length_eq_zero_iff.1 (Nat.le_zero.1 hlength)) hwalk.ne_nil
  | succ budget ih =>
      constructor
      · intro h
        obtain ⟨hvisited, s, htaken, hcases⟩ := planFrom_succ_eq_ok h
        rcases hcases with ⟨hcomplete, rfl⟩ | ⟨hincomplete, following, rest, hnext, hrest, rfl⟩
        · refine ⟨.last htaken hcomplete, by simp, by simp, ?_⟩
          intro t ht
          rcases List.mem_singleton.1 ht with rfl
          rwa [htaken.address_eq]
        · obtain ⟨hwalk, hlength, hnodup, hfresh⟩ := ih.1 hrest
          refine ⟨.more htaken hincomplete hnext hwalk, ?_, ?_, ?_⟩
          · simpa using hlength
          · rw [FillPlan.segments_mk, List.map_cons, List.nodup_cons]
            refine ⟨?_, hnodup⟩
            rw [htaken.address_eq]
            intro hmem
            obtain ⟨t, ht, haddress⟩ := List.mem_map.1 hmem
            exact hfresh t ht (by rw [haddress]; exact List.mem_cons_self ..)
          · intro t ht
            rcases List.mem_cons.1 ht with rfl | ht
            · rwa [htaken.address_eq]
            · exact fun hmem => hfresh t ht (List.mem_cons_of_mem _ hmem)
      · obtain ⟨first, rest, next⟩ := plan
        rintro ⟨hwalk, hlength, hnodup, hfresh⟩
        rw [FillPlan.segments_mk] at hwalk hlength hnodup hfresh
        cases hwalk with
        | last htaken hcomplete =>
            have hvisited := hfresh first (List.mem_cons_self ..)
            rw [htaken.address_eq] at hvisited
            exact planFrom_of_last hvisited htaken hcomplete
        | more htaken hincomplete hnext hwalk =>
            have hvisited := hfresh first (List.mem_cons_self ..)
            rw [htaken.address_eq] at hvisited
            rw [List.map_cons, List.nodup_cons, htaken.address_eq] at hnodup
            -- the rest of the chain stays fresh when the first descriptor has been visited
            obtain ⟨second, others, rfl⟩ := List.exists_cons_of_ne_nil hwalk.ne_nil
            have hlater : ∀ t ∈ second :: others, t.descriptor.address ∉ address :: visited := by
              intro t ht hmem
              rcases List.mem_cons.1 hmem with heq | hmem
              · exact hnodup.1 (heq ▸ List.mem_map_of_mem ht)
              · exact hfresh t (List.mem_cons_of_mem _ ht) hmem
            have hrest : planFrom ram memory channel head budget (address :: visited) _
                (offset + first.length) (missing - first.length) =
                  .ok ⟨second, others, next⟩ :=
              ih.2 ⟨hwalk, by simpa using hlength, hnodup.2, hlater⟩
            rw [planFrom_of_more hvisited htaken hincomplete hnext, hrest]
            rfl

/-- **A plan is a chain of distinct descriptors within the limit.** -/
theorem planFill_eq_ok_iff {ram : Aperture} {memory : Memory} {channel : Nat}
    {start head : UInt32} {length limit : Nat} {plan : FillPlan} :
    planFill ram memory channel start head length limit = .ok plan ↔
      FillWalk ram memory head start 0 length plan.segments plan.next ∧
      plan.segments.length ≤ limit ∧ (plan.segments.map (·.descriptor.address)).Nodup := by
  rw [planFill, planFrom_eq_ok_iff]
  simp

end PacketDma
