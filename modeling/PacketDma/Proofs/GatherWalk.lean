/-
**What a gathered frame is.**

`PacketDma.gather` walks a chain with a budget and a list of visited descriptors.  This module says
what it finds without either: a chain of descriptors that belong to the engine, linked by their next
pointers, whose buffers hold the pieces of the frame, and which ends where nothing is missing any
more.

Main definitions:

* `PacketDma.TransmitDescriptor.GivesAt` — what a descriptor gives to a frame;
* `PacketDma.GatherWalk` — a chain of descriptors that gives a part of a frame.

Main results:

* `PacketDma.gather_eq_ok_iff` — **a gathered frame is a chain of distinct descriptors within the
  limit**.
-/

import PacketDma.Chain.Gather
import PacketDma.Proofs.SlotView

set_option autoImplicit false

namespace PacketDma

/-- The slot at `address` lies inside the RAM and holds `d`, which belongs to the engine. -/
structure TransmitDescriptor.OwnedAt (ram : Aperture) (address : UInt32)
    (d : TransmitDescriptor) : Prop where
  covered : ram.CoversSlot address
  descriptor_eq : d = .ofSlot address (ram.slotAt address)
  owned : d.isOwned = true

/-- The descriptor at `address` belongs to the engine and gives `length` bytes to a frame of which
`missing` bytes are still to be gathered. -/
structure TransmitDescriptor.GivesAt (ram : Aperture) (memory : Memory) (address : UInt32)
    (missing length : Nat) (d : TransmitDescriptor) : Prop extends d.OwnedAt ram address where
  inRange : InRange memory.size d.dataAddress length
  length_eq : length = min d.bufferLength.toNat missing

theorem TransmitDescriptor.OwnedAt.address_eq {ram : Aperture} {address : UInt32}
    {d : TransmitDescriptor} (h : d.OwnedAt ram address) : d.address = address := by
  rw [h.descriptor_eq, TransmitDescriptor.address_ofSlot]

/-- A transmit descriptor can be decoded exactly where its slot lies inside the RAM. -/
theorem TransmitDescriptor.decode_eq_ok_iff {ram : Aperture} {address : UInt32}
    {d : TransmitDescriptor} :
    decode ram address = .ok d ↔ ram.CoversSlot address ∧ d = ofSlot address (ram.slotAt address) := by
  constructor
  · intro h
    cases hread : ram.readSlot address with
    | error cause =>
        rw [decode, hread] at h
        cases h
    | ok s =>
        obtain ⟨hcovers, rfl⟩ := Aperture.readSlot_eq_ok_iff.1 hread
        rw [decode, hread] at h
        exact ⟨hcovers, (Except.ok.inj h).symm⟩
  · rintro ⟨hcovers, rfl⟩
    rw [decode, Aperture.readSlot_of_covers hcovers]
    rfl

theorem ownedAt_eq_ok_iff {ram : Aperture} {channel : Nat} {address : UInt32}
    {d : TransmitDescriptor} : ownedAt ram channel address = .ok d ↔ d.OwnedAt ram address := by
  constructor
  · intro h
    cases hdecode : TransmitDescriptor.decode ram address with
    | error fault =>
        rw [ownedAt, hdecode] at h
        cases h
    | ok e =>
        obtain ⟨hcovers, heq⟩ := TransmitDescriptor.decode_eq_ok_iff.1 hdecode
        rw [ownedAt, hdecode] at h
        change (if _ then _ else _) = _ at h
        split at h
        · next howned =>
            cases h
            exact ⟨hcovers, heq, howned⟩
        · cases h
  · rintro ⟨hcovers, heq, howned⟩
    rw [ownedAt, TransmitDescriptor.decode_eq_ok_iff.2 ⟨hcovers, heq⟩]
    show (if d.isOwned then _ else _) = _
    rw [if_pos howned]
    rfl

/-- The descriptors, linked by the next pointers from `address` on, that give `missing` bytes, and
these bytes. -/
inductive GatherWalk (ram : Aperture) (memory : Memory) (head : UInt32) :
    UInt32 → Nat → List TransmitDescriptor → Frame → Prop
  | last {address : UInt32} {missing : Nat} {d : TransmitDescriptor}
      (gives : d.GivesAt ram memory address missing missing) :
      GatherWalk ram memory head address missing [d] (memory.bytes d.dataAddress missing)
  | more {address following : UInt32} {missing length : Nat} {d : TransmitDescriptor}
      {rest : List TransmitDescriptor} {tail : Frame}
      (gives : d.GivesAt ram memory address missing length) (incomplete : length ≠ missing)
      (link : nextDescriptor d.next head = some following)
      (walk : GatherWalk ram memory head following (missing - length) rest tail) :
      GatherWalk ram memory head address missing (d :: rest)
        (memory.bytes d.dataAddress length ++ tail)

namespace GatherWalk

variable {ram : Aperture} {memory : Memory} {head address : UInt32} {missing : Nat}
  {descriptors : List TransmitDescriptor} {frame : Frame}

/-- The first descriptor of a chain is the one at its address. -/
theorem exists_cons (h : GatherWalk ram memory head address missing descriptors frame) :
    ∃ d rest, descriptors = d :: rest ∧ d.OwnedAt ram address := by
  cases h with
  | last gives => exact ⟨_, _, rfl, gives.toOwnedAt⟩
  | more gives incomplete link walk => exact ⟨_, _, rfl, gives.toOwnedAt⟩

/-- Every descriptor of a chain lies inside the RAM and belongs to the engine. -/
theorem ownedAt (h : GatherWalk ram memory head address missing descriptors frame) :
    ∀ d ∈ descriptors, d.OwnedAt ram d.address := by
  induction h with
  | last gives =>
      intro d hd
      rcases List.mem_singleton.1 hd with rfl
      exact gives.address_eq ▸ gives.toOwnedAt
  | more gives incomplete link walk ih =>
      intro d hd
      rcases List.mem_cons.1 hd with rfl | hd
      · exact gives.address_eq ▸ gives.toOwnedAt
      · exact ih d hd

/-- A chain gives what is missing and no more. -/
theorem length_frame (h : GatherWalk ram memory head address missing descriptors frame) :
    frame.length = missing := by
  induction h with
  | last gives => exact Memory.length_bytes ..
  | more gives incomplete link walk ih =>
      have hle := gives.length_eq
      rw [List.length_append, Memory.length_bytes, ih]
      omega

end GatherWalk

/-! ### The walker -/

section Steps

variable {ram : Aperture} {memory : Memory} {channel : Nat} {head address following : UInt32}
  {limit budget missing length : Nat} {visited : List UInt32} {d successor : TransmitDescriptor}

/-- The walk ends at the descriptor that completes the frame. -/
theorem gatherFrom_of_last (hgives : d.GivesAt ram memory address missing missing) :
    gatherFrom ram memory channel head limit budget visited d missing =
      .ok ⟨d, [], memory.bytes d.dataAddress missing⟩ := by
  unfold gatherFrom
  dsimp only
  rw [← hgives.length_eq, Memory.read_of_inRange hgives.inRange]
  show (if missing = missing then _ else _) = _
  rw [if_pos rfl]
  rfl

/-- The walk goes on behind a descriptor that does not complete the frame. -/
theorem gatherFrom_of_more (hgives : d.GivesAt ram memory address missing length)
    (hincomplete : length ≠ missing) (hlink : nextDescriptor d.next head = some following)
    (hfresh : following ∉ visited) (hsuccessor : successor.OwnedAt ram following) :
    gatherFrom ram memory channel head limit (budget + 1) visited d missing =
      (gatherFrom ram memory channel head limit budget (following :: visited) successor
        (missing - length)).map fun tail =>
          ⟨d, tail.descriptors, memory.bytes d.dataAddress length ++ tail.frame⟩ := by
  rw [gatherFrom]
  dsimp only
  rw [← hgives.length_eq, Memory.read_of_inRange hgives.inRange]
  show (if length = missing then _ else _) = _
  rw [if_neg hincomplete, hlink]
  show (if following ∈ visited then _ else _) = _
  rw [if_neg hfresh, ownedAt_eq_ok_iff.2 hsuccessor]
  show (gatherFrom _ _ _ _ _ _ _ _ _ >>= fun tail => Except.ok _) = _
  cases gatherFrom ram memory channel head limit budget (following :: visited) successor
    (missing - length) <;> rfl

/-- What a step of the walk has led to when the walk succeeds. -/
theorem gatherFrom_eq_ok {g : Gathered} (howned : d.OwnedAt ram address)
    (h : gatherFrom ram memory channel head limit budget visited d missing = .ok g) :
    (d.GivesAt ram memory address missing missing ∧
        g = ⟨d, [], memory.bytes d.dataAddress missing⟩) ∨
      ∃ length following successor tail rest, d.GivesAt ram memory address missing length ∧
        length ≠ missing ∧ nextDescriptor d.next head = some following ∧ following ∉ visited ∧
        successor.OwnedAt ram following ∧ budget = rest + 1 ∧
        gatherFrom ram memory channel head limit rest (following :: visited) successor
          (missing - length) = .ok tail ∧
        g = ⟨d, tail.descriptors, memory.bytes d.dataAddress length ++ tail.frame⟩ := by
  by_cases hrange : InRange memory.size d.dataAddress (min d.bufferLength.toNat missing)
  · have hgives : d.GivesAt ram memory address missing (min d.bufferLength.toNat missing) :=
      ⟨howned, hrange, rfl⟩
    by_cases hcomplete : min d.bufferLength.toNat missing = missing
    · rw [hcomplete] at hgives
      rw [gatherFrom_of_last hgives] at h
      exact Or.inl ⟨hgives, (Except.ok.inj h).symm⟩
    · refine Or.inr ?_
      unfold gatherFrom at h
      dsimp only at h
      rw [Memory.read_of_inRange hrange] at h
      change (if _ = missing then _ else _) = _ at h
      rw [if_neg hcomplete] at h
      cases hlink : nextDescriptor d.next head with
      | none =>
          rw [hlink] at h
          cases h
      | some following =>
          rw [hlink] at h
          change (if following ∈ visited then _ else _) = _ at h
          by_cases hfresh : following ∈ visited
          · rw [if_pos hfresh] at h
            cases h
          · rw [if_neg hfresh] at h
            cases budget with
            | zero => cases h
            | succ rest =>
                cases hsuccessor : PacketDma.ownedAt ram channel following with
                | error fault =>
                    rw [hsuccessor] at h
                    cases h
                | ok successor =>
                    rw [hsuccessor] at h
                    change (gatherFrom _ _ _ _ _ _ _ _ _ >>= fun tail => Except.ok _) = _ at h
                    cases htail : gatherFrom ram memory channel head limit rest
                        (following :: visited) successor
                        (missing - min d.bufferLength.toNat missing) with
                    | error fault =>
                        rw [htail] at h
                        cases h
                    | ok tail =>
                        rw [htail] at h
                        exact ⟨_, following, successor, tail, rest, hgives, hcomplete, rfl, hfresh,
                          ownedAt_eq_ok_iff.1 hsuccessor, rfl, htail,
                          (Except.ok.inj h).symm⟩
  · unfold gatherFrom at h
    dsimp only at h
    rw [Memory.read_of_not hrange] at h
    cases h

end Steps

/-- A chain of fresh descriptors that fits the budget is gathered. -/
theorem GatherWalk.gatherFrom_eq {ram : Aperture} {memory : Memory} {channel : Nat}
    {head address : UInt32} {limit budget missing : Nat} {visited : List UInt32}
    {descriptors : List TransmitDescriptor} {frame : Frame}
    (hwalk : GatherWalk ram memory head address missing descriptors frame)
    {d : TransmitDescriptor} {rest : List TransmitDescriptor} (heq : descriptors = d :: rest)
    (hlength : rest.length ≤ budget) (hnodup : (rest.map (·.address)).Nodup)
    (hfresh : ∀ e ∈ rest, e.address ∉ visited) :
    gatherFrom ram memory channel head limit budget visited d missing = .ok ⟨d, rest, frame⟩ := by
  induction hwalk generalizing budget visited d rest with
  | last gives =>
      cases heq
      exact gatherFrom_of_last gives
  | more gives incomplete link walk ih =>
      cases heq
      obtain ⟨successor, others, rfl, howned⟩ := walk.exists_cons
      cases budget with
      | zero => cases hlength
      | succ budget =>
          rw [List.map_cons, List.nodup_cons, howned.address_eq] at hnodup
          obtain ⟨hfirst, hothers⟩ := hnodup
          -- the walk reads the successor before it goes on, so that it has to be fresh here
          have hnext := hfresh successor (List.mem_cons_self ..)
          rw [howned.address_eq] at hnext
          rw [gatherFrom_of_more gives incomplete link hnext howned,
            ih rfl (Nat.le_of_succ_le_succ hlength) hothers fun e he => ?_]
          · rfl
          · intro hmem
            rcases List.mem_cons.1 hmem with hmem | hmem
            · exact hfirst (hmem ▸ List.mem_map_of_mem he)
            · exact hfresh e (List.mem_cons_of_mem _ he) hmem

/-- A gathered frame is a chain of fresh descriptors that fits the budget. -/
theorem walk_of_gatherFrom {ram : Aperture} {memory : Memory} {channel : Nat}
    {head address : UInt32} {limit budget missing : Nat} {visited : List UInt32}
    {d : TransmitDescriptor} {g : Gathered} (howned : d.OwnedAt ram address)
    (h : gatherFrom ram memory channel head limit budget visited d missing = .ok g) :
    g.first = d ∧ GatherWalk ram memory head address missing g.descriptors g.frame ∧
      g.rest.length ≤ budget ∧ (g.rest.map (·.address)).Nodup ∧
      ∀ e ∈ g.rest, e.address ∉ visited := by
  induction budget generalizing address missing visited d g with
  | zero =>
      rcases gatherFrom_eq_ok howned h with ⟨hgives, rfl⟩ | ⟨_, _, _, _, _, _, _, _, _, _, h, _⟩
      · exact ⟨rfl, .last hgives, Nat.le_refl _, .nil, fun _ he => absurd he List.not_mem_nil⟩
      · cases h
  | succ budget ih =>
      rcases gatherFrom_eq_ok howned h with
        ⟨hgives, rfl⟩ |
        ⟨length, following, successor, tail, rest, hgives, hincomplete, hlink, hfresh, hsuccessor,
          hbudget, htail, rfl⟩
      · exact ⟨rfl, .last hgives, Nat.zero_le _, .nil, fun _ he => absurd he List.not_mem_nil⟩
      · cases hbudget
        obtain ⟨hfirst, hwalk, hlength, hnodup, hothers⟩ := ih hsuccessor htail
        have haddress : tail.first.address = following := by
          rw [hfirst, hsuccessor.address_eq]
        refine ⟨rfl, .more hgives hincomplete hlink hwalk, Nat.succ_le_succ hlength, ?_, ?_⟩
        · refine List.nodup_cons.2 ⟨fun hmem => ?_, hnodup⟩
          obtain ⟨e, he, heq⟩ := List.mem_map.1 hmem
          exact hothers e he (heq.trans haddress ▸ List.mem_cons_self ..)
        · intro e he
          rcases List.mem_cons.1 he with rfl | he
          · rwa [haddress]
          · exact fun hmem => hothers e he (List.mem_cons_of_mem _ hmem)

/-- **A gathered frame is a chain of distinct descriptors within the limit**, as long as its first
descriptor says. -/
theorem gather_eq_ok_iff {ram : Aperture} {memory : Memory} {channel : Nat} {head : UInt32}
    {limit : Nat} {g : Gathered} :
    gather ram memory channel head limit = .ok g ↔
      0 < g.first.packetLength.toNat ∧
      GatherWalk ram memory head head g.first.packetLength.toNat g.descriptors g.frame ∧
      g.rest.length ≤ limit - 1 ∧ (g.descriptors.map (·.address)).Nodup := by
  constructor
  · intro h
    cases hfirst : ownedAt ram channel head with
    | error fault =>
        rw [gather, hfirst] at h
        cases h
    | ok d =>
        have howned := ownedAt_eq_ok_iff.1 hfirst
        rw [gather, hfirst] at h
        change (if d.packetLength = 0 then _ else _) = _ at h
        by_cases hempty : d.packetLength = 0
        · rw [if_pos hempty] at h
          cases h
        · rw [if_neg hempty] at h
          obtain ⟨heq, hwalk, hlength, hnodup, hfresh⟩ := walk_of_gatherFrom howned h
          rw [heq]
          refine ⟨Nat.pos_of_ne_zero fun hzero => hempty ?_, hwalk, hlength, ?_⟩
          · exact UInt16.toNat.inj hzero
          · refine List.nodup_cons.2 ⟨fun hmem => ?_, hnodup⟩
            obtain ⟨e, he, haddress⟩ := List.mem_map.1 hmem
            have hhead : e.address = head := by
              rw [← howned.address_eq, ← heq]
              exact haddress
            exact hfresh e he (hhead ▸ List.mem_cons_self ..)
  · rintro ⟨hpositive, hwalk, hlength, hnodup⟩
    obtain ⟨first, rest, frame⟩ := g
    obtain ⟨d, others, heq, howned⟩ := hwalk.exists_cons
    cases heq
    obtain ⟨hfirst, hothers⟩ := List.nodup_cons.1 hnodup
    have hnonempty : first.packetLength ≠ 0 := by
      intro hzero
      rw [hzero] at hpositive
      exact absurd hpositive (by decide)
    rw [gather, ownedAt_eq_ok_iff.2 howned]
    show (if first.packetLength = 0 then _ else _) = _
    rw [if_neg hnonempty]
    refine hwalk.gatherFrom_eq rfl hlength hothers fun e he hmem => ?_
    have haddress : e.address = first.address :=
      (List.mem_singleton.1 hmem).trans howned.address_eq.symm
    exact hfirst (List.mem_map.2 ⟨e, he, haddress⟩)

/-- The first descriptor of a gathered chain is the one at the head. -/
theorem first_of_gather {ram : Aperture} {memory : Memory} {channel : Nat} {head : UInt32}
    {limit : Nat} {g : Gathered} (h : gather ram memory channel head limit = .ok g) :
    g.first.OwnedAt ram head := by
  obtain ⟨-, hwalk, -, -⟩ := gather_eq_ok_iff.1 h
  obtain ⟨d, rest, hcons, howned⟩ := hwalk.exists_cons
  obtain ⟨rfl, -⟩ := List.cons.inj hcons
  exact howned

end PacketDma
