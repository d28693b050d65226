/-
**Which chunks are allocated.**

A chunked memory pays for what is written and for nothing else.  Along any sequence of accesses the
allocated chunks are those that a write has reached: a write that succeeds allocates the chunks of
its range, and no other access allocates any.  What no write has reached is zero, also in a chunk
that is allocated.

Main definitions:

* `PacketDma.Memory.Stores` — an access is a write that succeeds and reaches a position;
* `PacketDma.Memory.Covered` — some access of a sequence does.

Main results:

* `PacketDma.Memory.allocated_perform`, `PacketDma.Memory.allocated_run` — **what an access and a
  sequence of accesses allocate**;
* `PacketDma.Memory.byteAt_run_of_not_covered` — positions that no write reaches keep their bytes;
* `PacketDma.Sparse.exists_chunks` — the count of allocated chunks is the number of their indices;
* `PacketDma.Memory.allocated_chunks_are_written` — **exactly the chunks that are written are
  allocated**.
-/

import Mathlib.Algebra.Order.Floor.Div
import PacketDma.Proofs.DisjointWrites
import PacketDma.Proofs.MemoryRefinement

set_option autoImplicit false

namespace PacketDma

/-- Whether a position has room can be tested. -/
instance (m : Sparse) (i : Nat) : Decidable (m.Allocated i) :=
  inferInstanceAs (Decidable (_ = true))

instance : (m : Memory) → (i : Nat) → Decidable (m.Allocated i)
  | .dense _, _ => .isTrue trivial
  | .sparse store, i => inferInstanceAs (Decidable (store.Allocated i))

/-! ### Writes among the accesses -/

namespace Memory

variable {m : Memory} {access : MemoryAccess}

/-- The access is a write that succeeds, and it reaches position `i`. -/
def Stores (m : Memory) (access : MemoryAccess) (i : Nat) : Prop :=
  access.data?.isSome = true ∧ (m.perform access).1 = .ok .done ∧
    access.address.toNat ≤ i ∧ i < access.address.toNat + access.length

/-- A write that succeeds reaches position `i` in a sequence of accesses. -/
def Covered (m : Memory) (accesses : List MemoryAccess) (i : Nat) : Prop :=
  ∃ before access behind, accesses = before ++ access :: behind ∧
    (m.run before).2.Stores access i

theorem not_covered_nil (i : Nat) : ¬ m.Covered [] i := by
  rintro ⟨before, access, behind, h, -⟩
  exact absurd h.symm (by simp)

theorem covered_cons {rest : List MemoryAccess} {i : Nat} :
    m.Covered (access :: rest) i ↔ m.Stores access i ∨ (m.perform access).2.Covered rest i := by
  constructor
  · rintro ⟨before, other, behind, h, hstores⟩
    cases before with
    | nil =>
        obtain ⟨rfl, rfl⟩ := List.cons.inj h
        exact Or.inl hstores
    | cons first before =>
        obtain ⟨rfl, rfl⟩ := List.cons.inj h
        exact Or.inr ⟨before, other, behind, rfl, hstores⟩
  · rintro (hstores | ⟨before, other, behind, rfl, hstores⟩)
    · exact ⟨[], access, rest, rfl, hstores⟩
    · exact ⟨access :: before, other, behind, rfl, hstores⟩

/-! ### One access -/

/-- What an access is to a memory: a write with its effect, or nothing at all. -/
theorem perform_cases (m : Memory) (access : MemoryAccess) :
    (∃ bytes, access.data? = some bytes ∧
      m.Written access.address bytes (m.perform access).2 ∧
      ∀ i, m.Stores access i ↔ InWrite access.address bytes i) ∨
    ((m.perform access).2 = m ∧ ∀ i, ¬ m.Stores access i) := by
  cases hdata : access.data? with
  | none =>
      refine Or.inr ⟨perform_of_no_data hdata, fun i h => ?_⟩
      rw [Stores, hdata] at h
      exact absurd h.1 (by simp)
  | some bytes =>
      have hlength := MemoryAccess.length_of_data? hdata
      by_cases hrange : InRange m.size access.address access.length
      · have hinside : InRange m.size access.address bytes.length := hlength ▸ hrange
        obtain ⟨written, hwrite, -⟩ := write_of_inRange hinside
        have hperform : m.perform access = (.ok .done, written) := by
          rw [perform_of_data? hdata, hwrite]
          rfl
        refine Or.inl ⟨bytes, rfl, ?_, fun i => ?_⟩
        · rw [hperform]
          exact write_eq_ok_iff.1 hwrite
        · rw [Stores, hdata, hperform, hlength]
          exact ⟨fun h => h.2.2, fun h => ⟨rfl, rfl, h⟩⟩
      · have hrefused := perform_of_not hrange
        refine Or.inr ⟨by rw [hrefused], fun i h => ?_⟩
        have hdone := h.2.1
        rw [hrefused] at hdone
        cases hdone

/-- **What an access allocates**: room for the positions that it stores to. -/
theorem allocated_perform (m : Memory) (access : MemoryAccess) (i : Nat) :
    (m.perform access).2.Allocated i ↔
      m.Allocated i ∨ ∃ j, m.Stores access j ∧ m.shape.Together j i := by
  rcases m.perform_cases access with ⟨bytes, -, hwritten, hstores⟩ | ⟨hsame, hnone⟩
  · simp only [hwritten.allocated i, hstores]
  · rw [hsame]
    exact ⟨Or.inl, fun h => h.resolve_right fun ⟨j, hj, _⟩ => hnone j hj⟩

/-- A position that an access does not store to keeps its byte. -/
theorem byteAt_perform_of_not {i : Nat} (h : ¬ m.Stores access i) :
    (m.perform access).2.byteAt i = m.byteAt i := by
  rcases m.perform_cases access with ⟨bytes, -, hwritten, hstores⟩ | ⟨hsame, -⟩
  · rw [hwritten.byteAt i, if_neg fun hin => h ((hstores i).2 hin)]
  · rw [hsame]

/-- An access that stores no byte changes nothing at all. -/
theorem perform_of_no_store (h : ∀ i, ¬ m.Stores access i) : (m.perform access).2 = m := by
  rcases m.perform_cases access with ⟨bytes, -, hwritten, hstores⟩ | ⟨hsame, -⟩
  · have hout : ∀ i, ¬ InWrite access.address bytes i := fun i hin => h i ((hstores i).2 hin)
    refine ext_allocated hwritten.shape (fun i => ?_) fun i => ?_
    · rw [hwritten.byteAt i, if_neg (hout i)]
    · rw [hwritten.allocated i]
      exact ⟨fun hor => hor.resolve_right fun ⟨j, hj, _⟩ => hout j hj, Or.inl⟩
  · exact hsame

/-! ### Sequences of accesses -/

/-- **What a sequence of accesses allocates**: room for the positions that its writes reach. -/
theorem allocated_run (m : Memory) (accesses : List MemoryAccess) (i : Nat) :
    (m.run accesses).2.Allocated i ↔
      m.Allocated i ∨ ∃ j, m.Covered accesses j ∧ m.shape.Together j i := by
  induction accesses generalizing m with
  | nil =>
      refine ⟨Or.inl, fun h => h.resolve_right ?_⟩
      rintro ⟨j, hj, -⟩
      exact not_covered_nil j hj
  | cons access rest ih =>
      have hnext := ih (m.perform access).2
      rw [m.allocated_perform access, shape_perform, or_assoc] at hnext
      refine hnext.trans (or_congr_right ?_)
      simp only [covered_cons, or_and_right, exists_or]

/-- **Positions that no write reaches keep their bytes.** -/
theorem byteAt_run_of_not_covered {accesses : List MemoryAccess} {i : Nat}
    (h : ¬ m.Covered accesses i) : (m.run accesses).2.byteAt i = m.byteAt i := by
  induction accesses generalizing m with
  | nil => rfl
  | cons access rest ih =>
      rw [covered_cons, not_or] at h
      exact (ih h.2).trans (byteAt_perform_of_not h.1)

end Memory

/-! ### The number of chunks -/

namespace Sparse

/-- The count of allocated chunks is the number of their indices. -/
theorem exists_chunks (m : Sparse) :
    ∃ chunks : Finset Nat, (∀ c, c ∈ chunks ↔ (m.chunk? c).isSome = true) ∧
      m.allocatedChunks = chunks.card := by
  refine ⟨m.chunks.keys.toFinset, fun c => ?_, ?_⟩
  · rw [List.mem_toFinset, Std.ExtTreeMap.mem_keys, ← Std.ExtTreeMap.isSome_getElem?_iff_mem]
    rfl
  · rw [List.toFinset_card_of_nodup Std.ExtTreeMap.nodup_keys, Std.ExtTreeMap.length_keys]
    rfl

/-- There are at most as many as the size needs, rounded up to whole chunks. -/
theorem allocatedChunks_le (m : Sparse) : m.allocatedChunks ≤ m.size.toNat ⌈/⌉ m.chunkSize := by
  obtain ⟨chunks, hmem, hcard⟩ := m.exists_chunks
  have hpos := m.chunkSize_pos
  have hcount : chunkCount m.size m.chunkSize = m.size.toNat ⌈/⌉ m.chunkSize := by
    rw [chunkCount, Nat.ceilDiv_eq_add_pred_div, Nat.add_sub_assoc hpos]
  have hbelow : chunks ⊆ Finset.range (chunkCount m.size m.chunkSize) := by
    intro c hc
    rw [Finset.mem_range]
    by_contra hle
    have hsome := (hmem c).1 hc
    rw [chunk?, m.none_of_le c (Nat.not_lt.1 hle)] at hsome
    cases hsome
  calc m.allocatedChunks = chunks.card := hcard
    _ ≤ (Finset.range (chunkCount m.size m.chunkSize)).card := Finset.card_le_card hbelow
    _ = m.size.toNat ⌈/⌉ m.chunkSize := by rw [Finset.card_range, hcount]

end Sparse

namespace Memory

/-- A write that succeeds reaches an address of chunk `c`, where chunks have `chunkSize` bytes. -/
def CoversChunk (m : Memory) (accesses : List MemoryAccess) (chunkSize c : Nat) : Prop :=
  ∃ i, c * chunkSize ≤ i ∧ i < (c + 1) * chunkSize ∧ m.Covered accesses i

/-- The chunks of a memory that was built without any are those that have been reached. -/
theorem isSome_chunk?_iff {store last : Sparse} {accesses : List MemoryAccess}
    (hempty : ∀ c, store.chunk? c = none)
    (hlast : ((Memory.sparse store).run accesses).2 = .sparse last) (c : Nat) :
    (last.chunk? c).isSome = true ↔
      (Memory.sparse store).CoversChunk accesses store.chunkSize c := by
  have hchunk : last.chunkSize = store.chunkSize := by
    have hshape := shape_run (.sparse store) accesses
    rw [hlast] at hshape
    exact (MemoryShape.sparse.inj hshape).2
  have hpos := store.chunkSize_pos
  have hrun := allocated_run (.sparse store) accesses (store.chunkSize * c)
  rw [hlast] at hrun
  have hstart : ¬ (Memory.sparse store).Allocated (store.chunkSize * c) := by
    intro h
    rw [Allocated, Sparse.Allocated, hempty] at h
    cases h
  rw [← last.allocated_chunk c, hchunk]
  refine hrun.trans ((or_iff_right hstart).trans (exists_congr fun j => ?_))
  -- two positions get their room together if their quotients are the same
  show _ ∧ j / store.chunkSize = store.chunkSize * c / store.chunkSize ↔ _
  rw [Nat.mul_div_cancel_left _ hpos, Nat.div_eq_iff hpos]
  constructor
  · rintro ⟨hcovered, hle, hlt⟩
    exact ⟨hle, by rw [Nat.succ_mul]; omega, hcovered⟩
  · rintro ⟨hle, hlt, hcovered⟩
    exact ⟨hcovered, hle, by rw [Nat.succ_mul] at hlt; omega⟩

/-- **Exactly the chunks that are written are allocated.**  For every size, every size of chunks
with which a chunked memory can be built, and every sequence of accesses to the new memory, a chunk
is allocated if and only if a write that succeeded has reached one of its addresses; the count of
allocated chunks is the number of these chunks, and no more than the size needs.  Reads, range
checks, writes of no bytes and writes that are refused leave the memory as it is.  A byte that no
write has reached is zero, in an allocated chunk and in what a read returns. -/
theorem allocated_chunks_are_written {size : UInt64} {chunkSize : Nat} {store : Sparse}
    (h : Sparse.withChunkSize size chunkSize = .ok store) (accesses : List MemoryAccess) :
    ∃ last : Sparse,
      ((Memory.sparse store).run accesses).2 = .sparse last ∧
      last.size = size ∧ last.chunkSize = chunkSize ∧
      (∀ c, (last.chunk? c).isSome = true ↔
        (Memory.sparse store).CoversChunk accesses chunkSize c) ∧
      (∃ chunks : Finset Nat,
        (∀ c, c ∈ chunks ↔ (Memory.sparse store).CoversChunk accesses chunkSize c) ∧
        last.allocatedChunks = chunks.card) ∧
      last.allocatedChunks ≤ size.toNat ⌈/⌉ chunkSize ∧
      (∀ access : MemoryAccess,
        access.data? = none ∨ access.length = 0 ∨
          ¬ InRange size access.address access.length →
        ((Memory.sparse last).perform access).2 = .sparse last) ∧
      (∀ c chunk, last.chunk? c = some chunk → ∀ offset, offset < chunkSize →
        ¬ (Memory.sparse store).Covered accesses (chunkSize * c + offset) →
        chunk.byteAt offset = 0) ∧
      ∀ address : UInt64, address < size →
        ¬ (Memory.sparse store).Covered accesses address.toNat →
        ((Memory.sparse last).perform (.readUInt8 address)).1 = .ok (.byte 0) := by
  obtain ⟨rfl, rfl, hempty⟩ := Sparse.chunk?_of_withChunkSize h
  have hshape := shape_run (.sparse store) accesses
  cases hlast : ((Memory.sparse store).run accesses).2 with
  | dense last =>
      rw [hlast] at hshape
      cases hshape
  | sparse last =>
      rw [hlast] at hshape
      obtain ⟨hsize, hchunk⟩ := MemoryShape.sparse.inj hshape
      have hchunks := isSome_chunk?_iff hempty hlast
      have hzero : ∀ i, ¬ (Memory.sparse store).Covered accesses i → last.byteAt i = 0 := by
        intro i hi
        have hkept := byteAt_run_of_not_covered hi
        rw [hlast] at hkept
        refine hkept.trans ?_
        show store.chunkByte _ _ = 0
        rw [Sparse.chunkByte, hempty]
      refine ⟨last, rfl, hsize, hchunk, hchunks, ?_, ?_, ?_, ?_, ?_⟩
      · obtain ⟨chunks, hmem, hcard⟩ := last.exists_chunks
        exact ⟨chunks, fun c => (hmem c).trans (hchunks c), hcard⟩
      · rw [← hsize, ← hchunk]
        exact last.allocatedChunks_le
      · intro access hidle
        refine perform_of_no_store fun i hstores => ?_
        obtain ⟨hdata, hdone, hle, hlt⟩ := hstores
        rcases hidle with hnone | hlength | hrange
        · rw [hnone] at hdata
          cases hdata
        · omega
        · rw [perform_of_not (by rw [size_sparse, hsize]; exact hrange)] at hdone
          cases hdone
      · intro c chunk hget offset hoffset hi
        rw [← hchunk] at hoffset hi
        have hbyte := hzero _ hi
        rw [last.byteAt_chunk c hoffset, Sparse.chunkByte, hget] at hbyte
        exact hbyte
      · intro address hlt hi
        have hrange : InRange (Memory.sparse last).size address 1 := by
          rw [size_sparse, hsize]
          exact UInt64.lt_iff_toNat_lt.1 hlt
        have hread := read_of_inRange hrange
        show ((Memory.sparse last).readUInt8 address).map MemoryReply.byte = _
        rw [readUInt8_eq_map, hread]
        show Except.ok (MemoryReply.byte (UInt8.ofNat (LittleEndian.decode
          [last.byteAt address.toNat]))) = _
        rw [hzero _ hi]
        rfl

/-- Ten bytes in chunks of four: three bytes are written over a boundary, a longer write is refused,
and nothing is written at the end.  The last two of the three chunks are allocated. -/
theorem two_of_three_chunks_are_written :
    let accesses : List MemoryAccess :=
      [.write 6 [1, 2, 3], .write 3 [4, 5, 6, 7, 8, 9, 10, 11], .read 0 10, .write 10 []]
    ∃ store last : Sparse, Sparse.withChunkSize 10 4 = .ok store ∧
      ((Memory.sparse store).run accesses).2 = .sparse last ∧ last.allocatedChunks = 2 ∧
      ¬ (Memory.sparse store).CoversChunk accesses 4 0 ∧
      (Memory.sparse store).CoversChunk accesses 4 1 ∧
      (Memory.sparse store).CoversChunk accesses 4 2 := by
  intro accesses
  let store : Sparse := ⟨10, 4, by decide, ∅, fun _ _ => Std.ExtTreeMap.getElem?_empty⟩
  have hstore : Sparse.withChunkSize 10 4 = .ok store := rfl
  obtain ⟨last, hlast, -, hsize, hchunks, -⟩ := allocated_chunks_are_written hstore accesses
  have hrun : let m := ((Memory.sparse store).run accesses).2
      m.allocatedChunks? = some 2 ∧ ¬ m.Allocated 0 ∧ m.Allocated 4 ∧ m.Allocated 8 := by
    decide +kernel
  rw [hlast] at hrun
  obtain ⟨hcount, hfirst, hsecond, hthird⟩ := hrun
  have hcovers (c : Nat) :
      (Memory.sparse last).Allocated (4 * c) ↔
        (Memory.sparse store).CoversChunk accesses 4 c := by
    rw [← hchunks c, ← last.allocated_chunk c, hsize]
    rfl
  exact ⟨store, last, hstore, hlast, Option.some.inj hcount, fun h => hfirst ((hcovers 0).2 h),
    (hcovers 1).1 hsecond, (hcovers 2).1 hthird⟩

end Memory

end PacketDma
