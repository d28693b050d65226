/-
**Chunked memory.**

The addresses are cut into chunks of one size.  A chunk is allocated when a byte in it is first
written; until then its bytes read as zero.  An access that crosses chunk boundaries is carried out
chunk by chunk.

Here there is room for every chunk, however large it is.  On a machine an allocation can be too
large: `PacketDma.Sparse.checkedWrite` is the write that may be stuck for that reason.

Main definitions:

* `PacketDma.Sparse` — a memory kept as a table of the allocated chunks;
* `PacketDma.Sparse.loadFrom`, `PacketDma.Sparse.storeFrom` — accesses cut at chunk boundaries;
* `PacketDma.Sparse.read`, `PacketDma.Sparse.write` — range-checked accesses;
* `PacketDma.Sparse.allocatedChunks` — how many chunks have been allocated;
* `PacketDma.Sparse.support` — the positions of the bytes that are not zero.

Main results:

* `PacketDma.Sparse.loadFrom_eq` — a chunkwise load returns the bytes of the view;
* `PacketDma.Sparse.storeFrom_of_le` — a chunkwise store inside the memory succeeds and replaces
  the bytes of its range;
* `PacketDma.Sparse.chunk?_storePart` — which chunk a store allocates.
-/

import PacketDma.Memory.Block
import PacketDma.Memory.Fault

set_option autoImplicit false

namespace PacketDma

/-- The number of chunks of `chunkSize` bytes that `size` bytes need. -/
def chunkCount (size : UInt64) (chunkSize : Nat) : Nat :=
  (size.toNat + (chunkSize - 1)) / chunkSize

/-- A memory of `size` bytes kept as a table of chunks, each allocated when it is first written. -/
structure Sparse where
  size : UInt64
  chunkSize : Nat
  chunkSize_pos : 0 < chunkSize
  /-- The allocated chunks, by number. -/
  chunks : Std.ExtTreeMap Nat (Block chunkSize)
  none_of_le : ∀ index : Nat, chunkCount size chunkSize ≤ index → chunks[index]? = none

namespace Sparse

/-- The chunk size used when none is asked for. -/
def defaultChunkSize : Nat := 65536

/-- The chunked memory of `size` zero bytes, with no chunk allocated.  Chunks have at least one
byte, and rounding the size up to whole chunks must not pass 64 bits.  Whether a chunk can ever be
allocated is not asked. -/
def withChunkSize (size : UInt64) (chunkSize : Nat) : Except MemoryFault Sparse :=
  if h : chunkSize = 0 then .error (.invalidChunkSize chunkSize)
  else if size.toNat + (chunkSize - 1) < UInt64.size then
    .ok ⟨size, chunkSize, Nat.pos_of_ne_zero h, ∅, fun _ _ => Std.ExtTreeMap.getElem?_empty⟩
  else .error (.sizeTooLarge size)

/-- The chunk with the given number, if it has been allocated. -/
def chunk? (m : Sparse) (index : Nat) : Option (Block m.chunkSize) := m.chunks[index]?

/-- How many chunks have been allocated. -/
def allocatedChunks (m : Sparse) : Nat := m.chunks.size

/-- The byte at `offset` in a chunk, zero if the chunk has not been allocated. -/
def chunkByte (m : Sparse) (index offset : Nat) : UInt8 :=
  match m.chunk? index with
  | some chunk => chunk.byteAt offset
  | none => 0

/-- The byte at position `i`. -/
def byteAt (m : Sparse) (i : Nat) : UInt8 := m.chunkByte (i / m.chunkSize) (i % m.chunkSize)

/-- The positions of the bytes that are not zero, lowest first. -/
def support (m : Sparse) : List Nat :=
  m.chunks.toList.flatMap fun (index, chunk) => chunk.support.map (m.chunkSize * index + ·)

/-- The number of bytes from `start` to the end of its chunk. -/
def room (m : Sparse) (start : Nat) : Nat := m.chunkSize - start % m.chunkSize

theorem room_pos (m : Sparse) (start : Nat) : 0 < m.room start :=
  Nat.sub_pos_of_lt (Nat.mod_lt start m.chunkSize_pos)

/-- The part of an access of `length` bytes at `start` that lies in the chunk of `start`. -/
def firstPart (m : Sparse) (start length : Nat) : Nat := min (m.room start) length

theorem firstPart_pos (m : Sparse) (start : Nat) {length : Nat} (h : length ≠ 0) :
    0 < m.firstPart start length := by
  have := m.room_pos start
  unfold firstPart
  omega

theorem firstPart_le (m : Sparse) (start length : Nat) : m.firstPart start length ≤ length :=
  Nat.min_le_right ..

/-- The bytes of one chunk, zero if it has not been allocated. -/
def loadPart (m : Sparse) (index offset length : Nat) : List UInt8 :=
  match m.chunk? index with
  | some chunk => chunk.load offset length
  | none => List.replicate length 0

/-- The `length` bytes from position `start` on, collected chunk by chunk. -/
def loadFrom (m : Sparse) (start length : Nat) : List UInt8 :=
  if _ : length = 0 then []
  else
    m.loadPart (start / m.chunkSize) (start % m.chunkSize) (m.firstPart start length) ++
      m.loadFrom (start + m.firstPart start length) (length - m.firstPart start length)
termination_by length
decreasing_by
  have := m.firstPart_pos start ‹¬length = 0›
  omega

/-- The chunk with the given number, a zero block if it has not been allocated. -/
def chunkAt (m : Sparse) (index : Nat) : Block m.chunkSize :=
  (m.chunk? index).getD (Block.zero m.chunkSize)

theorem none_of_le_insert (m : Sparse) {index : Nat}
    (h : index < chunkCount m.size m.chunkSize) (chunk : Block m.chunkSize) {other : Nat}
    (hother : chunkCount m.size m.chunkSize ≤ other) :
    (m.chunks.insert index chunk)[other]? = none := by
  rw [Std.ExtTreeMap.getElem?_insert, m.none_of_le other hother, if_neg]
  rw [Nat.compare_eq_eq]
  omega

/-- The memory with bytes of one chunk replaced; the chunk is allocated if it has not been yet, as
far as there is room for it. -/
def storePart (m : Sparse) (index offset : Nat) (bytes : List UInt8)
    (h : index < chunkCount m.size m.chunkSize) : Sparse :=
  { m with
    chunks := m.chunks.insert index ((m.chunkAt index).store offset bytes)
    none_of_le := fun _ => m.none_of_le_insert h _ }

/-- The memory with the bytes from position `start` on replaced, chunk by chunk.  A chunk outside
the table is a fault that names the part of the access in that chunk. -/
def storeFrom (m : Sparse) (start : Nat) (bytes : List UInt8) : Except MemoryFault Sparse :=
  if _ : bytes = [] then .ok m
  else
    let part := bytes.take (m.room start)
    if h : start / m.chunkSize < chunkCount m.size m.chunkSize then
      storeFrom (m.storePart (start / m.chunkSize) (start % m.chunkSize) part h)
        (start + part.length) (bytes.drop (m.room start))
    else .error (.outOfRange (UInt64.ofNat start) part.length m.size)
termination_by bytes.length
decreasing_by
  have := m.room_pos start
  have := mt List.length_eq_zero_iff.1 ‹¬bytes = []›
  rw [List.length_drop]
  omega

/-- The `length` bytes from `address` on. -/
def read (m : Sparse) (address : UInt64) (length : Nat) : Except MemoryFault (List UInt8) := do
  checkRange m.size address length
  return m.loadFrom address.toNat length

/-- The memory after `bytes` have been written from `address` on. -/
def write (m : Sparse) (address : UInt64) (bytes : List UInt8) : Except MemoryFault Sparse := do
  checkRange m.size address bytes.length
  m.storeFrom address.toNat bytes

/-- The memory with every byte zero and no chunk allocated. -/
def clear (m : Sparse) : Sparse :=
  { m with chunks := ∅, none_of_le := fun _ _ => Std.ExtTreeMap.getElem?_empty }

@[simp] theorem size_clear (m : Sparse) : m.clear.size = m.size := rfl

/-- A new chunked memory has no chunk. -/
theorem chunk?_of_withChunkSize {size : UInt64} {chunkSize : Nat} {store : Sparse}
    (h : withChunkSize size chunkSize = .ok store) :
    store.size = size ∧ store.chunkSize = chunkSize ∧ ∀ c, store.chunk? c = none := by
  unfold withChunkSize at h
  split at h
  · cases h
  · split at h
    · cases h
      exact ⟨rfl, rfl, fun c => Std.ExtTreeMap.getElem?_empty⟩
    · cases h

/-- A position inside the memory lies in a chunk of the table. -/
theorem div_lt_chunkCount (m : Sparse) {i : Nat} (h : i < m.size.toNat) :
    i / m.chunkSize < chunkCount m.size m.chunkSize := by
  have hpos := m.chunkSize_pos
  rw [chunkCount, Nat.div_lt_iff_lt_mul hpos]
  have hlt : m.size.toNat + (m.chunkSize - 1) <
      ((m.size.toNat + (m.chunkSize - 1)) / m.chunkSize + 1) * m.chunkSize :=
    Nat.lt_mul_of_div_lt (Nat.lt_succ_self _) hpos
  rw [Nat.succ_mul] at hlt
  omega

/-! ### Chunkwise loads return the bytes of the view -/

/-- Positions in the first part of an access share its chunk. -/
theorem div_eq_of_lt_firstPart (m : Sparse) {start length i : Nat}
    (h : i < m.firstPart start length) : (start + i) / m.chunkSize = start / m.chunkSize := by
  have hpos := m.chunkSize_pos
  have hsplit := Nat.div_add_mod start m.chunkSize
  have hlt : start % m.chunkSize + i < m.chunkSize := by
    have := Nat.mod_lt start hpos
    unfold firstPart room at h
    omega
  rw [show start + i = (start % m.chunkSize + i) + m.chunkSize * (start / m.chunkSize) by omega,
    Nat.add_mul_div_left _ _ hpos, Nat.div_eq_of_lt hlt, Nat.zero_add]

theorem mod_eq_of_lt_firstPart (m : Sparse) {start length i : Nat}
    (h : i < m.firstPart start length) :
    (start + i) % m.chunkSize = start % m.chunkSize + i := by
  have hpos := m.chunkSize_pos
  have hdiv := m.div_eq_of_lt_firstPart h
  have h₁ := Nat.div_add_mod start m.chunkSize
  have h₂ := Nat.div_add_mod (start + i) m.chunkSize
  rw [hdiv] at h₂
  omega

theorem loadPart_eq_map (m : Sparse) (index offset length : Nat) :
    m.loadPart index offset length = (List.range' offset length).map (m.chunkByte index) := by
  have hbyte : m.chunkByte index = fun offset => m.chunkByte index offset := rfl
  rw [hbyte]
  unfold loadPart chunkByte
  cases m.chunk? index with
  | some chunk => rfl
  | none => rw [List.map_const', List.length_range']

/-- The first part of an access, read from its chunk, holds the bytes of the view. -/
theorem loadPart_eq (m : Sparse) (start length : Nat) :
    m.loadPart (start / m.chunkSize) (start % m.chunkSize) (m.firstPart start length) =
      (List.range' start (m.firstPart start length)).map m.byteAt := by
  rw [loadPart_eq_map]
  apply List.ext_getElem
  · simp
  · intro i hi _
    have hlt : i < m.firstPart start length := by simpa using hi
    simp [byteAt, m.div_eq_of_lt_firstPart hlt, m.mod_eq_of_lt_firstPart hlt]

/-- **A chunkwise load returns the bytes of the view.** -/
theorem loadFrom_eq (m : Sparse) (start length : Nat) :
    m.loadFrom start length = (List.range' start length).map m.byteAt := by
  fun_induction loadFrom m start length with
  | case1 start => rfl
  | case2 start length h ih =>
      rw [ih, loadPart_eq, ← List.map_append]
      congr 1
      have := m.firstPart_le start length
      have hsum : length = m.firstPart start length + (length - m.firstPart start length) := by
        omega
      conv => rhs; rw [hsum]
      rw [← List.range'_append_1]

/-! ### Chunkwise stores change the bytes of the view -/

@[simp] theorem size_storePart (m : Sparse) (index offset : Nat) (bytes : List UInt8)
    (h : index < chunkCount m.size m.chunkSize) :
    (m.storePart index offset bytes h).size = m.size := rfl

@[simp] theorem chunkSize_storePart (m : Sparse) (index offset : Nat) (bytes : List UInt8)
    (h : index < chunkCount m.size m.chunkSize) :
    (m.storePart index offset bytes h).chunkSize = m.chunkSize := rfl

/-- A store into a chunk allocates that chunk and no other. -/
theorem chunk?_storePart (m : Sparse) (index offset : Nat) (bytes : List UInt8)
    (h : index < chunkCount m.size m.chunkSize) (j : Nat) :
    (m.storePart index offset bytes h).chunk? j =
      if j = index then some ((m.chunkAt index).store offset bytes) else m.chunk? j := by
  show (m.chunks.insert index _)[j]? = _
  rw [Std.ExtTreeMap.getElem?_insert]
  by_cases hj : j = index
  · rw [if_pos hj, if_pos (Nat.compare_eq_eq.2 hj.symm)]
  · rw [if_neg hj, if_neg fun hc => hj (Nat.compare_eq_eq.1 hc).symm]
    rfl

/-- The bytes of a chunk that has not been allocated are those of a zero block. -/
theorem chunkByte_eq (m : Sparse) (index offset : Nat) :
    m.chunkByte index offset = (m.chunkAt index).byteAt offset := by
  unfold chunkByte chunkAt
  cases m.chunk? index with
  | some chunk => rfl
  | none => exact (Block.byteAt_zero offset).symm

theorem chunkByte_storePart (m : Sparse) (index offset : Nat) (bytes : List UInt8)
    (h : index < chunkCount m.size m.chunkSize) (j o : Nat) :
    (m.storePart index offset bytes h).chunkByte j o =
      if j = index ∧ offset ≤ o ∧ o < offset + bytes.length ∧ o < m.chunkSize then
        bytes.getD (o - offset) 0
      else m.chunkByte j o := by
  rw [chunkByte_eq, chunkAt, chunk?_storePart]
  by_cases hj : j = index
  · subst hj
    rw [if_pos rfl]
    have hstore := Block.byteAt_store (m.chunkAt j) offset bytes o
    rw [← chunkByte_eq] at hstore
    refine Eq.trans hstore ?_
    simp
  · rw [if_neg hj, if_neg fun hc => hj hc.1]
    exact (m.chunkByte_eq j o).symm

/-- The bytes of a memory after a store into the chunk of `start` that does not leave it. -/
theorem byteAt_storePart (m : Sparse) (start : Nat) (bytes : List UInt8)
    (h : start / m.chunkSize < chunkCount m.size m.chunkSize)
    (hfit : start % m.chunkSize + bytes.length ≤ m.chunkSize) (i : Nat) :
    (m.storePart (start / m.chunkSize) (start % m.chunkSize) bytes h).byteAt i =
      if start ≤ i ∧ i < start + bytes.length then bytes.getD (i - start) 0 else m.byteAt i := by
  have hpos := m.chunkSize_pos
  have hstart := Nat.div_add_mod start m.chunkSize
  have hi := Nat.div_add_mod i m.chunkSize
  have hmod := Nat.mod_lt i hpos
  show (m.storePart _ _ bytes h).chunkByte (i / m.chunkSize) (i % m.chunkSize) = _
  rw [chunkByte_storePart]
  by_cases hin : start ≤ i ∧ i < start + bytes.length
  · have hdiv : i / m.chunkSize = start / m.chunkSize := by
      apply Nat.div_eq_of_lt_le
      · rw [Nat.mul_comm]
        omega
      · rw [Nat.succ_mul, Nat.mul_comm]
        omega
    rw [hdiv] at hi
    rw [if_pos hin, if_pos ⟨hdiv, by omega, by omega, hmod⟩]
    congr 1
    omega
  · rw [if_neg hin]
    by_cases hdiv : i / m.chunkSize = start / m.chunkSize
    · rw [hdiv] at hi
      rw [if_neg (by omega)]
      rfl
    · rw [if_neg fun hc => hdiv hc.1]
      rfl

/-- **A chunkwise store inside the memory never meets a missing chunk, and replaces the bytes of
its range.** -/
theorem storeFrom_of_le (m : Sparse) (start : Nat) (bytes : List UInt8)
    (h : start + bytes.length ≤ m.size.toNat) :
    ∃ stored, m.storeFrom start bytes = .ok stored ∧ stored.size = m.size ∧
      stored.chunkSize = m.chunkSize ∧ ∀ i, stored.byteAt i =
        if start ≤ i ∧ i < start + bytes.length then bytes.getD (i - start) 0
        else m.byteAt i := by
  fun_induction storeFrom m start bytes with
  | case1 m start =>
      refine ⟨m, rfl, rfl, rfl, fun i => ?_⟩
      exact (if_neg (by simp)).symm
  | case2 m start bytes hne part hindex ih =>
      have hroom := m.room_pos start
      have hlength : bytes.length ≠ 0 := mt List.length_eq_zero_iff.1 hne
      have hpart : part.length = min (m.room start) bytes.length := List.length_take
      have hfit : start % m.chunkSize + part.length ≤ m.chunkSize := by
        have := Nat.mod_lt start m.chunkSize_pos
        have : m.room start = m.chunkSize - start % m.chunkSize := rfl
        omega
      have hdrop : (bytes.drop (m.room start)).length = bytes.length - m.room start :=
        List.length_drop
      obtain ⟨stored, hok, hsize, hchunk, hbyte⟩ := ih (by
        rw [hdrop, size_storePart]
        omega)
      refine ⟨stored, hok, hsize, hchunk, fun i => ?_⟩
      rw [hbyte i, byteAt_storePart _ _ _ _ hfit, hdrop]
      by_cases hrest : start + part.length ≤ i ∧
          i < start + part.length + (bytes.length - m.room start)
      · rw [if_pos hrest, if_pos (by omega), List.getD_eq_getElem?_getD, List.getElem?_drop,
          ← List.getD_eq_getElem?_getD]
        congr 1
        omega
      · rw [if_neg hrest]
        by_cases hfirst : start ≤ i ∧ i < start + part.length
        · rw [if_pos hfirst, if_pos (by omega), List.getD_eq_getElem?_getD,
            List.getElem?_take_of_lt (by omega), ← List.getD_eq_getElem?_getD]
        · rw [if_neg hfirst, if_neg (by omega)]
  | case3 m start bytes hne part hindex =>
      have hlength : bytes.length ≠ 0 := mt List.length_eq_zero_iff.1 hne
      exact absurd (m.div_lt_chunkCount (by omega)) hindex

/-! ### The support -/

/-- The support of a memory holds the positions of the bytes that are not zero. -/
theorem mem_support_iff {m : Sparse} {i : Nat} : i ∈ m.support ↔ m.byteAt i ≠ 0 := by
  have hpos := m.chunkSize_pos
  have hsplit := Nat.div_add_mod i m.chunkSize
  simp only [support, List.mem_flatMap, List.mem_map, Prod.exists, Block.mem_support_iff,
    Std.ExtTreeMap.mem_toList_iff_getElem?_eq_some]
  constructor
  · rintro ⟨index, chunk, hget, offset, hbyte, rfl⟩
    have hlt : offset < m.chunkSize := by
      refine Nat.lt_of_not_le fun hle => hbyte ?_
      exact chunk.byteAt_of_le hle
    have hdiv : (m.chunkSize * index + offset) / m.chunkSize = index := by
      rw [Nat.mul_add_div hpos, Nat.div_eq_of_lt hlt, Nat.add_zero]
    have hmod : (m.chunkSize * index + offset) % m.chunkSize = offset := by
      rw [Nat.mul_add_mod, Nat.mod_eq_of_lt hlt]
    rw [byteAt, hdiv, hmod, chunkByte, chunk?, hget]
    exact hbyte
  · intro hbyte
    rw [byteAt, chunkByte] at hbyte
    cases hget : m.chunk? (i / m.chunkSize) with
    | none =>
        rw [hget] at hbyte
        exact absurd rfl hbyte
    | some chunk =>
        rw [hget] at hbyte
        exact ⟨i / m.chunkSize, chunk, hget, i % m.chunkSize, hbyte, hsplit⟩

end Sparse

end PacketDma
