/-
**Blocks of bytes.**

A block is a fixed number of bytes.  It is what contiguous memory consists of, and what chunked
memory allocates on demand.  A block keeps only the bytes that are not zero, so that a large block
with little in it is small.  Everything else about bytes in memory is stated through the view
`PacketDma.Block.byteAt`, which is total: positions past the end read as zero.

Main definitions:

* `PacketDma.Block.byteAt` — the byte at a position;
* `PacketDma.Block.set` — the block after one byte has been replaced;
* `PacketDma.Block.load` — consecutive bytes;
* `PacketDma.Block.store` — the block after consecutive bytes have been replaced;
* `PacketDma.Block.support` — the positions of the bytes that are not zero.

Main results:

* `PacketDma.Block.ext_byteAt` — a block is determined by its bytes;
* `PacketDma.Block.byteAt_store` — the bytes of a block after a store;
* `PacketDma.Block.mem_support_iff` — what the support of a block is.
-/

import Std.Data.ExtTreeMap

set_option autoImplicit false

namespace PacketDma

/-- A fixed number of bytes, of which those that are not zero are kept. -/
structure Block (n : Nat) where
  /-- The bytes that are not zero, by position. -/
  nonzero : Std.ExtTreeMap Nat UInt8
  ne_zero : ∀ i : Nat, nonzero[i]? ≠ some 0
  none_of_le : ∀ i : Nat, n ≤ i → nonzero[i]? = none

namespace Block

variable {n : Nat}

/-- The block whose bytes are all zero. -/
def zero (n : Nat) : Block n := ⟨∅, fun _ => by simp, fun _ _ => by simp⟩

/-- The byte at position `i`, zero past the end. -/
def byteAt (b : Block n) (i : Nat) : UInt8 := b.nonzero[i]?.getD 0

theorem getElem?_erase_ne_zero (b : Block n) (i j : Nat) : (b.nonzero.erase i)[j]? ≠ some 0 := by
  rw [Std.ExtTreeMap.getElem?_erase]
  split
  · simp
  · exact b.ne_zero j

theorem getElem?_erase_of_le (b : Block n) (i : Nat) {j : Nat} (h : n ≤ j) :
    (b.nonzero.erase i)[j]? = none := by
  rw [Std.ExtTreeMap.getElem?_erase, b.none_of_le j h, ite_self]

theorem getElem?_insert_ne_zero (b : Block n) (i : Nat) {byte : UInt8} (h : byte ≠ 0) (j : Nat) :
    (b.nonzero.insert i byte)[j]? ≠ some 0 := by
  rw [Std.ExtTreeMap.getElem?_insert]
  split
  · simpa using h
  · exact b.ne_zero j

theorem getElem?_insert_of_le (b : Block n) {i j : Nat} (hi : i < n) (byte : UInt8) (h : n ≤ j) :
    (b.nonzero.insert i byte)[j]? = none := by
  rw [Std.ExtTreeMap.getElem?_insert, b.none_of_le j h, if_neg]
  rw [Nat.compare_eq_eq]
  omega

/-- The block with the byte at position `i` replaced, if there is such a byte. -/
def set (b : Block n) (i : Nat) (byte : UInt8) : Block n :=
  if hi : i < n then
    if hbyte : byte = 0 then
      ⟨b.nonzero.erase i, b.getElem?_erase_ne_zero i, fun _ => b.getElem?_erase_of_le i⟩
    else
      ⟨b.nonzero.insert i byte, b.getElem?_insert_ne_zero i hbyte,
        fun _ => b.getElem?_insert_of_le hi byte⟩
  else b

/-- The `length` bytes from position `start` on. -/
def load (b : Block n) (start length : Nat) : List UInt8 :=
  (List.range' start length).map b.byteAt

/-- The block with the bytes from position `start` on replaced; what would lie past the end is
dropped. -/
def store : Block n → Nat → List UInt8 → Block n
  | b, _, [] => b
  | b, start, byte :: rest => store (b.set start byte) (start + 1) rest

/-- The positions of the bytes that are not zero, lowest first. -/
def support (b : Block n) : List Nat := b.nonzero.keys

/-! ### The view of a block -/

@[simp] theorem byteAt_zero (i : Nat) : (zero n).byteAt i = 0 := by
  simp [byteAt, zero]

theorem byteAt_of_le (b : Block n) {i : Nat} (h : n ≤ i) : b.byteAt i = 0 := by
  rw [byteAt, b.none_of_le i h, Option.getD_none]

/-- A byte is kept exactly if it is not zero. -/
theorem getElem?_nonzero (b : Block n) (i : Nat) :
    b.nonzero[i]? = if b.byteAt i = 0 then none else some (b.byteAt i) := by
  have hne := b.ne_zero i
  unfold byteAt
  cases hget : b.nonzero[i]? with
  | none => rfl
  | some byte =>
      have : byte ≠ 0 := fun h => hne (by rw [hget, h])
      simp [this]

/-- **A block is determined by its bytes.** -/
theorem ext_byteAt {a b : Block n} (h : ∀ i, i < n → a.byteAt i = b.byteAt i) : a = b := by
  have hmap : a.nonzero = b.nonzero := by
    apply Std.ExtTreeMap.ext_getElem?
    intro i
    by_cases hi : i < n
    · rw [getElem?_nonzero, getElem?_nonzero, h i hi]
    · rw [a.none_of_le i (by omega), b.none_of_le i (by omega)]
  cases a
  cases b
  cases hmap
  rfl

/-- The support of a block holds the positions of the bytes that are not zero. -/
theorem mem_support_iff {b : Block n} {i : Nat} : i ∈ b.support ↔ b.byteAt i ≠ 0 := by
  rw [support, Std.ExtTreeMap.mem_keys, ← Std.ExtTreeMap.isSome_getElem?_iff_mem,
    getElem?_nonzero]
  split <;> simp_all

@[simp] theorem length_load (b : Block n) (start length : Nat) :
    (b.load start length).length = length := by
  simp [load]

/-! ### Storing bytes -/

@[simp] theorem store_nil (b : Block n) (start : Nat) : b.store start [] = b := rfl

theorem store_cons (b : Block n) (start : Nat) (byte : UInt8) (rest : List UInt8) :
    b.store start (byte :: rest) = (b.set start byte).store (start + 1) rest := rfl

/-- The bytes of a block after one of them has been replaced. -/
theorem byteAt_set (b : Block n) (start i : Nat) (byte : UInt8) :
    (b.set start byte).byteAt i = if i = start ∧ i < n then byte else b.byteAt i := by
  unfold set
  by_cases hs : start < n
  · rw [dif_pos hs]
    by_cases hi : i = start
    · subst hi
      rw [if_pos ⟨rfl, hs⟩]
      by_cases hbyte : byte = 0
      · rw [dif_pos hbyte]
        simp [byteAt, hbyte]
      · rw [dif_neg hbyte]
        simp [byteAt]
    · have hcompare : ¬ compare start i = .eq := by
        rw [Nat.compare_eq_eq]
        exact fun h => hi h.symm
      rw [if_neg fun h => hi h.1]
      by_cases hbyte : byte = 0
      · rw [dif_pos hbyte]
        simp only [byteAt, Std.ExtTreeMap.getElem?_erase, if_neg hcompare]
      · rw [dif_neg hbyte]
        simp only [byteAt, Std.ExtTreeMap.getElem?_insert, if_neg hcompare]
  · rw [dif_neg hs, if_neg]
    omega

/-- **The bytes of a block after a store**: the stored ones in the range, the old ones elsewhere. -/
theorem byteAt_store (b : Block n) (start : Nat) (bytes : List UInt8) (i : Nat) :
    (b.store start bytes).byteAt i =
      if start ≤ i ∧ i < start + bytes.length ∧ i < n then bytes.getD (i - start) 0
      else b.byteAt i := by
  induction bytes generalizing b start with
  | nil =>
      rw [store_nil, if_neg (by simp; omega)]
  | cons byte rest ih =>
      rw [store_cons, ih, byteAt_set]
      by_cases hi : i = start
      · subst hi
        rw [if_neg (by omega)]
        by_cases hn : i < n <;> simp [hn]
      · by_cases hlt : start < i
        · have hsub : i - start = (i - (start + 1)) + 1 := by omega
          simp only [hi, false_and, if_false, List.length_cons, hsub, List.getD_cons_succ]
          congr 1
          apply propext
          omega
        · rw [if_neg (by omega), if_neg (by omega), if_neg (by simp only [List.length_cons]; omega)]

end Block

end PacketDma
