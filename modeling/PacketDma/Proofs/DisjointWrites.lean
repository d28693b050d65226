/-
**Writes that may change places.**

Two writes to ranges without a common address can be made in either order.  Not only are the bytes
the same afterwards: the memory is the same value, chunk table included, because the chunks that a
write allocates are those of its range and nothing else.

Main definitions:

* `PacketDma.Memory.Allocated` — there is room for the byte at a position;
* `PacketDma.MemoryShape.Together` — two positions get their room together;
* `PacketDma.Memory.Written` — what a write leaves behind;
* `PacketDma.Swaps` — a step may change places with the one behind it.

Main results:

* `PacketDma.Memory.ext_allocated` — a memory is its shape, its bytes and what is allocated;
* `PacketDma.Memory.write_eq_ok_iff` — **a write is determined by what it leaves behind**;
* `PacketDma.Memory.swaps_write`, `PacketDma.Aperture.swaps_write`,
  `PacketDma.ReceiveDescriptor.swaps_encode` — **writes to disjoint ranges change places**;
* `PacketDma.Swaps.applyEach` — so do sequences of steps that change places one by one.
-/

import PacketDma.Proofs.MemoryShape

set_option autoImplicit false

namespace PacketDma

/-! ### What is allocated -/

namespace Sparse

/-- The chunk of position `i` has been allocated. -/
def Allocated (m : Sparse) (i : Nat) : Prop := (m.chunk? (i / m.chunkSize)).isSome = true

theorem div_chunk (m : Sparse) (index : Nat) {offset : Nat} (h : offset < m.chunkSize) :
    (m.chunkSize * index + offset) / m.chunkSize = index := by
  rw [Nat.mul_add_div m.chunkSize_pos, Nat.div_eq_of_lt h, Nat.add_zero]

/-- The bytes of a chunk, found through the view. -/
theorem byteAt_chunk (m : Sparse) (index : Nat) {offset : Nat} (h : offset < m.chunkSize) :
    m.byteAt (m.chunkSize * index + offset) = m.chunkByte index offset := by
  rw [byteAt, m.div_chunk index h, Nat.mul_add_mod, Nat.mod_eq_of_lt h]

theorem allocated_chunk (m : Sparse) (index : Nat) :
    m.Allocated (m.chunkSize * index) ↔ (m.chunk? index).isSome = true := by
  rw [Allocated, Nat.mul_div_cancel_left _ m.chunkSize_pos]

/-- **A chunked memory is its shape, its bytes and what is allocated.** -/
theorem ext_allocated {m n : Sparse} (hsize : m.size = n.size) (hchunk : m.chunkSize = n.chunkSize)
    (hbyte : ∀ i, m.byteAt i = n.byteAt i) (hallocated : ∀ i, m.Allocated i ↔ n.Allocated i) :
    m = n := by
  obtain ⟨size, chunkSize, hpos, chunks, hnone⟩ := m
  obtain ⟨size', chunkSize', hpos', chunks', hnone'⟩ := n
  cases hsize
  cases hchunk
  have htable : chunks = chunks' := by
    refine Std.ExtTreeMap.ext_getElem? fun index => ?_
    have hsome : chunks[index]?.isSome = true ↔ chunks'[index]?.isSome = true :=
      ((allocated_chunk _ index).symm.trans (hallocated (chunkSize * index))).trans
        (allocated_chunk _ index)
    have hblock : ∀ offset, offset < chunkSize → _ = _ := fun offset hoffset =>
      ((byteAt_chunk _ index hoffset).symm.trans (hbyte (chunkSize * index + offset))).trans
        (byteAt_chunk _ index hoffset)
    unfold chunkByte chunk? at hblock
    dsimp only at hblock
    cases hleft : chunks[index]? with
    | none =>
        cases hright : chunks'[index]? with
        | none => rfl
        | some block' =>
            rw [hleft, hright] at hsome
            cases hsome.2 rfl
    | some block =>
        rw [hleft] at hsome
        obtain ⟨block', hright⟩ := Option.isSome_iff_exists.1 (hsome.1 rfl)
        rw [hleft, hright] at hblock
        rw [hright, Block.ext_byteAt hblock]
  cases htable
  rfl

/-- A store into one chunk allocates that chunk. -/
theorem allocated_storePart (m : Sparse) (index offset : Nat) (bytes : List UInt8)
    (h : index < chunkCount m.size m.chunkSize) (i : Nat) :
    (m.storePart index offset bytes h).Allocated i ↔
      m.Allocated i ∨ index = i / m.chunkSize := by
  have hchunk := congrArg Option.isSome (m.chunk?_storePart index offset bytes h (i / m.chunkSize))
  refine (Bool.eq_iff_iff.1 hchunk).trans ?_
  by_cases hindex : i / m.chunkSize = index
  · rw [if_pos hindex]
    exact iff_of_true rfl (Or.inr hindex.symm)
  · rw [if_neg hindex]
    exact ⟨Or.inl, fun hor => hor.resolve_right fun heq => hindex heq.symm⟩

/-- **A store allocates the chunks of its range** and no others. -/
theorem allocated_storeFrom {m stored : Sparse} {start : Nat} {bytes : List UInt8}
    (h : m.storeFrom start bytes = .ok stored) (i : Nat) :
    stored.Allocated i ↔ m.Allocated i ∨
      ∃ j, start ≤ j ∧ j < start + bytes.length ∧ j / m.chunkSize = i / m.chunkSize := by
  fun_induction storeFrom m start bytes with
  | case1 m start =>
      cases h
      refine ⟨Or.inl, fun hor => hor.resolve_right ?_⟩
      rintro ⟨j, hle, hlt, -⟩
      exact absurd hlt (Nat.not_lt.2 hle)
  | case2 m start bytes hne part hindex ih =>
      have hroom := m.room_pos start
      have hlength : bytes.length ≠ 0 := mt List.length_eq_zero_iff.1 hne
      have hpart : part.length = min (m.room start) bytes.length := List.length_take
      have hdrop : (bytes.drop (m.room start)).length = bytes.length - m.room start :=
        List.length_drop
      -- the positions of the first part share the chunk of `start`
      have hsame : ∀ j, start ≤ j → j < start + part.length →
          j / m.chunkSize = start / m.chunkSize := by
        intro j hle hlt
        have hin : j - start < m.firstPart start bytes.length := by
          rw [firstPart]
          omega
        have hdiv := m.div_eq_of_lt_firstPart hin
        rwa [Nat.add_sub_of_le hle] at hdiv
      rw [ih h, allocated_storePart, chunkSize_storePart, or_assoc]
      refine or_congr_right ⟨?_, ?_⟩
      · rintro (hfirst | ⟨j, hle, hlt, hdiv⟩)
        · exact ⟨start, Nat.le_refl _, by omega, hfirst⟩
        · exact ⟨j, by omega, by omega, hdiv⟩
      · rintro ⟨j, hle, hlt, hdiv⟩
        by_cases hin : j < start + part.length
        · exact Or.inl ((hsame j hle hin).symm.trans hdiv)
        · exact Or.inr ⟨j, by omega, by omega, hdiv⟩
  | case3 m start bytes hne part hindex => cases h

end Sparse

/-- Two positions of a memory get their room together. -/
def MemoryShape.Together : MemoryShape → Nat → Nat → Prop
  | .dense _, _, _ => True
  | .sparse _ chunkSize, i, j => i / chunkSize = j / chunkSize

namespace Memory

/-- There is room for the byte at position `i`.  A contiguous memory has it from the start. -/
def Allocated : Memory → Nat → Prop
  | .dense _, _ => True
  | .sparse store, i => store.Allocated i

/-- **A memory is its shape, its bytes and what is allocated.** -/
theorem ext_allocated {m n : Memory} (hshape : m.shape = n.shape)
    (hbyte : ∀ i, m.byteAt i = n.byteAt i) (hallocated : ∀ i, m.Allocated i ↔ n.Allocated i) :
    m = n := by
  cases m with
  | dense store =>
      cases n with
      | dense other =>
          obtain ⟨size, block⟩ := store
          obtain ⟨size', block'⟩ := other
          cases hshape
          have hblock : block = block' := Block.ext_byteAt fun i _ => hbyte i
          rw [hblock]
      | sparse other => cases hshape
  | sparse store =>
      cases n with
      | dense other => cases hshape
      | sparse other =>
          obtain ⟨hsize, hchunk⟩ := MemoryShape.sparse.inj hshape
          exact congrArg Memory.sparse (Sparse.ext_allocated hsize hchunk hbyte hallocated)

/-! ### What a write leaves behind -/

/-- Position `i` is one of those that `bytes` go to from `address` on. -/
def InWrite (address : UInt64) (bytes : List UInt8) (i : Nat) : Prop :=
  address.toNat ≤ i ∧ i < address.toNat + bytes.length

instance (address : UInt64) (bytes : List UInt8) (i : Nat) :
    Decidable (InWrite address bytes i) :=
  inferInstanceAs (Decidable (_ ∧ _))

/-- `written` is what a write to `m` leaves behind. -/
structure Written (m : Memory) (address : UInt64) (bytes : List UInt8) (written : Memory) :
    Prop where
  inRange : InRange m.size address bytes.length
  shape : written.shape = m.shape
  byteAt : ∀ i, written.byteAt i =
    if InWrite address bytes i then bytes.getD (i - address.toNat) 0 else m.byteAt i
  allocated : ∀ i, written.Allocated i ↔
    m.Allocated i ∨ ∃ j, InWrite address bytes j ∧ m.shape.Together j i

theorem allocated_of_write {m written : Memory} {address : UInt64} {bytes : List UInt8}
    (h : m.write address bytes = .ok written) (i : Nat) :
    written.Allocated i ↔
      m.Allocated i ∨ ∃ j, InWrite address bytes j ∧ m.shape.Together j i := by
  cases m with
  | dense store =>
      have hshape := shape_of_write h
      cases written with
      | dense other => exact iff_of_true trivial (Or.inl trivial)
      | sparse other => cases hshape
  | sparse store =>
      by_cases hrange : InRange store.size address bytes.length
      · rw [write, Sparse.write, checkRange_of_inRange hrange] at h
        change (store.storeFrom address.toNat bytes).map Memory.sparse = .ok written at h
        cases hstored : store.storeFrom address.toNat bytes with
        | error fault =>
            rw [hstored] at h
            cases h
        | ok stored =>
            rw [hstored] at h
            cases h
            simp only [Allocated, Sparse.allocated_storeFrom hstored i, InWrite, shape,
              MemoryShape.Together, and_assoc]
      · rw [write, Sparse.write, checkRange_of_not hrange] at h
        cases h

/-- **A write is determined by what it leaves behind.** -/
theorem write_eq_ok_iff {m written : Memory} {address : UInt64} {bytes : List UInt8} :
    m.write address bytes = .ok written ↔ m.Written address bytes written := by
  have hforward : ∀ {w : Memory}, m.write address bytes = .ok w → m.Written address bytes w := by
    intro w h
    by_cases hrange : InRange m.size address bytes.length
    · obtain ⟨w', hok, -, hbyte⟩ := write_of_inRange hrange
      rw [h] at hok
      cases hok
      exact ⟨hrange, shape_of_write h, hbyte, allocated_of_write h⟩
    · rw [write_of_not hrange] at h
      cases h
  refine ⟨hforward, fun h => ?_⟩
  obtain ⟨w, hok, -⟩ := write_of_inRange h.inRange
  have hw := hforward hok
  have hsame : w = written := ext_allocated (hw.shape.trans h.shape.symm)
    (fun i => (hw.byteAt i).trans (h.byteAt i).symm)
    fun i => (hw.allocated i).trans (h.allocated i).symm
  rw [hok, hsame]

end Memory

/-! ### Steps that change places -/

/-- Whenever `step` and then `other` succeed, so do `other` and then `step`, with the same end. -/
def Swaps {σ ε : Type} (step other : σ → Except ε σ) : Prop :=
  ∀ ⦃a b c⦄, step a = .ok b → other b = .ok c → ∃ b', other a = .ok b' ∧ step b' = .ok c

theorem applyEach_cons_eq_none_iff {σ α : Type} {step : α → σ → Except DmaFault σ} {item : α}
    {rest : List α} {a c : σ} :
    applyEach step (item :: rest) a = (none, c) ↔
      ∃ b, step item a = .ok b ∧ applyEach step rest b = (none, c) := by
  cases hstep : step item a with
  | ok b =>
      rw [applyEach_cons_ok hstep]
      exact ⟨fun h => ⟨b, rfl, h⟩, fun ⟨_, hb, h⟩ => Except.ok.inj hb ▸ h⟩
  | error fault =>
      rw [applyEach_cons_error hstep]
      exact iff_of_false (fun h => by cases h) fun ⟨_, hb, _⟩ => by cases hb

/-- A step that changes places with each step of a sequence changes places with the sequence. -/
theorem Swaps.applyEach_right {σ β : Type} {step : σ → Except DmaFault σ}
    {other : β → σ → Except DmaFault σ} {items : List β}
    (h : ∀ y ∈ items, Swaps step (other y)) {a b c : σ} (hstep : step a = .ok b)
    (hitems : PacketDma.applyEach other items b = (none, c)) :
    ∃ b', PacketDma.applyEach other items a = (none, b') ∧ step b' = .ok c := by
  induction items generalizing a b with
  | nil =>
      cases hitems
      exact ⟨a, rfl, hstep⟩
  | cons y rest ih =>
      obtain ⟨d, hy, hrest⟩ := applyEach_cons_eq_none_iff.1 hitems
      obtain ⟨d', hy', hstep'⟩ := h y (List.mem_cons_self ..) hstep hy
      obtain ⟨b', hrest', hlast⟩ :=
        ih (fun z hz => h z (List.mem_cons_of_mem _ hz)) hstep' hrest
      exact ⟨b', applyEach_cons_eq_none_iff.2 ⟨d', hy', hrest'⟩, hlast⟩

/-- **Sequences of steps that change places one by one change places as a whole.** -/
theorem Swaps.applyEach {σ α β : Type} {step : α → σ → Except DmaFault σ}
    {other : β → σ → Except DmaFault σ} {first : List α} {second : List β}
    (h : ∀ x ∈ first, ∀ y ∈ second, Swaps (step x) (other y)) {a b c : σ}
    (hfirst : PacketDma.applyEach step first a = (none, b))
    (hsecond : PacketDma.applyEach other second b = (none, c)) :
    ∃ b', PacketDma.applyEach other second a = (none, b') ∧
      PacketDma.applyEach step first b' = (none, c) := by
  induction first generalizing a with
  | nil =>
      cases hfirst
      exact ⟨c, hsecond, rfl⟩
  | cons x rest ih =>
      obtain ⟨d, hx, hrest⟩ := applyEach_cons_eq_none_iff.1 hfirst
      obtain ⟨d', hsecond', hrest'⟩ :=
        ih (fun z hz => h z (List.mem_cons_of_mem _ hz)) hrest
      obtain ⟨b', hfront, hx'⟩ :=
        Swaps.applyEach_right (h x (List.mem_cons_self ..)) hx hsecond'
      exact ⟨b', hfront, applyEach_cons_eq_none_iff.2 ⟨d', hx', hrest'⟩⟩

/-! ### Writes to disjoint ranges -/

/-- **Writes to disjoint ranges of memory change places.** -/
theorem Memory.swaps_write {first second : UInt64} {bytes others : List UInt8}
    (h : ∀ i, InWrite first bytes i → ¬ InWrite second others i) :
    Swaps (fun m : Memory => m.write first bytes) fun m => m.write second others := by
  intro a b c hfirst hsecond
  have hb := write_eq_ok_iff.1 hfirst
  have hc := write_eq_ok_iff.1 hsecond
  have hrange : InRange a.size second others.length := size_eq_of_shape hb.shape ▸ hc.inRange
  obtain ⟨b', hok, hsize, -⟩ := write_of_inRange hrange
  have hb' := write_eq_ok_iff.1 hok
  refine ⟨b', hok, write_eq_ok_iff.2 ⟨hsize ▸ hb.inRange, ?_, fun i => ?_, fun i => ?_⟩⟩
  · rw [hc.shape, hb.shape, hb'.shape]
  · rw [hc.byteAt, hb.byteAt, hb'.byteAt]
    by_cases hin : InWrite first bytes i
    · rw [if_neg (h i hin), if_pos hin, if_pos hin]
    · rw [if_neg hin, if_neg hin]
  · rw [hc.allocated, hb.allocated, hb'.allocated, hb.shape, hb'.shape]
    exact or_right_comm

theorem Aperture.write_eq_ok_iff {a written : Aperture} {address : UInt64} {bytes : List UInt8} :
    a.write address bytes = .ok written ↔ a.Covers address bytes.length ∧
      ∃ store, a.store.write (address - a.base) bytes = .ok store ∧
        written = { a with store } := by
  by_cases hcovers : a.Covers address bytes.length
  · rw [write_of_covers hcovers]
    cases a.store.write (address - a.base) bytes with
    | error fault => exact iff_of_false (fun h => by cases h) fun ⟨_, _, h, _⟩ => by cases h
    | ok store =>
        refine ⟨fun h => ⟨hcovers, store, rfl, (Except.ok.inj h).symm⟩, ?_⟩
        rintro ⟨-, _, hstore, rfl⟩
        cases hstore
        rfl
  · rw [write_of_not hcovers]
    exact iff_of_false (fun h => by cases h) fun h => hcovers h.1

/-- **So do writes to disjoint ranges of an aperture.** -/
theorem Aperture.swaps_write {first second : UInt64} {bytes others : List UInt8}
    (h : ∀ i, Memory.InWrite first bytes i → ¬ Memory.InWrite second others i) :
    Swaps (fun a : Aperture => a.write first bytes) fun a => a.write second others := by
  intro a b c hfirst hsecond
  obtain ⟨hcovers, store, hstore, rfl⟩ := write_eq_ok_iff.1 hfirst
  have hsame := sameExtent_of_write hfirst
  obtain ⟨hcoversLater, store', hstore', rfl⟩ := write_eq_ok_iff.1 hsecond
  have hcovers' : a.Covers second others.length := hsame.covers_iff.1 hcoversLater
  -- inside the aperture, the ranges are moved by the base
  have hmoved : ∀ i, Memory.InWrite (first - a.base) bytes i →
      ¬ Memory.InWrite (second - a.base) others i := by
    intro i hi hi'
    have hbase := hcovers.1
    have hbase' := hcovers'.1
    unfold Memory.InWrite at hi hi'
    rw [toNat_sub_base hcovers] at hi
    rw [toNat_sub_base hcovers'] at hi'
    exact h (a.base.toNat + i) ⟨by omega, by omega⟩ ⟨by omega, by omega⟩
  obtain ⟨middle, hmiddle, hlast⟩ := Memory.swaps_write hmoved hstore hstore'
  have hok : a.write second others = .ok { a with store := middle } :=
    write_eq_ok_iff.2 ⟨hcovers', middle, hmiddle, rfl⟩
  have hstill := (sameExtent_of_write hok).covers_iff.2 hcovers
  exact ⟨_, hok, write_eq_ok_iff.2 ⟨hstill, store', hlast, rfl⟩⟩

/-- A receive descriptor is written back by one write, if its slot lies inside the RAM. -/
theorem ReceiveDescriptor.encode_eq_ok_iff {d : ReceiveDescriptor} {ram written : Aperture} :
    d.encode ram = .ok written ↔ ram.CoversSlot d.address ∧
      ram.write (d.address.toUInt64 + 8) (Slot.bytesOf d.extentWord ++ Slot.bytesOf d.statusWord) =
        .ok written := by
  rw [encode, liftMemory_eq_ok_iff]
  by_cases hcovers : ram.CoversSlot d.address
  · rw [Aperture.translate_of_covers hcovers]
    exact (and_iff_right hcovers).symm
  · rw [Aperture.translate_of_not hcovers]
    exact iff_of_false (fun h => by cases h) fun h => hcovers h.1

/-- **And so do the reports of two descriptors whose slots have no byte in common.** -/
theorem ReceiveDescriptor.swaps_encode {d e : ReceiveDescriptor}
    (h : SlotsDisjoint d.address e.address) : Swaps d.encode e.encode := by
  have hin : ∀ (f : ReceiveDescriptor) i,
      Memory.InWrite (f.address.toUInt64 + 8)
        (Slot.bytesOf f.extentWord ++ Slot.bytesOf f.statusWord) i → InSlot f.address i := by
    intro f i hi
    have haddress : (f.address.toUInt64 + 8).toNat = f.address.toNat + 8 :=
      toNat_slot_add f.address (k := 8) (by omega)
    have hlength : (Slot.bytesOf f.extentWord ++ Slot.bytesOf f.statusWord).length = 8 := by simp
    unfold Memory.InWrite at hi
    rw [haddress, hlength] at hi
    exact InReport.inSlot ⟨hi.1, hi.2⟩
  intro a b c hfirst hsecond
  obtain ⟨hcovers, hwrite⟩ := encode_eq_ok_iff.1 hfirst
  obtain ⟨hcovers', hwrite'⟩ := encode_eq_ok_iff.1 hsecond
  have hapart := fun i hi hi' => h.not_inSlot (hin d i hi) (hin e i hi')
  obtain ⟨middle, hmiddle, hlast⟩ := Aperture.swaps_write hapart hwrite hwrite'
  have hsame := Aperture.sameExtent_of_write hwrite
  have hsame' := Aperture.sameExtent_of_write hmiddle
  exact ⟨middle, encode_eq_ok_iff.2 ⟨hsame.covers_iff.1 hcovers', hmiddle⟩,
    encode_eq_ok_iff.2 ⟨hsame'.covers_iff.2 hcovers, hlast⟩⟩

end PacketDma
