/-
**Apertures byte by byte.**

Accesses to an aperture are stated through the byte at each bus address.  A write replaces the bytes
of its range and keeps every other byte, the base and the size, so that two accesses to disjoint
ranges do not see each other.

Main definitions:

* `PacketDma.Memory.bytes` — the bytes of a range of memory;
* `PacketDma.Aperture.byteAt` — the byte at a bus address;
* `PacketDma.Aperture.SameExtent` — two apertures cover the same addresses.

Main results:

* `PacketDma.Aperture.read_eq_map` — a read returns the bytes of the view;
* `PacketDma.Aperture.exists_write` — a write replaces the bytes of its range and nothing else.
-/

import PacketDma.Memory.Aperture

set_option autoImplicit false

namespace PacketDma

/-- The bytes of memory from `address` on. -/
def Memory.bytes (m : Memory) (address : UInt64) (length : Nat) : List UInt8 :=
  (List.range' address.toNat length).map m.byteAt

@[simp] theorem Memory.length_bytes (m : Memory) (address : UInt64) (length : Nat) :
    (m.bytes address length).length = length := by
  rw [bytes, List.length_map, List.length_range']

/-- The bytes of a range depend on no others. -/
theorem Memory.bytes_congr {m other : Memory} {address : UInt64} {length : Nat}
    (h : ∀ i, address.toNat ≤ i → i < address.toNat + length → other.byteAt i = m.byteAt i) :
    other.bytes address length = m.bytes address length := by
  refine List.map_congr_left fun i hi => ?_
  obtain ⟨hstart, hend⟩ := List.mem_range'_1.1 hi
  exact h i hstart hend

namespace Aperture

/-- The byte at bus address `i`, zero below the aperture. -/
def byteAt (a : Aperture) (i : Nat) : UInt8 :=
  if i < a.base.toNat then 0 else a.store.byteAt (i - a.base.toNat)

/-- Two apertures cover the same bus addresses. -/
def SameExtent (a b : Aperture) : Prop := a.base = b.base ∧ a.size = b.size

theorem SameExtent.refl (a : Aperture) : a.SameExtent a := ⟨rfl, rfl⟩

theorem SameExtent.symm {a b : Aperture} (h : a.SameExtent b) : b.SameExtent a :=
  ⟨h.1.symm, h.2.symm⟩

theorem SameExtent.trans {a b c : Aperture} (h : a.SameExtent b) (h' : b.SameExtent c) :
    a.SameExtent c := ⟨h.1.trans h'.1, h.2.trans h'.2⟩

theorem SameExtent.covers_iff {a b : Aperture} (h : a.SameExtent b) {address : UInt64}
    {length : Nat} : a.Covers address length ↔ b.Covers address length := by
  unfold Covers
  rw [h.1, h.2]

/-- The offset of a covered range, as a number. -/
theorem toNat_sub_base {a : Aperture} {address : UInt64} {length : Nat}
    (h : a.Covers address length) :
    (address - a.base).toNat = address.toNat - a.base.toNat :=
  UInt64.toNat_sub_of_le _ _ (UInt64.le_iff_toNat_le.2 h.1)

/-- A covered range lies inside the memory behind the aperture. -/
theorem inRange_of_covers {a : Aperture} {address : UInt64} {length : Nat}
    (h : a.Covers address length) : InRange a.store.size (address - a.base) length :=
  (Aperture.covers_iff.1 h).2

/-- What translation says: the range is covered, and the offset counts from the base. -/
theorem translate_eq_ok_iff {a : Aperture} {address offset : UInt64} {length : Nat} :
    a.translate address length = .ok offset ↔
      a.Covers address length ∧ a.base.toNat + offset.toNat = address.toNat := by
  by_cases h : a.Covers address length
  · rw [translate_of_covers h, Except.ok.injEq, ← UInt64.toNat_inj, toNat_sub_base h]
    have hbase := h.1
    exact ⟨fun heq => ⟨h, by omega⟩, fun ⟨_, heq⟩ => by omega⟩
  · rw [translate_of_not h]
    exact iff_of_false (by simp) fun hc => h hc.1

/-- **A read returns the bytes of the view.** -/
theorem read_eq_map {a : Aperture} {address : UInt64} {length : Nat}
    (h : a.Covers address length) :
    a.read address length = .ok ((List.range' address.toNat length).map a.byteAt) := by
  rw [read_of_covers h, Memory.read_of_inRange (inRange_of_covers h), toNat_sub_base h]
  congr 1
  refine List.ext_getElem (by simp) ?_
  intro i h₁ h₂
  have hbase := h.1
  simp only [List.getElem_map, List.getElem_range', byteAt]
  rw [if_neg (by omega)]
  congr 1
  omega

/-- **A write replaces the bytes of its range and nothing else.** -/
theorem exists_write {a : Aperture} {address : UInt64} {bytes : List UInt8}
    (h : a.Covers address bytes.length) :
    ∃ written, a.write address bytes = .ok written ∧ written.SameExtent a ∧
      ∀ i, written.byteAt i =
        if address.toNat ≤ i ∧ i < address.toNat + bytes.length then
          bytes.getD (i - address.toNat) 0
        else a.byteAt i := by
  obtain ⟨store, hok, hsize, hbyte⟩ := Memory.write_of_inRange (inRange_of_covers h)
  refine ⟨{ a with store }, ?_, ⟨rfl, hsize⟩, ?_⟩
  · rw [write_of_covers h, hok]
    rfl
  · intro i
    have hbase := h.1
    rw [toNat_sub_base h] at hbyte
    by_cases hlow : i < a.base.toNat
    · rw [byteAt, byteAt, if_pos hlow, if_pos hlow, if_neg (by omega)]
    · rw [byteAt, byteAt, if_neg hlow, if_neg hlow]
      show store.byteAt (i - a.base.toNat) = _
      rw [hbyte]
      by_cases hin : address.toNat ≤ i ∧ i < address.toNat + bytes.length
      · rw [if_pos (by omega), if_pos hin]
        congr 1
        omega
      · rw [if_neg (by omega), if_neg hin]

/-- A write keeps the extent. -/
theorem sameExtent_of_write {a written : Aperture} {address : UInt64} {bytes : List UInt8}
    (h : a.write address bytes = .ok written) : written.SameExtent a := by
  by_cases hcovers : a.Covers address bytes.length
  · obtain ⟨other, hok, hextent, -⟩ := exists_write hcovers
    rw [h] at hok
    cases hok
    exact hextent
  · rw [write_of_not hcovers] at h
    cases h

/-- Words that are written one after the other keep the extent. -/
theorem sameExtent_writeWords (a : Aperture) (address : UInt64) (words : List UInt32) :
    (a.writeWords address words).1.SameExtent a := by
  induction words generalizing a address with
  | nil => exact .refl a
  | cons word rest ih =>
      rw [writeWords]
      split
      · next heq => exact (ih _ _).trans (sameExtent_of_write heq)
      · exact .refl a

end Aperture

end PacketDma
