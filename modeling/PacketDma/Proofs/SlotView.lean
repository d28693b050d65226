/-
**Descriptor RAM slot by slot.**

The engine sees descriptor RAM as slots of four words.  Reading a slot gives its words; writing the
last words of one slot changes neither its first words nor any slot that shares no byte with it.

Main definitions:

* `PacketDma.Aperture.EqOff` — two apertures that differ at some addresses at most;
* `PacketDma.Aperture.wordAt`, `PacketDma.Aperture.slotAt` — the words and slots of an aperture;
* `PacketDma.SlotsDisjoint` — two slots share no byte.

Main results:

* `PacketDma.Aperture.readSlot_eq_ok_iff` — when a slot can be read, and what is read;
* `PacketDma.Aperture.EqOff.slotAt_eq` — a change elsewhere leaves a slot alone;
* `PacketDma.ReceiveDescriptor.exists_encode`, `PacketDma.TransmitDescriptor.exists_encode` — what
  writing a descriptor back does to the RAM;
* `PacketDma.exists_applyEach_slots` — what writing back several descriptors does.
-/

import Mathlib.Data.List.GetD
import PacketDma.Descriptor.Receive
import PacketDma.Descriptor.Transmit
import PacketDma.Proofs.ByteView

set_option autoImplicit false

namespace PacketDma

/-- Two slots share no byte. -/
def SlotsDisjoint (x y : UInt32) : Prop :=
  x.toNat + Slot.length ≤ y.toNat ∨ y.toNat + Slot.length ≤ x.toNat

instance (x y : UInt32) : Decidable (SlotsDisjoint x y) := inferInstanceAs (Decidable (_ ∨ _))

theorem SlotsDisjoint.symm {x y : UInt32} (h : SlotsDisjoint x y) : SlotsDisjoint y x :=
  Or.symm h

theorem SlotsDisjoint.ne {x y : UInt32} (h : SlotsDisjoint x y) : x ≠ y := by
  intro heq
  subst heq
  rcases h with h | h <;> exact absurd h (by simp [Slot.length])

/-- The address `i` lies in the slot at `address`. -/
abbrev InSlot (address : UInt32) (i : Nat) : Prop :=
  address.toNat ≤ i ∧ i < address.toNat + Slot.length

/-- A slot shares no address with one that is disjoint from it. -/
theorem SlotsDisjoint.not_inSlot {x y : UInt32} (h : SlotsDisjoint x y) {i : Nat}
    (hi : InSlot x i) : ¬ InSlot y i := by
  rcases h with h | h <;> omega

namespace Aperture

/-! ### Changes confined to some addresses -/

/-- `b` covers the same addresses as `a` and holds the same bytes, except perhaps at the addresses
in `touched`. -/
def EqOff (a b : Aperture) (touched : Nat → Prop) : Prop :=
  b.SameExtent a ∧ ∀ i, ¬ touched i → b.byteAt i = a.byteAt i

namespace EqOff

variable {a b c : Aperture} {touched more : Nat → Prop}

theorem refl (a : Aperture) (touched : Nat → Prop) : a.EqOff a touched :=
  ⟨SameExtent.refl a, fun _ _ => rfl⟩

theorem trans (h : a.EqOff b touched) (h' : b.EqOff c more) :
    a.EqOff c fun i => touched i ∨ more i := by
  refine ⟨h'.1.trans h.1, ?_⟩
  intro i hi
  rw [h'.2 i fun hm => hi (Or.inr hm), h.2 i fun ht => hi (Or.inl ht)]

theorem mono (h : a.EqOff b touched) (hsub : ∀ i, touched i → more i) : a.EqOff b more :=
  ⟨h.1, fun i hi => h.2 i fun ht => hi (hsub i ht)⟩

theorem of_byte_ne (h : a.EqOff b touched) {i : Nat} (hi : b.byteAt i ≠ a.byteAt i) : touched i :=
  Classical.byContradiction fun hnot => hi (h.2 i hnot)

theorem covers_iff (h : a.EqOff b touched) {address : UInt64} {length : Nat} :
    b.Covers address length ↔ a.Covers address length :=
  h.1.covers_iff

end EqOff

/-! ### Words and slots -/

/-- The little-endian word at bus address `i`. -/
def wordAt (a : Aperture) (i : Nat) : UInt32 :=
  UInt32.ofNat (LittleEndian.decode ((List.range' i 4).map a.byteAt))

/-- The slot at bus address `address`. -/
def slotAt (a : Aperture) (address : UInt32) : Slot where
  next := a.wordAt address.toNat
  buffer := a.wordAt (address.toNat + 4)
  extent := a.wordAt (address.toNat + 8)
  status := a.wordAt (address.toNat + 12)

/-- The descriptor that software finds at `address`. -/
def descriptorAt (ram : Aperture) (address : UInt32) : ReceiveDescriptor :=
  .ofSlot address (ram.slotAt address)

/-- The transmit descriptor that software finds at `address`. -/
def transmitAt (ram : Aperture) (address : UInt32) : TransmitDescriptor :=
  .ofSlot address (ram.slotAt address)

/-- The slot at bus address `address` lies inside the aperture. -/
abbrev CoversSlot (a : Aperture) (address : UInt32) : Prop :=
  a.Covers address.toUInt64 Slot.length

theorem readSlot_of_covers {a : Aperture} {address : UInt32} (h : a.CoversSlot address) :
    a.readSlot address = .ok (a.slotAt address) := by
  have hbytes : ∀ k, k + 4 ≤ 16 →
      (((List.range' address.toNat 16).map a.byteAt).drop k).take 4 =
        (List.range' (address.toNat + k) 4).map a.byteAt := by
    intro k hk
    refine List.ext_getElem ?_ ?_
    · simp
      omega
    · intro i h₁ h₂
      simp [Nat.add_assoc]
  rw [readSlot, read_eq_map h]
  show Except.ok (Slot.ofBytes ((List.range' address.toNat 16).map a.byteAt)) = _
  simp only [Slot.ofBytes, Slot.wordOf, hbytes 0 (by omega), hbytes 4 (by omega),
    hbytes 8 (by omega), hbytes 12 (by omega)]
  rfl

/-- **A slot can be read exactly when it lies inside, and what is read are its words.** -/
theorem readSlot_eq_ok_iff {a : Aperture} {address : UInt32} {s : Slot} :
    a.readSlot address = .ok s ↔ a.CoversSlot address ∧ a.slotAt address = s := by
  constructor
  · intro h
    by_cases hc : a.CoversSlot address
    · rw [readSlot_of_covers hc] at h
      exact ⟨hc, Except.ok.inj h⟩
    · rw [readSlot, read_of_not hc] at h
      cases h
  · rintro ⟨hc, rfl⟩
    exact readSlot_of_covers hc

/-- Where four bytes spell a word, the word is found. -/
theorem wordAt_eq_of_bytes {a : Aperture} {i : Nat} {value : UInt32}
    (h : ∀ k, k < 4 → a.byteAt (i + k) = (Slot.bytesOf value).getD k 0) : a.wordAt i = value := by
  have hbytes : (List.range' i 4).map a.byteAt = Slot.bytesOf value := by
    refine List.ext_getElem (by simp) ?_
    intro k h₁ h₂
    have hk : k < 4 := by simpa using h₁
    rw [List.getElem_map, List.getElem_range', Nat.one_mul, h k hk,
      List.getD_eq_getElem _ _ h₂]
  rw [wordAt, hbytes, Slot.ofNat_decode_bytesOf]

/-- Words that are equal are spelled by the same bytes. -/
theorem byteAt_eq_of_wordAt_eq {a b : Aperture} {i : Nat} (h : a.wordAt i = b.wordAt i) {k : Nat}
    (hk : k < 4) : a.byteAt (i + k) = b.byteAt (i + k) := by
  have hlt : ∀ c : Aperture, LittleEndian.decode ((List.range' i 4).map c.byteAt) < 2 ^ 32 := by
    intro c
    have hbound := LittleEndian.decode_lt ((List.range' i 4).map c.byteAt)
    rwa [List.length_map, List.length_range'] at hbound
  have hnumber : LittleEndian.decode ((List.range' i 4).map a.byteAt) =
      LittleEndian.decode ((List.range' i 4).map b.byteAt) := by
    have hword := congrArg UInt32.toNat h
    rwa [wordAt, wordAt, UInt32.toNat_ofNat', UInt32.toNat_ofNat', Nat.mod_eq_of_lt (hlt a),
      Nat.mod_eq_of_lt (hlt b)] at hword
  -- a number and the count of its bytes determine the bytes
  have hbytes : (List.range' i 4).map a.byteAt = (List.range' i 4).map b.byteAt := by
    rw [← LittleEndian.encode_decode ((List.range' i 4).map a.byteAt), hnumber,
      List.length_map, ← List.length_map (f := b.byteAt), LittleEndian.encode_decode]
  have hbyte := congrArg (·[k]?) hbytes
  simpa [List.getElem?_range', hk] using hbyte

theorem EqOff.wordAt_eq {a b : Aperture} {touched : Nat → Prop} (h : a.EqOff b touched) {i : Nat}
    (hi : ∀ k, k < 4 → ¬ touched (i + k)) : b.wordAt i = a.wordAt i := by
  rw [wordAt, wordAt]
  congr 2
  refine List.map_congr_left fun j hj => ?_
  obtain ⟨k, hk, rfl⟩ := List.mem_range'.1 hj
  rw [Nat.one_mul]
  exact h.2 _ (hi k hk)

/-- **A change elsewhere leaves a slot alone.** -/
theorem EqOff.slotAt_eq {a b : Aperture} {touched : Nat → Prop} (h : a.EqOff b touched)
    {address : UInt32} (ha : ∀ i, InSlot address i → ¬ touched i) :
    b.slotAt address = a.slotAt address := by
  have hlength : Slot.length = 16 := rfl
  have hword : ∀ j, j + 4 ≤ 16 → b.wordAt (address.toNat + j) = a.wordAt (address.toNat + j) :=
    fun j hj => h.wordAt_eq fun k hk => ha _ ⟨by omega, by omega⟩
  rw [slotAt, slotAt, hword 4 (by omega), hword 8 (by omega), hword 12 (by omega)]
  congr 1
  exact hword 0 (by omega)

/-- **A change inside other slots leaves a slot alone** when they do not overlap it. -/
theorem EqOff.slotAt_of_apart {a b : Aperture} {touched : Nat → Prop} (h : a.EqOff b touched)
    {address : UInt32} (ha : ∀ i, touched i → ∃ x, SlotsDisjoint x address ∧ InSlot x i) :
    b.slotAt address = a.slotAt address := by
  refine h.slotAt_eq fun i hi hin => ?_
  obtain ⟨x, hdisjoint, hx⟩ := ha i hin
  exact hdisjoint.not_inSlot hx hi

/-- A change behind the first two words of a slot leaves these alone. -/
theorem EqOff.pointers_eq {a b : Aperture} {touched : Nat → Prop} (h : a.EqOff b touched)
    {address : UInt32} (ha : ∀ k, k < 8 → ¬ touched (address.toNat + k)) :
    (b.slotAt address).next = (a.slotAt address).next ∧
      (b.slotAt address).buffer = (a.slotAt address).buffer := by
  refine ⟨h.wordAt_eq fun k hk => ha k (by omega), h.wordAt_eq fun k hk => ?_⟩
  rw [Nat.add_assoc]
  exact ha (4 + k) (by omega)

/-! ### Writes -/

theorem exists_write_eqOff {a : Aperture} {address : UInt64} {bytes : List UInt8}
    (h : a.Covers address bytes.length) :
    ∃ written, a.write address bytes = .ok written ∧
      a.EqOff written (fun i => address.toNat ≤ i ∧ i < address.toNat + bytes.length) ∧
      ∀ k, k < bytes.length → written.byteAt (address.toNat + k) = bytes.getD k 0 := by
  obtain ⟨written, hok, hsame, hbyte⟩ := exists_write h
  refine ⟨written, hok, ⟨hsame, ?_⟩, ?_⟩
  · intro i hi
    rw [hbyte, if_neg hi]
  · intro k hk
    rw [hbyte, if_pos (by omega), Nat.add_sub_cancel_left]

/-- A word inside the aperture can be written, and is found afterwards. -/
theorem exists_writeUInt32 {a : Aperture} {address : UInt64} (value : UInt32)
    (h : a.Covers address 4) :
    ∃ written, a.writeUInt32 address value = .ok written ∧
      a.EqOff written (fun i => address.toNat ≤ i ∧ i < address.toNat + 4) ∧
      written.wordAt address.toNat = value := by
  have hlength : (LittleEndian.encode 4 value.toNat).length = 4 := LittleEndian.length_encode ..
  have hcovers : a.Covers address (LittleEndian.encode 4 value.toNat).length := by
    rw [hlength]
    exact h
  obtain ⟨written, hok, heq, hbyte⟩ := exists_write_eqOff hcovers
  rw [hlength] at heq hbyte
  exact ⟨written, hok, heq, wordAt_eq_of_bytes hbyte⟩

end Aperture

/-- The bus address of a word of a slot inside an aperture does not wrap. -/
theorem toNat_slot_add (address : UInt32) {k : Nat} (hk : k < 16) :
    (address.toUInt64 + UInt64.ofNat k).toNat = address.toNat + k := by
  have hlt := address.toNat_lt
  rw [UInt64.toNat_add, UInt32.toNat_toUInt64, UInt64.toNat_ofNat']
  omega

/-- The addresses of the third and fourth words of the slot at `address`. -/
abbrev InReport (address : UInt32) (i : Nat) : Prop :=
  address.toNat + 8 ≤ i ∧ i < address.toNat + 16

/-- The addresses of the fourth word of the slot at `address`. -/
abbrev InStatus (address : UInt32) (i : Nat) : Prop :=
  address.toNat + 12 ≤ i ∧ i < address.toNat + 16

theorem InReport.inSlot {address : UInt32} {i : Nat} (h : InReport address i) : InSlot address i :=
  ⟨Nat.le_trans (Nat.le_add_right ..) h.1, h.2⟩

theorem InStatus.inSlot {address : UInt32} {i : Nat} (h : InStatus address i) : InSlot address i :=
  ⟨Nat.le_trans (Nat.le_add_right ..) h.1, h.2⟩

/-- A slot whose third and fourth words have been written. -/
theorem Aperture.EqOff.slotAt_of_report {ram written : Aperture} {address extent status : UInt32}
    (h : ram.EqOff written (InReport address))
    (hextent : written.wordAt (address.toNat + 8) = extent)
    (hstatus : written.wordAt (address.toNat + 12) = status) :
    written.slotAt address =
      { ram.slotAt address with extent := extent, status := status } := by
  have hbehind : ∀ k, k < 8 → ¬ InReport address (address.toNat + k) := fun k hk => by
    unfold InReport
    omega
  obtain ⟨hnext, hbuffer⟩ := h.pointers_eq hbehind
  show written.slotAt address = ⟨(ram.slotAt address).next, (ram.slotAt address).buffer, _, _⟩
  rw [← hnext, ← hbuffer, ← hextent, ← hstatus]
  rfl

/-- **A receive descriptor whose slot lies inside is written back to its third and fourth
words.** -/
theorem ReceiveDescriptor.exists_encode {d : ReceiveDescriptor} {ram : Aperture}
    (h : ram.CoversSlot d.address) :
    ∃ written, d.encode ram = .ok written ∧ ram.EqOff written (InReport d.address) ∧
      written.slotAt d.address =
        { ram.slotAt d.address with extent := d.extentWord, status := d.statusWord } := by
  have haddress : (d.address.toUInt64 + 8).toNat = d.address.toNat + 8 :=
    toNat_slot_add d.address (k := 8) (by omega)
  have htoNat : d.address.toUInt64.toNat = d.address.toNat := UInt32.toNat_toUInt64 _
  have hlength : Slot.length = 16 := rfl
  have hbytes : (Slot.bytesOf d.extentWord ++ Slot.bytesOf d.statusWord).length = 8 := by simp
  have hcovers : ram.Covers (d.address.toUInt64 + 8)
      (Slot.bytesOf d.extentWord ++ Slot.bytesOf d.statusWord).length := by
    obtain ⟨hbase, hend⟩ := h
    refine ⟨?_, ?_⟩ <;> omega
  obtain ⟨written, hok, heq, hbyte⟩ := Aperture.exists_write_eqOff hcovers
  rw [haddress, hbytes] at heq hbyte
  have heq' : ram.EqOff written (InReport d.address) := heq.mono fun i hi => by
    unfold InReport
    omega
  refine ⟨written, ?_, heq', ?_⟩
  · rw [encode, Aperture.translate_of_covers h]
    show liftMemory (ram.write _ _) = _
    rw [hok]
    rfl
  · have hextent : written.wordAt (d.address.toNat + 8) = d.extentWord := by
      refine Aperture.wordAt_eq_of_bytes fun k hk => ?_
      rw [hbyte k (by omega), List.getD_append _ _ _ _ (by simpa using hk)]
    have hstatus : written.wordAt (d.address.toNat + 12) = d.statusWord := by
      refine Aperture.wordAt_eq_of_bytes fun k hk => ?_
      have := hbyte (4 + k) (by omega)
      rw [List.getD_append_right _ _ _ _ (by simp), Slot.length_bytesOf,
        Nat.add_sub_cancel_left] at this
      rw [← this]
      congr 1
      omega
    exact heq'.slotAt_of_report hextent hstatus

/-- **A transmit descriptor whose slot lies inside is written back to its fourth word.** -/
theorem TransmitDescriptor.exists_encode {d : TransmitDescriptor} {ram : Aperture}
    (h : ram.CoversSlot d.address) :
    ∃ written, d.encode ram = .ok written ∧ ram.EqOff written (InStatus d.address) ∧
      written.slotAt d.address = { ram.slotAt d.address with status := d.statusWord } := by
  have haddress : (d.address.toUInt64 + 12).toNat = d.address.toNat + 12 :=
    toNat_slot_add d.address (k := 12) (by omega)
  have htoNat : d.address.toUInt64.toNat = d.address.toNat := UInt32.toNat_toUInt64 _
  have hlength : Slot.length = 16 := rfl
  have hcovers : ram.Covers (d.address.toUInt64 + 12) 4 := by
    obtain ⟨hbase, hend⟩ := h
    refine ⟨?_, ?_⟩ <;> omega
  obtain ⟨written, hok, heq, hword⟩ := Aperture.exists_writeUInt32 d.statusWord hcovers
  rw [haddress] at heq hword
  have heq' : ram.EqOff written (InStatus d.address) := heq.mono fun i hi => by
    unfold InStatus
    omega
  refine ⟨written, ?_, heq', ?_⟩
  · rw [encode, hok]
    rfl
  · rw [Aperture.slotAt, hword,
      heq'.wordAt_eq (i := d.address.toNat) (fun k hk => by unfold InStatus; omega),
      heq'.wordAt_eq (i := d.address.toNat + 4) (fun k hk => by unfold InStatus; omega),
      heq'.wordAt_eq (i := d.address.toNat + 8) (fun k hk => by unfold InStatus; omega)]
    rfl

/-- **Software can write the third and fourth words of a slot that lies inside.** -/
theorem Aperture.exists_writeWords_report {ram : Aperture} {address : UInt32}
    (extent status : UInt32) (h : ram.CoversSlot address) :
    ∃ written, ram.writeWords (address.toUInt64 + 8) [extent, status] = (written, none) ∧
      ram.EqOff written (InReport address) ∧
      written.slotAt address = { ram.slotAt address with extent := extent, status := status } := by
  have hextent : (address.toUInt64 + 8).toNat = address.toNat + 8 :=
    toNat_slot_add address (k := 8) (by omega)
  have hstatus : (address.toUInt64 + 8 + 4).toNat = address.toNat + 12 := by
    rw [UInt64.add_assoc]
    exact toNat_slot_add address (k := 12) (by omega)
  have htoNat : address.toUInt64.toNat = address.toNat := UInt32.toNat_toUInt64 _
  have hlength : Slot.length = 16 := rfl
  obtain ⟨hbase, hend⟩ := h
  have hcovers : ram.Covers (address.toUInt64 + 8) 4 := ⟨by omega, by omega⟩
  obtain ⟨first, hok, heq, hword⟩ := Aperture.exists_writeUInt32 extent hcovers
  have hcovers' : first.Covers (address.toUInt64 + 8 + 4) 4 :=
    heq.covers_iff.2 ⟨by omega, by omega⟩
  obtain ⟨written, hok', heq', hword'⟩ := Aperture.exists_writeUInt32 status hcovers'
  rw [hextent] at heq hword
  rw [hstatus] at heq' hword'
  have hreport : ram.EqOff written (InReport address) := (heq.trans heq').mono fun i hi => by
    unfold InReport
    omega
  refine ⟨written, ?_, hreport, hreport.slotAt_of_report ?_ hword'⟩
  · simp only [Aperture.writeWords, hok, hok']
  · rw [← hword]
    -- the second write leaves the word of the first alone
    exact heq'.wordAt_eq fun k hk hin => by omega

/-- **Slots that lie inside are written back one after the other.**  A write-back changes its own
slot only, and slots that do not overlap hold their new words afterwards. -/
theorem exists_applyEach_slots {α : Type} {step : α → Aperture → Except DmaFault Aperture}
    (address : α → UInt32) (touched : UInt32 → Nat → Prop) (change : α → Slot → Slot)
    (hinside : ∀ x i, touched x i → InSlot x i)
    (hstep : ∀ d ram, ram.CoversSlot (address d) → ∃ written, step d ram = .ok written ∧
      ram.EqOff written (touched (address d)) ∧
      written.slotAt (address d) = change d (ram.slotAt (address d)))
    (items : List α) (ram : Aperture) (hcovers : ∀ d ∈ items, ram.CoversSlot (address d)) :
    ∃ written, applyEach step items ram = (none, written) ∧
      ram.EqOff written (fun i => ∃ d ∈ items, touched (address d) i) ∧
      (items.Pairwise (fun d e => SlotsDisjoint (address d) (address e)) →
        ∀ d ∈ items, written.slotAt (address d) = change d (ram.slotAt (address d))) := by
  induction items generalizing ram with
  | nil =>
      refine ⟨ram, rfl, .refl ram _, ?_⟩
      intro hapart d hd
      exact absurd hd List.not_mem_nil
  | cons d rest ih =>
      obtain ⟨first, hok, heq, hslot⟩ := hstep d ram (hcovers d (List.mem_cons_self ..))
      obtain ⟨written, hrest, heq', hslots⟩ := ih first fun e he =>
        heq.covers_iff.2 (hcovers e (List.mem_cons_of_mem _ he))
      refine ⟨written, ?_, ?_, ?_⟩
      · rw [applyEach_cons_ok hok, hrest]
      · refine (heq.trans heq').mono ?_
        rintro i (hi | ⟨e, he, hi⟩)
        · exact ⟨d, List.mem_cons_self .., hi⟩
        · exact ⟨e, List.mem_cons_of_mem _ he, hi⟩
      · intro hapart e he
        obtain ⟨hfirst, hothers⟩ := List.pairwise_cons.1 hapart
        rcases List.mem_cons.1 he with rfl | he
        · rw [← hslot]
          -- the later write-backs stay inside other slots
          refine heq'.slotAt_of_apart ?_
          rintro i ⟨f, hf, hin⟩
          exact ⟨address f, (hfirst f hf).symm, hinside _ _ hin⟩
        · rw [hslots hothers e he, heq.slotAt_of_apart fun i hin => ?_]
          exact ⟨address d, hfirst e he, hinside _ _ hin⟩

end PacketDma
