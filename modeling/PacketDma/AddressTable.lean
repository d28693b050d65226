/-
**The address table.**

The switch keeps a table of 1024 entries of three words each.  Software reaches it through an
index: the words of the selected entry can be read and written one by one.  An index past the end
selects nothing, so that words written there are lost and words read there are zero.

Main definitions:

* `PacketDma.AddressTable` — the entries and the index;
* `PacketDma.AddressTable.read`, `PacketDma.AddressTable.write` — a word of the selected entry;
* `PacketDma.AddressTable.clear` — all entries zero, the index kept.

Main results:

* `PacketDma.AddressTable.word_write` — which word of the table a write changes.
-/

set_option autoImplicit false

namespace PacketDma

/-- A table of 1024 entries of three words, and the index that word accesses use. -/
structure AddressTable where
  entries : Vector (Vector UInt32 3) 1024
  index : UInt32
deriving DecidableEq

namespace AddressTable

/-- The table of zero entries with the first entry selected. -/
def zero : AddressTable := ⟨Vector.replicate 1024 (Vector.replicate 3 0), 0⟩

/-- Selects the entry that word accesses go to. -/
def select (t : AddressTable) (index : UInt32) : AddressTable := { t with index }

/-- The entry with number `i`, if there is one. -/
def entry? (t : AddressTable) (i : Nat) : Option (Vector UInt32 3) := t.entries[i]?

/-- Word `slot` of entry `i`, zero outside the table. -/
def word (t : AddressTable) (i slot : Nat) : UInt32 :=
  if h : i < 1024 ∧ slot < 3 then t.entries[i][slot] else 0

/-- Word `slot` of the selected entry, zero when there is no such word. -/
def read (t : AddressTable) (slot : Nat) : UInt32 := t.word t.index.toNat slot

/-- Replaces word `slot` of the selected entry, if there is such a word. -/
def write (t : AddressTable) (slot : Nat) (value : UInt32) : AddressTable :=
  if h : t.index.toNat < 1024 ∧ slot < 3 then
    { t with entries := t.entries.set t.index.toNat (t.entries[t.index.toNat].set slot value) }
  else t

/-- Zeroes every entry and keeps the index. -/
def clear (t : AddressTable) : AddressTable := { zero with index := t.index }

@[simp] theorem index_select (t : AddressTable) (index : UInt32) :
    (t.select index).index = index := rfl

@[simp] theorem word_select (t : AddressTable) (index : UInt32) (i slot : Nat) :
    (t.select index).word i slot = t.word i slot := rfl

@[simp] theorem index_clear (t : AddressTable) : t.clear.index = t.index := rfl

@[simp] theorem index_write (t : AddressTable) (slot : Nat) (value : UInt32) :
    (t.write slot value).index = t.index := by
  unfold write
  split <;> rfl

@[simp] theorem word_zero (i slot : Nat) : zero.word i slot = 0 := by
  simp [word, zero]

@[simp] theorem word_clear (t : AddressTable) (i slot : Nat) : t.clear.word i slot = 0 :=
  word_zero i slot

/-- **A write changes the addressed word of the selected entry and nothing else.** -/
theorem word_write (t : AddressTable) (slot : Nat) (value : UInt32) (i s : Nat) :
    (t.write slot value).word i s =
      if i = t.index.toNat ∧ s = slot ∧ i < 1024 ∧ s < 3 then value else t.word i s := by
  unfold write word
  by_cases hw : t.index.toNat < 1024 ∧ slot < 3
  · by_cases hr : i < 1024 ∧ s < 3
    · by_cases hi : t.index.toNat = i
      · subst hi
        by_cases hs : slot = s
        · subst hs
          simp [hw]
        · simp [hw, hr, hs, Ne.symm hs]
      · simp [hw, hr, hi, Ne.symm hi]
    · rw [dif_neg hr, dif_neg hr, if_neg fun h => hr h.2.2]
  · rw [if_neg fun ⟨hi, hs, h⟩ => hw (by rwa [← hi, ← hs])]
    simp [hw]

end AddressTable

end PacketDma
