/-
**Lanes of a word.**

The bus moves words of four bytes, halves and single bytes.  What is narrower than a word is an
aligned part of one: a number of bytes of the word, shifted down.

Main definitions:

* `PacketDma.Lane` — an aligned part of a word;
* `PacketDma.Lane.part` — its value.

Main results:

* `PacketDma.Lane.decode_lane` — **the bytes of a lane denote its part** of what all four denote;
* `PacketDma.Lane.part_halves`, `PacketDma.Lane.part_bytes` — halves and bytes make up the word;
* `PacketDma.AccessWidth.shiftLeft_mask` — a narrow value in its lane, with zeros elsewhere.
-/

import PacketDma.Engine.Bus
import Mathlib.Algebra.Ring.Nat

set_option autoImplicit false

namespace PacketDma

/-! ### Widths -/

namespace LittleEndian

/-- A byte string denotes what its first part denotes, and above that what the rest denotes. -/
theorem decode_append (first rest : List UInt8) :
    decode (first ++ rest) = decode first + bound first.length * decode rest := by
  induction first with
  | nil => simp
  | cons byte first ih =>
      rw [List.cons_append, decode_cons, ih, decode_cons, List.length_cons, bound_succ, Nat.mul_add,
        Nat.mul_assoc, Nat.add_assoc]

theorem bound_eq_two_pow (width : Nat) : bound width = 2 ^ (8 * width) := by
  induction width with
  | zero => rfl
  | succ width ih => rw [bound_succ, ih, Nat.mul_succ, Nat.pow_add, Nat.mul_comm]

end LittleEndian

namespace AccessWidth

open LittleEndian

theorem ofSize?_bytes (width : AccessWidth) : ofSize? width.bytes = some width := by
  cases width <;> rfl

theorem bound_bytes_le (width : AccessWidth) : bound width.bytes ≤ UInt64.size := by
  cases width <;> decide

theorem toNat_mask (width : AccessWidth) : width.mask.toNat = 2 ^ (8 * width.bytes) - 1 := by
  cases width <;> rfl

/-- A mask keeps the low bytes of a number. -/
theorem toNat_and_mask (width : AccessWidth) (value : UInt64) :
    (value &&& width.mask).toNat = value.toNat % bound width.bytes := by
  rw [UInt64.toNat_and, toNat_mask, Nat.and_two_pow_sub_one_eq_mod, bound_eq_two_pow]

/-- **A narrow value in its lane**, with zeros elsewhere. -/
theorem shiftLeft_mask (width : AccessWidth) (value : UInt64) {lane : Nat} (h : lane < 4) :
    (value &&& width.mask).toUInt32 <<< UInt32.ofNat (8 * lane) =
      UInt32.ofNat (value.toNat % bound width.bytes * bound lane) := by
  have hshift : (UInt32.ofNat (8 * lane)).toNat % 32 = 8 * lane := by
    rw [UInt32.toNat_ofNat']
    omega
  refine UInt32.toNat_inj.1 ?_
  rw [UInt32.toNat_shiftLeft, hshift, UInt64.toNat_toUInt32, toNat_and_mask, Nat.shiftLeft_eq,
    UInt32.toNat_ofNat', bound_eq_two_pow lane, Nat.mod_mul_mod]

end AccessWidth

namespace BusTarget

variable {offset : UInt64} {width : AccessWidth}

/-- An aligned access below the descriptor RAM addresses a lane of a register. -/
theorem decode_of_register (haligned : offset.toNat % width.bytes = 0)
    (hregister : offset.toNat < 0x2000) :
    decode offset width =
      some (.register (.ofIndex ⟨offset.toNat / 4, by omega⟩) (offset.toNat % 4)) := by
  unfold decode windowSize Register.windowSize
  rw [if_neg (by omega), dif_pos hregister]

/-- Only such an access does. -/
theorem inside_of_decode {register : Register} {lane : Nat}
    (h : decode offset width = some (.register register lane)) :
    offset.toNat % width.bytes = 0 ∧ offset.toNat < 0x2000 := by
  unfold decode Register.windowSize at h
  split at h
  · cases h
  · next hwindow =>
      split at h
      · next hregister => exact ⟨by omega, hregister⟩
      · cases h

end BusTarget

/-! ### Lanes -/

/-- A lane of a word: an aligned part of its four bytes. -/
structure Lane where
  /-- How many bytes of the word lie below the lane. -/
  start : Nat
  width : AccessWidth
  aligned : start % width.bytes = 0
  inside : start < 4

namespace Lane

open LittleEndian

/-- The whole word. -/
def whole : Lane := ⟨0, .word, rfl, by decide⟩

/-- The lower and the upper half. -/
def half (i : Fin 2) : Lane := ⟨2 * i.val, .half, Nat.mul_mod_right .., by omega⟩

/-- The four bytes, the least significant first. -/
def byte (i : Fin 4) : Lane := ⟨i.val, .byte, Nat.mod_one _, i.isLt⟩

/-- The value of a lane of a word. -/
def part (lane : Lane) (word : Nat) : Nat := word / bound lane.start % bound lane.width.bytes

/-- A lane ends inside the word. -/
theorem start_add_bytes_le (lane : Lane) : lane.start + lane.width.bytes ≤ 4 := by
  obtain ⟨start, width, haligned, hinside⟩ := lane
  cases width <;> simp only [AccessWidth.bytes] at haligned ⊢ <;> omega

theorem part_lt (lane : Lane) (word : Nat) : lane.part word < bound lane.width.bytes :=
  Nat.mod_lt _ (by cases lane.width <;> decide)

theorem toNat_ofNat_part (lane : Lane) (word : Nat) :
    (UInt64.ofNat (lane.part word)).toNat = lane.part word :=
  UInt64.toNat_ofNat_of_lt' (Nat.lt_of_lt_of_le (lane.part_lt word) lane.width.bound_bytes_le)

theorem part_whole {word : Nat} (h : word < bound 4) : whole.part word = word := by
  rw [part, whole, bound_zero, Nat.div_one]
  exact Nat.mod_eq_of_lt h

/-- The halves make up the word. -/
theorem part_halves {word : Nat} (h : word < bound 4) :
    word = (half 0).part word + 0x10000 * (half 1).part word := by
  show word = word / 1 % 0x10000 + 0x10000 * (word / 0x10000 % 0x10000)
  have hword : word < 0x100000000 := h
  omega

/-- The bytes make up the word. -/
theorem part_bytes {word : Nat} (h : word < bound 4) :
    word = (byte 0).part word + 0x100 * (byte 1).part word + 0x10000 * (byte 2).part word +
      0x1000000 * (byte 3).part word := by
  show word = word / 1 % 0x100 + 0x100 * (word / 0x100 % 0x100) +
    0x10000 * (word / 0x10000 % 0x100) + 0x1000000 * (word / 0x1000000 % 0x100)
  have hword : word < 0x100000000 := h
  omega

/-- The bytes of a lane denote its part of what all four bytes denote. -/
theorem decode_lane (lane : Lane) (byteAt : Nat → UInt8) (address : Nat) :
    decode ((List.range' (address + lane.start) lane.width.bytes).map byteAt) =
      lane.part (decode ((List.range' address 4).map byteAt)) := by
  -- four bytes are those below the lane, those of the lane, and those above it
  obtain ⟨above, habove⟩ := Nat.exists_eq_add_of_le lane.start_add_bytes_le
  have hbytes : (List.range' address 4).map byteAt =
      (List.range' address lane.start).map byteAt ++
        ((List.range' (address + lane.start) lane.width.bytes).map byteAt ++
          (List.range' (address + lane.start + lane.width.bytes) above).map byteAt) := by
    rw [← List.map_append, ← List.map_append, List.range'_append_1, List.range'_append_1,
      habove, Nat.add_assoc]
  have hlane := decode_lt ((List.range' (address + lane.start) lane.width.bytes).map byteAt)
  have hbelow := decode_lt ((List.range' address lane.start).map byteAt)
  rw [hbytes, decode_append, decode_append, part]
  rw [List.length_map, List.length_range'] at hlane hbelow ⊢
  rw [List.length_map, List.length_range', Nat.add_mul_div_left _ _ (Nat.zero_lt_of_lt hbelow),
    Nat.div_eq_of_lt hbelow, Nat.zero_add, Nat.add_mul_mod_self_left, Nat.mod_eq_of_lt hlane]

/-- The lanes of a word of ones are all ones. -/
theorem part_ones (lane : Lane) : lane.part 0xFFFFFFFF = lane.width.mask.toNat := by
  have hones := lane.decode_lane (fun _ => 0xFF) 0
  rw [List.map_const', List.map_const', List.length_range', List.length_range'] at hones
  refine (Eq.trans ?_ hones.symm).trans ?_
  · rfl
  · cases lane.width <;> rfl

end Lane

end PacketDma
