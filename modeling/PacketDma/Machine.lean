/-
**Operations of the machine.**

On a machine the operations on sizes, addresses and byte strings are partial: a sum may not fit into
its word, a difference may be negative, a divisor may be zero, a slice may leave its string, and a
string may be too long to be allocated, which depends on the machine.  A checked computation carries
such operations out as the machine does.  It is stuck where one of them is outside its domain;
otherwise it has a result, which may be a fault like any other.

A function that is checked in this way comes with the lemma that it is the function itself, never
stuck, as far as its arguments can occur.

Main definitions:

* `PacketDma.Allocator` — how much a machine can allocate;
* `PacketDma.Machine.within` — the result of a partial operation;
* `PacketDma.Machine.allocate` — an allocation;
* `PacketDma.Machine.add`, `PacketDma.Machine.sub`, `PacketDma.Machine.slice` and their kin — the
  partial operations;
* `PacketDma.Checked` — computations that may be stuck, and may end with a fault;
* `PacketDma.Checked.total` — a computation that is not stuck.

Main results:

* `PacketDma.Machine.within_eq_none_iff` — a partial operation has no result exactly outside its
  domain;
* `PacketDma.Checked.total_bind`, `PacketDma.Checked.run_bind_of_none` — a sequence is not stuck if
  none of its parts is, and stuck if its first part is.
-/

import PacketDma.Channel
import PacketDma.Fault

set_option autoImplicit false

namespace PacketDma

/-- How much a machine can allocate. -/
class Allocator where
  /-- The most bytes that can be allocated at once. -/
  limit : Nat

/-- The allocator that is limited by the largest size with a sign.  No machine with addresses of 64
bits allocates more at once. -/
@[reducible] def Allocator.signedSize : Allocator := ⟨0x7FFFFFFFFFFFFFFF⟩

namespace Machine

/-- The result of a partial operation: there is none outside the domain of the operation. -/
def within (domain : Prop) [Decidable domain] {α : Type} (result : α) : Option α :=
  if domain then some result else none

/-- A partial operation has no result exactly outside its domain. -/
theorem within_eq_none_iff {domain : Prop} [Decidable domain] {α : Type} {result : α} :
    within domain result = none ↔ ¬ domain := by
  simp [within]

@[simp] theorem within_of {domain : Prop} [Decidable domain] (h : domain) {α : Type} (result : α) :
    within domain result = some result := if_pos h

/-- A result to go on with. -/
theorem bind_of_some {α β : Type} {result : Option α} {a : α} (h : result = some a)
    (after : α → Option β) : (result >>= after) = after a := by
  subst h
  rfl

/-- Allocates bytes, all at once. -/
def allocate [Allocator] (bytes : Nat) : Option Unit := within (bytes ≤ Allocator.limit) ()

/-- The sum of two sizes, which has to fit into 64 bits. -/
def add (a b : Nat) : Option Nat := within (a + b < UInt64.size) (a + b)

/-- The difference of two sizes. -/
def sub (a b : Nat) : Option Nat := within (b ≤ a) (a - b)

/-- The quotient of two sizes. -/
def div (a b : Nat) : Option Nat := within (b ≠ 0) (a / b)

/-- The remainder of two sizes. -/
def mod (a b : Nat) : Option Nat := within (b ≠ 0) (a % b)

/-- The product of two words, which has to fit into 32 bits. -/
def mulWord (a b : Nat) : Option Nat := within (a * b < UInt32.size) (a * b)

/-- The sum of two addresses, which has to fit into 64 bits. -/
def addAddress (a b : UInt64) : Option UInt64 := within (a.toNat + b.toNat < UInt64.size) (a + b)

/-- A word moved up by fewer bits than it has. -/
def shiftLeft (value : UInt32) (bits : Nat) : Option UInt32 :=
  within (bits < 32) (value <<< UInt32.ofNat bits)

/-- A double word moved down by fewer bits than it has. -/
def shiftRight (value : UInt64) (bits : Nat) : Option UInt64 :=
  within (bits < 64) (value >>> UInt64.ofNat bits)

/-- The part of a string from `start` up to `stop`. -/
def slice {α : Type} (string : List α) (start stop : Nat) : Option (List α) :=
  within (start ≤ stop ∧ stop ≤ string.length) ((string.drop start).take (stop - start))

/-- Cuts a string in two behind its first items, of which there have to be enough. -/
def cut {α : Type} (string : List α) (count : Nat) : Option (List α × List α) :=
  within ((string.take count).length = count) (string.take count, string.drop count)

/-- Copies a string to a place of the same length. -/
def copy {α : Type} (room : Nat) (string : List α) : Option (List α) :=
  within (string.length = room) string

/-- Replaces the item at a position of a table. -/
def replaceAt {α : Type} {n : Nat} (table : Vector α n) (position : Nat) (item : α) :
    Option (Vector α n) :=
  if h : position < n then some (table.set position item h) else none

/-- The number of a channel as an index of the channels. -/
def channelIndex (number : Nat) : Option ChannelId :=
  if h : number < 8 then some ⟨number, h⟩ else none

theorem allocate_of_le [Allocator] {bytes : Nat} (h : bytes ≤ Allocator.limit) :
    allocate bytes = some () := within_of h _

theorem add_of_lt {a b : Nat} (h : a + b < UInt64.size) : add a b = some (a + b) := within_of h _

theorem sub_of_le {a b : Nat} (h : b ≤ a) : sub a b = some (a - b) := within_of h _

theorem addAddress_of_lt {a b : UInt64} (h : a.toNat + b.toNat < UInt64.size) :
    addAddress a b = some (a + b) := within_of h _

theorem slice_of_le {α : Type} {string : List α} {start stop : Nat} (h : start ≤ stop)
    (hstop : stop ≤ string.length) :
    slice string start stop = some ((string.drop start).take (stop - start)) := within_of ⟨h, hstop⟩ _

theorem cut_of_le {α : Type} {string : List α} {count : Nat} (h : count ≤ string.length) :
    cut string count = some (string.take count, string.drop count) :=
  within_of (List.length_take_of_le h) _

theorem channelIndex_val (c : ChannelId) : channelIndex c.val = some c := dif_pos c.isLt

end Machine

/-- A computation that may end with a fault, and is stuck where one of its operations is outside its
domain. -/
abbrev Checked (ε α : Type) := ExceptT ε Option α

namespace Checked

variable {ε α β : Type}

/-- A computation that is not stuck. -/
def total (result : Except ε α) : Checked ε α := ExceptT.mk (some result)

@[simp] theorem run_total (result : Except ε α) : (total result).run = some result := rfl

/-- **A sequence is not stuck if none of its parts is.** -/
theorem total_bind {first : Except ε α} {second : α → Checked ε β} {after : α → Except ε β}
    (h : ∀ a, first = .ok a → second a = total (after a)) :
    (total first >>= second) = total (first >>= after) := by
  cases first with
  | error fault => rfl
  | ok a => exact h a rfl

/-- An operation inside its domain has a result to go on with. -/
theorem bind_some {result : Option α} {a : α} (h : result = some a) (second : α → Checked ε β) :
    ((liftM result : Checked ε α) >>= second) = second a := by
  subst h
  rfl

/-- A computation on memory as a computation of the engine. -/
def liftMemory (computation : Checked MemoryFault α) : Checked DmaFault α :=
  ExceptT.mk (computation.run.map PacketDma.liftMemory)

end Checked

end PacketDma
