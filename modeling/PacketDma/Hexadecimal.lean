/-
**Hexadecimal numerals.**

Fault texts name addresses and sizes in lower-case hexadecimal, either with as few digits as the
number needs or padded with zeros to a fixed width.

Main definitions:

* `PacketDma.Hexadecimal.text` — the shortest numeral, `0` for zero;
* `PacketDma.Hexadecimal.padded` — the numeral with at least the given number of digits.
-/

set_option autoImplicit false

namespace PacketDma

namespace Hexadecimal

/-- The digits of `n` in base sixteen, most significant first, without leading zeros. -/
def digits (n : Nat) : List Char := Nat.toDigits 16 n

/-- The shortest lower-case hexadecimal numeral of `n`. -/
def text (n : Nat) : String := String.ofList (digits n)

/-- The hexadecimal numeral of `n`, filled up with leading zeros to `width` digits. -/
def padded (width n : Nat) : String :=
  String.ofList (List.replicate (width - (digits n).length) '0' ++ digits n)

end Hexadecimal

end PacketDma
