/-
**Little-endian words.**

Words travel to and from memory as byte strings with the least significant byte first.  Encoding
and decoding are stated for numbers of any width; the fixed-width words of the engine are the
instances with one, two and four bytes.

Main definitions:

* `PacketDma.LittleEndian.encode` — the low bytes of a number, least significant first;
* `PacketDma.LittleEndian.decode` — the number that a byte string denotes;
* `PacketDma.LittleEndian.bound` — the least number that does not fit into a number of bytes.

Main results:

* `PacketDma.LittleEndian.decode_encode` — decoding inverts encoding up to the width;
* `PacketDma.LittleEndian.encode_decode` — encoding inverts decoding.
-/

set_option autoImplicit false

namespace PacketDma

namespace LittleEndian

/-- The lowest `width` bytes of `value`, least significant first. -/
def encode : (width : Nat) → (value : Nat) → List UInt8
  | 0, _ => []
  | width + 1, value => UInt8.ofNat value :: encode width (value / 256)

/-- The number denoted by a byte string whose first byte is the least significant. -/
def decode : List UInt8 → Nat
  | [] => 0
  | byte :: rest => byte.toNat + 256 * decode rest

/-- The least number that does not fit into `width` bytes. -/
def bound : (width : Nat) → Nat
  | 0 => 1
  | width + 1 => 256 * bound width

@[simp] theorem bound_zero : bound 0 = 1 := rfl

@[simp] theorem bound_succ (width : Nat) : bound (width + 1) = 256 * bound width := rfl

@[simp] theorem encode_zero (value : Nat) : encode 0 value = [] := rfl

@[simp] theorem encode_succ (width value : Nat) :
    encode (width + 1) value = UInt8.ofNat value :: encode width (value / 256) := rfl

@[simp] theorem decode_nil : decode [] = 0 := rfl

@[simp] theorem decode_cons (byte : UInt8) (rest : List UInt8) :
    decode (byte :: rest) = byte.toNat + 256 * decode rest := rfl

@[simp] theorem length_encode (width value : Nat) : (encode width value).length = width := by
  induction width generalizing value with
  | zero => rfl
  | succ width ih => simp [ih]

/-- Decoding an encoded number gives it back modulo the bound of the width. -/
theorem decode_encode (width value : Nat) : decode (encode width value) = value % bound width := by
  induction width generalizing value with
  | zero => simp [Nat.mod_one]
  | succ width ih =>
      rw [encode_succ, decode_cons, ih, bound_succ, Nat.mod_mul]
      simp

/-- Encoding loses nothing of a number that fits. -/
theorem decode_encode_of_lt {width value : Nat} (h : value < bound width) :
    decode (encode width value) = value := by
  rw [decode_encode, Nat.mod_eq_of_lt h]

/-- A byte string denotes a number that fits into as many bytes. -/
theorem decode_lt (bytes : List UInt8) : decode bytes < bound bytes.length := by
  induction bytes with
  | nil => simp
  | cons byte rest ih =>
      have := byte.toNat_lt
      rw [decode_cons, List.length_cons, bound_succ]
      omega

/-- Every byte string is the encoding of the number that it denotes. -/
theorem encode_decode (bytes : List UInt8) : encode bytes.length (decode bytes) = bytes := by
  induction bytes with
  | nil => rfl
  | cons byte rest ih =>
      have := byte.toNat_lt
      have hdiv : (byte.toNat + 256 * decode rest) / 256 = decode rest := by omega
      have hmod : UInt8.ofNat (byte.toNat + 256 * decode rest) = byte := by
        apply UInt8.toNat_inj.1
        rw [UInt8.toNat_ofNat']
        omega
      rw [List.length_cons, encode_succ, decode_cons, hdiv, ih, hmod]

end LittleEndian

end PacketDma
