/-
**The check sequence verifies at any receiver.**

A receiver need not know where a frame ends and its check sequence begins.  It divides everything
that arrives, and the remainder of a byte string with its own check sequence behind it is always the
same number, the residue.  The division is linear: a register takes in four bytes as one word, added
to the word that is in it, and so a check sequence meets its own complement and leaves all ones to
be divided.  The polynomial has the highest bit, and so no other four bytes lead there.

Main definitions:

* `PacketDma.Crc32.residue` — the CRC-32 of a byte string that ends with its check sequence;
* `PacketDma.Frame.Verifies` — the last four bytes of a frame are the check sequence of the others;
* `PacketDma.SentChain`, `PacketDma.System.sentChains` — the chains whose frames have entered the
  egress queue in a run.

Main results:

* `PacketDma.Crc32.shift_xor`, `PacketDma.Crc32.shift_injective` — a step of the division is linear
  and loses nothing;
* `PacketDma.Crc32.register_eq_shifts` — **up to four bytes are taken in as one word**;
* `PacketDma.Crc32.checksum_append_eq_residue_iff` — **the residue tells a byte string with its
  check sequence from any other**;
* `PacketDma.System.entering_egressLog` — the frames in the egress queue come from chains;
* `PacketDma.System.appended_check_sequence_verifies` — **every frame that gets a check sequence
  verifies**.
-/

import Mathlib.Data.Nat.Bitwise
import PacketDma.Proofs.EgressAccounts
import PacketDma.Proofs.TransmitOutcome

set_option autoImplicit false

namespace PacketDma

namespace Crc32

/-! ### The division is linear -/

theorem toNat_lowBit (r : UInt32) : (r &&& 1).toNat = r.toNat % 2 := by
  rw [UInt32.toNat_and]
  exact Nat.and_one_is_mod _

theorem toNat_shiftRight_one (r : UInt32) : (r >>> 1).toNat = r.toNat / 2 := by
  rw [UInt32.toNat_shiftRight]
  exact Nat.shiftRight_eq_div_pow ..

theorem lowBit_cases (r : UInt32) : r &&& 1 = 0 ∨ r &&& 1 = 1 := by
  rcases Nat.mod_two_eq_zero_or_one r.toNat with h | h
  · exact Or.inl (UInt32.toNat_inj.1 ((toNat_lowBit r).trans h))
  · exact Or.inr (UInt32.toNat_inj.1 ((toNat_lowBit r).trans h))

theorem lowBit_xor (a b : UInt32) : (a ^^^ b) &&& 1 = (a &&& 1) ^^^ (b &&& 1) := by
  apply UInt32.toNat_inj.1
  simp only [UInt32.toNat_and, UInt32.toNat_xor]
  exact Nat.and_xor_distrib_right ..

/-- What a step of the division subtracts. -/
def subtrahend (register : UInt32) : UInt32 := if register &&& 1 = 1 then polynomial else 0

theorem shift_eq_xor (r : UInt32) : shift r = (r >>> 1) ^^^ subtrahend r := by
  unfold shift subtrahend
  split
  · rfl
  · exact UInt32.xor_zero.symm

theorem subtrahend_xor (a b : UInt32) : subtrahend (a ^^^ b) = subtrahend a ^^^ subtrahend b := by
  unfold subtrahend
  rw [lowBit_xor]
  rcases lowBit_cases a with ha | ha <;> rcases lowBit_cases b with hb | hb <;> rw [ha, hb] <;> rfl

/-- **A step of the division is linear.** -/
theorem shift_xor (a b : UInt32) : shift (a ^^^ b) = shift a ^^^ shift b := by
  simp only [shift_eq_xor, subtrahend_xor, UInt32.shiftRight_xor]
  ac_rfl

theorem shifts_succ (steps : Nat) (r : UInt32) : shifts (steps + 1) r = shifts steps (shift r) :=
  rfl

theorem shifts_xor (steps : Nat) (a b : UInt32) :
    shifts steps (a ^^^ b) = shifts steps a ^^^ shifts steps b := by
  induction steps generalizing a b with
  | zero => rfl
  | succ steps ih => rw [shifts_succ, shift_xor, ih, ← shifts_succ, ← shifts_succ]

theorem shifts_add (first second : Nat) (r : UInt32) :
    shifts (first + second) r = shifts second (shifts first r) := by
  induction first generalizing r with
  | zero => exact congrArg (shifts · r) (Nat.zero_add second)
  | succ first ih => rw [Nat.succ_add, shifts_succ, ih, shifts_succ]

/-! ### The division loses nothing -/

/-- Only the empty register is empty after a step: what is subtracted has the highest bit, and what
moves down has not. -/
theorem eq_zero_of_shift_eq_zero {r : UInt32} (h : shift r = 0) : r = 0 := by
  rw [shift_eq_xor, UInt32.xor_eq_zero_iff] at h
  have hdown := congrArg UInt32.toNat h
  rw [toNat_shiftRight_one, subtrahend] at hdown
  split at hdown
  · rw [show polynomial.toNat = 0xEDB88320 from rfl] at hdown
    have := r.toNat_lt
    omega
  · next hbit =>
      have hlow := toNat_lowBit r
      rw [(lowBit_cases r).resolve_right hbit] at hlow
      rw [show (0 : UInt32).toNat = 0 from rfl] at hdown hlow
      exact UInt32.toNat_inj.1 (by omega : r.toNat = 0)

theorem shift_injective : Function.Injective shift := by
  intro a b h
  have hdiff : shift (a ^^^ b) = 0 := by rw [shift_xor, h, UInt32.xor_self]
  exact UInt32.xor_eq_zero_iff.1 (eq_zero_of_shift_eq_zero hdiff)

theorem shifts_injective (steps : Nat) : Function.Injective (shifts steps) := by
  induction steps with
  | zero => exact Function.injective_id
  | succ steps ih => exact ih.comp shift_injective

/-! ### Bytes are taken in as a word -/

/-- As long as clear bits leave the register, it only moves down. -/
theorem toNat_shifts_of_dvd (steps : Nat) {r : UInt32} (h : 2 ^ steps ∣ r.toNat) :
    (shifts steps r).toNat = r.toNat / 2 ^ steps := by
  induction steps generalizing r with
  | zero => exact (Nat.div_one _).symm
  | succ steps ih =>
      obtain ⟨q, hq⟩ := h
      have htwice : r.toNat = 2 * (2 ^ steps * q) := by
        rw [hq, Nat.pow_succ']
        ac_rfl
      have hclear : ¬ r &&& 1 = 1 := by
        intro hbit
        have hodd : r.toNat % 2 = 1 := by
          rw [← toNat_lowBit, hbit]
          rfl
        omega
      have hshift : (shift r).toNat = 2 ^ steps * q := by
        rw [shift, if_neg hclear, toNat_shiftRight_one, htwice,
          Nat.mul_div_cancel_left _ (by decide)]
      rw [shifts_succ, ih ⟨q, hshift⟩, hshift, htwice, Nat.pow_succ',
        Nat.mul_div_mul_left _ _ (by decide : 0 < 2)]

/-- A byte shares no bit with what stands above it. -/
theorem xor_above {low : Nat} (h : low < 2 ^ 8) (high : Nat) :
    low ^^^ 256 * high = low + 256 * high := by
  have hdiv : (low ^^^ 256 * high) / 2 ^ 8 = high := by
    rw [Nat.xor_div_two_pow, Nat.div_eq_of_lt h, Nat.zero_xor]
    exact Nat.mul_div_cancel_left _ (by decide)
  have hmod : (low ^^^ 256 * high) % 2 ^ 8 = low := by
    rw [Nat.xor_mod_two_pow, Nat.mod_eq_of_lt h,
      show 256 * high % 2 ^ 8 = 0 from Nat.mul_mod_right .., Nat.xor_zero]
  have hsplit := Nat.div_add_mod (low ^^^ 256 * high) (2 ^ 8)
  rw [hdiv, hmod] at hsplit
  omega

theorem toUInt32_xor_above (byte : UInt8) (above : Nat)
    (h : byte.toNat + 256 * above < UInt32.size) :
    byte.toUInt32 ^^^ UInt32.ofNat (256 * above) = UInt32.ofNat (byte.toNat + 256 * above) := by
  apply UInt32.toNat_inj.1
  rw [UInt32.toNat_xor, UInt32.toNat_ofNat_of_lt' h, UInt32.toNat_ofNat_of_lt' (by omega),
    UInt8.toNat_toUInt32]
  exact xor_above byte.toNat_lt above

/-- Three bytes leave room for a fourth below them. -/
theorem decode_lt_of_length_le {bytes : List UInt8} (h : bytes.length ≤ 3) :
    LittleEndian.decode bytes < 256 ^ 3 := by
  refine Nat.lt_of_lt_of_le (LittleEndian.decode_lt bytes) ?_
  generalize bytes.length = n at h
  match n with
  | 0 | 1 | 2 | 3 => decide

/-- **Up to four bytes are taken in as one word**, added to what is in the register. -/
theorem register_eq_shifts (start : UInt32) {bytes : List UInt8} (h : bytes.length ≤ 4) :
    register start bytes =
      shifts (8 * bytes.length) (start ^^^ UInt32.ofNat (LittleEndian.decode bytes)) := by
  induction bytes generalizing start with
  | nil => exact UInt32.xor_zero.symm
  | cons byte rest ih =>
      have hrest := decode_lt_of_length_le (Nat.le_of_succ_le_succ h)
      have hbyte := byte.toNat_lt
      have hsize : UInt32.size = 256 * 256 ^ 3 := rfl
      -- the bytes behind the first one are added before it is divided, eight bits higher up
      have hdown : shifts 8 (UInt32.ofNat (256 * LittleEndian.decode rest)) =
          UInt32.ofNat (LittleEndian.decode rest) := by
        have habove : (UInt32.ofNat (256 * LittleEndian.decode rest)).toNat =
            2 ^ 8 * LittleEndian.decode rest := UInt32.toNat_ofNat_of_lt' (by omega)
        apply UInt32.toNat_inj.1
        rw [toNat_shifts_of_dvd 8 ⟨_, habove⟩, habove, UInt32.toNat_ofNat_of_lt' (by omega)]
        exact Nat.mul_div_cancel_left _ (by decide)
      calc register start (byte :: rest)
          = shifts (8 * rest.length) (shifts 8 (start ^^^ byte.toUInt32) ^^^
              UInt32.ofNat (LittleEndian.decode rest)) := ih _ (Nat.le_of_succ_le h)
        _ = shifts (8 * rest.length) (shifts 8 ((start ^^^ byte.toUInt32) ^^^
              UInt32.ofNat (256 * LittleEndian.decode rest))) := by rw [← hdown, ← shifts_xor]
        _ = shifts (8 * (byte :: rest).length) (start ^^^
              UInt32.ofNat (LittleEndian.decode (byte :: rest))) := by
            rw [← shifts_add, UInt32.xor_assoc, toUInt32_xor_above byte _ (by omega),
              LittleEndian.decode_cons, List.length_cons, Nat.mul_succ, Nat.add_comm]

/-! ### The residue -/

/-- The CRC-32 of a byte string that ends with its check sequence. -/
def residue : UInt32 := 0x2144DF1C

/-- All ones are divided to the complement of the residue. -/
theorem shifts_ones : shifts 32 (~~~ 0) = ~~~ residue := by decide +kernel

/-- **The residue tells a byte string with its check sequence from any other.** -/
theorem checksum_append_eq_residue_iff (data : List UInt8) {tail : List UInt8}
    (h : tail.length = 4) :
    checksum (data ++ tail) = residue ↔ LittleEndian.decode tail = (checksum data).toNat := by
  have hword : LittleEndian.decode tail < UInt32.size := by
    have := LittleEndian.decode_lt tail
    rwa [h] at this
  -- the register holds the complement of the check sequence when the last four bytes arrive
  have hregister : register 0xFFFFFFFF (data ++ tail) =
      shifts 32 (~~~ (checksum data ^^^ UInt32.ofNat (LittleEndian.decode tail))) := by
    rw [register_append, register_eq_shifts _ (Nat.le_of_eq h), h, checksum, ← UInt32.not_xor,
      UInt32.not_not]
  calc checksum (data ++ tail) = residue
      ↔ shifts 32 (~~~ (checksum data ^^^ UInt32.ofNat (LittleEndian.decode tail))) =
          shifts 32 (~~~ 0) := by
        rw [checksum, hregister, shifts_ones, UInt32.not_eq_comm, eq_comm]
    _ ↔ checksum data = UInt32.ofNat (LittleEndian.decode tail) := by
        rw [(shifts_injective 32).eq_iff, UInt32.not_inj, UInt32.xor_eq_zero_iff]
    _ ↔ LittleEndian.decode tail = (checksum data).toNat := by
        rw [← UInt32.toNat_inj, UInt32.toNat_ofNat_of_lt' hword, eq_comm]

end Crc32

/-! ### Frames -/

namespace Frame

/-- What a receiver asks of a frame: its last four bytes are the check sequence of the others. -/
def Verifies (frame : Frame) : Prop :=
  4 ≤ frame.length ∧
    LittleEndian.decode (frame.drop (frame.length - 4)) =
      (Crc32.checksum (frame.take (frame.length - 4))).toNat

instance (frame : Frame) : Decidable frame.Verifies := inferInstanceAs (Decidable (_ ∧ _))

/-- **A receiver need not look for the check sequence**: the residue of the whole frame tells. -/
theorem verifies_iff {frame : Frame} :
    frame.Verifies ↔ 4 ≤ frame.length ∧ Crc32.checksum frame = Crc32.residue := by
  refine and_congr_right fun hlength => ?_
  have htail : (frame.drop (frame.length - 4)).length = 4 := by
    rw [List.length_drop]
    omega
  rw [← Crc32.checksum_append_eq_residue_iff _ htail, List.take_append_drop]

/-- **A frame with its check sequence verifies.** -/
theorem verifies_withFcs (data : Frame) : data.withFcs.Verifies := by
  have hfits : (Crc32.checksum data).toNat < LittleEndian.bound 4 := (Crc32.checksum data).toNat_lt
  refine verifies_iff.2 ⟨?_, ?_⟩
  · rw [length_withFcs]
    exact Nat.le_add_left ..
  · exact (Crc32.checksum_append_eq_residue_iff data (LittleEndian.length_encode ..)).2
      (LittleEndian.decode_encode_of_lt hfits)

/-- The nine digits are what CRC-32 is usually checked with. -/
example : withFcs [0x31, 0x32, 0x33, 0x34, 0x35, 0x36, 0x37, 0x38, 0x39] =
    [0x31, 0x32, 0x33, 0x34, 0x35, 0x36, 0x37, 0x38, 0x39, 0x26, 0x39, 0xF4, 0xCB] := by
  decide +kernel

end Frame

/-! ### The chains of a run -/

/-- A chain whose frame has been sent: the words of its first descriptor, and the data that it
carries. -/
structure SentChain where
  first : Slot
  data : Frame
deriving DecidableEq, Repr

/-- The frame of the chain as it has left the engine. -/
def SentChain.outgoing (chain : SentChain) : Frame := chain.first.outgoing chain.data

/-- The engine has appended the check sequence of the frames whose data does not bring it. -/
theorem SentChain.outgoing_of_clear {chain : SentChain}
    (h : chain.first.status &&& Status.passCrc = 0) : chain.outgoing = chain.data.withFcs :=
  if_pos h

namespace System

variable (s : System)

/-- The chain from `head` on, if it can be gathered and the egress queue has room for its frame. -/
def chainEntry (channel : ChannelId) (head : UInt32) : List SentChain :=
  match gather s.engine.ram s.memory channel head s.engine.settings.walkLimit with
  | .error _ => []
  | .ok g =>
      if s.engine.settings.egressLimit ≤ s.engine.egress.length then []
      else [⟨s.engine.ram.slotAt head, g.frame⟩]

/-- The chains whose frames enter the egress queue with an action. -/
def chainEntries : Action → List SentChain
  | .store (.transmitHead channel) value => if value = 0 then [] else s.chainEntry channel value
  | _ => []

/-- A head pointer write that is not zero makes the entries of its chain. -/
theorem chainEntries_transmitHead (channel : ChannelId) {value : UInt32} (h : value ≠ 0) :
    s.chainEntries (.store (.transmitHead channel) value) = s.chainEntry channel value :=
  if_neg h

/-- The chains whose frames have entered the egress queue in a run, since the last full reset. -/
def sentChains (ops : List Operation) : List SentChain := s.log chainEntries ops

open EgressEntry

theorem entering_sendEntry (channel : ChannelId) (head : UInt32) :
    (s.sendEntry channel head).entering =
      (s.chainEntry channel head).map SentChain.outgoing := by
  unfold sendEntry chainEntry
  cases hgather : gather s.engine.ram s.memory channel head s.engine.settings.walkLimit with
  | error fault => rfl
  | ok g =>
      have hout := outgoing_of_gather hgather
      dsimp only [EgressTally.sent, Engine.egressTally]
      split
      · rfl
      · exact congrArg (fun frame => [frame]) hout

/-- What an action puts into the egress queue comes from a chain. -/
theorem entering_egressEntries (action : Action) :
    (s.egressEntries action).flatMap entering =
      (s.chainEntries action).map SentChain.outgoing := by
  cases action with
  | store register value =>
      cases register with
      | transmitHead channel =>
          by_cases hvalue : value = 0
          · subst hvalue
            rfl
          · rw [egressEntries_transmitHead s channel hvalue,
              chainEntries_transmitHead s channel hvalue, ← entering_sendEntry]
            exact List.flatMap_singleton ..
      | _ => rfl
  | takeEgress =>
      show (s.engine.takeEgress.1.toList.map EgressEntry.taken).flatMap entering = []
      cases s.engine.takeEgress.1 <;> rfl
  | _ => rfl

theorem entering_logFrom (ops : List Operation) {log : List EgressEntry} {chains : List SentChain}
    (h : log.flatMap entering = chains.map SentChain.outgoing) :
    (s.logFrom egressEntries log ops).flatMap entering =
      (s.logFrom chainEntries chains ops).map SentChain.outgoing := by
  induction ops generalizing s log chains with
  | nil => exact h
  | cons op rest ih =>
      refine ih _ ?_
      by_cases hreset : op.action = .reset
      · rw [extend, extend, if_pos hreset, if_pos hreset]
        rfl
      · rw [extend_of_ne hreset, extend_of_ne hreset, List.flatMap_append, List.map_append, h,
          entering_egressEntries]

/-- **The frames in the egress queue come from chains**, one from each and in their order. -/
theorem entering_egressLog (ops : List Operation) :
    (s.egressLog ops).flatMap entering = (s.sentChains ops).map SentChain.outgoing :=
  s.entering_logFrom ops rfl

variable {s}

/-- **The tally of the engine agrees with the log of a run** from a fresh or a fully reset
engine. -/
theorem balanced_egressLog
    (hstart : (∃ settings clock interrupt, s.engine = .fresh settings clock interrupt) ∨
      ∃ e : Engine, s.engine = e.reset)
    (ops : List Operation) :
    (s.run ops).2.engine.egressTally.Balanced (s.egressLog ops) := by
  have hempty : s.engine.egressTally.Balanced [] := by
    rcases hstart with ⟨settings, clock, interrupt, h⟩ | ⟨e, h⟩
    · rw [h]
      exact .empty settings.egressLimit
    · rw [h]
      exact .empty e.settings.egressLimit
  exact log_induction (I := fun log s => s.engine.egressTally.Balanced log)
    (fun op _ _ _ h => balanced_egress h op.action) hempty

/-- **Every frame that gets a check sequence verifies.**  For a byte string of any length, the
check sequence adds four bytes behind it and leads to the residue; and the residue is what tells a
receiver that the last four bytes of a frame are the check sequence of the others.  At every moment
of a run that begins with a fresh or a fully reset engine, the frames that the host has taken and
those that wait are those of the chains that have been sent, one from each and in their order; and
where the words of the first descriptor do not say that the data brings its check sequence, the
frame is the data with its check sequence and verifies. -/
theorem appended_check_sequence_verifies
    (hstart : (∃ settings clock interrupt, s.engine = .fresh settings clock interrupt) ∨
      ∃ e : Engine, s.engine = e.reset)
    (ops : List Operation) :
    (∀ data : Frame, Crc32.checksum data.withFcs = 0x2144DF1C ∧
      data.withFcs.length = data.length + 4 ∧ data <+: data.withFcs) ∧
    (∀ frame : Frame, frame.Verifies ↔
      4 ≤ frame.length ∧ Crc32.checksum frame = 0x2144DF1C) ∧
    (s.egressLog ops).flatMap leaving ++ (s.run ops).2.engine.egress =
      (s.sentChains ops).map SentChain.outgoing ∧
    ∀ chain ∈ s.sentChains ops, chain.first.status &&& Status.passCrc = 0 →
      chain.outgoing = chain.data.withFcs ∧ chain.outgoing.Verifies := by
  refine ⟨?_, fun frame => Frame.verifies_iff, ?_, ?_⟩
  · intro data
    obtain ⟨-, hresidue⟩ := Frame.verifies_iff.1 data.verifies_withFcs
    exact ⟨hresidue, data.length_withFcs, List.prefix_append ..⟩
  · exact (balanced_egressLog hstart ops).order.trans (s.entering_egressLog ops)
  · intro chain _ hclear
    have hout := SentChain.outgoing_of_clear hclear
    refine ⟨hout, ?_⟩
    rw [hout]
    exact Frame.verifies_withFcs chain.data

/-- Two chains are sent; the host takes the frame of the first one, to which a check sequence has
been appended, and the other one waits as its data is. -/
theorem byte_is_taken_with_its_check_sequence :
    let ops : List Operation :=
      [.writeMemory 0x20 [7, 8], .writeRam 0x48486000 [0, 0x20, 1, 0xE0000001],
        .writeRam 0x48486010 [0, 0x21, 1, 0xE4000001], .writeRegister 0xA00 0x48486000,
        .writeRegister 0xA1C 0x48486010, .takeEgress]
    (∃ settings clock interrupt, small.engine = .fresh settings clock interrupt) ∧
    small.sentChains ops =
      [⟨⟨0, 0x20, 1, 0xE0000001⟩, [7]⟩, ⟨⟨0, 0x21, 1, 0xE4000001⟩, [8]⟩] ∧
    (small.egressLog ops).flatMap leaving ++ (small.run ops).2.engine.egress =
      [Frame.withFcs [7], [8]] ∧
    Frame.withFcs [7] = [7, 0x2E, 0x7A, 0x66, 0x4C] ∧
    (Frame.withFcs [7]).Verifies ∧ ¬ Frame.Verifies [8] := by
  intro ops
  obtain ⟨-, -, horder, hclear⟩ :=
    appended_check_sequence_verifies (s := small) (Or.inl ⟨_, _, _, rfl⟩) ops
  have hchains : small.sentChains ops =
      [⟨⟨0, 0x20, 1, 0xE0000001⟩, [7]⟩, ⟨⟨0, 0x21, 1, 0xE4000001⟩, [8]⟩] := by decide +kernel
  rw [hchains] at horder hclear
  refine ⟨⟨_, _, _, rfl⟩, hchains, horder.trans ?_, by decide +kernel, ?_, by decide +kernel⟩
  · decide +kernel
  · exact (hclear _ (List.mem_cons_self ..) (by decide)).2

end System

end PacketDma
