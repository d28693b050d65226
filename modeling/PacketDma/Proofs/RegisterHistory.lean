/-
**What has been written.**

Software writes a register at its offset, or on the bus as a word, a half or a byte; a narrow write
is a write of the word whose other lanes are zero.  What registers show later is a matter of what
has been written and of what has happened since the engine was last reset as a whole.  A history
lists this, and what counts is the last thing that it says.

Main definitions:

* `PacketDma.Operation.wordWrite?` — the word that an operation writes, and where;
* `PacketDma.lastSaid` — the last thing that a history says;
* `PacketDma.System.history` — the history of a run, which every full reset starts anew.

Main results:

* `PacketDma.Operation.registerWrite?_eq` — **a write of a register is a write of a word**;
* `PacketDma.lastSaid_append` — what is said later counts first;
* `PacketDma.System.history_induction` — what operations keep between a system and its history holds
  along every run.
-/

import PacketDma.Proofs.Actions
import PacketDma.Proofs.Lanes

set_option autoImplicit false

namespace PacketDma

/-! ### Words and their offsets -/

/-- The byte offset of the register at a position. -/
def RegisterIndex.offset (index : RegisterIndex) : UInt32 := UInt32.ofNat (4 * index.val)

namespace RegisterIndex

theorem toNat_offset (index : RegisterIndex) : index.offset.toNat = 4 * index.val := by
  have hindex := index.isLt
  have hlt : 4 * index.val < 2 ^ 32 := by omega
  exact UInt32.toNat_ofNat_of_lt' hlt

theorem offset_inj {i j : RegisterIndex} : i.offset = j.offset ↔ i = j := by
  refine ⟨fun h => Fin.ext ?_, congrArg offset⟩
  have hoffset := congrArg UInt32.toNat h
  rw [toNat_offset, toNat_offset] at hoffset
  omega

/-- Every word of the lower half of the window has a position. -/
theorem exists_offset {offset : UInt32} (haligned : offset.toNat % 4 = 0)
    (hregister : offset.toNat < 0x2000) : ∃ index : RegisterIndex, index.offset = offset := by
  refine ⟨⟨offset.toNat / 4, by omega⟩, UInt32.toNat_inj.1 ?_⟩
  rw [toNat_offset]
  exact Nat.mul_div_cancel' (Nat.dvd_of_mod_eq_zero haligned)

theorem decode_offset (index : RegisterIndex) :
    Register.decode index.offset = some (.ofIndex index) := by
  have hindex := index.isLt
  have hdiv : 4 * index.val / 4 = index.val := Nat.mul_div_cancel_left _ (by decide)
  unfold Register.decode Register.windowSize
  rw [dif_pos (by rw [toNat_offset]; omega)]
  simp only [toNat_offset, hdiv]

end RegisterIndex

/-- The register at one offset resets the DMA engine. -/
theorem Register.ofIndex_eq_dmaReset_iff (index : RegisterIndex) :
    ofIndex index = .dmaReset ↔ index.offset = 0x81C := by
  rw [← UInt32.toNat_inj, RegisterIndex.toNat_offset]
  unfold ofIndex
  split
  · unfold ofPointerOffset
    dsimp only
    split <;> simp <;> omega
  · split <;> simp_all

/-- The byte offset and the word of a write to the lower half of the window.  A byte or a half counts
as the word that has it in its lane and is zero elsewhere. -/
def Operation.wordWrite? : Operation → Option (UInt32 × UInt32)
  | .writeRegister offset value =>
      if offset.toNat % 4 = 0 ∧ offset.toNat < 0x2000 then some (offset, value) else none
  | .busWrite offset size value =>
      if (size = 1 ∨ size = 2 ∨ size = 4) ∧ offset.toNat % size = 0 ∧ offset.toNat < 0x2000 then
        some (UInt32.ofNat (4 * (offset.toNat / 4)),
          UInt32.ofNat (value.toNat % 2 ^ (8 * size) * 2 ^ (8 * (offset.toNat % 4))))
      else none
  | _ => none

namespace AccessWidth

theorem bytes_cases (width : AccessWidth) :
    width.bytes = 1 ∨ width.bytes = 2 ∨ width.bytes = 4 := by
  cases width <;> simp [bytes]

theorem ne_of_ofSize?_eq_none {size : Nat} (h : ofSize? size = none) :
    ¬ (size = 1 ∨ size = 2 ∨ size = 4) := by
  rintro (rfl | rfl | rfl) <;> cases h

end AccessWidth

namespace Operation

variable {op : Operation} {offset word : UInt32}

/-- A bus write that is not aligned to its size, or of no size that the bus knows, or that lies
beyond the registers, writes no register. -/
theorem busWrite_wordWrite?_eq_none_iff {offset value : UInt64} {size : Nat} :
    (busWrite offset size value).wordWrite? = none ↔
      ¬ ((size = 1 ∨ size = 2 ∨ size = 4) ∧ offset.toNat % size = 0 ∧ offset.toNat < 0x2000) := by
  simp [wordWrite?]

/-- An aligned access to the registers reaches the register whose word it writes. -/
theorem busWrite_registerWrite?_of_inside {offset value : UInt64} {width : AccessWidth}
    (haligned : offset.toNat % width.bytes = 0) (hinside : offset.toNat < 0x2000) :
    (busWrite offset width.bytes value).registerWrite? =
      (busWrite offset width.bytes value).wordWrite?.bind fun w =>
        (Register.decode w.1).map (·, w.2) := by
  have hwidth := width.ofSize?_bytes
  have htarget := BusTarget.decode_of_register haligned hinside
  have hdecode : Register.decode (UInt32.ofNat (4 * (offset.toNat / 4))) = some _ :=
    RegisterIndex.decode_offset ⟨offset.toNat / 4, by omega⟩
  have hword := width.shiftLeft_mask value (Nat.mod_lt offset.toNat (by decide : 0 < 4))
  rw [LittleEndian.bound_eq_two_pow, LittleEndian.bound_eq_two_pow] at hword
  simp only [registerWrite?, hwidth, Option.bind_some, htarget, hword, wordWrite?,
    width.bytes_cases, haligned, hinside, and_self, if_true, hdecode, Option.map_some]

/-- Any other access reaches descriptor RAM, or nothing. -/
theorem busWrite_registerWrite?_of_outside {offset value : UInt64} {width : AccessWidth}
    (h : ¬ (offset.toNat % width.bytes = 0 ∧ offset.toNat < 0x2000)) :
    (busWrite offset width.bytes value).registerWrite? = none := by
  rw [registerWrite?, width.ofSize?_bytes, Option.bind_some]
  cases htarget : BusTarget.decode offset width with
  | none => rfl
  | some target =>
      cases target with
      | ram inner => rfl
      | register register lane => exact absurd (BusTarget.inside_of_decode htarget) h

/-- **A write of a register is a write of a word** at the offset of the register. -/
theorem registerWrite?_eq (op : Operation) :
    op.registerWrite? = op.wordWrite?.bind fun w => (Register.decode w.1).map (·, w.2) := by
  cases op with
  | writeRegister offset value =>
      simp only [registerWrite?, wordWrite?]
      split
      · rfl
      · next hoffset => simp [Register.decode, Register.windowSize, hoffset]
  | busWrite offset size value =>
      cases hwidth : AccessWidth.ofSize? size with
      | none =>
          have hnone : (busWrite offset size value).wordWrite? = none :=
            busWrite_wordWrite?_eq_none_iff.2 fun h =>
              AccessWidth.ne_of_ofSize?_eq_none hwidth h.1
          rw [hnone, registerWrite?, hwidth]
          rfl
      | some width =>
          obtain rfl := AccessWidth.bytes_of_ofSize? hwidth
          by_cases hlane : offset.toNat % width.bytes = 0 ∧ offset.toNat < 0x2000
          · exact busWrite_registerWrite?_of_inside hlane.1 hlane.2
          · have hnone : (busWrite offset width.bytes value).wordWrite? = none :=
              busWrite_wordWrite?_eq_none_iff.2 fun h => hlane h.2
            rw [hnone, busWrite_registerWrite?_of_outside hlane]
            rfl
  | _ => rfl

/-- An operation that writes a word comes to a store in the register at its offset. -/
theorem exists_store_of_wordWrite (h : op.wordWrite? = some (offset, word)) :
    ∃ index : RegisterIndex, index.offset = offset ∧ op.action = .store (.ofIndex index) word := by
  have hinside : offset.toNat % 4 = 0 ∧ offset.toNat < 0x2000 := by
    cases op with
    | writeRegister other value =>
        obtain ⟨hother, hword⟩ := Option.ite_none_right_eq_some.1 h
        cases hword
        exact hother
    | busWrite other size value =>
        obtain ⟨⟨-, -, hother⟩, hword⟩ := Option.ite_none_right_eq_some.1 h
        cases hword
        have hlt : 4 * (other.toNat / 4) < 2 ^ 32 := by omega
        rw [UInt32.toNat_ofNat_of_lt' hlt]
        omega
    | _ => cases h
  obtain ⟨index, rfl⟩ := RegisterIndex.exists_offset hinside.1 hinside.2
  refine ⟨index, rfl, action_eq_store_iff.2 ?_⟩
  rw [registerWrite?_eq, h, Option.bind_some, index.decode_offset]
  rfl

theorem action_of_wordWrite (index : RegisterIndex)
    (h : op.wordWrite? = some (index.offset, word)) :
    op.action = .store (.ofIndex index) word := by
  obtain ⟨other, hoffset, haction⟩ := exists_store_of_wordWrite h
  rwa [RegisterIndex.offset_inj.1 hoffset] at haction

/-- Any other operation comes to no store. -/
theorem action_ne_store_of_no_word (h : op.wordWrite? = none) (register : Register)
    (value : UInt32) : op.action ≠ .store register value := by
  rw [Ne, action_eq_store_iff, registerWrite?_eq, h]
  exact nofun

/-- An operation that resets the DMA engine alone writes the word for that. -/
theorem wordWrite?_of_dmaReset (h : op.action = .store .dmaReset word) :
    op.wordWrite? = some (0x81C, word) := by
  cases hwrite : op.wordWrite? with
  | none => exact absurd h (action_ne_store_of_no_word hwrite _ _)
  | some write =>
      obtain ⟨index, hoffset, haction⟩ := exists_store_of_wordWrite hwrite
      obtain ⟨hregister, hword⟩ := Action.store.inj (haction.symm.trans h)
      rw [Register.ofIndex_eq_dmaReset_iff, hoffset] at hregister
      rw [← hregister, ← hword]

end Operation

/-! ### Histories -/

section LastSaid

variable {α β : Type} {word? : α → Option β} {past more : List α}

/-- The last thing that a history says, if it says anything. -/
def lastSaid (word? : α → Option β) (past : List α) : Option β := past.reverse.findSome? word?

/-- **What is said later counts first.** -/
theorem lastSaid_append (word? : α → Option β) (past more : List α) :
    lastSaid word? (past ++ more) = (lastSaid word? more).or (lastSaid word? past) := by
  rw [lastSaid, List.reverse_append, List.findSome?_append, lastSaid, lastSaid]

theorem lastSaid_concat (word? : α → Option β) (past : List α) (entry : α) :
    lastSaid word? (past ++ [entry]) = (word? entry).or (lastSaid word? past) := by
  rw [lastSaid_append, lastSaid, List.reverse_singleton, List.findSome?_singleton]

/-- What is said last has been said. -/
theorem exists_of_lastSaid_ne (h : lastSaid word? (past ++ more) ≠ lastSaid word? past) :
    ∃ entry ∈ more, ∃ word, word? entry = some word := by
  by_contra hnone
  refine h ?_
  have hsilent : lastSaid word? more = none := by
    refine List.findSome?_eq_none_iff.2 fun entry hentry => ?_
    refine Option.eq_none_iff_forall_ne_some.2 fun word hword => hnone ⟨entry, ?_, word, hword⟩
    exact List.mem_reverse.1 hentry
  rw [lastSaid_append, hsilent, Option.none_or]

end LastSaid

namespace System

section History

variable {α : Type} (entries : System → Operation → List α)

/-- A history after an operation: the operation adds its entries, and a full reset starts a new
history. -/
def remember (s : System) (past : List α) (op : Operation) : List α :=
  if op = .reset then [] else past ++ entries s op

/-- The history after a run that starts with the given one. -/
def historyFrom (s : System) (past : List α) : List Operation → List α
  | [] => past
  | op :: rest => historyFrom (s.perform op).2 (s.remember entries past op) rest

/-- The history of a run: what has happened since the last full reset, oldest first. -/
def history (s : System) (ops : List Operation) : List α := s.historyFrom entries [] ops

variable {entries} {I : List α → System → Prop}

/-- **What every operation keeps between a system and its history holds along every run**, if a full
reset sets it up anew. -/
theorem history_induction (hreset : ∀ s : System, I [] (s.mapEngine (·.reset)))
    (hstep : ∀ (s : System) (past : List α) (op : Operation), op ≠ .reset → I past s →
      I (past ++ entries s op) (s.perform op).2)
    {s : System} (h : I [] s) (ops : List Operation) : I (s.history entries ops) (s.run ops).2 := by
  have hnext (s : System) (past : List α) (op : Operation) (h : I past s) :
      I (s.remember entries past op) (s.perform op).2 := by
    unfold remember
    split
    · next hop =>
        subst hop
        exact hreset s
    · next hop => exact hstep s past op hop h
  suffices hfrom : ∀ (s : System) (past : List α), I past s →
      I (s.historyFrom entries past ops) (s.run ops).2 from hfrom s [] h
  induction ops with
  | nil => exact fun _ _ h => h
  | cons op rest ih => exact fun s past h => ih _ _ (hnext s past op h)

end History

end System

end PacketDma
