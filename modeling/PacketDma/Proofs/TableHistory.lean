/-
**What the address table remembers.**

Each word of the address table is the one that was written last to its slot while its entry was
selected, unless the table has been cleared since.  An index past the end of the table selects no
entry: what is written then is lost, and no entry stands in for it.  Software sees the table through
five registers, and through them it is the same store.

Main definitions:

* `PacketDma.TableStep`, `PacketDma.AddressTable.apply` — what can be done to the table;
* `PacketDma.selectedIn`, `PacketDma.lastWritten` — what a history selects and writes last;
* `PacketDma.AddressTable.Remembers` — a table is what a history says;
* `PacketDma.Operation.tableSteps` — what an operation does to the table.

Main results:

* `PacketDma.AddressTable.Remembers.apply` — every step keeps table and history together;
* `PacketDma.System.table_perform` — an operation does to the table what its writes say;
* `PacketDma.System.table_remembers_last_writes` — **the table is a store of words**, by itself and
  through the registers.
-/

import PacketDma.Proofs.EgressDelivery
import PacketDma.Proofs.RegisterHistory
import PacketDma.Proofs.TableIsolation

set_option autoImplicit false

namespace PacketDma

/-! ### Steps and histories -/

/-- What can be done to the table. -/
inductive TableStep where
  | select (index : UInt32)
  | write (slot : Nat) (value : UInt32)
  | clear
deriving DecidableEq, Repr

/-- The table after a step. -/
def AddressTable.apply (t : AddressTable) : TableStep → AddressTable
  | .select index => t.select index
  | .write slot value => t.write slot value
  | .clear => t.clear

/-- The index that a history, newest step first, has selected. -/
def selectedIn : List TableStep → UInt32
  | [] => 0
  | .select index :: _ => index
  | .write .. :: past | .clear :: past => selectedIn past

/-- The word that a history, newest step first, has written last to a slot while exactly the given
index was selected, and zero if there is none since the table was cleared. -/
def lastWritten (i slot : Nat) : List TableStep → UInt32
  | [] | .clear :: _ => 0
  | .select _ :: past => lastWritten i slot past
  | .write other value :: past =>
      if (selectedIn past).toNat = i ∧ other = slot then value else lastWritten i slot past

/-! ### The table by itself -/

/-- A table is what a history, newest step first, says. -/
structure AddressTable.Remembers (t : AddressTable) (past : List TableStep) : Prop where
  index : t.index = selectedIn past
  /-- Each entry holds the words that were written last to it. -/
  entry : ∀ i, t.entry? i =
    if i < 1024 then some (Vector.ofFn fun slot : Fin 3 => lastWritten i slot past) else none
  /-- A word that is read is one of the selected entry. -/
  read : ∀ slot, t.read slot =
    if (selectedIn past).toNat < 1024 ∧ slot < 3 then
      lastWritten (selectedIn past).toNat slot past
    else 0
  /-- Where there is no entry or no slot, nothing is written. -/
  lost : ∀ slot value, ¬ ((selectedIn past).toNat < 1024 ∧ slot < 3) → t.write slot value = t

namespace AddressTable

variable {t : AddressTable} {past : List TableStep}

theorem entry?_eq (t : AddressTable) (i : Nat) :
    t.entry? i = if i < 1024 then some (Vector.ofFn fun slot : Fin 3 => t.word i slot) else none := by
  unfold entry?
  by_cases hi : i < 1024
  · rw [if_pos hi, Vector.getElem?_eq_getElem hi]
    refine congrArg some (Vector.ext fun slot hslot => ?_)
    rw [Vector.getElem_ofFn, word, dif_pos ⟨hi, hslot⟩]
  · rw [if_neg hi, Vector.getElem?_eq_none (Nat.le_of_not_lt hi)]

namespace Remembers

/-- A table is what a history says when its index and its words are. -/
theorem of_words (hindex : t.index = selectedIn past)
    (hwords : ∀ i slot, i < 1024 → slot < 3 → t.word i slot = lastWritten i slot past) :
    t.Remembers past where
  index := hindex
  entry i := by
    rw [t.entry?_eq]
    by_cases hi : i < 1024
    · rw [if_pos hi, if_pos hi]
      exact congrArg (fun words => some (Vector.ofFn words))
        (funext fun slot => hwords i slot hi slot.isLt)
    · rw [if_neg hi, if_neg hi]
  read slot := by
    rw [AddressTable.read, hindex]
    by_cases h : (selectedIn past).toNat < 1024 ∧ slot < 3
    · rw [if_pos h, hwords _ _ h.1 h.2]
    · rw [if_neg h, word, dif_neg h]
  lost slot value h := by
    rw [← hindex] at h
    rw [write, dif_neg h]

theorem words (h : t.Remembers past) {i slot : Nat} (hi : i < 1024) (hslot : slot < 3) :
    t.word i slot = lastWritten i slot past := by
  have hentry := h.entry i
  rw [t.entry?_eq, if_pos hi, if_pos hi] at hentry
  have hwords := congrArg (·[slot]) (Option.some.inj hentry)
  simpa using hwords

theorem zero_nil : zero.Remembers [] := of_words rfl fun i slot _ _ => word_zero i slot

/-- **Every step keeps table and history together.** -/
theorem apply (h : t.Remembers past) (step : TableStep) :
    (t.apply step).Remembers (step :: past) := by
  cases step with
  | select index => exact of_words rfl fun i slot hi hslot => h.words hi hslot
  | clear => exact of_words h.index fun i slot _ _ => word_clear t i slot
  | write slot value =>
      refine of_words ((index_write t slot value).trans h.index) fun i other hi hother => ?_
      rw [AddressTable.apply, word_write, h.index, lastWritten, h.words hi hother]
      have hsame : (i = (selectedIn past).toNat ∧ other = slot ∧ i < 1024 ∧ other < 3) ↔
          (selectedIn past).toNat = i ∧ slot = other := by omega
      simp only [hsame]

theorem foldl (h : t.Remembers past) (steps : List TableStep) :
    (steps.foldl AddressTable.apply t).Remembers (steps.reverse ++ past) := by
  induction steps generalizing t past with
  | nil => exact h
  | cons step rest ih =>
      rw [List.reverse_cons, List.append_assoc]
      exact ih (h.apply step)

end Remembers

end AddressTable

/-! ### The table behind its registers -/

/-- What a word does to the table when it is written at an offset. -/
def tableStepsAt (offset word : UInt32) : List TableStep :=
  match offset.toNat with
  | 0xD08 => if word &&& 0x40000000 = 0 then [] else [.clear]
  | 0xD20 => [.select (word &&& 0x7FFFFFFF)]
  | 0xD34 => [.write 2 word]
  | 0xD38 => [.write 1 word]
  | 0xD3C => [.write 0 word]
  | _ => []

/-- What an operation does to the table, a full reset apart. -/
def Operation.tableSteps (op : Operation) : List TableStep :=
  (op.wordWrite?.map fun w => tableStepsAt w.1 w.2).getD []

theorem Register.tableChange?_ofPointerOffset (word : UInt32) (offset : Nat) :
    (ofPointerOffset offset).tableChange? word = none := by
  unfold ofPointerOffset
  dsimp only
  split <;> rfl

/-- The registers of the table stand at these offsets. -/
theorem Register.table_after_write (index : RegisterIndex) (word : UInt32) (t : AddressTable) :
    ((ofIndex index).tableChange? word).elim t t.change =
      (tableStepsAt index.offset word).foldl AddressTable.apply t := by
  unfold ofIndex tableStepsAt
  rw [RegisterIndex.toNat_offset]
  split
  · -- no channel pointer stands at an offset of the table
    rw [tableChange?_ofPointerOffset]
    split
    case h_6 => rfl
    all_goals omega
  · -- one case for each line of the map
    split <;> simp_all [tableChange?, AddressTable.change, AddressTable.apply]
    · split <;> rfl
    · rfl

namespace System

variable {s : System} {past : List TableStep}

/-- The table goes its own way: only what an operation says itself changes it. -/
theorem table_after (s : System) (op : Operation) :
    (s.perform op).2.engine.table =
      op.action.tableChange?.elim s.engine.table s.engine.table.change := by
  -- the system is its own variant with the part that it has
  have hsame : s.withTable s.engine.tablePart = s :=
    congrArg (System.mk · s.memory) s.engine.withTable_tablePart
  have hself := perform_withTable s.engine.tablePart s op
  rw [hsame] at hself
  have hpart := congrArg (fun last : System => last.engine.table) hself
  refine hpart.trans ?_
  cases op.action.tableChange? <;> rfl

/-- **An operation does to the table what its writes say.** -/
theorem table_perform {op : Operation} (hop : op ≠ .reset) :
    (s.perform op).2.engine.table = op.tableSteps.foldl AddressTable.apply s.engine.table := by
  rw [table_after, Operation.tableSteps]
  cases hwrite : op.wordWrite? with
  | some write =>
      obtain ⟨index, hoffset, haction⟩ := Operation.exists_store_of_wordWrite hwrite
      rw [haction, Option.map_some, Option.getD_some, ← hoffset]
      exact Register.table_after_write index write.2 _
  | none =>
      have hnone : op.action.tableChange? = none := by
        cases haction : op.action with
        | reset => exact absurd (Operation.action_eq_reset_iff.1 haction) hop
        | store register value =>
            exact absurd haction (Operation.action_ne_store_of_no_word hwrite _ _)
        | _ => rfl
      rw [hnone]
      rfl

/-- The history of the table along a run, oldest step first. -/
def tableHistory (s : System) (ops : List Operation) : List TableStep :=
  s.history (fun _ op => op.tableSteps) ops

/-- The table of a new engine is what its history says. -/
theorem remembers_run (hstart : s.engine.table = .zero) (ops : List Operation) :
    (s.run ops).2.engine.table.Remembers (s.tableHistory ops).reverse := by
  refine history_induction (I := fun past s => s.engine.table.Remembers past.reverse)
    (fun _ => .zero_nil) (fun s past op hop h => ?_) ?_ ops
  · rw [table_perform hop, List.reverse_append]
    exact h.foldl op.tableSteps
  · rw [hstart]
    exact .zero_nil

/-! ### What software sees -/

/-- The registers of the words read what a history says for the selected entry. -/
theorem readRegister_of_remembers (h : s.engine.table.Remembers past) :
    let selected := (selectedIn past).toNat
    let word (slot : Nat) := if selected < 1024 then lastWritten selected slot past else 0
    s.engine.readRegister 0xD3C = .ok (word 0) ∧ s.engine.readRegister 0xD38 = .ok (word 1) ∧
      s.engine.readRegister 0xD34 = .ok (word 2) := by
  intro selected word
  have hlow : Register.decode 0xD3C = some (.tableWord 0) := by decide +kernel
  have hmiddle : Register.decode 0xD38 = some (.tableWord 1) := by decide +kernel
  have hhigh : Register.decode 0xD34 = some (.tableWord 2) := by decide +kernel
  have hread (slot : Fin 3) : s.engine.load (.tableWord slot) = .ok (word slot) := by
    have hslot := slot.isLt
    refine congrArg Except.ok ((h.read slot).trans ?_)
    simp only [hslot, and_true]
    rfl
  simp only [Engine.readRegister, hlow, hmiddle, hhigh]
  exact ⟨hread 0, hread 1, hread 2⟩

/-- The register that selects an entry reads the index, apart from one bit. -/
theorem exists_readRegister_tableSelect (h : s.engine.Consistent) :
    ∃ value, s.engine.readRegister 0xD20 = .ok value ∧
      value &&& 0x7FFFFFFF = s.engine.table.index := by
  have hdecode : Register.decode 0xD20 = some .tableSelect := by decide +kernel
  refine ⟨s.engine.register .tableSelect, ?_, h.selection.symm⟩
  rw [Engine.readRegister, hdecode]
  rfl

/-- A word that is written where no entry is selected is lost. -/
theorem perform_of_lost_write {op : Operation} {value : UInt32}
    (h : s.engine.table.Remembers past) (hselected : 1024 ≤ (selectedIn past).toNat)
    (hwrite : op.wordWrite? = some (0xD3C, value) ∨ op.wordWrite? = some (0xD38, value) ∨
      op.wordWrite? = some (0xD34, value)) : (s.perform op).2 = s := by
  have hlost (slot : Fin 3) (haction : op.action = .store (.tableWord slot) value) :
      (s.perform op).2 = s := by
    have htable := h.lost slot value fun hinside => by omega
    rw [perform_eq_act, haction]
    show (⟨{ s.engine with table := s.engine.table.write slot value }, s.memory⟩ : System) = s
    rw [htable]
  have hlow : Register.ofIndex ⟨0xD3C / 4, by decide⟩ = .tableWord 0 := by decide +kernel
  have hmiddle : Register.ofIndex ⟨0xD38 / 4, by decide⟩ = .tableWord 1 := by decide +kernel
  have hhigh : Register.ofIndex ⟨0xD34 / 4, by decide⟩ = .tableWord 2 := by decide +kernel
  rcases hwrite with hwrite | hwrite | hwrite
  · exact hlost 0 (hlow ▸ Operation.action_of_wordWrite ⟨0xD3C / 4, by decide⟩ hwrite)
  · exact hlost 1 (hmiddle ▸ Operation.action_of_wordWrite ⟨0xD38 / 4, by decide⟩ hwrite)
  · exact hlost 2 (hhigh ▸ Operation.action_of_wordWrite ⟨0xD34 / 4, by decide⟩ hwrite)

/-- A write of the register that controls the table, which may clear it, keeps the selection. -/
theorem selection_of_control_write {op : Operation} {value : UInt32}
    (hwrite : op.wordWrite? = some (0xD08, value)) :
    (s.perform op).2.engine.table.index = s.engine.table.index ∧
      (s.perform op).2.engine.readRegister 0xD20 = s.engine.readRegister 0xD20 := by
  have hdecode : Register.decode 0xD20 = some .tableSelect := by decide +kernel
  have hperform : (s.perform op).2 = s.mapEngine (·.controlTable value) := by
    rw [perform_eq_act, Operation.action_of_wordWrite .tableControl hwrite,
      Register.ofIndex_tableControl]
    rfl
  rw [hperform, Engine.readRegister, Engine.readRegister, hdecode]
  constructor
  · simp only [engine_mapEngine, Engine.controlTable]
    split <;> rfl
  · exact congrArg Except.ok (RegisterFile.get_set_of_ne _ (by decide) _)

/-- **The table is a store of words.**  After any sequence of steps, each entry of the table holds
the words that were written last to its slots while exactly its index was selected, and zeros if
there are none since the table was cleared; a word is read from the selected entry; where there is
no entry or no slot, zero is read and nothing is written; and the index is the one selected last.

The same holds at every moment of a run of a new engine, whatever happens besides, of the words that
software writes to the registers of the table, where a full reset starts a new history: the registers
of the words read those of the selected entry, the register that selects an entry reads the index
apart from one bit, a word that is written where no entry is selected changes nothing at all, and
clearing the table keeps the selection. -/
theorem table_remembers_last_writes :
    (∀ steps : List TableStep,
      (steps.foldl AddressTable.apply .zero).Remembers steps.reverse) ∧
    ∀ (settings : AcceptedSettings) (clock : Clock) (interrupt : InterruptLine) (memory : Memory)
      (ops : List Operation),
      let s : System := ⟨.fresh settings clock interrupt, memory⟩
      let t := (s.run ops).2
      let past := (s.tableHistory ops).reverse
      let selected := (selectedIn past).toNat
      let word (slot : Nat) := if selected < 1024 then lastWritten selected slot past else 0
      t.engine.table.Remembers past ∧
      (t.engine.readRegister 0xD3C = .ok (word 0) ∧ t.engine.readRegister 0xD38 = .ok (word 1) ∧
        t.engine.readRegister 0xD34 = .ok (word 2)) ∧
      (∃ value, t.engine.readRegister 0xD20 = .ok value ∧
        value &&& 0x7FFFFFFF = selectedIn past) ∧
      ∀ op value,
        let u := (t.perform op).2
        (op.wordWrite? = some (0xD3C, value) ∨ op.wordWrite? = some (0xD38, value) ∨
          op.wordWrite? = some (0xD34, value) → 1024 ≤ selected → u = t) ∧
        (op.wordWrite? = some (0xD08, value) →
          u.engine.table.index = t.engine.table.index ∧
          u.engine.readRegister 0xD20 = t.engine.readRegister 0xD20) := by
  refine ⟨fun steps => ?_, ?_⟩
  · have hsteps := AddressTable.Remembers.zero_nil.foldl steps
    rwa [List.append_nil] at hsteps
  · intro settings clock interrupt memory ops s t past selected word
    have hremembers : t.engine.table.Remembers past := remembers_run rfl ops
    have hreach : t.Reachable := (Reachable.fresh settings clock interrupt memory).run ops
    refine ⟨hremembers, readRegister_of_remembers hremembers, ?_, fun op value => ⟨?_, ?_⟩⟩
    · rw [← hremembers.index]
      exact exists_readRegister_tableSelect hreach.consistent
    · exact fun hwrite hselected => perform_of_lost_write hremembers hselected hwrite
    · exact selection_of_control_write

/-- Software writes two words of an entry, one of them as a half, and one of the last entry, and then
selects no entry.  A word that it writes now is lost, and clearing the table keeps the selection. -/
theorem words_of_two_entries :
    let s := small
    let ops : List Operation :=
      [.writeRegister 0xD20 0x80000007, .writeRegister 0xD3C 1, .busWrite 0xD36 2 0xAB,
        .writeRegister 0xD20 1023, .writeRegister 0xD3C 2, .writeRegister 0xD20 0x407]
    let t := (s.run ops).2
    s.tableHistory ops =
      [.select 7, .write 0 1, .write 2 0x00AB0000, .select 1023, .write 0 2, .select 0x407] ∧
    (t.engine.table.entry? 7).map (·.toList) = some [1, 0, 0x00AB0000] ∧
    t.engine.readRegister 0xD3C = .ok 0 ∧
    (1024 ≤ (selectedIn (s.tableHistory ops).reverse).toNat ∧
      (t.perform (.writeRegister 0xD3C 5)).2 = t) ∧
    (t.perform (.writeRegister 0xD08 0x40000000)).2.engine.table.index = 0x407 := by
  intro s ops t
  have hpast : s.tableHistory ops =
      [.select 7, .write 0 1, .write 2 0x00AB0000, .select 1023, .write 0 2, .select 0x407] := by
    decide +kernel
  obtain ⟨-, hrun⟩ := table_remembers_last_writes
  obtain ⟨hremembers, ⟨hread, -, -⟩, -, hnext⟩ := hrun
    ⟨{ ramSize := 64 }, by decide⟩ {} {} (.dense (Dense.ofSize 4096)) ops
  have hstart : (⟨.fresh ⟨{ ramSize := 64 }, by decide⟩ {} {}, .dense (Dense.ofSize 4096)⟩ :
    System) = s := rfl
  rw [hstart] at hremembers hread hnext
  have hselected : 1024 ≤ (selectedIn (s.tableHistory ops).reverse).toNat := by
    rw [hpast]
    decide
  have hlost := (hnext (.writeRegister 0xD3C 5) 5).1 (Or.inl (by decide)) hselected
  have hcleared := ((hnext (.writeRegister 0xD08 0x40000000) 0x40000000).2 (by decide)).1
  refine ⟨hpast, ?_, ?_, ⟨hselected, hlost⟩, ?_⟩
  · rw [hremembers.entry 7, hpast]
    decide
  · rw [hread, hpast]
    decide
  · rw [hcleared, hremembers.index, hpast]
    rfl

end System

end PacketDma
