/-
**The part of an engine that belongs to the address table.**

The address table, its index, and the words stored in the registers that control the table and
select an entry belong together: software reaches them through registers of their own.  This module
takes them as one part of the engine that can be exchanged, and shows that what the engine does to
the rest of itself goes the same way with another such part.

Main definitions:

* `PacketDma.TablePart` — the part of an engine that belongs to the address table;
* `PacketDma.Engine.withTable` — an engine with another such part;
* `PacketDma.TableChange` — what can be done to that part;
* `PacketDma.Action.tableChange?`, `PacketDma.Operation.readsTable` — what changes the part, and
  what shows it.

Main results:

* `PacketDma.Engine.withTable_tablePart`, `PacketDma.Engine.tablePart_withTable` — the part and the
  rest make up the engine;
* `PacketDma.Engine.load_withTable` — which registers do not show the part;
* `PacketDma.Engine.emit_withTable`, `PacketDma.Engine.resetDma_withTable` and their like — what the
  engine does to the rest of itself does not meet the part.
-/

import PacketDma.Proofs.Consistency

set_option autoImplicit false

namespace PacketDma

/-! ### The part of an engine that belongs to the table -/

/-- The part of an engine that belongs to the address table. -/
structure TablePart where
  table : AddressTable
  /-- The word stored in the register that controls the table. -/
  control : UInt32
  /-- The word stored in the register that selects an entry. -/
  select : UInt32

/-- What can be done to the address table. -/
inductive TableChange where
  /-- The engine is reset as a whole. -/
  | reset
  /-- The register that controls the table is written. -/
  | control (value : UInt32)
  /-- The register that selects an entry is written. -/
  | select (value : UInt32)
  /-- A word of the selected entry is written. -/
  | word (slot : Fin 3) (value : UInt32)
deriving DecidableEq, Repr

/-- The entries and the index after a change. -/
def AddressTable.change (table : AddressTable) : TableChange → AddressTable
  | .reset => .zero
  | .control value => if value &&& 0x40000000 = 0 then table else table.clear
  | .select value => table.select (value &&& ~~~0x80000000)
  | .word slot value => table.write slot value

/-- The part after a change. -/
def TablePart.change (p : TablePart) (c : TableChange) : TablePart where
  table := p.table.change c
  control :=
    match c with
    | .reset => 0
    | .control value => value &&& ~~~0x40000000
    | _ => p.control
  select :=
    match c with
    | .reset => 0
    | .select value => value
    | _ => p.select

/-- The part after a step that changes it at most once. -/
def TablePart.after (p : TablePart) (c : Option TableChange) : TablePart := c.elim p p.change

@[simp] theorem TablePart.after_none (p : TablePart) : p.after none = p := rfl

@[simp] theorem TablePart.after_some (p : TablePart) (c : TableChange) :
    p.after (some c) = p.change c := rfl

/-- The entries and the index go through the same changes on their own. -/
theorem TablePart.table_foldl_change (p : TablePart) (changes : List TableChange) :
    (changes.foldl change p).table = changes.foldl AddressTable.change p.table := by
  induction changes generalizing p with
  | nil => rfl
  | cons c rest ih => exact ih (p.change c)

/-- What a write of a register does to the table. -/
def Register.tableChange? (value : UInt32) : Register → Option TableChange
  | .tableControl => some (.control value)
  | .tableSelect => some (.select value)
  | .tableWord slot => some (.word slot value)
  | _ => none

/-- What an action does to the table. -/
def Action.tableChange? : Action → Option TableChange
  | .reset => some .reset
  | .store register value => register.tableChange? value
  | _ => none

/-- Whether a register shows something of the table. -/
def Register.showsTable : Register → Bool
  | .tableControl | .tableSelect | .tableWord _ => true
  | _ => false

/-- Whether an operation reads a register that shows something of the table. -/
def Operation.readsTable : Operation → Bool
  | .readRegister offset => ((Register.decode offset).map (·.showsTable)).getD false
  | .busRead offset size =>
      match (AccessWidth.ofSize? size).bind (BusTarget.decode offset) with
      | some (.register register _) => register.showsTable
      | _ => false
  | _ => false

/-! ### Register files -/

namespace RegisterFile

/-- The stored words with others in the registers of the table. -/
def withTable (f : RegisterFile) (p : TablePart) : RegisterFile :=
  (f.set .tableControl p.control).set .tableSelect p.select

/-- A register file is the words at its positions. -/
theorem ext_get {f g : RegisterFile} (h : ∀ index, f.get index = g.get index) : f = g := by
  obtain ⟨words⟩ := f
  obtain ⟨others⟩ := g
  congr 1
  exact Vector.ext fun i hi => h ⟨i, hi⟩

theorem get_withTable (f : RegisterFile) (p : TablePart) (index : RegisterIndex) :
    (f.withTable p).get index =
      if index = .tableSelect then p.select
      else if index = .tableControl then p.control
      else f.get index := by
  rw [withTable, get_set, get_set]

/-- The other registers keep their words. -/
theorem get_withTable_of_ne (f : RegisterFile) (p : TablePart) {index : RegisterIndex}
    (hcontrol : index ≠ .tableControl) (hselect : index ≠ .tableSelect) :
    (f.withTable p).get index = f.get index := by
  rw [get_withTable, if_neg hselect, if_neg hcontrol]

/-- A store into another register does not meet the words of the table. -/
theorem set_withTable (f : RegisterFile) (p : TablePart) {index : RegisterIndex}
    (hcontrol : index ≠ .tableControl) (hselect : index ≠ .tableSelect) (value : UInt32) :
    (f.withTable p).set index value = (f.set index value).withTable p := by
  refine ext_get fun j => ?_
  simp only [get_set, get_withTable]
  by_cases hj : j = index
  · subst hj
    rw [if_pos rfl, if_neg hselect, if_neg hcontrol, if_pos rfl]
  · simp only [if_neg hj]

/-- A store into the register that controls the table. -/
theorem set_tableControl_withTable (f : RegisterFile) (p : TablePart) (value other : UInt32) :
    (f.withTable p).set .tableControl value =
      (f.set .tableControl other).withTable { p with control := value } := by
  refine ext_get fun j => ?_
  simp only [get_set, get_withTable]
  by_cases hcontrol : j = .tableControl
  · subst hcontrol
    have hne : RegisterIndex.tableControl ≠ .tableSelect := by decide
    simp only [if_neg hne, if_true]
  · simp only [if_neg hcontrol]

/-- A store into the register that selects an entry. -/
theorem set_tableSelect_withTable (f : RegisterFile) (p : TablePart) (value other : UInt32) :
    (f.withTable p).set .tableSelect value =
      (f.set .tableSelect other).withTable { p with select := value } := by
  refine ext_get fun j => ?_
  simp only [get_set, get_withTable]
  by_cases hselect : j = .tableSelect
  · simp only [hselect, if_true]
  · simp only [if_neg hselect]

theorem zero_withTable (table : AddressTable) : zero.withTable ⟨table, 0, 0⟩ = zero := by
  refine ext_get fun j => ?_
  rw [get_withTable, get_zero]
  split
  · rfl
  · split <;> rfl

theorem withTable_self (f : RegisterFile) (table : AddressTable) :
    f.withTable ⟨table, f.get .tableControl, f.get .tableSelect⟩ = f := by
  refine ext_get fun j => ?_
  rw [get_withTable]
  split
  · next h => rw [h]
  · split
    · next h => rw [h]
    · rfl

end RegisterFile

/-! ### Engines -/

/-- An engine with another part that belongs to the table. -/
def Engine.withTable (e : Engine) (p : TablePart) : Engine :=
  { e with table := p.table, registers := e.registers.withTable p }

/-- The part of an engine that belongs to the table. -/
def Engine.tablePart (e : Engine) : TablePart :=
  ⟨e.table, e.register .tableControl, e.register .tableSelect⟩

/-- A system whose engine has another part that belongs to the table. -/
def System.withTable (s : System) (p : TablePart) : System := s.mapEngine (·.withTable p)

variable (p : TablePart)

namespace Engine

variable (e : Engine)

theorem withTable_tablePart : e.withTable e.tablePart = e := by
  have hregisters : e.registers.withTable e.tablePart = e.registers :=
    RegisterFile.withTable_self e.registers e.table
  rw [withTable, hregisters]
  rfl

theorem tablePart_withTable : (e.withTable p).tablePart = p := by
  have hne : RegisterIndex.tableControl ≠ .tableSelect := by decide
  have hcontrol : (e.withTable p).register .tableControl = p.control := by
    rw [register, withTable, RegisterFile.get_withTable, if_neg hne, if_pos rfl]
  have hselect : (e.withTable p).register .tableSelect = p.select := by
    rw [register, withTable, RegisterFile.get_withTable, if_pos rfl]
  rw [tablePart, hcontrol, hselect]
  rfl

/-- The registers of the engine that are not those of the table keep their words. -/
theorem register_withTable {index : RegisterIndex} (hcontrol : index ≠ .tableControl)
    (hselect : index ≠ .tableSelect) : (e.withTable p).register index = e.register index :=
  RegisterFile.get_withTable_of_ne e.registers p hcontrol hselect

theorem receiveEnabled_withTable : (e.withTable p).receiveEnabled = e.receiveEnabled := by
  rw [receiveEnabled, register_withTable p e (by decide) (by decide), receiveEnabled]

theorem stampsEnabled_withTable : (e.withTable p).stampsEnabled = e.stampsEnabled := by
  rw [stampsEnabled, register_withTable p e (by decide) (by decide), stampsEnabled]

theorem classify_withTable (frame : Frame) : (e.withTable p).classify frame = e.classify frame := by
  have htypes : (e.withTable p).additionalTypes = e.additionalTypes := by
    rw [additionalTypes, register_withTable p e (by decide) (by decide), additionalTypes]
  rw [classify, htypes]
  rfl

theorem classOf_withTable (frame : InboundFrame) :
    (e.withTable p).classOf frame = e.classOf frame := by
  rw [classOf, classify_withTable, classOf]

theorem channelOf_withTable (frame : InboundFrame) :
    (e.withTable p).channelOf frame = e.channelOf frame := by
  rw [channelOf, classOf_withTable]
  rfl

theorem stamp_withTable (metadata : EventMetadata) :
    (e.withTable p).stamp metadata = (e.stamp metadata).withTable p := by
  simp only [stamp, withTable]
  rw [RegisterFile.set_withTable e.registers p (by decide) (by decide)]

theorem stampFrame_withTable (frameClass : FrameClass) (port : UInt8) (kind : EventKind)
    (frame : Frame) :
    (e.withTable p).stampFrame frameClass port kind frame =
      (e.stampFrame frameClass port kind frame).withTable p := by
  unfold stampFrame
  rw [stampsEnabled_withTable]
  split
  · exact stamp_withTable p e _
  · rfl

theorem countReceived_withTable (frameClass : FrameClass) (frame : Frame) :
    (e.withTable p).countReceived frameClass frame =
      (e.countReceived frameClass frame).withTable p :=
  stampFrame_withTable p { e with stats := { e.stats with received := e.stats.received + 1 } }
    frameClass receivePort .received frame

theorem countFailure_withTable (channel : ChannelId) (fault : DmaFault) :
    (e.withTable p).countFailure channel fault = (e.countFailure channel fault).withTable p := by
  cases fault with
  | overrun other address =>
      simp only [countFailure, withTable]
      rw [RegisterFile.set_withTable e.registers p (by decide) (by decide)]
  | ringExhausted other =>
      simp only [countFailure, withTable]
      rw [RegisterFile.set_withTable e.registers p (by decide) (by decide)]
  | _ => rfl

theorem enqueueEgress_withTable (frame : Frame) :
    (e.withTable p).enqueueEgress frame = (e.enqueueEgress frame).withTable p := by
  unfold enqueueEgress
  have hfull : ((e.withTable p).settings.egressLimit ≤ (e.withTable p).egress.length) =
    (e.settings.egressLimit ≤ e.egress.length) := rfl
  simp only [hfull]
  split <;> rfl

theorem emit_withTable (channel : ChannelId) (g : Gathered) :
    (e.withTable p).emit channel g = (e.emit channel g).withTable p := by
  unfold emit
  dsimp only
  rw [← enqueueEgress_withTable, ← stampFrame_withTable]
  show enqueueEgress (stampFrame _ ((e.withTable p).classify g.frame) _ _ _) _ =
    enqueueEgress (stampFrame _ (e.classify g.frame) _ _ _) _
  rw [classify_withTable]
  rfl

/-- A register that shows nothing of the table reads the same. -/
theorem load_withTable {index : RegisterIndex} (h : (Register.ofIndex index).showsTable = false) :
    (e.withTable p).load (.ofIndex index) = e.load (.ofIndex index) := by
  have hcontrol : index ≠ .tableControl := by
    rintro rfl
    rw [Register.ofIndex_tableControl] at h
    cases h
  have hselect : index ≠ .tableSelect := by
    rintro rfl
    rw [Register.ofIndex_tableSelect] at h
    cases h
  have hkept := register_withTable p e hcontrol hselect
  have hreceive : (e.withTable p).register .receiveControl = e.register .receiveControl :=
    register_withTable p e (by decide) (by decide)
  have hstatus : (e.withTable p).register .dmaStatus = e.register .dmaStatus :=
    register_withTable p e (by decide) (by decide)
  have hmask : (e.withTable p).register .eventEnable = e.register .eventEnable :=
    register_withTable p e (by decide) (by decide)
  have hpending : (e.withTable p).eventPending = e.eventPending := rfl
  cases hregister : Register.ofIndex index with
  | receiveControl => rw [load, load, hreceive]
  | dmaStatus => rw [load, load, hstatus]
  | eventMasked => rw [load, load, hmask, hpending]
  | tableControl =>
      rw [hregister] at h
      cases h
  | tableSelect =>
      rw [hregister] at h
      cases h
  | tableWord slot =>
      rw [hregister] at h
      cases h
  | phyAccess position =>
      obtain rfl := Register.eq_of_ofIndex (Or.inr hregister)
      rw [load, load, hkept]
  | storage position =>
      obtain rfl := Register.eq_of_ofIndex (Or.inl hregister)
      rw [load, load, hkept]
  | _ => rfl

/-- A full reset resets the part as well. -/
theorem reset_withTable : (e.withTable p).reset = e.reset.withTable (p.change .reset) := by
  have hregisters : RegisterFile.zero.withTable (p.change .reset) = .zero :=
    RegisterFile.zero_withTable .zero
  simp only [reset, withTable, hregisters]
  rfl

theorem resetDma_withTable : (e.withTable p).resetDma = e.resetDma.withTable p := by
  simp only [resetDma, withTable]
  rw [RegisterFile.set_withTable _ p (by decide) (by decide),
    RegisterFile.set_withTable _ p (by decide) (by decide),
    RegisterFile.set_withTable _ p (by decide) (by decide)]

theorem setRegister_withTable {index : RegisterIndex} (hcontrol : index ≠ .tableControl)
    (hselect : index ≠ .tableSelect) (value : UInt32) :
    (e.withTable p).setRegister index value = (e.setRegister index value).withTable p := by
  simp only [setRegister, withTable]
  rw [RegisterFile.set_withTable e.registers p hcontrol hselect]

theorem controlReceive_withTable (value : UInt32) :
    (e.withTable p).controlReceive value = (e.controlReceive value).withTable p := by
  simp only [controlReceive, withTable]
  rw [RegisterFile.set_withTable e.registers p (by decide) (by decide)]

theorem controlTable_withTable (value : UInt32) :
    (e.withTable p).controlTable value =
      (e.controlTable value).withTable (p.change (.control value)) := by
  simp only [controlTable, withTable]
  rw [RegisterFile.set_tableControl_withTable e.registers p _ (value &&& ~~~0x40000000)]
  rfl

theorem selectEntry_withTable (value : UInt32) :
    (e.withTable p).selectEntry value =
      (e.selectEntry value).withTable (p.change (.select value)) := by
  simp only [selectEntry, withTable]
  rw [RegisterFile.set_tableSelect_withTable e.registers p _ value]
  rfl

end Engine

end PacketDma
