/-
**Two views of descriptor RAM.**

Software programs descriptors through the upper half of the window, at offsets; the engine walks
them at the bus addresses that their pointers hold.  Both meet the same bytes: an access at an
offset is an access at the bus address as far behind the first byte of RAM, whatever the base and
the size of the RAM, and whatever the width of the access.  Only reads let waiting frames land
first.

Main definitions:

* `PacketDma.BusTarget.RamAccess` — an aligned access to the upper half of the window;
* `PacketDma.AcceptedSettings.busAddress` — the bus address of an offset there;
* `PacketDma.AcceptedSettings.InsideRam` — bytes there that descriptor RAM has;
* `PacketDma.Operation.ramByte?` — the byte that an operation writes at a bus address;
* `PacketDma.System.Programs` — a run in which nothing but bus writes changes a slot;
* `PacketDma.System.writtenBytes` — the bytes of a slot as a run has written them last.

Main results:

* `PacketDma.System.Reachable.exists_busWrite` — **what a write in the upper half changes**;
* `PacketDma.System.Reachable.busRead_eq` — **what a read there shows**;
* `PacketDma.System.byteAt_run_of_programs` — a byte of a slot is the one that has been written
  last;
* `PacketDma.System.ram_views_coincide` — **both views are one**.
-/

import PacketDma.Proofs.NarrowReads
import PacketDma.Proofs.RegisterHistory

set_option autoImplicit false

namespace PacketDma

/-! ### The bytes of a number -/

/-- The bytes of a number are those of its low part. -/
theorem LittleEndian.encode_mod (width value : Nat) :
    encode width (value % 2 ^ (8 * width)) = encode width value := by
  have hbytes := encode_decode (encode width value)
  rwa [length_encode, decode_encode, bound_eq_two_pow] at hbytes

/-! ### Accesses to the upper half -/

/-- An access of some width, aligned to it, to the upper half of the window. -/
structure BusTarget.RamAccess (offset : UInt64) (width : AccessWidth) : Prop where
  aligned : offset.toNat % width.bytes = 0
  upper : 0x2000 ≤ offset.toNat
  window : offset.toNat < 0x4000

namespace BusTarget

variable {offset : UInt64} {width : AccessWidth}

theorem RamAccess.decode_eq (h : RamAccess offset width) :
    decode offset width = some (.ram (offset - 0x2000)) := by
  have hupper := h.upper
  have hwindow := h.window
  unfold decode windowSize Register.windowSize
  rw [h.aligned, if_neg (by omega), dif_neg (by omega)]
  rfl

/-- Any other access addresses a register, or nothing. -/
theorem decode_of_not_ramAccess (h : ¬ RamAccess offset width) (hupper : 0x2000 ≤ offset.toNat) :
    decode offset width = none := by
  unfold decode windowSize
  refine if_pos ?_
  by_contra hnot
  exact h ⟨by omega, hupper, by omega⟩

end BusTarget

namespace AcceptedSettings

/-- The bus address of an offset in the upper half of the window. -/
def busAddress (settings : AcceptedSettings) (offset : UInt64) : Nat :=
  settings.ramBase.toNat + (offset.toNat - 0x2000)

/-- Descriptor RAM has the `size` bytes from an offset in the upper half on. -/
def InsideRam (settings : AcceptedSettings) (offset : UInt64) (size : Nat) : Prop :=
  offset.toNat - 0x2000 + size ≤ settings.ramSize.toNat

instance (settings : AcceptedSettings) (offset : UInt64) (size : Nat) :
    Decidable (settings.InsideRam offset size) :=
  inferInstanceAs (Decidable (_ ≤ _))

end AcceptedSettings

/-! ### Accesses to the memory behind an aperture -/

/-- The bytes of the memory are found at bus addresses, moved by the base. -/
theorem Aperture.byteAt_base_add (a : Aperture) (i : Nat) :
    a.byteAt (a.base.toNat + i) = a.store.byteAt i := by
  rw [byteAt, if_neg (by omega), Nat.add_sub_cancel_left]

theorem Aperture.bytes_store (a : Aperture) (offset : UInt64) (length : Nat) :
    a.store.bytes offset length =
      (List.range' (a.base.toNat + offset.toNat) length).map a.byteAt := by
  rw [Memory.bytes]
  refine List.ext_getElem (by simp) fun k hk hk' => ?_
  simp only [List.getElem_map, List.getElem_range']
  rw [Nat.add_assoc, byteAt_base_add]

namespace Engine

variable {e : Engine} {offset : UInt64} {bytes : List UInt8}

/-- **Bytes that exist are written at their bus addresses**, and nothing else changes. -/
theorem exists_storeRam (h : InRange e.ram.store.size offset bytes.length) :
    ∃ ram, e.storeRam offset bytes = { e with ram } ∧ ram.SameExtent e.ram ∧
      ∀ i, ram.byteAt i =
        if e.ram.base.toNat + offset.toNat ≤ i ∧
            i < e.ram.base.toNat + offset.toNat + bytes.length then
          bytes.getD (i - (e.ram.base.toNat + offset.toNat)) 0
        else e.ram.byteAt i := by
  obtain ⟨store, hok, hsize, hbyte⟩ := Memory.write_of_inRange h
  refine ⟨{ e.ram with store }, by rw [storeRam, hok], ⟨rfl, hsize⟩, fun i => ?_⟩
  by_cases hlow : i < e.ram.base.toNat
  · rw [Aperture.byteAt, if_pos hlow, if_neg (by omega), Aperture.byteAt, if_pos hlow]
  · obtain ⟨k, rfl⟩ := Nat.exists_eq_add_of_le (Nat.le_of_not_lt hlow)
    refine (Aperture.byteAt_base_add { e.ram with store } k).trans ((hbyte k).trans ?_)
    rw [Aperture.byteAt_base_add, Nat.add_sub_add_left]
    by_cases hin : offset.toNat ≤ k ∧ k < offset.toNat + bytes.length
    · rw [if_pos hin, if_pos (by omega)]
    · rw [if_neg hin, if_neg (by omega)]

/-- Bytes that do not all exist are not written. -/
theorem storeRam_of_not (h : ¬ InRange e.ram.store.size offset bytes.length) :
    e.storeRam offset bytes = e := by
  rw [storeRam, Memory.write_of_not h]

end Engine

/-! ### What accesses change and show -/

namespace System

variable {s : System} {offset : UInt64} {width : AccessWidth} {value : UInt64}

theorem busWrite_of_ram {inner : UInt64} (h : BusTarget.decode offset width = some (.ram inner)) :
    s.busWrite offset width.bytes value =
      s.mapEngine (·.storeRam inner (LittleEndian.encode width.bytes value.toNat)) := by
  simp only [busWrite, width.ofSize?_bytes, h]

namespace Reachable

/-- Where an offset lies in descriptor RAM, and whether its bytes exist, is a matter of the
settings. -/
theorem place_eq (hreach : s.Reachable) (h : BusTarget.RamAccess offset width) :
    s.engine.ram.base.toNat + (offset - 0x2000).toNat = s.engine.settings.busAddress offset ∧
      ∀ length, InRange s.engine.ram.store.size (offset - 0x2000) length ↔
        s.engine.settings.InsideRam offset length := by
  have hinner := toNat_sub_ram h.upper
  have hbase := congrArg UInt64.toNat hreach.consistent.ramBase
  have hsize : s.engine.ram.store.size.toNat = s.engine.settings.ramSize.toUInt64.toNat :=
    congrArg UInt64.toNat hreach.consistent.ramSize
  rw [UInt32.toNat_toUInt64] at hbase hsize
  constructor
  · unfold AcceptedSettings.busAddress
    rw [hbase, hinner]
  · intro length
    unfold InRange AcceptedSettings.InsideRam
    rw [hinner, hsize]

/-- **A write in the upper half changes the bytes at its bus addresses** and nothing else: no
waiting frame is tried. -/
theorem exists_busWrite (hreach : s.Reachable) (h : BusTarget.RamAccess offset width)
    (hinside : s.engine.settings.InsideRam offset width.bytes) (value : UInt64) :
    ∃ ram, s.busWrite offset width.bytes value = s.mapEngine ({ · with ram }) ∧
      ram.SameExtent s.engine.ram ∧
      ∀ i, ram.byteAt i =
        if s.engine.settings.busAddress offset ≤ i ∧
            i < s.engine.settings.busAddress offset + width.bytes then
          (LittleEndian.encode width.bytes (value.toNat % 2 ^ (8 * width.bytes))).getD
            (i - s.engine.settings.busAddress offset) 0
        else s.engine.ram.byteAt i := by
  obtain ⟨haddress, hrange⟩ := hreach.place_eq h
  have hlength : (LittleEndian.encode width.bytes value.toNat).length = width.bytes :=
    LittleEndian.length_encode ..
  have hfits : InRange s.engine.ram.store.size (offset - 0x2000)
      (LittleEndian.encode width.bytes value.toNat).length := by
    rw [hlength]
    exact (hrange _).2 hinside
  obtain ⟨ram, hstore, hsame, hbyte⟩ := Engine.exists_storeRam hfits
  rw [haddress, hlength] at hbyte
  refine ⟨ram, ?_, hsame, fun i => ?_⟩
  · rw [busWrite_of_ram h.decode_eq, mapEngine, hstore]
    rfl
  · rw [LittleEndian.encode_mod]
    exact hbyte i

/-- A write whose bytes do not all exist changes nothing. -/
theorem busWrite_of_not (hreach : s.Reachable) (h : BusTarget.RamAccess offset width)
    (houtside : ¬ s.engine.settings.InsideRam offset width.bytes) (value : UInt64) :
    s.busWrite offset width.bytes value = s := by
  obtain ⟨-, hrange⟩ := hreach.place_eq h
  rw [busWrite_of_ram h.decode_eq, mapEngine, Engine.storeRam_of_not]
  rw [LittleEndian.length_encode]
  exact fun hin => houtside ((hrange _).1 hin)

/-- **A read in the upper half polls, and shows the bytes at its bus addresses**, or ones where they
do not all exist. -/
theorem busRead_eq (hreach : s.Reachable) (h : BusTarget.RamAccess offset width) :
    (s.busRead offset width.bytes).2 = s.poll.2 ∧
      (s.busRead offset width.bytes).1.toNat =
        if s.engine.settings.InsideRam offset width.bytes then
          LittleEndian.decode ((List.range' (s.engine.settings.busAddress offset) width.bytes).map
            s.poll.2.engine.ram.byteAt)
        else 2 ^ (8 * width.bytes) - 1 := by
  have hdrained : s.drain.2.Reachable := hreach.step .poll
  obtain ⟨haddress, hrange⟩ := hdrained.place_eq h
  rw [(sameRules_drain s).settings] at haddress hrange
  rw [busRead_of_ram h.decode_eq]
  refine ⟨rfl, ?_⟩
  split
  · next hinside =>
      rw [Engine.toNat_loadRam_of_inRange ((hrange _).2 hinside), Aperture.bytes_store, haddress]
      rfl
  · next houtside =>
      rw [Engine.loadRam_of_not fun hin => houtside ((hrange _).1 hin), AccessWidth.toNat_mask]

end Reachable

end System

/-! ### Slots that software programs -/

/-- The byte that an operation writes at bus address `i`, if it is a bus write that does. -/
def Operation.ramByte? (settings : AcceptedSettings) (i : Nat) : Operation → Option UInt8
  | .busWrite offset size value =>
      if (size = 1 ∨ size = 2 ∨ size = 4) ∧ offset.toNat % size = 0 ∧ 0x2000 ≤ offset.toNat ∧
          offset.toNat < 0x4000 ∧ settings.InsideRam offset size ∧
          settings.busAddress offset ≤ i ∧ i < settings.busAddress offset + size then
        some ((LittleEndian.encode size (value.toNat % 2 ^ (8 * size))).getD
          (i - settings.busAddress offset) 0)
      else none
  | _ => none

/-- A bus write that is not one of a register. -/
def Operation.isRamWrite : Operation → Bool
  | .busWrite offset _ _ => 0x2000 ≤ offset.toNat
  | _ => false

theorem Operation.ramByte?_of_not_isRamWrite {settings : AcceptedSettings} {i : Nat}
    {op : Operation} (h : op.isRamWrite = false) : op.ramByte? settings i = none := by
  cases op with
  | busWrite offset size value =>
      exact if_neg fun hwrite => absurd hwrite.2.2.1 (of_decide_eq_false h)
  | _ => rfl

namespace System

variable {s : System} {address : UInt32} {ops : List Operation} {i : Nat}

/-- **A bus write above the registers changes the bytes that it writes**, and no others. -/
theorem byteAt_perform_of_isRamWrite (hreach : s.Reachable) {op : Operation}
    (h : op.isRamWrite = true) :
    (s.perform op).2.engine.ram.byteAt i =
      (op.ramByte? s.engine.settings i).getD (s.engine.ram.byteAt i) := by
  cases op with
  | busWrite offset size value =>
      have hupper : 0x2000 ≤ offset.toNat := of_decide_eq_true h
      show (s.busWrite offset size value).engine.ram.byteAt i = _
      cases hwidth : AccessWidth.ofSize? size with
      | none =>
          have hsize := AccessWidth.ne_of_ofSize?_eq_none hwidth
          rw [s.busWrite_of_unsupported offset value hwidth, Operation.ramByte?,
            if_neg fun hwrite => hsize hwrite.1]
          rfl
      | some width =>
          obtain rfl := AccessWidth.bytes_of_ofSize? hwidth
          by_cases haccess : BusTarget.RamAccess offset width
          · by_cases hinside : s.engine.settings.InsideRam offset width.bytes
            · obtain ⟨ram, hwrite, -, hbyte⟩ := hreach.exists_busWrite haccess hinside value
              rw [hwrite, engine_mapEngine, hbyte, Operation.ramByte?]
              split
              · next hin =>
                  rw [if_pos ⟨width.bytes_cases, haccess.aligned, hupper, haccess.window, hinside,
                    hin⟩]
                  rfl
              · next hout =>
                  rw [if_neg fun hwrite => hout hwrite.2.2.2.2.2]
                  rfl
            · rw [hreach.busWrite_of_not haccess hinside, Operation.ramByte?,
                if_neg fun hwrite => hinside hwrite.2.2.2.2.1]
              rfl
          · have hignored : s.busWrite offset width.bytes value = s := by
              simp only [busWrite, hwidth, BusTarget.decode_of_not_ramAccess haccess hupper]
            rw [hignored, Operation.ramByte?,
              if_neg fun hwrite => haccess ⟨hwrite.2.1, hupper, hwrite.2.2.2.1⟩]
            rfl
  | _ => cases h

/-- Along a run from `s`, nothing but bus writes above the registers changes the slot at
`address`. -/
def Programs (address : UInt32) : System → List Operation → Prop
  | _, [] => True
  | s, op :: rest =>
      (op.isRamWrite = false → ∀ i, InSlot address i →
        (s.perform op).2.engine.ram.byteAt i = s.engine.ram.byteAt i) ∧
      Programs address (s.perform op).2 rest

theorem programs_of_forall (h : ∀ op ∈ ops, op.isRamWrite = true) : Programs address s ops := by
  induction ops generalizing s with
  | nil => trivial
  | cons op rest ih =>
      refine ⟨fun hother => ?_, ih fun other hmem => h other (List.mem_cons_of_mem _ hmem)⟩
      rw [h op (List.mem_cons_self ..)] at hother
      cases hother

/-- **A byte of a slot that software programs is the one that has been written last.** -/
theorem byteAt_run_of_programs (hreach : s.Reachable) (h : Programs address s ops)
    (hi : InSlot address i) :
    (s.run ops).2.engine.ram.byteAt i =
      (lastSaid (Operation.ramByte? s.engine.settings i) ops).getD (s.engine.ram.byteAt i) := by
  induction ops generalizing s with
  | nil => rfl
  | cons op rest ih =>
      obtain ⟨hquiet, hrest⟩ := h
      have hsettings : (s.perform op).2.engine.settings = s.engine.settings := by
        rw [perform_eq_act]
        exact s.settings_act op.action
      have hbyte : (s.perform op).2.engine.ram.byteAt i =
          (op.ramByte? s.engine.settings i).getD (s.engine.ram.byteAt i) := by
        cases hwrite : op.isRamWrite with
        | true => exact byteAt_perform_of_isRamWrite hreach hwrite
        | false =>
            rw [hquiet hwrite i hi, Operation.ramByte?_of_not_isRamWrite hwrite]
            rfl
      have hsaid : lastSaid (Operation.ramByte? s.engine.settings i) [op] =
          op.ramByte? s.engine.settings i := by
        rw [lastSaid, List.reverse_singleton, List.findSome?_singleton]
      have hlater := ih (hreach.step op) hrest
      rw [hsettings, hbyte] at hlater
      show (run (s.perform op).2 rest).2.engine.ram.byteAt i = _
      rw [hlater, ← List.singleton_append, lastSaid_append, hsaid, Option.getD_or]

/-- A slot inside the RAM of the settings stays inside along every run. -/
theorem Reachable.coversSlot_run (hreach : s.Reachable) (ops : List Operation)
    (hstart : s.engine.settings.ramBase.toNat ≤ address.toNat)
    (hend : address.toNat + Slot.length ≤
      s.engine.settings.ramBase.toNat + s.engine.settings.ramSize.toNat) :
    (s.run ops).2.engine.ram.CoversSlot address := by
  have hsettings : (s.run ops).2.engine.settings = s.engine.settings :=
    run_induction (P := fun t => t.engine.settings = s.engine.settings)
      (fun t action _ h => (t.settings_act action).trans h) rfl ops
  have hconsistent := (hreach.run ops).consistent
  have hbase := congrArg UInt64.toNat hconsistent.ramBase
  have hsize := congrArg UInt64.toNat hconsistent.ramSize
  rw [hsettings, UInt32.toNat_toUInt64] at hbase hsize
  show _ ≤ address.toUInt64.toNat ∧ address.toUInt64.toNat + _ ≤ _
  rw [UInt32.toNat_toUInt64, hbase, hsize]
  exact ⟨hstart, hend⟩

/-- The sixteen bytes of a slot, each as it has been written last along a run. -/
def writtenBytes (s : System) (ops : List Operation) (address : UInt32) : List UInt8 :=
  (List.range' address.toNat Slot.length).map fun i =>
    (lastSaid (Operation.ramByte? s.engine.settings i) ops).getD (s.engine.ram.byteAt i)

/-- **Descriptor RAM is one, whoever looks at it.**  On a reachable system, whatever the base and
the size of descriptor RAM, an aligned access of one, two or four bytes at an offset of the upper
half meets the bytes at the bus address as far behind the base.  A write changes these bytes to
those of the value, if they all exist, and otherwise nothing, and it tries no waiting frame.  A read
polls, and shows what these bytes denote then, or ones if they do not all exist.  So the engine
decodes a descriptor from the bytes that software has written last, in whatever pieces it has
written them, as long as nothing else changes the slot. -/
theorem ram_views_coincide (hreach : s.Reachable) :
    (∀ (offset : UInt64) (width : AccessWidth), BusTarget.RamAccess offset width →
      let first := s.engine.settings.busAddress offset
      (s.engine.settings.InsideRam offset width.bytes → ∀ value : UInt64,
        ∃ ram, s.busWrite offset width.bytes value = s.mapEngine ({ · with ram }) ∧
          ram.SameExtent s.engine.ram ∧
          ∀ i, ram.byteAt i =
            if first ≤ i ∧ i < first + width.bytes then
              (LittleEndian.encode width.bytes (value.toNat % 2 ^ (8 * width.bytes))).getD
                (i - first) 0
            else s.engine.ram.byteAt i) ∧
      (¬ s.engine.settings.InsideRam offset width.bytes → ∀ value : UInt64,
        s.busWrite offset width.bytes value = s) ∧
      (s.busRead offset width.bytes).2 = s.poll.2 ∧
      (s.busRead offset width.bytes).1.toNat =
        if s.engine.settings.InsideRam offset width.bytes then
          LittleEndian.decode ((List.range' first width.bytes).map s.poll.2.engine.ram.byteAt)
        else 2 ^ (8 * width.bytes) - 1) ∧
    ∀ (ops : List Operation) (address : UInt32),
      s.engine.settings.ramBase.toNat ≤ address.toNat →
      address.toNat + Slot.length ≤
        s.engine.settings.ramBase.toNat + s.engine.settings.ramSize.toNat →
      Programs address s ops →
      let slot := Slot.ofBytes (s.writtenBytes ops address)
      TransmitDescriptor.decode (s.run ops).2.engine.ram address = .ok (.ofSlot address slot) ∧
      ReceiveDescriptor.decode (s.run ops).2.engine.ram address = .ok (.ofSlot address slot) := by
  constructor
  · intro offset width haccess
    obtain ⟨hpoll, hvalue⟩ := hreach.busRead_eq haccess
    exact ⟨fun hinside => hreach.exists_busWrite haccess hinside,
      fun houtside => hreach.busWrite_of_not haccess houtside, hpoll, hvalue⟩
  · intro ops address hstart hend hprograms
    have hcovers := hreach.coversSlot_run ops hstart hend
    have hslot : (s.run ops).2.engine.ram.slotAt address =
        Slot.ofBytes (s.writtenBytes ops address) := by
      have hread := Aperture.readSlot_of_covers hcovers
      rw [Aperture.readSlot, Aperture.read_eq_map hcovers] at hread
      rw [← Except.ok.inj hread, writtenBytes]
      refine congrArg Slot.ofBytes (List.map_congr_left fun i hi => ?_)
      exact byteAt_run_of_programs hreach hprograms (List.mem_range'_1.1 hi)
    exact ⟨TransmitDescriptor.decode_eq_ok_iff.2 ⟨hcovers, by rw [hslot]⟩,
      ReceiveDescriptor.decode_eq_ok_iff.2 ⟨hcovers, by rw [hslot]⟩⟩

/-- A slot is programmed with words, halves and bytes, and one byte of it twice; a write behind the
64 bytes of RAM is lost, and a read there shows ones. -/
theorem slot_from_words_halves_and_bytes :
    let ops : List Operation := [.busWrite 0x2010 4 0x48486020, .busWrite 0x2014 2 0x300,
      .busWrite 0x2018 1 8, .busWrite 0x201C 4 0x20000000, .busWrite 0x201E 2 0xA000,
      .busWrite 0x203E 4 7, .busWrite 0x201F 1 0x20]
    ReceiveDescriptor.decode (small.run ops).2.engine.ram 0x48486010 =
      .ok ⟨0x48486010, 0x48486020, 0x300, 0, 8, 0, 0, 0, 0x20000000, 0, 0⟩ ∧
    small.busWrite 0x2040 2 7 = small ∧ (small.busRead 0x2040 2).1.toNat = 0xFFFF := by
  intro ops
  have hreach : small.Reachable := .fresh _ _ _ _
  obtain ⟨haccess, hslot⟩ := ram_views_coincide hreach
  obtain ⟨-, hlost, -, hones⟩ := haccess 0x2040 .half ⟨by decide, by decide, by decide⟩
  have houtside : ¬ small.engine.settings.InsideRam 0x2040 AccessWidth.half.bytes := by decide
  obtain ⟨-, hdecode⟩ := hslot ops 0x48486010 (by decide) (by decide)
    (programs_of_forall (by decide))
  rw [if_neg houtside] at hones
  refine ⟨hdecode.trans ?_, hlost houtside 7, hones⟩
  decide +kernel

end System

end PacketDma
