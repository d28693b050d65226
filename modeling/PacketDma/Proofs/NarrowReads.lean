/-
**Narrow reads on the bus.**

Software may read a word of the window at once, or its halves, or its bytes one by one.  A read of a
register has no effect and shows one lane of the word.  A read of descriptor RAM lets waiting frames
land first, which may rewrite the very word that is being read; but frames that could not land stay
where they are, and so the first read of a series settles what all of them show.

Main definitions:

* `PacketDma.Lane.read` — the bus read of a lane;
* `PacketDma.BusTarget.WholeWord` — a word of the window that lies inside or outside descriptor RAM.

Main results:

* `PacketDma.System.busRead_lane` — **a narrow read shows a lane of what a wide one shows**;
* `PacketDma.System.busRead_busRead` — the first read settles what the later ones show;
* `PacketDma.System.narrow_reads_agree` — **words, halves and bytes agree**, in whatever order they
  are read.
-/

import PacketDma.Proofs.EgressDelivery
import PacketDma.Proofs.Lanes
import PacketDma.Proofs.PumpBudgets
import PacketDma.Proofs.TimestampLog

set_option autoImplicit false

namespace PacketDma

/-! ### What the lanes of a word address -/

/-- The bus read of a lane of the word at an offset. -/
def Lane.read (offset : UInt64) (lane : Lane) : Operation :=
  .busRead (offset + UInt64.ofNat lane.start) lane.width.bytes

namespace BusTarget

/-- The word at an offset of the window is a register, or it lies inside descriptor RAM of the given
size, or outside. -/
structure WholeWord (offset : UInt64) (ramSize : Nat) : Prop where
  aligned : offset.toNat % 4 = 0
  window : offset.toNat < 0x4000
  whole : 0x2000 ≤ offset.toNat →
    offset.toNat + 4 ≤ 0x2000 + ramSize ∨ 0x2000 + ramSize ≤ offset.toNat

variable {offset : UInt64}

theorem toNat_add_start (hwindow : offset.toNat < 0x4000) (lane : Lane) :
    (offset + UInt64.ofNat lane.start).toNat = offset.toNat + lane.start := by
  have hinside := lane.inside
  rw [UInt64.toNat_add, UInt64.toNat_ofNat']
  omega

/-- A lane of an aligned word is aligned. -/
theorem add_start_mod (haligned : offset.toNat % 4 = 0) (lane : Lane) :
    (offset.toNat + lane.start) % lane.width.bytes = 0 := by
  obtain ⟨start, width, hstart, -⟩ := lane
  cases width <;> simp only [AccessWidth.bytes] at hstart ⊢ <;> omega

/-- The lanes of a register address this register. -/
theorem decode_lane_of_lt (haligned : offset.toNat % 4 = 0) (hregister : offset.toNat < 0x2000)
    (lane : Lane) :
    decode (offset + UInt64.ofNat lane.start) lane.width =
      some (.register (.ofIndex ⟨offset.toNat / 4, by omega⟩) lane.start) := by
  have hinside := lane.inside
  have hposition := toNat_add_start (by omega : offset.toNat < 0x4000) lane
  have hindex : (offset.toNat + lane.start) / 4 = offset.toNat / 4 := by omega
  have hlane : (offset.toNat + lane.start) % 4 = lane.start := by omega
  have hregister' : (offset + UInt64.ofNat lane.start).toNat < 0x2000 := by omega
  rw [decode_of_register (hposition ▸ add_start_mod haligned lane) hregister']
  simp only [hposition, hindex, hlane]

/-- The lanes of a word in the upper half address its bytes. -/
theorem decode_lane_of_le (haligned : offset.toNat % 4 = 0) (hram : 0x2000 ≤ offset.toNat)
    (hwindow : offset.toNat < 0x4000) (lane : Lane) :
    decode (offset + UInt64.ofNat lane.start) lane.width =
      some (.ram (offset + UInt64.ofNat lane.start - 0x2000)) := by
  have hinside := lane.inside
  unfold decode windowSize Register.windowSize
  simp only [toNat_add_start hwindow lane, add_start_mod haligned lane]
  rw [if_neg (by omega), dif_neg (by omega)]
  rfl

end BusTarget

/-! ### What the lanes of a word show -/

namespace Engine

open LittleEndian

variable {e : Engine} {offset : UInt64}

/-- A lane of a register is a part of the word that the register shows; a register that cannot be
read shows zero. -/
theorem toNat_loadLane (register : Register) (lane : Lane) :
    (e.loadLane register lane.start lane.width).toNat =
      lane.part ((e.load register).toOption.getD 0).toNat := by
  have hinside := lane.inside
  have hshift : (UInt64.ofNat (8 * lane.start)).toNat = 8 * lane.start := by
    rw [UInt64.toNat_ofNat']
    omega
  rw [loadLane, Lane.part, AccessWidth.toNat_and_mask, UInt64.toNat_shiftRight,
    UInt32.toNat_toUInt64, hshift, Nat.mod_eq_of_lt (by omega : 8 * lane.start < 64),
    Nat.shiftRight_eq_div_pow, bound_eq_two_pow lane.start]

/-- Bytes that exist are read as the number that they denote. -/
theorem toNat_loadRam_of_inRange {width : AccessWidth}
    (h : InRange e.ram.store.size offset width.bytes) :
    (e.loadRam offset width).toNat = decode (e.ram.store.bytes offset width.bytes) := by
  have hlt : decode (e.ram.store.bytes offset width.bytes) < bound width.bytes := by
    have hbytes := decode_lt (e.ram.store.bytes offset width.bytes)
    rwa [Memory.length_bytes] at hbytes
  rw [loadRam, Memory.read_of_inRange h]
  exact UInt64.toNat_ofNat_of_lt' (Nat.lt_of_lt_of_le hlt width.bound_bytes_le)

/-- Bytes that do not all exist are read as ones. -/
theorem loadRam_of_not {width : AccessWidth}
    (h : ¬ InRange e.ram.store.size offset width.bytes) : e.loadRam offset width = width.mask := by
  rw [loadRam, Memory.read_of_not h]

/-- A lane of a word that lies inside descriptor RAM, or outside, is a part of what the word
shows. -/
theorem toNat_loadRam_lane {position : UInt64} (lane : Lane)
    (haddress : position.toNat = offset.toNat + lane.start)
    (hwhole : offset.toNat + 4 ≤ e.ram.store.size.toNat ∨
      e.ram.store.size.toNat ≤ offset.toNat) :
    (e.loadRam position lane.width).toNat = lane.part (e.loadRam offset .word).toNat := by
  have hend := lane.start_add_bytes_le
  have hbytes : 0 < lane.width.bytes := by cases lane.width <;> decide
  rcases hwhole with hin | hout
  · have hword : InRange e.ram.store.size offset AccessWidth.word.bytes := hin
    have hpart : InRange e.ram.store.size position lane.width.bytes := by
      unfold InRange
      omega
    rw [toNat_loadRam_of_inRange hword, toNat_loadRam_of_inRange hpart, Memory.bytes, haddress]
    exact lane.decode_lane e.ram.store.byteAt offset.toNat
  · have hword : ¬ InRange e.ram.store.size offset AccessWidth.word.bytes := by
      have hfour : AccessWidth.word.bytes = 4 := rfl
      unfold InRange
      omega
    have hpart : ¬ InRange e.ram.store.size position lane.width.bytes := by
      unfold InRange
      omega
    rw [loadRam_of_not hword, loadRam_of_not hpart]
    exact lane.part_ones.symm

end Engine

/-! ### Reads on the bus -/

namespace System

variable {s : System} {offset : UInt64}

/-- A read in the lower half shows a lane of a register and changes nothing. -/
theorem busRead_of_register {width : AccessWidth} {register : Register} {lane : Nat}
    (h : BusTarget.decode offset width = some (.register register lane)) :
    s.busRead offset width.bytes = (s.engine.loadLane register lane width, s) := by
  simp only [busRead, width.ofSize?_bytes, h]

/-- A read in the upper half shows descriptor RAM after the waiting frames have been tried. -/
theorem busRead_of_ram {width : AccessWidth} {inner : UInt64}
    (h : BusTarget.decode offset width = some (.ram inner)) :
    s.busRead offset width.bytes = (s.drain.2.engine.loadRam inner width, s.drain.2) := by
  simp only [busRead, width.ofSize?_bytes, h]

/-- Descriptor RAM has the size that the settings say, also after the waiting frames have been
tried. -/
theorem Reachable.size_drain (h : s.Reachable) :
    s.drain.2.engine.ram.store.size = s.engine.settings.ramSize.toUInt64 := by
  have hdrained : s.drain.2.Reachable := h.step .poll
  rw [← (sameRules_drain s).settings]
  exact hdrained.consistent.ramSize

/-- The word at an offset in the lower half is that of a register, zero if it cannot be read. -/
theorem busRead_word_of_lt (haligned : offset.toNat % 4 = 0) (hregister : offset.toNat < 0x2000) :
    let register := Register.ofIndex ⟨offset.toNat / 4, by omega⟩
    s.busRead offset 4 = (((s.engine.load register).toOption.getD 0).toUInt64, s) := by
  intro register
  have hdecode := BusTarget.decode_lane_of_lt haligned hregister .whole
  rw [show offset + UInt64.ofNat Lane.whole.start = offset from UInt64.add_zero offset] at hdecode
  have hvalue := s.engine.toNat_loadLane register .whole
  rw [Lane.part_whole (UInt32.toNat_lt _)] at hvalue
  refine (busRead_of_register hdecode).trans (Prod.ext (UInt64.toNat_inj.1 ?_) rfl)
  rw [hvalue, UInt32.toNat_toUInt64]

/-- It is what a register access at the same offset reads. -/
theorem busRead_word_eq_readRegister (haligned : offset.toNat % 4 = 0)
    (hregister : offset.toNat < 0x2000) :
    s.busRead offset 4 =
      (((s.engine.readRegister offset.toUInt32).toOption.getD 0).toUInt64, s) := by
  have hoffset : offset.toUInt32.toNat = offset.toNat := by
    rw [UInt64.toNat_toUInt32]
    omega
  have hdecode : Register.decode offset.toUInt32 =
      some (.ofIndex ⟨offset.toNat / 4, by omega⟩) := by
    unfold Register.decode Register.windowSize
    simp only [hoffset, haligned, hregister, true_and, dif_pos]
  rw [busRead_word_of_lt haligned hregister, Engine.readRegister, hdecode]

/-- With no event queued, the registers of the oldest event show zero. -/
theorem busRead_of_no_event (hevents : s.engine.events.events = [])
    (hoffset : offset = 0xC34 ∨ offset = 0xC38) : s.busRead offset 4 = (0, s) := by
  obtain ⟨hlow, hhigh⟩ := Engine.readRegister_of_no_event hevents
  rcases hoffset with rfl | rfl
  · rw [busRead_word_eq_readRegister (by decide) (by decide),
      show (0xC34 : UInt64).toUInt32 = 0xC34 from rfl, hlow]
    rfl
  · rw [busRead_word_eq_readRegister (by decide) (by decide),
      show (0xC38 : UInt64).toUInt32 = 0xC38 from rfl, hhigh]
    rfl

/-- The word at an offset in the upper half is a word of descriptor RAM. -/
theorem busRead_word_of_le (haligned : offset.toNat % 4 = 0) (hram : 0x2000 ≤ offset.toNat)
    (hwindow : offset.toNat < 0x4000) :
    s.busRead offset 4 = (s.drain.2.engine.loadRam (offset - 0x2000) .word, s.drain.2) := by
  have hdecode := BusTarget.decode_lane_of_le haligned hram hwindow .whole
  rw [show offset + UInt64.ofNat Lane.whole.start = offset from UInt64.add_zero offset] at hdecode
  exact busRead_of_ram hdecode

theorem toNat_sub_ram (hram : 0x2000 ≤ offset.toNat) :
    (offset - 0x2000).toNat = offset.toNat - 0x2000 :=
  UInt64.toNat_sub_of_le _ _ (UInt64.le_iff_toNat_le.2 hram)

/-- Its value is that of the bytes there, or of a word of ones where they do not all exist. -/
theorem toNat_busRead_word_of_le (hreach : s.Reachable) (haligned : offset.toNat % 4 = 0)
    (hram : 0x2000 ≤ offset.toNat) (hwindow : offset.toNat < 0x4000) :
    (s.busRead offset 4).1.toNat =
      if offset.toNat + 4 ≤ 0x2000 + s.engine.settings.ramSize.toNat then
        LittleEndian.decode (s.drain.2.engine.ram.store.bytes (offset - 0x2000) 4)
      else 0xFFFFFFFF := by
  have hsize := congrArg UInt64.toNat hreach.size_drain
  rw [UInt32.toNat_toUInt64] at hsize
  have hinside : InRange s.drain.2.engine.ram.store.size (offset - 0x2000)
      AccessWidth.word.bytes ↔
        offset.toNat + 4 ≤ 0x2000 + s.engine.settings.ramSize.toNat := by
    have hfour : AccessWidth.word.bytes = 4 := rfl
    have hinner := toNat_sub_ram hram
    unfold InRange
    omega
  rw [busRead_word_of_le haligned hram hwindow]
  split
  · next hin => exact Engine.toNat_loadRam_of_inRange (hinside.2 hin)
  · next hout =>
      rw [Engine.loadRam_of_not (mt hinside.1 hout)]
      rfl

/-- **A narrow read shows a lane of what a wide one shows**, and leaves the same system behind. -/
theorem busRead_lane (hreach : s.Reachable)
    (hword : BusTarget.WholeWord offset s.engine.settings.ramSize.toNat) (lane : Lane) :
    s.busRead (offset + UInt64.ofNat lane.start) lane.width.bytes =
      (UInt64.ofNat (lane.part (s.busRead offset 4).1.toNat), (s.busRead offset 4).2) := by
  obtain ⟨haligned, hwindow, hwhole⟩ := hword
  by_cases hregister : offset.toNat < 0x2000
  · rw [busRead_of_register (BusTarget.decode_lane_of_lt haligned hregister lane),
      busRead_word_of_lt haligned hregister, UInt32.toNat_toUInt64, ← Engine.toNat_loadLane,
      UInt64.ofNat_toNat]
  · have hram : 0x2000 ≤ offset.toNat := Nat.le_of_not_lt hregister
    have hinner := toNat_sub_ram hram
    have hlane : (offset + UInt64.ofNat lane.start - 0x2000).toNat =
        (offset - 0x2000).toNat + lane.start := by
      have hsum := BusTarget.toNat_add_start hwindow lane
      have hle : (0x2000 : UInt64) ≤ offset + UInt64.ofNat lane.start :=
        UInt64.le_iff_toNat_le.2 (by rw [hsum]; exact Nat.le_add_right_of_le hram)
      have hsub := UInt64.toNat_sub_of_le _ _ hle
      rw [hsum] at hsub
      rw [hsub, hinner, show (0x2000 : UInt64).toNat = 0x2000 from rfl]
      omega
    rw [busRead_of_ram (BusTarget.decode_lane_of_le haligned hram hwindow lane),
      busRead_word_of_le haligned hram hwindow, ← Engine.toNat_loadRam_lane lane hlane ?_,
      UInt64.ofNat_toNat]
    have hsize := congrArg UInt64.toNat hreach.size_drain
    rw [UInt32.toNat_toUInt64] at hsize
    rw [hsize, hinner]
    have := hwhole hram
    omega

/-- **The first read settles what the later ones show**: frames that could not land stay where they
are. -/
theorem busRead_busRead (s : System) (haligned : offset.toNat % 4 = 0)
    (hwindow : offset.toNat < 0x4000) :
    (s.busRead offset 4).2.busRead offset 4 = s.busRead offset 4 := by
  by_cases hregister : offset.toNat < 0x2000
  · rw [busRead_word_of_lt haligned hregister, busRead_word_of_lt haligned hregister]
  · have hram : 0x2000 ≤ offset.toNat := Nat.le_of_not_lt hregister
    rw [busRead_word_of_le haligned hram hwindow, busRead_word_of_le haligned hram hwindow,
      (drained_drain s).drain_eq]

/-- Narrow reads behind the first read of a word leave the system alone. -/
theorem run_lanes_of_settled (hreach : s.Reachable)
    (hword : BusTarget.WholeWord offset s.engine.settings.ramSize.toNat)
    (hsettled : (s.busRead offset 4).2 = s) (lanes : List Lane) :
    s.run (lanes.map (Lane.read offset)) =
      (lanes.map fun lane => .value (UInt64.ofNat (lane.part (s.busRead offset 4).1.toNat)), s) := by
  induction lanes with
  | nil => rfl
  | cons lane rest ih =>
      have hlane := busRead_lane hreach hword lane
      rw [hsettled] at hlane
      have hfirst : s.perform (lane.read offset) =
          (.value (UInt64.ofNat (lane.part (s.busRead offset 4).1.toNat)), s) := by
        simp only [perform, Lane.read, hlane]
      rw [List.map_cons, run_cons, hfirst, ih]
      rfl

/-- **Narrow reads of a word** in any order show its lanes, and one of them leaves the same system
behind as a read of the word. -/
theorem run_lanes (hreach : s.Reachable)
    (hword : BusTarget.WholeWord offset s.engine.settings.ramSize.toNat) {lanes : List Lane}
    (hlanes : lanes ≠ []) :
    s.run (lanes.map (Lane.read offset)) =
      (lanes.map fun lane => .value (UInt64.ofNat (lane.part (s.busRead offset 4).1.toNat)),
        (s.busRead offset 4).2) := by
  obtain ⟨lane, rest, rfl⟩ := List.exists_cons_of_ne_nil hlanes
  have hagain := s.busRead_busRead hword.aligned hword.window
  have hfirst : s.perform (lane.read offset) =
      (.value (UInt64.ofNat (lane.part (s.busRead offset 4).1.toNat)),
        (s.busRead offset 4).2) := by
    simp only [perform, Lane.read, busRead_lane hreach hword lane]
  have hafter : (s.busRead offset 4).2.Reachable := hreach.step (.busRead offset 4)
  have hword' : BusTarget.WholeWord offset
      (s.busRead offset 4).2.engine.settings.ramSize.toNat := by
    have hsettings := s.settings_act (Operation.busRead offset 4).action
    rw [← perform_eq_act] at hsettings
    exact hsettings.symm ▸ hword
  have hrest := run_lanes_of_settled hafter hword' (congrArg Prod.snd hagain) rest
  rw [hagain] at hrest
  rw [List.map_cons, run_cons, hfirst, hrest]
  rfl

/-- A word on the bus has four bytes. -/
theorem toNat_busRead_lt (hreach : s.Reachable)
    (hword : BusTarget.WholeWord offset s.engine.settings.ramSize.toNat) :
    (s.busRead offset 4).1.toNat < LittleEndian.bound 4 := by
  have hwhole := congrArg (fun read => read.1.toNat) (busRead_lane hreach hword .whole)
  rw [show offset + UInt64.ofNat Lane.whole.start = offset from UInt64.add_zero offset] at hwhole
  exact (hwhole.trans (Lane.whole.toNat_ofNat_part _)).symm ▸ Lane.whole.part_lt _

/-- **Words, halves and bytes agree.**  On a reachable system, take a word of the window that is a
register, or lies wholly inside descriptor RAM or wholly outside.  Its halves, and its four bytes,
read one after the other from the same system, put together to what a read of the whole word shows,
and all of them leave the same system behind; and so it is for any number of narrow reads of the
word in any order.  In the lower half nothing changes, and the word is that of the register, zero
for the registers of the oldest event when no event is queued.  In the upper half the waiting frames
are tried first, and what is shown are the bytes after that, or ones where there are none. -/
theorem narrow_reads_agree (hreach : s.Reachable)
    (hword : BusTarget.WholeWord offset s.engine.settings.ramSize.toNat) :
    let word := (s.busRead offset 4).1
    let after := (s.busRead offset 4).2
    (∃ low high, s.run [.busRead offset 2, .busRead (offset + 2) 2] =
        ([.value low, .value high], after) ∧
      word.toNat = low.toNat + 0x10000 * high.toNat) ∧
    (∃ b₀ b₁ b₂ b₃, s.run [.busRead offset 1, .busRead (offset + 1) 1, .busRead (offset + 2) 1,
        .busRead (offset + 3) 1] = ([.value b₀, .value b₁, .value b₂, .value b₃], after) ∧
      word.toNat =
        b₀.toNat + 0x100 * b₁.toNat + 0x10000 * b₂.toNat + 0x1000000 * b₃.toNat) ∧
    (∀ lanes : List Lane, lanes ≠ [] → s.run (lanes.map (Lane.read offset)) =
      (lanes.map fun lane => .value (UInt64.ofNat (lane.part word.toNat)), after)) ∧
    (offset.toNat < 0x2000 → after = s ∧
      word = ((s.engine.readRegister offset.toUInt32).toOption.getD 0).toUInt64 ∧
      (s.engine.events.events = [] → offset = 0xC34 ∨ offset = 0xC38 → word = 0)) ∧
    (0x2000 ≤ offset.toNat → after = s.drain.2 ∧
      word.toNat =
        if offset.toNat + 4 ≤ 0x2000 + s.engine.settings.ramSize.toNat then
          LittleEndian.decode (after.engine.ram.store.bytes (offset - 0x2000) 4)
        else 0xFFFFFFFF) := by
  intro word after
  have hlanes : ∀ lanes : List Lane, lanes ≠ [] → s.run (lanes.map (Lane.read offset)) =
      (lanes.map fun lane => .value (UInt64.ofNat (lane.part word.toNat)), after) :=
    fun lanes hne => run_lanes hreach hword hne
  have hlt := toNat_busRead_lt hreach hword
  have hzero : offset + UInt64.ofNat (2 * 0) = offset := UInt64.add_zero offset
  refine ⟨?_, ?_, hlanes, ?_, ?_⟩
  · have hrun := hlanes [.half 0, .half 1] (by simp)
    simp only [List.map_cons, List.map_nil, Lane.read, Lane.half] at hrun
    refine ⟨_, _, hzero ▸ hrun, ?_⟩
    rw [Lane.toNat_ofNat_part, Lane.toNat_ofNat_part]
    exact Lane.part_halves hlt
  · have hrun := hlanes [.byte 0, .byte 1, .byte 2, .byte 3] (by simp)
    simp only [List.map_cons, List.map_nil, Lane.read, Lane.byte] at hrun
    refine ⟨_, _, _, _, hzero ▸ hrun, ?_⟩
    simp only [Lane.toNat_ofNat_part]
    exact Lane.part_bytes hlt
  · intro hregister
    have hread := busRead_word_eq_readRegister (s := s) hword.aligned hregister
    exact ⟨congrArg Prod.snd hread, congrArg Prod.fst hread,
      fun hevents hoffset => congrArg Prod.fst (busRead_of_no_event hevents hoffset)⟩
  · intro hram
    have hread := busRead_word_of_le (s := s) hword.aligned hram hword.window
    have hafter : after = s.drain.2 := congrArg Prod.snd hread
    rw [hafter]
    exact ⟨rfl, toNat_busRead_word_of_le hreach hword.aligned hram hword.window⟩

/-- A frame waits for a ring that has just been armed.  Software reads the last word of the first
descriptor in two halves, and the frame lands under the first of them. -/
theorem frame_lands_under_narrow_reads :
    let s := (small.run [.writeRam 0x48486000 [0, 0x100, 16, 0x20000000], .writeRegister 0x814 1,
      .writeRegister 0xA24 0x48486000, .deliver { bytes := [7] }]).2
    s.Reachable ∧ BusTarget.WholeWord 0x200C s.engine.settings.ramSize.toNat ∧
    s.engine.loadRam 0xC .word = 0x20000000 ∧
    s.run [.busRead 0x200C 2, .busRead 0x200E 2] =
      ([.value 0x0001, .value 0xD001], s.drain.2) ∧
    s.drain.2.memory.byteAt 0x100 = 7 := by
  intro s
  have hreach : s.Reachable := (Reachable.fresh ..).run _
  have hword : BusTarget.WholeWord 0x200C s.engine.settings.ramSize.toNat :=
    ⟨by decide, by decide, fun _ => Or.inl (by decide +kernel)⟩
  have hvalue : (s.busRead 0x200C 4).1 = 0xD0010001 := by decide +kernel
  obtain ⟨-, -, hlanes, -, hupper⟩ := narrow_reads_agree hreach hword
  have hrun := hlanes [.half 0, .half 1] (by simp)
  rw [(hupper (by decide)).1, hvalue] at hrun
  exact ⟨hreach, hword, by decide +kernel, hrun, by decide +kernel⟩

end System

end PacketDma
