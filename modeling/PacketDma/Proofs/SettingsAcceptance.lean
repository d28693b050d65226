/-
**Which settings are accepted.**

Settings are accepted exactly if they keep all rules, and otherwise the fault is that of the first
rule that they break.  The last rule asks that the address just past descriptor RAM is a bus
address.  Every byte of accepted RAM then has a bus address, and every slot has one pointer that
names it.  The rule asks for more than that: a RAM that ends with the last byte of the bus is
refused, although its bytes have addresses and its slots have pointers as well.

Main definitions:

* `PacketDma.SettingsRule` — the rules, and `PacketDma.SettingsRule.inOrder` their order;
* `PacketDma.Settings.Keeps` — settings keep a rule;
* `PacketDma.Settings.freshRam` — descriptor RAM as settings place it.

Main results:

* `PacketDma.Settings.firstFault_eq` — the fault of settings is that of the first broken rule;
* `PacketDma.Settings.exists_pointer` — a slot of RAM on the bus has exactly one pointer;
* `PacketDma.Settings.accepted_iff_ram_ends_below_top` — **which settings are accepted, which fault
  the others have, and how slots are named**;
* `PacketDma.Settings.ram_at_top_of_bus_is_refused` — a RAM on the bus that is refused.
-/

import PacketDma.Engine.Basic
import PacketDma.Proofs.ByteView

set_option autoImplicit false

namespace PacketDma

/-! ### Rules -/

/-- A rule for settings. -/
inductive SettingsRule where
  /-- The field holds the number of a channel. -/
  | channel (field : SettingsField)
  /-- The field is not zero. -/
  | positive (field : SettingsField)
  /-- The address just past descriptor RAM is a bus address. -/
  | ramEnd
deriving DecidableEq, Repr

/-- The rules in the order in which they are tested. -/
def SettingsRule.inOrder : List SettingsRule :=
  [.channel .ptpChannel, .channel .normalChannel, .positive .ramSize, .positive .pendingLimit,
    .positive .walkLimit, .positive .egressLimit, .ramEnd]

namespace Settings

/-- The settings keep a rule. -/
def Keeps (s : Settings) : SettingsRule → Prop
  | .channel field => s.value field < 8
  | .positive field => 0 < s.value field
  | .ramEnd => s.ramBase.toNat + s.ramSize.toNat < UInt32.size

instance (s : Settings) : (rule : SettingsRule) → Decidable (s.Keeps rule)
  | .channel field => inferInstanceAs (Decidable (s.value field < 8))
  | .positive field => inferInstanceAs (Decidable (0 < s.value field))
  | .ramEnd => inferInstanceAs (Decidable (s.ramBase.toNat + s.ramSize.toNat < UInt32.size))

/-- The fault of settings that break a rule. -/
def faultOf (s : Settings) : SettingsRule → SettingsFault
  | .channel field => .badChannel field (s.value field)
  | .positive field => .zero field
  | .ramEnd => .ramOverflow s.ramBase s.ramSize

/-- **The fault of settings is that of the first broken rule.** -/
theorem firstFault_eq (s : Settings) :
    s.firstFault = (SettingsRule.inOrder.find? fun rule => ¬ s.Keeps rule).map s.faultOf := by
  have hrules : SettingsRule.inOrder =
      channelFields.map .channel ++ (positiveFields.map .positive ++ [.ramEnd]) := rfl
  have hchannel : (fun rule => decide (¬ s.Keeps rule)) ∘ SettingsRule.channel =
      fun field => decide (8 ≤ s.value field) :=
    funext fun field => decide_eq_decide.2 Nat.not_lt
  have hpositive : (fun rule => decide (¬ s.Keeps rule)) ∘ SettingsRule.positive =
      fun field => decide (s.value field = 0) :=
    funext fun field => decide_eq_decide.2 (Nat.not_lt.trans Nat.le_zero)
  rw [hrules, List.find?_append, List.find?_append, List.find?_map, List.find?_map, hchannel,
    hpositive, firstFault]
  cases channelFields.find? fun field => decide (8 ≤ s.value field) with
  | some field => rfl
  | none =>
      cases positiveFields.find? fun field => decide (s.value field = 0) with
      | some field => rfl
      | none =>
          show (if s.Keeps .ramEnd then none else some (s.faultOf .ramEnd)) = _
          by_cases h : s.Keeps .ramEnd <;> simp [h]

/-- The fault says which rule is broken, and that those before it are kept. -/
theorem firstFault_eq_some_iff {s : Settings} {fault : SettingsFault} :
    s.firstFault = some fault ↔
      ∃ earlier rule later, SettingsRule.inOrder = earlier ++ rule :: later ∧
        (∀ other ∈ earlier, s.Keeps other) ∧ ¬ s.Keeps rule ∧ fault = s.faultOf rule := by
  simp only [firstFault_eq, Option.map_eq_some_iff, List.find?_eq_some_iff_append,
    decide_eq_true_eq, Bool.not_eq_eq_eq_not, Bool.not_true, decide_eq_false_iff_not,
    Decidable.not_not]
  constructor
  · rintro ⟨rule, ⟨hbroken, earlier, later, hrules, hkept⟩, rfl⟩
    exact ⟨earlier, rule, later, hrules, hkept, hbroken, rfl⟩
  · rintro ⟨earlier, rule, later, hrules, hkept, hbroken, rfl⟩
    exact ⟨rule, ⟨hbroken, earlier, later, hrules, hkept⟩, rfl⟩

theorem accept_eq_ok_iff {s : Settings} {accepted : AcceptedSettings} :
    s.accept = .ok accepted ↔ accepted.toSettings = s := by
  unfold accept
  split
  · next fault hfault =>
      refine iff_of_false (by simp) ?_
      rintro rfl
      rw [accepted.noFault] at hfault
      cases hfault
  · next hnone =>
      rw [Except.ok.injEq]
      exact ⟨fun h => h ▸ rfl, fun h => by cases h; rfl⟩

theorem accept_eq_error_iff {s : Settings} {fault : SettingsFault} :
    s.accept = .error fault ↔ s.firstFault = some fault := by
  unfold accept
  split
  · next other hother => rw [hother, Except.error.injEq, Option.some.injEq]
  · next hnone =>
      refine iff_of_false (by simp) ?_
      simp [hnone]

/-! ### Pointers -/

/-- Descriptor RAM as settings place it, accepted or not. -/
def freshRam (s : Settings) : Aperture :=
  ⟨s.ramBase.toUInt64, .dense (Dense.ofSize s.ramSize.toUInt64)⟩

/-- Every byte of descriptor RAM has a bus address. -/
def FitsOnBus (s : Settings) : Prop :=
  ∀ i, i < s.ramSize.toNat → s.ramBase.toNat + i < UInt32.size

/-- The last byte decides, if there is one. -/
theorem fitsOnBus_iff {s : Settings} (h : 0 < s.ramSize.toNat) :
    s.FitsOnBus ↔ s.ramBase.toNat + s.ramSize.toNat ≤ UInt32.size := by
  constructor
  · intro hfits
    have hlast := hfits (s.ramSize.toNat - 1) (by omega)
    omega
  · intro hend i hi
    omega

/-- **A slot of RAM on the bus has exactly one pointer**: it is translated to the offset of the
slot, and no other pointer is. -/
theorem exists_pointer {s : Settings} (hfits : s.FitsOnBus) {offset : Nat}
    (h : offset + Slot.length ≤ s.ramSize.toNat) :
    ∃ pointer : UInt32, pointer.toNat = s.ramBase.toNat + offset ∧
      ∀ other : UInt32, s.freshRam.translate other.toUInt64 Slot.length =
        .ok (UInt64.ofNat offset) ↔ other = pointer := by
  unfold Slot.length at h ⊢
  have haddress : s.ramBase.toNat + offset < UInt32.size := hfits offset (by omega)
  have hoffset : (UInt64.ofNat offset).toNat = offset := by
    refine UInt64.toNat_ofNat_of_lt' ?_
    unfold UInt32.size at haddress
    unfold UInt64.size
    omega
  have hpointer : (UInt32.ofNat (s.ramBase.toNat + offset)).toNat = s.ramBase.toNat + offset :=
    UInt32.toNat_ofNat_of_lt' haddress
  refine ⟨UInt32.ofNat (s.ramBase.toNat + offset), hpointer, fun other => ?_⟩
  rw [Aperture.translate_eq_ok_iff, hoffset, ← UInt32.toNat_inj, hpointer]
  show (s.ramBase.toUInt64.toNat ≤ _ ∧ _ ≤ s.ramBase.toUInt64.toNat + s.ramSize.toUInt64.toNat) ∧
    s.ramBase.toUInt64.toNat + offset = _ ↔ _
  simp only [UInt32.toNat_toUInt64]
  omega

/-- The last rule asks for one address more than the bytes of RAM need. -/
theorem keeps_ramEnd_iff {s : Settings} (h : s.Keeps (.positive .ramSize)) :
    s.Keeps .ramEnd ↔ s.FitsOnBus ∧ s.ramBase.toNat + s.ramSize.toNat ≠ UInt32.size := by
  rw [fitsOnBus_iff h]
  exact Nat.lt_iff_le_and_ne

/-- **Which settings are accepted.**  Settings are accepted if and only if both channels exist, the
four limits are not zero, every byte of descriptor RAM has a bus address, and RAM does not end with
the last byte of the bus.  Settings that are not accepted have the fault of the first rule that they
break.  An engine with accepted settings has its RAM at the place that they say, and every slot
there, at whatever offset, has exactly one pointer that is translated to the offset. -/
theorem accepted_iff_ram_ends_below_top (s : Settings) :
    ((∃ accepted, s.accept = .ok accepted) ↔
      (s.ptpChannel < 8 ∧ s.normalChannel < 8) ∧
      (0 < s.ramSize.toNat ∧ 0 < s.pendingLimit ∧ 0 < s.walkLimit ∧ 0 < s.egressLimit) ∧
      s.FitsOnBus ∧ s.ramBase.toNat + s.ramSize.toNat ≠ UInt32.size) ∧
    (∀ fault, s.accept = .error fault ↔
      ∃ earlier rule later, SettingsRule.inOrder = earlier ++ rule :: later ∧
        (∀ other ∈ earlier, s.Keeps other) ∧ ¬ s.Keeps rule ∧ fault = s.faultOf rule) ∧
    ∀ accepted, s.accept = .ok accepted → accepted.toSettings = s ∧
      ∀ (clock : Clock) (interrupt : InterruptLine) (offset : Nat),
        offset + Slot.length ≤ s.ramSize.toNat →
        ∃ pointer : UInt32, pointer.toNat = s.ramBase.toNat + offset ∧
          ∀ other : UInt32,
            (Engine.fresh accepted clock interrupt).ram.translate other.toUInt64 Slot.length =
              .ok (UInt64.ofNat offset) ↔ other = pointer := by
  have haccept : (∃ accepted, s.accept = .ok accepted) ↔ s.firstFault = none := by
    simp only [accept_eq_ok_iff]
    exact ⟨fun ⟨accepted, h⟩ => h ▸ accepted.noFault, fun h => ⟨⟨s, h⟩, rfl⟩⟩
  have hsound := haccept.trans s.firstFault_eq_none_iff
  refine ⟨hsound.trans ?_, fun fault => accept_eq_error_iff.trans firstFault_eq_some_iff, ?_⟩
  · refine and_congr_right fun _ => and_congr_right fun hlimits => ?_
    exact keeps_ramEnd_iff hlimits.1
  · intro accepted h
    obtain rfl := accept_eq_ok_iff.1 h
    obtain ⟨-, hlimits, hend⟩ := hsound.1 ⟨accepted, h⟩
    exact ⟨rfl, fun _ _ _ => exists_pointer ((keeps_ramEnd_iff hlimits.1).1 hend).1⟩

/-- RAM that ends sixteen bytes below the top of the bus is accepted, and its last slot has the
pointer to its first byte.  Settings that break the rules for a channel, for a limit and for RAM
have the fault of the channel. -/
theorem ram_below_top_of_bus_is_accepted :
    let s : Settings := { ramBase := 0xFFFFDFF0 }
    let broken : Settings := { ramBase := 0xFFFFFFFF, walkLimit := 0, normalChannel := 8 }
    (∃ accepted, s.accept = .ok accepted ∧ ∃ pointer : UInt32, pointer.toNat = 0xFFFFFFE0 ∧
      (Engine.fresh accepted {} {}).ram.translate pointer.toUInt64 Slot.length =
        .ok (UInt64.ofNat 0x1FF0)) ∧
    broken.accept = .error (.badChannel .normalChannel 8) := by
  intro s broken
  obtain ⟨hok, -, hslots⟩ := accepted_iff_ram_ends_below_top s
  obtain ⟨-, herror, -⟩ := accepted_iff_ram_ends_below_top broken
  obtain ⟨accepted, haccepted⟩ := hok.2
    ⟨by decide, by decide, (fitsOnBus_iff (by decide)).2 (by decide), by decide⟩
  obtain ⟨pointer, haddress, hpointer⟩ := (hslots accepted haccepted).2 {} {} 0x1FF0 (by decide)
  refine ⟨⟨accepted, haccepted, pointer, haddress.trans (by decide), (hpointer pointer).2 rfl⟩,
    (herror _).2 ?_⟩
  exact ⟨[.channel .ptpChannel], .channel .normalChannel, _, rfl, by decide, by decide, rfl⟩

/-- **A RAM on the bus that is refused.**  Eight kibibytes end with the last byte of the bus.  Both
channels exist, no limit is zero, every byte has a bus address and every slot a pointer that is
translated back to it, but the settings have a fault, which is worded as if RAM did not fit. -/
theorem ram_at_top_of_bus_is_refused :
    let s : Settings := { ramBase := 0xFFFFE000, ramSize := 0x2000 }
    (s.ptpChannel < 8 ∧ s.normalChannel < 8) ∧
    (0 < s.ramSize.toNat ∧ 0 < s.pendingLimit ∧ 0 < s.walkLimit ∧ 0 < s.egressLimit) ∧
    (∀ i, i < s.ramSize.toNat → s.ramBase.toNat + i < UInt32.size) ∧
    (∀ offset, offset + Slot.length ≤ s.ramSize.toNat → ∃ pointer : UInt32,
      s.freshRam.translate pointer.toUInt64 Slot.length = .ok (UInt64.ofNat offset)) ∧
    s.accept = .error (.ramOverflow 0xFFFFE000 0x2000) ∧
    (SettingsFault.ramOverflow 0xFFFFE000 0x2000).message =
      "CPPI RAM at 0xffffe000 with size 0x2000 does not fit in a 32-bit bus" := by
  intro s
  have hfits : s.FitsOnBus := (fitsOnBus_iff (by decide)).2 (by decide)
  refine ⟨by decide, by decide, hfits, fun offset h => ?_, accept_eq_error_iff.2 (by decide),
    by decide +kernel⟩
  obtain ⟨pointer, -, hpointer⟩ := exists_pointer hfits h
  exact ⟨pointer, (hpointer pointer).2 rfl⟩

end Settings

end PacketDma
