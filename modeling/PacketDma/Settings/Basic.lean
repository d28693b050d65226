/-
**Settings of the engine.**

The engine is built with the place and size of its descriptor RAM, limits on its queues and walks,
and the rule that assigns frames to receive channels.  Settings are accepted only if every channel
exists, every limit is positive and the descriptor RAM lies on the bus.

Main definitions:

* `PacketDma.Settings` — the settings and their defaults;
* `PacketDma.SettingsField` — the fields, as they are named in text;
* `PacketDma.Settings.firstFault` — the first rule that settings break;
* `PacketDma.AcceptedSettings` — settings that break no rule;
* `PacketDma.AcceptedSettings.channel` — the receive channel of a class of frames.

Main results:

* `PacketDma.Settings.firstFault_eq_none_iff` — what acceptance means.
-/

import PacketDma.Channel
import PacketDma.Frame.Basic
import PacketDma.Hexadecimal

set_option autoImplicit false

namespace PacketDma

/-- The settings that an engine is built with. -/
structure Settings where
  /-- The bus address of the first byte of descriptor RAM. -/
  ramBase : UInt32 := 0x48486000
  /-- The number of bytes of descriptor RAM. -/
  ramSize : UInt32 := 0x2000
  /-- How many frames may wait for an armed receive channel. -/
  pendingLimit : Nat := 256
  /-- How many descriptors one frame may use. -/
  walkLimit : Nat := 1024
  /-- How many transmitted frames may wait for the host. -/
  egressLimit : Nat := 256
  /-- The EtherType of the precision time protocol. -/
  ptpType : UInt16 := Frame.ptpEtherType
  /-- The receive channel of frames of the precision time protocol. -/
  ptpChannel : Nat := 0
  /-- The receive channel of all other frames. -/
  normalChannel : Nat := 1
deriving DecidableEq, Repr

/-- A field of the settings. -/
inductive SettingsField where
  | ramBase
  | ramSize
  | pendingLimit
  | walkLimit
  | egressLimit
  | ptpType
  | ptpChannel
  | normalChannel
deriving DecidableEq, Repr

namespace SettingsField

/-- All fields, in the order of a positional list. -/
def all : List SettingsField :=
  [ramBase, ramSize, pendingLimit, walkLimit, egressLimit, ptpType, ptpChannel, normalChannel]

/-- The name of a field in text. -/
def name : SettingsField → String
  | ramBase => "cppi_ram_base"
  | ramSize => "cppi_ram_size"
  | pendingLimit => "max_pending_rx_frames"
  | walkLimit => "max_descriptor_walk"
  | egressLimit => "max_tx_queue_frames"
  | ptpType => "ptp_ethertype"
  | ptpChannel => "ptp_rx_channel"
  | normalChannel => "default_rx_channel"

/-- The least number that a field cannot hold. -/
def bound : SettingsField → Nat
  | ramBase | ramSize => UInt32.size
  | ptpType => UInt16.size
  | pendingLimit | walkLimit | egressLimit | ptpChannel | normalChannel => UInt64.size

theorem mem_all (f : SettingsField) : f ∈ all := by
  cases f <;> decide

end SettingsField

/-- A rule that settings break. -/
inductive SettingsFault where
  /-- There is no channel with this number. -/
  | badChannel (field : SettingsField) (value : Nat)
  /-- A size or a limit is zero. -/
  | zero (field : SettingsField)
  /-- The descriptor RAM does not end below the top of the bus. -/
  | ramOverflow (base size : UInt32)
deriving DecidableEq, Repr

/-- The wording of a broken rule. -/
def SettingsFault.message : SettingsFault → String
  | .badChannel field value => field.name ++ s!" must be a channel number below 8, got {value}"
  | .zero field => field.name ++ " must be non-zero"
  | .ramOverflow base size =>
      s!"CPPI RAM at 0x{Hexadecimal.padded 8 base.toNat} " ++
        s!"with size 0x{Hexadecimal.text size.toNat} does not fit in a 32-bit bus"

namespace Settings

/-- The number in a field. -/
def value (s : Settings) : SettingsField → Nat
  | .ramBase => s.ramBase.toNat
  | .ramSize => s.ramSize.toNat
  | .pendingLimit => s.pendingLimit
  | .walkLimit => s.walkLimit
  | .egressLimit => s.egressLimit
  | .ptpType => s.ptpType.toNat
  | .ptpChannel => s.ptpChannel
  | .normalChannel => s.normalChannel

/-- The settings with another number in a field. -/
def assign (s : Settings) (value : Nat) : SettingsField → Settings
  | .ramBase => { s with ramBase := UInt32.ofNat value }
  | .ramSize => { s with ramSize := UInt32.ofNat value }
  | .pendingLimit => { s with pendingLimit := value }
  | .walkLimit => { s with walkLimit := value }
  | .egressLimit => { s with egressLimit := value }
  | .ptpType => { s with ptpType := UInt16.ofNat value }
  | .ptpChannel => { s with ptpChannel := value }
  | .normalChannel => { s with normalChannel := value }

/-- The number assigned to a field is the number found there. -/
theorem value_assign_self (s : Settings) {value : Nat} {f : SettingsField} (h : value < f.bound) :
    (s.assign value f).value f = value := by
  cases f <;> first
    | rfl
    | exact UInt32.toNat_ofNat_of_lt' h
    | exact UInt16.toNat_ofNat_of_lt' h

theorem value_assign_of_ne (s : Settings) (value : Nat) {f g : SettingsField} (h : g ≠ f) :
    (s.assign value f).value g = s.value g := by
  cases f <;> cases g <;> first
    | rfl
    | exact absurd rfl h

/-- The fields that hold a channel number. -/
def channelFields : List SettingsField := [.ptpChannel, .normalChannel]

/-- The fields that must not be zero. -/
def positiveFields : List SettingsField := [.ramSize, .pendingLimit, .walkLimit, .egressLimit]

/-- The first rule that the settings break: channels exist, then limits are positive, then the
address just past the descriptor RAM is a bus address. -/
def firstFault (s : Settings) : Option SettingsFault :=
  match channelFields.find? (8 ≤ s.value ·) with
  | some field => some (.badChannel field (s.value field))
  | none =>
      match positiveFields.find? (s.value · = 0) with
      | some field => some (.zero field)
      | none =>
          if s.ramBase.toNat + s.ramSize.toNat < UInt32.size then none
          else some (.ramOverflow s.ramBase s.ramSize)

/-- **What acceptance means.** -/
theorem firstFault_eq_none_iff (s : Settings) :
    s.firstFault = none ↔
      (s.ptpChannel < 8 ∧ s.normalChannel < 8) ∧
      (0 < s.ramSize.toNat ∧ 0 < s.pendingLimit ∧ 0 < s.walkLimit ∧ 0 < s.egressLimit) ∧
      s.ramBase.toNat + s.ramSize.toNat < UInt32.size := by
  unfold firstFault
  split
  · next field h =>
      have hbad : 8 ≤ s.value field := by simpa using List.find?_some h
      refine iff_of_false (by simp) ?_
      rintro ⟨⟨hptp, hnormal⟩, -⟩
      have hmem := List.mem_of_find?_eq_some h
      simp only [channelFields, List.mem_cons, List.not_mem_nil, or_false] at hmem
      rcases hmem with rfl | rfl
      · exact absurd hbad (Nat.not_le.2 hptp)
      · exact absurd hbad (Nat.not_le.2 hnormal)
  · next hchannels =>
      have hsmall : ∀ f ∈ channelFields, s.value f < 8 := fun f hf => by
        simpa using List.find?_eq_none.1 hchannels f hf
      have hptp : s.ptpChannel < 8 := hsmall .ptpChannel (by decide)
      have hnormal : s.normalChannel < 8 := hsmall .normalChannel (by decide)
      split
      · next field h =>
          have hzero : s.value field = 0 := by simpa using List.find?_some h
          refine iff_of_false (by simp) ?_
          rintro ⟨-, ⟨hram, hpending, hwalk, hegress⟩, -⟩
          have hmem := List.mem_of_find?_eq_some h
          simp only [positiveFields, List.mem_cons, List.not_mem_nil, or_false] at hmem
          rcases hmem with rfl | rfl | rfl | rfl
          · exact absurd hzero (Nat.ne_of_gt hram)
          · exact absurd hzero (Nat.ne_of_gt hpending)
          · exact absurd hzero (Nat.ne_of_gt hwalk)
          · exact absurd hzero (Nat.ne_of_gt hegress)
      · next hpositive =>
          have hpos : ∀ f ∈ positiveFields, 0 < s.value f := fun f hf =>
            Nat.pos_of_ne_zero (by simpa using List.find?_eq_none.1 hpositive f hf)
          have hram := hpos .ramSize (by decide)
          have hpending := hpos .pendingLimit (by decide)
          have hwalk := hpos .walkLimit (by decide)
          have hegress := hpos .egressLimit (by decide)
          simp only [value] at hram hpending hwalk hegress
          split <;> simp <;> omega

end Settings

/-- Settings that break no rule. -/
structure AcceptedSettings extends Settings where
  noFault : toSettings.firstFault = none

/-- The settings, if they break no rule; the first broken rule otherwise. -/
def Settings.accept (s : Settings) : Except SettingsFault AcceptedSettings :=
  match h : s.firstFault with
  | some fault => .error fault
  | none => .ok ⟨s, h⟩

namespace AcceptedSettings

theorem ptpChannel_lt (s : AcceptedSettings) : s.ptpChannel < 8 :=
  ((Settings.firstFault_eq_none_iff s.toSettings).1 s.noFault).1.1

theorem normalChannel_lt (s : AcceptedSettings) : s.normalChannel < 8 :=
  ((Settings.firstFault_eq_none_iff s.toSettings).1 s.noFault).1.2

/-- The receive channel of a class of frames. -/
def channel (s : AcceptedSettings) : FrameClass → ChannelId
  | .ptp => ⟨s.ptpChannel, s.ptpChannel_lt⟩
  | .normal => ⟨s.normalChannel, s.normalChannel_lt⟩

end AcceptedSettings

end PacketDma
