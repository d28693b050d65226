/-
**The state of the engine.**

The engine is one value: its settings and registers, its channels, the address table, the timestamp
unit, the descriptor RAM, the frames on their way in and out, the interrupt line and the counters.
Together with the memory that it moves frames into and out of it forms a system, and every
operation is a function of systems.

Main definitions:

* `PacketDma.Engine` — the state of the engine;
* `PacketDma.Engine.fresh` — the engine as it is built;
* `PacketDma.Engine.reset` — the engine after a full reset;
* `PacketDma.Engine.stamp` — queues a timestamp event and announces it;
* `PacketDma.System` — an engine and its memory.

Main results:

* `PacketDma.Engine.reset_fresh` — a full reset of a fresh engine only drives the interrupt line;
* `PacketDma.Engine.exists_stampFrame` — what stamping a frame may change.
-/

import PacketDma.AddressTable
import PacketDma.Engine.Intake
import PacketDma.Interrupt
import PacketDma.Register.Map
import PacketDma.Settings.Basic
import PacketDma.Timestamp.Clock
import PacketDma.Timestamp.Event

set_option autoImplicit false

namespace PacketDma

/-- The counters of the engine.  Each stands for a counter of 64 bits that has not run over. -/
structure EngineStats where
  /-- Frames written into a receive ring. -/
  received : Nat := 0
  /-- Frames dropped because their receive ring had no descriptor for them. -/
  overruns : Nat := 0
  /-- Frames dropped because a descriptor or a buffer lay outside its memory. -/
  receiveErrors : Nat := 0
  /-- Frames gathered and sent. -/
  transmitted : Nat := 0
  /-- Transmit chains rejected. -/
  transmitErrors : Nat := 0
  /-- Frames sent while the egress queue was full. -/
  egressDropped : Nat := 0
  /-- Timestamp events queued. -/
  events : Nat := 0
deriving DecidableEq, Repr

/-- The state of the engine. -/
structure Engine where
  settings : AcceptedSettings
  registers : RegisterFile
  channels : ChannelBank
  table : AddressTable
  events : EventQueue
  /-- The descriptor RAM, placed at its bus address. -/
  ram : Aperture
  intake : Intake
  /-- Transmitted frames that the host has not taken yet, oldest first. -/
  egress : List Frame
  interrupt : InterruptLine
  clock : Clock
  stats : EngineStats

namespace Engine

/-- The engine as it is built, connected to a clock and an interrupt line. -/
def fresh (settings : AcceptedSettings) (clock : Clock) (interrupt : InterruptLine) : Engine where
  settings
  registers := .zero
  channels := .idle
  table := .zero
  events := {}
  ram := ⟨settings.ramBase.toUInt64, .dense (Dense.ofSize settings.ramSize.toUInt64)⟩
  intake := {}
  egress := []
  interrupt
  clock
  stats := {}

/-- The engine after a full reset.  It stays connected to its clock and its interrupt line, and
drives the line low. -/
def reset (e : Engine) : Engine where
  settings := e.settings
  registers := .zero
  channels := .idle
  table := .zero
  events := {}
  ram := e.ram.clear
  intake := {}
  egress := []
  interrupt := e.interrupt.drive false
  clock := e.clock
  stats := {}

/-- A full reset of a fresh engine only drives the interrupt line. -/
theorem reset_fresh (settings : AcceptedSettings) (clock : Clock) (interrupt : InterruptLine) :
    (fresh settings clock interrupt).reset = fresh settings clock (interrupt.drive false) := rfl

/-- The word stored at a position of the register file. -/
def register (e : Engine) (index : RegisterIndex) : UInt32 := e.registers.get index

/-- Stores a word at a position of the register file. -/
def setRegister (e : Engine) (index : RegisterIndex) (value : UInt32) : Engine :=
  { e with registers := e.registers.set index value }

/-- The engine after a reset of the DMA engine alone: the channels are idle, waiting frames are
gone, and receive and transmit are disabled.  Counters stay. -/
def resetDma (e : Engine) : Engine :=
  { e with
    channels := .idle
    intake := e.intake.clear
    registers :=
      ((e.registers.set .transmitControl 0).set .receiveControl 0).set .dmaStatus 0 }

/-- Whether receive is enabled. -/
def receiveEnabled (e : Engine) : Bool := e.register .receiveControl &&& 1 != 0

/-- Whether frames of the precision time protocol are stamped. -/
def stampsEnabled (e : Engine) : Bool := e.register .eventEnable &&& 1 != 0

/-- The additional EtherTypes of the precision time protocol. -/
def additionalTypes (e : Engine) : List UInt16 :=
  let value := e.register .timestampTypes
  [value.toUInt16, (value >>> 16).toUInt16]

/-- The class of a byte string as the engine sees it. -/
def classify (e : Engine) (frame : Frame) : FrameClass :=
  frame.classify e.settings.ptpType e.additionalTypes

/-- The value that the interrupt status has once an event has been announced. -/
def eventAnnounced : UInt32 := 0x10

/-- Queues a timestamp event, stamped with a fresh reading of the clock, and announces it on the
interrupt line. -/
def stamp (e : Engine) (metadata : EventMetadata) : Engine :=
  { e with
    events := e.events.push ⟨metadata.word, e.clock.stamp⟩
    clock := e.clock.next
    registers := e.registers.set .interruptStatus eventAnnounced
    interrupt := e.interrupt.pulse
    stats := { e.stats with events := e.stats.events + 1 } }

/-- Stamps a frame that has passed `port`, if it belongs to the precision time protocol and stamps
are enabled. -/
def stampFrame (e : Engine) (frameClass : FrameClass) (port : UInt8) (kind : EventKind)
    (frame : Frame) : Engine :=
  if frameClass = .ptp ∧ e.stampsEnabled = true then
    e.stamp ⟨port, kind, frame.messageType, frame.sequenceId⟩
  else e

/-- Stamping a frame touches the event queue, the clock, the interrupt line and its register, and the
count of events at most. -/
theorem exists_stampFrame (e : Engine) (frameClass : FrameClass) (port : UInt8) (kind : EventKind)
    (frame : Frame) :
    ∃ events clock registers interrupt count,
      e.stampFrame frameClass port kind frame =
        { e with
          events, clock, registers, interrupt
          stats := { e.stats with events := count } } ∧
      ∀ index, index ≠ .interruptStatus → registers.get index = e.registers.get index := by
  unfold stampFrame
  split
  · exact ⟨_, _, _, _, _, rfl, fun index h => RegisterFile.get_set_of_ne _ h _⟩
  · exact ⟨_, _, _, _, _, rfl, fun _ _ => rfl⟩

/-- Offers a frame from the network to the intake. -/
def offer (e : Engine) (frame : InboundFrame) : Option DmaFault × Engine :=
  let (fault, intake) := e.intake.offer e.settings.pendingLimit frame
  (fault, { e with intake })

theorem offer_of_refusal {e : Engine} {frame : InboundFrame} {fault : DmaFault}
    (h : e.intake.refusal? e.settings.pendingLimit frame = some fault) :
    e.offer frame =
      (some fault, { e with intake := { e.intake with refused := e.intake.refused + 1 } }) := by
  rw [offer, Intake.offer_of_refusal h]

theorem offer_of_none {e : Engine} {frame : InboundFrame}
    (h : e.intake.refusal? e.settings.pendingLimit frame = none) :
    e.offer frame =
      (none, { e with intake := { e.intake with frames := e.intake.frames ++ [frame] } }) := by
  rw [offer, Intake.offer_of_none h]

/-- Hands the oldest transmitted frame to the host, if there is one. -/
def takeEgress (e : Engine) : Option Frame × Engine :=
  (e.egress.head?, { e with egress := e.egress.tail })

end Engine

/-- An engine and the memory that it moves frames into and out of. -/
structure System where
  engine : Engine
  memory : Memory

namespace System

/-- Changes the engine alone. -/
def mapEngine (s : System) (f : Engine → Engine) : System := { s with engine := f s.engine }

@[simp] theorem engine_mapEngine (s : System) (f : Engine → Engine) :
    (s.mapEngine f).engine = f s.engine := rfl

@[simp] theorem memory_mapEngine (s : System) (f : Engine → Engine) :
    (s.mapEngine f).memory = s.memory := rfl

end System

end PacketDma
