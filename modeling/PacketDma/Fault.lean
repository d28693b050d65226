/-
**Faults of the engine.**

Everything that can go wrong in the engine is a cause with the facts that explain it; the wording
is one function per type of cause.

Main definitions:

* `PacketDma.ChainFault` — why a transmit chain was rejected;
* `PacketDma.DmaFault` — why an operation of the engine failed;
* `PacketDma.ChainFault.message`, `PacketDma.DmaFault.message` — their wording;
* `PacketDma.applyEach` — a sequence of steps that stops at the first fault and keeps what has been
  done before.
-/

import PacketDma.Memory.Fault

set_option autoImplicit false

namespace PacketDma

/-- Why a transmit chain was rejected. -/
inductive ChainFault where
  /-- The frame needs more descriptors than a walk may visit. -/
  | walkLimit (limit : Nat)
  /-- The first descriptor announces a packet of no bytes. -/
  | emptyPacket
  /-- A descriptor of the chain belongs to software. -/
  | notOwned (address : UInt32)
  /-- The chain ended, or came back on itself, before the packet was complete. -/
  | truncated (missing : Nat)
deriving DecidableEq, Repr

/-- The wording of a chain fault. -/
def ChainFault.message : ChainFault → String
  | .walkLimit limit => s!"descriptor walk exceeded {limit} steps"
  | .emptyPacket => "start-of-packet descriptor has zero length"
  | .notOwned address =>
      s!"descriptor 0x{Hexadecimal.padded 8 address.toNat} is not owned by the DMA engine"
  | .truncated missing => s!"descriptor chain ended {missing} bytes short of the packet length"

/-- Why an operation of the engine failed. -/
inductive DmaFault where
  /-- A descriptor, buffer or register lies outside its memory. -/
  | outOfRange (cause : MemoryFault)
  /-- A receive descriptor that the frame needs belongs to software. -/
  | overrun (channel : Nat) (address : UInt32)
  /-- The receive ring has no further descriptor for the frame. -/
  | ringExhausted (channel : Nat)
  /-- A transmit chain was rejected. -/
  | chain (channel : Nat) (cause : ChainFault)
  /-- An event register was read with no event queued. -/
  | noEvent
  /-- A frame arrived while receive is disabled. -/
  | receiveDisabled
  /-- A frame arrived with as many frames waiting as may wait. -/
  | queueFull (capacity : Nat)
  /-- A frame is empty or longer than a descriptor can say. -/
  | frameLength (length limit : Nat)
deriving DecidableEq, Repr

/-- The wording of an engine fault. -/
def DmaFault.message : DmaFault → String
  | .outOfRange cause => "out of range: " ++ cause.message
  | .overrun channel address =>
      s!"rx overrun on channel {channel}: " ++
        s!"descriptor 0x{Hexadecimal.padded 8 address.toNat} not owned by DMA"
  | .ringExhausted channel => s!"rx ring exhausted on channel {channel}"
  | .chain channel cause => s!"protocol error on channel {channel}: " ++ cause.message
  | .noEvent => "timestamp event read with empty queue"
  | .receiveDisabled => "rx frame dropped: receive is disabled"
  | .queueFull capacity => s!"rx frame dropped: pending queue full ({capacity} frames)"
  | .frameLength length limit => s!"frame length {length} is not representable (max {limit})"

/-- The result of a memory access as a result of the engine. -/
def liftMemory {α : Type} : Except MemoryFault α → Except DmaFault α
  | .ok a => .ok a
  | .error cause => .error (.outOfRange cause)

@[simp] theorem liftMemory_ok {α : Type} (a : α) :
    liftMemory (.ok a : Except MemoryFault α) = .ok a := rfl

@[simp] theorem liftMemory_error {α : Type} (cause : MemoryFault) :
    liftMemory (.error cause : Except MemoryFault α) = .error (.outOfRange cause) := rfl

/-- Carries out a step for each item in turn.  The first fault ends the sequence, and the state is
then the one that the steps before it have led to. -/
def applyEach {σ α : Type} (step : α → σ → Except DmaFault σ) :
    List α → σ → Option DmaFault × σ
  | [], state => (none, state)
  | item :: rest, state =>
      match step item state with
      | .ok next => applyEach step rest next
      | .error fault => (some fault, state)

@[simp] theorem applyEach_nil {σ α : Type} (step : α → σ → Except DmaFault σ) (state : σ) :
    applyEach step [] state = (none, state) := rfl

theorem applyEach_cons_ok {σ α : Type} {step : α → σ → Except DmaFault σ} {item : α}
    {state next : σ} (h : step item state = .ok next) (rest : List α) :
    applyEach step (item :: rest) state = applyEach step rest next := by
  rw [applyEach, h]

theorem applyEach_cons_error {σ α : Type} {step : α → σ → Except DmaFault σ} {item : α}
    {state : σ} {fault : DmaFault} (h : step item state = .error fault) (rest : List α) :
    applyEach step (item :: rest) state = (some fault, state) := by
  rw [applyEach, h]

end PacketDma
