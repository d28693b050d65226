/-
**The intake of the engine.**

Frames from the network wait in an intake queue until their receive channel is armed.  The intake
refuses a frame while receive is disabled, when no descriptor could describe it, and when as many
frames wait as may wait; it counts what it refuses.

Main definitions:

* `PacketDma.Intake` — the waiting frames and the count of refused ones;
* `PacketDma.Intake.refusal?` — why a frame would be refused;
* `PacketDma.Intake.offer` — takes or refuses a frame.

Main results:

* `PacketDma.Intake.refusal?_eq_none_iff` — which frames are taken;
* `PacketDma.Intake.offer_of_refusal`, `PacketDma.Intake.offer_of_none` — what becomes of a frame.
-/

import PacketDma.Descriptor.Slot
import PacketDma.Fault
import PacketDma.Frame.Basic

set_option autoImplicit false

namespace PacketDma

/-- The frames that wait for their receive channel. -/
structure Intake where
  /-- The waiting frames, oldest first. -/
  frames : List InboundFrame := []
  /-- Whether receive is enabled. -/
  accepting : Bool := false
  /-- How many frames have been refused; it stands for a counter of 64 bits that has not run over. -/
  refused : Nat := 0
deriving DecidableEq, Repr

namespace Intake

/-- Why a frame would be refused when `limit` frames may wait. -/
def refusal? (q : Intake) (limit : Nat) (frame : InboundFrame) : Option DmaFault :=
  if q.accepting = false then some .receiveDisabled
  else if frame.bytes.length = 0 ∨ maxPacketLength < frame.bytes.length then
    some (.frameLength frame.bytes.length maxPacketLength)
  else if limit ≤ q.frames.length then some (.queueFull limit)
  else none

/-- Takes a frame, or refuses and counts it. -/
def offer (q : Intake) (limit : Nat) (frame : InboundFrame) : Option DmaFault × Intake :=
  match q.refusal? limit frame with
  | some fault => (some fault, { q with refused := q.refused + 1 })
  | none => (none, { q with frames := q.frames ++ [frame] })

/-- Discards the waiting frames and stops taking new ones. -/
def clear (q : Intake) : Intake := { q with frames := [], accepting := false }

/-- **Which frames are taken.** -/
theorem refusal?_eq_none_iff (q : Intake) (limit : Nat) (frame : InboundFrame) :
    q.refusal? limit frame = none ↔
      q.accepting = true ∧ 0 < frame.bytes.length ∧ frame.bytes.length ≤ maxPacketLength ∧
        q.frames.length < limit := by
  unfold refusal?
  by_cases haccepting : q.accepting = false
  · rw [if_pos haccepting]
    exact iff_of_false (by simp) fun h => by rw [haccepting] at h; cases h.1
  · rw [if_neg haccepting]
    by_cases hlength : frame.bytes.length = 0 ∨ maxPacketLength < frame.bytes.length
    · rw [if_pos hlength]
      exact iff_of_false (by simp) fun h => by omega
    · rw [if_neg hlength]
      by_cases hfull : limit ≤ q.frames.length
      · rw [if_pos hfull]
        exact iff_of_false (by simp) fun h => by omega
      · rw [if_neg hfull]
        exact iff_of_true rfl
          ⟨by simpa using haccepting, by omega, by omega, by omega⟩

theorem offer_of_refusal {q : Intake} {limit : Nat} {frame : InboundFrame} {fault : DmaFault}
    (h : q.refusal? limit frame = some fault) :
    q.offer limit frame = (some fault, { q with refused := q.refused + 1 }) := by
  rw [offer, h]

theorem offer_of_none {q : Intake} {limit : Nat} {frame : InboundFrame}
    (h : q.refusal? limit frame = none) :
    q.offer limit frame = (none, { q with frames := q.frames ++ [frame] }) := by
  rw [offer, h]

end Intake

end PacketDma
