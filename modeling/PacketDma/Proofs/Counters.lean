/-
**The counters.**

The engine counts what becomes of frames, and nothing but a full reset takes a count back.  So a bound
that the counters keep after an action has been kept all the way through it.

Main definitions:

* `PacketDma.EngineStats.Fits` — counters that words of 64 bits can hold.

Main results:

* `PacketDma.EngineStats.Fits.of_le` — smaller counters fit as well;
* `PacketDma.System.stats_le_fill`, `PacketDma.System.stats_le_drain`,
  `PacketDma.System.stats_le_transmit` — neither fills nor transmissions lower a counter;
* `PacketDma.System.stats_le_act` — **nothing but a full reset does**.
-/

import PacketDma.Proofs.Actions
import Mathlib.Order.Basic

set_option autoImplicit false

namespace PacketDma

namespace EngineStats

/-- Counters are compared one by one. -/
instance : Preorder EngineStats :=
  Preorder.lift fun c =>
    (c.received, c.overruns, c.receiveErrors, c.transmitted, c.transmitErrors, c.egressDropped,
      c.events)

/-- Words of 64 bits can hold the counters. -/
structure Fits (c : EngineStats) : Prop where
  received : c.received < UInt64.size
  overruns : c.overruns < UInt64.size
  receiveErrors : c.receiveErrors < UInt64.size
  transmitted : c.transmitted < UInt64.size
  transmitErrors : c.transmitErrors < UInt64.size
  egressDropped : c.egressDropped < UInt64.size
  events : c.events < UInt64.size

theorem fits_iff {c : EngineStats} : c.Fits ↔
    c.received < UInt64.size ∧ c.overruns < UInt64.size ∧ c.receiveErrors < UInt64.size ∧
      c.transmitted < UInt64.size ∧ c.transmitErrors < UInt64.size ∧
      c.egressDropped < UInt64.size ∧ c.events < UInt64.size :=
  ⟨fun ⟨a, b, c, d, e, f, g⟩ => ⟨a, b, c, d, e, f, g⟩,
    fun ⟨a, b, c, d, e, f, g⟩ => ⟨a, b, c, d, e, f, g⟩⟩

instance (c : EngineStats) : Decidable c.Fits := decidable_of_iff _ fits_iff.symm

/-- Smaller counters fit as well. -/
theorem Fits.of_le {a b : EngineStats} (h : b.Fits) (hle : a ≤ b) : a.Fits := by
  obtain ⟨h₁, h₂, h₃, h₄, h₅, h₆, h₇⟩ := hle
  exact ⟨h₁.trans_lt h.received, h₂.trans_lt h.overruns, h₃.trans_lt h.receiveErrors,
    h₄.trans_lt h.transmitted, h₅.trans_lt h.transmitErrors, h₆.trans_lt h.egressDropped,
    h₇.trans_lt h.events⟩

end EngineStats

namespace Engine

variable (e : Engine)

theorem stats_le_stampFrame (frameClass : FrameClass) (port : UInt8) (kind : EventKind)
    (frame : Frame) : e.stats ≤ (e.stampFrame frameClass port kind frame).stats := by
  unfold stampFrame
  split
  · exact ⟨le_rfl, le_rfl, le_rfl, le_rfl, le_rfl, le_rfl, Nat.le_succ _⟩
  · exact le_rfl

theorem stats_le_countFailure (channel : ChannelId) (fault : DmaFault) :
    e.stats ≤ (e.countFailure channel fault).stats := by
  cases fault with
  | overrun => exact ⟨le_rfl, Nat.le_succ _, le_rfl, le_rfl, le_rfl, le_rfl, le_rfl⟩
  | ringExhausted => exact ⟨le_rfl, Nat.le_succ _, le_rfl, le_rfl, le_rfl, le_rfl, le_rfl⟩
  | _ => exact ⟨le_rfl, le_rfl, Nat.le_succ _, le_rfl, le_rfl, le_rfl, le_rfl⟩

theorem stats_le_countReceived (frameClass : FrameClass) (frame : Frame) :
    e.stats ≤ (e.countReceived frameClass frame).stats := by
  have hcount : e.stats ≤ { e.stats with received := e.stats.received + 1 } :=
    ⟨Nat.le_succ _, le_rfl, le_rfl, le_rfl, le_rfl, le_rfl, le_rfl⟩
  exact hcount.trans (stats_le_stampFrame
    { e with stats := { e.stats with received := e.stats.received + 1 } } frameClass receivePort
    .received frame)

theorem stats_le_enqueueEgress (frame : Frame) : e.stats ≤ (e.enqueueEgress frame).stats := by
  unfold enqueueEgress
  split
  · exact ⟨le_rfl, le_rfl, le_rfl, le_rfl, le_rfl, Nat.le_succ _, le_rfl⟩
  · exact le_rfl

theorem stats_le_emit (channel : ChannelId) (g : Gathered) :
    e.stats ≤ (e.emit channel g).stats := by
  have hcount : e.stats ≤ { e.stats with transmitted := e.stats.transmitted + 1 } :=
    ⟨le_rfl, le_rfl, le_rfl, Nat.le_succ _, le_rfl, le_rfl, le_rfl⟩
  unfold emit
  dsimp only
  refine hcount.trans (le_trans ?_ (stats_le_enqueueEgress _ _))
  exact stats_le_stampFrame
    { e with
      channels := e.channels.modifyTransmit channel fun transmit =>
        { transmit with completion := g.first.bufferPointer }
      stats := { e.stats with transmitted := e.stats.transmitted + 1 } } _ _ _ _

end Engine

namespace System

variable (s : System)

/-- **A fill lowers no counter.** -/
theorem stats_le_fill (frame : InboundFrame) : s.engine.stats ≤ (s.fill frame).2.engine.stats := by
  cases h : s.engine.plan s.memory (s.engine.channelOf frame) frame.bytes.length with
  | error fault =>
      rw [fill_of_error h]
      exact s.engine.stats_le_countFailure _ fault
  | ok plan =>
      obtain ⟨memory, ram, -, hfill⟩ := exists_fill_of_plan h
      rw [hfill]
      exact Engine.stats_le_countReceived
        ({ s.engine with ram }.advance (s.engine.channelOf frame) plan) _ _

theorem stats_le_drainFrames (frames : List InboundFrame) :
    s.engine.stats ≤ (drainFrames frames s).2.engine.stats := by
  induction frames generalizing s with
  | nil => exact le_rfl
  | cons frame rest ih =>
      by_cases hready : s.engine.ready frame = true
      · rw [drainFrames_cons hready]
        exact le_trans (stats_le_fill (s.mapEngine (·.setWaiting rest)) frame) (ih _)
      · rw [drainFrames_of_not_ready (Bool.not_eq_true _ ▸ hready)]

/-- **A drain lowers no counter.** -/
theorem stats_le_drain : s.engine.stats ≤ s.drain.2.engine.stats := by
  unfold drain
  split
  · exact s.stats_le_drainFrames _
  · exact le_rfl

/-- **A transmission lowers no counter.** -/
theorem stats_le_transmit (channel : ChannelId) :
    s.engine.stats ≤ (s.transmit channel).2.engine.stats := by
  have hrejected : s.engine.stats ≤
      { s.engine.stats with transmitErrors := s.engine.stats.transmitErrors + 1 } :=
    ⟨le_rfl, le_rfl, le_rfl, le_rfl, Nat.le_succ _, le_rfl, le_rfl⟩
  simp only [transmit]
  split
  · exact hrejected
  · split
    · exact hrejected
    · next ram _ => exact Engine.stats_le_emit { s.engine with ram } channel _

/-- **Nothing but a full reset lowers a counter.** -/
theorem stats_le_act {action : Action} (h : action ≠ .reset) :
    s.engine.stats ≤ (s.act action).engine.stats := by
  cases act_cases s action with
  | reset => exact absurd rfl h
  | takeEgress => exact le_rfl
  | send channel value hvalue =>
      simp only [act, store, hvalue, if_false]
      exact stats_le_transmit (s.mapEngine (·.setTransmitHead channel value)) channel
  | quiet _ hsame => exact hsame.stats.ge
  | drain _ hsame hact =>
      rw [hact]
      exact hsame.stats.ge.trans (stats_le_drain _)

end System

end PacketDma
