/-
**A full reset leaves nothing behind.**

The state of the engine lies in many places, and a full reset deals with each of them on its own.
What comes out is the engine as it is built, connected to the same clock and the same interrupt line,
which has been driven low once.  The engine writes to its line and never reads it, so what the line
has been driven to before makes no difference either: whatever happens after a full reset, happens in
the same way to a new engine.

Main definitions:

* `PacketDma.InterruptLine.driveAll` — a line that is driven to several levels;
* `PacketDma.InterruptLine.EndsLow` — a line that has not been left high;
* `PacketDma.OutputMap.onLine` — an engine connected to another line.

Main results:

* `PacketDma.Station.perform_onLine`, `PacketDma.Station.run_onLine` — **the line is never read**;
* `PacketDma.Engine.reset_eq_fresh` — a full reset leaves the engine as it is built;
* `PacketDma.Station.endsLow_run` — the line is low between steps;
* `PacketDma.Station.full_reset_is_fresh` — **after a full reset, an engine is like a new one**.
-/

import PacketDma.Proofs.PumpBudgets
import PacketDma.Proofs.Sessions
import PacketDma.Proofs.TimestampLog

set_option autoImplicit false

namespace PacketDma

/-! ### Lines -/

namespace InterruptLine

/-- Drives the line to several levels, one after the other. -/
def driveAll (line : InterruptLine) (levels : List Bool) : InterruptLine := levels.foldl drive line

theorem driveAll_concat (line : InterruptLine) (levels : List Bool) (level : Bool) :
    line.driveAll (levels ++ [level]) = (line.driveAll levels).drive level := by
  rw [driveAll, List.foldl_append]
  rfl

/-- The line has not been left high. -/
def EndsLow (line : InterruptLine) : Prop := line.edges.getLast? ≠ some true

instance (line : InterruptLine) : Decidable line.EndsLow := inferInstanceAs (Decidable (_ ≠ _))

theorem endsLow_drive_false (line : InterruptLine) : (line.drive false).EndsLow := by
  simp [EndsLow]

theorem endsLow_pulse (line : InterruptLine) : line.pulse.EndsLow := endsLow_drive_false _

/-- A line that has not been left high completes no pulse when it is driven low. -/
theorem EndsLow.pulses_drive_false {line : InterruptLine} (h : line.EndsLow) :
    (line.drive false).pulses = line.pulses :=
  falls_append_false line.edges h

end InterruptLine

/-- The engine is connected to another line, which is then driven as its own line has been. -/
def OutputMap.onLine (line : InterruptLine) : OutputMap where
  egress frames := frames
  interrupt own := line.driveAll own.edges
  interrupt_drive own level := line.driveAll_concat own.edges level

/-! ### The line is never read -/

variable (line : InterruptLine)

namespace Engine

variable (e : Engine)

theorem enqueueEgress_onLine (frame : Frame) :
    (e.mapOutputs (.onLine line)).enqueueEgress frame =
      (e.enqueueEgress frame).mapOutputs (.onLine line) := by
  unfold enqueueEgress
  have hfull : ((e.mapOutputs (.onLine line)).settings.egressLimit ≤
      (e.mapOutputs (.onLine line)).egress.length) =
    (e.settings.egressLimit ≤ e.egress.length) := rfl
  simp only [hfull]
  split <;> rfl

theorem emit_onLine (channel : ChannelId) (g : Gathered) :
    (e.mapOutputs (.onLine line)).emit channel g =
      (e.emit channel g).mapOutputs (.onLine line) := by
  unfold emit
  dsimp only
  rw [← enqueueEgress_onLine, ← stampFrame_mapOutputs]
  rfl

theorem load_onLine (register : Register) :
    (e.mapOutputs (.onLine line)).load register = e.load register := by
  cases register <;> rfl

theorem reset_onLine :
    (e.mapOutputs (.onLine line)).reset = e.reset.mapOutputs (.onLine line) := by
  unfold reset mapOutputs
  rw [(OutputMap.onLine line).interrupt_drive]
  rfl

end Engine

namespace System

variable (s : System)

/-- A transmission does not read the line. -/
theorem transmit_onLine (channel : ChannelId) :
    (s.mapOutputs (.onLine line)).transmit channel =
      ((s.transmit channel).1, (s.transmit channel).2.mapOutputs (.onLine line)) := by
  cases hgather : gather s.engine.ram s.memory channel
      (s.engine.channels.transmitChannel channel).head s.engine.settings.walkLimit with
  | error fault =>
      have hgather' : gather (s.mapOutputs (.onLine line)).engine.ram _ channel
        ((s.mapOutputs (.onLine line)).engine.channels.transmitChannel channel).head
        (s.mapOutputs (.onLine line)).engine.settings.walkLimit = .error fault := hgather
      rw [transmit_of_error hgather, transmit_of_error hgather']
      rfl
  | ok g =>
      obtain ⟨ram, hok, -⟩ := exists_handedBack hgather
      have hgather' : gather (s.mapOutputs (.onLine line)).engine.ram
        (s.mapOutputs (.onLine line)).memory channel
        ((s.mapOutputs (.onLine line)).engine.channels.transmitChannel channel).head
        (s.mapOutputs (.onLine line)).engine.settings.walkLimit = .ok g := hgather
      have hok' : applyEach TransmitDescriptor.encode g.returned
        (s.mapOutputs (.onLine line)).engine.ram = (none, ram) := hok
      have hemit := Engine.emit_onLine line { s.engine with ram } channel g
      simp only [transmit, hgather, hgather', hok, hok']
      exact congrArg (fun e : Engine => ((none : Option DmaFault),
        System.mk (e.setTransmitHead channel 0) s.memory)) hemit

/-- A write of a register does not read the line. -/
theorem store_onLine (value : UInt32) (register : Register) :
    (s.mapOutputs (.onLine line)).store value register =
      ((s.store value register).1, (s.store value register).2.mapOutputs (.onLine line)) := by
  cases register with
  | dmaReset =>
      simp only [store]
      split <;> rfl
  | transmitHead channel =>
      simp only [store]
      split
      · rfl
      · exact transmit_onLine line (s.mapEngine (·.setTransmitHead channel value)) channel
  | receiveHead channel =>
      exact drain_mapOutputs (.onLine line) (s.mapEngine (·.armReceive channel value))
  | receiveControl =>
      simp only [store]
      split
      · rfl
      · exact drain_mapOutputs (.onLine line) (s.mapEngine (·.controlReceive value))
  | eventPop =>
      simp only [store]
      split <;> rfl
  | _ => rfl

/-- **An operation does not read the line.** -/
theorem perform_onLine (op : Operation) :
    (s.mapOutputs (.onLine line)).perform op =
      ((s.perform op).1, (s.perform op).2.mapOutputs (.onLine line)) := by
  cases op with
  | busRead offset size =>
      simp only [perform, busRead]
      split
      · rfl
      · split
        · rfl
        · next register lane _ =>
            have hload := Engine.load_onLine line s.engine register
            simp only [Engine.loadLane, hload, mapOutputs, mapEngine]
        · next inner _ =>
            rw [drain_mapOutputs]
            rfl
  | busWrite offset size value =>
      simp only [perform, busWrite]
      split
      · rfl
      · split
        · rfl
        · rw [store_onLine]
        · next inner _ =>
            simp only [mapOutputs, mapEngine, Engine.storeRam, Engine.mapOutputs]
            split <;> rfl
  | readRegister offset =>
      have hread : (s.mapOutputs (.onLine line)).engine.readRegister offset =
          s.engine.readRegister offset := by
        simp only [Engine.readRegister]
        split
        · exact Engine.load_onLine line s.engine _
        · rfl
      exact congrArg (fun value => (Reply.word value, s.mapOutputs (.onLine line))) hread
  | writeRegister offset value =>
      simp only [perform, writeRegister]
      split
      · rw [store_onLine]
      · rfl
  | receive frame => simp only [perform, receive_mapOutputs]
  | poll =>
      simp only [perform, poll, drain_mapOutputs]
      rfl
  | reset =>
      exact congrArg (fun e => (Reply.done, System.mk e s.memory)) (Engine.reset_onLine line s.engine)
  | writeMemory address bytes =>
      simp only [perform, writeMemory, mapOutputs, memory_mapEngine]
      split <;> rfl
  | _ => rfl

end System

namespace Station

variable {β : Type} [Backend β] {st : Station β}

/-- A station whose engine is connected to another line, driven as its own has been. -/
def onLine (st : Station β) (line : InterruptLine) : Station β :=
  { st with system := st.system.mapOutputs (.onLine line) }

theorem send_onLine (n : Nat) (st : Station β) :
    (st.onLine line).send n = ((st.send n).1, (st.send n).2.onLine line) := by
  induction n generalizing st with
  | zero => rfl
  | succ n ih =>
      cases h : st.system.engine.egress with
      | nil =>
          have h' : (st.onLine line).system.engine.egress = [] := h
          rw [send_of_nil h, send_of_nil h']
      | cons frame rest =>
          have h' : (st.onLine line).system.engine.egress = frame :: rest := h
          have hhanded : (st.onLine line).handOver frame rest =
              (st.handOver frame rest).onLine line := rfl
          rw [send_of_cons h, send_of_cons h', hhanded, ih]

theorem fetch_onLine (n : Nat) (st : Station β) :
    (st.onLine line).fetch n = ((st.fetch n).1, (st.fetch n).2.onLine line) := by
  induction n generalizing st with
  | zero => rfl
  | succ n ih =>
      cases h : (Backend.poll st.link).1 with
      | none =>
          have h' : (Backend.poll (st.onLine line).link).1 = none := h
          rw [fetch_of_none h, fetch_of_none h']
          rfl
      | some frame =>
          have h' : (Backend.poll (st.onLine line).link).1 = some frame := h
          have hlater := ih
            { system := (st.system.receive { bytes := frame }).2
              link := (Backend.poll st.link).2 }
          have hreceive := System.receive_mapOutputs (.onLine line) st.system { bytes := frame }
          rw [fetch_of_some h, fetch_of_some h']
          dsimp only [onLine] at hreceive hlater ⊢
          rw [hreceive]
          dsimp only
          rw [hlater]

theorem tick_onLine (budget : PumpBudget) (st : Station β) :
    (st.onLine line).tick budget = ((st.tick budget).1, (st.tick budget).2.onLine line) := by
  have hretry : (st.onLine line).retry = st.retry.onLine line := by
    unfold retry onLine
    rw [System.drain_mapOutputs]
  rw [tick_eq, tick_eq, hretry]
  dsimp only
  rw [send_onLine]
  dsimp only
  rw [fetch_onLine]

/-- **A step does not read the line.** -/
theorem perform_onLine (step : Step β) (st : Station β) :
    (st.onLine line).perform step = ((st.perform step).1, (st.perform step).2.onLine line) := by
  cases step with
  | engine op =>
      have hop := System.perform_onLine line st.system op
      simp only [perform, onLine, hop]
  | clearEvents => rfl
  | storeRam address bytes =>
      have hram : (st.onLine line).system.engine.ram = st.system.engine.ram := rfl
      simp only [perform, hram]
      split <;> rfl
  | attach memory => rfl
  | host action => rfl
  | tick budget =>
      have htick := tick_onLine line budget st
      simp only [perform, htick]

/-- **A session does not read the line.** -/
theorem run_onLine (steps : List (Step β)) (st : Station β) :
    (st.onLine line).run steps = ((st.run steps).1, (st.run steps).2.onLine line) := by
  induction steps generalizing st with
  | nil => rfl
  | cons step rest ih => rw [run_cons, run_cons, perform_onLine, ih]

end Station

/-! ### What a full reset leaves -/

namespace Engine

/-- The descriptor RAM has the place and the size that the settings say. -/
def RamAsBuilt (e : Engine) : Prop :=
  e.ram.shape = (e.settings.ramBase.toUInt64, .dense e.settings.ramSize.toUInt64)

/-- **A full reset leaves the engine as it is built.** -/
theorem reset_eq_fresh {e : Engine} (h : e.RamAsBuilt) :
    e.reset = .fresh e.settings e.clock (e.interrupt.drive false) := by
  have hram : e.ram.clear = (fresh e.settings e.clock e.interrupt).ram :=
    Aperture.clear_eq_of_shape (b := (fresh e.settings e.clock e.interrupt).ram) h
  unfold reset
  rw [hram]
  rfl

end Engine

/-! ### The line between steps -/

/-- A frame that passes does not leave the line high. -/
theorem StampTally.endsLow_foldl {t : StampTally} (h : t.line.EndsLow) (passages : List Passage) :
    (passages.foldl pass t).line.EndsLow := by
  induction passages generalizing t with
  | nil => exact h
  | cons p rest ih =>
      refine ih ?_
      unfold pass
      split
      · exact InterruptLine.endsLow_pulse _
      · rw [line_count]
        exact h

namespace System

variable {s : System}

theorem endsLow_drain (h : s.engine.interrupt.EndsLow) : s.drain.2.engine.interrupt.EndsLow := by
  have hfold := StampTally.endsLow_foldl (t := s.engine.stampTally) h s.receipts
  rw [← stampTally_drain] at hfold
  exact hfold

theorem endsLow_transmit (h : s.engine.interrupt.EndsLow) (channel : ChannelId) :
    (s.transmit channel).2.engine.interrupt.EndsLow := by
  have hfold := StampTally.endsLow_foldl (t := s.engine.stampTally) h
    (s.departure channel (s.engine.channels.transmitChannel channel).head)
  rw [← stampTally_transmit] at hfold
  exact hfold

/-- **No action leaves the line high.** -/
theorem endsLow_act (h : s.engine.interrupt.EndsLow) (action : Action) :
    (s.act action).engine.interrupt.EndsLow := by
  cases action with
  | drain => exact endsLow_drain h
  | store register value =>
      cases register with
      | dmaReset =>
          simp only [act, store]
          split <;> exact h
      | transmitHead channel =>
          simp only [act, store]
          split
          · exact h
          · exact endsLow_transmit (s := s.mapEngine (·.setTransmitHead channel value)) h channel
      | receiveHead channel =>
          exact endsLow_drain (s := s.mapEngine (·.armReceive channel value)) h
      | receiveControl =>
          simp only [act, store]
          split
          · exact h
          · exact endsLow_drain (s := s.mapEngine (·.controlReceive value)) h
      | eventPop =>
          simp only [act, store]
          split <;> exact h
      | _ => exact h
  | arrive frame =>
      show (s.receive frame).2.engine.interrupt.EndsLow
      rcases s.receive_cases frame with hrefused | htaken
      · rw [hrefused]
        exact h
      · rw [htaken]
        exact endsLow_drain (s := s.mapEngine fun e => (e.offer frame).2) h
  | reset => exact InterruptLine.endsLow_drive_false _
  | storeRam offset bytes =>
      simp only [act, mapEngine, Engine.storeRam]
      split <;> exact h
  | writeMemory address bytes =>
      simp only [act, writeMemory]
      split <;> exact h
  | _ => exact h

end System

namespace Station

variable {β : Type} [Backend β]

/-- **The line is low between steps.** -/
theorem endsLow_run {st : Station β} (h : st.system.engine.interrupt.EndsLow)
    (steps : List (Step β)) : (st.run steps).2.system.engine.interrupt.EndsLow :=
  run_induction (P := fun s => s.engine.interrupt.EndsLow)
    (fun _ action _ h => System.endsLow_act h action) (fun _ h => h) (fun _ _ _ _ _ h => h)
    (fun _ _ _ h => h) h

/-- A station whose engine is connected to another line. -/
def withLine (st : Station β) (line : InterruptLine) : Station β :=
  { st with system := st.system.mapEngine fun e => { e with interrupt := line } }

/-- A new engine behaves on every line as on one that has never been driven. -/
theorem run_fresh (settings : AcceptedSettings) (clock : Clock) (memory : Memory) (link : β)
    (steps : List (Step β)) (line : InterruptLine) :
    let bare := run ⟨⟨.fresh settings clock {}, memory⟩, link⟩ steps
    run ⟨⟨.fresh settings clock line, memory⟩, link⟩ steps =
      (bare.1, bare.2.withLine (line.driveAll bare.2.system.engine.interrupt.edges)) :=
  run_onLine line steps ⟨⟨.fresh settings clock {}, memory⟩, link⟩

/-- **After a full reset, an engine is like a new one.**  In any session on a new engine, whatever
its settings, clock, line, memory and backend, let the engine be reset as a whole.  Then let any
session follow, on it and on a new engine with the same settings, the clock as it is by then, the same
memory and backend, and any line.

The replies of the two are the same.  The two lines are driven to the same levels, and apart from that
the stations end in the same state.  The reset itself drives the line low once, and completes no
pulse, unless the line had been left high before the engine was connected to it. -/
theorem full_reset_is_fresh (settings : AcceptedSettings) (clock : Clock)
    (interrupt : InterruptLine) (memory : Memory) (link : β) (before after : List (Step β))
    (line : InterruptLine) :
    let st := (run ⟨⟨.fresh settings clock interrupt, memory⟩, link⟩ before).2
    let e := st.system.engine
    let reset := (st.perform (.engine .reset)).2
    let new : Station β := ⟨⟨.fresh settings e.clock line, st.system.memory⟩, st.link⟩
    (∃ levels,
      (reset.run after).1 = (new.run after).1 ∧
      (new.run after).2.system.engine.interrupt = line.driveAll levels ∧
      (reset.run after).2 =
        (new.run after).2.withLine ((e.interrupt.drive false).driveAll levels)) ∧
    reset.system.engine.interrupt.edges = e.interrupt.edges ++ [false] ∧
    (interrupt.EndsLow → reset.system.engine.interrupt.pulses = e.interrupt.pulses) := by
  intro st e reset new
  have hsettings : e.settings = settings := settings_run _ before
  have hram : e.RamAsBuilt := by
    have hshape : e.ram.shape = _ := shape_run _ before
    rw [Engine.RamAsBuilt, hshape, hsettings]
    rfl
  have hreset : reset =
      ⟨⟨.fresh settings e.clock (e.interrupt.drive false), st.system.memory⟩, st.link⟩ := by
    rw [← hsettings, ← Engine.reset_eq_fresh hram]
    rfl
  refine ⟨?_, rfl, fun hlow => ?_⟩
  · have hold := run_fresh settings e.clock st.system.memory st.link after
      (e.interrupt.drive false)
    have hnew := run_fresh settings e.clock st.system.memory st.link after line
    rw [← hreset] at hold
    refine ⟨_, ?_, congrArg (fun last => last.2.system.engine.interrupt) hnew, ?_⟩
    · exact (congrArg Prod.fst hold).trans (congrArg Prod.fst hnew).symm
    · show (reset.run after).2 = (new.run after).2.withLine _
      rw [hold, hnew]
      rfl
  · have hquiet : e.interrupt.EndsLow := endsLow_run hlow before
    exact hquiet.pulses_drive_false

/-- A frame of the precision time protocol is stamped before and behind a full reset: behind it, the
new engine answers with the same words, and its line is raised once. -/
theorem stamps_before_and_behind_a_reset :
    let settings : AcceptedSettings := ⟨{ ramSize := 64 }, by decide⟩
    let frame : Frame := [0, 0, 0, 0, 0, 0, 0, 0, 0, 0, 0, 0, 0x88, 0xF7, 0x3B]
    let steps : List (Step Link) := [.engine (.writeRegister 0xC28 1),
      .engine (.writeRegister 0x814 1), .storeRam 0x4848600C [0, 0, 0, 0x20],
      .storeRam 0x48486008 [64, 0, 0, 0], .engine (.writeRegister 0xA20 0x48486000),
      .engine (.receive { bytes := frame }), .tick {}]
    let st := (run ⟨⟨.fresh settings {} {}, .dense (Dense.ofSize 64)⟩, Link.detached⟩ steps).2
    let reset := (st.perform (.engine .reset)).2
    let new : Station := ⟨⟨.fresh settings st.system.engine.clock {}, st.system.memory⟩, st.link⟩
    InterruptLine.EndsLow {} ∧
    reset.system.engine.interrupt.pulses = st.system.engine.interrupt.pulses ∧
    (reset.run steps).1 = (new.run steps).1 ∧
    (new.run steps).2.system.engine.interrupt.edges = [true, false] ∧
    (reset.run steps).2.system.engine.interrupt.edges = [true, false, false, true, false] := by
  intro settings frame steps st reset new
  have hlow : InterruptLine.EndsLow {} := by decide
  obtain ⟨⟨levels, hreplies, -, -⟩, -, hpulses⟩ :=
    full_reset_is_fresh settings {} {} (.dense (Dense.ofSize 64)) Link.detached steps steps {}
  exact ⟨hlow, hpulses hlow, hreplies, by decide +kernel, by decide +kernel⟩

end Station

end PacketDma
