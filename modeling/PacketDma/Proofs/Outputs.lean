/-
**What has left the engine.**

Frames leave the engine through its egress queue, and its interrupt line is driven.  On the way of a
frame that arrives neither is read: whatever stands in the egress queue, and whatever the line has
been driven to, the same frames are placed and the same levels follow.

Main definitions:

* `PacketDma.OutputMap` — a change of what has left an engine;
* `PacketDma.Engine.mapOutputs`, `PacketDma.System.mapOutputs` — an engine, and a system, after such
  a change.

Main results:

* `PacketDma.System.fill_mapOutputs`, `PacketDma.System.drain_mapOutputs`,
  `PacketDma.System.receive_mapOutputs` — **what has left the engine has no influence on the frames
  that arrive**.
-/

import PacketDma.Proofs.Drain

set_option autoImplicit false

namespace PacketDma

/-- A change of what has left an engine.  A level that the line is driven to later comes behind the
change. -/
structure OutputMap where
  egress : List Frame → List Frame
  interrupt : InterruptLine → InterruptLine
  interrupt_drive : ∀ line level, interrupt (line.drive level) = (interrupt line).drive level

/-- An engine after a change of what has left it. -/
def Engine.mapOutputs (e : Engine) (f : OutputMap) : Engine :=
  { e with egress := f.egress e.egress, interrupt := f.interrupt e.interrupt }

/-- A system after a change of what has left its engine. -/
def System.mapOutputs (s : System) (f : OutputMap) : System := s.mapEngine (·.mapOutputs f)

/-- A pulse comes behind the change. -/
theorem OutputMap.interrupt_pulse (f : OutputMap) (line : InterruptLine) :
    f.interrupt line.pulse = (f.interrupt line).pulse := by
  unfold InterruptLine.pulse
  rw [f.interrupt_drive, f.interrupt_drive]

variable (f : OutputMap)

namespace Engine

variable (e : Engine)

theorem stamp_mapOutputs (metadata : EventMetadata) :
    (e.mapOutputs f).stamp metadata = (e.stamp metadata).mapOutputs f := by
  simp only [stamp, mapOutputs, f.interrupt_pulse]

theorem stampFrame_mapOutputs (frameClass : FrameClass) (port : UInt8) (kind : EventKind)
    (frame : Frame) :
    (e.mapOutputs f).stampFrame frameClass port kind frame =
      (e.stampFrame frameClass port kind frame).mapOutputs f := by
  have hstamps : (e.mapOutputs f).stampsEnabled = e.stampsEnabled := rfl
  unfold stampFrame
  rw [hstamps]
  split
  · exact stamp_mapOutputs f e _
  · rfl

theorem countReceived_mapOutputs (frameClass : FrameClass) (frame : Frame) :
    (e.mapOutputs f).countReceived frameClass frame =
      (e.countReceived frameClass frame).mapOutputs f :=
  stampFrame_mapOutputs f { e with stats := { e.stats with received := e.stats.received + 1 } }
    frameClass receivePort .received frame

theorem countFailure_mapOutputs (channel : ChannelId) (fault : DmaFault) :
    (e.mapOutputs f).countFailure channel fault = (e.countFailure channel fault).mapOutputs f := by
  cases fault <;> rfl

end Engine

namespace System

variable (s : System)

/-- What has left the engine has no influence on how a plan is carried out. -/
theorem commit_mapOutputs (channel : ChannelId) (frame : InboundFrame) (plan : FillPlan) :
    (s.mapOutputs f).commit channel frame plan =
      ((s.commit channel frame plan).1, (s.commit channel frame plan).2.mapOutputs f) := by
  unfold commit mapOutputs
  simp only [engine_mapEngine, memory_mapEngine, Engine.mapOutputs]
  split
  · rfl
  · split <;> rfl

/-- **What has left the engine has no influence on a fill.** -/
theorem fill_mapOutputs (frame : InboundFrame) :
    (s.mapOutputs f).fill frame = ((s.fill frame).1, (s.fill frame).2.mapOutputs f) := by
  have hplan : (s.mapOutputs f).engine.plan (s.mapOutputs f).memory (s.engine.channelOf frame)
        frame.bytes.length =
      s.engine.plan s.memory (s.engine.channelOf frame) frame.bytes.length := rfl
  cases h : s.engine.plan s.memory (s.engine.channelOf frame) frame.bytes.length with
  | error fault =>
      rw [fill_of_error h, fill_of_error (hplan.trans h)]
      refine congrArg (Prod.mk (some fault)) ?_
      exact congrArg (System.mk · s.memory) (Engine.countFailure_mapOutputs ..)
  | ok plan =>
      obtain ⟨memory, ram, -, hcommit⟩ := exists_commit h
      have hcommit' := commit_mapOutputs f s (s.engine.channelOf frame) frame plan
      rw [hcommit] at hcommit'
      rw [fill_of_commit h hcommit, fill_of_commit (hplan.trans h) hcommit']
      refine congrArg (Prod.mk none) ?_
      exact congrArg (System.mk · memory) (Engine.countReceived_mapOutputs ..)

theorem drainFrames_mapOutputs (frames : List InboundFrame) :
    drainFrames frames (s.mapOutputs f) =
      ((drainFrames frames s).1, (drainFrames frames s).2.mapOutputs f) := by
  induction frames generalizing s with
  | nil => rfl
  | cons frame rest ih =>
      have hready : (s.mapOutputs f).engine.ready frame = s.engine.ready frame := rfl
      by_cases h : s.engine.ready frame = true
      · have hfill := fill_mapOutputs f (s.mapEngine (·.setWaiting rest)) frame
        have hwaiting : (s.mapOutputs f).mapEngine (·.setWaiting rest) =
            (s.mapEngine (·.setWaiting rest)).mapOutputs f := rfl
        simp only [drainFrames, hready, h, if_true, hwaiting, hfill, ih]
      · have hidle : s.engine.ready frame = false := Bool.not_eq_true _ ▸ h
        rw [drainFrames_of_not_ready (hready.trans hidle), drainFrames_of_not_ready hidle]

/-- **What has left the engine has no influence on a drain.** -/
theorem drain_mapOutputs : (s.mapOutputs f).drain = (s.drain.1, s.drain.2.mapOutputs f) := by
  have henabled : (s.mapOutputs f).engine.receiveEnabled = s.engine.receiveEnabled := rfl
  have hframes : (s.mapOutputs f).engine.intake.frames = s.engine.intake.frames := rfl
  unfold drain
  rw [henabled, hframes]
  split
  · exact drainFrames_mapOutputs f s _
  · rfl

/-- **What has left the engine has no influence on a frame that arrives.** -/
theorem receive_mapOutputs (frame : InboundFrame) :
    (s.mapOutputs f).receive frame = ((s.receive frame).1, (s.receive frame).2.mapOutputs f) := by
  have hrefusal : (s.mapOutputs f).engine.intake.refusal?
      (s.mapOutputs f).engine.settings.pendingLimit frame =
    s.engine.intake.refusal? s.engine.settings.pendingLimit frame := rfl
  cases h : s.engine.intake.refusal? s.engine.settings.pendingLimit frame with
  | some fault =>
      simp only [receive, Engine.offer_of_refusal h, Engine.offer_of_refusal (hrefusal.trans h)]
      rfl
  | none =>
      simp only [receive, Engine.offer_of_none h, Engine.offer_of_none (hrefusal.trans h)]
      exact drain_mapOutputs f
        (s.mapEngine (·.setWaiting (s.engine.intake.frames ++ [frame])))

end System

end PacketDma
