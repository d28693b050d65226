/-
**A frame that arrives.**

A frame that arrives goes behind all waiting frames.  When those have left the queue, the frame is
placed as if it had been alone: what waits behind a frame has no influence on how it is placed.

Main definitions:

* `PacketDma.System.Delivers` — a frame that arrives is placed by a plan.

Main results:

* `PacketDma.System.fill_setWaiting` — the waiting frames have no influence on a fill;
* `PacketDma.System.drainFrames_append` — frames are drained in pieces;
* `PacketDma.System.receive_of_delivers` — what the arrival of a frame does.
-/

import PacketDma.Proofs.FillEffect

set_option autoImplicit false

namespace PacketDma

theorem Engine.stampFrame_setWaiting (e : Engine) (waiting : List InboundFrame)
    (frameClass : FrameClass) (port : UInt8) (kind : EventKind) (frame : Frame) :
    (e.setWaiting waiting).stampFrame frameClass port kind frame =
      (e.stampFrame frameClass port kind frame).setWaiting waiting := by
  have hstamps : (e.setWaiting waiting).stampsEnabled = e.stampsEnabled := rfl
  unfold stampFrame
  rw [hstamps]
  split <;> rfl

theorem Engine.countReceived_setWaiting (e : Engine) (waiting : List InboundFrame)
    (frameClass : FrameClass) (frame : Frame) :
    (e.setWaiting waiting).countReceived frameClass frame =
      (e.countReceived frameClass frame).setWaiting waiting :=
  stampFrame_setWaiting { e with stats := { e.stats with received := e.stats.received + 1 } }
    waiting frameClass receivePort .received frame

namespace System

variable {s : System} {frame : InboundFrame} {plan : FillPlan}

/-- The waiting frames have no influence on how a plan is carried out. -/
theorem commit_setWaiting (s : System) (waiting : List InboundFrame) (channel : ChannelId)
    (frame : InboundFrame) (plan : FillPlan) :
    (s.mapEngine (·.setWaiting waiting)).commit channel frame plan =
      ((s.commit channel frame plan).1,
        (s.commit channel frame plan).2.mapEngine (·.setWaiting waiting)) := by
  unfold commit
  simp only [engine_mapEngine, memory_mapEngine, Engine.setWaiting]
  split
  · rfl
  · split <;> rfl

/-- **The waiting frames have no influence on a fill.** -/
theorem fill_setWaiting (s : System) (waiting : List InboundFrame) (frame : InboundFrame) :
    (s.mapEngine (·.setWaiting waiting)).fill frame =
      ((s.fill frame).1, (s.fill frame).2.mapEngine (·.setWaiting waiting)) := by
  have hplan : (s.mapEngine (·.setWaiting waiting)).engine.plan
      (s.mapEngine (·.setWaiting waiting)).memory (s.engine.channelOf frame)
        frame.bytes.length =
      s.engine.plan s.memory (s.engine.channelOf frame) frame.bytes.length := rfl
  cases h : s.engine.plan s.memory (s.engine.channelOf frame) frame.bytes.length with
  | error fault =>
      rw [fill_of_error h, fill_of_error (hplan.trans h)]
      cases fault <;> rfl
  | ok plan =>
      obtain ⟨memory, ram, -, hcommit⟩ := exists_commit h
      have hcommit' := commit_setWaiting s waiting (s.engine.channelOf frame) frame plan
      rw [hcommit] at hcommit'
      rw [fill_of_commit h hcommit, fill_of_commit (hplan.trans h) hcommit']
      refine congrArg (Prod.mk none) ?_
      exact congrArg (System.mk · memory) (Engine.countReceived_setWaiting ..)

/-! ### Draining in pieces -/

theorem intake_fill (s : System) (frame : InboundFrame) :
    (s.fill frame).2.engine.intake = s.engine.intake := by
  rcases fill_cases s frame with
    ⟨_, _, _, -, hfill, -⟩ | ⟨_, _, _, _, _, _, _, _, -, -, hfill, -⟩ <;>
  rw [hfill]
  rfl

theorem setWaiting_self {waiting : List InboundFrame}
    (h : s.engine.intake.frames = waiting) : s.mapEngine (·.setWaiting waiting) = s := by
  subst h
  rfl

theorem drainFrames_of_ready (h : s.engine.ready frame = true) (rest : List InboundFrame) :
    drainFrames (frame :: rest) s =
      let later := drainFrames rest ((s.fill frame).2.mapEngine (·.setWaiting rest))
      ((s.fill frame).1 <|> later.1, later.2) := by
  rw [drainFrames, if_pos h, fill_setWaiting]

/-- **Frames are drained in pieces**: when the first of them leave the queue, the others are drained
behind them. -/
theorem drainFrames_append (first second : List InboundFrame) (s : System)
    (hempty : (drainFrames first (s.mapEngine (·.setWaiting first))).2.engine.intake.frames = []) :
    drainFrames (first ++ second) (s.mapEngine (·.setWaiting (first ++ second))) =
      let drained := drainFrames first (s.mapEngine (·.setWaiting first))
      let later := drainFrames second (drained.2.mapEngine (·.setWaiting second))
      (drained.1 <|> later.1, later.2) := by
  induction first generalizing s with
  | nil => simp [mapEngine, Engine.setWaiting]
  | cons frame rest ih =>
      have hready : ∀ waiting, (s.mapEngine (·.setWaiting waiting)).engine.ready frame =
          s.engine.ready frame := fun _ => rfl
      by_cases h : s.engine.ready frame = true
      · -- the fill of the first frame does not see what waits behind it
        rw [drainFrames_of_ready ((hready _).trans h), fill_setWaiting] at hempty ⊢
        rw [List.cons_append, drainFrames_of_ready ((hready _).trans h), fill_setWaiting]
        have hrest := ih (s.fill frame).2 hempty
        have hfirst := congrArg (fun later => ((s.fill frame).1 <|> later.1, later.2)) hrest
        refine Eq.trans hfirst (Prod.ext ?_ rfl)
        cases (s.fill frame).1 <;> rfl
      · rw [drainFrames_of_not_ready ((hready _).trans (by simpa using h))] at hempty
        cases hempty

/-! ### The arrival of a frame -/

/-- A frame that arrives is taken, all frames before it leave the queue, and it is placed by a
plan. -/
structure Delivers (s : System) (frame : InboundFrame) (plan : FillPlan) : Prop where
  accepted : s.engine.intake.refusal? s.engine.settings.pendingLimit frame = none
  enabled : s.engine.receiveEnabled = true
  drained : s.drain.2.engine.intake.frames = []
  ready : s.drain.2.engine.ready frame = true
  planned : s.drain.2.engine.plan s.drain.2.memory (s.drain.2.engine.channelOf frame)
    frame.bytes.length = .ok plan

theorem drain_of_enabled (h : s.engine.receiveEnabled = true) :
    s.drain = drainFrames s.engine.intake.frames s := by
  rw [drain, if_pos h]

/-- **What the arrival of a frame does** once the frames before it have left the queue. -/
theorem receive_of_drained
    (haccepted : s.engine.intake.refusal? s.engine.settings.pendingLimit frame = none)
    (henabled : s.engine.receiveEnabled = true)
    (hdrained : s.drain.2.engine.intake.frames = [])
    (hready : s.drain.2.engine.ready frame = true) :
    s.receive frame =
      (s.drain.1 <|> (s.drain.2.fill frame).1, (s.drain.2.fill frame).2) := by
  have hdrain := drain_of_enabled henabled
  have hself := setWaiting_self (s := s) rfl
  have happend := drainFrames_append s.engine.intake.frames [frame] s
    (by rw [hself, ← hdrain, hdrained])
  rw [hself, ← hdrain] at happend
  -- behind the waiting frames, the new one is placed as if it were alone
  have hlast : drainFrames [frame] (s.drain.2.mapEngine (·.setWaiting [frame])) =
      s.drain.2.fill frame := by
    have hready' : (s.drain.2.mapEngine (·.setWaiting [frame])).engine.ready frame = true := hready
    rw [drainFrames_of_ready hready', fill_setWaiting]
    have hempty := (congrArg Intake.frames (intake_fill s.drain.2 frame)).trans hdrained
    refine Prod.ext ?_ (setWaiting_self hempty)
    cases (s.drain.2.fill frame).1 <;> rfl
  dsimp only at happend
  rw [hlast] at happend
  have henabled' : (s.mapEngine (·.setWaiting
      (s.engine.intake.frames ++ [frame]))).engine.receiveEnabled = true := henabled
  rw [receive, Engine.offer_of_none haccepted]
  exact (drain_of_enabled henabled').trans happend

namespace Delivers

/-- What the delivery of a frame leaves behind. -/
theorem exists_receive (h : s.Delivers frame plan) :
    ∃ memory ram, s.drain.2.Placed frame plan memory ram ∧
      s.receive frame =
        (s.drain.1,
          { engine := ({ s.drain.2.engine with ram }.advance (s.drain.2.engine.channelOf frame)
              plan).countReceived (s.drain.2.engine.classOf frame) frame.bytes
            memory }) := by
  obtain ⟨memory, ram, hplaced, hfill⟩ := exists_fill_of_plan h.planned
  refine ⟨memory, ram, hplaced, ?_⟩
  rw [receive_of_drained h.accepted h.enabled h.drained h.ready, hfill]
  cases s.drain.1 <;> rfl

/-- The frame has a length that a descriptor can say. -/
theorem length_bounds (h : s.Delivers frame plan) :
    0 < frame.bytes.length ∧ frame.bytes.length ≤ maxPacketLength :=
  let bounds := (Intake.refusal?_eq_none_iff ..).1 h.accepted
  ⟨bounds.2.1, bounds.2.2.1⟩

end Delivers

end System

end PacketDma
