/-
**Batches of frames.**

Frames may be queued first and placed together later, or they may be placed one by one as they
arrive.  It makes no difference: what waits behind a frame has no influence on how it is placed, and
a frame that is held up by an idle channel is held up in either case.  So only the order of the
frames counts.

Main definitions:

* `PacketDma.System.drainQueue` — a drain of a given queue.

Main results:

* `PacketDma.System.drainQueue_append` — **a queue is drained in pieces**;
* `PacketDma.System.run_deliver`, `PacketDma.System.run_receive` — what queueing frames, and what
  placing them one by one, comes to;
* `PacketDma.System.queued_as_received` — **when a frame is queued does not matter**.
-/

import PacketDma.Proofs.Reachable

set_option autoImplicit false

namespace PacketDma

namespace System

variable {s : System} {frame : InboundFrame}

/-! ### Draining a queue in pieces -/

/-- The system after a drain when the given frames wait. -/
def drainQueue (s : System) (frames : List InboundFrame) : System :=
  (drainFrames frames (s.mapEngine (·.setWaiting frames))).2

theorem drain_eq_drainQueue (h : s.engine.receiveEnabled = true) :
    s.drain.2 = s.drainQueue s.engine.intake.frames := by
  rw [drain_of_enabled h, drainQueue, setWaiting_self rfl]

/-- The frames that wait at the time have no influence. -/
theorem drainQueue_setWaiting (s : System) (waiting frames : List InboundFrame) :
    (s.mapEngine (·.setWaiting waiting)).drainQueue frames = s.drainQueue frames := rfl

theorem drainQueue_of_ready (h : s.engine.ready frame = true) (rest : List InboundFrame) :
    s.drainQueue (frame :: rest) = (s.fill frame).2.drainQueue rest := by
  have hready : (s.mapEngine (·.setWaiting (frame :: rest))).engine.ready frame = true := h
  rw [drainQueue, drainFrames_of_ready hready, fill_setWaiting]
  rfl

theorem drainQueue_of_not_ready (h : s.engine.ready frame = false) (rest : List InboundFrame) :
    s.drainQueue (frame :: rest) = s.mapEngine (·.setWaiting (frame :: rest)) := by
  have hready : (s.mapEngine (·.setWaiting (frame :: rest))).engine.ready frame = false := h
  rw [drainQueue, drainFrames_of_not_ready hready]

/-- **A queue is drained in pieces**: what the drain of its first part leaves waiting goes before
the second part. -/
theorem drainQueue_append (s : System) (first second : List InboundFrame) :
    s.drainQueue (first ++ second) =
      (s.drainQueue first).drainQueue ((s.drainQueue first).engine.intake.frames ++ second) := by
  induction first generalizing s with
  | nil => rfl
  | cons frame rest ih =>
      by_cases hready : s.engine.ready frame = true
      · rw [List.cons_append, drainQueue_of_ready hready, drainQueue_of_ready hready]
        exact ih (s.fill frame).2
      · -- the first frame holds up all others, before and after
        have hidle : s.engine.ready frame = false := Bool.not_eq_true _ ▸ hready
        rw [drainQueue_of_not_ready hidle, drainQueue_setWaiting]
        rfl

/-- What a drain leaves waiting stays when it is drained again. -/
theorem drainQueue_drainQueue (s : System) (frames : List InboundFrame) :
    (s.drainQueue frames).drainQueue (s.drainQueue frames).engine.intake.frames =
      s.drainQueue frames := by
  have happend := s.drainQueue_append frames []
  rw [List.append_nil, List.append_nil] at happend
  exact happend.symm

/-- A drain never adds to the queue. -/
theorem length_drainQueue_le (s : System) (frames : List InboundFrame) :
    (s.drainQueue frames).engine.intake.frames.length ≤ frames.length := by
  induction frames generalizing s with
  | nil => exact Nat.le_refl 0
  | cons frame rest ih =>
      by_cases hready : s.engine.ready frame = true
      · rw [drainQueue_of_ready hready]
        exact Nat.le_succ_of_le (ih _)
      · rw [drainQueue_of_not_ready (Bool.not_eq_true _ ▸ hready)]
        exact Nat.le_refl _

theorem sameRules_drainQueue (s : System) (frames : List InboundFrame) :
    s.SameRules (s.drainQueue frames) :=
  (s.sameRules_setWaiting frames).trans (sameRules_drainFrames frames _)

/-! ### Queueing frames, and placing them one by one -/

/-- Frames that a descriptor can describe arrive while receive is enabled, and there is room for all
of them in the queue. -/
structure Takes (s : System) (frames : List InboundFrame) : Prop where
  enabled : s.engine.receiveEnabled = true
  accepting : s.engine.intake.accepting = true
  lengths : ∀ frame ∈ frames, 0 < frame.bytes.length ∧ frame.bytes.length ≤ maxPacketLength
  room : s.engine.intake.frames.length + frames.length ≤ s.engine.settings.pendingLimit

namespace Takes

variable {frames : List InboundFrame}

/-- The first of the frames is taken. -/
theorem refusal_eq_none (h : s.Takes (frame :: frames)) :
    s.engine.intake.refusal? s.engine.settings.pendingLimit frame = none := by
  have hlength := h.lengths frame (List.mem_cons_self ..)
  have hroom := h.room
  rw [List.length_cons] at hroom
  exact (Intake.refusal?_eq_none_iff ..).2 ⟨h.accepting, hlength.1, hlength.2, by omega⟩

/-- Behind the first frame the others are taken, as long as it adds no more than itself to the
queue. -/
theorem tail {t : System} (h : s.Takes (frame :: frames)) (hrules : s.SameRules t)
    (hlength : t.engine.intake.frames.length ≤ s.engine.intake.frames.length + 1) :
    t.Takes frames where
  enabled := hrules.receiveEnabled_eq.trans h.enabled
  accepting := hrules.accepting.trans h.accepting
  lengths other hother := h.lengths other (List.mem_cons_of_mem _ hother)
  room := by
    have hroom := h.room
    rw [List.length_cons] at hroom
    rw [hrules.settings]
    omega

/-- A drain of the waiting frames leaves as much room as there was. -/
theorem drained (h : s.Takes frames) : (s.drainQueue s.engine.intake.frames).Takes frames := by
  have hrules := s.sameRules_drainQueue s.engine.intake.frames
  have hle := s.length_drainQueue_le s.engine.intake.frames
  refine ⟨hrules.receiveEnabled_eq.trans h.enabled, hrules.accepting.trans h.accepting, h.lengths,
    ?_⟩
  rw [hrules.settings]
  exact Nat.le_trans (Nat.add_le_add_right hle _) h.room

end Takes

/-- The delivery of a frame that is taken puts it behind the waiting ones. -/
theorem perform_deliver
    (h : s.engine.intake.refusal? s.engine.settings.pendingLimit frame = none) :
    (s.perform (.deliver frame)).2 =
      s.mapEngine (·.setWaiting (s.engine.intake.frames ++ [frame])) := by
  simp only [perform, deliver, Engine.offer_of_none h]
  rfl

/-- The arrival of a frame that is taken drains the queue with the frame at its end. -/
theorem perform_receive (henabled : s.engine.receiveEnabled = true)
    (h : s.engine.intake.refusal? s.engine.settings.pendingLimit frame = none) :
    (s.perform (.receive frame)).2 = s.drainQueue (s.engine.intake.frames ++ [frame]) := by
  simp only [perform, receive, Engine.offer_of_none h]
  exact drain_eq_drainQueue
    (s := s.mapEngine (·.setWaiting (s.engine.intake.frames ++ [frame]))) henabled

/-- **Frames that are queued** go behind the waiting ones. -/
theorem run_deliver {frames : List InboundFrame} (h : s.Takes frames) :
    (s.run (frames.map .deliver)).2 =
      s.mapEngine (·.setWaiting (s.engine.intake.frames ++ frames)) := by
  induction frames generalizing s with
  | nil =>
      rw [List.append_nil, setWaiting_self rfl]
      rfl
  | cons frame rest ih =>
      have hfirst := perform_deliver h.refusal_eq_none
      have hrest : (s.perform (.deliver frame)).2.Takes rest := by
        rw [hfirst]
        exact h.tail (s.sameRules_setWaiting _) (by simp [Engine.setWaiting])
      have hrun := ih hrest
      rw [List.map_cons, run_cons]
      refine hrun.trans ?_
      rw [hfirst]
      show s.mapEngine (·.setWaiting ((s.engine.intake.frames ++ [frame]) ++ rest)) = _
      rw [List.append_assoc]
      rfl

/-- **Frames that are placed one by one** come to the drain of the queue with all of them at its
end, when nothing in the queue could be placed before. -/
theorem run_receive {frames : List InboundFrame} (h : s.Takes frames)
    (hdrained : s.drainQueue s.engine.intake.frames = s) :
    (s.run (frames.map .receive)).2 = s.drainQueue (s.engine.intake.frames ++ frames) := by
  induction frames generalizing s with
  | nil =>
      rw [List.append_nil, hdrained]
      rfl
  | cons frame rest ih =>
      have hfirst := perform_receive h.enabled h.refusal_eq_none
      have hrest : (s.perform (.receive frame)).2.Takes rest := by
        rw [hfirst]
        refine h.tail (s.sameRules_drainQueue _) ?_
        have hle := s.length_drainQueue_le (s.engine.intake.frames ++ [frame])
        rwa [List.length_append, List.length_singleton] at hle
      have hagain : (s.perform (.receive frame)).2.drainQueue
          (s.perform (.receive frame)).2.engine.intake.frames = (s.perform (.receive frame)).2 := by
        rw [hfirst]
        exact drainQueue_drainQueue ..
      rw [List.map_cons, run_cons]
      refine (ih hrest hagain).trans ?_
      rw [hfirst, ← drainQueue_append, List.append_assoc]
      rfl

end System

/-! ### Triggers -/

namespace Operation.Drains

variable {op : Operation} {adjust : Engine → Engine}

/-- What happens before a drain has nothing to do with the waiting frames. -/
theorem setWaiting (h : op.Drains adjust) (e : Engine) (waiting : List InboundFrame) :
    adjust (e.setWaiting waiting) = (adjust e).setWaiting waiting := by
  cases h <;> rfl

/-- What happens before a drain does not keep a frame out. -/
theorem takes (h : op.Drains adjust) {s : System} {frames : List InboundFrame}
    (htakes : s.Takes frames) : (s.mapEngine adjust).Takes frames := by
  obtain ⟨henabled, haccepting, hlengths, hroom⟩ := htakes
  cases h with
  | poll => exact ⟨henabled, haccepting, hlengths, hroom⟩
  | ramRead h => exact ⟨henabled, haccepting, hlengths, hroom⟩
  | receiveHead h => exact ⟨henabled, haccepting, hlengths, hroom⟩
  | @receiveControl op value h enables =>
      -- the write sets the bit that is set already
      have hbit : (value &&& 1 != 0) = true := bne_iff_ne.2 enables
      refine ⟨?_, hbit, hlengths, hroom⟩
      show ((s.engine.registers.set .receiveControl value).get .receiveControl &&& 1 != 0) = true
      rw [RegisterFile.get_set_self]
      exact hbit

/-- What happens before a drain leaves the waiting frames alone. -/
theorem waiting_eq (h : op.Drains adjust) (e : Engine) :
    (adjust e).intake.frames = e.intake.frames := by
  cases h <;> rfl

end Operation.Drains

namespace System

variable {s : System}

/-- An operation that tries the waiting frames drains whatever queue it finds. -/
theorem perform_setWaiting_of_drains {op : Operation} {adjust : Engine → Engine}
    (h : op.Drains adjust) (henabled : (adjust s.engine).receiveEnabled = true)
    (waiting : List InboundFrame) :
    ((s.mapEngine (·.setWaiting waiting)).perform op).2 =
      (s.mapEngine adjust).drainQueue waiting := by
  have hcomm : (s.mapEngine (·.setWaiting waiting)).mapEngine adjust =
      (s.mapEngine adjust).mapEngine (·.setWaiting waiting) :=
    congrArg (System.mk · s.memory) (h.setWaiting s.engine waiting)
  have henabled' : ((s.mapEngine adjust).mapEngine (·.setWaiting waiting)).engine.receiveEnabled =
      true := henabled
  rw [perform_of_drains h, hcomm, drain_eq_drainQueue henabled', drainQueue_setWaiting]
  rfl

/-- **When a frame is queued does not matter, only its order.**  Frames that are queued on a
reachable system with receive enabled, and then placed together by an operation that tries the
waiting frames, lead to the same system as the same operation followed by the same frames placed
one by one. -/
theorem queued_as_received (hreach : s.Reachable) (henabled : s.engine.receiveEnabled = true)
    {frames : List InboundFrame}
    (hlengths : ∀ frame ∈ frames, 0 < frame.bytes.length ∧ frame.bytes.length ≤ maxPacketLength)
    (hroom : s.engine.intake.frames.length + frames.length ≤ s.engine.settings.pendingLimit)
    {op : Operation} {adjust : Engine → Engine} (hop : op.Drains adjust) :
    (s.run (frames.map .deliver ++ [op])).2 = (s.run (op :: frames.map .receive)).2 := by
  have haccepting : s.engine.intake.accepting = true := hreach.gated.trans henabled
  have htakes : s.Takes frames := ⟨henabled, haccepting, hlengths, hroom⟩
  have htakes' := hop.takes htakes
  have hwaiting : (s.mapEngine adjust).engine.intake.frames = s.engine.intake.frames :=
    hop.waiting_eq s.engine
  -- both runs come to the drain of the waiting frames and the new ones behind them
  have hbatch : (s.run (frames.map .deliver ++ [op])).2 =
      (s.mapEngine adjust).drainQueue (s.engine.intake.frames ++ frames) := by
    rw [run_append, run_cons, run_nil, run_deliver htakes]
    exact perform_setWaiting_of_drains hop htakes'.enabled _
  have hfirst : (s.perform op).2 =
      (s.mapEngine adjust).drainQueue (s.mapEngine adjust).engine.intake.frames := by
    rw [perform_of_drains hop, drain_eq_drainQueue htakes'.enabled]
  have hsingle : (s.run (op :: frames.map .receive)).2 =
      (s.mapEngine adjust).drainQueue (s.engine.intake.frames ++ frames) := by
    rw [run_cons, hfirst]
    refine (run_receive htakes'.drained (drainQueue_drainQueue ..)).trans ?_
    rw [← drainQueue_append, hwaiting]
  rw [hbatch, hsingle]

/-- A frame waits for an idle channel.  Two more frames come, and software arms a ring of one
descriptor, before them or behind them: in either case the oldest frame is placed and the others
find the ring spent. -/
theorem two_frames_before_or_behind_the_ring :
    let s := (small.run [.writeRegister 0x814 1, .deliver { bytes := [1] },
      .writeRam 0x48486000 [0, 0x100, 16, 0x20000000]]).2
    let frames : List InboundFrame := [{ bytes := [2] }, { bytes := [3] }]
    let op : Operation := .writeRegister 0xA24 0x48486000
    (s.run (frames.map .deliver ++ [op])).2 = (s.run (op :: frames.map .receive)).2 ∧
    (s.run (frames.map .deliver ++ [op])).2.memory.byteAt 0x100 = 1 ∧
    (s.run (op :: frames.map .receive)).2.engine.stats.overruns = 2 := by
  intro s frames op
  have hreach : s.Reachable := (Reachable.fresh ..).run _
  have hop : op.Drains (·.armReceive 1 0x48486000) := .receiveHead (by decide +kernel)
  refine ⟨?_, by decide +kernel, by decide +kernel⟩
  exact queued_as_received hreach (by decide +kernel) (by decide +kernel) (by decide +kernel) hop

end System

end PacketDma
