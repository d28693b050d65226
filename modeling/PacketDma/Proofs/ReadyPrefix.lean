/-
**A drain takes the frames that are ready.**

A drain asks of each frame, before it places it, whether its channel is armed, and by then it has
written memory and descriptor RAM for the frames before.  But a fill changes neither the head
pointers nor the rules by which a frame is classified, so all frames could have been asked at the
start: a drain takes the longest prefix of the queue whose frames are ready then, whatever becomes
of them, and what is left cannot be moved by trying again.

Main results:

* `PacketDma.System.map_fillsFrom` — the frames that are tried are the ready prefix;
* `PacketDma.System.frames_drainFrames` — the frames that stay are the rest;
* `PacketDma.System.drainFrames_fault_eq` — the fault is that of the first fill that fails;
* `PacketDma.System.Drained.run_eq` — **trying again changes nothing**;
* `PacketDma.System.drain_takes_ready_prefix` — a drain, whatever starts it, takes the ready prefix
  and comes to a fixed point, and so does every round of the pump.
-/

import PacketDma.Proofs.Confinement
import PacketDma.Proofs.PumpBudgets

set_option autoImplicit false

namespace PacketDma

namespace System

variable {s t : System} {frame : InboundFrame}

/-! ### The frames that are tried -/

/-- By the same rules, the same frames are ready. -/
theorem SameRules.ready_funext (h : s.SameRules t) : t.engine.ready = s.engine.ready :=
  funext h.ready_eq

/-- After a fill the same frames are ready as before. -/
theorem ready_fill (s : System) (rest : List InboundFrame) (frame : InboundFrame) :
    ((s.mapEngine (·.setWaiting rest)).fill frame).2.engine.ready = s.engine.ready :=
  ((s.sameRules_setWaiting rest).trans (sameRules_fill _ frame)).ready_funext

/-- **The frames that are tried are the ready prefix** of the queue. -/
theorem map_fillsFrom (frames : List InboundFrame) (s : System) :
    (fillsFrom frames s).map (·.2) = frames.takeWhile s.engine.ready := by
  induction frames generalizing s with
  | nil => rfl
  | cons frame rest ih =>
      cases hready : s.engine.ready frame with
      | true =>
          rw [fillsFrom_of_ready hready, List.map_cons, ih, ready_fill,
            List.takeWhile_cons_of_pos hready]
      | false =>
          rw [fillsFrom_of_not_ready hready, List.takeWhile_cons_of_neg (by simp [hready])]
          rfl

/-- **The frames that stay are the rest** of the queue, in their order. -/
theorem frames_drainFrames {frames : List InboundFrame} {s : System}
    (hframes : s.engine.intake.frames = frames) :
    (drainFrames frames s).2.engine.intake.frames = frames.dropWhile s.engine.ready := by
  induction frames generalizing s with
  | nil => exact hframes
  | cons frame rest ih =>
      cases hready : s.engine.ready frame with
      | true =>
          have hrest : ((s.mapEngine (·.setWaiting rest)).fill frame).2.engine.intake.frames =
              rest := congrArg Intake.frames (intake_fill _ frame)
          rw [drainFrames_cons hready, ih hrest, ready_fill, List.dropWhile_cons_of_pos hready]
      | false =>
          rw [drainFrames_of_not_ready hready, hframes,
            List.dropWhile_cons_of_neg (by simp [hready])]

/-- **The fault is that of the first fill that fails.** -/
theorem drainFrames_fault_eq (frames : List InboundFrame) (s : System) :
    (drainFrames frames s).1 = (fillsFrom frames s).findSome? fun f => (f.1.fill f.2).1 := by
  induction frames generalizing s with
  | nil => rfl
  | cons frame rest ih =>
      cases hready : s.engine.ready frame with
      | true =>
          have hstep : (drainFrames (frame :: rest) s).1 =
              (((s.mapEngine (·.setWaiting rest)).fill frame).1 <|>
                (drainFrames rest ((s.mapEngine (·.setWaiting rest)).fill frame).2).1) := by
            rw [drainFrames, if_pos hready]
          rw [hstep, ih, fillsFrom_of_ready hready, List.findSome?_cons]
          cases ((s.mapEngine (·.setWaiting rest)).fill frame).1 <;> rfl
      | false => rw [drainFrames_of_not_ready hready, fillsFrom_of_not_ready hready]; rfl

/-! ### Trying again -/

namespace Drained

variable (h : s.Drained)

include h

/-- A poll places nothing where the waiting frames have been tried. -/
theorem poll_eq : s.poll = (0, s) := by
  rw [poll, h.drain_eq, Nat.sub_self]

/-- A poll, or a read of descriptor RAM, changes nothing where the waiting frames have been tried. -/
theorem perform_eq {op : Operation} (hop : op = .poll ∨ op.readsRam = true) :
    (s.perform op).2 = s := by
  rcases hop with rfl | hread
  · rw [perform, h.poll_eq]
  · rw [perform_of_readsRam hread, h.drain_eq]

/-- **Trying again changes nothing**, however often. -/
theorem run_eq {ops : List Operation} (hops : ∀ op ∈ ops, op = .poll ∨ op.readsRam = true) :
    (s.run ops).2 = s := by
  induction ops with
  | nil => rfl
  | cons op rest ih =>
      rw [run_cons, h.perform_eq (hops op (List.mem_cons_self ..))]
      exact ih fun other hother => hops other (List.mem_cons_of_mem _ hother)

end Drained

/-! ### Drains, whatever starts them -/

/-- The arrival of a frame, and the write of a register, answer with the fault of the drain that
they start. -/
theorem StartsDrain.outcome_eq {op : Operation} (h : s.StartsDrain op t) :
    (∀ frame, op = .receive frame → (s.perform op).1 = .outcome t.drain.1) ∧
      ∀ offset value, op = .writeRegister offset value →
        (s.perform op).1 = .outcome t.drain.1 := by
  cases h with
  | arrival hoffer =>
      refine ⟨?_, fun offset value heq => Operation.noConfusion heq⟩
      intro frame heq
      simp only [perform, receive, hoffer]
  | trigger hdrains =>
      cases hdrains with
      | poll =>
          exact ⟨fun frame heq => Operation.noConfusion heq,
            fun offset value heq => Operation.noConfusion heq⟩
      | ramRead hread =>
          constructor
          · rintro frame rfl
            cases hread
          · rintro offset value rfl
            cases hread
      | receiveHead hwrite =>
          constructor
          · rintro frame rfl
            cases hwrite
          · rintro offset value rfl
            obtain ⟨register, hdecode, heq⟩ := Option.map_eq_some_iff.1 hwrite
            cases heq
            simp only [perform, writeRegister, hdecode]
            rfl
      | receiveControl hwrite enables =>
          constructor
          · rintro frame rfl
            cases hwrite
          · rintro offset value rfl
            obtain ⟨register, hdecode, heq⟩ := Option.map_eq_some_iff.1 hwrite
            cases heq
            simp only [perform, writeRegister, hdecode, store, if_neg enables]

/-- **A drain takes the ready prefix and comes to a fixed point.**  Whatever starts a drain while
receive is enabled, it tries the longest prefix of the queue whose frames go to armed channels, as
the engine stands when the drain starts, whether or not they can be placed; the rest stays, and the
fault is that of the first fill that fails.  Afterwards the queue is empty or its oldest frame goes
to an idle channel, and no number of polls and reads of descriptor RAM changes anything.  So a
round of the pump, over whatever backend, could go without its last poll. -/
theorem drain_takes_ready_prefix :
    (∀ (s t : System) (op : Operation), s.StartsDrain op t → t.engine.receiveEnabled = true →
      t.fills.map (·.2) = t.engine.intake.frames.takeWhile t.engine.ready ∧
      (s.perform op).2.engine.intake.frames =
        t.engine.intake.frames.dropWhile t.engine.ready ∧
      t.drain.1 = t.fills.findSome? (fun f => (f.1.fill f.2).1) ∧
      (∀ frame, op = .receive frame → (s.perform op).1 = .outcome t.drain.1) ∧
      (∀ offset value, op = .writeRegister offset value →
        (s.perform op).1 = .outcome t.drain.1) ∧
      (∀ oldest rest, (s.perform op).2.engine.intake.frames = oldest :: rest →
        (s.perform op).2.engine.ready oldest = false) ∧
      (s.perform op).2.poll = (0, (s.perform op).2) ∧
      ∀ ops : List Operation, (∀ o ∈ ops, o = .poll ∨ o.readsRam = true) →
        ((s.perform op).2.run ops).2 = (s.perform op).2) ∧
    ∀ (β : Type) [Backend β] (st : Station β) (budget : PumpBudget),
      let sent := st.retry.send budget.transmit
      let fetched := sent.2.fetch budget.receive
      fetched.2.system.poll = (0, fetched.2.system) ∧
        st.tick budget = (⟨sent.1, fetched.1⟩, fetched.2) := by
  refine ⟨?_, ?_⟩
  · intro s t op hstarts henabled
    have hdrained := drained_drain t
    have hafter : t.drain.2.engine.receiveEnabled = true :=
      (sameRules_drain t).receiveEnabled_eq.trans henabled
    obtain ⟨harrival, hwrite⟩ := hstarts.outcome_eq
    rw [hstarts.perform_eq, fills, if_pos henabled]
    refine ⟨map_fillsFrom .., ?_, ?_, harrival, hwrite, hdrained hafter, hdrained.poll_eq, ?_⟩
    · rw [drain_of_enabled henabled]
      exact frames_drainFrames rfl
    · rw [drain_of_enabled henabled]
      exact drainFrames_fault_eq ..
    · intro ops hops
      exact hdrained.run_eq hops
  · intro β _ st budget sent fetched
    have hsent : sent.2.system.Drained := Station.drained_send (Station.drained_retry st) _
    have hfetched : fetched.2.system.Drained := Station.drained_fetch hsent _
    exact ⟨hfetched.poll_eq, Station.tick_eq budget st⟩

/-- Two frames wait for a ring of one descriptor, and a third one behind them for an idle channel.
Arming the ring takes the two, of which the second cannot be placed, and leaves the third. -/
theorem two_frames_are_ready :
    let first : InboundFrame := { bytes := [1, 2, 3] }
    let second : InboundFrame := { bytes := [4] }
    let third : InboundFrame := { bytes := [5], class? := some .ptp }
    let s := (small.run [.writeRam 0x48486000 [0x48486010, 0x100, 4, 0x20000000],
      .writeRegister 0x814 1, .deliver first, .deliver second, .deliver third]).2
    let t := s.mapEngine (·.armReceive 1 0x48486000)
    t.fills.map (·.2) = [first, second] ∧
    (s.writeRegister 0xA24 0x48486000).1 = some (.overrun 1 0x48486010) ∧
    (s.writeRegister 0xA24 0x48486000).2.engine.intake.frames = [third] ∧
    (s.writeRegister 0xA24 0x48486000).2.poll = (0, (s.writeRegister 0xA24 0x48486000).2) := by
  intro first second third s t
  have hwrite : (Operation.writeRegister 0xA24 0x48486000).registerWrite? =
      some (.receiveHead 1, 0x48486000) := by decide +kernel
  obtain ⟨hfills, hrest, -, -, houtcome, -, hpoll, -⟩ := drain_takes_ready_prefix.1 s t
    (.writeRegister 0xA24 0x48486000) (.trigger (.receiveHead hwrite)) (by decide +kernel)
  have hfault : (s.writeRegister 0xA24 0x48486000).1 = t.drain.1 :=
    Reply.outcome.inj (houtcome 0xA24 0x48486000 rfl)
  have hready : t.engine.intake.frames.takeWhile t.engine.ready = [first, second] := by
    decide +kernel
  have hidle : t.engine.intake.frames.dropWhile t.engine.ready = [third] := by decide +kernel
  have hoverrun : t.drain.1 = some (.overrun 1 0x48486010) := by decide +kernel
  exact ⟨hfills.trans hready, hfault.trans hoverrun, hrest.trans hidle, hpoll⟩

end System

end PacketDma
