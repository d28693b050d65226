/-
**What a tick of the pump moves.**

A tick is a run of operations of the engine: a poll, a number of frames taken from the egress queue,
a number of frames received, and another poll.  The frames that are taken go to the backend, and the
frames that are received come from it, in both cases in their order and within the budget.  Receiving
a frame answers with one fault for two things, the refusal of that frame and the failure of older
frames that are placed at the same time.  The pump tells them apart by the kind of the fault, and is
right to: placing frames never fails as a refusal.

Main definitions:

* `PacketDma.Backend.afterPolls`, `PacketDma.Backend.answer` — a backend that is polled again and
  again;
* `PacketDma.Backend.Fetches` — the frames that polling within a budget gives;
* `PacketDma.System.Drained` — the oldest waiting frame is held up by an idle channel;
* `PacketDma.System.takenCount` — how many of the frames that arrive enter the queue.

Main results:

* `PacketDma.Station.send_eq`, `PacketDma.Station.exists_fetch` — the two directions as runs;
* `PacketDma.Station.exists_tick` — a tick as a run;
* `PacketDma.System.drain_fault` — **placing frames never fails as a refusal**;
* `PacketDma.Station.tick_is_accounted_for` — **what a tick moves and counts**.
-/

import PacketDma.Proofs.Batching
import PacketDma.Proofs.EgressAccounts
import PacketDma.Transport.Pump

set_option autoImplicit false

namespace PacketDma

/-! ### Polling a backend -/

namespace Backend

variable {β : Type} [Backend β]

/-- The backend after a number of polls. -/
def afterPolls (link : β) : Nat → β
  | 0 => link
  | n + 1 => (poll (afterPolls link n)).2

/-- What the backend answers after a number of polls. -/
def answer (link : β) (n : Nat) : Option Frame := (poll (afterPolls link n)).1

theorem afterPolls_succ (link : β) (n : Nat) :
    afterPolls link (n + 1) = afterPolls (poll link).2 n := by
  induction n with
  | zero => rfl
  | succ n ih => exact congrArg (fun later => (poll later).2) ih

theorem answer_succ (link : β) (n : Nat) : answer link (n + 1) = answer (poll link).2 n :=
  congrArg (fun later => (poll later).1) (afterPolls_succ link n)

/-- Polling within a budget gives frames until the budget is spent or the backend has none. -/
structure Fetches (budget : Nat) (link : β) (fetched : List Frame) (calls : Nat) : Prop where
  answers : ∀ i, (hi : i < fetched.length) → answer link i = some fetched[i]
  calls_le : calls ≤ budget
  stops : calls = fetched.length ∧ calls = budget ∨
    calls = fetched.length + 1 ∧ answer link fetched.length = none

namespace Fetches

variable {budget calls : Nat} {link : β} {fetched : List Frame} {frame : Frame}

theorem exhausted (link : β) : Fetches 0 link [] 0 where
  answers i hi := absurd hi (Nat.not_lt_zero i)
  calls_le := Nat.le_refl 0
  stops := Or.inl ⟨rfl, rfl⟩

theorem nothing (budget : Nat) (h : answer link 0 = none) : Fetches (budget + 1) link [] 1 where
  answers i hi := absurd hi (Nat.not_lt_zero i)
  calls_le := Nat.succ_le_succ (Nat.zero_le budget)
  stops := Or.inr ⟨rfl, h⟩

theorem cons (hframe : answer link 0 = some frame) (h : Fetches budget (poll link).2 fetched calls) :
    Fetches (budget + 1) link (frame :: fetched) (calls + 1) where
  answers i hi := by
    cases i with
    | zero => exact hframe
    | succ i =>
        rw [answer_succ]
        exact h.answers i (Nat.lt_of_succ_lt_succ hi)
  calls_le := Nat.succ_le_succ h.calls_le
  stops := by
    rcases h.stops with ⟨hlength, hbudget⟩ | ⟨hlength, hnone⟩
    · exact Or.inl ⟨congrArg (· + 1) hlength, congrArg (· + 1) hbudget⟩
    · refine Or.inr ⟨congrArg (· + 1) hlength, ?_⟩
      rw [List.length_cons, answer_succ]
      exact hnone

end Fetches

end Backend

/-! ### Faults -/

/-- At least one frame may wait. -/
theorem AcceptedSettings.pendingLimit_pos (settings : AcceptedSettings) :
    0 < settings.pendingLimit :=
  ((Settings.firstFault_eq_none_iff settings.toSettings).1 settings.noFault).2.1.2.1

namespace System

variable {s t : System} {frame : InboundFrame}

/-- Placing a frame never fails as a refusal. -/
theorem fill_fault {fault : DmaFault} (h : (s.fill frame).1 = some fault) :
    fault.isRefusal = false := by
  rcases planFrom_fault (fill_fault_eq_some_iff.1 h) with rfl | ⟨address, rfl⟩ | ⟨cause, rfl⟩ <;> rfl

theorem drainFrames_fault {frames : List InboundFrame} {fault : DmaFault}
    (h : (drainFrames frames s).1 = some fault) : fault.isRefusal = false := by
  induction frames generalizing s with
  | nil => cases h
  | cons frame rest ih =>
      by_cases hready : s.engine.ready frame = true
      · rw [drainFrames_of_ready hready] at h
        -- the fault is that of the first frame, or else one of the others
        rcases Option.or_eq_some_iff.1 (Option.orElse_eq_or.symm.trans h) with hfirst | ⟨-, hlater⟩
        · exact fill_fault hfirst
        · exact ih hlater
      · rw [drainFrames_of_not_ready (Bool.not_eq_true _ ▸ hready)] at h
        cases h

/-- **Placing frames never fails as a refusal.** -/
theorem drain_fault {fault : DmaFault} (h : s.drain.1 = some fault) : fault.isRefusal = false := by
  unfold drain at h
  split at h
  · exact drainFrames_fault h
  · cases h

/-! ### Systems between placements -/

/-- While receive is enabled, the oldest waiting frame is held up by an idle channel. -/
def Drained (s : System) : Prop :=
  s.engine.receiveEnabled = true → ∀ oldest rest, s.engine.intake.frames = oldest :: rest →
    s.engine.ready oldest = false

/-- A drain leaves a frame waiting only if its channel is idle. -/
theorem drained_drain (s : System) : s.drain.2.Drained := by
  intro henabled oldest rest hframes
  have hbefore : s.engine.receiveEnabled = true :=
    (sameRules_drain s).receiveEnabled_eq.symm.trans henabled
  have hdrain := drain_eq_drainQueue hbefore
  rw [hdrain] at hframes ⊢
  by_contra hready
  -- the frame could be placed, but draining again places nothing
  have hagain := s.drainQueue_drainQueue s.engine.intake.frames
  rw [hframes, drainQueue_of_ready (Bool.not_eq_false _ ▸ hready)] at hagain
  have hlength := length_drainQueue_le ((s.drainQueue s.engine.intake.frames).fill oldest).2 rest
  rw [hagain, hframes, List.length_cons] at hlength
  exact absurd hlength (Nat.not_succ_le_self _)

/-- The arrival of a frame leaves a frame waiting only if its channel is idle. -/
theorem Drained.receive (h : s.Drained) (frame : InboundFrame) : (s.receive frame).2.Drained := by
  cases hrefusal : s.engine.intake.refusal? s.engine.settings.pendingLimit frame with
  | none =>
      rw [System.receive, Engine.offer_of_none hrefusal]
      exact drained_drain _
  | some fault =>
      rw [System.receive, Engine.offer_of_refusal hrefusal]
      exact h

/-- A frame is refused for a full queue only if the oldest waiting frame is held up by an idle
channel. -/
theorem Drained.idle_of_queueFull (h : s.Drained) (hgated : s.Gated) {capacity : Nat}
    (hfull : s.engine.intake.refusal? s.engine.settings.pendingLimit frame =
      some (.queueFull capacity)) :
    ∃ oldest rest, s.engine.intake.frames = oldest :: rest ∧
      (s.engine.channels.receiveChannel (s.engine.channelOf oldest)).head = 0 := by
  unfold Intake.refusal? at hfull
  split at hfull
  · cases hfull
  · next haccepting =>
      split at hfull
      · cases hfull
      · split at hfull
        · next hlimit =>
            have henabled : s.engine.receiveEnabled = true :=
              hgated.symm.trans (Bool.not_eq_false _ ▸ haccepting)
            -- at least one frame may wait, and so one does
            have hpositive : 0 < s.engine.settings.pendingLimit :=
              s.engine.settings.pendingLimit_pos
            obtain ⟨oldest, rest, hframes⟩ := List.exists_cons_of_length_pos
              (Nat.lt_of_lt_of_le hpositive hlimit)
            refine ⟨oldest, rest, hframes, ?_⟩
            by_contra hhead
            have hready := h henabled oldest rest hframes
            rw [Engine.ready_iff.2 hhead] at hready
            cases hready
        · cases hfull

/-! ### The two directions -/

/-- How many of the frames that arrive one after the other enter the queue. -/
def takenCount (s : System) : List Frame → Nat
  | [] => 0
  | frame :: rest =>
      let refusal? := s.engine.intake.refusal? s.engine.settings.pendingLimit { bytes := frame }
      (if refusal?.isNone then 1 else 0) + takenCount (s.receive { bytes := frame }).2 rest

/-- A number of frames leave the egress queue. -/
theorem run_takeEgress (s : System) (n : Nat) :
    (s.run (List.replicate n .takeEgress)).2 =
      s.mapEngine fun e => { e with egress := e.egress.drop n } := by
  induction n generalizing s with
  | zero => rfl
  | succ n ih =>
      rw [List.replicate_succ, run_cons, ih]
      simp [perform, Engine.takeEgress, mapEngine]

theorem isRefusal_of_refusal? {q : Intake} {limit : Nat} {fault : DmaFault}
    (h : q.refusal? limit frame = some fault) : fault.isRefusal = true := by
  unfold Intake.refusal? at h
  split at h
  · cases h
    rfl
  · split at h
    · cases h
      rfl
    · split at h <;> cases h
      rfl

/-- The fault of an arrival says whether the frame has entered the queue. -/
theorem receive_fault (s : System) (frame : InboundFrame) :
    (s.receive frame).1.any DmaFault.isRefusal =
      (s.engine.intake.refusal? s.engine.settings.pendingLimit frame).isSome := by
  cases hrefusal : s.engine.intake.refusal? s.engine.settings.pendingLimit frame with
  | none =>
      rw [receive, Engine.offer_of_none hrefusal]
      dsimp only
      cases hfault : (drain _).1 with
      | none => rfl
      | some fault => exact drain_fault hfault
  | some fault =>
      rw [receive, Engine.offer_of_refusal hrefusal]
      exact isRefusal_of_refusal? hrefusal

/-- A drain refuses nothing. -/
theorem refused_drain (s : System) :
    s.drain.2.engine.intake.refused = s.engine.intake.refused := by
  refine drain_induction (P := fun t => t.engine.intake.refused = s.engine.intake.refused) ?_ rfl
  intro t frame rest _ _ ht
  rw [intake_fill]
  exact ht

/-- A frame that arrives is refused or enters the queue. -/
theorem refused_receive (s : System) (frame : InboundFrame) :
    (s.receive frame).2.engine.intake.refused =
      s.engine.intake.refused +
        if (s.engine.intake.refusal? s.engine.settings.pendingLimit frame).isNone then 0 else 1 := by
  cases hrefusal : s.engine.intake.refusal? s.engine.settings.pendingLimit frame with
  | none =>
      rw [receive, Engine.offer_of_none hrefusal]
      exact refused_drain _
  | some fault =>
      rw [receive, Engine.offer_of_refusal hrefusal]
      rfl

/-- The arrival of frames, one after the other. -/
def arrivals (frames : List Frame) : List Operation :=
  frames.map fun frame => .receive { bytes := frame }

/-- What the arrival of a frame keeps, the arrival of any number of frames keeps. -/
theorem run_arrivals_induction {P : System → Prop}
    (hreceive : ∀ (s : System) (frame : InboundFrame), P s → P (s.receive frame).2)
    (frames : List Frame) {s : System} (h : P s) : P (s.run (arrivals frames)).2 := by
  induction frames generalizing s with
  | nil => exact h
  | cons frame rest ih => exact ih (hreceive s { bytes := frame } h)

/-- A drain does not touch the frames that have been sent. -/
theorem egress_drain (s : System) : s.drain.2.engine.egress = s.engine.egress :=
  congrArg EgressTally.waiting (egressTally_drain s)

/-- Frames that arrive do not touch the frames that have been sent. -/
theorem egress_run_arrivals (s : System) (frames : List Frame) :
    (s.run (arrivals frames)).2.engine.egress = s.engine.egress := by
  have htally : (s.run (arrivals frames)).2.engine.egressTally = s.engine.egressTally :=
    run_arrivals_induction (P := fun t => t.engine.egressTally = s.engine.egressTally)
      (fun t frame ht => (egressTally_receive t frame).trans ht) frames rfl
  exact congrArg EgressTally.waiting htally

/-- The arrival of frames leaves a frame waiting only if its channel is idle. -/
theorem Drained.run_arrivals (h : s.Drained) (hgated : s.Gated) (frames : List Frame) :
    (s.run (arrivals frames)).2.Drained ∧ (s.run (arrivals frames)).2.Gated :=
  run_arrivals_induction (P := fun t => t.Drained ∧ t.Gated)
    (fun _ frame ht => ⟨ht.1.receive frame, ht.2.perform (.receive frame)⟩) frames ⟨h, hgated⟩

/-- Every frame that arrives is refused or enters the queue. -/
theorem takenCount_add_refused (s : System) (frames : List Frame) :
    s.takenCount frames + (s.run (arrivals frames)).2.engine.intake.refused =
      s.engine.intake.refused + frames.length := by
  induction frames generalizing s with
  | nil => exact Nat.zero_add _
  | cons frame rest ih =>
      have hrest := ih (s.receive { bytes := frame }).2
      have hrun : (s.run (arrivals (frame :: rest))).2 =
          ((s.receive { bytes := frame }).2.run (arrivals rest)).2 := rfl
      rw [refused_receive] at hrest
      rw [hrun, takenCount, List.length_cons]
      cases hrefusal : s.engine.intake.refusal? s.engine.settings.pendingLimit
        { bytes := frame } with
      | none =>
          simp only [hrefusal, Option.isNone_none, if_true] at hrest ⊢
          omega
      | some fault =>
          simp only [hrefusal, Option.isNone_some, Bool.false_eq_true, if_false] at hrest ⊢
          omega

end System

namespace Station

variable {β : Type} [Backend β]

/-- **Sending** takes frames out of the egress queue and hands them to the backend. -/
theorem send_eq (budget : Nat) (st : Station β) :
    st.send budget =
      let sent := st.system.engine.egress.take budget
      (sent.length,
        { system := (st.system.run (List.replicate sent.length .takeEgress)).2
          link := sent.foldl Backend.transmit st.link }) := by
  induction budget generalizing st with
  | zero => rfl
  | succ budget ih =>
      cases hegress : st.system.engine.egress with
      | nil => simp [send, Engine.takeEgress, hegress]
      | cons frame rest =>
          have hrest := ih
            { system := { st.system with engine := { st.system.engine with egress := rest } }
              link := Backend.transmit st.link frame }
          have htaken : (st.system.perform .takeEgress).2 =
              { st.system with engine := { st.system.engine with egress := rest } } := by
            simp only [System.perform, Engine.takeEgress, hegress, List.tail_cons]
          simp only [send, Engine.takeEgress, hegress, List.head?_cons, List.tail_cons, hrest]
          rw [List.take_succ_cons, List.length_cons, List.replicate_succ, System.run_cons, htaken]
          rfl

/-- **Fetching** polls the backend and lets the frames arrive. -/
theorem exists_fetch (budget : Nat) (st : Station β) :
    ∃ fetched calls, Backend.Fetches budget st.link fetched calls ∧
      st.fetch budget =
        (st.system.takenCount fetched,
          { system := (st.system.run (System.arrivals fetched)).2
            link := Backend.afterPolls st.link calls }) := by
  induction budget generalizing st with
  | zero => exact ⟨[], 0, .exhausted st.link, rfl⟩
  | succ budget ih =>
      cases hpoll : Backend.poll st.link with
      | mk frame? link =>
          have hlink : (Backend.poll st.link).2 = link := congrArg Prod.snd hpoll
          have hanswer : Backend.answer st.link 0 = frame? := congrArg Prod.fst hpoll
          cases frame? with
          | none =>
              refine ⟨[], 1, .nothing budget hanswer, ?_⟩
              simp only [fetch, hpoll]
              rw [Backend.afterPolls_succ, hlink]
              rfl
          | some frame =>
              obtain ⟨fetched, calls, hfetches, hrest⟩ :=
                ih { system := (st.system.receive { bytes := frame }).2, link }
              refine ⟨frame :: fetched, calls + 1, .cons hanswer (hlink ▸ hfetches), ?_⟩
              simp only [fetch, hpoll, hrest, System.receive_fault]
              rw [Backend.afterPolls_succ, hlink]
              refine Prod.ext ?_ rfl
              dsimp only [System.takenCount]
              cases st.system.engine.intake.refusal? st.system.engine.settings.pendingLimit
                { bytes := frame } with
              | none => exact Nat.add_comm ..
              | some fault => exact (Nat.zero_add _).symm

/-- **A tick** is a poll, the frames that are taken, the frames that arrive, and another poll. -/
theorem exists_tick (st : Station β) (budget : PumpBudget) :
    let sent := st.system.engine.egress.take budget.transmit
    let link := sent.foldl Backend.transmit st.link
    let ready := (st.system.run (.poll :: List.replicate sent.length .takeEgress)).2
    ∃ fetched calls, Backend.Fetches budget.receive link fetched calls ∧
      st.tick budget =
        ({ transmitted := sent.length, received := ready.takenCount fetched },
          { system := (ready.run (System.arrivals fetched)).2.drain.2
            link := Backend.afterPolls link calls }) := by
  intro sent link ready
  have hsend : st.retry.send budget.transmit = (sent.length, { system := ready, link }) := by
    have hegress : st.retry.system.engine.egress = st.system.engine.egress :=
      System.egress_drain st.system
    rw [send_eq, hegress]
    rfl
  obtain ⟨fetched, calls, hfetches, hfetch⟩ := exists_fetch budget.receive { system := ready, link }
  refine ⟨fetched, calls, hfetches, ?_⟩
  unfold tick
  rw [hsend]
  dsimp only
  rw [hfetch]
  rfl

/-- **What a tick moves and counts.**  On a station whose engine is reachable, with any memory and
any backend, a tick hands the oldest transmitted frames to the backend, as many as there are or as
the budget allows, and leaves the others.  It polls the backend as it is then, up to the budget or to
the first answer without a frame, and every frame arrives at the engine in its order.  It counts the
frames that it has handed over, and those that have entered the queue: all but the refused ones.
The fault of a frame that has entered the queue never says that it was refused, and a frame is only
refused for a full queue when the oldest waiting frame is held up by an idle channel. -/
theorem tick_is_accounted_for (st : Station β) (budget : PumpBudget)
    (hreach : ∃ memory, System.Reachable ⟨st.system.engine, memory⟩) :
    let sent := st.system.engine.egress.take budget.transmit
    let link := sent.foldl Backend.transmit st.link
    let ready := (st.system.run (.poll :: List.replicate sent.length .takeEgress)).2
    let counts := (st.tick budget).1
    let after := (st.tick budget).2
    ∃ fetched calls, Backend.Fetches budget.receive link fetched calls ∧
      after.link = Backend.afterPolls link calls ∧
      after.system = (ready.run (System.arrivals fetched ++ [.poll])).2 ∧
      after.system.engine.egress = st.system.engine.egress.drop budget.transmit ∧
      counts.transmitted = sent.length ∧
      counts.received = ready.takenCount fetched ∧
      counts.received + after.system.engine.intake.refused =
        st.system.engine.intake.refused + fetched.length ∧
      ∀ earlier frame later, fetched = earlier ++ frame :: later →
        let s := (ready.run (System.arrivals earlier)).2
        let refusal? := s.engine.intake.refusal? s.engine.settings.pendingLimit { bytes := frame }
        (refusal? = none → ∀ fault, (s.receive { bytes := frame }).1 = some fault →
          fault.isRefusal = false) ∧
        ∀ capacity, refusal? = some (.queueFull capacity) →
          ∃ oldest rest, s.engine.intake.frames = oldest :: rest ∧
            (s.engine.channels.receiveChannel (s.engine.channelOf oldest)).head = 0 := by
  intro sent link ready counts after
  obtain ⟨fetched, calls, hfetches, htick⟩ := exists_tick st budget
  have hcounts : counts = ⟨sent.length, ready.takenCount fetched⟩ := congrArg Prod.fst htick
  have hafter : after = ⟨(ready.run (System.arrivals fetched)).2.drain.2,
      Backend.afterPolls link calls⟩ := congrArg Prod.snd htick
  have hready : ready = st.system.drain.2.mapEngine fun e =>
      { e with egress := e.egress.drop sent.length } :=
    System.run_takeEgress st.system.drain.2 sent.length
  refine ⟨fetched, calls, hfetches, congrArg Station.link hafter, ?_, ?_,
    congrArg PumpCounts.transmitted hcounts, congrArg PumpCounts.received hcounts, ?_, ?_⟩
  · rw [System.run_append]
    exact congrArg Station.system hafter
  · rw [hafter]
    dsimp only
    rw [System.egress_drain, System.egress_run_arrivals, hready, System.engine_mapEngine,
      System.egress_drain]
    -- when the budget exceeds the queue, nothing is left on either side
    rw [List.drop_eq_drop_iff, List.length_take]
    omega
  · have hrefused : ready.engine.intake.refused = st.system.engine.intake.refused := by
      rw [hready]
      exact System.refused_drain st.system
    rw [hcounts, hafter]
    dsimp only
    rw [System.refused_drain, System.takenCount_add_refused, hrefused]
  · intro earlier frame later _ s refusal?
    have hkept : s.Drained ∧ s.Gated := by
      obtain ⟨memory, hreach⟩ := hreach
      have hgated : st.system.Gated := hreach.gated
      refine System.Drained.run_arrivals ?_ ?_ earlier
      · rw [hready]
        exact System.drained_drain st.system
      · rw [hready]
        exact hgated.perform .poll
    constructor
    · intro htaken fault hfault
      have hany : (s.receive { bytes := frame }).1.any DmaFault.isRefusal = refusal?.isSome :=
        s.receive_fault { bytes := frame }
      rw [hfault, htaken] at hany
      exact hany
    · intro capacity hfull
      exact hkept.1.idle_of_queueFull hkept.2 hfull

/-- A byte that has been sent waits for the host, and the backend is an echo: its answer arrives in
the tick that hands the byte over, and waits for an idle channel. -/
theorem echo_answers_in_the_same_tick :
    let s := (System.small.run [.writeRegister 0x814 1, .writeMemory 0x20 [7],
      .writeRam 0x48486000 [0, 0x20, 1, 0xE4000001], .writeRegister 0xA00 0x48486000]).2
    let tick := (Station.mk s (Link.echo [] [])).tick {}
    (∃ memory, System.Reachable ⟨s.engine, memory⟩) ∧ tick.1.transmitted = 1 ∧
    tick.2.link = .echo [[7]] [] ∧ tick.2.system.engine.intake.frames = [{ bytes := [0xF8] }] := by
  intro s tick
  have hreach : s.Reachable := (System.Reachable.fresh ..).run _
  have hegress : s.engine.egress.length = 1 := by decide +kernel
  have hlink : tick.2.link = .echo [[7]] [] := by decide +kernel
  have hframes : tick.2.system.engine.intake.frames = [{ bytes := [0xF8] }] := by decide +kernel
  -- from here on only what is known of the system matters, not the run that leads to it
  clear_value s
  have hmemory : ∃ memory, System.Reachable ⟨s.engine, memory⟩ := ⟨s.memory, hreach⟩
  obtain ⟨fetched, calls, -, -, -, -, htransmitted, -⟩ :=
    tick_is_accounted_for ⟨s, Link.echo [] []⟩ {} hmemory
  refine ⟨hmemory, ?_, hlink, hframes⟩
  show ((Station.mk s (Link.echo [] [])).tick {}).1.transmitted = 1
  rw [htransmitted, List.length_take, hegress]
  rfl

end Station

end PacketDma
