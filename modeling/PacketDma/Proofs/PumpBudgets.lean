/-
**Only the total budget of the pump matters.**

A tick sends first and fetches afterwards, and tries the waiting frames at its beginning and at its
end.  When a tick is split in two, the second half sends frames behind what the first half has
fetched, and the waiting frames are tried in between.  Over a backend whose two directions do not
meet, none of this can be seen: sending and fetching commute, and trying the waiting frames again
does nothing, because whatever has just been fetched has been tried already.  So the budgets of
consecutive ticks add up.

Over an echo they do not, because there a frame that is sent can be fetched.

Main definitions:

* `PacketDma.Backend.Independent` — the two directions of a backend do not meet;
* `PacketDma.Station.handOver` — a frame goes from the egress queue to the backend.

Main results:

* `PacketDma.Station.send_add`, `PacketDma.Station.fetch_add` — each direction can be split;
* `PacketDma.Station.fetch_send` — **sending and fetching commute**;
* `PacketDma.System.Drained.drain_eq` — **waiting frames that have been tried are not moved**;
* `PacketDma.Station.tick_tick` — the budgets of two ticks add up;
* `PacketDma.Station.ticks_eq_tick` — so do those of any number of ticks;
* `PacketDma.Station.budgets_add_up` — the same for a pair of frame queues.
-/

import PacketDma.Proofs.Outputs
import PacketDma.Proofs.PumpAccounts
import PacketDma.Transport.Wrapped

set_option autoImplicit false

namespace PacketDma

instance : Add PumpBudget := ⟨fun b c => ⟨b.transmit + c.transmit, b.receive + c.receive⟩⟩

instance : Add PumpCounts := ⟨fun b c => ⟨b.transmitted + c.transmitted, b.received + c.received⟩⟩

/-! ### Backends -/

/-- The two directions of a backend do not meet: a frame that is sent changes nothing about the frames
that arrive, and the other way round.  A backend without a frame stays as it is. -/
structure Backend.Independent (β : Type) [Backend β] : Prop where
  poll_transmit : ∀ (link : β) (frame : Frame),
    poll (transmit link frame) = ((poll link).1, transmit (poll link).2 frame)
  poll_of_none : ∀ link : β, (poll link).1 = none → (poll link).2 = link

/-- The two directions of a pair of frame queues do not meet. -/
theorem FrameQueue.independent : Backend.Independent FrameQueue where
  poll_transmit q frame := by
    show (q.transmit frame).poll = (q.poll.1, q.poll.2.transmit frame)
    cases h : q.inbound with
    | nil => rw [poll_of_nil h, poll_of_nil ((q.inbound_transmit frame).trans h)]
    | cons arrived rest =>
        rw [poll_of_cons h, poll_of_cons ((q.inbound_transmit frame).trans h)]
        refine congrArg (Prod.mk _) ?_
        unfold transmit
        split
        · rfl
        · split <;> rfl
  poll_of_none q hnone := by
    change q.poll.1 = none at hnone
    show q.poll.2 = q
    cases h : q.inbound with
    | nil => rw [poll_of_nil h]
    | cons frame rest =>
        rw [poll_of_cons h] at hnone
        cases hnone

/-- Layers keep the directions apart. -/
theorem Wrapped.independent {β : Type} [Backend β] (h : Backend.Independent β) :
    Backend.Independent (Wrapped β) where
  poll_transmit w frame := by
    show (w.transmit frame).poll = (w.poll.1, w.poll.2.transmit frame)
    by_cases hw : w.Connected
    · have hsent : (w.transmit frame).Connected := hw
      have hpolled : w.poll.2.Connected := hw
      rw [poll_of_connected hsent, transmit_of_connected hpolled, transmit_of_connected hw,
        poll_of_connected hw]
      dsimp only
      rw [h.poll_transmit]
    · rw [transmit_of_not_connected hw, poll_of_not_connected hw, transmit_of_not_connected hw]
  poll_of_none w hnone := by
    change w.poll.1 = none at hnone
    show w.poll.2 = w
    by_cases hw : w.Connected
    · rw [poll_of_connected hw] at hnone ⊢
      dsimp only at hnone ⊢
      rw [h.poll_of_none w.backend hnone]
    · rw [poll_of_not_connected hw]

/-! ### Waiting frames -/

/-- **Waiting frames that have been tried are not moved** by trying them again. -/
theorem System.Drained.drain_eq {s : System} (h : s.Drained) : s.drain = (none, s) := by
  by_cases henabled : s.engine.receiveEnabled = true
  · rw [drain_of_enabled henabled]
    cases hframes : s.engine.intake.frames with
    | nil => rfl
    | cons oldest rest => exact drainFrames_of_not_ready (h henabled oldest rest hframes) rest
  · exact drain_of_disabled (Bool.not_eq_true _ ▸ henabled)

/-- The frames that an engine has sent are others. -/
def OutputMap.replaceEgress (egress : List Frame) : OutputMap where
  egress _ := egress
  interrupt line := line
  interrupt_drive _ _ := rfl

namespace Station

variable {β : Type} {st : Station β}

theorem drained_retry (st : Station β) : st.retry.system.Drained :=
  System.drained_drain st.system

theorem retry_of_drained (h : st.system.Drained) : st.retry = st := by
  rw [retry, h.drain_eq]

variable [Backend β]

/-- The oldest frame of the egress queue goes to the backend, and the rest stays. -/
def handOver (st : Station β) (frame : Frame) (rest : List Frame) : Station β where
  system := st.system.mapOutputs (.replaceEgress rest)
  link := Backend.transmit st.link frame

/-! ### Sending -/

theorem send_of_nil (h : st.system.engine.egress = []) (n : Nat) : st.send n = (0, st) := by
  cases n with
  | zero => rfl
  | succ n => simp [send, Engine.takeEgress, h]

theorem send_of_cons {frame : Frame} {rest : List Frame}
    (h : st.system.engine.egress = frame :: rest) (n : Nat) :
    st.send (n + 1) =
      (((st.handOver frame rest).send n).1 + 1, ((st.handOver frame rest).send n).2) := by
  simp only [send, Engine.takeEgress, h, List.head?_cons, List.tail_cons]
  rfl

/-- **Sending can be split.** -/
theorem send_add (m n : Nat) (st : Station β) :
    st.send (m + n) = ((st.send m).1 + ((st.send m).2.send n).1, ((st.send m).2.send n).2) := by
  induction m generalizing st with
  | zero => simp
  | succ m ih =>
      cases h : st.system.engine.egress with
      | nil => simp only [send_of_nil h, Nat.add_zero]
      | cons frame rest =>
          rw [Nat.succ_add_eq_add_succ, Nat.add_succ, send_of_cons h, send_of_cons h, ih]
          exact Prod.ext (Nat.add_right_comm ..) rfl

/-! ### Fetching -/

theorem fetch_of_none (h : (Backend.poll st.link).1 = none) (n : Nat) :
    st.fetch (n + 1) = (0, { st with link := (Backend.poll st.link).2 }) := by
  rw [fetch]
  split
  · next hpoll => rw [hpoll]
  · next hpoll =>
      rw [hpoll] at h
      cases h

theorem fetch_of_some {frame : Frame} (h : (Backend.poll st.link).1 = some frame) (n : Nat) :
    st.fetch (n + 1) =
      let received := st.system.receive { bytes := frame }
      let later := fetch n { system := received.2, link := (Backend.poll st.link).2 }
      (if received.1.any DmaFault.isRefusal then later.1 else later.1 + 1, later.2) := by
  rw [fetch]
  split
  · next hpoll =>
      rw [hpoll] at h
      cases h
  · next hpoll =>
      rw [hpoll] at h ⊢
      cases h
      rfl

/-- A backend without a frame has none the next time either. -/
theorem fetch_of_empty (hβ : Backend.Independent β) (h : (Backend.poll st.link).1 = none) (n : Nat) :
    st.fetch n = (0, st) := by
  cases n with
  | zero => rfl
  | succ n => rw [fetch_of_none h, hβ.poll_of_none _ h]

/-- **Fetching can be split.** -/
theorem fetch_add (hβ : Backend.Independent β) (m n : Nat) (st : Station β) :
    st.fetch (m + n) = ((st.fetch m).1 + ((st.fetch m).2.fetch n).1, ((st.fetch m).2.fetch n).2) := by
  induction m generalizing st with
  | zero => simp
  | succ m ih =>
      cases h : (Backend.poll st.link).1 with
      | none => simp only [fetch_of_empty hβ h, Nat.add_zero]
      | some frame =>
          rw [Nat.succ_add_eq_add_succ, Nat.add_succ, fetch_of_some h, fetch_of_some h]
          dsimp only
          rw [ih]
          dsimp only
          refine Prod.ext ?_ rfl
          split
          · rfl
          · exact Nat.add_right_comm ..

/-- Fetching leaves a frame waiting only if its channel is idle. -/
theorem drained_fetch (h : st.system.Drained) (n : Nat) : (st.fetch n).2.system.Drained := by
  induction n generalizing st with
  | zero => exact h
  | succ n ih =>
      cases hpoll : (Backend.poll st.link).1 with
      | none =>
          rw [fetch_of_none hpoll]
          exact h
      | some frame =>
          rw [fetch_of_some hpoll]
          exact ih (h.receive { bytes := frame })

/-- Fetching does not touch the frames that have been sent. -/
theorem egress_fetch (st : Station β) (n : Nat) :
    (st.fetch n).2.system.engine.egress = st.system.engine.egress := by
  obtain ⟨fetched, calls, -, hfetch⟩ := exists_fetch n st
  rw [hfetch]
  exact System.egress_run_arrivals st.system fetched

/-! ### Both directions -/

/-- A frame is handed over before or behind the frames that are fetched. -/
theorem fetch_handOver (hβ : Backend.Independent β) (frame : Frame) (rest : List Frame) (n : Nat)
    (st : Station β) :
    (st.handOver frame rest).fetch n =
      ((st.fetch n).1, (st.fetch n).2.handOver frame rest) := by
  induction n generalizing st with
  | zero => rfl
  | succ n ih =>
      have hpoll : Backend.poll (st.handOver frame rest).link =
          ((Backend.poll st.link).1, Backend.transmit (Backend.poll st.link).2 frame) :=
        hβ.poll_transmit st.link frame
      cases h : (Backend.poll st.link).1 with
      | none =>
          rw [fetch_of_none h, fetch_of_none ((congrArg Prod.fst hpoll).trans h), hpoll]
          rfl
      | some arrived =>
          have hreceive : (st.handOver frame rest).system.receive { bytes := arrived } =
              ((st.system.receive { bytes := arrived }).1,
                (st.system.receive { bytes := arrived }).2.mapOutputs (.replaceEgress rest)) :=
            System.receive_mapOutputs ..
          have hlater := ih
            { system := (st.system.receive { bytes := arrived }).2
              link := (Backend.poll st.link).2 }
          rw [fetch_of_some h, fetch_of_some ((congrArg Prod.fst hpoll).trans h), hpoll, hreceive]
          dsimp only [handOver] at hlater ⊢
          rw [hlater]

/-- **Sending and fetching commute.** -/
theorem fetch_send (hβ : Backend.Independent β) (m n : Nat) (st : Station β) :
    ((st.fetch n).2.send m).1 = (st.send m).1 ∧
      (st.send m).2.fetch n = ((st.fetch n).1, ((st.fetch n).2.send m).2) := by
  induction m generalizing st with
  | zero => exact ⟨rfl, rfl⟩
  | succ m ih =>
      have hegress := egress_fetch st n
      cases h : st.system.engine.egress with
      | nil =>
          rw [send_of_nil h, send_of_nil (hegress.trans h)]
          exact ⟨rfl, rfl⟩
      | cons frame rest =>
          obtain ⟨hcount, hstation⟩ := ih (st.handOver frame rest)
          rw [fetch_handOver hβ] at hcount hstation
          rw [send_of_cons h, send_of_cons (hegress.trans h)]
          exact ⟨congrArg (· + 1) hcount, hstation⟩

/-- Sending does not concern the waiting frames. -/
theorem drained_send (h : st.system.Drained) (m : Nat) : (st.send m).2.system.Drained := by
  induction m generalizing st with
  | zero => exact h
  | succ m ih =>
      cases hegress : st.system.engine.egress with
      | nil =>
          rw [send_of_nil hegress]
          exact h
      | cons frame rest =>
          have hhanded : (st.handOver frame rest).system.Drained := h
          rw [send_of_cons hegress]
          exact ih hhanded

/-! ### Ticks -/

/-- A tick leaves a frame waiting only if its channel is idle. -/
theorem drained_tick (budget : PumpBudget) (st : Station β) : (st.tick budget).2.system.Drained :=
  System.drained_drain _

/-- A tick is a send and a fetch after the waiting frames have been tried: trying them again at the
end does nothing. -/
theorem tick_eq (budget : PumpBudget) (st : Station β) :
    st.tick budget =
      let sent := st.retry.send budget.transmit
      let fetched := sent.2.fetch budget.receive
      (⟨sent.1, fetched.1⟩, fetched.2) := by
  have hdrained := drained_fetch (drained_send (drained_retry st) budget.transmit) budget.receive
  exact congrArg (Prod.mk _) (retry_of_drained hdrained)

/-- The budgets of two ticks over a backend whose directions do not meet add up. -/
theorem tick_tick (hβ : Backend.Independent β) (first second : PumpBudget) (st : Station β) :
    st.tick (first + second) =
      ((st.tick first).1 + ((st.tick first).2.tick second).1,
        ((st.tick first).2.tick second).2) := by
  have hagain : (st.tick first).2.retry = (st.tick first).2 :=
    retry_of_drained (drained_tick first st)
  rw [tick_eq second, hagain, tick_eq first, tick_eq (first + second)]
  dsimp only
  -- the frames that the second tick sends could have been sent before the first one has fetched
  obtain ⟨hcount, hstation⟩ := fetch_send hβ second.transmit first.receive
    (st.retry.send first.transmit).2
  have hsend : st.retry.send (first + second).transmit = _ :=
    send_add first.transmit second.transmit st.retry
  rw [hsend]
  dsimp only
  have hfetch : ((st.retry.send first.transmit).2.send second.transmit).2.fetch
      (first + second).receive = _ := fetch_add hβ first.receive second.receive _
  rw [hfetch, hstation, hcount]
  rfl

/-- Over an echo they do not: a frame that is sent in the same tick can be fetched. -/
example :
    let s := (System.small.run [.writeRegister 0x814 1, .writeMemory 0x20 [7],
      .writeRam 0x48486000 [0, 0x20, 1, 0xE4000001], .writeRegister 0xA00 0x48486000]).2
    let st : Station := ⟨s, .echo [] []⟩
    (st.tick ⟨1, 1⟩).1 = ⟨1, 1⟩ ∧
      (st.tick ⟨0, 1⟩).1 + ((st.tick ⟨0, 1⟩).2.tick ⟨1, 0⟩).1 = ⟨1, 0⟩ := by
  decide +kernel

/-- The counts of a number of ticks together. -/
def total (counts : List PumpCounts) : PumpCounts := counts.foldr (· + ·) ⟨0, 0⟩

/-- **Only the total budget matters**: a number of ticks over a backend whose directions do not meet
come to one tick with all their budgets. -/
theorem ticks_eq_tick (hβ : Backend.Independent β) (budget : PumpBudget) (rounds : Nat)
    (st : Station β) :
    (total (st.ticks budget (rounds + 1)).1, (st.ticks budget (rounds + 1)).2) =
      st.tick ⟨(rounds + 1) * budget.transmit, (rounds + 1) * budget.receive⟩ := by
  induction rounds generalizing st with
  | zero =>
      rw [Nat.zero_add, Nat.one_mul, Nat.one_mul]
      rfl
  | succ rounds ih =>
      have hsplit : (⟨(rounds + 1 + 1) * budget.transmit, (rounds + 1 + 1) * budget.receive⟩ :
          PumpBudget) = budget + ⟨(rounds + 1) * budget.transmit, (rounds + 1) * budget.receive⟩ := by
        rw [Nat.succ_mul (rounds + 1) budget.transmit, Nat.succ_mul (rounds + 1) budget.receive]
        exact congrArg₂ PumpBudget.mk (Nat.add_comm ..) (Nat.add_comm ..)
      rw [hsplit, tick_tick hβ, ← ih]
      rfl

/-- **The budgets of two ticks add up.**  On any station over a pair of frame queues, behind whatever
layers, two ticks lead to the same engine, memory, interrupt history, queues and counters as one tick
with the sum of their budgets, and what they have moved adds up to what it moves. -/
theorem budgets_add_up (st : Station (Wrapped FrameQueue)) (first second : PumpBudget) :
    ((st.tick first).2.tick second).2 = (st.tick (first + second)).2 ∧
      (st.tick first).1 + ((st.tick first).2.tick second).1 = (st.tick (first + second)).1 := by
  rw [tick_tick (Wrapped.independent FrameQueue.independent) first second st]
  exact ⟨rfl, rfl⟩

end Station

end PacketDma
