/-
**Which transmitted frames reach the host.**

Three bounds meet on the way of a transmitted frame: a descriptor says the length of a packet in
eleven bits, the engine puts a check sequence of four bytes behind the packet unless the data brings
its own, and the frame queues behind the pump refuse what is longer than their limit.  A frame that
the engine emits has up to 2051 bytes, and so a limit of that many bytes loses none.  The limit that
frame queues have by default lies three bytes below.

Main definitions:

* `PacketDma.QueueSide.offerAll` — one side of frame queues with room for all frames that it is
  offered.

Main results:

* `PacketDma.FrameQueue.side_foldl_transmit` — with room, exactly the frames within the limit wait
  for the host;
* `PacketDma.Engine.length_outgoing_of_gather` — how long an emitted frame is;
* `PacketDma.Engine.default_lt_length_outgoing_iff` — which of them the default limit refuses;
* `PacketDma.Station.tick_delivers_frames_within_limit` — **a tick delivers the frames within the
  limit, and a limit of 2051 bytes loses none**;
* `PacketDma.Station.default_limit_loses_a_frame` — the default limit loses a frame.
-/

import PacketDma.Proofs.Consistency
import PacketDma.Proofs.PumpAccounts
import PacketDma.Proofs.QueueHistory

set_option autoImplicit false

namespace PacketDma

/-! ### Frame queues with room -/

/-- One side of frame queues with room for all `frames` that it is offered: those that are not
longer than `limit` wait, and the others are counted. -/
def QueueSide.offerAll (side : QueueSide) (limit : Nat) (frames : List Frame) : QueueSide :=
  let kept := frames.filter fun frame => decide (frame.length ≤ limit)
  { side with
    waiting := side.waiting ++ kept
    accepted := side.accepted + kept.length
    tooLarge := side.tooLarge + frames.countP fun frame => decide (limit < frame.length)
    moved := side.moved + (kept.map List.length).sum }

namespace FrameQueue

/-- **With room for all of them, exactly the frames within the limit wait for the host.** -/
theorem side_foldl_transmit (frames : List Frame) (q : FrameQueue)
    (hroom : q.outbound.length + frames.length ≤ q.capacity) :
    (frames.foldl transmit q).side .outward = (q.side .outward).offerAll q.lengthLimit frames := by
  induction frames generalizing q with
  | nil => simp [QueueSide.offerAll]
  | cons frame rest ih =>
      obtain ⟨hside, -, hcapacity, hlimit⟩ := q.transmit_eq frame
      rw [List.length_cons] at hroom
      have houtbound : (q.transmit frame).outbound.length ≤ q.outbound.length + 1 := by
        have hwaiting := congrArg QueueSide.waiting hside
        rw [show (q.transmit frame).outbound = _ from hwaiting]
        cases q.verdict q.outbound frame <;> simp [QueueSide.offer, side]
      rw [List.foldl_cons, ih (q.transmit frame) (by rw [hcapacity]; omega), hside, hlimit]
      by_cases hlong : q.lengthLimit < frame.length
      · have hverdict : q.verdict q.outbound frame = .tooLarge := if_pos hlong
        rw [hverdict]
        simp [QueueSide.offerAll, QueueSide.offer, hlong, Nat.not_le.2 hlong, Nat.add_assoc,
          Nat.add_comm 1]
      · have hverdict : q.verdict q.outbound frame = .accepted :=
          (q.verdict_eq_accepted_iff _ _).2 ⟨Nat.not_lt.1 hlong, by omega⟩
        rw [hverdict]
        simp [QueueSide.offerAll, QueueSide.offer, hlong, Nat.not_lt.1 hlong, Nat.add_assoc,
          Nat.add_comm 1]

/-- Polling does not touch the frames that wait for the host. -/
theorem side_afterPolls (q : FrameQueue) (n : Nat) :
    (Backend.afterPolls q n).side .outward = q.side .outward := by
  induction n with
  | zero => rfl
  | succ n ih =>
      obtain ⟨-, -, hside, -⟩ := (Backend.afterPolls q n).poll_eq
      exact hside.trans ih

end FrameQueue

/-! ### The frames of the engine -/

/-- **A reachable engine is consistent.** -/
theorem System.Reachable.consistent {s : System} (h : s.Reachable) : s.engine.Consistent := by
  induction h with
  | fresh settings clock interrupt memory => exact .fresh settings clock interrupt
  | step h op ih =>
      rw [System.perform_eq_act]
      exact ih.act op.possible_action

/-- **How long an emitted frame is**: as long as its packet, and four bytes longer unless the data
brings its check sequence. -/
theorem Engine.length_outgoing_of_gather {ram : Aperture} {memory : Memory} {channel : Nat}
    {head : UInt32} {limit : Nat} {g : Gathered} (h : gather ram memory channel head limit = .ok g) :
    (outgoing g).length =
      g.first.packetLength.toNat + if g.first.has Status.passCrc then 0 else 4 := by
  obtain ⟨-, hwalk, -, -⟩ := gather_eq_ok_iff.1 h
  have hlength : g.frame.length = g.first.packetLength.toNat := hwalk.length_frame
  unfold outgoing
  split
  · rw [hlength, Nat.add_zero]
  · rw [Frame.length_withFcs, hlength]

/-- **Which emitted frames the default limit refuses**: those of the three longest packets, if they
get a check sequence. -/
theorem Engine.default_lt_length_outgoing_iff {ram : Aperture} {memory : Memory} {channel : Nat}
    {head : UInt32} {limit : Nat} {g : Gathered} (h : gather ram memory channel head limit = .ok g) :
    ({} : FrameQueue).lengthLimit < (outgoing g).length ↔
      g.first.has Status.passCrc = false ∧ 2045 ≤ g.first.packetLength.toNat := by
  have hbound : g.frame.length ≤ maxPacketLength := (length_of_gather h).2
  obtain ⟨-, hwalk, -, -⟩ := gather_eq_ok_iff.1 h
  have hlength : g.frame.length = g.first.packetLength.toNat := hwalk.length_frame
  have hmax : maxPacketLength = 2047 := rfl
  have hdefault : ({} : FrameQueue).lengthLimit = 2048 := rfl
  rw [hdefault, length_outgoing_of_gather h]
  cases g.first.has Status.passCrc <;> simp <;> omega

/-! ### A tick -/

namespace Station

/-- **A tick delivers the frames within the limit, and a limit of 2051 bytes loses none.**  If the
frame queues have room for the frames that wait to be sent, and the budget is as large, then after a
tick the host finds those of them that are not longer than the limit, unchanged and in their order,
behind the frames that it has not collected before.  The others are counted as too large.  No frame
that waits to be sent is empty or longer than 2051 bytes, and so nothing is lost where the limit is
as large as that; of the frames that a chain can hold, the default limit refuses those of 2045 bytes
and more that get a check sequence. -/
theorem tick_delivers_frames_within_limit (st : Station FrameQueue) (budget : PumpBudget)
    (hreach : ∃ memory, System.Reachable ⟨st.system.engine, memory⟩)
    (hroom : st.link.outbound.length + st.system.engine.egress.length ≤ st.link.capacity)
    (hbudget : st.system.engine.egress.length ≤ budget.transmit) :
    let frames := st.system.engine.egress
    let limit := st.link.lengthLimit
    let after := (st.tick budget).2.link
    after.collectAll.1 =
      st.link.outbound ++ frames.filter (fun frame => decide (frame.length ≤ limit)) ∧
    after.stats.transmitFull = st.link.stats.transmitFull ∧
    after.stats.transmitTooLarge = st.link.stats.transmitTooLarge +
      frames.countP (fun frame => decide (limit < frame.length)) ∧
    (∀ frame ∈ frames, 0 < frame.length ∧ frame.length ≤ 2051) ∧
    (2051 ≤ limit → after.collectAll.1 = st.link.outbound ++ frames ∧
      after.stats.transmitTooLarge = st.link.stats.transmitTooLarge) ∧
    ∀ channel head g,
      gather st.system.engine.ram st.system.memory channel head
        st.system.engine.settings.walkLimit = .ok g →
      (({} : FrameQueue).lengthLimit < (Engine.outgoing g).length ↔
        g.first.has Status.passCrc = false ∧ 2045 ≤ g.first.packetLength.toNat) := by
  intro frames limit after
  obtain ⟨memory, hreach⟩ := hreach
  have hlengths : ∀ frame ∈ frames, 0 < frame.length ∧ frame.length ≤ 2051 :=
    hreach.consistent.egressLength
  -- the frames are offered one after the other, and the polls that follow leave their side alone
  have hside : after.side .outward = (st.link.side .outward).offerAll limit frames := by
    obtain ⟨_, calls, -, htick⟩ := exists_tick st budget
    have hlink : after = Backend.afterPolls (frames.foldl FrameQueue.transmit st.link) calls := by
      have hall : frames.take budget.transmit = frames := List.take_of_length_le hbudget
      have hafter := congrArg (fun tick => tick.2.link) htick
      dsimp only at hafter
      rw [hall] at hafter
      exact hafter
    rw [hlink, FrameQueue.side_afterPolls]
    exact FrameQueue.side_foldl_transmit frames st.link hroom
  have hcollected : after.collectAll.1 =
      st.link.outbound ++ frames.filter fun frame => decide (frame.length ≤ limit) :=
    congrArg QueueSide.waiting hside
  have htooLarge : after.stats.transmitTooLarge = st.link.stats.transmitTooLarge +
      frames.countP fun frame => decide (limit < frame.length) :=
    congrArg QueueSide.tooLarge hside
  refine ⟨hcollected, congrArg QueueSide.full hside, htooLarge, hlengths, ?_,
    fun _ _ _ hgather => Engine.default_lt_length_outgoing_iff hgather⟩
  intro hlimit
  have hfits : ∀ frame ∈ frames, frame.length ≤ limit := fun frame hframe =>
    Nat.le_trans (hlengths frame hframe).2 hlimit
  constructor
  · rw [hcollected, List.filter_eq_self.2 fun frame hframe => decide_eq_true (hfits frame hframe)]
  · have hnone : frames.countP (fun frame => decide (limit < frame.length)) = 0 :=
      List.countP_eq_zero.2 fun frame hframe => by simpa using hfits frame hframe
    rw [htooLarge, hnone, Nat.add_zero]

/-- A byte is sent, and a tick delivers it to the host with its check sequence behind it. -/
theorem tick_delivers_a_byte :
    let s := (System.small.run [.writeMemory 0x20 [7],
      .writeRam 0x48486000 [0, 0x20, 1, 0xE0000001], .writeRegister 0xA00 0x48486000]).2
    let st : Station FrameQueue := ⟨s, {}⟩
    (∃ memory, System.Reachable ⟨s.engine, memory⟩) ∧
    st.link.outbound.length + s.engine.egress.length ≤ st.link.capacity ∧
    (st.tick {}).2.link.collectAll.1 = [Frame.withFcs [7]] := by
  intro s st
  have hreach : s.Reachable := (System.Reachable.fresh ..).run _
  have hegress : s.engine.egress = [Frame.withFcs [7]] := by decide +kernel
  clear_value s
  have hmemory : ∃ memory, System.Reachable ⟨s.engine, memory⟩ := ⟨s.memory, hreach⟩
  have hone : s.engine.egress.length = 1 := congrArg List.length hegress
  have hroom : st.link.outbound.length + s.engine.egress.length ≤ st.link.capacity := by
    rw [hone]
    exact (by decide : 0 + 1 ≤ 1024)
  have hbudget : s.engine.egress.length ≤ ({} : PumpBudget).transmit := by
    rw [hone]
    decide
  have hdelivered := (tick_delivers_frames_within_limit st {} hmemory hroom hbudget).1
  refine ⟨hmemory, hroom, hdelivered.trans ?_⟩
  show [] ++ s.engine.egress.filter (fun frame => decide (frame.length ≤ 2048)) = _
  rw [hegress]
  decide +kernel

/-- **The default limit loses a frame.**  A packet of 2045 bytes and its check sequence are one byte
too long: the frame queues have room, the budget suffices, the frame leaves the egress queue, and
the host does not get it. -/
theorem default_limit_loses_a_frame :
    let s := (System.small.run
      [.writeRam 0x48486000 [0, 0, 2045, 0xE00007FD], .writeRegister 0xA00 0x48486000]).2
    let st : Station FrameQueue := ⟨s, {}⟩
    let tick := st.tick {}
    (∃ memory, System.Reachable ⟨s.engine, memory⟩) ∧
    st.link.outbound.length + s.engine.egress.length ≤ st.link.capacity ∧
    s.engine.egress.length ≤ ({} : PumpBudget).transmit ∧
    s.engine.egress.map List.length = [2049] ∧
    tick.1.transmitted = 1 ∧ tick.2.system.engine.egress = [] ∧
    tick.2.link.collectAll.1 ≠ st.link.outbound ++ s.engine.egress ∧
    tick.2.link.stats.transmitTooLarge ≠ st.link.stats.transmitTooLarge := by
  intro s st tick
  have hreach : s.Reachable := (System.Reachable.fresh ..).run _
  refine ⟨⟨s.memory, hreach⟩, ?_⟩
  decide +kernel

end Station

end PacketDma
