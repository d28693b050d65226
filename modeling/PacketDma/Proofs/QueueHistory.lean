/-
**A pair of frame queues is two lossless bounded queues.**

A pair of frame queues has two sides: frames go inward from the host to the engine, and outward from
the engine to the host.  The two sides work alike.  A frame that is offered is judged by its length
and by how many frames wait, and counted by its verdict; the accepted frames come out again,
unchanged and in their order.  Neither side knows of the other.

Main definitions:

* `PacketDma.Direction`, `PacketDma.QueueSide` — one side of a pair of frame queues;
* `PacketDma.FrameQueue.verdict` — what becomes of a frame that is offered;
* `PacketDma.Wrapped.admissions` — the frames that a run offers to a side, and their verdicts;
* `PacketDma.QueueReply.released` — the frames that a reply takes out of a side;
* `PacketDma.QueueSide.Accounts` — how a side changes while frames are offered and released.

Main results:

* `PacketDma.Wrapped.accounts_exchange`, `PacketDma.Wrapped.accounts_run` — **what a step, and a run,
  does to a side**;
* `PacketDma.Wrapped.exchange_of_direction_ne` — a step leaves the other side alone;
* `PacketDma.Wrapped.run_filter` — **neither side knows of the other**;
* `PacketDma.Wrapped.frame_queues_are_lossless` — all of this from the beginning on.
-/

import PacketDma.Transport.Wrapped

set_option autoImplicit false

namespace PacketDma

/-- The way that a frame takes. -/
inductive Direction where
  /-- From the host to the engine. -/
  | inward
  /-- From the engine to the host. -/
  | outward
deriving DecidableEq, Repr

/-- What becomes of a frame that is offered. -/
inductive Verdict where
  | accepted
  | full
  | tooLarge
deriving DecidableEq, Repr

/-- One side of a pair of frame queues. -/
structure QueueSide where
  /-- The waiting frames, oldest first. -/
  waiting : List Frame
  /-- How many frames have been offered, by their verdict. -/
  accepted : Nat
  full : Nat
  tooLarge : Nat
  /-- The frames that have been delivered inward, or the bytes that have been accepted outward. -/
  moved : Nat
deriving DecidableEq, Repr

namespace FrameQueue

/-- One side of a pair of frame queues. -/
def side (q : FrameQueue) : Direction → QueueSide
  | .inward =>
      { waiting := q.inbound, accepted := q.stats.injected, full := q.stats.injectFull
        tooLarge := q.stats.injectTooLarge, moved := q.stats.delivered }
  | .outward =>
      { waiting := q.outbound, accepted := q.stats.transmitted, full := q.stats.transmitFull
        tooLarge := q.stats.transmitTooLarge, moved := q.stats.transmittedBytes }

/-- What becomes of a frame while others wait: a frame that is too long is too large, whether or not
there is room for it. -/
def verdict (q : FrameQueue) (waiting : List Frame) (frame : Frame) : Verdict :=
  if q.lengthLimit < frame.length then .tooLarge
  else if q.capacity ≤ waiting.length then .full
  else .accepted

/-- Which frames are accepted. -/
theorem verdict_eq_accepted_iff (q : FrameQueue) (waiting : List Frame) (frame : Frame) :
    q.verdict waiting frame = .accepted ↔
      frame.length ≤ q.lengthLimit ∧ waiting.length < q.capacity := by
  unfold verdict
  split
  · next h => exact iff_of_false (by decide) fun hle => absurd hle.1 (Nat.not_le.2 h)
  · next h =>
      split
      · next hfull => simp [hfull]
      · next hroom => simp [Nat.not_lt.1 h, Nat.not_le.1 hroom]

/-- Why a frame was not injected, by its verdict. -/
def faultOf (q : FrameQueue) (frame : Frame) : Verdict → Option FrameQueueFault
  | .accepted => none
  | .full => some (.full q.capacity)
  | .tooLarge => some (.tooLarge frame.length q.lengthLimit)

end FrameQueue

/-! ### One side -/

/-- The accepted frames among those that have been offered. -/
def accepted (offered : List (Frame × Verdict)) : List Frame :=
  (offered.filter (·.2 = .accepted)).map Prod.fst

theorem accepted_append (first second : List (Frame × Verdict)) :
    accepted (first ++ second) = accepted first ++ accepted second := by
  rw [accepted, List.filter_append, List.map_append]
  rfl

theorem length_accepted (offered : List (Frame × Verdict)) :
    (accepted offered).length = (offered.map Prod.snd).count .accepted := by
  rw [accepted, List.length_map, ← List.countP_eq_length_filter, List.count_eq_countP,
    List.countP_map]
  exact List.countP_congr fun offer _ => by simp

namespace QueueSide

/-- How many frames have been offered with a verdict. -/
def count (side : QueueSide) : Verdict → Nat
  | .accepted => side.accepted
  | .full => side.full
  | .tooLarge => side.tooLarge

/-- A side after a frame has been offered; `moved` counts what an accepted one moves. -/
def offer (side : QueueSide) (frame : Frame) (moved : Nat) : Verdict → QueueSide
  | .accepted =>
      { side with
        waiting := side.waiting ++ [frame]
        accepted := side.accepted + 1
        moved := side.moved + moved }
  | .full => { side with full := side.full + 1 }
  | .tooLarge => { side with tooLarge := side.tooLarge + 1 }

/-- A side after its oldest frames have been released, and `rest` is left. -/
def release (side : QueueSide) (rest : List Frame) (moved : Nat) : QueueSide :=
  { side with waiting := rest, moved := side.moved + moved }

/-- A side changes while frames are offered and others are released. -/
structure Accounts (capacity : Nat) (side after : QueueSide) (offered : List (Frame × Verdict))
    (released : List Frame) (moved : Nat) : Prop where
  frames : released ++ after.waiting = side.waiting ++ PacketDma.accepted offered
  counts : ∀ verdict, after.count verdict = side.count verdict +
    (offered.map Prod.snd).count verdict
  moved : after.moved = side.moved + moved
  bounded : side.waiting.length ≤ capacity → after.waiting.length ≤ capacity

namespace Accounts

variable {capacity moved moved' : Nat} {side middle after : QueueSide}
  {offered offered' : List (Frame × Verdict)} {released released' : List Frame}

theorem refl (capacity : Nat) (side : QueueSide) : Accounts capacity side side [] [] 0 where
  frames := (List.append_nil _).symm
  counts _ := rfl
  moved := rfl
  bounded h := h

theorem trans (h : Accounts capacity side middle offered released moved)
    (h' : Accounts capacity middle after offered' released' moved') :
    Accounts capacity side after (offered ++ offered') (released ++ released') (moved + moved') where
  frames := by
    rw [List.append_assoc, h'.frames, ← List.append_assoc, h.frames, List.append_assoc,
      accepted_append]
  counts verdict := by
    rw [h'.counts, h.counts, List.map_append, List.count_append, Nat.add_assoc]
  moved := by rw [h'.moved, h.moved, Nat.add_assoc]
  bounded hside := h'.bounded (h.bounded hside)

/-- A frame is offered. -/
theorem offer (side : QueueSide) (frame : Frame) (moved : Nat) (verdict : Verdict)
    (hroom : verdict = .accepted → side.waiting.length < capacity) :
    Accounts capacity side (side.offer frame moved verdict) [(frame, verdict)] []
      (if verdict = .accepted then moved else 0) := by
  cases verdict with
  | accepted =>
      refine ⟨rfl, fun verdict => by cases verdict <;> rfl, rfl, fun _ => ?_⟩
      rw [QueueSide.offer, List.length_append]
      exact hroom rfl
  | full =>
      exact ⟨(List.append_nil _).symm, fun verdict => by cases verdict <;> rfl, rfl, fun h => h⟩
  | tooLarge =>
      exact ⟨(List.append_nil _).symm, fun verdict => by cases verdict <;> rfl, rfl, fun h => h⟩

/-- The oldest frames are released. -/
theorem release (side : QueueSide) (moved : Nat) {rest : List Frame}
    (h : released ++ rest = side.waiting) :
    Accounts capacity side (side.release rest moved) [] released moved where
  frames := h.trans (List.append_nil _).symm
  counts verdict := by cases verdict <;> rfl
  moved := rfl
  bounded hside := by
    rw [← h, List.length_append] at hside
    exact Nat.le_trans (Nat.le_add_left ..) hside

end Accounts

end QueueSide

/-! ### Frames that are offered -/

namespace FrameQueue

variable (q : FrameQueue) (frame : Frame)

/-- **A frame that is injected** is offered to the inward side, and the reply tells its verdict. -/
theorem inject_eq :
    let verdict := q.verdict q.inbound frame
    (q.inject frame).1 = q.faultOf frame verdict ∧
      (q.inject frame).2.side .inward = (q.side .inward).offer frame 0 verdict ∧
      (q.inject frame).2.side .outward = q.side .outward ∧
      (q.inject frame).2.capacity = q.capacity ∧
      (q.inject frame).2.lengthLimit = q.lengthLimit := by
  unfold inject verdict
  split
  · exact ⟨rfl, rfl, rfl, rfl, rfl⟩
  · split <;> exact ⟨rfl, rfl, rfl, rfl, rfl⟩

/-- **A frame that is transmitted** is offered to the outward side. -/
theorem transmit_eq :
    let verdict := q.verdict q.outbound frame
    (q.transmit frame).side .outward = (q.side .outward).offer frame frame.length verdict ∧
      (q.transmit frame).side .inward = q.side .inward ∧
      (q.transmit frame).capacity = q.capacity ∧
      (q.transmit frame).lengthLimit = q.lengthLimit := by
  unfold transmit verdict
  split
  · exact ⟨rfl, rfl, rfl, rfl⟩
  · split <;> exact ⟨rfl, rfl, rfl, rfl⟩

/-- **A poll** releases the oldest frame of the inward side. -/
theorem poll_eq :
    q.poll.1 = q.inbound.head? ∧
      q.poll.2.side .inward =
        (q.side .inward).release q.inbound.tail q.inbound.head?.toList.length ∧
      q.poll.2.side .outward = q.side .outward ∧
      q.poll.2.capacity = q.capacity ∧ q.poll.2.lengthLimit = q.lengthLimit := by
  cases h : q.inbound with
  | nil =>
      rw [poll_of_nil h]
      exact ⟨rfl, by simp [side, QueueSide.release, h], rfl, rfl, rfl⟩
  | cons oldest rest =>
      rw [poll_of_cons h]
      exact ⟨rfl, rfl, rfl, rfl, rfl⟩

end FrameQueue

/-! ### Steps and replies -/

/-- The side that a step is about. -/
def QueueStep.direction : QueueStep → Direction
  | .inject _ | .poll => .inward
  | .transmit _ | .collect | .collectAll => .outward

/-- The frame that a step offers, if any. -/
def QueueStep.offered : QueueStep → List Frame
  | .inject frame | .transmit frame => [frame]
  | .poll | .collect | .collectAll => []

namespace QueueReply

/-- The side that a reply is about. -/
def direction : QueueReply → Direction
  | .injected _ | .polled _ => .inward
  | .transmitted | .collected _ => .outward

/-- The frames that a reply takes out of a side. -/
def released (d : Direction) : QueueReply → List Frame
  | .polled frame => if d = .inward then frame.toList else []
  | .collected frames => if d = .outward then frames else []
  | .injected _ | .transmitted => []

/-- What a reply tells about a frame that was to be injected. -/
def faults : QueueReply → List (Option FrameQueueFault)
  | .injected fault => [fault]
  | .polled _ | .transmitted | .collected _ => []

end QueueReply

/-- What the frames on their way through a side move. -/
def Direction.moved (offered : List (Frame × Verdict)) (released : List Frame) : Direction → Nat
  | .inward => released.length
  | .outward => (accepted offered).flatten.length

theorem Direction.moved_append (d : Direction) (offered offered' : List (Frame × Verdict))
    (released released' : List Frame) :
    d.moved (offered ++ offered') (released ++ released') =
      d.moved offered released + d.moved offered' released' := by
  cases d with
  | inward => exact List.length_append
  | outward => rw [moved, accepted_append, List.flatten_append, List.length_append]; rfl

namespace Wrapped

variable {w v : Wrapped FrameQueue} {d : Direction} {step : QueueStep}

/-- The frame that a step offers to a side, and its verdict. -/
def admitted (d : Direction) (w : Wrapped FrameQueue) (step : QueueStep) : List (Frame × Verdict) :=
  if step.direction = d then
    step.offered.map fun frame => (frame, w.backend.verdict (w.backend.side d).waiting frame)
  else []

/-- The frames that a sequence of steps offers to a side, and their verdicts. -/
def admissions (d : Direction) : Wrapped FrameQueue → List QueueStep → List (Frame × Verdict)
  | _, [] => []
  | w, step :: rest => w.admitted d step ++ admissions d (w.exchange step).2 rest

/-- The bounds of the queues, and the layers in front of them, stay as they are. -/
structure SameBounds (w v : Wrapped FrameQueue) : Prop where
  layers : v.layers = w.layers
  capacity : v.backend.capacity = w.backend.capacity
  lengthLimit : v.backend.lengthLimit = w.backend.lengthLimit

theorem SameBounds.trans {u : Wrapped FrameQueue} (h : w.SameBounds v) (h' : v.SameBounds u) :
    w.SameBounds u :=
  ⟨h'.layers.trans h.layers, h'.capacity.trans h.capacity, h'.lengthLimit.trans h.lengthLimit⟩

theorem SameBounds.symm (h : w.SameBounds v) : v.SameBounds w :=
  ⟨h.layers.symm, h.capacity.symm, h.lengthLimit.symm⟩

/-- Within the same bounds a frame gets the same verdict. -/
theorem SameBounds.verdict_eq (h : w.SameBounds v) : v.backend.verdict = w.backend.verdict := by
  funext waiting frame
  rw [FrameQueue.verdict, FrameQueue.verdict, h.capacity, h.lengthLimit]

/-- Within the same bounds a verdict is told alike. -/
theorem SameBounds.faultOf_eq (h : w.SameBounds v) : v.backend.faultOf = w.backend.faultOf := by
  funext frame verdict
  cases verdict with
  | accepted => rfl
  | full => rw [FrameQueue.faultOf, FrameQueue.faultOf, h.capacity]
  | tooLarge => rw [FrameQueue.faultOf, FrameQueue.faultOf, h.lengthLimit]

theorem SameBounds.connected (h : w.SameBounds v) (hw : w.Connected) : v.Connected := by
  unfold Connected
  rw [h.layers]
  exact hw

/-- A poll through layers that are present. -/
theorem exchange_poll (hw : w.Connected) :
    w.exchange .poll = (.polled w.backend.poll.1, { w with backend := w.backend.poll.2 }) := by
  rw [exchange, poll_of_connected hw]
  rfl

/-- A transmission through layers that are present. -/
theorem exchange_transmit (hw : w.Connected) (frame : Frame) :
    w.exchange (.transmit frame) =
      (.transmitted, { w with backend := w.backend.transmit frame }) := by
  rw [exchange, transmit_of_connected hw]
  rfl

/-- No step changes the bounds. -/
theorem sameBounds_exchange (w : Wrapped FrameQueue) (step : QueueStep) :
    w.SameBounds (w.exchange step).2 := by
  cases step with
  | inject frame =>
      obtain ⟨-, -, -, hcapacity, hlimit⟩ := w.backend.inject_eq frame
      exact ⟨rfl, hcapacity, hlimit⟩
  | poll =>
      by_cases hw : w.Connected
      · obtain ⟨-, -, -, hcapacity, hlimit⟩ := w.backend.poll_eq
        rw [exchange_poll hw]
        exact ⟨rfl, hcapacity, hlimit⟩
      · rw [exchange, poll_of_not_connected hw]
        exact ⟨rfl, rfl, rfl⟩
  | transmit frame =>
      by_cases hw : w.Connected
      · obtain ⟨-, -, hcapacity, hlimit⟩ := w.backend.transmit_eq frame
        rw [exchange_transmit hw]
        exact ⟨rfl, hcapacity, hlimit⟩
      · rw [exchange, transmit_of_not_connected hw]
        exact ⟨rfl, rfl, rfl⟩
  | collect => exact ⟨rfl, rfl, rfl⟩
  | collectAll => exact ⟨rfl, rfl, rfl⟩

theorem direction_exchange (w : Wrapped FrameQueue) (step : QueueStep) :
    (w.exchange step).1.direction = step.direction := by
  cases step <;> rfl

/-- **A step leaves the other side alone.** -/
theorem exchange_of_direction_ne (w : Wrapped FrameQueue) (h : step.direction ≠ d) :
    (w.exchange step).2.backend.side d = w.backend.side d := by
  cases step with
  | inject frame =>
      cases d with
      | inward => exact absurd rfl h
      | outward => exact (w.backend.inject_eq frame).2.2.1
  | poll =>
      cases d with
      | inward => exact absurd rfl h
      | outward =>
          by_cases hw : w.Connected
          · rw [exchange_poll hw]
            exact w.backend.poll_eq.2.2.1
          · rw [exchange, poll_of_not_connected hw]
  | transmit frame =>
      cases d with
      | inward =>
          by_cases hw : w.Connected
          · rw [exchange_transmit hw]
            exact (w.backend.transmit_eq frame).2.1
          · rw [exchange, transmit_of_not_connected hw]
      | outward => exact absurd rfl h
  | collect =>
      cases d with
      | inward => rfl
      | outward => exact absurd rfl h
  | collectAll =>
      cases d with
      | inward => rfl
      | outward => exact absurd rfl h

/-- A frame is accepted only while there is room. -/
theorem room_of_accepted (q : FrameQueue) {waiting : List Frame} {frame : Frame} :
    q.verdict waiting frame = .accepted → waiting.length < q.capacity :=
  fun h => ((q.verdict_eq_accepted_iff waiting frame).1 h).2

/-- **What a step does to a side.** -/
theorem accounts_exchange (hw : w.Connected) (d : Direction) (step : QueueStep) :
    let offered := w.admitted d step
    let released := (w.exchange step).1.released d
    (w.backend.side d).Accounts w.backend.capacity ((w.exchange step).2.backend.side d) offered
      released (d.moved offered released) := by
  intro offered released
  by_cases hd : step.direction = d
  · cases step with
    | inject frame =>
        obtain rfl : Direction.inward = d := hd
        have hside := (w.backend.inject_eq frame).2.1
        have h := QueueSide.Accounts.offer (w.backend.side .inward) frame 0
          (w.backend.verdict w.backend.inbound frame) (room_of_accepted w.backend)
        rw [ite_self, ← hside] at h
        exact h
    | poll =>
        obtain rfl : Direction.inward = d := hd
        obtain ⟨hreply, hside, -⟩ := w.backend.poll_eq
        have hfront : w.backend.inbound.head?.toList ++ w.backend.inbound.tail =
            w.backend.inbound := by
          cases w.backend.inbound <;> rfl
        have hreleased : released = w.backend.inbound.head?.toList := by
          simp only [released, exchange_poll hw]
          exact congrArg Option.toList hreply
        have hafter : (w.exchange .poll).2.backend.side .inward = w.backend.poll.2.side .inward := by
          rw [exchange_poll hw]
        rw [hreleased, hafter, hside]
        exact QueueSide.Accounts.release (w.backend.side .inward) _ hfront
    | transmit frame =>
        obtain rfl : Direction.outward = d := hd
        have hside := (w.backend.transmit_eq frame).1
        have h := QueueSide.Accounts.offer (w.backend.side .outward) frame frame.length
          (w.backend.verdict w.backend.outbound frame) (room_of_accepted w.backend)
        have hmoved : Direction.outward.moved offered released =
            if w.backend.verdict w.backend.outbound frame = .accepted then frame.length else 0 := by
          show (accepted [(frame, w.backend.verdict w.backend.outbound frame)]).flatten.length = _
          cases w.backend.verdict w.backend.outbound frame with
          | accepted => exact congrArg List.length (List.append_nil frame)
          | _ => rfl
        have hafter : (w.exchange (.transmit frame)).2.backend.side .outward =
            (w.backend.transmit frame).side .outward := by
          rw [exchange_transmit hw]
        rw [hmoved, hafter, hside]
        exact h
    | collect =>
        obtain rfl : Direction.outward = d := hd
        refine QueueSide.Accounts.release (w.backend.side .outward) 0 ?_
        show w.backend.outbound.head?.toList ++ w.backend.outbound.tail = w.backend.outbound
        cases w.backend.outbound <;> rfl
    | collectAll =>
        obtain rfl : Direction.outward = d := hd
        exact QueueSide.Accounts.release (w.backend.side .outward) 0 (List.append_nil _)
  · have hoffered : offered = [] := if_neg hd
    have hreleased : released = [] := by
      cases step <;> cases d <;> first | rfl | exact absurd rfl hd
    have hmoved : d.moved [] [] = 0 := by cases d <;> rfl
    rw [hoffered, hreleased, hmoved, exchange_of_direction_ne w hd]
    exact .refl ..

/-! ### Runs -/

theorem sameBounds_run (w : Wrapped FrameQueue) (steps : List QueueStep) :
    w.SameBounds (w.run steps).2 := by
  induction steps generalizing w with
  | nil => exact ⟨rfl, rfl, rfl⟩
  | cons step rest ih => exact (w.sameBounds_exchange step).trans (ih _)

/-- **What a run does to a side.** -/
theorem accounts_run (hw : w.Connected) (d : Direction) (steps : List QueueStep) :
    let offered := w.admissions d steps
    let released := (w.run steps).1.flatMap (·.released d)
    (w.backend.side d).Accounts w.backend.capacity ((w.run steps).2.backend.side d) offered
      released (d.moved offered released) := by
  induction steps generalizing w with
  | nil => cases d <;> exact .refl ..
  | cons step rest ih =>
      have hbounds := w.sameBounds_exchange step
      have hrest := ih (hbounds.connected hw)
      rw [hbounds.capacity] at hrest
      have h := (w.accounts_exchange hw d step).trans hrest
      rwa [← Direction.moved_append] at h

/-- The replies of a run tell the verdicts of the frames that were to be injected. -/
theorem faults_run (w : Wrapped FrameQueue) (steps : List QueueStep) :
    (w.run steps).1.flatMap QueueReply.faults =
      (w.admissions .inward steps).map fun offer => w.backend.faultOf offer.1 offer.2 := by
  induction steps generalizing w with
  | nil => rfl
  | cons step rest ih =>
      have hfault := (w.sameBounds_exchange step).faultOf_eq
      have hstep : (w.exchange step).1.faults =
          (w.admitted .inward step).map fun offer => w.backend.faultOf offer.1 offer.2 := by
        cases step with
        | inject frame => exact congrArg ([·]) (w.backend.inject_eq frame).1
        | _ => rfl
      rw [run_cons, List.flatMap_cons, ih, hstep, hfault, admissions, List.map_append]

/-! ### Neither side knows of the other -/

/-- Two pairs of frame queues with the same bounds have one side in common. -/
structure SameSide (d : Direction) (w v : Wrapped FrameQueue) : Prop extends w.SameBounds v where
  side : v.backend.side d = w.backend.side d

/-- What a step does to its own side depends on that side alone. -/
theorem SameSide.exchange (h : w.SameSide d v) (hw : w.Connected) (hd : step.direction = d) :
    (v.exchange step).1 = (w.exchange step).1 ∧
      (w.exchange step).2.SameSide d (v.exchange step).2 := by
  have hwaiting : (v.backend.side d).waiting = (w.backend.side d).waiting :=
    congrArg QueueSide.waiting h.side
  have hbounds : (w.exchange step).2.SameBounds (v.exchange step).2 :=
    ((w.sameBounds_exchange step).symm.trans h.toSameBounds).trans (v.sameBounds_exchange step)
  have hv := h.toSameBounds.connected hw
  cases step with
  | inject frame =>
      obtain rfl : Direction.inward = d := hd
      have hverdict : v.backend.verdict v.backend.inbound frame =
          w.backend.verdict w.backend.inbound frame := by
        rw [h.verdict_eq]
        exact congrArg (w.backend.verdict · frame) hwaiting
      obtain ⟨hreply, hside, -⟩ := w.backend.inject_eq frame
      obtain ⟨hreply', hside', -⟩ := v.backend.inject_eq frame
      rw [hverdict, h.faultOf_eq, ← hreply] at hreply'
      rw [hverdict, h.side, ← hside] at hside'
      exact ⟨congrArg QueueReply.injected hreply', hbounds, hside'⟩
  | poll =>
      obtain rfl : Direction.inward = d := hd
      obtain ⟨hreply, hside, -⟩ := w.backend.poll_eq
      obtain ⟨hreply', hside', -⟩ := v.backend.poll_eq
      have hinbound : v.backend.inbound = w.backend.inbound := hwaiting
      rw [hinbound, ← hreply] at hreply'
      rw [hinbound, h.side, ← hside] at hside'
      rw [exchange_poll hw, exchange_poll hv] at hbounds ⊢
      exact ⟨congrArg QueueReply.polled hreply', hbounds, hside'⟩
  | transmit frame =>
      obtain rfl : Direction.outward = d := hd
      have hverdict : v.backend.verdict v.backend.outbound frame =
          w.backend.verdict w.backend.outbound frame := by
        rw [h.verdict_eq]
        exact congrArg (w.backend.verdict · frame) hwaiting
      have hside := (w.backend.transmit_eq frame).1
      have hside' := (v.backend.transmit_eq frame).1
      rw [hverdict, h.side, ← hside] at hside'
      rw [exchange_transmit hw, exchange_transmit hv] at hbounds ⊢
      exact ⟨rfl, hbounds, hside'⟩
  | collect =>
      obtain rfl : Direction.outward = d := hd
      have hreply : (v.exchange .collect).1 = (w.exchange .collect).1 :=
        congrArg (fun waiting : List Frame => QueueReply.collected waiting.head?.toList) hwaiting
      have hside : (v.exchange .collect).2.backend.side .outward =
          (w.exchange .collect).2.backend.side .outward :=
        congrArg (fun side : QueueSide => { side with waiting := side.waiting.tail }) h.side
      exact ⟨hreply, hbounds, hside⟩
  | collectAll =>
      obtain rfl : Direction.outward = d := hd
      have hside : (v.exchange .collectAll).2.backend.side .outward =
          (w.exchange .collectAll).2.backend.side .outward :=
        congrArg (fun side : QueueSide => { side with waiting := [] }) h.side
      exact ⟨congrArg QueueReply.collected hwaiting, hbounds, hside⟩

/-- **Neither side knows of the other**: without the steps of the other side, a side gives the same
replies and ends in the same state. -/
theorem run_filter (hw : w.Connected) (h : w.SameSide d v) (steps : List QueueStep) :
    (v.run (steps.filter (·.direction = d))).1 = (w.run steps).1.filter (·.direction = d) ∧
      (w.run steps).2.SameSide d (v.run (steps.filter (·.direction = d))).2 := by
  induction steps generalizing w v with
  | nil => exact ⟨rfl, h⟩
  | cons step rest ih =>
      have hconnected := (w.sameBounds_exchange step).connected hw
      have hdirection := w.direction_exchange step
      by_cases hd : step.direction = d
      · obtain ⟨hreply, hnext⟩ := h.exchange hw hd
        obtain ⟨hreplies, hlast⟩ := ih hconnected hnext
        rw [List.filter_cons_of_pos (by simpa using hd), run_cons, run_cons,
          List.filter_cons_of_pos (by simpa [hdirection] using hd), hreply, hreplies]
        exact ⟨rfl, hlast⟩
      · have hnext : (w.exchange step).2.SameSide d v :=
          ⟨(w.sameBounds_exchange step).symm.trans h.toSameBounds,
            h.side.trans (exchange_of_direction_ne w hd).symm⟩
        rw [List.filter_cons_of_neg (by simpa using hd), run_cons,
          List.filter_cons_of_neg (by simpa [hdirection] using hd)]
        exact ih hconnected hnext

/-! ### From the beginning on -/

/-- **A pair of frame queues is two lossless bounded queues.**  Host and engine take any steps, in any
order, on a pair of frame queues with any bounds, behind any layers that are present.

Then the frames that the engine has polled, and behind them the frames that wait inward, are the
accepted injected frames; and the frames that the host has collected, and behind them the frames that
wait outward, are the accepted transmitted ones.  A frame is accepted exactly if its length and the
number of waiting frames allow it.  Each of the six counters of frames that have been offered counts
one verdict, and the replies to the host tell the same verdicts.  The other counters, and the bound of
the queues, follow.  A poll answers with the oldest frame that waits inward, and the host gets the
oldest frame that waits outward, or all of them.  And without the steps of one side, the other side
gives the same replies and ends in the same state. -/
theorem frame_queues_are_lossless (layers : List Layer) (hlayers : Layer.absent ∉ layers)
    (capacity lengthLimit : Nat) (steps : List QueueStep) :
    let w : Wrapped FrameQueue := ⟨layers, { capacity, lengthLimit }⟩
    let replies := (w.run steps).1
    let after := (w.run steps).2
    let q := after.backend
    let delivered := replies.flatMap (·.released .inward)
    let collected := replies.flatMap (·.released .outward)
    let sent := accepted (w.admissions .outward steps)
    (delivered ++ q.inbound = accepted (w.admissions .inward steps) ∧
      collected ++ q.outbound = sent) ∧
    (∀ d frame, q.verdict (q.side d).waiting frame = .accepted ↔
      frame.length ≤ lengthLimit ∧ (q.side d).waiting.length < capacity) ∧
    (∀ d verdict, (q.side d).count verdict =
      ((w.admissions d steps).map Prod.snd).count verdict) ∧
    replies.flatMap QueueReply.faults =
      (w.admissions .inward steps).map (fun offer => w.backend.faultOf offer.1 offer.2) ∧
    (q.stats.delivered = delivered.length ∧
      q.stats.injected = q.stats.delivered + q.inbound.length ∧ q.inbound.length ≤ capacity) ∧
    (q.stats.transmitted = collected.length + q.outbound.length ∧ q.outbound.length ≤ capacity ∧
      q.stats.transmittedBytes = sent.flatten.length) ∧
    ((after.exchange .poll).1 = .polled q.inbound.head? ∧
      (after.exchange .collect).1 = .collected q.outbound.head?.toList ∧
      (after.exchange .collectAll).1 = .collected q.outbound) ∧
    ∀ d, let alone := w.run (steps.filter (·.direction = d))
      alone.1 = replies.filter (·.direction = d) ∧ alone.2.backend.side d = q.side d := by
  intro w replies after q delivered collected sent
  have hw : w.Connected := hlayers
  have hbounds : w.SameBounds after := w.sameBounds_run steps
  have hside : ∀ d, (w.backend.side d).Accounts capacity (q.side d) (w.admissions d steps)
      (replies.flatMap (·.released d))
      (d.moved (w.admissions d steps) (replies.flatMap (·.released d))) :=
    fun d => accounts_run hw d steps
  have hempty : ∀ d, (w.backend.side d).waiting = [] := by
    intro d
    cases d <;> rfl
  have hframes : ∀ d, replies.flatMap (·.released d) ++ (q.side d).waiting =
      accepted (w.admissions d steps) := by
    intro d
    rw [(hside d).frames, hempty]
    rfl
  have hcounts : ∀ d verdict, (q.side d).count verdict =
      ((w.admissions d steps).map Prod.snd).count verdict := by
    intro d verdict
    have hzero : (w.backend.side d).count verdict = 0 := by cases d <;> cases verdict <;> rfl
    rw [(hside d).counts, hzero, Nat.zero_add]
  have hbounded : ∀ d, (q.side d).waiting.length ≤ capacity := by
    intro d
    refine (hside d).bounded ?_
    rw [hempty]
    exact Nat.zero_le _
  have htotal : ∀ d, (q.side d).accepted =
      (replies.flatMap (·.released d)).length + (q.side d).waiting.length := by
    intro d
    rw [← List.length_append, hframes, length_accepted, ← hcounts]
    rfl
  have hmoved : ∀ d, (q.side d).moved =
      d.moved (w.admissions d steps) (replies.flatMap (·.released d)) := by
    intro d
    have hzero : (w.backend.side d).moved = 0 := by cases d <;> rfl
    rw [(hside d).moved, hzero, Nat.zero_add]
  have hdelivered : q.stats.delivered = delivered.length := hmoved .inward
  refine ⟨⟨hframes .inward, hframes .outward⟩, ?_, hcounts, w.faults_run steps,
    ⟨hdelivered, hdelivered ▸ htotal .inward, hbounded .inward⟩,
    ⟨htotal .outward, hbounded .outward, hmoved .outward⟩, ⟨?_, rfl, rfl⟩, ?_⟩
  · intro d frame
    have hverdict := q.verdict_eq_accepted_iff (q.side d).waiting frame
    rw [hbounds.lengthLimit, hbounds.capacity] at hverdict
    exact hverdict
  · rw [exchange_poll (hbounds.connected hw)]
    exact congrArg QueueReply.polled q.poll_eq.1
  · intro d
    have hself : w.SameSide d w := ⟨⟨rfl, rfl, rfl⟩, rfl⟩
    obtain ⟨hreplies, hlast⟩ := run_filter hw hself steps
    exact ⟨hreplies, hlast.side⟩

/-- Behind a box and an optional backend that is there, a queue for one frame of two bytes: a frame
that is too long and one that finds the queue full are told apart, and the other one arrives. -/
theorem one_frame_fits :
    let w : Wrapped FrameQueue := ⟨[.reference, .present], { capacity := 1, lengthLimit := 2 }⟩
    let steps : List QueueStep :=
      [.inject [1, 2, 3], .inject [4], .transmit [5], .inject [6, 7], .poll, .collect]
    Layer.absent ∉ w.layers ∧
      (w.run steps).1.flatMap (·.released .inward) ++ (w.run steps).2.backend.inbound =
        accepted (w.admissions .inward steps) ∧
      accepted (w.admissions .inward steps) = [[4]] ∧
      (w.run steps).1.flatMap QueueReply.faults =
        [some (.tooLarge 3 2), none, some (.full 1)] := by
  intro w steps
  have hlayers : Layer.absent ∉ w.layers := by decide
  obtain ⟨⟨hframes, -⟩, -⟩ := frame_queues_are_lossless w.layers hlayers 1 2 steps
  exact ⟨hlayers, hframes, by decide, by decide⟩

end Wrapped

end PacketDma
