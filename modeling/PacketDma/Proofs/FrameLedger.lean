/-
**The ledger of frames.**

A ledger is kept beside a system.  It numbers the frames in the order in which they are offered,
and notes for each frame that has left the queue which frame it was and what has become of it.
The counters of the engine only say how many frames have met which fate; the ledger says which
ones, and shows that the queue is served in order.

Main definitions:

* `PacketDma.Fate` — what can become of a frame;
* `PacketDma.Ledger` — the frames offered, settled and waiting;
* `PacketDma.Tally` — what the engine itself knows about them;
* `PacketDma.Ledger.Balanced` — the ledger agrees with the tally;
* `PacketDma.Ledger.settleAll` — frames leave the queue.

Main results:

* `PacketDma.Ledger.Balanced.refuse`, `PacketDma.Ledger.Balanced.accept`,
  `PacketDma.Ledger.Balanced.settle` — an entry that matches the tally keeps the balance;
* `PacketDma.Ledger.Balanced.length_offered` — the balance of a ledger.
-/

import PacketDma.Fault
import PacketDma.Frame.Basic

set_option autoImplicit false

namespace PacketDma

/-! ### Ledgers -/

/-- What becomes of an offered frame that does not wait any more. -/
inductive Fate where
  /-- It was not taken into the queue. -/
  | refused
  /-- It was written into its ring. -/
  | received
  /-- Its ring had no descriptors for it. -/
  | overrun
  /-- A descriptor or a buffer lay outside its memory. -/
  | failed
  /-- It was waiting when the DMA engine was reset. -/
  | discarded
deriving DecidableEq, Repr

/-- What a fill means for its frame. -/
def Fate.ofFill : Option DmaFault → Fate
  | none => .received
  | some (.overrun ..) | some (.ringExhausted ..) => .overrun
  | some _ => .failed

/-- An offered frame and what has become of it. -/
structure Settlement where
  number : Nat
  frame : InboundFrame
  fate : Fate
deriving DecidableEq, Repr

/-- The frames that have been offered to a system. -/
structure Ledger where
  /-- All of them, in the order in which they were offered; this order numbers them. -/
  offered : List InboundFrame := []
  /-- Those that do not wait any more, in the order in which they were settled. -/
  settled : List Settlement := []
  /-- The numbers of those that wait, oldest first. -/
  waiting : List Nat := []
deriving DecidableEq, Repr

namespace Ledger

/-- A frame is offered and refused. -/
def refuse (l : Ledger) (frame : InboundFrame) : Ledger :=
  { l with
    offered := l.offered ++ [frame]
    settled := l.settled ++ [⟨l.offered.length, frame, .refused⟩] }

/-- A frame is offered and waits. -/
def accept (l : Ledger) (frame : InboundFrame) : Ledger :=
  { l with
    offered := l.offered ++ [frame]
    waiting := l.waiting ++ [l.offered.length] }

/-- The oldest waiting number is settled as a frame with a fate. -/
def settle (l : Ledger) (frame : InboundFrame) (fate : Fate) : Ledger :=
  match l.waiting with
  | [] => l
  | number :: rest =>
      { l with
        settled := l.settled ++ [⟨number, frame, fate⟩]
        waiting := rest }

/-- Settles frames one after the other. -/
def settleAll (l : Ledger) (log : List (InboundFrame × Fate)) : Ledger :=
  log.foldl (fun l entry => l.settle entry.1 entry.2) l

/-- How many frames have met a fate. -/
def count (l : Ledger) (fate : Fate) : Nat := l.settled.countP (·.fate = fate)

/-- The numbers of the frames that have been in the queue and have left it, in the order in which
they left. -/
def departed (l : Ledger) : List Nat := (l.settled.filter (·.fate ≠ .refused)).map (·.number)

end Ledger

/-! ### Balance -/

/-- What the engine knows about the frames offered to it: those that wait, and four counts. -/
structure Tally where
  waiting : List InboundFrame
  refused : Nat
  received : Nat
  overruns : Nat
  errors : Nat
deriving DecidableEq, Repr

/-- The tally after a frame has left the queue. -/
def Tally.settle (t : Tally) (rest : List InboundFrame) : Fate → Tally
  | .refused => { t with waiting := rest, refused := t.refused + 1 }
  | .received => { t with waiting := rest, received := t.received + 1 }
  | .overrun => { t with waiting := rest, overruns := t.overruns + 1 }
  | .failed => { t with waiting := rest, errors := t.errors + 1 }
  | .discarded => { t with waiting := rest }

@[simp] theorem Tally.waiting_settle (t : Tally) (rest : List InboundFrame) (fate : Fate) :
    (t.settle rest fate).waiting = rest := by
  cases fate <;> rfl

namespace Ledger

/-- **The ledger agrees with the tally of the engine.** -/
structure Balanced (l : Ledger) (t : Tally) : Prop where
  /-- The waiting numbers stand for the waiting frames. -/
  waiting : l.waiting.map (l.offered[·]?) = t.waiting.map some
  /-- A frame is settled under its own number. -/
  settled : ∀ x ∈ l.settled, l.offered[x.number]? = some x.frame
  /-- Every number is settled once or waits once. -/
  partition : (l.settled.map (·.number) ++ l.waiting).Perm (List.range l.offered.length)
  /-- Frames leave the queue in the order in which they were offered. -/
  order : (l.departed ++ l.waiting).Pairwise (· < ·)
  refused : t.refused = l.count .refused
  received : t.received = l.count .received
  overruns : t.overruns = l.count .overrun
  errors : t.errors = l.count .failed

theorem balanced_empty : ({} : Ledger).Balanced ⟨[], 0, 0, 0, 0⟩ where
  waiting := rfl
  settled := fun _ hx => absurd hx List.not_mem_nil
  partition := .refl _
  order := .nil
  refused := rfl
  received := rfl
  overruns := rfl
  errors := rfl

/-- Every settled frame has met one of the five fates. -/
theorem length_settled (l : Ledger) :
    l.settled.length = l.count .refused + l.count .received + l.count .overrun +
      l.count .failed + l.count .discarded := by
  unfold count
  induction l.settled with
  | nil => rfl
  | cons x rest ih =>
      rw [List.length_cons, ih]
      cases hfate : x.fate <;> simp [hfate] <;> omega

theorem count_refuse (l : Ledger) (frame : InboundFrame) (fate : Fate) :
    (l.refuse frame).count fate = l.count fate + if .refused = fate then 1 else 0 := by
  simp [count, refuse, List.countP_append, List.countP_singleton]

theorem settle_of_waiting {l : Ledger} {number : Nat} {rest : List Nat}
    (h : l.waiting = number :: rest) (frame : InboundFrame) (fate : Fate) :
    l.settle frame fate =
      { l with settled := l.settled ++ [⟨number, frame, fate⟩], waiting := rest } := by
  rw [settle, h]

theorem count_settle {l : Ledger} {number : Nat} {rest : List Nat}
    (h : l.waiting = number :: rest) (frame : InboundFrame) (fate other : Fate) :
    (l.settle frame fate).count other = l.count other + if fate = other then 1 else 0 := by
  simp [count, settle_of_waiting h, List.countP_append, List.countP_singleton]

theorem offered_settle (l : Ledger) (frame : InboundFrame) (fate : Fate) :
    (l.settle frame fate).offered = l.offered := by
  unfold settle
  split <;> rfl

theorem offered_settleAll (l : Ledger) (log : List (InboundFrame × Fate)) :
    (l.settleAll log).offered = l.offered := by
  induction log generalizing l with
  | nil => rfl
  | cons entry rest ih => exact (ih _).trans (l.offered_settle ..)

/-- What is settled stays settled. -/
theorem settled_prefix_settleAll (l : Ledger) (log : List (InboundFrame × Fate)) :
    l.settled <+: (l.settleAll log).settled := by
  induction log generalizing l with
  | nil => exact List.prefix_rfl
  | cons entry rest ih =>
      refine List.IsPrefix.trans ?_ (ih (l.settle entry.1 entry.2))
      cases hwaiting : l.waiting with
      | nil =>
          have hsame : l.settle entry.1 entry.2 = l := by rw [settle, hwaiting]
          exact hsame.symm ▸ List.prefix_rfl
      | cons number numbers =>
          rw [settle_of_waiting hwaiting]
          exact List.prefix_append ..

/-- Frames with other fates do not change a count. -/
theorem count_settleAll_of_ne {fate : Fate} (l : Ledger) (log : List (InboundFrame × Fate))
    (h : ∀ entry ∈ log, entry.2 ≠ fate) : (l.settleAll log).count fate = l.count fate := by
  induction log generalizing l with
  | nil => rfl
  | cons entry rest ih =>
      have hrest := ih (l.settle entry.1 entry.2) fun other hother =>
        h other (List.mem_cons_of_mem _ hother)
      refine hrest.trans ?_
      cases hwaiting : l.waiting with
      | nil => rw [settle, hwaiting]
      | cons number numbers =>
          rw [count_settle hwaiting, if_neg (h entry (List.mem_cons_self ..)), Nat.add_zero]

theorem departed_settle {l : Ledger} {number : Nat} {rest : List Nat}
    (h : l.waiting = number :: rest) (frame : InboundFrame) {fate : Fate}
    (hfate : fate ≠ .refused) :
    (l.settle frame fate).departed = l.departed ++ [number] := by
  simp [departed, settle_of_waiting h, List.filter_append, hfate]

namespace Balanced

variable {l : Ledger} {t : Tally}

theorem lt_length (h : l.Balanced t) {number : Nat}
    (hmem : number ∈ l.settled.map (·.number) ++ l.waiting) : number < l.offered.length :=
  List.mem_range.1 (h.partition.mem_iff.1 hmem)

/-- An offer does not change what the older numbers stand for. -/
theorem getElem?_offer (h : l.Balanced t) (frame : InboundFrame) {number : Nat}
    (hmem : number ∈ l.settled.map (·.number) ++ l.waiting) :
    (l.offered ++ [frame])[number]? = l.offered[number]? :=
  List.getElem?_append_left (h.lt_length hmem)

theorem length_waiting (h : l.Balanced t) : l.waiting.length = t.waiting.length := by
  have hlength := congrArg List.length h.waiting
  rwa [List.length_map, List.length_map] at hlength

/-- **The balance of a ledger.** -/
theorem length_offered (h : l.Balanced t) :
    l.offered.length = t.refused + t.received + t.overruns + t.errors + t.waiting.length +
      l.count .discarded := by
  have hlength := h.partition.length_eq
  rw [List.length_append, List.length_map, List.length_range, l.length_settled] at hlength
  rw [h.refused, h.received, h.overruns, h.errors, ← h.length_waiting]
  omega

/-- The numbers that have departed are settled. -/
theorem mem_of_mem_departed {number : Nat} (hmem : number ∈ l.departed) :
    number ∈ l.settled.map (·.number) := by
  obtain ⟨x, hx, rfl⟩ := List.mem_map.1 hmem
  exact List.mem_map_of_mem (List.mem_filter.1 hx).1

theorem refuse (h : l.Balanced t) (frame : InboundFrame) :
    (l.refuse frame).Balanced { t with refused := t.refused + 1 } where
  waiting := by
    rw [← h.waiting]
    refine List.map_congr_left fun number hnumber => ?_
    exact h.getElem?_offer frame (List.mem_append_right _ hnumber)
  settled := by
    intro x hx
    rcases List.mem_append.1 hx with hx | hx
    · rw [← h.settled x hx]
      exact h.getElem?_offer frame (List.mem_append_left _ (List.mem_map_of_mem hx))
    · rw [List.mem_singleton.1 hx]
      exact List.getElem?_concat_length
  partition := by
    -- the new number is the next one, and it is settled before any that waits
    have hnext := h.partition.append_right [l.offered.length]
    rw [← List.range_succ] at hnext
    simp only [Ledger.refuse, List.map_append, List.map_cons, List.map_nil, List.length_append,
      List.length_cons, List.length_nil]
    refine List.Perm.trans ?_ hnext
    rw [List.append_assoc, List.append_assoc]
    exact List.perm_append_comm.append_left _
  order := by
    have hdeparted : (l.refuse frame).departed = l.departed := by
      simp [departed, Ledger.refuse, List.filter_append]
    rw [hdeparted]
    exact h.order
  refused := by rw [count_refuse, if_pos rfl, h.refused]
  received := by rw [count_refuse, if_neg (by decide), h.received, Nat.add_zero]
  overruns := by rw [count_refuse, if_neg (by decide), h.overruns, Nat.add_zero]
  errors := by rw [count_refuse, if_neg (by decide), h.errors, Nat.add_zero]

theorem accept (h : l.Balanced t) (frame : InboundFrame) :
    (l.accept frame).Balanced { t with waiting := t.waiting ++ [frame] } where
  waiting := by
    simp only [Ledger.accept, List.map_append, List.map_cons, List.map_nil, ← h.waiting,
      List.getElem?_concat_length]
    congr 1
    refine List.map_congr_left fun number hnumber => ?_
    exact h.getElem?_offer frame (List.mem_append_right _ hnumber)
  settled := by
    intro x hx
    rw [← h.settled x hx]
    exact h.getElem?_offer frame (List.mem_append_left _ (List.mem_map_of_mem hx))
  partition := by
    have hnext := h.partition.append_right [l.offered.length]
    rw [← List.range_succ] at hnext
    simp only [Ledger.accept, List.length_append, List.length_cons, List.length_nil]
    rw [← List.append_assoc]
    exact hnext
  order := by
    show (l.departed ++ (l.waiting ++ [l.offered.length])).Pairwise (· < ·)
    -- the new number is greater than every number that has been given out
    rw [← List.append_assoc]
    refine List.pairwise_append.2 ⟨h.order, List.pairwise_singleton .., ?_⟩
    intro number hnumber last hlast
    rw [List.mem_singleton.1 hlast]
    rcases List.mem_append.1 hnumber with hnumber | hnumber
    · exact h.lt_length (List.mem_append_left _ (mem_of_mem_departed hnumber))
    · exact h.lt_length (List.mem_append_right _ hnumber)
  refused := h.refused
  received := h.received
  overruns := h.overruns
  errors := h.errors

/-- The oldest waiting frame leaves the queue. -/
theorem settle (h : l.Balanced t) {frame : InboundFrame} {rest : List InboundFrame} {fate : Fate}
    (hwaiting : t.waiting = frame :: rest) (hfate : fate ≠ .refused) :
    (l.settle frame fate).Balanced (t.settle rest fate) := by
  have hlookup := h.waiting
  rw [hwaiting] at hlookup
  cases hnumbers : l.waiting with
  | nil =>
      rw [hnumbers] at hlookup
      cases hlookup
  | cons number numbers =>
      -- the oldest waiting number stands for the oldest waiting frame
      rw [hnumbers, List.map_cons, List.map_cons] at hlookup
      obtain ⟨hnumber, hothers⟩ := List.cons.inj hlookup
      have hpartition := h.partition
      have horder := h.order
      rw [hnumbers] at hpartition horder
      refine ⟨?_, ?_, ?_, ?_, ?_, ?_, ?_, ?_⟩
      · rw [settle_of_waiting hnumbers]
        cases fate <;> exact hothers
      · intro x hx
        rw [settle_of_waiting hnumbers] at hx ⊢
        rcases List.mem_append.1 hx with hx | hx
        · exact h.settled x hx
        · rw [List.mem_singleton.1 hx]
          exact hnumber
      · rw [settle_of_waiting hnumbers, List.map_append, List.append_assoc]
        exact hpartition
      · rw [departed_settle hnumbers frame hfate, settle_of_waiting hnumbers, List.append_assoc]
        exact horder
      -- only the count of the fate changes
      all_goals
        rw [count_settle hnumbers]
        cases fate <;>
          first
          | exact absurd rfl hfate
          | simp [Tally.settle, h.refused, h.received, h.overruns, h.errors]

/-- All waiting frames are discarded. -/
theorem discard (h : l.Balanced t) :
    (l.settleAll (t.waiting.map (·, .discarded))).Balanced { t with waiting := [] } := by
  obtain ⟨waiting, refused, received, overruns, errors⟩ := t
  induction waiting generalizing l with
  | nil => exact h
  | cons frame rest ih =>
      exact ih (h.settle rfl (by decide : Fate.discarded ≠ .refused))

/-- As many frames are discarded as have been waiting. -/
theorem count_discard (h : l.Balanced t) :
    (l.settleAll (t.waiting.map (·, .discarded))).count .discarded =
      l.count .discarded + t.waiting.length := by
  -- both balances speak of the same offers, and no other count changes
  have hbefore := h.length_offered
  have hafter := h.discard.length_offered
  rw [offered_settleAll, List.length_nil] at hafter
  dsimp only at hafter
  omega

end Balanced

end Ledger

end PacketDma
