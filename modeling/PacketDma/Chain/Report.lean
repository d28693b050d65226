/-
**Handing descriptors back.**

When a frame has been placed or sent, its descriptors are written back so that software can tell.
On receive, every descriptor says how much data it holds, the first also describes the frame and
passes to software, and the last ends the packet.  On transmit, the first descriptor passes to
software and the last ends the queue.

Main definitions:

* `PacketDma.FillPlan.report` — the descriptors of a placed frame as they are written back;
* `PacketDma.Gathered.returned` — the descriptors of a sent frame as they are written back.

Main results:

* `PacketDma.FillPlan.address_report`, `PacketDma.Gathered.address_returned` — every descriptor is
  written back to its own slot;
* `PacketDma.FillPlan.report_eq_mapIdx`, `PacketDma.Gathered.returned_eq_mapIdx` — the descriptors
  that are written back, by their place.
-/

import PacketDma.Chain.Fill
import PacketDma.Chain.Gather

set_option autoImplicit false

namespace PacketDma

/-- The first of some items is the last one if there are no others. -/
theorem isEmpty_eq_beq_length {α : Type} (rest : List α) : rest.isEmpty = (0 == rest.length) := by
  cases rest <;> rfl

theorem succ_beq_succ (i j : Nat) : (i + 1 == j + 1) = (i == j) := by
  simp

/-! ### Receive -/

/-- The port that every frame is received on. -/
def receivePort : UInt8 := 1

/-- The descriptor of a segment that has been filled: old reports are gone, it says how much data
it holds, and the last one ends the packet. -/
def Segment.filled (s : Segment) (isLast : Bool) : ReceiveDescriptor :=
  let d := { s.descriptor with bufferLength := UInt16.ofNat s.length }.lower
    ReceiveDescriptor.reportMask
  if isLast then d.raise (Status.endOfPacket ||| Status.endOfQueue) else d

/-- The first descriptor of a frame passes to software and describes the frame. -/
def ReceiveDescriptor.announce (d : ReceiveDescriptor) (frame : InboundFrame) :
    ReceiveDescriptor :=
  { (d.lower Status.owner).raise
      (if frame.carriesFcs then Status.startOfPacket ||| Status.passCrc
        else Status.startOfPacket) with
    packetLength := UInt16.ofNat frame.bytes.length
    fromPort := receivePort
    packetError := 0 }

/-- The descriptors of consecutive segments, the last of which ends the packet. -/
def fillReports : List Segment → List ReceiveDescriptor
  | [] => []
  | s :: rest => s.filled rest.isEmpty :: fillReports rest

/-- The descriptors of a placed frame as they are written back. -/
def FillPlan.report (p : FillPlan) (frame : InboundFrame) : List ReceiveDescriptor :=
  (p.first.filled p.rest.isEmpty).announce frame :: fillReports p.rest

@[simp] theorem Segment.address_filled (s : Segment) (isLast : Bool) :
    (s.filled isLast).address = s.descriptor.address := by
  cases isLast <;> rfl

@[simp] theorem ReceiveDescriptor.address_announce (d : ReceiveDescriptor) (frame : InboundFrame) :
    (d.announce frame).address = d.address := rfl

theorem address_fillReports (segments : List Segment) :
    (fillReports segments).map (·.address) = segments.map (·.descriptor.address) := by
  induction segments with
  | nil => rfl
  | cons s rest ih => simp [fillReports, ih]

/-- Every receive descriptor is written back to its own slot. -/
theorem FillPlan.address_report (p : FillPlan) (frame : InboundFrame) :
    (p.report frame).map (·.address) = p.segments.map (·.descriptor.address) := by
  simp [FillPlan.report, FillPlan.segments, address_fillReports]

theorem fillReports_eq_mapIdx (segments : List Segment) :
    fillReports segments = segments.mapIdx fun i s => s.filled (i + 1 == segments.length) := by
  induction segments with
  | nil => rfl
  | cons s rest ih =>
      simp only [fillReports, ih, List.mapIdx_cons, isEmpty_eq_beq_length, List.length_cons,
        succ_beq_succ]

/-- What is written back for the descriptor at some place: the first announces the frame, and the
last ends the packet. -/
theorem FillPlan.report_eq_mapIdx (p : FillPlan) (frame : InboundFrame) :
    p.report frame = p.segments.mapIdx fun i s =>
      if i = 0 then (s.filled (i + 1 == p.segments.length)).announce frame
      else s.filled (i + 1 == p.segments.length) := by
  rw [report, fillReports_eq_mapIdx, isEmpty_eq_beq_length, segments, List.mapIdx_cons]
  simp only [List.length_cons, succ_beq_succ]
  rfl

theorem FillPlan.report_getElem? (p : FillPlan) (frame : InboundFrame) {i : Nat} {s : Segment}
    (hs : p.segments[i]? = some s) :
    (p.report frame)[i]? = some
      (if i = 0 then (s.filled (i + 1 == p.segments.length)).announce frame
      else s.filled (i + 1 == p.segments.length)) := by
  rw [report_eq_mapIdx, List.getElem?_mapIdx, hs, Option.map_some]

/-! ### Transmit -/

/-- The last descriptor of a sent frame ends the queue. -/
def TransmitDescriptor.closed (d : TransmitDescriptor) (isLast : Bool) : TransmitDescriptor :=
  if isLast then d.raise Status.endOfQueue else d

/-- Consecutive descriptors, the last of which ends the queue. -/
def closeLast : List TransmitDescriptor → List TransmitDescriptor
  | [] => []
  | d :: rest => d.closed rest.isEmpty :: closeLast rest

/-- The descriptors of a sent frame as they are written back. -/
def Gathered.returned (g : Gathered) : List TransmitDescriptor :=
  closeLast (g.first.lower Status.owner :: g.rest)

@[simp] theorem TransmitDescriptor.address_closed (d : TransmitDescriptor) (isLast : Bool) :
    (d.closed isLast).address = d.address := by
  cases isLast <;> rfl

theorem address_closeLast (descriptors : List TransmitDescriptor) :
    (closeLast descriptors).map (·.address) = descriptors.map (·.address) := by
  induction descriptors with
  | nil => rfl
  | cons d rest ih => simp [closeLast, ih]

/-- Every transmit descriptor is written back to its own slot. -/
theorem Gathered.address_returned (g : Gathered) :
    g.returned.map (·.address) = g.descriptors.map (·.address) := by
  simp [Gathered.returned, Gathered.descriptors, address_closeLast]

theorem closeLast_eq_mapIdx (descriptors : List TransmitDescriptor) :
    closeLast descriptors =
      descriptors.mapIdx fun i d => d.closed (i + 1 == descriptors.length) := by
  induction descriptors with
  | nil => rfl
  | cons d rest ih =>
      simp only [closeLast, ih, List.mapIdx_cons, isEmpty_eq_beq_length, List.length_cons,
        succ_beq_succ]

/-- What is written back for the descriptor at some place: the first passes to software, and the
last ends the queue. -/
theorem Gathered.returned_eq_mapIdx (g : Gathered) :
    g.returned = g.descriptors.mapIdx fun i d =>
      (if i = 0 then d.lower Status.owner else d).closed (i + 1 == g.descriptors.length) := by
  rw [returned, closeLast_eq_mapIdx, descriptors, List.mapIdx_cons, List.mapIdx_cons]
  simp only [List.length_cons]
  rfl

theorem Gathered.returned_getElem? (g : Gathered) {i : Nat} {d : TransmitDescriptor}
    (hd : g.descriptors[i]? = some d) :
    g.returned[i]? = some
      ((if i = 0 then d.lower Status.owner else d).closed (i + 1 == g.descriptors.length)) := by
  rw [returned_eq_mapIdx, List.getElem?_mapIdx, hd, Option.map_some]

end PacketDma
