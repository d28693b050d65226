/-
**Where the engine writes.**

The engine writes where its descriptors tell it to, and descriptors are written by software that may
be hostile.  Whatever they hold, the engine writes memory only inside the buffers of receive
descriptors that belong to it and to which the ring of an armed channel leads, and not past the part
of the frame that such a descriptor takes; it writes descriptor RAM only where it reports.  A drain
is a series of fills each of which walks the RAM that the one before has left behind, and so the
places are those that the descriptors name at the moment when a frame is planned.

Main definitions:

* `PacketDma.Aperture.Leads` — where a ring leads;
* `PacketDma.System.MayUse` — the descriptors that may be used for a frame;
* `PacketDma.System.fills` — the fills of a drain;
* `PacketDma.System.ChangedWithin` — a change of memory and descriptor RAM inside given places.

Main results:

* `PacketDma.System.changedWithin_fill`, `PacketDma.System.changedWithin_drainFrames` — where a
  fill, and a series of fills, writes;
* `PacketDma.System.foldl_drain` — a drain adds to the engine what its fills add;
* `PacketDma.System.transfers_are_confined` — **the engine writes only where it may**.
-/

import PacketDma.Proofs.Passes
import PacketDma.Proofs.ReceiveRules
import PacketDma.Proofs.TransmitEffect

set_option autoImplicit false

namespace PacketDma

/-! ### Where a ring leads -/

/-- The next pointers lead from `start` to the descriptor at an address when so many bytes of a
frame of `length` bytes are still to be placed; a pointer of zero leads back to `head`. -/
inductive Aperture.Leads (ram : Aperture) (head start : UInt32) (length : Nat) :
    UInt32 → Nat → Prop
  | start : Leads ram head start length start length
  | next {address following : UInt32} {missing : Nat}
      (h : Leads ram head start length address missing)
      (link : nextDescriptor (ram.descriptorAt address).next head = some following) :
      Leads ram head start length following
        (missing - min (ram.descriptorAt address).bufferLength.toNat missing)

/-- Every segment of a chain is taken by a descriptor to which the ring leads. -/
theorem FillWalk.leads {ram : Aperture} {memory : Memory} {head start address : UInt32}
    {length offset missing : Nat} {segments : List Segment} {next : Option UInt32}
    (hwalk : FillWalk ram memory head address offset missing segments next)
    (hleads : ram.Leads head start length address missing) :
    ∀ t ∈ segments, ∃ o m, t.TakenAt ram memory t.descriptor.address o m ∧
      ram.Leads head start length t.descriptor.address m := by
  induction hwalk with
  | last taken complete =>
      intro t ht
      rcases List.mem_singleton.1 ht with rfl
      have haddress := taken.address_eq
      exact ⟨_, _, haddress ▸ taken, haddress ▸ hleads⟩
  | more taken incomplete link walk ih =>
      intro t ht
      rcases List.mem_cons.1 ht with rfl | ht
      · have haddress := taken.address_eq
        exact ⟨_, _, haddress ▸ taken, haddress ▸ hleads⟩
      · refine ih ?_ t ht
        rw [taken.length_eq]
        rw [taken.descriptor_eq] at link ⊢
        exact hleads.next link

namespace System

variable {s t u : System} {frame : InboundFrame}

/-- The engine may use a descriptor for a frame: receive is enabled and the channel of the frame is
armed; the descriptor stands in descriptor RAM and belongs to the engine; and the ring leads to it
from where the next frame of the channel starts. -/
structure MayUse (s : System) (frame : InboundFrame) (d : ReceiveDescriptor) (missing : Nat) :
    Prop where
  enabled : s.engine.receiveEnabled = true
  armed : (s.engine.channels.receiveChannel (s.engine.channelOf frame)).head ≠ 0
  covered : s.engine.ram.CoversSlot d.address
  descriptor_eq : d = s.engine.ram.descriptorAt d.address
  owned : d.isOwned = true
  reached : s.engine.ram.Leads
    (s.engine.channels.receiveChannel (s.engine.channelOf frame)).head
    (s.engine.channels.receiveChannel (s.engine.channelOf frame)).start
    frame.bytes.length d.address missing

/-- The address `i` of memory lies in the part of a buffer that a descriptor offers for a frame. -/
def MayFill (s : System) (frame : InboundFrame) (i : Nat) : Prop :=
  ∃ d missing, s.MayUse frame d missing ∧ d.dataAddress.toNat ≤ i ∧
    i < d.dataAddress.toNat + min d.bufferLength.toNat missing

/-- The address `i` of descriptor RAM lies where a descriptor reports a frame. -/
def MayReport (s : System) (frame : InboundFrame) (i : Nat) : Prop :=
  ∃ d missing, s.MayUse frame d missing ∧ InReport d.address i

/-! ### Changes inside given places -/

/-- Between `s` and `t`, memory changes at the addresses in `bytes` at most, and descriptor RAM at
those in `reports`. -/
structure ChangedWithin (s t : System) (bytes reports : Nat → Prop) : Prop where
  size : t.memory.size = s.memory.size
  memory : ∀ i, ¬ bytes i → t.memory.byteAt i = s.memory.byteAt i
  ram : s.engine.ram.EqOff t.engine.ram reports

namespace ChangedWithin

variable {bytes reports moreBytes moreReports : Nat → Prop}

theorem of_kept (hmemory : t.memory = s.memory) (hram : t.engine.ram = s.engine.ram) :
    s.ChangedWithin t bytes reports :=
  ⟨by rw [hmemory], fun _ _ => by rw [hmemory], hram ▸ .refl s.engine.ram reports⟩

theorem trans (h : s.ChangedWithin t bytes reports) (h' : t.ChangedWithin u bytes reports) :
    s.ChangedWithin u bytes reports where
  size := h'.size.trans h.size
  memory i hi := (h'.memory i hi).trans (h.memory i hi)
  ram := (h.ram.trans h'.ram).mono fun _ hi => hi.elim id id

theorem mono (h : s.ChangedWithin t bytes reports) (hbytes : ∀ i, bytes i → moreBytes i)
    (hreports : ∀ i, reports i → moreReports i) : s.ChangedWithin t moreBytes moreReports where
  size := h.size
  memory i hi := h.memory i fun hin => hi (hbytes i hin)
  ram := h.ram.mono hreports

theorem of_byte_ne (h : s.ChangedWithin t bytes reports) {i : Nat}
    (hi : t.memory.byteAt i ≠ s.memory.byteAt i) : bytes i :=
  Classical.byContradiction fun hnot => hi (h.memory i hnot)

end ChangedWithin

/-! ### A fill and a drain -/

/-- The segments of a plan are taken by descriptors that may be used. -/
theorem exists_mayUse_of_plan {plan : FillPlan} (henabled : s.engine.receiveEnabled = true)
    (hready : s.engine.ready frame = true)
    (hplan : s.engine.plan s.memory (s.engine.channelOf frame) frame.bytes.length = .ok plan) :
    ∀ t ∈ plan.segments, ∃ missing, s.MayUse frame t.descriptor missing ∧
      t.length = min t.descriptor.bufferLength.toNat missing := by
  intro t ht
  obtain ⟨o, m, htaken, hleads⟩ := (walk_of_plan hplan).leads .start t ht
  exact ⟨m, ⟨henabled, Engine.ready_iff.1 hready, htaken.covered, htaken.descriptor_eq,
    htaken.owned, hleads⟩, htaken.length_eq⟩

/-- **A fill writes only where it may.** -/
theorem changedWithin_fill (henabled : s.engine.receiveEnabled = true)
    (hready : s.engine.ready frame = true) :
    s.ChangedWithin (s.fill frame).2 (s.MayFill frame) (s.MayReport frame) := by
  rcases fill_cases s frame with
    ⟨_, _, _, -, hfill, -⟩ | ⟨plan, memory, ram, _, _, _, _, _, hplan, hplaced, hfill, -⟩
  · rw [hfill]
    exact .of_kept rfl rfl
  · have huse := exists_mayUse_of_plan henabled hready hplan
    rw [hfill]
    refine ⟨hplaced.size, ?_, hplaced.reports.mono ?_⟩
    · intro i hi
      refine hplaced.elsewhere i fun t ht htouches => hi ?_
      obtain ⟨missing, hmay, hlength⟩ := huse t ht
      exact ⟨_, missing, hmay, htouches.1, hlength ▸ htouches.2⟩
    · rintro i ⟨t, ht, hin⟩
      obtain ⟨missing, hmay, -⟩ := huse t ht
      exact ⟨_, missing, hmay, hin⟩

/-- The fills that place the given waiting frames one after the other, up to the first whose channel
is idle: the system when a frame is planned, and the frame. -/
def fillsFrom : List InboundFrame → System → List (System × InboundFrame)
  | [], _ => []
  | frame :: rest, s =>
      if s.engine.ready frame then
        let planned := s.mapEngine (·.setWaiting rest)
        (planned, frame) :: fillsFrom rest (planned.fill frame).2
      else []

/-- The fills of a drain. -/
def fills (s : System) : List (System × InboundFrame) :=
  if s.engine.receiveEnabled then fillsFrom s.engine.intake.frames s else []

theorem fillsFrom_of_ready (h : s.engine.ready frame = true) (rest : List InboundFrame) :
    fillsFrom (frame :: rest) s =
      (s.mapEngine (·.setWaiting rest), frame) ::
        fillsFrom rest ((s.mapEngine (·.setWaiting rest)).fill frame).2 := by
  rw [fillsFrom, if_pos h]

theorem fillsFrom_of_not_ready (h : s.engine.ready frame = false) (rest : List InboundFrame) :
    fillsFrom (frame :: rest) s = [] := by
  simp [fillsFrom, h]

/-- **A series of fills writes only where each of them may.** -/
theorem changedWithin_drainFrames (frames : List InboundFrame)
    (henabled : s.engine.receiveEnabled = true) :
    s.ChangedWithin (drainFrames frames s).2
      (fun i => ∃ f ∈ fillsFrom frames s, f.1.MayFill f.2 i)
      (fun i => ∃ f ∈ fillsFrom frames s, f.1.MayReport f.2 i) := by
  -- the rules of receive are the same before every fill, while the RAM is another one each time
  induction frames generalizing s with
  | nil => exact .of_kept rfl rfl
  | cons frame rest ih =>
      by_cases hready : s.engine.ready frame = true
      · have hrules := sameRules_fill (s.mapEngine (·.setWaiting rest)) frame
        have hfill := changedWithin_fill (s := s.mapEngine (·.setWaiting rest)) henabled hready
        have hqueue (bytes reports : Nat → Prop) :
            s.ChangedWithin (s.mapEngine (·.setWaiting rest)) bytes reports := .of_kept rfl rfl
        have hfirst := (hqueue _ _).trans hfill
        have hrest := ih (hrules.receiveEnabled_eq.trans henabled)
        rw [drainFrames_cons hready, fillsFrom_of_ready hready]
        refine (hfirst.mono ?_ ?_).trans (hrest.mono ?_ ?_)
        · exact fun i hi => ⟨_, List.mem_cons_self .., hi⟩
        · exact fun i hi => ⟨_, List.mem_cons_self .., hi⟩
        · rintro i ⟨f, hf, hi⟩
          exact ⟨f, List.mem_cons_of_mem _ hf, hi⟩
        · rintro i ⟨f, hf, hi⟩
          exact ⟨f, List.mem_cons_of_mem _ hf, hi⟩
      · rw [drainFrames_of_not_ready (Bool.not_eq_true _ ▸ hready)]
        exact .of_kept rfl rfl

/-- A drain writes only where its fills may. -/
theorem changedWithin_drain (s : System) :
    s.ChangedWithin s.drain.2 (fun i => ∃ f ∈ s.fills, f.1.MayFill f.2 i)
      (fun i => ∃ f ∈ s.fills, f.1.MayReport f.2 i) := by
  by_cases henabled : s.engine.receiveEnabled = true
  · rw [drain_of_enabled henabled, fills, if_pos henabled]
    exact changedWithin_drainFrames _ henabled
  · rw [drain_of_disabled (Bool.not_eq_true _ ▸ henabled)]
    exact .of_kept rfl rfl

/-- A frame is only placed while receive is enabled and its channel is armed. -/
theorem armed_of_mem_fillsFrom {frames : List InboundFrame} {f : System × InboundFrame}
    (henabled : s.engine.receiveEnabled = true) (hf : f ∈ fillsFrom frames s) :
    f.1.engine.receiveEnabled = true ∧
      (f.1.engine.channels.receiveChannel (f.1.engine.channelOf f.2)).head ≠ 0 := by
  induction frames generalizing s with
  | nil => exact absurd hf List.not_mem_nil
  | cons frame rest ih =>
      by_cases hready : s.engine.ready frame = true
      · have hrules := sameRules_fill (s.mapEngine (·.setWaiting rest)) frame
        rw [fillsFrom_of_ready hready] at hf
        rcases List.mem_cons.1 hf with rfl | hf
        · exact ⟨henabled, Engine.ready_iff.1 hready⟩
        · exact ih (hrules.receiveEnabled_eq.trans henabled) hf
      · rw [fillsFrom_of_not_ready (Bool.not_eq_true _ ▸ hready)] at hf
        exact absurd hf List.not_mem_nil

section Fold

variable {α β : Type} {part : Engine → β} {entries : System → InboundFrame → List α}
  {add : β → α → β}
  (hwaiting : ∀ (e : Engine) (frames : List InboundFrame), part (e.setWaiting frames) = part e)
  (hfill : ∀ (s : System) (frame : InboundFrame),
    part (s.fill frame).2.engine = (entries s frame).foldl add (part s.engine))

include hwaiting hfill

theorem foldl_drainFrames (frames : List InboundFrame) (s : System) :
    part (drainFrames frames s).2.engine =
      ((fillsFrom frames s).flatMap fun f => entries f.1 f.2).foldl add (part s.engine) := by
  induction frames generalizing s with
  | nil => rfl
  | cons frame rest ih =>
      by_cases hready : s.engine.ready frame = true
      · rw [drainFrames_cons hready, fillsFrom_of_ready hready, List.flatMap_cons,
          List.foldl_append, ih, hfill, engine_mapEngine, hwaiting]
      · rw [drainFrames_of_not_ready (Bool.not_eq_true _ ▸ hready),
          fillsFrom_of_not_ready (Bool.not_eq_true _ ▸ hready)]
        rfl

/-- **What every fill adds to a part of the engine, a drain adds to it**, fill by fill. -/
theorem foldl_drain (s : System) :
    part s.drain.2.engine =
      (s.fills.flatMap fun f => entries f.1 f.2).foldl add (part s.engine) := by
  unfold drain fills
  split
  · exact foldl_drainFrames hwaiting hfill _ s
  · rfl

end Fold

/-! ### A transmission -/

/-- The frame that a transmission gathers. -/
def Gathers (s : System) (channel : ChannelId) (g : Gathered) : Prop :=
  gather s.engine.ram s.memory channel (s.engine.channels.transmitChannel channel).head
    s.engine.settings.walkLimit = .ok g

/-- **A transmission writes no memory**, and descriptor RAM only where the chain of its frame is
handed back. -/
theorem changedWithin_transmit (s : System) (channel : ChannelId) :
    (s.transmit channel).2.memory = s.memory ∧
      s.engine.ram.EqOff (s.transmit channel).2.engine.ram fun i =>
        ∃ g, s.Gathers channel g ∧ ∃ d ∈ g.descriptors, InStatus d.address i := by
  cases hgather : gather s.engine.ram s.memory channel
      (s.engine.channels.transmitChannel channel).head s.engine.settings.walkLimit with
  | error fault =>
      rw [transmit_of_error hgather]
      exact ⟨rfl, .refl ..⟩
  | ok g =>
      obtain ⟨ram, hback, htransmit⟩ := exists_transmit_of_gather hgather
      obtain ⟨_, _, _, _, _, hemit, -⟩ := Engine.exists_emit { s.engine with ram } channel g
      rw [htransmit, hemit]
      refine ⟨rfl, hback.elsewhere.mono ?_⟩
      rintro i ⟨d, hd, hin⟩
      -- what is handed back goes to the slots of the chain
      have hmem : d.address ∈ g.returned.map (·.address) := List.mem_map_of_mem hd
      rw [Gathered.address_returned] at hmem
      obtain ⟨e, he, haddress⟩ := List.mem_map.1 hmem
      exact ⟨g, hgather, e, he, haddress ▸ hin⟩

/-! ### Any operation -/

/-- What an operation changes that starts a drain. -/
theorem StartsDrain.changedWithin {op : Operation} (h : s.StartsDrain op t) :
    s.ChangedWithin (s.perform op).2 (fun i => ∃ f ∈ t.fills, f.1.MayFill f.2 i)
      (fun i => ∃ f ∈ t.fills, f.1.MayReport f.2 i) := by
  rw [h.perform_eq]
  exact .trans (.of_kept h.kept.1 h.kept.2) (changedWithin_drain t)

/-- What an operation changes that starts a transmission. -/
theorem StartsSend.changedWithin {op : Operation} {channel : ChannelId}
    (h : s.StartsSend op t channel) :
    (s.perform op).2.memory = s.memory ∧
      s.engine.ram.EqOff (s.perform op).2.engine.ram fun i =>
        ∃ g, t.Gathers channel g ∧ ∃ d ∈ g.descriptors, InStatus d.address i := by
  obtain ⟨hmemory, hram⟩ := changedWithin_transmit t channel
  rw [h.perform_eq, hmemory, ← h.kept.2]
  exact ⟨h.kept.1, hram⟩

/-- A drain leaves an idle channel alone. -/
theorem receiveChannel_drain_of_idle {channel : ChannelId}
    (h : (s.engine.channels.receiveChannel channel).head = 0) :
    s.drain.2.engine.channels.receiveChannel channel =
      s.engine.channels.receiveChannel channel := by
  unfold drain
  split
  · exact receiveChannel_drainFrames_of_idle _ h
  · rfl

/-- **The engine writes only where it may.**  Every byte of memory that an operation changes, other
than a write of memory itself, lies in the part of a buffer that a descriptor offers for a frame
which is placed; every byte of descriptor RAM that changes, other than by a write of it, lies where
a frame is reported or the chain of a frame is handed back.  A drain changes nothing while receive
is disabled, and nothing through an idle channel; a transmission changes no memory. -/
theorem transfers_are_confined (s : System) (op : Operation) :
    let after := (s.perform op).2
    ((∀ address bytes, op ≠ .writeMemory address bytes) →
      after.memory.size = s.memory.size ∧
      ∀ i, after.memory.byteAt i ≠ s.memory.byteAt i →
        ∃ t, s.StartsDrain op t ∧ ∃ f ∈ t.fills, f.1.MayFill f.2 i) ∧
    (op.writesRam = false →
      ∀ i, after.engine.ram.byteAt i ≠ s.engine.ram.byteAt i →
        (∃ t, s.StartsDrain op t ∧ ∃ f ∈ t.fills, f.1.MayReport f.2 i) ∨
        ∃ t channel, s.StartsSend op t channel ∧
          ∃ g, t.Gathers channel g ∧ ∃ d ∈ g.descriptors, InStatus d.address i) ∧
    (∀ t, s.StartsDrain op t → op.writesRam = false ∧ after = t.drain.2 ∧
      (t.engine.receiveEnabled = false → after = t) ∧
      (∀ f ∈ t.fills, f.1.engine.receiveEnabled = true ∧
        (f.1.engine.channels.receiveChannel (f.1.engine.channelOf f.2)).head ≠ 0) ∧
      ∀ channel, (t.engine.channels.receiveChannel channel).head = 0 →
        after.engine.channels.receiveChannel channel =
          t.engine.channels.receiveChannel channel) ∧
    ∀ t channel, s.StartsSend op t channel → op.writesRam = false ∧ after.memory = s.memory := by
  intro after
  refine ⟨?_, ?_, ?_, ?_⟩
  · intro hop
    rcases perform_cases s op with ⟨t, hdrain⟩ | ⟨t, channel, hsend⟩ | ⟨hmemory, -⟩
    · have hchanged := hdrain.changedWithin
      exact ⟨hchanged.size, fun i hi => ⟨t, hdrain, hchanged.of_byte_ne hi⟩⟩
    · have hmemory := hsend.changedWithin.1
      exact ⟨congrArg Memory.size hmemory, fun i hi => absurd (congrArg (·.byteAt i) hmemory) hi⟩
    · exact ⟨congrArg Memory.size (hmemory hop),
        fun i hi => absurd (congrArg (·.byteAt i) (hmemory hop)) hi⟩
  · intro hop i hi
    rcases perform_cases s op with ⟨t, hdrain⟩ | ⟨t, channel, hsend⟩ | ⟨-, hram⟩
    · exact Or.inl ⟨t, hdrain, hdrain.changedWithin.ram.of_byte_ne hi⟩
    · exact Or.inr ⟨t, channel, hsend, hsend.changedWithin.2.of_byte_ne hi⟩
    · exact absurd (congrArg (·.byteAt i) (hram hop)) hi
  · intro t hdrain
    have hafter : after = t.drain.2 := hdrain.perform_eq
    refine ⟨hdrain.writesRam_eq, hafter, ?_, ?_, ?_⟩
    · intro hdisabled
      rw [hafter, drain_of_disabled hdisabled]
    · intro f hf
      unfold fills at hf
      split at hf
      · next henabled => exact armed_of_mem_fillsFrom henabled hf
      · exact absurd hf List.not_mem_nil
    · intro channel hidle
      rw [hafter]
      exact receiveChannel_drain_of_idle hidle
  · intro t channel hsend
    exact ⟨hsend.writesRam_eq, hsend.changedWithin.1⟩

/-- A frame of three bytes arrives for a ring of one descriptor: its second byte has been written
into the buffer of a descriptor that may be used for it, and the status byte of a descriptor that
may be used for it has changed. -/
theorem three_bytes_are_confined :
    let s := (small.run [.writeRam 0x48486000 [0, 0x100, 16, 0x20000000],
      .writeRegister 0x814 1, .writeRegister 0xA24 0x48486000]).2
    let op : Operation := .receive { bytes := [7, 8, 9] }
    (s.perform op).2.memory.byteAt 0x101 = 8 ∧
    (∃ t, s.StartsDrain op t ∧ ∃ f ∈ t.fills, f.1.MayFill f.2 0x101) ∧
    ∃ t, s.StartsDrain op t ∧ ∃ f ∈ t.fills, f.1.MayReport f.2 0x4848600F := by
  intro s op
  have hbyte : (s.perform op).2.memory.byteAt 0x101 = 8 := by decide +kernel
  have hbefore : s.memory.byteAt 0x101 = 0 := by decide +kernel
  have hstatus :
      (s.perform op).2.engine.ram.byteAt 0x4848600F ≠ s.engine.ram.byteAt 0x4848600F := by
    decide +kernel
  obtain ⟨hmemory, hram, -, -⟩ := transfers_are_confined s op
  refine ⟨hbyte, ?_, ?_⟩
  · refine (hmemory (fun _ _ => Operation.noConfusion)).2 0x101 ?_
    rw [hbyte, hbefore]
    decide
  · rcases hram rfl 0x4848600F hstatus with hreport | ⟨t, channel, hsend, -⟩
    · exact hreport
    · -- the arrival of a frame sends nothing
      cases hsend with
      | head h armed => cases h

end System

end PacketDma
