/-
**No run is stuck.**

Whatever happens to a station, the machine gets to the end of it: no operation of software, of the
network or of the host leads it to an index, a slice, a sum, a difference or a quotient outside its
domain.  The descriptors may say anything, and so may offsets, sizes, addresses and values.  All that
has to be assumed is that the machine can allocate as much as the memory and a chunk of it have, and
that counters of 64 bits do not run over.

Main definitions:

* `PacketDma.System.checkedPerform` — an operation as the machine does it;
* `PacketDma.Station.checkedTick`, `PacketDma.Station.checkedRun` — a tick and a session as the machine
  does them;
* `PacketDma.Station.Step.Native` — the steps that can happen on a machine;
* `PacketDma.Engine.CountersFit` — the assumption on the counters.

Main results:

* `PacketDma.System.Native.act` — an action leaves a system that a machine can have;
* `PacketDma.Station.checkedPerform_eq` — no step is stuck;
* `PacketDma.Station.no_run_is_stuck` — **no run is stuck**.
-/

import PacketDma.Proofs.CheckedRegisters
import PacketDma.Proofs.Sessions
import Mathlib.Data.List.Infix

set_option autoImplicit false

namespace PacketDma

open Machine

/-! ### Operations -/

namespace System

/-- An operation as the machine does it. -/
def checkedPerform [Allocator] (s : System) : Operation → Option (Reply × System)
  | .busRead offset size => do
      let (value, s) ← s.checkedBusRead offset size
      return (.value value, s)
  | .busWrite offset size value => return (.done, ← s.checkedBusWrite offset size value)
  | .readRegister offset => return (.word (← (s.engine.checkedReadRegister offset).run), s)
  | .writeRegister offset value => do
      let (fault, s) ← s.checkedWriteRegister offset value
      return (.outcome fault, s)
  | .receive frame => do
      let (fault, s) ← s.checkedReceive frame
      return (.outcome fault, s)
  | .poll => do
      let (frames, s) ← s.checkedPoll
      return (.count frames, s)
  | .readRam address => return (.words (← (s.engine.ram.checkedReadWords 4 address).run), s)
  | .writeRam address words => do
      let (ram, fault) ← s.engine.ram.checkedWriteWords address words
      return (.written fault, s.mapEngine ({ · with ram }))
  | .readMemory address length => return (.bytes (← (s.memory.checkedReadNew address length).run), s)
  | .writeMemory address bytes => do
      match ← (s.memory.checkedWrite address bytes).run with
      | .ok memory => return (.written none, { s with memory })
      | .error fault => return (.written (some fault), s)
  | op => some (s.perform op)

variable [Allocator] {s : System}

/-- **No operation is stuck**, as long as the counters fit afterwards. -/
theorem checkedPerform_eq (h : s.Native) {op : Operation}
    (hfits : (s.perform op).2.engine.stats.Fits) : s.checkedPerform op = some (s.perform op) := by
  cases op with
  | busRead offset size => exact bind_of_some (checkedBusRead_eq h hfits) _
  | busWrite offset size value => exact bind_of_some (checkedBusWrite_eq h hfits) _
  | readRegister offset => exact bind_of_some (Engine.checkedReadRegister_eq offset) _
  | writeRegister offset value => exact bind_of_some (checkedWriteRegister_eq h hfits) _
  | receive frame => exact bind_of_some (checkedReceive_eq h hfits) _
  | poll => exact bind_of_some (checkedPoll_eq h hfits) _
  | readRam address => exact bind_of_some (Aperture.checkedReadWords_eq h.ram.addressable 4 address) _
  | writeRam address words =>
      exact bind_of_some (Aperture.checkedWriteWords_eq h.ram.writable address words) _
  | readMemory address length =>
      exact bind_of_some
        (Memory.checkedReadNew_eq h.memory.addressable h.memory.size_le address length) _
  | writeMemory address bytes =>
      show ((s.memory.checkedWrite address bytes).run >>= _) = _
      rw [Memory.checkedWrite_eq h.memory.writable, perform, writeMemory]
      cases s.memory.write address bytes <;> rfl
  | _ => rfl

/-- **An action leaves a system that a machine can have.** -/
theorem Native.act (h : s.Native) (hconsistent : s.engine.Consistent) {action : Action}
    (hpossible : action.Possible) : (s.act action).Native :=
  h.of_shapes (s.shapes_act action) fun frame hframe =>
    ((hconsistent.act hpossible).waitingLength frame hframe).2

/-- The arrival of a frame leaves a system that a machine can have. -/
theorem Native.receive (h : s.Native) (frame : InboundFrame) : (s.receive frame).2.Native := by
  rcases s.receive_cases frame with hrefused | htaken
  · rw [hrefused]
    exact h.offer frame
  · rw [htaken]
    exact (h.offer frame).drain

end System

/-! ### Ticks -/

/-- A machine can have the budget. -/
def PumpBudget.Native (budget : PumpBudget) : Prop :=
  budget.transmit < UInt64.size ∧ budget.receive < UInt64.size

instance (budget : PumpBudget) : Decidable budget.Native := inferInstanceAs (Decidable (_ ∧ _))

namespace Station

variable {β : Type}

/-- Tries the waiting frames again as the machine does it. -/
def checkedRetry [Allocator] (st : Station β) : Option (Station β) := do
  let (_, system) ← st.system.checkedPoll
  return { st with system }

theorem checkedRetry_eq [Allocator] {st : Station β} (h : st.system.Native)
    (hfits : st.retry.system.engine.stats.Fits) : st.checkedRetry = some st.retry := by
  rw [checkedRetry, System.checkedPoll_eq h hfits]
  rfl

variable [Backend β]

/-- Sends up to `budget` transmitted frames as the machine does it, and counts them from `sent`
on. -/
def checkedSend : (budget sent : Nat) → Station β → Option (Nat × Station β)
  | 0, sent, st => some (sent, st)
  | budget + 1, sent, st =>
      match st.system.engine.takeEgress with
      | (none, _) => some (sent, st)
      | (some frame, engine) => do
          let sent ← add sent 1
          checkedSend budget sent
            { system := { st.system with engine }, link := Backend.transmit st.link frame }

/-- Takes up to `budget` frames from the backend as the machine does it, and counts the accepted ones
from `fetched` on. -/
def checkedFetch [Allocator] : (budget fetched : Nat) → Station β → Option (Nat × Station β)
  | 0, fetched, st => some (fetched, st)
  | budget + 1, fetched, st =>
      match Backend.poll st.link with
      | (none, link) => some (fetched, { st with link })
      | (some frame, link) => do
          let (fault, system) ← st.system.checkedReceive { bytes := frame }
          if fault.any DmaFault.isRefusal then checkedFetch budget fetched { system, link }
          else
            let fetched ← add fetched 1
            checkedFetch budget fetched { system, link }

/-- One round of moving frames in both directions, as the machine does it. -/
def checkedTick [Allocator] (budget : PumpBudget) (st : Station β) :
    Option (PumpCounts × Station β) := do
  let st ← st.checkedRetry
  let (transmitted, st) ← st.checkedSend budget.transmit 0
  let (received, st) ← st.checkedFetch budget.receive 0
  let st ← st.checkedRetry
  return ({ transmitted, received }, st)

variable {st : Station β}

theorem checkedSend_eq {budget sent : Nat} (hbudget : sent + budget < UInt64.size) :
    checkedSend budget sent st = some (sent + (send budget st).1, (send budget st).2) := by
  induction budget generalizing sent st with
  | zero => rfl
  | succ budget ih =>
      rw [checkedSend, send]
      cases st.system.engine.takeEgress with
      | mk frame? engine =>
          cases frame? with
          | none => rfl
          | some frame =>
              dsimp only
              rw [bind_of_some (add_of_lt (by omega)), ih (by omega), Nat.add_assoc, Nat.add_comm 1]

/-- Sending frames leaves a system that a machine can have, and lowers no counter. -/
theorem native_send [Allocator] (h : st.system.Native) (budget : Nat) :
    (send budget st).2.system.Native ∧
      (send budget st).2.system.engine.stats = st.system.engine.stats := by
  rw [send_eq]
  dsimp only
  rw [System.run_takeEgress]
  exact ⟨{ h with }, rfl⟩

theorem stats_le_fetch (budget : Nat) (st : Station β) :
    st.system.engine.stats ≤ (fetch budget st).2.system.engine.stats := by
  induction budget generalizing st with
  | zero => exact le_rfl
  | succ budget ih =>
      rw [fetch]
      cases Backend.poll st.link with
      | mk frame? link =>
          cases frame? with
          | none => exact le_rfl
          | some frame =>
              have hreceive : st.system.engine.stats ≤
                  (st.system.receive { bytes := frame }).2.engine.stats :=
                System.stats_le_act _
                  (Action.noConfusion : Action.arrive { bytes := frame } ≠ .reset)
              exact hreceive.trans
                (ih { system := (st.system.receive { bytes := frame }).2, link })

/-- **Taking frames from the backend is not stuck**, as long as the counters fit afterwards, and
leaves a system that a machine can have. -/
theorem checkedFetch_eq [Allocator] {budget fetched : Nat} (h : st.system.Native)
    (hbudget : fetched + budget < UInt64.size)
    (hfits : (fetch budget st).2.system.engine.stats.Fits) :
    checkedFetch budget fetched st = some (fetched + (fetch budget st).1, (fetch budget st).2) ∧
      (fetch budget st).2.system.Native := by
  induction budget generalizing fetched st with
  | zero => exact ⟨rfl, h⟩
  | succ budget ih =>
      rw [checkedFetch]
      rw [fetch] at hfits ⊢
      cases hpoll : Backend.poll st.link with
      | mk frame? link =>
          rw [hpoll] at hfits
          cases frame? with
          | none => exact ⟨rfl, h⟩
          | some frame =>
              dsimp only at hfits ⊢
              have hnext := h.receive { bytes := frame }
              have hafter := hfits.of_le (stats_le_fetch budget
                { system := (st.system.receive { bytes := frame }).2, link })
              have hreceive : st.system.checkedReceive { bytes := frame } =
                  some (st.system.receive { bytes := frame }) :=
                System.checkedReceive_eq h hafter
              rw [bind_of_some hreceive]
              by_cases hrefusal : (st.system.receive { bytes := frame }).1.any DmaFault.isRefusal
              · rw [if_pos hrefusal, if_pos hrefusal]
                exact ih hnext (by omega) hfits
              · have hbound : fetched + 1 + budget < UInt64.size := by omega
                obtain ⟨hfetch, hnative⟩ := ih hnext hbound hfits
                refine ⟨?_, hnative⟩
                rw [if_neg hrefusal, if_neg hrefusal, bind_of_some (add_of_lt (by omega)), hfetch,
                  Nat.add_assoc, Nat.add_comm 1]

/-- **No tick is stuck**, as long as the counters fit afterwards. -/
theorem checkedTick_eq [Allocator] {budget : PumpBudget} (h : st.system.Native)
    (hbudget : budget.Native) (hfits : (st.tick budget).2.system.engine.stats.Fits) :
    st.checkedTick budget = some (st.tick budget) := by
  -- going back from the counters after the tick to those before it
  have hfetched := EngineStats.Fits.of_le hfits (System.stats_le_drain _)
  have hsent := hfetched.of_le (stats_le_fetch budget.receive (st.retry.send budget.transmit).2)
  have hretried : st.retry.system.Native := h.drain
  obtain ⟨hnative, hstats⟩ := native_send hretried budget.transmit
  rw [hstats] at hsent
  have hsend : st.retry.checkedSend budget.transmit 0 = some (st.retry.send budget.transmit) := by
    rw [checkedSend_eq (by rw [Nat.zero_add]; exact hbudget.1), Nat.zero_add]
  obtain ⟨hfetch, hlast⟩ := checkedFetch_eq hnative
    (show 0 + budget.receive < UInt64.size by rw [Nat.zero_add]; exact hbudget.2) hfetched
  simp only [checkedTick, checkedRetry_eq h hsent, Option.bind_eq_bind, Option.bind_some, hsend,
    hfetch, checkedRetry_eq hlast hfits, Nat.zero_add]
  rfl

/-! ### Sessions -/

/-- The step can happen on a machine: a memory that it attaches is one of the machine, and so are its
sizes. -/
def Step.Native [Allocator] : Step β → Prop
  | .attach memory => memory.Native
  | .tick budget => budget.Native
  | _ => True

instance [Allocator] : (step : Step β) → Decidable step.Native
  | .attach memory => inferInstanceAs (Decidable memory.Native)
  | .tick budget => inferInstanceAs (Decidable budget.Native)
  | .engine _ | .clearEvents | .storeRam .. | .host _ => .isTrue trivial

/-- A step as the machine does it. -/
def checkedPerform [Allocator] (st : Station β) : Step β → Option (StepReply × Station β)
  | .engine op => do
      let (reply, system) ← st.system.checkedPerform op
      return (.reply reply, { st with system })
  | .storeRam address bytes => do
      match ← (st.system.engine.ram.checkedWrite address bytes).run with
      | .ok ram => return (.written none, { st with system := st.system.mapEngine ({ · with ram }) })
      | .error fault => return (.written (some fault), st)
  | .tick budget => do
      let (counts, st) ← st.checkedTick budget
      return (.moved counts, st)
  | step => some (st.perform step)

end Station

/-- The counters of the engine and of its intake fit into words of 64 bits. -/
def Engine.CountersFit (e : Engine) : Prop := e.stats.Fits ∧ e.intake.refused < UInt64.size

instance (e : Engine) : Decidable e.CountersFit := inferInstanceAs (Decidable (_ ∧ _))

/-- The count of dropped frames as the host reads it: that of the intake on top of that of the
engine, which drops no frame itself. -/
def Engine.checkedDropped (e : Engine) : Option Nat := add 0 e.intake.refused

namespace Station

variable {β : Type} [Backend β]

/-- A session as the machine does it.  After every step the host also reads the counters. -/
def checkedRun [Allocator] (st : Station β) : List (Step β) → Option (List StepReply × Station β)
  | [] => some ([], st)
  | step :: rest => do
      let (reply, next) ← st.checkedPerform step
      let _ ← next.system.engine.checkedDropped
      let (replies, last) ← checkedRun next rest
      return (reply :: replies, last)

variable {st : Station β}

/-- **No step is stuck**, as long as the counters fit afterwards. -/
theorem checkedPerform_eq [Allocator] {step : Step β} (h : st.system.Native)
    (hstep : step.Native) (hfits : (st.perform step).2.system.engine.stats.Fits) :
    st.checkedPerform step = some (st.perform step) := by
  cases step with
  | engine op => exact bind_of_some (System.checkedPerform_eq h hfits) _
  | storeRam address bytes =>
      rw [checkedPerform, Aperture.checkedWrite_eq h.ram.writable, perform]
      cases st.system.engine.ram.write address bytes <;> rfl
  | tick budget => exact bind_of_some (checkedTick_eq h hstep hfits) _
  | _ => rfl

/-- A step leaves a system that a machine can have. -/
theorem native_perform [Allocator] {step : Step β} (hstep : step.Native)
    (h : st.system.Native ∧ st.system.engine.Consistent) :
    (st.perform step).2.system.Native ∧ (st.perform step).2.system.engine.Consistent := by
  refine perform_induction (P := fun s => s.Native ∧ s.engine.Consistent)
    (fun s action hpossible h => ⟨h.1.act h.2 hpossible, h.2.act hpossible⟩) ?_ ?_ ?_ h
  · exact fun s h => ⟨{ h.1 with }, { h.2 with }⟩
  · intro s address bytes ram hwrite h
    have hshape := Aperture.shape_of_write hwrite
    exact ⟨h.1.of_shapes (congrArg (Prod.mk s.memory.shape) hshape) h.1.waiting,
      h.2.writeRam hwrite⟩
  · rintro s memory rfl h
    exact ⟨{ h.1 with memory := hstep }, h.2⟩

theorem checkedRun_eq [Allocator] {steps : List (Step β)}
    (h : st.system.Native ∧ st.system.engine.Consistent) (hsteps : ∀ step ∈ steps, step.Native)
    (hcounters : ∀ done, done <+: steps → (st.run done).2.system.engine.CountersFit) :
    st.checkedRun steps = some (st.run steps) := by
  induction steps generalizing st with
  | nil => rfl
  | cons step rest ih =>
      have hstep := hsteps step (List.mem_cons_self ..)
      have hfits : (st.perform step).2.system.engine.CountersFit :=
        hcounters [step] ⟨rest, rfl⟩
      have hrest := ih (native_perform hstep h)
        (fun other hother => hsteps other (List.mem_cons_of_mem _ hother))
        (fun done hdone => hcounters (step :: done) (List.cons_prefix_cons.2 ⟨rfl, hdone⟩))
      have hdropped : (st.perform step).2.system.engine.checkedDropped =
          some (0 + (st.perform step).2.system.engine.intake.refused) :=
        add_of_lt (by rw [Nat.zero_add]; exact hfits.2)
      simp only [checkedRun, checkedPerform_eq h.1 hstep hfits.1, Option.bind_eq_bind,
        Option.bind_some, hdropped, hrest]
      rfl

/-- **No run is stuck.**  On a new engine with any accepted settings, connected to any clock, any line
and any backend, let anything happen: bus accesses of any size at any offset, register accesses,
frames of any length, polls and ticks of the pump, whatever is in descriptor RAM and in memory.  Let
the memory be contiguous or chunked, and let the machine be able to allocate as much as the memory has
and as a chunk has, whatever its limit is.  Let the counters always fit into words of 64 bits.

Then the machine gets through the run, and does what the engine does: it uses no channel number above
seven, cuts no slice that leaves its string, indexes nothing that is not there, allocates nothing that
is too large, and no sum runs over, no difference is negative and no divisor is zero. -/
theorem no_run_is_stuck [Allocator] (settings : AcceptedSettings) (clock : Clock)
    (interrupt : InterruptLine) {memory : Memory} (hmemory : memory.Native) (link : β)
    {steps : List (Step β)}
    (hsteps : ∀ step ∈ steps, step.Native)
    (hcounters : ∀ done, done <+: steps →
      (run ⟨⟨.fresh settings clock interrupt, memory⟩, link⟩ done).2.system.engine.CountersFit) :
    checkedRun ⟨⟨.fresh settings clock interrupt, memory⟩, link⟩ steps =
      some (run ⟨⟨.fresh settings clock interrupt, memory⟩, link⟩ steps) := by
  have hnative : (System.mk (.fresh settings clock interrupt) memory).Native :=
    ⟨hmemory, ⟨_, rfl⟩, fun _ hframe => absurd hframe List.not_mem_nil⟩
  exact checkedRun_eq ⟨hnative, .fresh settings clock interrupt⟩ hsteps hcounters

/-- A frame is placed across chunks, a chain whose second buffer lies at the top of the bus is
rejected, and a read of three bytes at the last offset there is gets an answer. -/
theorem hostile_chain_is_not_stuck :
    let settings : AcceptedSettings := ⟨{ ramSize := 64 }, by decide⟩
    let frame : Frame := [0, 0, 0, 0, 0, 0, 0, 0, 0, 0, 0, 0, 0x88, 0xF7, 0x3B]
    let steps : List (Step Link) := [.engine (.writeRegister 0x814 1),
      .engine (.writeRam 0x48486000 [0, 4, 64, 0x20000000]),
      .engine (.writeRam 0x48486010 [0x48486020, 4, 11, 0xA000000F]),
      .engine (.writeRam 0x48486020 [0, 0xFFFFFFFF, 4, 0x40000000]),
      .engine (.busWrite 0xA20 4 0x48486000), .engine (.receive { bytes := frame }),
      .engine (.busWrite 0xA00 4 0x48486010), .engine (.busRead 0xFFFFFFFFFFFFFFFF 3), .tick {}]
    let _ : Allocator := .signedSize
    ∃ store, Sparse.withChunkSize 64 8 = .ok store ∧
      let start : Station := ⟨⟨.fresh settings {} {}, .sparse store⟩, .echo [] []⟩
      (Memory.sparse store).Native ∧ (∀ step ∈ steps, step.Native) ∧
      (∀ done, done <+: steps → (start.run done).2.system.engine.CountersFit) ∧
      start.checkedRun steps = some (start.run steps) ∧
      (start.run steps).2.system.engine.stats = { received := 1, transmitErrors := 1 } := by
  intro settings frame steps _
  refine ⟨_, rfl, ?_⟩
  intro start
  have hmemory : start.system.memory.Native := by decide
  have hsteps : ∀ step ∈ steps, step.Native := by decide
  have hinits : ∀ done ∈ steps.inits, (start.run done).2.system.engine.CountersFit := by
    decide +kernel
  have hcounters : ∀ done, done <+: steps → (start.run done).2.system.engine.CountersFit :=
    fun done hdone => hinits done ((List.mem_inits done steps).2 hdone)
  exact ⟨hmemory, hsteps, hcounters,
    no_run_is_stuck settings {} {} hmemory (.echo [] []) hsteps hcounters, by decide +kernel⟩

end Station

end PacketDma
