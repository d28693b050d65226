/-
**Sessions.**

A session is everything that happens to a station over time: software, the network and the host do
operations on the engine, the pump ticks, the host acts on the backend, and the engine may be given
another memory.

Main definitions:

* `PacketDma.Station.Step`, `PacketDma.Station.StepReply` — what can happen, and what comes back;
* `PacketDma.Station.perform` — one step;
* `PacketDma.Station.run` — a sequence of steps.

Main results:

* `PacketDma.Station.run_append` — a sequence may be run in pieces.
-/

import PacketDma.Engine.Operation
import PacketDma.Transport.Pump

set_option autoImplicit false

namespace PacketDma

namespace Station

/-- What can happen to a station. -/
inductive Step (β : Type) where
  /-- An operation is done on the engine and its memory. -/
  | engine (op : Operation)
  /-- The host discards all timestamp events. -/
  | clearEvents
  /-- The host writes bytes at a bus address of descriptor RAM. -/
  | storeRam (address : UInt64) (bytes : List UInt8)
  /-- The engine is given another memory. -/
  | attach (memory : Memory)
  /-- The host acts on the backend. -/
  | host (action : β → β)
  /-- The pump ticks. -/
  | tick (budget : PumpBudget)

/-- What comes back from a step. -/
inductive StepReply where
  /-- Nothing is to be said. -/
  | done
  /-- The reply to an operation. -/
  | reply (reply : Reply)
  /-- The fault of a write to descriptor RAM, if any. -/
  | written (fault : Option MemoryFault)
  /-- What a tick has moved. -/
  | moved (counts : PumpCounts)

variable {β : Type} [Backend β]

/-- The reply to a step and the station after it. -/
def perform (st : Station β) : Step β → StepReply × Station β
  | .engine op =>
      let (reply, system) := st.system.perform op
      (.reply reply, { st with system })
  | .clearEvents =>
      (.done, { st with system := st.system.mapEngine fun e => { e with events := {} } })
  | .storeRam address bytes =>
      match st.system.engine.ram.write address bytes with
      | .ok ram => (.written none, { st with system := st.system.mapEngine ({ · with ram }) })
      | .error fault => (.written (some fault), st)
  | .attach memory => (.done, { st with system := { st.system with memory } })
  | .host action => (.done, { st with link := action st.link })
  | .tick budget =>
      let (counts, st) := st.tick budget
      (.moved counts, st)

/-- The replies to a sequence of steps and the station after them. -/
def run (st : Station β) : List (Step β) → List StepReply × Station β
  | [] => ([], st)
  | step :: rest =>
      let (reply, next) := st.perform step
      let (replies, last) := run next rest
      (reply :: replies, last)

@[simp] theorem run_nil (st : Station β) : st.run [] = ([], st) := rfl

theorem run_cons (st : Station β) (step : Step β) (rest : List (Step β)) :
    st.run (step :: rest) =
      ((st.perform step).1 :: ((st.perform step).2.run rest).1,
        ((st.perform step).2.run rest).2) := rfl

/-- **A sequence may be run in pieces.** -/
theorem run_append (st : Station β) (first second : List (Step β)) :
    st.run (first ++ second) =
      ((st.run first).1 ++ ((st.run first).2.run second).1,
        ((st.run first).2.run second).2) := by
  induction first generalizing st with
  | nil => rfl
  | cons step rest ih => simp only [List.cons_append, run_cons, ih]

end Station

end PacketDma
