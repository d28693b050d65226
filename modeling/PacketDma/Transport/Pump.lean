/-
**Pumping frames between engine and host.**

The engine does not know the backend that leads to the host.  A tick moves frames between the two:
it tries the waiting frames again, sends transmitted frames over the backend, takes frames from the
backend, and tries the waiting frames once more.  A budget bounds the frames moved in each
direction.

Main definitions:

* `PacketDma.Station` — a system and its backend;
* `PacketDma.Station.send`, `PacketDma.Station.fetch` — the two directions;
* `PacketDma.Station.tick` — one round;
* `PacketDma.Station.ticks` — a number of rounds.
-/

import PacketDma.Engine.Receive
import PacketDma.Transport.Link

set_option autoImplicit false

namespace PacketDma

/-- A system and its backend, a link unless another one is named. -/
structure Station (β : Type := Link) where
  system : System
  link : β

/-- How many frames a tick may move in each direction. -/
structure PumpBudget where
  transmit : Nat := 256
  receive : Nat := 256
deriving DecidableEq, Repr

/-- How many frames a tick has moved in each direction. -/
structure PumpCounts where
  transmitted : Nat
  received : Nat
deriving DecidableEq, Repr

/-- A fault that says the arriving frame itself was refused; after any other fault the frame waits
or has been dealt with. -/
def DmaFault.isRefusal : DmaFault → Bool
  | .frameLength .. | .receiveDisabled | .queueFull .. => true
  | _ => false

namespace Station

variable {β : Type}

/-- Tries the waiting frames again. -/
def retry (st : Station β) : Station β := { st with system := st.system.drain.2 }

variable [Backend β]

/-- Sends up to `budget` transmitted frames, oldest first, and says how many. -/
def send : (budget : Nat) → Station β → Nat × Station β
  | 0, st => (0, st)
  | budget + 1, st =>
      match st.system.engine.takeEgress with
      | (none, _) => (0, st)
      | (some frame, engine) =>
          let (sent, st) := send budget
            { system := { st.system with engine }, link := Backend.transmit st.link frame }
          (sent + 1, st)

/-- Takes up to `budget` frames from the backend and says how many the engine has accepted. -/
def fetch : (budget : Nat) → Station β → Nat × Station β
  | 0, st => (0, st)
  | budget + 1, st =>
      match Backend.poll st.link with
      | (none, link) => (0, { st with link })
      | (some frame, link) =>
          let (fault, system) := st.system.receive { bytes := frame }
          let (fetched, st) := fetch budget { system, link }
          (if fault.any DmaFault.isRefusal then fetched else fetched + 1, st)

/-- One round of moving frames in both directions. -/
def tick (budget : PumpBudget) (st : Station β) : PumpCounts × Station β :=
  let (transmitted, st) := st.retry.send budget.transmit
  let (received, st) := st.fetch budget.receive
  ({ transmitted, received }, st.retry)

/-- A number of rounds, and what each has moved. -/
def ticks (budget : PumpBudget) : (rounds : Nat) → Station β → List PumpCounts × Station β
  | 0, st => ([], st)
  | rounds + 1, st =>
      let (counts, st) := st.tick budget
      let (later, st) := ticks budget rounds st
      (counts :: later, st)

@[simp] theorem send_zero (st : Station β) : send 0 st = (0, st) := rfl

@[simp] theorem fetch_zero (st : Station β) : fetch 0 st = (0, st) := rfl

end Station

end PacketDma
