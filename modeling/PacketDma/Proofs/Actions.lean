/-
**What operations come to.**

There are many ways to reach the engine and few things that can be done to it.  A register is
written by its offset or through a lane on the bus; a poll and a bus read of descriptor RAM both try
the waiting frames; a read of anything else does nothing.  An action is what is left of an operation
when the way is forgotten, and what an engine does over time is a matter of actions only.

Main definitions:

* `PacketDma.Action` — what can be done to a system;
* `PacketDma.Action.isQuiet` — whether an action leaves alone what has been sent;
* `PacketDma.Operation.action` — what an operation comes to;
* `PacketDma.System.act` — a system after an action;
* `PacketDma.System.SameTraffic` — the same frames have come and gone on two systems;
* `PacketDma.System.TrafficCase` — what an action is to the traffic;
* `PacketDma.System.logFrom`, `PacketDma.System.log` — the log that a run keeps of its actions.

Main results:

* `PacketDma.System.perform_eq_act` — **an operation does what it comes to**;
* `PacketDma.System.act_cases` — **what an action can do**;
* `PacketDma.System.settings_act` — no action changes the settings;
* `PacketDma.System.run_induction` — what every action keeps holds along every run;
* `PacketDma.System.log_induction` — the same for a relation between a system and its log;
* `PacketDma.System.drain_induction` — what every fill keeps holds after a drain.
-/

import PacketDma.Proofs.Reachable

set_option autoImplicit false

namespace PacketDma

/-- What can be done to a system. -/
inductive Action where
  /-- Nothing. -/
  | idle
  /-- The waiting frames are tried. -/
  | drain
  /-- A register is written. -/
  | store (register : Register) (value : UInt32)
  /-- A frame arrives and is placed if possible. -/
  | arrive (frame : InboundFrame)
  /-- A frame arrives and waits. -/
  | queue (frame : InboundFrame)
  /-- The host takes a transmitted frame. -/
  | takeEgress
  /-- The engine is reset as a whole. -/
  | reset
  /-- The host queues a timestamp event. -/
  | pushEvent (event : Event)
  /-- The host takes a timestamp event. -/
  | popEvent
  /-- Bytes are written at an offset of descriptor RAM. -/
  | storeRam (offset : UInt64) (bytes : List UInt8)
  /-- Words are written at a bus address of descriptor RAM. -/
  | writeRam (address : UInt64) (words : List UInt32)
  /-- Memory is written. -/
  | writeMemory (address : UInt64) (bytes : List UInt8)
deriving DecidableEq, Repr

/-- Whether an action neither sends a frame nor takes one that has been sent, and forgets none. -/
def Action.isQuiet : Action → Bool
  | .reset | .takeEgress => false
  | .store (.transmitHead _) value => value == 0
  | _ => true

/-- A register that is written stands at some position. -/
def Action.Possible : Action → Prop
  | .store register _ => ∃ index, register = .ofIndex index
  | _ => True

namespace Operation

/-- What an operation comes to. -/
def action : Operation → Action
  | .busRead offset size =>
      match AccessWidth.ofSize? size with
      | none => .idle
      | some width =>
          match BusTarget.decode offset width with
          | some (.ram _) => .drain
          | _ => .idle
  | .busWrite offset size value =>
      match AccessWidth.ofSize? size with
      | none => .idle
      | some width =>
          match BusTarget.decode offset width with
          | none => .idle
          | some (.register register lane) =>
              .store register ((value &&& width.mask).toUInt32 <<< UInt32.ofNat (8 * lane))
          | some (.ram offset) => .storeRam offset (LittleEndian.encode width.bytes value.toNat)
  | .writeRegister offset value =>
      match Register.decode offset with
      | some register => .store register value
      | none => .idle
  | .receive frame => .arrive frame
  | .deliver frame => .queue frame
  | .poll => .drain
  | .takeEgress => .takeEgress
  | .reset => .reset
  | .pushEvent event => .pushEvent event
  | .popEvent => .popEvent
  | .writeRam address words => .writeRam address words
  | .writeMemory address bytes => .writeMemory address bytes
  | .readRegister _ | .readRam _ | .readMemory .. => .idle

/-- An operation comes to a store exactly when it writes a register. -/
theorem action_eq_store_iff {op : Operation} {register : Register} {value : UInt32} :
    op.action = .store register value ↔ op.registerWrite? = some (register, value) := by
  cases op with
  | busRead offset size =>
      simp only [action, registerWrite?]
      cases AccessWidth.ofSize? size with
      | none => simp
      | some width =>
          cases hdecode : BusTarget.decode offset width with
          | none => simp [hdecode]
          | some target => cases target <;> simp [hdecode]
  | busWrite offset size word =>
      simp only [action, registerWrite?]
      cases AccessWidth.ofSize? size with
      | none => simp
      | some width =>
          cases hdecode : BusTarget.decode offset width with
          | none => simp [hdecode]
          | some target => cases target <;> simp [hdecode]
  | writeRegister offset word =>
      simp only [action, registerWrite?]
      cases Register.decode offset <;> simp
  | _ => simp [action, registerWrite?]

/-- What the host does to the engine as a whole or to the event queue is nothing that software can
come to. -/
theorem action_eq_host_iff (op : Operation) :
    (op.action = .reset ↔ op = .reset) ∧ (op.action = .popEvent ↔ op = .popEvent) ∧
      ∀ event, op.action = .pushEvent event ↔ op = .pushEvent event := by
  cases op with
  | busRead offset size =>
      simp only [action]
      split
      · simp
      · split <;> simp
  | busWrite offset size word =>
      simp only [action]
      split
      · simp
      · split <;> simp
  | writeRegister offset word =>
      simp only [action]
      split <;> simp
  | _ => simp [action]

/-- Only a full reset comes to one. -/
theorem action_eq_reset_iff {op : Operation} : op.action = .reset ↔ op = .reset :=
  op.action_eq_host_iff.1

theorem possible_action (op : Operation) : op.action.Possible := by
  cases haction : op.action with
  | store register value => exact exists_ofIndex (action_eq_store_iff.1 haction)
  | _ => trivial

end Operation

namespace System

/-- A system after an action. -/
def act (s : System) : Action → System
  | .idle => s
  | .drain => s.drain.2
  | .store register value => (s.store value register).2
  | .arrive frame => (s.receive frame).2
  | .queue frame => (s.deliver frame).2
  | .takeEgress => s.mapEngine (·.takeEgress.2)
  | .reset => s.mapEngine (·.reset)
  | .pushEvent event => s.mapEngine fun e => { e with events := e.events.push event }
  | .popEvent => s.mapEngine fun e => { e with events := e.events.pop.2 }
  | .storeRam offset bytes => s.mapEngine (·.storeRam offset bytes)
  | .writeRam address words => (s.writeRam address words).2
  | .writeMemory address bytes => (s.writeMemory address bytes).2

/-- **An operation does what it comes to.** -/
theorem perform_eq_act (s : System) (op : Operation) : (s.perform op).2 = s.act op.action := by
  cases op with
  | busRead offset size =>
      simp only [perform, busRead, Operation.action]
      cases AccessWidth.ofSize? size with
      | none => rfl
      | some width =>
          cases hdecode : BusTarget.decode offset width with
          | none => simp [hdecode, act]
          | some target => cases target <;> simp [hdecode, act]
  | busWrite offset size value =>
      simp only [perform, busWrite, Operation.action]
      cases AccessWidth.ofSize? size with
      | none => rfl
      | some width =>
          cases hdecode : BusTarget.decode offset width with
          | none => simp [hdecode, act]
          | some target => cases target <;> simp [hdecode, act]
  | writeRegister offset value =>
      simp only [perform, writeRegister, Operation.action]
      cases Register.decode offset <;> rfl
  | _ => rfl

/-! ### What actions can do -/

/-- Two systems have the same settings, and the same frames have come and gone on them. -/
structure SameTraffic (s t : System) : Prop where
  settings : t.engine.settings = s.engine.settings
  egress : t.engine.egress = s.engine.egress
  stats : t.engine.stats = s.engine.stats

theorem SameTraffic.refl (s : System) : s.SameTraffic s := ⟨rfl, rfl, rfl⟩

/-- A frame that arrives is offered to the intake, and the waiting frames are tried if it is
taken. -/
theorem receive_cases (s : System) (frame : InboundFrame) :
    let offered := s.mapEngine fun e => (e.offer frame).2
    (s.receive frame).2 = offered ∨ (s.receive frame).2 = offered.drain.2 := by
  intro offered
  cases hrefusal : s.engine.intake.refusal? s.engine.settings.pendingLimit frame with
  | some fault =>
      refine Or.inl ?_
      simp only [offered, receive, mapEngine, Engine.offer_of_refusal hrefusal]
  | none =>
      refine Or.inr ?_
      simp only [offered, receive, mapEngine, Engine.offer_of_none hrefusal]

/-- What an action is to the traffic of a system. -/
inductive TrafficCase (s : System) : Action → Prop
  | reset : TrafficCase s .reset
  | takeEgress : TrafficCase s .takeEgress
  /-- A head pointer is written, and the frame that it leads to is sent. -/
  | send (channel : ChannelId) (value : UInt32) (hvalue : value ≠ 0) :
      TrafficCase s (.store (.transmitHead channel) value)
  /-- Nothing comes or goes. -/
  | quiet {action : Action} (hquiet : action.isQuiet = true) (h : s.SameTraffic (s.act action)) :
      TrafficCase s action
  /-- Nothing comes or goes before the waiting frames are tried. -/
  | drain {action : Action} (hquiet : action.isQuiet = true) {t : System} (h : s.SameTraffic t)
      (hact : s.act action = t.drain.2) : TrafficCase s action

/-- **What an action can do**: a full reset, a frame that the host takes, a frame that is sent, or
something that does not concern the traffic, after which the waiting frames may be tried. -/
theorem act_cases (s : System) (action : Action) : s.TrafficCase action := by
  cases action with
  | reset => exact .reset
  | takeEgress => exact .takeEgress
  | drain => exact .drain rfl (.refl s) rfl
  | store register value =>
      cases register with
      | transmitHead channel =>
          by_cases hzero : value = 0
          · subst hzero
            exact .quiet rfl ⟨rfl, rfl, rfl⟩
          · exact .send channel value hzero
      | receiveHead channel =>
          exact .drain rfl (t := s.mapEngine (·.armReceive channel value)) ⟨rfl, rfl, rfl⟩ rfl
      | receiveControl =>
          by_cases hzero : value &&& 1 = 0
          · refine .quiet rfl ?_
            simp only [act, store, hzero, if_true]
            exact ⟨rfl, rfl, rfl⟩
          · refine .drain rfl (t := s.mapEngine (·.controlReceive value)) ⟨rfl, rfl, rfl⟩ ?_
            simp only [act, store, hzero, if_false]
      | dmaReset =>
          refine .quiet rfl ?_
          simp only [act, store]
          split <;> exact ⟨rfl, rfl, rfl⟩
      | eventPop =>
          refine .quiet rfl ?_
          simp only [act, store]
          split <;> exact ⟨rfl, rfl, rfl⟩
      | _ => exact .quiet rfl ⟨rfl, rfl, rfl⟩
  | arrive frame =>
      have hoffered : s.SameTraffic (s.mapEngine fun e => (e.offer frame).2) := ⟨rfl, rfl, rfl⟩
      rcases s.receive_cases frame with hrefused | htaken
      · refine .quiet rfl ?_
        show s.SameTraffic (s.receive frame).2
        rw [hrefused]
        exact hoffered
      · exact .drain rfl hoffered htaken
  | storeRam offset bytes =>
      refine .quiet rfl ?_
      simp only [act, mapEngine, Engine.storeRam]
      split <;> exact ⟨rfl, rfl, rfl⟩
  | writeMemory address bytes =>
      refine .quiet rfl ?_
      simp only [act, writeMemory]
      split <;> exact ⟨rfl, rfl, rfl⟩
  | _ => exact .quiet rfl ⟨rfl, rfl, rfl⟩

/-- A transmission leaves the settings alone. -/
theorem settings_transmit (s : System) (channel : ChannelId) :
    (s.transmit channel).2.engine.settings = s.engine.settings := by
  cases hgather : gather s.engine.ram s.memory channel
      (s.engine.channels.transmitChannel channel).head s.engine.settings.walkLimit with
  | error fault =>
      rw [transmit_of_error hgather]
      rfl
  | ok g =>
      obtain ⟨ram, -, htransmit⟩ := exists_transmit_of_gather hgather
      obtain ⟨_, _, _, _, _, hemit, -⟩ := Engine.exists_emit { s.engine with ram } channel g
      rw [htransmit, hemit]
      rfl

/-- **No action changes the settings.** -/
theorem settings_act (s : System) (action : Action) :
    (s.act action).engine.settings = s.engine.settings := by
  cases act_cases s action with
  | reset => rfl
  | takeEgress => rfl
  | send channel value hvalue =>
      simp only [act, store, hvalue, if_false]
      exact settings_transmit ..
  | quiet _ h => exact h.settings
  | drain _ h hact =>
      rw [hact]
      exact (sameRules_drain _).settings.trans h.settings

/-! ### Runs -/

/-- **What every action keeps holds along every run.** -/
theorem run_induction {P : System → Prop}
    (hact : ∀ (s : System) (action : Action), action.Possible → P s → P (s.act action))
    {s : System} (h : P s) (ops : List Operation) : P (s.run ops).2 := by
  induction ops generalizing s with
  | nil => exact h
  | cons op rest ih =>
      have hnext : P (s.perform op).2 := by
        rw [perform_eq_act]
        exact hact s op.action op.possible_action h
      exact ih hnext

section Log

variable {α : Type} (entries : System → Action → List α)

/-- A log after an action: the action adds its entries, and a full reset starts a new log. -/
def extend (s : System) (log : List α) (action : Action) : List α :=
  if action = .reset then [] else log ++ entries s action

/-- The log after a run that starts with the given one. -/
def logFrom (s : System) (log : List α) : List Operation → List α
  | [] => log
  | op :: rest => logFrom (s.perform op).2 (s.extend entries log op.action) rest

/-- The log of a run. -/
def log (s : System) (ops : List Operation) : List α := s.logFrom entries [] ops

theorem logFrom_append (s : System) (log : List α) (first second : List Operation) :
    s.logFrom entries log (first ++ second) =
      (s.run first).2.logFrom entries (s.logFrom entries log first) second := by
  induction first generalizing s log with
  | nil => rfl
  | cons op rest ih => exact ih _ _

/-- The log of a run that goes one operation further. -/
theorem log_concat (s : System) (ops : List Operation) (op : Operation) :
    s.log entries (ops ++ [op]) =
      (s.run ops).2.extend entries (s.log entries ops) op.action :=
  logFrom_append entries s [] ops [op]

variable {entries}

theorem extend_of_ne {s : System} {log : List α} {action : Action} (h : action ≠ .reset) :
    s.extend entries log action = log ++ entries s action := if_neg h

theorem extend_store (s : System) (log : List α) (register : Register) (value : UInt32) :
    s.extend entries log (.store register value) = log ++ entries s (.store register value) :=
  extend_of_ne (by simp)

/-- **What every action keeps between a system and its log holds along every run.** -/
theorem log_induction {I : List α → System → Prop} {ops : List Operation}
    (hact : ∀ op ∈ ops, ∀ (s : System) (log : List α), I log s →
      I (s.extend entries log op.action) (s.act op.action))
    {s : System} {log : List α} (h : I log s) : I (s.logFrom entries log ops) (s.run ops).2 := by
  induction ops generalizing s log with
  | nil => exact h
  | cons op rest ih =>
      have hnext : I (s.extend entries log op.action) (s.perform op).2 := by
        rw [perform_eq_act]
        exact hact op (List.mem_cons_self ..) s log h
      exact ih (fun other hother => hact other (List.mem_cons_of_mem _ hother)) hnext

end Log

/-! ### Drains -/

section Drain

variable {P : System → Prop}
  (hfill : ∀ (s : System) (frame : InboundFrame) (rest : List InboundFrame),
    s.engine.intake.frames = frame :: rest → s.engine.ready frame = true → P s →
    P ((s.mapEngine (·.setWaiting rest)).fill frame).2)

include hfill

theorem drainFrames_induction (frames : List InboundFrame) {s : System}
    (hframes : s.engine.intake.frames = frames) (h : P s) : P (drainFrames frames s).2 := by
  induction frames generalizing s with
  | nil => exact h
  | cons frame rest ih =>
      by_cases hready : s.engine.ready frame = true
      · rw [drainFrames_cons hready]
        -- a fill leaves the queue alone
        have hrest := congrArg Intake.frames (intake_fill (s.mapEngine (·.setWaiting rest)) frame)
        exact ih hrest (hfill s frame rest hframes hready h)
      · rw [drainFrames_of_not_ready (Bool.not_eq_true _ ▸ hready)]
        exact h

/-- **What every fill keeps holds after a drain.** -/
theorem drain_induction {s : System} (h : P s) : P s.drain.2 := by
  unfold drain
  split
  · exact drainFrames_induction hfill _ rfl h
  · exact h

end Drain

end System

end PacketDma
