/-
**Nothing reshapes memory.**

No access changes the shape of a memory, and so neither does anything that is done to a system:
descriptor RAM stays where it is, and as large as the settings say.

Main definitions:

* `PacketDma.System.shapes` — the shapes of the memory and of the descriptor RAM of a system.

Main results:

* `PacketDma.System.shapes_fill`, `PacketDma.System.shapes_transmit` — transfers keep the shapes;
* `PacketDma.System.shapes_act` — **so does every action**.
-/

import PacketDma.Memory.Shape
import PacketDma.Proofs.Actions

set_option autoImplicit false

namespace PacketDma

/-! ### Descriptors written in sequence -/

/-- What every step of a sequence keeps, the sequence keeps. -/
theorem applyEach_induction {σ α : Type} {step : α → σ → Except DmaFault σ} {P : σ → Prop}
    (hstep : ∀ item state next, step item state = .ok next → P state → P next) (items : List α)
    {state : σ} (h : P state) : P (applyEach step items state).2 := by
  induction items generalizing state with
  | nil => exact h
  | cons item rest ih =>
      cases hitem : step item state with
      | ok next =>
          rw [applyEach_cons_ok hitem]
          exact ih (hstep item state next hitem h)
      | error fault =>
          rw [applyEach_cons_error hitem]
          exact h

theorem liftMemory_eq_ok_iff {α : Type} {result : Except MemoryFault α} {a : α} :
    liftMemory result = .ok a ↔ result = .ok a := by
  cases result with
  | ok b => simp
  | error fault => simp

theorem ReceiveDescriptor.shape_of_encode {d : ReceiveDescriptor} {ram written : Aperture}
    (h : d.encode ram = .ok written) : written.shape = ram.shape := by
  have hok := liftMemory_eq_ok_iff.1 h
  cases hslot : ram.translate d.address.toUInt64 Slot.length with
  | error fault =>
      rw [hslot] at hok
      cases hok
  | ok offset =>
      rw [hslot] at hok
      exact Aperture.shape_of_write hok

theorem TransmitDescriptor.shape_of_encode {d : TransmitDescriptor} {ram written : Aperture}
    (h : d.encode ram = .ok written) : written.shape = ram.shape :=
  Aperture.shape_of_write (liftMemory_eq_ok_iff.1 h)

/-! ### Systems -/

namespace System

/-- The shapes of the memory and of the descriptor RAM. -/
def shapes (s : System) : MemoryShape × UInt64 × MemoryShape :=
  (s.memory.shape, s.engine.ram.shape)

variable (s : System)

theorem shape_writeSegments (frame : Frame) (segments : List Segment) (memory : Memory) :
    (applyEach (writeSegment frame) segments memory).2.shape = memory.shape :=
  applyEach_induction (P := fun written => written.shape = memory.shape)
    (fun _ _ _ h hkept => (Memory.shape_of_write (liftMemory_eq_ok_iff.1 h)).trans hkept) segments
    rfl

theorem shape_encodeReports (descriptors : List ReceiveDescriptor) (ram : Aperture) :
    (applyEach ReceiveDescriptor.encode descriptors ram).2.shape = ram.shape :=
  applyEach_induction (P := fun written => written.shape = ram.shape)
    (fun _ _ _ h hkept => (ReceiveDescriptor.shape_of_encode h).trans hkept) descriptors rfl

theorem shape_encodeReturned (descriptors : List TransmitDescriptor) (ram : Aperture) :
    (applyEach TransmitDescriptor.encode descriptors ram).2.shape = ram.shape :=
  applyEach_induction (P := fun written => written.shape = ram.shape)
    (fun _ _ _ h hkept => (TransmitDescriptor.shape_of_encode h).trans hkept) descriptors rfl

theorem shapes_commit (channel : ChannelId) (frame : InboundFrame) (plan : FillPlan) :
    (s.commit channel frame plan).2.shapes = s.shapes := by
  have hmemory := shape_writeSegments frame.bytes plan.segments s.memory
  have hram := shape_encodeReports (plan.report frame) s.engine.ram
  unfold commit
  split
  · next fault memory hwritten =>
      rw [hwritten] at hmemory
      exact congrArg (Prod.mk · _) hmemory
  · next memory hwritten =>
      rw [hwritten] at hmemory
      split
      · next fault ram hencoded =>
          rw [hencoded] at hram
          exact congrArg₂ Prod.mk hmemory hram
      · next ram hencoded =>
          rw [hencoded] at hram
          exact congrArg₂ Prod.mk hmemory hram

theorem shapes_mapEngine {f : Engine → Engine} (h : (f s.engine).ram = s.engine.ram) :
    (s.mapEngine f).shapes = s.shapes :=
  congrArg (fun ram : Aperture => (s.memory.shape, ram.shape)) h

/-- **A fill keeps the shapes.** -/
theorem shapes_fill (frame : InboundFrame) : (s.fill frame).2.shapes = s.shapes := by
  cases hplan : s.engine.plan s.memory (s.engine.channelOf frame) frame.bytes.length with
  | error fault =>
      rw [fill_of_error hplan]
      refine s.shapes_mapEngine ?_
      cases fault <;> rfl
  | ok plan =>
      obtain ⟨memory, ram, -, hcommit⟩ := exists_commit hplan
      have hkept := s.shapes_commit (s.engine.channelOf frame) frame plan
      rw [hcommit] at hkept
      rw [fill_of_commit hplan hcommit]
      refine (shapes_mapEngine _ ?_).trans hkept
      obtain ⟨_, _, _, _, _, hcount, -⟩ := Engine.exists_countReceived
        ({ s.engine with ram }.advance (s.engine.channelOf frame) plan) (s.engine.classOf frame)
        frame.bytes
      rw [hcount]

theorem shapes_drain : s.drain.2.shapes = s.shapes :=
  drain_induction (P := fun t => t.shapes = s.shapes)
    (fun t frame rest _ _ ht => (shapes_fill (t.mapEngine (·.setWaiting rest)) frame).trans ht) rfl

/-- **A transmission keeps the shapes.** -/
theorem shapes_transmit (channel : ChannelId) : (s.transmit channel).2.shapes = s.shapes := by
  cases hgather : gather s.engine.ram s.memory channel
      (s.engine.channels.transmitChannel channel).head s.engine.settings.walkLimit with
  | error fault =>
      rw [transmit_of_error hgather]
      rfl
  | ok g =>
      obtain ⟨ram, hok, -⟩ := exists_handedBack hgather
      have hkept := shape_encodeReturned g.returned s.engine.ram
      rw [hok] at hkept
      have hram : ({ s.engine with ram }.emit channel g).ram = ram := by
        obtain ⟨_, _, _, _, _, hemit, -⟩ := Engine.exists_emit { s.engine with ram } channel g
        rw [hemit]
      simp only [transmit, hgather, hok]
      exact congrArg (Prod.mk s.memory.shape) ((congrArg Aperture.shape hram).trans hkept)

theorem shapes_store (value : UInt32) (register : Register) :
    (s.store value register).2.shapes = s.shapes := by
  cases register with
  | dmaReset =>
      simp only [store]
      split <;> rfl
  | transmitHead channel =>
      simp only [store]
      split
      · rfl
      · exact shapes_transmit (s.mapEngine (·.setTransmitHead channel value)) channel
  | receiveHead channel => exact shapes_drain (s.mapEngine (·.armReceive channel value))
  | receiveControl =>
      simp only [store]
      split
      · rfl
      · exact shapes_drain (s.mapEngine (·.controlReceive value))
  | eventPop =>
      simp only [store]
      split <;> rfl
  | _ => rfl

/-- **No action changes the shape of the memory or of the descriptor RAM.** -/
theorem shapes_act (action : Action) : (s.act action).shapes = s.shapes := by
  cases action with
  | drain => exact s.shapes_drain
  | store register value => exact s.shapes_store value register
  | arrive frame =>
      rcases s.receive_cases frame with hrefused | htaken
      · show (s.receive frame).2.shapes = s.shapes
        rw [hrefused]
        rfl
      · show (s.receive frame).2.shapes = s.shapes
        rw [htaken]
        exact shapes_drain (s.mapEngine fun e => (e.offer frame).2)
  | reset =>
      exact congrArg (fun shape => (s.memory.shape, s.engine.ram.base, shape))
        (Memory.shape_clear s.engine.ram.store)
  | storeRam offset bytes =>
      simp only [act, mapEngine, Engine.storeRam]
      split
      · next store hwrite =>
          exact congrArg (fun shape => (s.memory.shape, s.engine.ram.base, shape))
            (Memory.shape_of_write hwrite)
      · rfl
  | writeRam address words =>
      exact congrArg (Prod.mk s.memory.shape)
        (Aperture.shape_writeWords s.engine.ram address words)
  | writeMemory address bytes =>
      simp only [act, writeMemory]
      split
      · next memory hwrite =>
          exact congrArg (Prod.mk · s.engine.ram.shape) (Memory.shape_of_write hwrite)
      · rfl
  | _ => rfl

end System

end PacketDma
