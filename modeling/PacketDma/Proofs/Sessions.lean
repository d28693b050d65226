/-
**What holds along sessions.**

A session is made of the actions of an engine: a tick of the pump is a number of them, and apart from
them the host only discards events, writes descriptor RAM, attaches another memory, and acts on the
backend.  So what every action keeps holds along a session, once these few steps keep it as well.

Main results:

* `PacketDma.Station.tick_induction` — what every action keeps, a tick keeps;
* `PacketDma.Station.perform_induction`, `PacketDma.Station.run_induction` — the same for a step and
  for a session;
* `PacketDma.Station.settings_run`, `PacketDma.Station.shape_run` — a session changes neither the
  settings nor the place and size of descriptor RAM.
-/

import PacketDma.Proofs.Consistency
import PacketDma.Proofs.MemoryShape
import PacketDma.Proofs.PumpAccounts
import PacketDma.Transport.Session

set_option autoImplicit false

namespace PacketDma

/-- Bytes that the host writes into descriptor RAM leave the engine consistent. -/
theorem Engine.Consistent.writeRam {e : Engine} (h : e.Consistent) {address : UInt64}
    {bytes : List UInt8} {ram : Aperture} (hwrite : e.ram.write address bytes = .ok ram) :
    ({ e with ram } : Engine).Consistent :=
  { h with
    ramBase := (Aperture.sameExtent_of_write hwrite).1.trans h.ramBase
    ramSize := (Aperture.sameExtent_of_write hwrite).2.trans h.ramSize }

namespace Station

variable {β : Type} [Backend β]

/-- What every action keeps, a tick keeps. -/
theorem tick_induction {P : System → Prop}
    (hact : ∀ (s : System) (action : Action), action.Possible → P s → P (s.act action))
    {st : Station β} (h : P st.system) (budget : PumpBudget) : P (st.tick budget).2.system := by
  obtain ⟨fetched, calls, -, htick⟩ := exists_tick st budget
  rw [htick]
  have hready := System.run_induction hact h
    (.poll :: List.replicate (st.system.engine.egress.take budget.transmit).length .takeEgress)
  exact hact _ .drain trivial (System.run_induction hact hready (System.arrivals fetched))

section Induction

variable {P : System → Prop}
  (hact : ∀ (s : System) (action : Action), action.Possible → P s → P (s.act action))
  (hclear : ∀ s : System, P s → P (s.mapEngine fun e => { e with events := {} }))
  (hstore : ∀ (s : System) (address : UInt64) (bytes : List UInt8) (ram : Aperture),
    s.engine.ram.write address bytes = .ok ram → P s → P (s.mapEngine ({ · with ram })))

include hact hclear hstore

/-- What every action keeps, and the few steps that are none, a step keeps. -/
theorem perform_induction {st : Station β} {step : Step β}
    (hattach : ∀ (s : System) (memory : Memory), step = .attach memory → P s → P { s with memory })
    (h : P st.system) : P (st.perform step).2.system := by
  cases step with
  | engine op =>
      simp only [perform, System.perform_eq_act]
      exact hact _ _ op.possible_action h
  | clearEvents => exact hclear _ h
  | storeRam address bytes =>
      simp only [perform]
      split
      · next ram hwrite => exact hstore _ address bytes ram hwrite h
      · exact h
  | attach memory => exact hattach _ memory rfl h
  | host action => exact h
  | tick budget => exact tick_induction hact h budget

/-- **What every step keeps holds along a session.** -/
theorem run_induction {st : Station β} {steps : List (Step β)}
    (hattach : ∀ (s : System) (memory : Memory), Step.attach memory ∈ steps → P s →
      P { s with memory })
    (h : P st.system) : P (st.run steps).2.system := by
  induction steps generalizing st with
  | nil => exact h
  | cons step rest ih =>
      refine ih (fun s memory hmem => hattach s memory (List.mem_cons_of_mem _ hmem)) ?_
      refine perform_induction hact hclear hstore (fun s memory heq => ?_) h
      exact hattach s memory (heq ▸ List.mem_cons_self ..)

end Induction

variable (st : Station β) (steps : List (Step β))

/-- **A session does not change the settings.** -/
theorem settings_run : (st.run steps).2.system.engine.settings = st.system.engine.settings :=
  run_induction (P := fun s => s.engine.settings = st.system.engine.settings)
    (fun s action _ h => (s.settings_act action).trans h) (fun _ h => h) (fun _ _ _ _ _ h => h)
    (fun _ _ _ h => h) rfl

/-- **A session does not move descriptor RAM, nor change its size.** -/
theorem shape_run : (st.run steps).2.system.engine.ram.shape = st.system.engine.ram.shape :=
  run_induction (P := fun s => s.engine.ram.shape = st.system.engine.ram.shape)
    (fun s action _ h => (congrArg Prod.snd (s.shapes_act action)).trans h) (fun _ h => h)
    (fun _ _ _ _ hwrite h => (Aperture.shape_of_write hwrite).trans h) (fun _ _ _ h => h) rfl

end Station

end PacketDma
