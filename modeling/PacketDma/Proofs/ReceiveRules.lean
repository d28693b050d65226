/-
**What a drain leaves alone.**

Which channel a frame goes to, and whether the channel is armed, does not depend on the frames that
have been placed before: a fill moves the place where the next frame starts, and only on the channel
of its own frame.  So the same rules hold all along a drain.

Main definitions:

* `PacketDma.System.SameRules` — two systems that receive frames by the same rules.

Main results:

* `PacketDma.System.SameRules.ready_eq` — by the same rules, the same frames are ready;
* `PacketDma.System.sameRules_fill`, `PacketDma.System.sameRules_drainFrames` — a fill, and a series
  of fills, keeps the rules;
* `PacketDma.System.receiveChannel_drainFrames_of_idle` — an idle channel is left alone.
-/

import PacketDma.Proofs.Drain

set_option autoImplicit false

namespace PacketDma

/-- The channel of a frame depends on the settings and one register only. -/
theorem Engine.channelOf_congr {e f : Engine} (hsettings : f.settings = e.settings)
    (htypes : f.registers.get .timestampTypes = e.registers.get .timestampTypes)
    (frame : InboundFrame) : f.channelOf frame = e.channelOf frame := by
  unfold channelOf classOf classify additionalTypes register
  rw [hsettings, htypes]

/-- A frame whose channel is armed is ready. -/
theorem Engine.ready_iff {e : Engine} {frame : InboundFrame} : e.ready frame = true ↔
    (e.channels.receiveChannel (e.channelOf frame)).head ≠ 0 := by
  simp [ready]

namespace System

variable {s t u : System} {frame : InboundFrame} {channel : ChannelId}

/-- `t` receives frames by the same rules as `s`: the settings are the same, and so are all
registers but those that latch what has happened, the head pointers of the receive channels, and
whether frames are taken. -/
structure SameRules (s t : System) : Prop where
  settings : t.engine.settings = s.engine.settings
  registers : ∀ index, index ≠ .interruptStatus → index ≠ .dmaStatus →
    t.engine.registers.get index = s.engine.registers.get index
  heads : ∀ channel, (t.engine.channels.receiveChannel channel).head =
    (s.engine.channels.receiveChannel channel).head
  accepting : t.engine.intake.accepting = s.engine.intake.accepting

namespace SameRules

theorem refl (s : System) : s.SameRules s := ⟨rfl, fun _ _ _ => rfl, fun _ => rfl, rfl⟩

theorem trans (h : s.SameRules t) (h' : t.SameRules u) : s.SameRules u where
  settings := h'.settings.trans h.settings
  registers index hinterrupt hstatus :=
    (h'.registers index hinterrupt hstatus).trans (h.registers index hinterrupt hstatus)
  heads channel := (h'.heads channel).trans (h.heads channel)
  accepting := h'.accepting.trans h.accepting

theorem receiveEnabled_eq (h : s.SameRules t) :
    t.engine.receiveEnabled = s.engine.receiveEnabled := by
  unfold Engine.receiveEnabled Engine.register
  rw [h.registers .receiveControl (by decide) (by decide)]

theorem channelOf_eq (h : s.SameRules t) (frame : InboundFrame) :
    t.engine.channelOf frame = s.engine.channelOf frame :=
  Engine.channelOf_congr h.settings (h.registers .timestampTypes (by decide) (by decide)) frame

theorem ready_eq (h : s.SameRules t) (frame : InboundFrame) :
    t.engine.ready frame = s.engine.ready frame := by
  rw [Engine.ready, Engine.ready, h.channelOf_eq, h.heads]

end SameRules

/-! ### One fill -/

/-- Which frames wait is none of the rules. -/
theorem sameRules_setWaiting (s : System) (waiting : List InboundFrame) :
    s.SameRules (s.mapEngine (·.setWaiting waiting)) :=
  ⟨rfl, fun _ _ _ => rfl, fun _ => rfl, rfl⟩

/-- The channel of a frame that is placed starts its next frame behind it; a fill changes no other
receive channel, and no head pointer at all. -/
theorem receiveChannel_fill (s : System) (frame : InboundFrame) :
    (∀ channel, channel ≠ s.engine.channelOf frame →
      (s.fill frame).2.engine.channels.receiveChannel channel =
        s.engine.channels.receiveChannel channel) ∧
    ∀ channel, ((s.fill frame).2.engine.channels.receiveChannel channel).head =
      (s.engine.channels.receiveChannel channel).head := by
  rcases fill_cases s frame with
    ⟨_, _, _, -, hfill, -⟩ | ⟨plan, memory, ram, _, _, _, _, _, -, -, hfill, -⟩
  · rw [hfill]
    exact ⟨fun _ _ => rfl, fun _ => rfl⟩
  · rw [hfill]
    refine ⟨fun channel hchannel => ?_, fun channel => ?_⟩
    · exact ChannelBank.receiveChannel_modifyReceive_of_ne _ hchannel _
    · show ((s.engine.channels.modifyReceive _ _).receiveChannel channel).head = _
      rw [ChannelBank.receiveChannel_modifyReceive]
      split
      · next hchannel => rw [hchannel]
      · rfl

/-- **A fill keeps the rules.** -/
theorem sameRules_fill (s : System) (frame : InboundFrame) : s.SameRules (s.fill frame).2 := by
  have hheads := (receiveChannel_fill s frame).2
  have haccepting := congrArg Intake.accepting (intake_fill s frame)
  rcases fill_cases s frame with
    ⟨_, _, _, -, hfill, hregisters⟩ | ⟨_, _, _, _, _, _, _, _, -, -, hfill, hregisters⟩ <;>
  rw [hfill] at hheads haccepting ⊢
  · exact ⟨rfl, fun index _ hstatus => hregisters index hstatus, hheads, haccepting⟩
  · exact ⟨rfl, fun index hinterrupt _ => hregisters index hinterrupt, hheads, haccepting⟩

/-! ### A series of fills -/

/-- The first fill of a drain, and the rest of it. -/
theorem drainFrames_cons (h : s.engine.ready frame = true) (rest : List InboundFrame) :
    (drainFrames (frame :: rest) s).2 =
      (drainFrames rest ((s.mapEngine (·.setWaiting rest)).fill frame).2).2 := by
  rw [drainFrames, if_pos h]

/-- **A series of fills keeps the rules.** -/
theorem sameRules_drainFrames (frames : List InboundFrame) (s : System) :
    s.SameRules (drainFrames frames s).2 := by
  induction frames generalizing s with
  | nil => exact .refl s
  | cons frame rest ih =>
      by_cases hready : s.engine.ready frame = true
      · rw [drainFrames_cons hready]
        have hfill := (s.sameRules_setWaiting rest).trans (sameRules_fill _ frame)
        exact hfill.trans (ih _)
      · rw [drainFrames_of_not_ready (Bool.not_eq_true _ ▸ hready)]
        exact .refl s

/-- A drain keeps the rules. -/
theorem sameRules_drain (s : System) : s.SameRules s.drain.2 := by
  unfold drain
  split
  · exact sameRules_drainFrames _ s
  · exact .refl s

/-- **An idle channel is left alone.** -/
theorem receiveChannel_drainFrames_of_idle (frames : List InboundFrame)
    (h : (s.engine.channels.receiveChannel channel).head = 0) :
    (drainFrames frames s).2.engine.channels.receiveChannel channel =
      s.engine.channels.receiveChannel channel := by
  induction frames generalizing s with
  | nil => rfl
  | cons frame rest ih =>
      by_cases hready : s.engine.ready frame = true
      · -- the channel of a frame that is placed is armed, and so it is another one
        have hother : channel ≠ s.engine.channelOf frame := by
          rintro rfl
          rw [Engine.ready, h] at hready
          exact absurd hready (by decide)
        obtain ⟨hkept, hheads⟩ := receiveChannel_fill (s.mapEngine (·.setWaiting rest)) frame
        rw [drainFrames_cons hready, ih ((hheads channel).trans h)]
        exact hkept channel hother
      · rw [drainFrames_of_not_ready (Bool.not_eq_true _ ▸ hready)]

end System

end PacketDma
