/-
**What the channel pointers remember.**

Each channel shows two words to software: a head pointer and a completion pointer.  Both are what
has happened to the channel last.  A log of what happens to channels, kept beside a run, holds the
writes of head pointers of receive channels, the frames that are placed or sent, each with the
second word of its first descriptor at that moment, and the resets of the DMA engine; a full reset
starts a new log.  The words that a channel shows are then the last ones that the log says since the
last reset.

Main definitions:

* `PacketDma.PointerEntry` — what can happen to a channel;
* `PacketDma.lastWord` — the last word that a log says since the last reset;
* `PacketDma.System.pointerEntries`, `PacketDma.System.pointerLog` — the entries of an action, and
  the log of a run;
* `PacketDma.ChannelBank.Recorded` — the channels show what a log says.

Main results:

* `PacketDma.System.recorded_fill`, `PacketDma.System.recorded_drain`,
  `PacketDma.System.recorded_transmit` — frames leave their entry;
* `PacketDma.System.recorded_act` — every action keeps channels and log together;
* `PacketDma.System.channels_show_their_history` — **the channels show what has happened to them
  last**.
-/

import PacketDma.Proofs.Confinement
import PacketDma.Proofs.Consistency
import PacketDma.Proofs.RingProtocol
import PacketDma.Proofs.RoundTrip

set_option autoImplicit false

namespace PacketDma

/-! ### Logs -/

/-- What can happen to a channel. -/
inductive PointerEntry where
  /-- The DMA engine is reset alone. -/
  | cleared
  /-- The head pointer of a receive channel is written. -/
  | armed (channel : ChannelId) (head : UInt32)
  /-- A frame is placed whose first descriptor has this buffer pointer. -/
  | received (channel : ChannelId) (pointer : UInt32)
  /-- A frame is sent whose first descriptor has this buffer pointer. -/
  | sent (channel : ChannelId) (pointer : UInt32)
deriving DecidableEq, Repr

namespace PointerEntry

/-- Whether an entry is a reset. -/
def isCleared : PointerEntry → Bool
  | .cleared => true
  | _ => false

/-- The head pointer that an entry says for a receive channel. -/
def armedOn (channel : ChannelId) : PointerEntry → Option UInt32
  | .armed c head => if c = channel then some head else none
  | _ => none

/-- The completion pointer that an entry says for a receive channel. -/
def receivedOn (channel : ChannelId) : PointerEntry → Option UInt32
  | .received c pointer => if c = channel then some pointer else none
  | _ => none

/-- The completion pointer that an entry says for a transmit channel. -/
def sentOn (channel : ChannelId) : PointerEntry → Option UInt32
  | .sent c pointer => if c = channel then some pointer else none
  | _ => none

end PointerEntry

open PointerEntry

/-- The last word that a log says since the last reset, zero if there is none. -/
def lastWord (word? : PointerEntry → Option UInt32) (log : List PointerEntry) : UInt32 :=
  ((log.reverse.takeWhile fun entry => !entry.isCleared).findSome? word?).getD 0

section LastWord

variable {word? : PointerEntry → Option UInt32} {log more : List PointerEntry} {entry : PointerEntry}

/-- A reset says nothing, and nothing before it counts. -/
theorem lastWord_concat_cleared : lastWord word? (log ++ [.cleared]) = 0 := by
  simp [lastWord, isCleared]

/-- Any other entry counts before those that it follows. -/
theorem lastWord_concat (h : entry.isCleared = false) :
    lastWord word? (log ++ [entry]) = (word? entry).getD (lastWord word? log) := by
  simp only [lastWord, List.reverse_append, List.reverse_singleton, List.singleton_append,
    List.takeWhile_cons, h, Bool.not_false, if_true, List.findSome?_cons]
  cases word? entry <;> rfl

/-- Entries that say nothing change nothing. -/
theorem lastWord_append_of_silent
    (h : ∀ entry ∈ more, entry.isCleared = false ∧ word? entry = none) :
    lastWord word? (log ++ more) = lastWord word? log := by
  induction more generalizing log with
  | nil => rw [List.append_nil]
  | cons entry rest ih =>
      obtain ⟨hcleared, hsays⟩ := h entry (List.mem_cons_self ..)
      rw [List.append_cons, ih fun other hother => h other (List.mem_cons_of_mem _ hother),
        lastWord_concat hcleared, hsays]
      rfl

/-- A word that has changed has been said by some entry, or has been cleared by one. -/
theorem exists_of_lastWord_append_ne (h : lastWord word? (log ++ more) ≠ lastWord word? log) :
    ∃ entry ∈ more, entry.isCleared = true ∨ ∃ word, word? entry = some word := by
  by_contra hnone
  refine h (lastWord_append_of_silent fun entry hentry => ⟨?_, ?_⟩)
  · exact Bool.eq_false_iff.2 fun hcleared => hnone ⟨entry, hentry, Or.inl hcleared⟩
  · refine Option.eq_none_iff_forall_ne_some.2 fun word hword => ?_
    exact hnone ⟨entry, hentry, Or.inr ⟨word, hword⟩⟩

end LastWord

/-! ### Channels and logs -/

/-- The channels show what a log says: the head pointers of the receive channels, and the completion
pointers of all channels. -/
structure ChannelBank.Recorded (b : ChannelBank) (log : List PointerEntry) : Prop where
  armed : ∀ channel, (b.receiveChannel channel).head = lastWord (armedOn channel) log
  received : ∀ channel, (b.receiveChannel channel).completion = lastWord (receivedOn channel) log
  sent : ∀ channel, (b.transmitChannel channel).completion = lastWord (sentOn channel) log

namespace ChannelBank.Recorded

variable {b : ChannelBank} {log : List PointerEntry}

theorem idle_nil : idle.Recorded [] :=
  ⟨fun channel => by rw [receiveChannel_idle]; rfl, fun channel => by rw [receiveChannel_idle]; rfl,
    fun channel => by rw [transmitChannel_idle]; rfl⟩

/-- A reset idles all channels. -/
theorem idle_cleared : idle.Recorded (log ++ [.cleared]) :=
  ⟨fun channel => by rw [receiveChannel_idle, lastWord_concat_cleared],
    fun channel => by rw [receiveChannel_idle, lastWord_concat_cleared],
    fun channel => by rw [transmitChannel_idle, lastWord_concat_cleared]⟩

/-- A head pointer write of a receive channel. -/
theorem armReceive (h : b.Recorded log) (channel : ChannelId) (head : UInt32) :
    (b.armReceive channel head).Recorded (log ++ [.armed channel head]) where
  armed other := by
    rw [lastWord_concat rfl, ChannelBank.armReceive, receiveChannel_modifyReceive]
    by_cases heq : other = channel
    · subst heq
      simp [armedOn, ReceiveChannel.arm]
    · rw [if_neg heq, h.armed other, armedOn, if_neg (Ne.symm heq)]
      rfl
  received other := by
    rw [lastWord_concat rfl, ChannelBank.armReceive, receiveChannel_modifyReceive]
    by_cases heq : other = channel
    · subst heq
      rw [if_pos rfl]
      exact h.received other
    · rw [if_neg heq]
      exact h.received other
  sent other := by
    rw [lastWord_concat rfl]
    exact h.sent other

/-- A frame that is placed. -/
theorem advance (h : b.Recorded log) (channel : ChannelId) (cursor : Option UInt32)
    (pointer : UInt32) :
    (b.modifyReceive channel fun receive =>
      { receive with cursor, completion := pointer }).Recorded
        (log ++ [.received channel pointer]) where
  armed other := by
    rw [lastWord_concat rfl, receiveChannel_modifyReceive]
    by_cases heq : other = channel
    · subst heq
      rw [if_pos rfl]
      exact h.armed other
    · rw [if_neg heq]
      exact h.armed other
  received other := by
    rw [lastWord_concat rfl, receiveChannel_modifyReceive]
    by_cases heq : other = channel
    · subst heq
      simp [receivedOn]
    · rw [if_neg heq, h.received other, receivedOn, if_neg (Ne.symm heq)]
      rfl
  sent other := by
    rw [lastWord_concat rfl]
    exact h.sent other

/-- A frame that is sent. -/
theorem complete (h : b.Recorded log) (channel : ChannelId) (pointer : UInt32) :
    (b.modifyTransmit channel fun transmit =>
      { transmit with completion := pointer }).Recorded (log ++ [.sent channel pointer]) where
  armed other := by
    rw [lastWord_concat rfl]
    exact h.armed other
  received other := by
    rw [lastWord_concat rfl]
    exact h.received other
  sent other := by
    rw [lastWord_concat rfl, transmitChannel_modifyTransmit]
    by_cases heq : other = channel
    · subst heq
      simp [sentOn]
    · rw [if_neg heq, h.sent other, sentOn, if_neg (Ne.symm heq)]
      rfl

/-- The head pointers of the transmit channels are not in the log. -/
theorem setTransmitHead (h : b.Recorded log) (channel : ChannelId) (head : UInt32) :
    (b.setTransmitHead channel head).Recorded log where
  armed := h.armed
  received := h.received
  sent other := by
    rw [ChannelBank.setTransmitHead, transmitChannel_modifyTransmit]
    by_cases heq : other = channel
    · subst heq
      rw [if_pos rfl]
      exact h.sent other
    · rw [if_neg heq]
      exact h.sent other

end ChannelBank.Recorded

namespace System

/-! ### The entries of an action -/

/-- The entry of a frame that is placed, if there is a place for it. -/
def receivedEntry (s : System) (frame : InboundFrame) : List PointerEntry :=
  let channel := s.engine.channelOf frame
  match (s.fill frame).1 with
  | none =>
      [.received channel
        (s.engine.ram.slotAt (s.engine.channels.receiveChannel channel).start).buffer]
  | some _ => []

/-- The entries of the frames that a drain places. -/
def receivedEntries (s : System) : List PointerEntry := s.fills.flatMap fun f => f.1.receivedEntry f.2

/-- The entry of the frame that the chain from `head` on holds, if the chain is not rejected. -/
def sentEntry (s : System) (channel : ChannelId) (head : UInt32) : List PointerEntry :=
  match gather s.engine.ram s.memory channel head s.engine.settings.walkLimit with
  | .ok _ => [.sent channel (s.engine.ram.slotAt head).buffer]
  | .error _ => []

/-- The system when an action tries the waiting frames, if it does. -/
def drainStart? (s : System) : Action → Option System
  | .drain => some s
  | .store (.receiveHead channel) value => some (s.mapEngine (·.armReceive channel value))
  | .store .receiveControl value =>
      if value &&& 1 = 0 then none else some (s.mapEngine (·.controlReceive value))
  | .arrive frame =>
      match s.engine.offer frame with
      | (none, engine) => some { s with engine }
      | (some _, _) => none
  | _ => none

/-- The entries of what an action says itself. -/
def commandEntries (s : System) : Action → List PointerEntry
  | .store .dmaReset value => if value &&& 1 = 0 then [] else [.cleared]
  | .store (.receiveHead channel) value => [.armed channel value]
  | .store (.transmitHead channel) value => if value = 0 then [] else s.sentEntry channel value
  | _ => []

/-- The entries of an action: what it says itself, and then the frames that are placed. -/
def pointerEntries (s : System) (action : Action) : List PointerEntry :=
  s.commandEntries action ++ ((s.drainStart? action).map receivedEntries).getD []

/-- The log of a run. -/
def pointerLog (s : System) (ops : List Operation) : List PointerEntry := s.log pointerEntries ops

/-- An action places a frame on a receive channel. -/
def PlacesOn (s : System) (action : Action) (channel : ChannelId) : Prop :=
  ∃ t f, s.drainStart? action = some t ∧ f ∈ t.fills ∧ (f.1.fill f.2).1 = none ∧
    f.1.engine.channelOf f.2 = channel

/-- A head pointer leads to a chain whose frame can be sent. -/
def SendsFrom (s : System) (channel : ChannelId) (head : UInt32) : Prop :=
  ∃ g, gather s.engine.ram s.memory channel head s.engine.settings.walkLimit = .ok g

/-- Why an action makes an entry. -/
inductive Causes (s : System) (action : Action) : PointerEntry → Prop
  | cleared {value : UInt32} (haction : action = .store .dmaReset value) (hbit : value &&& 1 ≠ 0) :
      Causes s action .cleared
  | armed {channel : ChannelId} {head : UInt32}
      (haction : action = .store (.receiveHead channel) head) : Causes s action (.armed channel head)
  | sent {channel : ChannelId} {head pointer : UInt32}
      (haction : action = .store (.transmitHead channel) head) (harmed : head ≠ 0)
      (hsends : s.SendsFrom channel head) : Causes s action (.sent channel pointer)
  | received {channel : ChannelId} {pointer : UInt32} (hplaces : s.PlacesOn action channel) :
      Causes s action (.received channel pointer)

variable {s : System} {log : List PointerEntry}

theorem causes_of_mem_commandEntries {action : Action} {entry : PointerEntry}
    (h : entry ∈ s.commandEntries action) : s.Causes action entry := by
  cases action with
  | store register value =>
      cases register with
      | dmaReset =>
          simp only [commandEntries] at h
          split at h
          · cases h
          · next hbit =>
              rw [List.mem_singleton.1 h]
              exact .cleared rfl hbit
      | receiveHead channel =>
          rw [List.mem_singleton.1 h]
          exact .armed rfl
      | transmitHead channel =>
          simp only [commandEntries] at h
          split at h
          · cases h
          · next hzero =>
              unfold sentEntry at h
              split at h
              · next g hgather =>
                  rw [List.mem_singleton.1 h]
                  exact .sent rfl hzero ⟨g, hgather⟩
              · cases h
      | _ => cases h
  | _ => cases h

/-- **An action makes an entry for a reason.** -/
theorem causes_of_mem_pointerEntries {action : Action} {entry : PointerEntry}
    (h : entry ∈ s.pointerEntries action) : s.Causes action entry := by
  rcases List.mem_append.1 h with h | h
  · exact causes_of_mem_commandEntries h
  · cases hstart : s.drainStart? action with
    | none =>
        rw [hstart] at h
        cases h
    | some t =>
        rw [hstart] at h
        obtain ⟨f, hf, hentry⟩ := List.mem_flatMap.1 h
        unfold receivedEntry at hentry
        dsimp only at hentry
        split at hentry
        · next hplaced =>
            rw [List.mem_singleton.1 hentry]
            exact .received ⟨t, f, hstart, hf, hplaced, rfl⟩
        · cases hentry

/-! ### Frames -/

/-- The first descriptor of a plan is the one where the channel starts. -/
theorem bufferPointer_of_plan {channel : ChannelId} {length : Nat} {plan : FillPlan}
    (h : s.engine.plan s.memory channel length = .ok plan) :
    plan.first.descriptor.bufferPointer =
      (s.engine.ram.slotAt (s.engine.channels.receiveChannel channel).start).buffer := by
  have hwalk := walk_of_plan h
  obtain ⟨first, rest, hcons, haddress⟩ := hwalk.exists_cons
  obtain ⟨o, m, htaken⟩ := hwalk.exists_takenAt plan.first (List.mem_cons_self ..)
  obtain ⟨rfl, -⟩ := List.cons.inj hcons
  rw [htaken.descriptor_eq, haddress]
  rfl

/-- **A fill leaves its entry.** -/
theorem recorded_fill (h : s.engine.channels.Recorded log) (frame : InboundFrame) :
    (s.fill frame).2.engine.channels.Recorded (log ++ s.receivedEntry frame) := by
  cases hplan : s.engine.plan s.memory (s.engine.channelOf frame) frame.bytes.length with
  | error fault =>
      have hentry : s.receivedEntry frame = [] := by
        rw [receivedEntry, fill_of_error hplan]
      have hchannels : (s.engine.countFailure (s.engine.channelOf frame) fault).channels =
          s.engine.channels := by
        cases fault <;> rfl
      rw [hentry, List.append_nil, fill_of_error hplan]
      exact hchannels ▸ h
  | ok plan =>
      obtain ⟨memory, ram, -, hfill⟩ := exists_fill_of_plan hplan
      obtain ⟨_, _, _, _, _, hcount, -⟩ :=
        ({ s.engine with ram }.advance (s.engine.channelOf frame) plan).exists_countReceived
          (s.engine.classOf frame) frame.bytes
      have hentry : s.receivedEntry frame = [.received (s.engine.channelOf frame)
          plan.first.descriptor.bufferPointer] := by
        rw [receivedEntry, hfill, bufferPointer_of_plan hplan]
      rw [hentry, hfill, hcount]
      exact h.advance (s.engine.channelOf frame) plan.next plan.first.descriptor.bufferPointer

theorem recorded_drainFrames (frames : List InboundFrame) (h : s.engine.channels.Recorded log) :
    (drainFrames frames s).2.engine.channels.Recorded
      (log ++ (fillsFrom frames s).flatMap fun f => f.1.receivedEntry f.2) := by
  induction frames generalizing s log with
  | nil =>
      rw [fillsFrom, List.flatMap_nil, List.append_nil]
      exact h
  | cons frame rest ih =>
      by_cases hready : s.engine.ready frame = true
      · have hfill := recorded_fill (s := s.mapEngine (·.setWaiting rest)) h frame
        rw [drainFrames_cons hready, fillsFrom_of_ready hready, List.flatMap_cons,
          ← List.append_assoc]
        exact ih hfill
      · rw [drainFrames_of_not_ready (Bool.not_eq_true _ ▸ hready),
          fillsFrom_of_not_ready (Bool.not_eq_true _ ▸ hready), List.flatMap_nil, List.append_nil]
        exact h

/-- **A drain leaves the entries of the frames that it places.** -/
theorem recorded_drain (h : s.engine.channels.Recorded log) :
    s.drain.2.engine.channels.Recorded (log ++ s.receivedEntries) := by
  unfold drain receivedEntries fills
  split
  · exact recorded_drainFrames _ h
  · rw [List.flatMap_nil, List.append_nil]
    exact h

/-- The first descriptor of a gathered chain is the one at the head. -/
theorem bufferPointer_of_gather {channel : ChannelId} {head : UInt32} {g : Gathered}
    (h : gather s.engine.ram s.memory channel head s.engine.settings.walkLimit = .ok g) :
    g.first.bufferPointer = (s.engine.ram.slotAt head).buffer := by
  rw [(first_of_gather h).descriptor_eq]
  rfl

/-- **A transmission leaves its entry.** -/
theorem recorded_transmit (h : s.engine.channels.Recorded log) (channel : ChannelId) :
    (s.transmit channel).2.engine.channels.Recorded
      (log ++ s.sentEntry channel (s.engine.channels.transmitChannel channel).head) := by
  cases hgather : gather s.engine.ram s.memory channel
      (s.engine.channels.transmitChannel channel).head s.engine.settings.walkLimit with
  | error fault =>
      rw [transmit_of_error hgather, sentEntry, hgather, List.append_nil]
      exact h.setTransmitHead channel 0
  | ok g =>
      obtain ⟨ram, -, htransmit⟩ := exists_transmit_of_gather hgather
      obtain ⟨_, _, _, _, _, hemit, -⟩ := { s.engine with ram }.exists_emit channel g
      rw [htransmit, hemit, sentEntry, hgather]
      dsimp only
      rw [← bufferPointer_of_gather hgather]
      exact (h.complete channel g.first.bufferPointer).setTransmitHead channel 0

/-! ### Actions -/

/-- A write of a register keeps channels and log together. -/
theorem recorded_store (h : s.engine.channels.Recorded log) (register : Register) (value : UInt32) :
    (s.store value register).2.engine.channels.Recorded
      (log ++ s.pointerEntries (.store register value)) := by
  have hkept : s.engine.channels.Recorded (log ++ []) := by rwa [List.append_nil]
  cases register with
  | dmaReset =>
      simp only [store, pointerEntries, commandEntries, drainStart?]
      split
      · exact hkept
      · exact .idle_cleared
  | transmitHead channel =>
      simp only [store, pointerEntries, commandEntries, drainStart?]
      split
      · exact hkept.setTransmitHead channel value
      · have hsent := recorded_transmit (s := s.mapEngine (·.setTransmitHead channel value))
          (h.setTransmitHead channel value) channel
        rw [engine_mapEngine, Engine.head_setTransmitHead] at hsent
        exact (List.append_nil (s.sentEntry channel value)).symm ▸ hsent
  | receiveHead channel =>
      have harmed := recorded_drain (s := s.mapEngine (·.armReceive channel value))
        (h.armReceive channel value)
      rw [List.append_assoc] at harmed
      exact harmed
  | receiveControl =>
      simp only [store, pointerEntries, commandEntries, drainStart?]
      split
      · exact hkept
      · exact recorded_drain (s := s.mapEngine (·.controlReceive value)) h
  | eventPop =>
      simp only [store]
      split <;> exact hkept
  | _ => exact hkept

/-- A frame that arrives keeps channels and log together. -/
theorem recorded_receive (h : s.engine.channels.Recorded log) (frame : InboundFrame) :
    (s.receive frame).2.engine.channels.Recorded (log ++ s.pointerEntries (.arrive frame)) := by
  have hoffer : (s.engine.offer frame).2.channels = s.engine.channels := rfl
  simp only [receive, pointerEntries, commandEntries, drainStart?]
  cases heq : s.engine.offer frame with
  | mk fault engine =>
      rw [heq] at hoffer
      have hkept : engine.channels.Recorded log := hoffer ▸ h
      cases fault with
      | none => exact recorded_drain (s := { s with engine }) hkept
      | some fault =>
          show engine.channels.Recorded (log ++ [])
          rwa [List.append_nil]

/-- **Every action keeps channels and log together.** -/
theorem recorded_act (h : s.engine.channels.Recorded log) (action : Action) :
    (s.act action).engine.channels.Recorded (s.extend pointerEntries log action) := by
  have hkept : s.engine.channels.Recorded (log ++ []) := by rwa [List.append_nil]
  by_cases hreset : action = .reset
  · subst hreset
    exact .idle_nil
  rw [extend_of_ne hreset]
  cases action with
  | reset => exact absurd rfl hreset
  | drain => exact recorded_drain h
  | store register value => exact recorded_store h register value
  | arrive frame => exact recorded_receive h frame
  | storeRam offset bytes =>
      simp only [act, mapEngine, Engine.storeRam]
      split <;> exact hkept
  | writeMemory address bytes =>
      simp only [act, writeMemory]
      split <;> exact hkept
  | _ => exact hkept

end System

/-- An operation resets the channels: it resets the engine as a whole, or the DMA engine alone. -/
def Operation.ResetsChannels (op : Operation) : Prop :=
  op = .reset ∨ ∃ value, op.registerWrite? = some (.dmaReset, value) ∧ value &&& 1 ≠ 0

namespace System

variable {s : System} {log : List PointerEntry} {op : Operation} {channel : ChannelId}

/-- A word changes with a reset, or because the operation makes an entry that says it. -/
theorem resets_or_exists_cause {word? : PointerEntry → Option UInt32}
    (h : lastWord word? (s.extend pointerEntries log op.action) ≠ lastWord word? log) :
    op.ResetsChannels ∨
      ∃ entry, s.Causes op.action entry ∧ ∃ word, word? entry = some word := by
  by_cases hreset : op = .reset
  · exact Or.inl (Or.inl hreset)
  rw [extend_of_ne (mt Operation.action_eq_reset_iff.1 hreset)] at h
  obtain ⟨entry, hentry, hword⟩ := exists_of_lastWord_append_ne h
  have hcauses := causes_of_mem_pointerEntries hentry
  rcases hword with hcleared | hword
  · cases hcauses with
    | @cleared value haction hbit =>
        exact Or.inl (Or.inr ⟨value, Operation.action_eq_store_iff.1 haction, hbit⟩)
    | armed | sent | received => cases hcleared
  · exact Or.inr ⟨entry, hcauses, hword⟩

/-- The head pointer of a receive channel changes with its own writes and with resets only. -/
theorem armed_of_ne (h : lastWord (armedOn channel) (s.extend pointerEntries log op.action) ≠
      lastWord (armedOn channel) log) :
    op.ResetsChannels ∨ ∃ head, op.registerWrite? = some (.receiveHead channel, head) := by
  rcases resets_or_exists_cause h with hreset | ⟨entry, hcauses, word, hword⟩
  · exact Or.inl hreset
  cases hcauses with
  | @armed other head haction =>
      obtain ⟨rfl, -⟩ : other = channel ∧ head = word := by simpa [armedOn] using hword
      exact Or.inr ⟨head, Operation.action_eq_store_iff.1 haction⟩
  | cleared | sent | received => cases hword

/-- The completion pointer of a receive channel changes with a frame that is placed on the channel,
and with resets, only. -/
theorem received_of_ne (h : lastWord (receivedOn channel) (s.extend pointerEntries log op.action) ≠
      lastWord (receivedOn channel) log) :
    op.ResetsChannels ∨ s.PlacesOn op.action channel := by
  rcases resets_or_exists_cause h with hreset | ⟨entry, hcauses, word, hword⟩
  · exact Or.inl hreset
  cases hcauses with
  | @received other pointer hplaces =>
      obtain ⟨rfl, -⟩ : other = channel ∧ pointer = word := by simpa [receivedOn] using hword
      exact Or.inr hplaces
  | cleared | armed | sent => cases hword

/-- The completion pointer of a transmit channel changes with a frame that is sent on the channel,
and with resets, only. -/
theorem sent_of_ne (h : lastWord (sentOn channel) (s.extend pointerEntries log op.action) ≠
      lastWord (sentOn channel) log) :
    op.ResetsChannels ∨ ∃ head, op.registerWrite? = some (.transmitHead channel, head) ∧ head ≠ 0 ∧
      s.SendsFrom channel head := by
  rcases resets_or_exists_cause h with hreset | ⟨entry, hcauses, word, hword⟩
  · exact Or.inl hreset
  cases hcauses with
  | @sent other head pointer haction harmed hsends =>
      obtain ⟨rfl, -⟩ : other = channel ∧ pointer = word := by simpa [sentOn] using hword
      exact Or.inr ⟨head, Operation.action_eq_store_iff.1 haction, harmed, hsends⟩
  | cleared | armed | received => cases hword

/-! ### Runs -/

theorem transmitCompletion_decode (channel : ChannelId) :
    Register.decode (0xA40 + 4 * UInt32.ofNat channel.val) = some (.transmitCompletion channel) := by
  revert channel
  decide +kernel

theorem receiveCompletion_decode (channel : ChannelId) :
    Register.decode (0xA60 + 4 * UInt32.ofNat channel.val) = some (.receiveCompletion channel) := by
  revert channel
  decide +kernel

/-- What the registers of a channel read, when the channels show what a log says. -/
theorem readRegister_of_recorded (h : s.engine.channels.Recorded log) (channel : ChannelId) :
    let offset := 4 * UInt32.ofNat channel.val
    s.engine.readRegister (0xA20 + offset) = .ok (lastWord (armedOn channel) log) ∧
    s.engine.readRegister (0xA40 + offset) = .ok (lastWord (sentOn channel) log) ∧
    s.engine.readRegister (0xA60 + offset) = .ok (lastWord (receivedOn channel) log) := by
  intro offset
  refine ⟨?_, ?_, ?_⟩
  · rw [Engine.readRegister, receiveHead_decode]
    exact congrArg Except.ok (h.armed channel)
  · rw [Engine.readRegister, transmitCompletion_decode]
    exact congrArg Except.ok (h.sent channel)
  · rw [Engine.readRegister, receiveCompletion_decode]
    exact congrArg Except.ok (h.received channel)

/-- **The channels show what has happened to them last.**  At every moment of a run of a new engine,
the head pointer of a receive channel reads the last word written to it since the last reset, the
completion pointer of a receive channel reads the second word of the first descriptor of the frame
placed last on the channel since then, that of a transmit channel the second word of the first
descriptor of the frame sent last on the channel since then, each reads zero if there is none, and
the head pointer of a transmit channel reads zero.

Whatever happens next changes the head pointer of a receive channel only if it is a write of that
pointer or a reset, and a completion pointer only if it places a frame on the channel, or sends one
on it, or is a reset; and a write of a completion pointer, of any width, changes nothing at all. -/
theorem channels_show_their_history (settings : AcceptedSettings) (clock : Clock)
    (interrupt : InterruptLine) (memory : Memory) (ops : List Operation) (channel : ChannelId) :
    let s : System := ⟨.fresh settings clock interrupt, memory⟩
    let t := (s.run ops).2
    let log := s.pointerLog ops
    let offset := 4 * UInt32.ofNat channel.val
    t.engine.readRegister (0xA00 + offset) = .ok 0 ∧
    t.engine.readRegister (0xA20 + offset) = .ok (lastWord (armedOn channel) log) ∧
    t.engine.readRegister (0xA40 + offset) = .ok (lastWord (sentOn channel) log) ∧
    t.engine.readRegister (0xA60 + offset) = .ok (lastWord (receivedOn channel) log) ∧
    ∀ op,
      let u := (t.perform op).2
      (u.engine.readRegister (0xA20 + offset) ≠ t.engine.readRegister (0xA20 + offset) →
        op.ResetsChannels ∨ ∃ head, op.registerWrite? = some (.receiveHead channel, head)) ∧
      (u.engine.readRegister (0xA40 + offset) ≠ t.engine.readRegister (0xA40 + offset) →
        op.ResetsChannels ∨ ∃ head, op.registerWrite? = some (.transmitHead channel, head) ∧
          head ≠ 0 ∧ t.SendsFrom channel head) ∧
      (u.engine.readRegister (0xA60 + offset) ≠ t.engine.readRegister (0xA60 + offset) →
        op.ResetsChannels ∨ t.PlacesOn op.action channel) ∧
      ∀ other value, (op.registerWrite? = some (.transmitCompletion other, value) ∨
        op.registerWrite? = some (.receiveCompletion other, value)) → u = t := by
  intro s t log offset
  have hrecorded : t.engine.channels.Recorded log :=
    log_induction (I := fun log s => s.engine.channels.Recorded log)
      (fun op _ s log h => recorded_act h op.action) .idle_nil
  have hconsistent : t.engine.Consistent :=
    run_induction (P := fun s => s.engine.Consistent) (fun _ _ hpossible h => h.act hpossible)
      (.fresh settings clock interrupt) ops
  obtain ⟨hhead, hsent, hreceived⟩ := readRegister_of_recorded hrecorded channel
  refine ⟨?_, hhead, hsent, hreceived, ?_⟩
  · rw [Engine.readRegister, transmitHead_decode]
    exact congrArg Except.ok (hconsistent.idle channel)
  intro op u
  have hnext : u.engine.channels.Recorded (t.extend pointerEntries log op.action) := by
    have hact := recorded_act hrecorded op.action
    rwa [← perform_eq_act] at hact
  obtain ⟨hhead', hsent', hreceived'⟩ := readRegister_of_recorded hnext channel
  refine ⟨?_, ?_, ?_, ?_⟩
  · intro hne
    rw [hhead, hhead'] at hne
    exact armed_of_ne fun heq => hne (congrArg Except.ok heq)
  · intro hne
    rw [hsent, hsent'] at hne
    exact sent_of_ne fun heq => hne (congrArg Except.ok heq)
  · intro hne
    rw [hreceived, hreceived'] at hne
    exact received_of_ne fun heq => hne (congrArg Except.ok heq)
  · rintro other value (hwrite | hwrite)
    · exact perform_of_registerWrite hwrite
    · exact perform_of_registerWrite hwrite

/-- A frame is placed on the second receive channel and another one is sent on the second transmit
channel.  A byte written to a completion pointer changes nothing, and the head pointer that is
written next is no longer the one before. -/
theorem one_frame_in_and_one_out :
    let s : System :=
      ⟨.fresh ⟨{ ramSize := 64 }, by decide⟩ {} {}, .dense (Dense.ofSize 4096)⟩
    let ops : List Operation :=
      [.writeRam 0x48486000 [0, 0x100, 64, 0x20000000], .writeRegister 0x814 1,
        .writeRegister 0xA24 0x48486000, .receive { bytes := [1] }, .writeMemory 0x200 [7],
        .writeRam 0x48486010 [0, 0x200, 1, 0xE4000001], .writeRegister 0xA04 0x48486010]
    s.pointerLog ops = [.armed 1 0x48486000, .received 1 0x100, .sent 1 0x200] ∧
    (s.run ops).2.engine.readRegister 0xA44 = .ok 0x200 ∧
    (s.run ops).2.engine.readRegister 0xA64 = .ok 0x100 ∧
    ((s.run ops).2.perform (.busWrite 0xA64 1 7)).2 = (s.run ops).2 ∧
    ((Operation.writeRegister 0xA24 0).ResetsChannels ∨
      ∃ head, (Operation.writeRegister 0xA24 0).registerWrite? = some (.receiveHead 1, head)) := by
  intro s ops
  have hlog : s.pointerLog ops = [.armed 1 0x48486000, .received 1 0x100, .sent 1 0x200] := by
    decide +kernel
  have hwrite : (Operation.busWrite 0xA64 1 7).registerWrite? = some (.receiveCompletion 1, 7) := by
    decide +kernel
  have hchanged : ((s.run ops).2.perform (.writeRegister 0xA24 0)).2.engine.readRegister 0xA24 ≠
      (s.run ops).2.engine.readRegister 0xA24 := by
    decide +kernel
  obtain ⟨-, -, hsent, hreceived, hnext⟩ := channels_show_their_history
    ⟨{ ramSize := 64 }, by decide⟩ {} {} (.dense (Dense.ofSize 4096)) ops 1
  have hstart : (⟨.fresh ⟨{ ramSize := 64 }, by decide⟩ {} {}, .dense (Dense.ofSize 4096)⟩ :
    System) = s := rfl
  rw [hstart, hlog] at hsent hreceived
  rw [hstart] at hnext
  exact ⟨hlog, hsent, hreceived, (hnext (.busWrite 0xA64 1 7)).2.2.2 1 7 (Or.inr hwrite),
    (hnext (.writeRegister 0xA24 0)).1 hchanged⟩

end System

end PacketDma
