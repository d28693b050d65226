/-
**Channels.**

The engine has eight transmit and eight receive channels.  A channel is armed by a non-zero head
pointer; a receive channel also remembers the descriptor at which the next frame starts, so that
software need not write the head pointer after every frame.

Main definitions:

* `PacketDma.TransmitChannel`, `PacketDma.ReceiveChannel` — the pointers of one channel;
* `PacketDma.ChannelBank` — all sixteen channels;
* `PacketDma.ReceiveChannel.arm` — a head pointer write of a receive channel;
* `PacketDma.ReceiveChannel.start` — where the next frame starts.

Main results:

* `PacketDma.ChannelBank.transmitChannel_modifyTransmit`,
  `PacketDma.ChannelBank.receiveChannel_modifyReceive` — a change of one channel changes no other;
* `PacketDma.ChannelBank.ext_channels` — a bank is determined by its channels.
-/

set_option autoImplicit false

namespace PacketDma

/-- A channel number. -/
abbrev ChannelId := Fin 8

/-- The pointers of a transmit channel. -/
structure TransmitChannel where
  /-- The first descriptor of the chain to send, zero when the channel is idle. -/
  head : UInt32 := 0
  /-- The buffer pointer of the frame sent last. -/
  completion : UInt32 := 0
deriving DecidableEq, Repr

/-- The pointers of a receive channel. -/
structure ReceiveChannel where
  /-- The first descriptor of the ring, zero when the channel is idle. -/
  head : UInt32 := 0
  /-- The buffer pointer of the frame received last. -/
  completion : UInt32 := 0
  /-- The descriptor at which the next frame starts. -/
  cursor : Option UInt32 := none
deriving DecidableEq, Repr

/-- A head pointer write: the next frame starts at the new head, and zero idles the channel. -/
def ReceiveChannel.arm (c : ReceiveChannel) (head : UInt32) : ReceiveChannel :=
  { c with head, cursor := if head = 0 then none else some head }

/-- The descriptor at which the next frame starts. -/
def ReceiveChannel.start (c : ReceiveChannel) : UInt32 := c.cursor.getD c.head

/-- All channels of the engine. -/
structure ChannelBank where
  transmit : Vector TransmitChannel 8
  receive : Vector ReceiveChannel 8
deriving DecidableEq

namespace ChannelBank

/-- All channels idle. -/
def idle : ChannelBank := ⟨Vector.replicate 8 {}, Vector.replicate 8 {}⟩

/-- A transmit channel. -/
def transmitChannel (b : ChannelBank) (c : ChannelId) : TransmitChannel := b.transmit[c]

/-- A receive channel. -/
def receiveChannel (b : ChannelBank) (c : ChannelId) : ReceiveChannel := b.receive[c]

/-- Changes one transmit channel. -/
def modifyTransmit (b : ChannelBank) (c : ChannelId) (f : TransmitChannel → TransmitChannel) :
    ChannelBank :=
  { b with transmit := b.transmit.set c (f (b.transmitChannel c)) }

/-- Changes one receive channel. -/
def modifyReceive (b : ChannelBank) (c : ChannelId) (f : ReceiveChannel → ReceiveChannel) :
    ChannelBank :=
  { b with receive := b.receive.set c (f (b.receiveChannel c)) }

/-- Writes the head pointer of a transmit channel. -/
def setTransmitHead (b : ChannelBank) (c : ChannelId) (head : UInt32) : ChannelBank :=
  b.modifyTransmit c fun channel => { channel with head }

/-- Writes the head pointer of a receive channel. -/
def armReceive (b : ChannelBank) (c : ChannelId) (head : UInt32) : ChannelBank :=
  b.modifyReceive c fun channel => channel.arm head

/-- Two banks with the same channels are the same. -/
theorem ext_channels {a b : ChannelBank}
    (htransmit : ∀ c, a.transmitChannel c = b.transmitChannel c)
    (hreceive : ∀ c, a.receiveChannel c = b.receiveChannel c) : a = b := by
  obtain ⟨ta, ra⟩ := a
  obtain ⟨tb, rb⟩ := b
  have ht : ta = tb := Vector.ext fun i hi => htransmit ⟨i, hi⟩
  have hr : ra = rb := Vector.ext fun i hi => hreceive ⟨i, hi⟩
  rw [ht, hr]

@[simp] theorem transmitChannel_idle (c : ChannelId) : idle.transmitChannel c = {} := by
  simp [transmitChannel, idle]

@[simp] theorem receiveChannel_idle (c : ChannelId) : idle.receiveChannel c = {} := by
  simp [receiveChannel, idle]

/-- **A change of one transmit channel changes no other.** -/
theorem transmitChannel_modifyTransmit (b : ChannelBank) (c d : ChannelId)
    (f : TransmitChannel → TransmitChannel) :
    (b.modifyTransmit c f).transmitChannel d =
      if d = c then f (b.transmitChannel c) else b.transmitChannel d := by
  simp only [transmitChannel, modifyTransmit, Fin.getElem_fin, Vector.getElem_set, Fin.ext_iff,
    eq_comm]

@[simp] theorem transmitChannel_modifyTransmit_self (b : ChannelBank) (c : ChannelId)
    (f : TransmitChannel → TransmitChannel) :
    (b.modifyTransmit c f).transmitChannel c = f (b.transmitChannel c) := by
  rw [transmitChannel_modifyTransmit, if_pos rfl]

theorem transmitChannel_modifyTransmit_of_ne (b : ChannelBank) {c d : ChannelId} (h : d ≠ c)
    (f : TransmitChannel → TransmitChannel) :
    (b.modifyTransmit c f).transmitChannel d = b.transmitChannel d := by
  rw [transmitChannel_modifyTransmit, if_neg h]

@[simp] theorem receiveChannel_modifyTransmit (b : ChannelBank) (c d : ChannelId)
    (f : TransmitChannel → TransmitChannel) :
    (b.modifyTransmit c f).receiveChannel d = b.receiveChannel d := rfl

/-- Of two head pointer writes, the second one counts. -/
theorem setTransmitHead_setTransmitHead (b : ChannelBank) (c : ChannelId) (first second : UInt32) :
    (b.setTransmitHead c first).setTransmitHead c second = b.setTransmitHead c second := by
  refine ext_channels (fun d => ?_) (fun _ => rfl)
  by_cases h : d = c
  · subst h
    simp only [setTransmitHead, transmitChannel_modifyTransmit_self]
  · simp only [setTransmitHead, transmitChannel_modifyTransmit_of_ne _ h]

/-- **A change of one receive channel changes no other.** -/
theorem receiveChannel_modifyReceive (b : ChannelBank) (c d : ChannelId)
    (f : ReceiveChannel → ReceiveChannel) :
    (b.modifyReceive c f).receiveChannel d =
      if d = c then f (b.receiveChannel c) else b.receiveChannel d := by
  simp only [receiveChannel, modifyReceive, Fin.getElem_fin, Vector.getElem_set, Fin.ext_iff,
    eq_comm]

@[simp] theorem receiveChannel_modifyReceive_self (b : ChannelBank) (c : ChannelId)
    (f : ReceiveChannel → ReceiveChannel) :
    (b.modifyReceive c f).receiveChannel c = f (b.receiveChannel c) := by
  rw [receiveChannel_modifyReceive, if_pos rfl]

theorem receiveChannel_modifyReceive_of_ne (b : ChannelBank) {c d : ChannelId} (h : d ≠ c)
    (f : ReceiveChannel → ReceiveChannel) :
    (b.modifyReceive c f).receiveChannel d = b.receiveChannel d := by
  rw [receiveChannel_modifyReceive, if_neg h]

@[simp] theorem transmitChannel_modifyReceive (b : ChannelBank) (c d : ChannelId)
    (f : ReceiveChannel → ReceiveChannel) :
    (b.modifyReceive c f).transmitChannel d = b.transmitChannel d := rfl

end ChannelBank

end PacketDma
