/-
**The timestamp clock.**

Events are stamped from a counter that advances with every reading.  The engine knows nothing about
how far it advances: with a constant step it is a regular counter, with step zero it stands still,
and every sequence of readings is that of some clock.

Main definitions:

* `PacketDma.Clock` — the counter and its steps;
* `PacketDma.Clock.next` — the counter after a reading;
* `PacketDma.Clock.reading` — the readings to come.

Main results:

* `PacketDma.Clock.reading_ofReadings` — any readings may come.
-/

set_option autoImplicit false

namespace PacketDma

/-- How far a counter advances after each of its readings. -/
def ClockSteps := Nat → UInt64

/-- The same step after every reading. -/
instance : Coe UInt64 ClockSteps := ⟨fun step _ => step⟩

/-- A counter that advances with every reading, wrapping at 64 bits. -/
structure Clock where
  now : UInt64 := 0
  step : ClockSteps := (0 : UInt64)
  /-- How many readings have been taken. -/
  taken : Nat := 0

namespace Clock

/-- The counter after a reading. -/
def next (c : Clock) : Clock := { c with now := c.now + c.step c.taken, taken := c.taken + 1 }

/-- The part of the counter that an event holds. -/
def stamp (c : Clock) : UInt32 := c.now.toUInt32

@[simp] theorem step_next (c : Clock) : c.next.step = c.step := rfl

/-- The counter after `n` readings. -/
def after (c : Clock) : Nat → Clock
  | 0 => c
  | n + 1 => (c.after n).next

/-- The reading that comes after `n` others. -/
def reading (c : Clock) (n : Nat) : UInt64 := (c.after n).now

/-- The clock that is read as the given values. -/
def ofReadings (values : Nat → UInt64) : Clock where
  now := values 0
  step n := values (n + 1) - values n

/-- **Any readings may come.** -/
theorem reading_ofReadings (values : Nat → UInt64) (n : Nat) :
    (ofReadings values).reading n = values n := by
  have hafter : ((ofReadings values).after n).step = (ofReadings values).step ∧
      ((ofReadings values).after n).taken = n ∧ (ofReadings values).reading n = values n := by
    induction n with
    | zero => exact ⟨rfl, rfl, rfl⟩
    | succ n ih =>
        obtain ⟨hstep, htaken, hreading⟩ := ih
        refine ⟨hstep, congrArg (· + 1) htaken, ?_⟩
        show ((ofReadings values).after n).now + ((ofReadings values).after n).step
          ((ofReadings values).after n).taken = values (n + 1)
        rw [hstep, htaken]
        show (ofReadings values).reading n + (values (n + 1) - values n) = values (n + 1)
        rw [hreading, UInt64.add_comm, UInt64.sub_add_cancel]
  exact hafter.2.2

end Clock

end PacketDma
