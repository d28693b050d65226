/-
**The interrupt line.**

The subsystem has one interrupt output.  The line remembers its level and every level it has been
driven to, so that completed pulses can be counted afterwards.

Main definitions:

* `PacketDma.InterruptLine` — the level and the history of a line;
* `PacketDma.InterruptLine.pulse` — raise the line and lower it again;
* `PacketDma.InterruptLine.pulses` — how many times the line has been raised and lowered.

Main results:

* `PacketDma.InterruptLine.level_pulse`, `PacketDma.InterruptLine.pulses_pulse` — a pulse leaves
  the line low and counts once.
-/

set_option autoImplicit false

namespace PacketDma

/-- An interrupt line: its level, and the levels it has been driven to, oldest first. -/
structure InterruptLine where
  level : Bool := false
  edges : List Bool := []
deriving DecidableEq, Repr

namespace InterruptLine

/-- Drives the line to a level. -/
def drive (line : InterruptLine) (level : Bool) : InterruptLine :=
  { level, edges := line.edges ++ [level] }

/-- Raises the line and lowers it at once. -/
def pulse (line : InterruptLine) : InterruptLine := (line.drive true).drive false

/-- How often a history goes from high straight to low. -/
def falls : List Bool → Nat
  | true :: false :: rest => falls (false :: rest) + 1
  | _ :: rest => falls rest
  | [] => 0

/-- The completed pulses so far. -/
def pulses (line : InterruptLine) : Nat := falls line.edges

@[simp] theorem level_drive (line : InterruptLine) (level : Bool) :
    (line.drive level).level = level := rfl

@[simp] theorem edges_drive (line : InterruptLine) (level : Bool) :
    (line.drive level).edges = line.edges ++ [level] := rfl

@[simp] theorem level_pulse (line : InterruptLine) : line.pulse.level = false := rfl

@[simp] theorem edges_pulse (line : InterruptLine) :
    line.pulse.edges = line.edges ++ [true, false] := by
  simp [pulse]

/-- Driving a line that ends high to low completes a pulse. -/
theorem falls_append_true_false (history : List Bool) :
    falls (history ++ [true, false]) = falls history + 1 := by
  fun_induction falls history with
  | case1 rest ih => simp only [List.cons_append, falls] at ih ⊢; omega
  | case2 first rest hne ih =>
      cases rest with
      | nil => cases first <;> rfl
      | cons second rest =>
          cases first <;> cases second <;> simp_all [falls]
  | case3 => rfl

/-- **A pulse counts once.** -/
@[simp] theorem pulses_pulse (line : InterruptLine) : line.pulse.pulses = line.pulses + 1 := by
  rw [pulses, edges_pulse, falls_append_true_false, pulses]

/-- Driving a low line low again completes no pulse. -/
theorem falls_append_false (history : List Bool) (h : history.getLast? ≠ some true) :
    falls (history ++ [false]) = falls history := by
  fun_induction falls history with
  | case1 rest ih =>
      have hlast : (false :: rest).getLast? ≠ some true := by
        simpa [List.getLast?_cons_cons] using h
      have := ih hlast
      simp only [List.cons_append, falls] at this ⊢
      omega
  | case2 first rest hne ih =>
      cases rest with
      | nil => cases first <;> simp_all [falls]
      | cons second rest =>
          rw [List.getLast?_cons_cons] at h
          cases first <;> cases second <;> simp_all [falls]
  | case3 => rfl

end InterruptLine

end PacketDma
