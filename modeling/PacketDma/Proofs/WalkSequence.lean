/-
**Walks as sequences.**

A walk over descriptors carries a list of those that it has visited, and goes on until something
stops it.  Read declaratively it is a sequence of addresses, and the walk is told apart from the
sequence by nothing but the place where it stops.

Main results:

* `PacketDma.eq_of_stops` — a walk stops at one place only;
* `PacketDma.outcome_of_stops` — what comes of a walk is told by the place where it stops;
* `PacketDma.mem_visited_succ` — the visited list is the sequence up to the place of the walk;
* `PacketDma.getElem?_of_map_some` — what a walk has collected, read off the sequence.
-/

import PacketDma.Fault

set_option autoImplicit false

namespace PacketDma

/-- There is one place that a walk does not pass after having passed all before it. -/
theorem eq_of_stops {Passes : Nat → Prop} {m n : Nat} (hm : ∀ j < m, Passes j)
    (hm' : ¬ Passes m) (hn : ∀ j < n, Passes j) (hn' : ¬ Passes n) : m = n := by
  rcases Nat.lt_trichotomy m n with hlt | heq | hlt
  · exact absurd (hn m hlt) hm'
  · exact heq
  · exact absurd (hm n hlt) hn'

/-- **What comes of a walk is told by the place where it stops.**  A walk passes the places where
nothing stands in the way and its work is not done, and stops at the first that it does not pass.
So it has a result exactly if its work gets done somewhere, and then the result at that place; and
it has a fault exactly if something stands in the way somewhere, and then that obstacle. -/
theorem outcome_of_stops {α : Type} {Completes : Nat → Prop} {FailsAt : Nat → DmaFault → Prop}
    {Yields : Nat → α → Prop} {result : Except DmaFault α} {m : Nat}
    (obstacle? : Nat → Option DmaFault) (Done : Nat → Prop)
    (hpos : ∀ k, Completes k → 1 ≤ k)
    (hcompletes : ∀ k, Completes (k + 1) ↔
      (∀ j < k, obstacle? j = none ∧ ¬ Done (j + 1)) ∧ obstacle? k = none ∧ Done (k + 1))
    (hfails : ∀ n fault, FailsAt n fault ↔
      (∀ j < n, obstacle? j = none ∧ ¬ Done (j + 1)) ∧ obstacle? n = some fault)
    (hbefore : ∀ j < m, obstacle? j = none ∧ ¬ Done (j + 1))
    (hstops : (∃ fault, result = .error fault ∧ obstacle? m = some fault) ∨
      ∃ x, result = .ok x ∧ obstacle? m = none ∧ Done (m + 1) ∧ Yields (m + 1) x) :
    ((∃ x, result = .ok x) ↔ ∃ k, Completes k) ∧
    (∀ k, Completes k → ∃ x, result = .ok x ∧ Yields k x) ∧
    ∀ fault, result = .error fault ↔ ∃ n, FailsAt n fault := by
  have hstop : ¬ (obstacle? m = none ∧ ¬ Done (m + 1)) := by
    rintro ⟨hclear, hundone⟩
    rcases hstops with ⟨fault, -, hobstacle⟩ | ⟨x, -, -, hdone, -⟩
    · cases hclear.symm.trans hobstacle
    · exact hundone hdone
  -- whatever completes or obstructs the walk does so where it stops
  have hplace : ∀ k, Completes k → k = m + 1 ∧ obstacle? m = none := by
    intro k hk
    obtain ⟨n, rfl⟩ : ∃ n, k = n + 1 := ⟨k - 1, by have := hpos k hk; omega⟩
    obtain ⟨hbefore', hclear, hdone⟩ := (hcompletes n).1 hk
    obtain rfl := eq_of_stops hbefore hstop hbefore' fun h => h.2 hdone
    exact ⟨rfl, hclear⟩
  have hobstacle : ∀ n fault, FailsAt n fault → obstacle? m = some fault := by
    intro n fault hn
    obtain ⟨hbefore', hobstacle⟩ := (hfails n fault).1 hn
    have hstop' : ¬ (obstacle? n = none ∧ ¬ Done (n + 1)) := by
      rintro ⟨hclear, -⟩
      cases hclear.symm.trans hobstacle
    obtain rfl := eq_of_stops hbefore hstop hbefore' hstop'
    exact hobstacle
  rcases hstops with ⟨fault, rfl, hblocked⟩ | ⟨x, rfl, hclear, hdone, hyields⟩
  · have hnone : ∀ k, ¬ Completes k := by
      intro k hk
      cases (hplace k hk).2.symm.trans hblocked
    refine ⟨⟨?_, ?_⟩, fun k hk => absurd hk (hnone k), ?_⟩
    · rintro ⟨x, hok⟩
      cases hok
    · rintro ⟨k, hk⟩
      exact absurd hk (hnone k)
    · intro other
      constructor
      · intro h
        cases h
        exact ⟨m, (hfails m fault).2 ⟨hbefore, hblocked⟩⟩
      · rintro ⟨n, hn⟩
        rw [Option.some.inj (hblocked.symm.trans (hobstacle n other hn))]
  · refine ⟨⟨?_, fun _ => ⟨x, rfl⟩⟩, ?_, ?_⟩
    · intro _
      exact ⟨m + 1, (hcompletes m).2 ⟨hbefore, hclear, hdone⟩⟩
    · intro k hk
      obtain ⟨rfl, -⟩ := hplace k hk
      exact ⟨x, rfl, hyields⟩
    · intro fault
      constructor
      · intro h
        cases h
      · rintro ⟨n, hn⟩
        cases hclear.symm.trans (hobstacle n fault hn)

/-- The addresses met before the place behind the `i`-th are the `i`-th and those before it. -/
theorem mem_visited_succ {address : Nat → Option UInt32} {i : Nat} {a : UInt32}
    {visited : List UInt32} (haddress : address i = some a)
    (hvisited : ∀ b, b ∈ visited ↔ ∃ j < i, address j = some b) :
    ∀ b, b ∈ a :: visited ↔ ∃ j < i + 1, address j = some b := by
  intro b
  rw [List.mem_cons, hvisited b]
  constructor
  · rintro (rfl | ⟨j, hj, heq⟩)
    · exact ⟨i, Nat.lt_succ_self i, haddress⟩
    · exact ⟨j, Nat.lt_succ_of_lt hj, heq⟩
  · rintro ⟨j, hj, heq⟩
    by_cases hji : j = i
    · subst hji
      exact Or.inl (Option.some.inj (heq.symm.trans haddress))
    · exact Or.inr ⟨j, by omega, heq⟩

/-- The items that a walk has collected over its first `k` places, one by one. -/
theorem getElem?_of_map_some {α : Type} {items : List α} {item? : Nat → Option α} {k i : Nat}
    {x : α} (h : items.map some = (List.range k).map item?) (hx : items[i]? = some x) :
    i < k ∧ item? i = some x := by
  have hget := congrArg (·[i]?) h
  simp only [List.getElem?_map, hx, Option.map_some] at hget
  by_cases hi : i < k
  · rw [List.getElem?_range hi, Option.map_some] at hget
    exact ⟨hi, (Option.some.inj hget).symm⟩
  · rw [List.getElem?_eq_none (by rw [List.length_range]; omega)] at hget
    cases hget

end PacketDma
