import Mathlib.Algebra.Order.BigOperators.Group.List
import Mathlib.Algebra.Order.Ring.Int
import Mathlib.Data.List.Induction

namespace RunningTotal

variable {ε : Type}

def total (added : ε → Int) (events : List ε) : Int := (events.map added).sum

@[simp] theorem total_nil (added : ε → Int) : total added [] = 0 := rfl

theorem total_append (added : ε → Int) (events : List ε) (event : ε) :
    total added (events ++ [event]) = total added events + added event := by
  simp [total]

theorem total_nonneg {added : ε → Int} (h : ∀ event, 0 ≤ added event) (events : List ε) :
    0 ≤ total added events := by
  apply List.sum_nonneg
  intro amount hmem
  obtain ⟨event, -, rfl⟩ := List.mem_map.mp hmem
  exact h event

-- A number that is the sum of what the events add as long as the sum is below the limit, and
-- that falls when an event takes the sum over the limit.
structure Wraps (value : List ε → Int) (added : ε → Int) (limit : Int) : Prop where
  added_nonneg : ∀ event, 0 ≤ added event
  added_lt : ∀ event, added event < limit
  exact : ∀ events, total added events < limit → value events = total added events
  falls : ∀ events event, total added events < limit →
    limit ≤ total added (events ++ [event]) → value (events ++ [event]) < total added events

namespace Wraps

variable {value : List ε → Int} {added : ε → Int} {limit : Int} {events earlier later : List ε}

theorem total_mono (h : Wraps value added limit) (hbefore : earlier <+: later) :
    total added earlier ≤ total added later := by
  obtain ⟨rest, rfl⟩ := hbefore
  have hrest := total_nonneg h.added_nonneg rest
  have hsplit : total added (earlier ++ rest) = total added earlier + total added rest := by
    simp [total]
  omega

theorem value_mono (h : Wraps value added limit) (hbefore : earlier <+: later)
    (hlater : total added later < limit) : value earlier ≤ value later := by
  have hle := h.total_mono hbefore
  rw [h.exact later hlater, h.exact earlier (by omega)]
  exact hle

-- If the number did not fall with the last event, the sum is still below the limit.
theorem total_lt_append (h : Wraps value added limit) {event : ε}
    (hevents : total added events < limit) (hle : value events ≤ value (events ++ [event])) :
    total added (events ++ [event]) < limit := by
  by_contra hlimit
  have hfalls := h.falls events event hevents (by omega)
  have hexact := h.exact events hevents
  omega

end Wraps

section Modulo

variable {value : List ε → Int} {added : ε → Int} {limit : Int}

-- A number kept modulo the limit.
theorem wraps_of_emod (hadded : ∀ event, 0 ≤ added event) (hlt : ∀ event, added event < limit)
    (hvalue : ∀ events, value events = total added events % limit) : Wraps value added limit := by
  have hnonneg := total_nonneg hadded
  constructor
  · exact hadded
  · exact hlt
  · intro events hlimit
    rw [hvalue, Int.emod_eq_of_lt (hnonneg events) hlimit]
  · intro events event hlimit hover
    have hone := hlt event
    have hnone := hadded event
    rw [total_append] at hover
    have hmod : (total added events + added event) % limit =
        total added events + added event - limit := by
      rw [← Int.sub_emod_right, Int.emod_eq_of_lt (by omega) (by omega)]
    rw [hvalue, total_append, hmod]
    omega

-- A number kept modulo twice the limit, half of whose values are negative.
theorem wraps_of_bmod {half : Nat} (hadded : ∀ event, 0 ≤ added event)
    (hlt : ∀ event, added event < half)
    (hvalue : ∀ events, value events = (total added events).bmod (2 * half)) :
    Wraps value added half := by
  have hnonneg := total_nonneg hadded
  constructor
  · exact hadded
  · exact hlt
  · intro events hlimit
    have hstart := hnonneg events
    rw [hvalue, Int.bmod_eq_of_le (by omega) (by omega)]
  · intro events event hlimit hover
    have hone := hlt event
    have hnone := hadded event
    have hstart := hnonneg events
    rw [total_append] at hover
    have hmod : (total added events + added event).bmod (2 * half) =
        total added events + added event - 2 * half := by
      have hemod : (total added events + added event) % (2 * half : Nat) =
          total added events + added event := Int.emod_eq_of_lt (by omega) (by omega)
      rw [Int.bmod_neg _ _ (by omega), hemod]
      omega
    rw [hvalue, total_append, hmod]
    omega

end Modulo

end RunningTotal
