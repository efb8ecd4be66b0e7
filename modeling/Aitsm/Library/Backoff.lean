import Mathlib.Data.List.Basic
import Mathlib.Tactic.Ring

/-!
# Doubling delays, and counting since the last reset

A retry that waits twice as long each time, up to a bound, and starts over when
something succeeds. `delay initial bound n` is the wait after `n` failures, and
`countSince` is how many failures a history holds since its last reset.
-/

namespace Aitsm.Library

namespace Backoff

variable {initial bound : ℕ}

/-- The delay after `n` doublings of `initial`, clamped. -/
def delay (initial bound n : ℕ) : ℕ := min (initial * 2 ^ n) bound

theorem delay_zero (h : initial ≤ bound) : delay initial bound 0 = initial := by
  rw [delay, pow_zero, mul_one, min_eq_left h]

/-- Clamping before the doubling makes no difference. -/
theorem delay_succ (n : ℕ) :
    delay initial bound (n + 1) = min (delay initial bound n * 2) bound := by
  have hdouble : initial * 2 ^ (n + 1) = initial * 2 ^ n * 2 := by ring
  rw [delay, delay, hdouble]
  omega

theorem delay_le (n : ℕ) : delay initial bound n ≤ bound := min_le_right _ _

theorem le_delay (h : initial ≤ bound) (n : ℕ) : initial ≤ delay initial bound n :=
  le_min (Nat.le_mul_of_pos_right _ (Nat.two_pow_pos n)) h

end Backoff

variable {E : Type*} {reset counted : E → Bool}

/-- How many counted events a history holds since its last reset. An event that
is both resets first. -/
def countSince (reset counted : E → Bool) (τ : List E) : ℕ :=
  τ.foldl (fun n e => (if reset e then 0 else n) + (if counted e then 1 else 0)) 0

@[simp] theorem countSince_nil : countSince reset counted [] = 0 := rfl

@[simp] theorem countSince_concat (τ : List E) (e : E) :
    countSince reset counted (τ ++ [e]) =
      (if reset e then 0 else countSince reset counted τ) + (if counted e then 1 else 0) :=
  List.foldl_concat ..

end Aitsm.Library
