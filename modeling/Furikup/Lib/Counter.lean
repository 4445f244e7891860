import Mathlib

/-!
# Counters that are only added to

A C program that numbers things in an `int` adds to it for each of them, and nothing takes the
number back to the start.

* `after` — the counter after so many additions, in two's complement.  `toInt_after` is its value,
  and `toInt_after_of_fits` says that there is nothing to the wrapping as long as the sum fits.
* `exists_mod_ge` — a counter that is read modulo the size of a ring comes into the last `step`
  places of the ring once in each round.
-/

set_option autoImplicit false

namespace Counter

/-- The counter after `n` additions. -/
def after (start step : Int32) : Nat → Int32
  | 0 => start
  | n + 1 => after start step n + step

theorem after_succ (start step : Int32) (n : Nat) :
    after start step (n + 1) = after start step n + step := rfl

/-- **The value of the counter is the sum, wrapped once.** -/
theorem toInt_after (start step : Int32) (n : Nat) :
    (after start step n).toInt = (start.toInt + n * step.toInt).bmod (2 ^ 32) := by
  induction n with
  | zero =>
    rw [after, Nat.cast_zero, Int.zero_mul, Int.add_zero]
    exact (Int.bmod_eq_of_le start.le_toInt (Int.lt_of_lt_of_le start.toInt_lt (by decide))).symm
  | succ n ih =>
    rw [after_succ, Int32.toInt_add, ih, Int.bmod_add_bmod, Nat.cast_succ, Int.add_mul, Int.one_mul,
      Int.add_assoc]

/-- A sum that fits is the value. -/
theorem toInt_after_of_fits {start step : Int32} {n : Nat}
    (hmin : -2 ^ 31 ≤ start.toInt + n * step.toInt) (hmax : start.toInt + n * step.toInt < 2 ^ 31) :
    (after start step n).toInt = start.toInt + n * step.toInt := by
  rw [toInt_after]
  exact Int.bmod_eq_of_le (by simpa using hmin) (by simpa using hmax)

/-- **A round of a ring passes through its last places.** -/
theorem exists_mod_ge {size step : Nat} (hstep : 0 < step) (hsize : step ≤ size) (x : Nat) :
    ∃ i, x % size + i * step < size ∧ size - step ≤ (x + i * step) % size := by
  have hlt : x % size < size := Nat.mod_lt x (hstep.trans_le hsize)
  induction h : size - step - x % size using Nat.strong_induction_on generalizing x with
  | _ d ih =>
    by_cases hlast : size - step ≤ x % size
    · exact ⟨0, by rwa [Nat.zero_mul], by rwa [Nat.zero_mul]⟩
    · -- one step more stays in the round
      have hfits : step < size := by omega
      have hnext : (x + step) % size = x % size + step := by
        rw [Nat.add_mod, Nat.mod_eq_of_lt hfits, Nat.mod_eq_of_lt (by omega)]
      obtain ⟨i, hround, hi⟩ := ih _ (by omega) (x + step) (by omega) rfl
      refine ⟨i + 1, ?_, ?_⟩
      · rw [Nat.succ_mul]
        omega
      · rwa [Nat.succ_mul, Nat.add_comm (i * step), ← Nat.add_assoc]

end Counter
