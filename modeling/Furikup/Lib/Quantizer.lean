import Mathlib

/-!
# Quantizers

A quantizer cuts a range of values into cells that lie end to end, numbers them, and reads every
value of a cell back as one level inside it.

* `Quantizer` — the lower ends and the levels.  That each level is inside its cell is a field, and
  makes the lower ends increase.
* `Quantizer.IsCode` — a number is the code of a value.  There is at most one (`IsCode.unique`),
  it grows with the value (`IsCode.mono`), and a level has the code it was read from
  (`isCode_level`).
* `IsCode.abs_sub_le` — **the error is at most half of a cell** if the levels are in the middle.
* `mirror` — a quantizer of magnitudes used on numbers with a sign.
-/

set_option autoImplicit false

/-- Cells that lie end to end, with a level in each. -/
structure Quantizer where
  low : Nat → Nat
  level : Nat → Nat
  low_le_level : ∀ c, low c ≤ level c
  level_lt : ∀ c, level c < low (c + 1)

namespace Quantizer

variable (q : Quantizer)

theorem low_lt_succ (c : Nat) : q.low c < q.low (c + 1) :=
  Nat.lt_of_le_of_lt (q.low_le_level c) (q.level_lt c)

theorem strictMono_low : StrictMono q.low :=
  strictMono_nat_of_lt_succ q.low_lt_succ

theorem level_mono : Monotone q.level := by
  intro c d h
  rcases Nat.eq_or_lt_of_le h with rfl | hlt
  · exact le_rfl
  · calc q.level c ≤ q.low (c + 1) := (q.level_lt c).le
      _ ≤ q.low d := q.strictMono_low.monotone hlt
      _ ≤ q.level d := q.low_le_level d

/-- The value is in the cell with the number `c`. -/
structure IsCode (v c : Nat) : Prop where
  low_le : q.low c ≤ v
  lt_low : v < q.low (c + 1)

variable {q}

/-- **The code grows with the value.** -/
theorem IsCode.mono {v w c d : Nat} (hv : q.IsCode v c) (hw : q.IsCode w d) (h : v ≤ w) : c ≤ d := by
  have hlt : q.low c < q.low (d + 1) := Nat.lt_of_le_of_lt (hv.low_le.trans h) hw.lt_low
  exact Nat.lt_succ_iff.1 (q.strictMono_low.lt_iff_lt.1 hlt)

theorem IsCode.unique {v c d : Nat} (hc : q.IsCode v c) (hd : q.IsCode v d) : c = d :=
  Nat.le_antisymm (hc.mono hd le_rfl) (hd.mono hc le_rfl)

theorem isCode_level (c : Nat) : q.IsCode (q.level c) c :=
  ⟨q.low_le_level c, q.level_lt c⟩

/-- **What is read back is at most half of a cell away**, if the cell is `2 * r` wide and its level
in the middle. -/
theorem IsCode.abs_sub_le {v c r : Nat} (h : q.IsCode v c) (hlevel : q.level c = q.low c + r)
    (hwidth : q.low (c + 1) = q.low c + 2 * r) : |(q.level c : Int) - v| ≤ r := by
  have hle := h.low_le
  have hlt := h.lt_low
  rw [abs_le]
  omega

/-! ## Numbers with a sign -/

/-- A function of magnitudes on numbers with a sign. -/
def mirror (f : Nat → Nat) (x : Int) : Int :=
  if x < 0 then -f x.natAbs else f x.natAbs

/-- **Mirrored at zero an increasing function is increasing.** -/
theorem mirror_mono {f : Nat → Nat} (hf : Monotone f) : Monotone (mirror f) := by
  intro x y h
  rw [mirror, mirror]
  by_cases hx : x < 0
  · by_cases hy : y < 0
    · rw [if_pos hx, if_pos hy]
      have hle : f y.natAbs ≤ f x.natAbs := hf (by omega)
      omega
    · rw [if_pos hx, if_neg hy]
      omega
  · have hy : ¬ y < 0 := by omega
    rw [if_neg hx, if_neg hy]
    have hle : f x.natAbs ≤ f y.natAbs := hf (by omega)
    omega

/-- The error on a number is the error on its magnitude. -/
theorem abs_mirror_sub (f : Nat → Nat) (x : Int) :
    |mirror f x - x| = |(f x.natAbs : Int) - x.natAbs| := by
  rw [mirror]
  split
  · have hneg : -(f x.natAbs : Int) - x = -((f x.natAbs : Int) - x.natAbs) := by omega
    rw [hneg, abs_neg]
  · have hpos : (f x.natAbs : Int) - x = (f x.natAbs : Int) - x.natAbs := by omega
    rw [hpos]

end Quantizer
