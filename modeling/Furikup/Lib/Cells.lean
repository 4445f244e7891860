import Furikup.Lib.CText

/-!
# Strings in one flat array

A two-dimensional `char` array is one run of bytes.  A string that is copied to one of its rows and
is too long for it runs on into the next, and a string that is read from a row goes on to the next
NUL wherever that is; only the ends of the whole array are the ends of what may be touched.

* `Bytes n` — an array of `n` bytes, of which `none` is NUL.
* `strcpy` and `read` — with a fault where they leave the array.
* `Holds` — a string stands at an offset.  `read_of_holds`, `holds_strcpy` and `Holds.frame` are the
  rules: it is read back, a copy puts it there, and a copy elsewhere leaves it alone.
-/

set_option autoImplicit false

namespace Cells

open CText

/-- An array of bytes; `none` is NUL. -/
abbrev Bytes (n : Nat) := Fin n → Option Char

variable {n : Nat}

/-- The byte at an offset, NUL outside the array. -/
def cell (m : Bytes n) (k : Nat) : Option Char :=
  if h : k < n then m ⟨k, h⟩ else none

/-- Copy a string with its terminator to an offset. -/
def strcpy (o : Nat) (s : Text) (m : Bytes n) : C (Bytes n) :=
  if o + s.length < n then
    .ok fun k => if o ≤ k.val ∧ k.val ≤ o + s.length then s[k.val - o]? else m k
  else .error .overflow

/-- The string that starts at an offset. -/
def read (m : Bytes n) (o : Nat) : C Text :=
  if h : o < n then
    match m ⟨o, h⟩ with
    | none => .ok []
    | some c => do
      let s ← read m (o + 1)
      pure (c :: s)
  else .error .overflow
termination_by n - o

/-- The string with its terminator stands at the offset. -/
def Holds (m : Bytes n) (o : Nat) (s : Text) : Prop :=
  o + s.length < n ∧ ∀ i ≤ s.length, cell m (o + i) = s[i]?

theorem exists_strcpy_iff {o : Nat} {s : Text} {m : Bytes n} :
    (∃ m', strcpy o s m = .ok m') ↔ o + s.length < n := by
  rw [strcpy]
  split
  · next h => exact iff_of_true ⟨_, rfl⟩ h
  · next h => exact iff_of_false (by simp) h

theorem cell_strcpy {o : Nat} {s : Text} {m m' : Bytes n} (h : strcpy o s m = .ok m') (k : Nat) :
    cell m' k = if o ≤ k ∧ k ≤ o + s.length then s[k - o]? else cell m k := by
  have hlt := exists_strcpy_iff.1 ⟨m', h⟩
  rw [strcpy, if_pos hlt, Except.ok.injEq] at h
  rw [← h, cell, cell]
  by_cases hk : k < n
  · rw [dif_pos hk, dif_pos hk]
  · rw [dif_neg hk, dif_neg hk, if_neg (by omega)]

/-- A string that stands there is read. -/
theorem read_of_holds {m : Bytes n} {o : Nat} {s : Text} (h : Holds m o s) : read m o = .ok s := by
  induction s generalizing o with
  | nil =>
    obtain ⟨hlt, hcell⟩ := h
    have h₀ := hcell 0 le_rfl
    have ho : o < n := by simpa using hlt
    rw [Nat.add_zero, cell, dif_pos ho] at h₀
    rw [read, dif_pos ho, h₀]
    rfl
  | cons c s ih =>
    obtain ⟨hlt, hcell⟩ := h
    rw [List.length_cons] at hlt hcell
    have h₀ := hcell 0 (Nat.zero_le _)
    have ho : o < n := by omega
    have hrest : Holds m (o + 1) s := by
      refine ⟨by omega, fun i hi => ?_⟩
      have := hcell (i + 1) (by omega)
      rwa [List.getElem?_cons_succ, Nat.add_comm i 1, ← Nat.add_assoc] at this
    rw [Nat.add_zero, cell, dif_pos ho] at h₀
    rw [read, dif_pos ho, h₀, List.getElem?_cons_zero]
    simp only [ih hrest, ok_bind]
    rfl

/-- With a NUL somewhere behind the offset there is a string to read. -/
theorem exists_read_of_cell {m : Bytes n} {o k : Nat} (hcell : cell m k = none) (hk : k < n)
    (ho : o ≤ k) : ∃ s, read m o = .ok s ∧ o + s.length ≤ k := by
  induction h : k - o generalizing o with
  | zero =>
    obtain rfl : o = k := by omega
    rw [cell, dif_pos hk] at hcell
    rw [read, dif_pos hk, hcell]
    exact ⟨[], rfl, ho⟩
  | succ d ih =>
    have hlt : o < n := by omega
    rw [read, dif_pos hlt]
    cases m ⟨o, hlt⟩ with
    | none => exact ⟨[], rfl, ho⟩
    | some c =>
      obtain ⟨s, hs, hlen⟩ := ih (o := o + 1) (by omega) (by omega)
      refine ⟨c :: s, by simp only [hs, ok_bind]; rfl, ?_⟩
      rw [List.length_cons]
      omega

/-- A copy leaves a NUL in the last byte of the array if there is one. -/
theorem cell_last_strcpy {o : Nat} {s : Text} {m m' : Bytes n} (h : strcpy o s m = .ok m')
    (hlast : cell m (n - 1) = none) : cell m' (n - 1) = none := by
  have hlt := exists_strcpy_iff.1 ⟨m', h⟩
  rw [cell_strcpy h]
  split
  · exact List.getElem?_eq_none (by omega)
  · exact hlast

/-- A copy puts a string there. -/
theorem holds_strcpy {o : Nat} {s : Text} {m m' : Bytes n} (h : strcpy o s m = .ok m') :
    Holds m' o s := by
  refine ⟨exists_strcpy_iff.1 ⟨m', h⟩, fun i hi => ?_⟩
  rw [cell_strcpy h, if_pos (by omega), Nat.add_sub_cancel_left]

/-- A copy leaves strings alone that it does not touch. -/
theorem Holds.frame {o a : Nat} {s t : Text} {m m' : Bytes n} (ht : Holds m a t)
    (h : strcpy o s m = .ok m') (hapart : a + t.length < o ∨ o + s.length < a) : Holds m' a t := by
  refine ⟨ht.1, fun i hi => ?_⟩
  rw [cell_strcpy h, if_neg (by omega)]
  exact ht.2 i hi

end Cells
