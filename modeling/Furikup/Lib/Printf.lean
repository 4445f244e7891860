import Furikup.Lib.CText

/-!
# Formats

`printf` and its relatives take a format, which is a text, and the arguments for its conversions.
Nothing tells a format from any other text, so a text that came from somewhere else can be passed
where a format belongs.

* `Arg` and `format` — what is printed for a format and its arguments.  A conversion for which there
  is no argument is undefined behaviour.
* `format_append` — what stands before the first conversion is printed as it is.
* `length_of_format` and `format_eq_self_iff` — **with no arguments, the texts that are printed as
  they are are those without a percent sign.**
-/

set_option autoImplicit false

namespace Printf

open CText

/-- An argument.  The string is a pointer, and may be null. -/
inductive Arg
  | str (s : Option Text)
  | int (n : Int)
  | word (w : BitVec 32)

/-- What `%s` prints.  The C library has a text for the null pointer. -/
def fmtS (s : Option Text) : Text :=
  s.getD (lit "(null)")

/-- Print with `%08X`. -/
def fmt08X (w : BitVec 32) : Text :=
  (List.range 8).reverse.map fun k => (Nat.digitChar (w.toNat / 16 ^ k % 16)).toUpper

/-- What is printed.  These are the conversions that are in use. -/
def format : Text → List Arg → Option Text
  | [], _ => some []
  | '%' :: '%' :: fmt, args => (format fmt args).map ('%' :: ·)
  | '%' :: 's' :: fmt, .str s :: args => (format fmt args).map (fmtS s ++ ·)
  | '%' :: 'd' :: fmt, .int n :: args => (format fmt args).map (fmtD n ++ ·)
  | '%' :: 'i' :: fmt, .int n :: args => (format fmt args).map (fmtD n ++ ·)
  | '%' :: '0' :: '8' :: 'X' :: fmt, .word w :: args => (format fmt args).map (fmt08X w ++ ·)
  | '%' :: _, _ => none
  | c :: fmt, args => (format fmt args).map (c :: ·)

/-- Print into an array: what does not fit is cut. -/
def vsnprintf (size : Nat) (fmt : Text) (args : List Arg) : Option Text :=
  (format fmt args).map (snprintf size)

@[simp] theorem format_nil (args : List Arg) : format [] args = some [] := by
  rw [format]

theorem format_cons {c : Char} (hc : c ≠ '%') (fmt : Text) (args : List Arg) :
    format (c :: fmt) args = (format fmt args).map (c :: ·) := by
  rw [format]
  all_goals simp [hc]

@[simp] theorem format_s (fmt : Text) (s : Option Text) (args : List Arg) :
    format ('%' :: 's' :: fmt) (.str s :: args) = (format fmt args).map (fmtS s ++ ·) := by
  rw [format]

@[simp] theorem format_d (fmt : Text) (n : Int) (args : List Arg) :
    format ('%' :: 'd' :: fmt) (.int n :: args) = (format fmt args).map (fmtD n ++ ·) := by
  rw [format]

@[simp] theorem format_i (fmt : Text) (n : Int) (args : List Arg) :
    format ('%' :: 'i' :: fmt) (.int n :: args) = (format fmt args).map (fmtD n ++ ·) := by
  rw [format]

@[simp] theorem format_08X (fmt : Text) (w : BitVec 32) (args : List Arg) :
    format ('%' :: '0' :: '8' :: 'X' :: fmt) (.word w :: args) =
      (format fmt args).map (fmt08X w ++ ·) := by
  rw [format]

/-- What stands before the first conversion is printed as it is. -/
theorem format_append {t : Text} (ht : '%' ∉ t) (fmt : Text) (args : List Arg) :
    format (t ++ fmt) args = (format fmt args).map (t ++ ·) := by
  induction t with
  | nil => simp
  | cons c t ih =>
    rw [List.mem_cons, not_or] at ht
    rw [List.cons_append, format_cons (Ne.symm ht.1), ih ht.2, Option.map_map]
    rfl

/-- A text without a percent sign is printed as it is, whatever arguments there are. -/
theorem format_of_notMem {t : Text} (ht : '%' ∉ t) (args : List Arg) : format t args = some t := by
  have happ := format_append ht [] args
  rwa [List.append_nil, format_nil, Option.map_some, List.append_nil] at happ

/-- Without arguments two percent signs are printed as one, and there is no other conversion. -/
theorem length_of_format {t u : Text} {args : List Arg} (hargs : args = [])
    (h : format t args = some u) : 2 * u.length + t.count '%' = 2 * t.length := by
  fun_induction format t args generalizing u with
  | case1 => simpa using h
  | case2 fmt args ih =>
    obtain ⟨v, hv, rfl⟩ := Option.map_eq_some_iff.1 h
    have hlen := ih hargs hv
    simp only [List.length_cons, List.count_cons_self]
    omega
  -- a conversion with an argument
  | case3 | case4 | case5 | case6 => exact absurd hargs (List.cons_ne_nil _ _)
  | case7 => exact absurd h (Option.some_ne_none u).symm
  | case8 c fmt args h₁ h₂ h₃ h₄ h₅ hc ih =>
    obtain ⟨v, hv, rfl⟩ := Option.map_eq_some_iff.1 h
    have hlen := ih hargs hv
    rw [List.count_cons_of_ne hc, List.length_cons, List.length_cons]
    omega

/-- **With no arguments, the texts that are printed as they are are those without a percent
sign.** -/
theorem format_eq_self_iff {t : Text} : format t [] = some t ↔ '%' ∉ t := by
  refine ⟨fun h => ?_, fun h => format_of_notMem h []⟩
  have hlen := length_of_format rfl h
  exact List.count_eq_zero.1 (by omega)

end Printf
