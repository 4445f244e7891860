import Mathlib

/-!
# C strings, and the two ways of going wrong with them

A C program that handles text reads through pointers that may be null and writes into arrays that
may be full.  Both end the program's defined behaviour; here both are a `Fault`, and a computation
that may fault lives in `C = Except Fault`.

* `deref` — reading through a pointer, which is an `Option`.
* `Buf cap` — a `char[cap]` that holds a terminated string.  That the string and its terminator fit
  is a field, so every `Buf` there is has been written within its bounds; `sprintf` and `strcat`
  are the writes, and fault where there is no room.
* `Field cap` — a `char[cap]` as `strncpy` leaves it, with a terminator only where the string did
  not fill the array.
* `atoi` and `fmtD` — reading a decimal number and printing one with `%d`, and `atoi_fmtD`, the
  round trip on the range of a 32-bit `int`.
* `lines` and `words` — how a reader of a text protocol takes it apart again, with the lemmas that
  say what it finds in a text that was assembled from lines and words.

A string is the list of its characters, without the terminator.
-/

set_option autoImplicit false

namespace CText

abbrev Text := List Char

/-- The text of a string literal.  It is irreducible so that a definition that starts with one is
not computed by every attempt to unfold it. -/
@[irreducible] def lit (s : String) : Text := s.toList

/-- A literal is its characters.  Rewriting with this does not decode the string. -/
theorem lit_ofList (t : Text) : lit (String.ofList t) = t := by
  rw [lit, String.toList_ofList]

/-! ## Faults -/

/-- The undefined behaviours a string-handling program runs into. -/
inductive Fault
  /-- A null pointer was read through. -/
  | null
  /-- More was written into an array than it holds. -/
  | overflow
  deriving DecidableEq, Repr

abbrev C := Except Fault

/-- Read through a pointer. -/
def deref {α : Type} : Option α → C α
  | some a => .ok a
  | none => .error .null

@[simp] theorem deref_eq_ok {α : Type} {p : Option α} {a : α} : deref p = .ok a ↔ p = some a := by
  cases p with
  | none => simp [deref]
  | some b => simp [deref]

@[simp] theorem ok_bind {α β : Type} (a : α) (f : α → C β) : ((.ok a : C α) >>= f) = f a := rfl

@[simp] theorem error_bind {α β : Type} (e : Fault) (f : α → C β) :
    ((.error e : C α) >>= f) = .error e := rfl

@[simp] theorem bind_eq_ok {ε α β : Type} {x : Except ε α} {f : α → Except ε β} {b : β} :
    (x >>= f) = .ok b ↔ ∃ a, x = .ok a ∧ f a = .ok b := by
  cases x with
  | error e => simp [bind, Except.bind]
  | ok a => simp [bind, Except.bind]

theorem bind_eq_error {ε α β : Type} {x : Except ε α} {f : α → Except ε β} {e : ε} :
    (x >>= f) = .error e ↔ x = .error e ∨ ∃ a, x = .ok a ∧ f a = .error e := by
  cases x with
  | error e => simp [bind, Except.bind]
  | ok a => simp [bind, Except.bind]

@[simp] theorem pure_eq_ok {ε α : Type} {a b : α} : (pure a : Except ε α) = .ok b ↔ b = a := by
  simp [pure, Except.pure, eq_comm]

@[simp] theorem pure_ne_error {ε α : Type} {a : α} {e : ε} : (pure a : Except ε α) ≠ .error e := by
  simp [pure, Except.pure]

/-! ## Character arrays -/

/-- A `char[cap]` that holds a string. -/
structure Buf (cap : Nat) where
  text : Text
  /-- There is room for the string and for the terminator. -/
  fits : text.length < cap

/-- Write a string to the start of an array. -/
def sprintf (cap : Nat) (t : Text) : C (Buf cap) :=
  if h : t.length < cap then .ok ⟨t, h⟩ else .error .overflow

/-- Write a string behind the one that is there. -/
def Buf.strcat {cap : Nat} (b : Buf cap) (t : Text) : C (Buf cap) :=
  sprintf cap (b.text ++ t)

/-- Print into `size` bytes and cut off what does not fit. -/
def snprintf (size : Nat) (t : Text) : Text :=
  t.take (size - 1)

theorem sprintf_of_lt {cap : Nat} {t : Text} (h : t.length < cap) : sprintf cap t = .ok ⟨t, h⟩ := by
  rw [sprintf, dif_pos h]

theorem sprintf_eq_ok {cap : Nat} {t : Text} {b : Buf cap} :
    sprintf cap t = .ok b ↔ b.text = t := by
  by_cases hlt : t.length < cap
  · rw [sprintf_of_lt hlt, Except.ok.injEq]
    exact ⟨fun h => h ▸ rfl, fun h => by subst h; rfl⟩
  · rw [sprintf, dif_neg hlt]
    exact ⟨fun h => by simp at h, fun h => absurd (h ▸ b.fits) hlt⟩

/-- A string is written if and only if there is room for it. -/
theorem exists_sprintf_iff {cap : Nat} {t : Text} :
    (∃ b, sprintf cap t = .ok b) ↔ t.length < cap := by
  constructor
  · rintro ⟨b, h⟩
    exact sprintf_eq_ok.1 h ▸ b.fits
  · exact fun h => ⟨⟨t, h⟩, sprintf_of_lt h⟩

theorem sprintf_of_le {cap : Nat} {t : Text} (h : cap ≤ t.length) :
    sprintf cap t = .error .overflow := by
  rw [sprintf, dif_neg (by omega)]

theorem snprintf_of_lt {size : Nat} {t : Text} (h : t.length < size) : snprintf size t = t :=
  List.take_of_length_le (by omega)

/-- A `char[cap]` that holds a string which may fill it to the last byte. -/
structure Field (cap : Nat) where
  text : Text
  fits : text.length ≤ cap
  deriving DecidableEq, Repr

/-- An array with the empty string in it. -/
def Field.zero (cap : Nat) : Field cap := ⟨[], Nat.zero_le cap⟩

/-- `strncpy` into an array of its full size: the string is cut to the array, and a terminator is
written only behind a string that leaves room for it. -/
def strncpy (cap : Nat) (t : Text) : Field cap :=
  ⟨t.take cap, List.length_take_le cap t⟩

/-- The string ends inside the array. -/
def Field.Ends {cap : Nat} (f : Field cap) : Prop :=
  f.text.length < cap

instance {cap : Nat} (f : Field cap) : Decidable f.Ends :=
  inferInstanceAs (Decidable (f.text.length < cap))

/-- Read the array as a string.  Where there is no terminator the read runs out of the array. -/
def Field.str {cap : Nat} (f : Field cap) : C (Buf cap) :=
  sprintf cap f.text

theorem ends_strncpy_iff {cap : Nat} {t : Text} : (strncpy cap t).Ends ↔ t.length < cap := by
  rw [Field.Ends, strncpy, List.length_take]
  omega

theorem text_strncpy_of_lt {cap : Nat} {t : Text} (h : t.length < cap) :
    (strncpy cap t).text = t :=
  List.take_of_length_le h.le

/-! ## Decimal numbers -/

/-- The least value of a 32-bit `int`. -/
def intMin : Int := -2147483648

/-- The greatest value of a 32-bit `int`. -/
def intMax : Int := 2147483647

def isSpace (c : Char) : Bool :=
  c == ' ' || (9 ≤ c.toNat && c.toNat ≤ 13)

/-- The number the leading digits spell, 0 if there are none. -/
def readDigits (t : Text) : Nat :=
  Nat.ofDigitChars 10 (t.takeWhile Char.isDigit) 0

/-- Skip white space, take a sign, read digits until something else comes. -/
def strtol (t : Text) : Int :=
  match t.dropWhile isSpace with
  | '-' :: ds => -(readDigits ds : Int)
  | '+' :: ds => readDigits ds
  | ds => readDigits ds

/-- `strtol` into a 32-bit `int`, which stops at the ends of the range. -/
def atoi (t : Text) : Int :=
  max intMin (min intMax (strtol t))

/-- Print with `%d`. -/
def fmtD : Int → Text
  | .ofNat n => Nat.toDigits 10 n
  | .negSucc n => '-' :: Nat.toDigits 10 (n + 1)

theorem isDigit_toDigits (n : Nat) : ∀ c ∈ Nat.toDigits 10 n, c.isDigit = true :=
  fun _ hc => Nat.isDigit_of_mem_toDigits (by decide) (by decide) hc

theorem readDigits_toDigits (n : Nat) : readDigits (Nat.toDigits 10 n) = n := by
  rw [readDigits, List.takeWhile_eq_self_iff.2 (isDigit_toDigits n), Nat.ofDigitChars_ten_toDigits]

theorem not_isSpace_of_isDigit {c : Char} (h : c.isDigit = true) : isSpace c = false := by
  simp only [Char.isDigit, Bool.and_eq_true, decide_eq_true_eq] at h
  have h48 : 48 ≤ c.toNat := h.1
  simp only [isSpace, Bool.or_eq_false_iff, beq_eq_false_iff_ne, Bool.and_eq_false_iff,
    decide_eq_false_iff_not]
  refine ⟨?_, Or.inr (by omega)⟩
  rintro rfl
  exact absurd h48 (by decide)

theorem strtol_toDigits (n : Nat) : strtol (Nat.toDigits 10 n) = n := by
  have hdrop : (Nat.toDigits 10 n).dropWhile isSpace = Nat.toDigits 10 n := by
    cases h : Nat.toDigits 10 n with
    | nil => rfl
    | cons c cs =>
      have hc : c.isDigit = true := isDigit_toDigits n c (h ▸ List.mem_cons_self)
      rw [List.dropWhile_cons_of_neg (by simp [not_isSpace_of_isDigit hc])]
  rw [strtol, hdrop]
  split
  · next ds h => exact absurd (isDigit_toDigits n '-' (h ▸ List.mem_cons_self)) (by decide)
  · next ds h => exact absurd (isDigit_toDigits n '+' (h ▸ List.mem_cons_self)) (by decide)
  · rw [readDigits_toDigits]

theorem strtol_fmtD (n : Int) : strtol (fmtD n) = n := by
  cases n with
  | ofNat n => exact strtol_toDigits n
  | negSucc n =>
    rw [fmtD, strtol, List.dropWhile_cons_of_neg (by decide)]
    simp only [readDigits_toDigits]
    omega

/-- **What `%d` prints, `atoi` reads back.** -/
theorem atoi_fmtD {n : Int} (hmin : intMin ≤ n) (hmax : n ≤ intMax) : atoi (fmtD n) = n := by
  rw [atoi, strtol_fmtD, Int.min_eq_right hmax, Int.max_eq_right hmin]

/-- The characters of a printed number. -/
theorem mem_fmtD {n : Int} {c : Char} (hc : c ∈ fmtD n) : c = '-' ∨ c.isDigit = true := by
  cases n with
  | ofNat n => exact Or.inr (isDigit_toDigits n c hc)
  | negSucc n =>
    rcases List.mem_cons.1 hc with rfl | hc
    · exact Or.inl rfl
    · exact Or.inr (isDigit_toDigits (n + 1) c hc)

theorem not_mem_fmtD {c : Char} (hc : c ≠ '-') (hd : c.isDigit = false) (n : Int) : c ∉ fmtD n := by
  intro h
  rcases mem_fmtD h with rfl | h
  · exact hc rfl
  · rw [hd] at h
    exact Bool.false_ne_true h

theorem length_fmtD {n : Int} (hmin : intMin ≤ n) (hmax : n ≤ intMax) : (fmtD n).length ≤ 11 := by
  cases n with
  | ofNat n =>
    have hn : n < 10 ^ 11 := by simp only [intMax, Int.ofNat_eq_natCast] at hmax; omega
    exact (Nat.length_toDigits_le_iff (by omega) (by omega)).2 hn
  | negSucc n =>
    have hn : n + 1 < 10 ^ 10 := by simp only [intMin] at hmin; omega
    have := (Nat.length_toDigits_le_iff (b := 10) (k := 10) (by omega) (by omega)).2 hn
    simp only [fmtD, List.length_cons]
    omega

/-! ## Taking a text apart -/

/-- Take the carriage return off the end of a line. -/
def chomp (l : Text) : Text :=
  if l.getLast? = some '\r' then l.dropLast else l

/-- The lines of a text, with either line end. -/
def lines (t : Text) : List Text :=
  (t.splitOn '\n').map chomp

/-- The words of a line. -/
def words (l : Text) : List Text :=
  l.splitOn ' '

def crlf : Text := ['\r', '\n']

/-- Lines, each with its line end. -/
def unlines (ls : List Text) : Text :=
  ls.flatMap (· ++ crlf)

/-- Words, each behind a space. -/
def spaced (ws : List Text) : Text :=
  ws.flatMap (' ' :: ·)

theorem lines_append_crlf {l : Text} (hl : '\n' ∉ l) (t : Text) :
    lines (l ++ (crlf ++ t)) = l :: lines t := by
  have hl' : '\n' ∉ l ++ ['\r'] := by simpa using hl
  have hsplit := List.splitOn_append_cons_self_of_not_mem hl' t
  rw [List.append_assoc] at hsplit
  simp only [lines, crlf, List.cons_append, List.nil_append] at hsplit ⊢
  rw [hsplit, List.map_cons]
  simp [chomp]

@[simp] theorem unlines_nil : unlines [] = [] := rfl

@[simp] theorem unlines_cons (l : Text) (ls : List Text) :
    unlines (l :: ls) = l ++ (crlf ++ unlines ls) := by
  simp [unlines]

theorem unlines_append (ls ms : List Text) : unlines (ls ++ ms) = unlines ls ++ unlines ms := by
  simp [unlines]

/-- A text made of lines is read as those lines, and an empty one behind the last line end. -/
theorem lines_unlines {ls : List Text} (hls : ∀ l ∈ ls, '\n' ∉ l) :
    lines (unlines ls) = ls ++ [[]] := by
  induction ls with
  | nil => rfl
  | cons l ls ih =>
    rw [unlines_cons, lines_append_crlf (hls l List.mem_cons_self),
      ih fun m hm => hls m (List.mem_cons_of_mem l hm), List.cons_append]

@[simp] theorem spaced_nil : spaced [] = [] := rfl

@[simp] theorem spaced_cons (w : Text) (ws : List Text) :
    spaced (w :: ws) = ' ' :: (w ++ spaced ws) := by
  simp [spaced]

theorem spaced_append (us ws : List Text) : spaced (us ++ ws) = spaced us ++ spaced ws := by
  simp [spaced]

/-- A line made of words is read as those words. -/
theorem words_append_spaced {w : Text} {ws : List Text} (hw : ' ' ∉ w) (hws : ∀ x ∈ ws, ' ' ∉ x) :
    words (w ++ spaced ws) = w :: ws := by
  induction ws generalizing w with
  | nil => rw [spaced_nil, List.append_nil]; exact List.splitOn_eq_singleton hw
  | cons x ws ih =>
    rw [spaced_cons, words, List.splitOn_append_cons_self_of_not_mem hw]
    exact congrArg (w :: ·)
      (ih (hws x List.mem_cons_self) fun y hy => hws y (List.mem_cons_of_mem x hy))

end CText
