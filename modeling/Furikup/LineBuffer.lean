import Furikup.ConfigFile
import Furikup.Lib.CString

/-!
# The line buffer of the configuration file

`parseConfigFile` takes a line apart in the array it was read into: `strtok` writes NULs behind the
tokens, `strchr` finds the line end, and a loop from the end of the value writes NULs over trailing
spaces.  The loop stops at the first character of the value, which an empty value does not have; it
then looks at the byte in front.

* `stripLoop` — the loop, with a bound on its rounds.
* `stripLoop_terminates` — **it stops, inside the array**, whatever the line is.
* `readLine` — the body of the parser on the array, and `readLine_store`, it hands over
  what `readOption` does for the text of the line.
-/

set_option autoImplicit false

namespace Furikup

open CText Cells

variable {n : Nat}

/-! ## The loop -/

/-- `for(; i!=0; i--)` on `value[i]`, for so many rounds.  There is nothing to return if these are
not enough. -/
def stripLoop (value : Nat) : Nat → Int → Bytes n → C (Option (Bytes n))
  | 0, i, m => pure (if i = 0 then some m else none)
  | rounds + 1, i, m =>
    if i = 0 then pure (some m)
    else do
      let c ← peek m (value + i)
      if c = some ' ' then stripLoop value rounds (i - 1) (cut (value + i).toNat m)
      else pure (some m)

/-- The line end, which may be either of the two characters or both. -/
def stripCrLf (value : Nat) (m : Bytes n) : C (Bytes n) := do
  let m ← cutChr '\r' value m
  cutChr '\n' value m

/-- From a place inside the value the loop goes down to the first character at most. -/
theorem stripLoop_of_holds {m : Bytes n} {value : Nat} {t : Text} {i rounds : Nat}
    (h : Holds m value t) (hi : i < t.length) (hrounds : i ≤ rounds) :
    ∃ m', stripLoop value rounds i m = .ok (some m') ∧ Holds m' value (stripSpacesFrom t i) ∧
      ∀ k < value, cell m' k = cell m k := by
  induction i generalizing m t rounds with
  | zero =>
    refine ⟨m, ?_, h, fun k _ => rfl⟩
    cases rounds with
    | zero => rfl
    | succ rounds => rfl
  | succ i ih =>
    obtain ⟨rounds, rfl⟩ : ∃ left, rounds = left + 1 := ⟨rounds - 1, by omega⟩
    have hin : value + (i + 1) < n := by
      have := h.1
      omega
    have hindex : (value : Int) + (i + 1 : Nat) = (value + (i + 1) : Nat) := (Nat.cast_add _ _).symm
    have hread : peek m (value + (i + 1 : Nat)) = .ok t[i + 1]? := by
      rw [hindex, peek_of_lt m hin, h.2 (i + 1) (by omega)]
    have hnext : ((i + 1 : Nat) : Int) - 1 = i := by omega
    rw [stripLoop, if_neg (by omega), hread, ok_bind, stripSpacesFrom]
    by_cases hspace : t[i + 1]? = some ' '
    · have hlen : i < (t.take (i + 1)).length := by
        rw [List.length_take]
        omega
      have hleft : i ≤ rounds := by omega
      obtain ⟨m', hm', hholds, hframe⟩ := ih (h.cut_self (i := i + 1) (by omega)) hlen hleft
      rw [if_pos hspace, if_pos hspace, hnext, hindex, Int.toNat_natCast]
      refine ⟨m', hm', hholds, fun k hk => ?_⟩
      rw [hframe k hk, cell_cut, if_neg (by omega)]
    · rw [if_neg hspace, if_neg hspace]
      exact ⟨m, rfl, h, fun k _ => rfl⟩

/-- **The loop strips the trailing spaces of a string in the array**, in no more rounds than the
string has characters and one.  For an empty string that takes a byte in front of it that is no
space. -/
theorem stripLoop_ends {m : Bytes n} {value : Nat} {t : Text} (h : Holds m value t)
    (hpos : 0 < value) (hbefore : cell m (value - 1) ≠ some ' ') :
    ∃ m', stripLoop value (t.length + 1) (t.length - 1) m = .ok (some m') ∧
      Holds m' value (stripSpaces t) ∧ ∀ k < value, cell m' k = cell m k := by
  cases t with
  | nil =>
    have hin : value - 1 < n := by
      have := h.1
      omega
    have hindex : (value : Int) + (([] : Text).length - 1) = (value - 1 : Nat) := by
      rw [List.length_nil]
      omega
    refine ⟨m, ?_, h, fun k _ => rfl⟩
    rw [stripLoop, if_neg (by decide), hindex, peek_of_lt m hin, ok_bind, if_neg hbefore]
    rfl
  | cons c t =>
    have hlast : ((c :: t).length : Int) - 1 = t.length := by
      rw [List.length_cons]
      omega
    rw [hlast]
    have hin : t.length < (c :: t).length := Nat.lt_succ_self _
    exact stripLoop_of_holds h hin (by omega)

theorem stripCrLf_of_holds {m : Bytes n} {value : Nat} {t : Text} (h : Holds m value t) :
    ∃ m', stripCrLf value m = .ok m' ∧ Holds m' value (CFile.stripEnd t) ∧
      ∀ k < value, cell m' k = cell m k := by
  obtain ⟨m₁, hm₁, hholds₁, hframe₁⟩ := cutChr_of_holds '\r' h
  obtain ⟨m₂, hm₂, hholds₂, hframe₂⟩ := cutChr_of_holds '\n' hholds₁
  exact ⟨m₂, by rw [stripCrLf, hm₁, ok_bind, hm₂], hholds₂,
    fun k hk => (hframe₂ k hk).trans (hframe₁ k hk)⟩

/-! ## Two tokens -/

/-- Behind the first token, the byte in front of the second is the NUL that ends the first or a
separator. -/
theorem cell_before_value {d : Char} {o last : Nat} {m m₁ m₂ : Bytes n} {option value : Token}
    {s t : Text} (hoption : Tokenized d o m option s m₁) (hlast : last ∈ option.last)
    (hvalue : Tokenized d last m₁ value t m₂) :
    0 < value.offset ∧
      (cell m₂ (value.offset - 1) = none ∨ cell m₂ (value.offset - 1) = some d) := by
  have hnext := hoption.last last hlast
  have hle := hvalue.le_offset
  refine ⟨by omega, ?_⟩
  rw [hvalue.frame _ (by omega)]
  by_cases hfirst : value.offset = last
  · have hend : value.offset - 1 = option.offset + s.length := by omega
    exact Or.inl (hend ▸ hoption.holds.cell_end)
  · exact Or.inr (hvalue.skipped _ (by omega) (by omega))

/-- What becomes of a value behind its key: the line end and the trailing spaces go, in no more
rounds of the loop than the value has characters and one. -/
theorem strip_value {o last : Nat} {m m₁ m₂ : Bytes n} {option value : Token} {s t : Text}
    (hoption : Tokenized '=' o m option s m₁) (hlast : last ∈ option.last)
    (hvalue : Tokenized '=' last m₁ value t m₂) :
    ∃ m₃ m₄, stripCrLf value.offset m₂ = .ok m₃ ∧
      strlen m₃ value.offset = .ok (CFile.stripEnd t).length ∧
      stripLoop value.offset ((CFile.stripEnd t).length + 1) ((CFile.stripEnd t).length - 1) m₃ =
        .ok (some m₄) ∧
      Holds m₄ value.offset (stripSpaces (CFile.stripEnd t)) ∧
      ∀ k < value.offset, cell m₄ k = cell m₁ k := by
  obtain ⟨hpos, hbefore⟩ := cell_before_value hoption hlast hvalue
  obtain ⟨m₃, hm₃, hholds₃, hframe₃⟩ := stripCrLf_of_holds hvalue.holds
  have hspace : cell m₃ (value.offset - 1) ≠ some ' ' := by
    rw [hframe₃ _ (by omega)]
    rcases hbefore with hnul | hsep
    · rw [hnul]
      exact (Option.some_ne_none ' ').symm
    · rw [hsep]
      decide
  obtain ⟨m₄, hm₄, hholds₄, hframe₄⟩ := stripLoop_ends hholds₃ hpos hspace
  refine ⟨m₃, m₄, hm₃, strlen_of_holds hholds₃, hm₄, hholds₄, fun k hk => ?_⟩
  rw [hframe₄ k hk, hframe₃ k hk, hvalue.frame k hk]

/-- **The loop stops in bounds.**  Whatever the 512 bytes are for which both calls of `strtok`
return a token, what is left of the value has a length, the loop from its end is through after that
many rounds and one, and nothing outside the array is read. -/
theorem stripLoop_terminates {m m₁ m₂ : Bytes 512} {option value : Token}
    (hoption : Cells.strtok '=' 0 m = .ok (some option, m₁))
    (hvalue : strtokNull '=' option.last m₁ = .ok (some value, m₂)) :
    ∃ m₃ len m₄, stripCrLf value.offset m₂ = .ok m₃ ∧ strlen m₃ value.offset = .ok len ∧
      stripLoop value.offset (len + 1) (len - 1) m₃ = .ok (some m₄) := by
  obtain ⟨s, hs⟩ := exists_tokenized hoption
  cases hlast : option.last with
  | none =>
    rw [hlast] at hvalue
    exact absurd (congrArg Prod.fst (pure_eq_ok.1 hvalue)) (Option.some_ne_none value)
  | some last =>
    rw [hlast] at hvalue
    obtain ⟨t, ht⟩ := exists_tokenized hvalue
    obtain ⟨m₃, m₄, hm₃, hlen, hm₄, -⟩ := strip_value hs hlast ht
    exact ⟨m₃, _, m₄, hm₃, hlen, hm₄⟩

/-- An empty value between two separators and the line end. -/
theorem stripLoop_terminates_empty :
    ∃ m₃ len m₄, stripCrLf 3 (cut 1 (store ['k', '=', '=', '\r', '\n'] fun _ => none) : Bytes 512) =
      .ok m₃ ∧ strlen m₃ 3 = .ok len ∧ stripLoop 3 (len + 1) (len - 1) m₃ = .ok (some m₄) := by
  have hoption : Cells.strtok '=' 0 (store ['k', '=', '=', '\r', '\n'] fun _ => none : Bytes 512) =
      .ok (some ⟨0, some 2⟩, cut 1 (store ['k', '=', '=', '\r', '\n'] fun _ => none)) := rfl
  have hvalue : strtokNull '='
      (some 2) (cut 1 (store ['k', '=', '=', '\r', '\n'] fun _ => none) : Bytes 512) =
      .ok (some ⟨3, none⟩, cut 1 (store ['k', '=', '=', '\r', '\n'] fun _ => none)) := rfl
  exact stripLoop_terminates hoption hvalue

/-! ## The whole line -/

/-- The body of the loop of `parseConfigFile`, on `buffer`. -/
def readLine (m : Bytes 512) : C ReadOption := do
  if cell m 0 = some '#' then pure .skip
  else
    let (option, m) ← Cells.strtok '=' 0 m
    match option with
    | none => pure (.stop (-2))
    | some option =>
      let (value, m) ← strtokNull '=' option.last m
      match value with
      | none => pure (.stop (-3))
      | some value =>
        let m ← stripCrLf value.offset m
        let len ← strlen m value.offset
        let m ← deref (← stripLoop value.offset (len + 1) (len - 1) m)
        let option ← Cells.read m option.offset
        let value ← Cells.read m value.offset
        pure (.call option value)

/-- **On an array that holds a line the parser does what it does for the text.** -/
theorem readLine_of_holds {m : Bytes 512} {buffer : Text} (h : Holds m 0 (CFile.cstr buffer)) :
    readLine m = .ok (readOption buffer) := by
  have hhead : cell m 0 = (CFile.cstr buffer).head? := by
    rw [List.head?_eq_getElem?]
    exact h.2 0 (Nat.zero_le _)
  rw [readLine, readOption, hhead]
  split
  · rfl
  obtain ⟨hnone, hsome⟩ := strtok_of_holds (d := '=') h
  split
  · next hopt =>
    rw [hnone hopt]
    rfl
  next s rest hopt =>
  obtain ⟨option, m₁, hoption, hs, hrest⟩ := hsome s rest hopt
  obtain ⟨s', htok⟩ := exists_tokenized hoption
  obtain rfl := hs.unique htok.holds
  rw [hoption, ok_bind]
  cases hlast : option.last with
  | none =>
    rw [hlast] at hrest
    obtain rfl : rest = [] := hrest
    simp only [hlast]
    rfl
  | some last =>
    rw [hlast] at hrest
    simp only [hlast]
    rw [strtokNull]
    obtain ⟨hnone₁, hsome₁⟩ := strtok_of_holds (d := '=') hrest
    split
    · next hval =>
      rw [hnone₁ hval]
      rfl
    next t left hval =>
    obtain ⟨value, m₂, hvalue, ht, -⟩ := hsome₁ t left hval
    obtain ⟨t', htok₁⟩ := exists_tokenized hvalue
    obtain rfl := ht.unique htok₁.holds
    obtain ⟨m₃, m₄, hm₃, hlen, hm₄, hholds, hframe⟩ := strip_value htok hlast htok₁
    have hoffset := htok.last last hlast
    have hle := htok₁.le_offset
    have hs₄ : Holds m₄ option.offset s := hs.congr fun j _ hj => hframe j (by omega)
    rw [hvalue, ok_bind]
    simp only [hm₃, hlen, hm₄, read_of_holds hs₄, read_of_holds hholds, ok_bind, deref]
    rfl

/-- **Every line of the file is read from `buffer` as it is read from its text**, whatever the line
before has left there. -/
theorem readLine_store {text buffer : Text} (h : buffer ∈ CFile.reads 511 text) (m : Bytes 512) :
    readLine (store buffer m) = .ok (readOption buffer) :=
  readLine_of_holds (holds_store (Nat.lt_succ_of_le (CFile.length_le_of_mem_reads h)) m)

end Furikup
