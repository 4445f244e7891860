import Furikup.Lib.Cells
import Furikup.Lib.CFile

/-!
# The functions of `string.h` on an array

A string function is given an address and goes on from there until it comes to what it looks for or
to a NUL.  Where there is no NUL it runs out of the array.

* `search` — the first place from an offset on that a test accepts, and `search_eq_ok`, **what it
  finds**.  All functions here are searches.
* `cut` — a NUL written at an offset that has been read.
* `store` — the array after a read with `fgets`.
* `peek`, `strlen`, `cutChr` — one place, the length, and `c = strchr(…); if (c) *c = 0`.
* `strtok` — a call of `strtok`, and `Tokenized`, what it leaves in the array.
* `strlen_of_holds`, `cutChr_of_holds`, `strtok_of_holds` — on an array that holds a string the
  functions do what the ones on texts do.
-/

set_option autoImplicit false

namespace Cells

open CText

variable {n : Nat}

/-! ## Searching -/

/-- Look at so many places. -/
def find (p : Option Char → Bool) (m : Bytes n) : Nat → Nat → C Nat
  | 0, _ => .error .overflow
  | left + 1, o => if p (cell m o) then .ok o else find p m left (o + 1)

/-- Look until the end of the array. -/
def search (p : Option Char → Bool) (m : Bytes n) (o : Nat) : C Nat :=
  find p m (n - o) o

theorem find_eq_ok {p : Option Char → Bool} {m : Bytes n} {left o k : Nat} :
    find p m left o = .ok k ↔
      o ≤ k ∧ k < o + left ∧ p (cell m k) = true ∧ ∀ j, o ≤ j → j < k → p (cell m j) = false := by
  induction left generalizing o with
  | zero => exact iff_of_false (by simp [find]) fun h => by omega
  | succ left ih =>
    rw [find]
    by_cases hp : p (cell m o) = true
    · rw [if_pos hp, Except.ok.injEq]
      constructor
      · rintro rfl
        exact ⟨le_rfl, by omega, hp, fun j hj hlt => absurd hlt (Nat.not_lt.2 hj)⟩
      · rintro ⟨hle, -, -, hbefore⟩
        by_contra hne
        rw [hbefore o le_rfl (by omega)] at hp
        exact Bool.false_ne_true hp
    · rw [if_neg hp, ih]
      constructor
      · rintro ⟨hle, hlt, hk, hbefore⟩
        refine ⟨by omega, by omega, hk, fun j hj hjk => ?_⟩
        rcases Nat.eq_or_lt_of_le hj with rfl | hj
        · exact Bool.not_eq_true _ ▸ hp
        · exact hbefore j hj hjk
      · rintro ⟨hle, hlt, hk, hbefore⟩
        have hne : o ≠ k := by
          rintro rfl
          exact hp hk
        exact ⟨by omega, by omega, hk, fun j hj => hbefore j (by omega)⟩

/-- **A search finds the first place that the test accepts**, if there is one in the array. -/
theorem search_eq_ok {p : Option Char → Bool} {m : Bytes n} {o k : Nat} :
    search p m o = .ok k ↔
      o ≤ k ∧ k < n ∧ p (cell m k) = true ∧ ∀ j, o ≤ j → j < k → p (cell m j) = false := by
  rw [search, find_eq_ok]
  constructor
  · rintro ⟨hle, hlt, h⟩
    exact ⟨hle, by omega, h⟩
  · rintro ⟨hle, hlt, h⟩
    exact ⟨hle, by omega, h⟩

/-! ## Writing a NUL -/

/-- Write a NUL. -/
def cut (k : Nat) (m : Bytes n) : Bytes n :=
  fun i => if i.val = k then none else m i

theorem cell_cut (m : Bytes n) (k j : Nat) :
    cell (cut k m) j = if j = k then none else cell m j := by
  rw [cell, cell]
  by_cases hj : j < n
  · rw [dif_pos hj, dif_pos hj]
    rfl
  · rw [dif_neg hj, dif_neg hj, ite_self]

/-- The string in front of the NUL. -/
theorem Holds.cut_self {m : Bytes n} {o : Nat} {s : Text} (h : Holds m o s) {i : Nat}
    (hi : i ≤ s.length) : Holds (cut (o + i) m) o (s.take i) := by
  obtain ⟨hlt, hcell⟩ := h
  have hlen : (s.take i).length = i := by rw [List.length_take, Nat.min_eq_left hi]
  refine ⟨by omega, fun j hj => ?_⟩
  rw [hlen] at hj
  rw [cell_cut, List.getElem?_take]
  by_cases heq : j = i
  · rw [if_pos (by omega), if_neg (by omega)]
  · rw [if_neg (by omega), if_pos (by omega), hcell j (by omega)]

/-- A string elsewhere stays as it is. -/
theorem Holds.cut_apart {m : Bytes n} {o k : Nat} {s : Text} (h : Holds m o s)
    (hk : k < o ∨ o + s.length < k) : Holds (cut k m) o s := by
  obtain ⟨hlt, hcell⟩ := h
  refine ⟨hlt, fun j hj => ?_⟩
  rw [cell_cut, if_neg (by omega), hcell j hj]

/-- What does not change the cells of a string does not change the string. -/
theorem Holds.congr {m m' : Bytes n} {o : Nat} {s : Text} (h : Holds m o s)
    (hcell : ∀ j, o ≤ j → j ≤ o + s.length → cell m' j = cell m j) : Holds m' o s :=
  ⟨h.1, fun j hj => (hcell (o + j) (by omega) (by omega)).trans (h.2 j hj)⟩

/-- The end of a string. -/
theorem Holds.drop {m : Bytes n} {o : Nat} {s t : Text} (h : Holds m o (s ++ t)) :
    Holds m (o + s.length) t := by
  obtain ⟨hlt, hcell⟩ := h
  rw [List.length_append] at hlt hcell
  refine ⟨by omega, fun j hj => ?_⟩
  rw [Nat.add_assoc, hcell (s.length + j) (by omega), List.getElem?_append_right (by omega),
    Nat.add_sub_cancel_left]

/-- What `fgets` makes of an array: the characters it has read, and a NUL behind them.  A NUL that
it has read is one in the array. -/
def store (t : Text) (m : Bytes n) : Bytes n :=
  fun k => if k.val ≤ t.length then t[k.val]?.filter (· != '\x00') else m k

/-- The array then holds the text up to its first NUL. -/
theorem holds_store {t : Text} (ht : t.length < n) (m : Bytes n) :
    Holds (store t m) 0 (CFile.cstr t) := by
  have hcell : ∀ i ≤ t.length, cell (store t m) (0 + i) = t[i]?.filter (· != '\x00') := by
    intro i hi
    rw [Nat.zero_add, cell, dif_pos (by omega), store, if_pos hi]
  have hle : (CFile.cstr t).length ≤ t.length := CFile.length_cutAt_le _ t
  refine ⟨by omega, fun i hi => ?_⟩
  rw [hcell i (by omega)]
  by_cases hnul : '\x00' ∈ t
  · obtain ⟨a, b, rfl, ha⟩ := List.eq_append_cons_of_mem hnul
    rw [CFile.cstr, CFile.cutAt_append_cons, CFile.cutAt_of_notMem ha] at hi ⊢
    rcases Nat.lt_or_eq_of_le hi with hlt | rfl
    · have hne : a[i] ≠ '\x00' := fun heq => ha (heq ▸ List.getElem_mem hlt)
      rw [List.getElem?_append_left hlt, List.getElem?_eq_getElem hlt,
        Option.filter_some_pos (by simpa using hne)]
    · rw [List.getElem?_append_right le_rfl, Nat.sub_self, List.getElem?_eq_none le_rfl]
      rfl
  · rw [CFile.cstr, CFile.cutAt_of_notMem hnul] at hi ⊢
    rcases Nat.lt_or_eq_of_le hi with hlt | rfl
    · have hne : t[i] ≠ '\x00' := fun heq => hnul (heq ▸ List.getElem_mem hlt)
      rw [List.getElem?_eq_getElem hlt, Option.filter_some_pos (by simpa using hne)]
    · rw [List.getElem?_eq_none le_rfl]
      rfl

/-! ## Length and single characters -/

/-- Read one place, which may lie in front of the array. -/
def peek (m : Bytes n) (o : Int) : C (Option Char) :=
  if 0 ≤ o ∧ o < n then .ok (cell m o.toNat) else .error .overflow

def strlen (m : Bytes n) (o : Nat) : C Nat := do
  let e ← search (· == none) m o
  pure (e - o)

/-- `c = strchr(s, c); if (c) *c = 0;` -/
def cutChr (c : Char) (o : Nat) (m : Bytes n) : C (Bytes n) := do
  let e ← search (fun x => x == none || x == some c) m o
  pure (if cell m e = none then m else cut e m)

/-- Up to its terminator a string has no NUL. -/
theorem Holds.cell_eq {m : Bytes n} {o : Nat} {s : Text} (h : Holds m o s) {j : Nat} (hj : o ≤ j)
    (hlt : j < o + s.length) : cell m j = some s[j - o] := by
  have := h.2 (j - o) (by omega)
  rwa [Nat.add_sub_cancel' hj, List.getElem?_eq_getElem (by omega)] at this

theorem Holds.cell_end {m : Bytes n} {o : Nat} {s : Text} (h : Holds m o s) :
    cell m (o + s.length) = none := by
  rw [h.2 s.length le_rfl, List.getElem?_eq_none le_rfl]

theorem peek_of_lt (m : Bytes n) {k : Nat} (hk : k < n) : peek m k = .ok (cell m k) := by
  rw [peek, if_pos ⟨Int.natCast_nonneg k, by omega⟩, Int.toNat_natCast]

theorem strlen_of_holds {m : Bytes n} {o : Nat} {s : Text} (h : Holds m o s) :
    strlen m o = .ok s.length := by
  have hsearch : search (· == none) m o = .ok (o + s.length) := by
    refine search_eq_ok.2 ⟨by omega, h.1, by rw [h.cell_end]; rfl, fun j hj hlt => ?_⟩
    rw [h.cell_eq hj hlt]
    rfl
  rw [strlen, hsearch, ok_bind, Nat.add_sub_cancel_left]
  rfl

/-- The search for a character in a string ends where the string is cut at it. -/
theorem search_of_holds (c : Char) {m : Bytes n} {o : Nat} {s : Text} (h : Holds m o s) :
    search (fun x => x == none || x == some c) m o = .ok (o + (CFile.cutAt c s).length) ∧
      cell m (o + (CFile.cutAt c s).length) = if c ∈ s then some c else none := by
  by_cases hc : c ∈ s
  · obtain ⟨t, u, rfl, ht⟩ := List.eq_append_cons_of_mem hc
    have hlen : (t ++ c :: u).length = t.length + (u.length + 1) := by
      rw [List.length_append, List.length_cons]
    have hcell : cell m (o + t.length) = some c := by
      rw [h.2 _ (by omega), List.getElem?_append_right le_rfl, Nat.sub_self]
      rfl
    rw [CFile.cutAt_append_cons, CFile.cutAt_of_notMem ht, if_pos hc]
    refine ⟨search_eq_ok.2 ⟨by omega, ?_, by simp [hcell], fun j hj hlt => ?_⟩, hcell⟩
    · have := h.1
      omega
    · have hne : t[j - o] ≠ c := fun heq => ht (heq ▸ List.getElem_mem _)
      rw [h.cell_eq hj (by omega), List.getElem_append_left (by omega)]
      simpa using hne
  · rw [CFile.cutAt_of_notMem hc, if_neg hc]
    refine ⟨search_eq_ok.2 ⟨by omega, h.1, by simp [h.cell_end], fun j hj hlt => ?_⟩, h.cell_end⟩
    have hne : s[j - o] ≠ c := fun heq => hc (heq ▸ List.getElem_mem _)
    rw [h.cell_eq hj hlt]
    simpa using hne

/-- The NUL is written behind what is in front of the character. -/
theorem Holds.cut_cutAt {m : Bytes n} {o : Nat} {s : Text} (h : Holds m o s) (c : Char) :
    Holds (cut (o + (CFile.cutAt c s).length) m) o (CFile.cutAt c s) := by
  have hself := h.cut_self (CFile.length_cutAt_le c s)
  rwa [← List.prefix_iff_eq_take.1 (CFile.cutAt_prefix_self c s)] at hself

/-- Cut at a character, an array holds what is in front of it. -/
theorem cutChr_of_holds (c : Char) {m : Bytes n} {o : Nat} {s : Text} (h : Holds m o s) :
    ∃ m', cutChr c o m = .ok m' ∧ Holds m' o (CFile.cutAt c s) ∧ ∀ k < o, cell m' k = cell m k := by
  obtain ⟨hsearch, hcell⟩ := search_of_holds c h
  rw [cutChr, hsearch, ok_bind, hcell]
  by_cases hc : c ∈ s
  · rw [if_pos hc, if_neg (Option.some_ne_none c)]
    exact ⟨_, rfl, h.cut_cutAt c, fun k hk => by rw [cell_cut, if_neg (by omega)]⟩
  · rw [if_neg hc, if_pos rfl]
    exact ⟨m, rfl, (CFile.cutAt_of_notMem hc).symm ▸ h, fun k _ => rfl⟩

/-! ## `strtok` -/

/-- A token, and where the next call goes on; after the last token there is nowhere to go on. -/
structure Token where
  offset : Nat
  last : Option Nat
  deriving DecidableEq, Repr

/-- `strtok` on a string. -/
def strtok (d : Char) (o : Nat) (m : Bytes n) : C (Option Token × Bytes n) := do
  let s ← search (· != some d) m o
  if cell m s = none then pure (none, m)
  else do
    let e ← search (fun x => x == none || x == some d) m s
    if cell m e = none then pure (some ⟨s, none⟩, m) else pure (some ⟨s, some (e + 1)⟩, cut e m)

/-- `strtok` on a null pointer, which goes on where the last call stopped. -/
def strtokNull (d : Char) (last : Option Nat) (m : Bytes n) : C (Option Token × Bytes n) :=
  match last with
  | none => pure (none, m)
  | some o => strtok d o m

/-- What a call of `strtok` that returns a token has done. -/
structure Tokenized (d : Char) (o : Nat) (m : Bytes n) (tok : Token) (t : Text) (m' : Bytes n) :
    Prop where
  le_offset : o ≤ tok.offset
  /-- In front of the token there are separators. -/
  skipped : ∀ k, o ≤ k → k < tok.offset → cell m k = some d
  /-- The token is a string of its own. -/
  holds : Holds m' tok.offset t
  frame : ∀ k < tok.offset, cell m' k = cell m k
  /-- The next call goes on behind the NUL that ends it. -/
  last : ∀ k ∈ tok.last, k = tok.offset + t.length + 1

theorem Holds.cons {m : Bytes n} {o : Nat} {c : Char} {t : Text} (hcell : cell m o = some c)
    (h : Holds m (o + 1) t) : Holds m o (c :: t) := by
  refine ⟨by have := h.1; rw [List.length_cons]; omega, fun i hi => ?_⟩
  cases i with
  | zero => exact hcell
  | succ i =>
    rw [List.length_cons] at hi
    rw [List.getElem?_cons_succ, ← h.2 i (by omega), Nat.add_assoc, Nat.add_comm 1 i]

/-- An array with a NUL in it holds the string in front of that. -/
theorem exists_holds {m : Bytes n} {o e : Nat} (hoe : o ≤ e) (he : e < n)
    (hcell : ∀ j, o ≤ j → j < e → cell m j ≠ none) (hend : cell m e = none) :
    ∃ t : Text, Holds m o t ∧ o + t.length = e := by
  induction h : e - o generalizing o with
  | zero =>
    obtain rfl : o = e := by omega
    refine ⟨[], ⟨he, fun i hi => ?_⟩, rfl⟩
    obtain rfl := Nat.le_zero.1 hi
    exact hend
  | succ k ih =>
    obtain ⟨c, hc⟩ := Option.ne_none_iff_exists'.1 (hcell o le_rfl (by omega))
    obtain ⟨t, ht, hlen⟩ := ih (o := o + 1) (by omega) (fun j hj => hcell j (by omega)) (by omega)
    exact ⟨c :: t, ht.cons hc, by rw [List.length_cons]; omega⟩

/-- A string at an offset is the only one there. -/
theorem Holds.unique {m : Bytes n} {o : Nat} {s t : Text} (hs : Holds m o s) (ht : Holds m o t) :
    s = t :=
  Except.ok.inj ((read_of_holds hs).symm.trans (read_of_holds ht))

/-- **What `strtok` leaves behind**, whatever is in the array. -/
theorem exists_tokenized {d : Char} {m m' : Bytes n} {o : Nat} {tok : Token}
    (h : strtok d o m = .ok (some tok, m')) : ∃ t, Tokenized d o m tok t m' := by
  obtain ⟨s, hs, h⟩ := bind_eq_ok.1 h
  obtain ⟨hos, hsn, -, hskip⟩ := search_eq_ok.1 hs
  have hskipped : ∀ k, o ≤ k → k < s → cell m k = some d := fun k hk hlt => by
    simpa using hskip k hk hlt
  by_cases hnone : cell m s = none
  · rw [if_pos hnone] at h
    exact absurd (congrArg Prod.fst (pure_eq_ok.1 h)) (Option.some_ne_none tok)
  rw [if_neg hnone] at h
  obtain ⟨e, he, h⟩ := bind_eq_ok.1 h
  obtain ⟨hse, hen, hend, hbefore⟩ := search_eq_ok.1 he
  have hplain : ∀ j, s ≤ j → j < e → cell m j ≠ none := fun j hj hlt heq => by
    have := hbefore j hj hlt
    simp [heq] at this
  by_cases hlast : cell m e = none
  · rw [if_pos hlast] at h
    obtain ⟨htok, rfl⟩ := Prod.mk.inj (pure_eq_ok.1 h)
    obtain rfl := Option.some.inj htok
    obtain ⟨t, ht, hlen⟩ := exists_holds hse hen hplain hlast
    exact ⟨t, hos, hskipped, ht, fun k _ => rfl, fun k hk => absurd hk.symm (Option.some_ne_none k)⟩
  · rw [if_neg hlast] at h
    obtain ⟨htok, rfl⟩ := Prod.mk.inj (pure_eq_ok.1 h)
    obtain rfl := Option.some.inj htok
    have hcut : ∀ j < e, cell (cut e m) j = cell m j := fun j hj => by
      rw [cell_cut, if_neg (by omega)]
    obtain ⟨t, ht, hlen⟩ := exists_holds (m := cut e m) hse hen
      (fun j hj hlt => by rw [hcut j hlt]; exact hplain j hj hlt) (by rw [cell_cut, if_pos rfl])
    refine ⟨t, hos, hskipped, ht, fun k hk => hcut k (Nat.lt_of_lt_of_le hk hse), fun k hk => ?_⟩
    rw [← Option.some.inj hk, hlen]

/-- The rest of a string that `strtok` has begun. -/
def Rest (m : Bytes n) (last : Option Nat) (s : Text) : Prop :=
  match last with
  | none => s = []
  | some o => Holds m o s

/-- A separator in front is skipped. -/
theorem strtok_of_cell {d : Char} {m : Bytes n} {o : Nat} (ho : o < n) (h : cell m o = some d) :
    strtok d o m = strtok d (o + 1) m := by
  have hsearch : search (· != some d) m o = search (· != some d) m (o + 1) := by
    have hleft : n - o = n - (o + 1) + 1 := by omega
    rw [search, hleft, find, if_neg (by simp [h]), search]
  rw [strtok, strtok, hsearch]

/-- **On an array that holds a string `strtok` takes it apart as the text is taken apart.** -/
theorem strtok_of_holds {d : Char} {m : Bytes n} {o : Nat} {s : Text} (h : Holds m o s) :
    (CFile.strtok d s = none → strtok d o m = .ok (none, m)) ∧
      ∀ t rest, CFile.strtok d s = some (t, rest) →
        ∃ tok m', strtok d o m = .ok (some tok, m') ∧ Holds m' tok.offset t ∧
          Rest m' tok.last rest := by
  induction s generalizing o with
  | nil =>
    have hend : cell m o = none := h.cell_end
    have hsearch : search (· != some d) m o = .ok o :=
      search_eq_ok.2 ⟨le_rfl, h.1, by rw [hend]; rfl, fun j hj hlt => by omega⟩
    refine ⟨fun _ => ?_, fun t rest ht => by simp at ht⟩
    rw [strtok, hsearch, ok_bind, if_pos hend]
    rfl
  | cons c s ih =>
    have ho : o < n := by have := h.1; omega
    have hcell : cell m o = some c := h.2 0 (Nat.zero_le _)
    have hrest : Holds m (o + 1) s := Holds.drop (s := [c]) h
    by_cases hc : c = d
    · subst hc
      rw [CFile.strtok_cons_self, strtok_of_cell ho hcell]
      exact ih hrest
    · have hsearch : search (· != some d) m o = .ok o :=
        search_eq_ok.2 ⟨le_rfl, ho, by simpa [hcell] using hc, fun j hj hlt => by omega⟩
      obtain ⟨hend, hcellend⟩ := search_of_holds d h
      rw [CFile.strtok_of_ne hc]
      refine ⟨fun hnone => absurd hnone (Option.some_ne_none _), fun t rest ht => ?_⟩
      obtain ⟨rfl, rfl⟩ := Prod.mk.inj (Option.some.inj ht)
      rw [strtok, hsearch, ok_bind, if_neg (hcell ▸ Option.some_ne_none c), hend, ok_bind, hcellend]
      by_cases hd : d ∈ c :: s
      · rw [if_pos hd, if_neg (Option.some_ne_none d)]
        refine ⟨_, _, rfl, h.cut_cutAt d, ?_⟩
        obtain ⟨t, u, hs, ht⟩ := List.eq_append_cons_of_mem hd
        rw [hs] at h
        have hbehind := Holds.drop (s := t ++ [d]) (t := u) (by simpa using h)
        rw [List.length_append, List.length_singleton] at hbehind
        rw [hs, CFile.cutAt_append_cons, CFile.cutAt_of_notMem ht, CFile.dropWhile_append_cons ht]
        exact hbehind.cut_apart (Or.inl (by omega))
      · rw [if_neg hd, if_pos rfl]
        refine ⟨_, _, rfl, (CFile.cutAt_of_notMem hd).symm ▸ h, ?_⟩
        have hlast := CFile.strtok_of_notMem (List.cons_ne_nil c s) hd
        rw [CFile.strtok_of_ne hc] at hlast
        exact congrArg Prod.snd (Option.some.inj hlast)

end Cells
