import Furikup.Lib.CText

/-!
# Reading a file line by line, and taking a line apart with `strtok`

A C program that reads a text file calls `fgets` into a fixed array, and what it then calls a line
is what one call returned.  That is the line of the file only where the line fits: a longer one
arrives in several pieces, and each piece looks like a line of its own.

* `fgets` — one read, and `reads` — all reads of a loop `while (fgets(…))`.
* `pieces` — a line in pieces of a given length.  `reads_append_line` and `reads_of_notMem` say
  that a file is read as the pieces of its lines, and `reads_fileText` says it for a file that is
  given as a list of lines.
* `cutAt` — end a string at the first occurrence of a character, as `strchr` and `*c = 0` do.  A
  string is read up to its first NUL, which is `cstr`.
* `Ending` and `stripEnd` — the ends a line can have, and how they are taken off.
* `strtok` — the next token, and what is left for the call after it.
-/

set_option autoImplicit false

namespace CFile

open CText

/-! ## Ending a string early -/

/-- The string in front of the first occurrence of a character. -/
def cutAt (c : Char) (t : Text) : Text :=
  t.takeWhile (· != c)

/-- What a `char *` points at, as a string. -/
def cstr (t : Text) : Text :=
  cutAt '\x00' t

theorem cutAt_of_notMem {c : Char} {t : Text} (h : c ∉ t) : cutAt c t = t := by
  refine List.takeWhile_eq_self_iff.2 fun d hd => ?_
  simpa using fun hdc : d = c => h (hdc ▸ hd)

theorem notMem_cutAt (c : Char) (t : Text) : c ∉ cutAt c t := by
  intro h
  simpa using List.mem_takeWhile_imp h

theorem cutAt_prefix_self (c : Char) (t : Text) : cutAt c t <+: t :=
  List.takeWhile_prefix _

theorem mem_of_mem_cutAt {c d : Char} {t : Text} (h : d ∈ cutAt c t) : d ∈ t :=
  (cutAt_prefix_self c t).subset h

theorem length_cutAt_le (c : Char) (t : Text) : (cutAt c t).length ≤ t.length :=
  (cutAt_prefix_self c t).length_le

/-- What comes behind the character does not matter. -/
theorem cutAt_append_cons (c : Char) (t u : Text) : cutAt c (t ++ c :: u) = cutAt c t := by
  induction t with
  | nil => simp [cutAt]
  | cons d t ih =>
    by_cases hd : d = c
    · simp [cutAt, hd]
    · simpa [cutAt, List.takeWhile_cons, hd] using ih

theorem cutAt_append_of_mem {c : Char} {t : Text} (h : c ∈ t) (u : Text) :
    cutAt c (t ++ u) = cutAt c t := by
  obtain ⟨s, v, rfl, -⟩ := List.eq_append_cons_of_mem h
  rw [List.append_assoc, List.cons_append, cutAt_append_cons, cutAt_append_cons]

theorem cutAt_append_of_notMem {c : Char} {t : Text} (h : c ∉ t) (u : Text) :
    cutAt c (t ++ u) = t ++ cutAt c u := by
  induction t with
  | nil => rfl
  | cons d t ih =>
    have hd : d ≠ c := by rintro rfl; exact h List.mem_cons_self
    have := ih fun hc => h (List.mem_cons_of_mem d hc)
    simpa [cutAt, List.takeWhile_cons, hd] using this

/-! ## Trailing spaces -/

/-- Only where all of a string goes does its first character go. -/
theorem rdropWhile_cons {p : Char → Bool} {c : Char} {t : Text} (h : ∃ d ∈ c :: t, p d = false) :
    (c :: t).rdropWhile p = c :: t.rdropWhile p := by
  induction t using List.reverseRecOn with
  | nil =>
    obtain ⟨d, hd, hp⟩ := h
    rw [List.mem_singleton] at hd
    rw [List.rdropWhile_singleton, ← hd, hp, List.rdropWhile_nil, if_neg Bool.false_ne_true]
  | append_singleton t d ih =>
    rw [← List.cons_append, List.rdropWhile_concat, List.rdropWhile_concat]
    by_cases hd : p d = true
    · rw [if_pos hd, if_pos hd]
      refine ih ?_
      obtain ⟨x, hx, hp⟩ := h
      rw [← List.cons_append, List.mem_append, List.mem_singleton] at hx
      rcases hx with hx | rfl
      · exact ⟨x, hx, hp⟩
      · exact absurd hd (by simp [hp])
    · rw [if_neg hd, if_neg hd, List.cons_append]

/-- A character that stays is inside what is left. -/
theorem lt_length_rdropWhile {p : Char → Bool} {t : Text} {i : Nat} {c : Char}
    (hi : t[i]? = some c) (hc : p c = false) : i < (t.rdropWhile p).length := by
  by_contra hlt
  have happ : t.rdropWhile p ++ t.rtakeWhile p = t := List.rdropWhile_append_rtakeWhile
  rw [← happ, List.getElem?_append_right (by omega)] at hi
  have := List.mem_rtakeWhile_imp (List.mem_of_getElem? hi)
  rw [hc] at this
  exact Bool.false_ne_true this

theorem mem_rdropWhile_of_mem {p : Char → Bool} {t : Text} {c : Char} (h : c ∈ t)
    (hc : p c = false) : c ∈ t.rdropWhile p := by
  have happ : t.rdropWhile p ++ t.rtakeWhile p = t := List.rdropWhile_append_rtakeWhile
  rw [← happ, List.mem_append] at h
  refine h.resolve_right fun h => ?_
  have := List.mem_rtakeWhile_imp h
  rw [hc] at this
  exact Bool.false_ne_true this

/-! ## Reading with `fgets` -/

/-- Read at most `n` characters, and no further than the end of the line; the rest of the file
comes second. -/
def fgets : Nat → Text → Text × Text
  | 0, t => ([], t)
  | _ + 1, [] => ([], [])
  | n + 1, c :: t =>
    if c = '\n' then ([c], t) else (c :: (fgets n t).1, (fgets n t).2)

theorem fgets_append (n : Nat) (t : Text) : (fgets n t).1 ++ (fgets n t).2 = t := by
  induction n generalizing t with
  | zero => rfl
  | succ n ih =>
    cases t with
    | nil => rfl
    | cons c t =>
      rw [fgets]
      split
      · rfl
      · exact congrArg (c :: ·) (ih t)

theorem fgets_ne_nil {n : Nat} (hn : 0 < n) {t : Text} (ht : t ≠ []) : (fgets n t).1 ≠ [] := by
  obtain ⟨c, t, rfl⟩ := List.exists_cons_of_ne_nil ht
  obtain ⟨n, rfl⟩ := Nat.exists_eq_succ_of_ne_zero hn.ne'
  rw [fgets]
  split <;> simp

theorem length_fgets_le (n : Nat) (t : Text) : (fgets n t).1.length ≤ n := by
  induction n generalizing t with
  | zero => rfl
  | succ n ih =>
    cases t with
    | nil => exact Nat.zero_le _
    | cons c t =>
      rw [fgets]
      split
      · exact Nat.succ_le_succ (Nat.zero_le n)
      · exact Nat.succ_le_succ (ih t)

theorem length_fgets_snd_lt {n : Nat} (hn : 0 < n) {t : Text} (ht : t ≠ []) :
    (fgets n t).2.length < t.length := by
  have hlen := congrArg List.length (fgets_append n t)
  have hpos := List.length_pos_of_ne_nil (fgets_ne_nil hn ht)
  rw [List.length_append] at hlen
  omega

/-- The reads of `while (fgets(buffer, n + 1, fd))` from an open file. -/
def reads (n : Nat) (t : Text) : List Text :=
  if _h : 0 < n ∧ t ≠ [] then (fgets n t).1 :: reads n (fgets n t).2 else []
termination_by t.length
decreasing_by exact length_fgets_snd_lt _h.1 _h.2

@[simp] theorem reads_nil (n : Nat) : reads n [] = [] := by
  rw [reads, dif_neg fun h => h.2 rfl]

theorem reads_of_ne_nil {n : Nat} (hn : 0 < n) {t : Text} (ht : t ≠ []) :
    reads n t = (fgets n t).1 :: reads n (fgets n t).2 := by
  rw [reads, dif_pos ⟨hn, ht⟩]

/-- Each read fits the array it is made into. -/
theorem length_le_of_mem_reads {n : Nat} {t r : Text} (h : r ∈ reads n t) : r.length ≤ n := by
  fun_induction reads n t with
  | case1 t _ ih =>
    rcases List.mem_cons.1 h with rfl | h
    · exact length_fgets_le n t
    · exact ih h
  | case2 => exact absurd h List.not_mem_nil

/-! ## The pieces of a line -/

/-- A line in pieces of `n` characters, the last one as long as it comes out. -/
def pieces (n : Nat) (l : Text) : List Text :=
  if _h : 0 < n ∧ l ≠ [] then l.take n :: pieces n (l.drop n) else []
termination_by l.length
decreasing_by
  have := List.length_pos_of_ne_nil _h.2
  rw [List.length_drop]
  omega

@[simp] theorem pieces_nil (n : Nat) : pieces n [] = [] := by
  rw [pieces, dif_neg fun h => h.2 rfl]

theorem pieces_of_ne_nil {n : Nat} (hn : 0 < n) {l : Text} (hl : l ≠ []) :
    pieces n l = l.take n :: pieces n (l.drop n) := by
  rw [pieces, dif_pos ⟨hn, hl⟩]

/-- A line that fits is one piece. -/
theorem pieces_of_length_le {n : Nat} {l : Text} (hl : l ≠ []) (h : l.length ≤ n) :
    pieces n l = [l] := by
  have hn : 0 < n := (List.length_pos_of_ne_nil hl).trans_le h
  rw [pieces_of_ne_nil hn hl, List.take_of_length_le h, List.drop_eq_nil_of_le h, pieces_nil]

/-- All pieces start with a character if it stands at every place where a piece starts. -/
theorem forall_pieces_head_iff {n : Nat} (hn : 0 < n) {l : Text} {c : Char} :
    (∀ p ∈ pieces n l, p.head? = some c) ↔ ∀ i, n ∣ i → i < l.length → l[i]? = some c := by
  fun_induction pieces n l with
  | case1 l h ih =>
    rw [List.forall_mem_cons, ih, List.head?_take, if_neg hn.ne', List.head?_eq_getElem?]
    refine ⟨?_, fun hall => ⟨?_, fun i hi hlt => ?_⟩⟩
    · rintro ⟨hhead, htail⟩ i hi hlt
      rcases Nat.eq_zero_or_pos i with rfl | hpos
      · exact hhead
      · have hni := Nat.le_of_dvd hpos hi
        have := htail (i - n) (Nat.dvd_sub hi (dvd_refl n)) (by rw [List.length_drop]; omega)
        rwa [List.getElem?_drop, Nat.add_sub_cancel' hni] at this
    · exact hall 0 (dvd_zero n) (List.length_pos_of_ne_nil h.2)
    · rw [List.length_drop] at hlt
      rw [List.getElem?_drop]
      exact hall (n + i) (Nat.dvd_add (dvd_refl n) hi) (by omega)
  | case2 l h =>
    have hl : l = [] := by
      by_contra hl
      exact h ⟨hn, hl⟩
    simp [hl]

theorem fgets_of_notMem {n : Nat} {l : Text} (hl : '\n' ∉ l) :
    fgets n l = (l.take n, l.drop n) := by
  induction n generalizing l with
  | zero => rfl
  | succ n ih =>
    cases l with
    | nil => rfl
    | cons c l =>
      have hc : c ≠ '\n' := by rintro rfl; exact hl List.mem_cons_self
      rw [fgets, if_neg hc, ih fun h => hl (List.mem_cons_of_mem c h), List.take_succ_cons,
        List.drop_succ_cons]

/-- Inside a line `fgets` takes as much as it may, whatever comes behind the line. -/
theorem fgets_append_line {n : Nat} {l : Text} (hl : '\n' ∉ l) (t : Text) :
    fgets n (l ++ '\n' :: t) = ((l ++ ['\n']).take n, (l ++ ['\n']).drop n ++ t) := by
  induction n generalizing l with
  | zero => simp [fgets]
  | succ n ih =>
    cases l with
    | nil => simp [fgets]
    | cons c l =>
      have hc : c ≠ '\n' := by rintro rfl; exact hl List.mem_cons_self
      rw [List.cons_append, fgets, if_neg hc, ih fun h => hl (List.mem_cons_of_mem c h)]
      rfl

/-- A file that is one line without a line end. -/
theorem reads_of_notMem {n : Nat} {l : Text} (hl : '\n' ∉ l) : reads n l = pieces n l := by
  fun_induction pieces n l with
  | case1 l h ih =>
    rw [reads_of_ne_nil h.1 h.2, fgets_of_notMem hl, ih fun hm => hl (List.drop_subset n l hm)]
  | case2 l h => rw [reads, dif_neg h]

/-- **A line of a file is read as its pieces.** -/
theorem reads_append_line {n : Nat} (hn : 0 < n) {l : Text} (hl : '\n' ∉ l) (t : Text) :
    reads n (l ++ '\n' :: t) = pieces n (l ++ ['\n']) ++ reads n t := by
  induction hlen : l.length using Nat.strong_induction_on generalizing l with
  | _ k ih =>
    rw [reads_of_ne_nil hn (by simp), pieces_of_ne_nil hn (by simp), fgets_append_line hl]
    by_cases hle : n ≤ l.length
    · have hlt : (l.drop n).length < k := by rw [List.length_drop]; omega
      have hrec := ih _ hlt (fun hm => hl (List.drop_subset n l hm)) rfl
      rw [List.drop_append_of_le_length hle, List.append_assoc, List.cons_append, List.nil_append,
        hrec, List.cons_append]
    · rw [List.drop_eq_nil_of_le (by simp; omega), pieces_nil, List.nil_append, List.cons_append,
        List.nil_append]

/-! ## A file given as its lines -/

/-- If no line gives less than it should, then a file gives what it should only if each line
does. -/
theorem flatMap_eq_iff {α β : Type} {f g : α → List β} {ls : List α}
    (hle : ∀ l ∈ ls, (g l).length ≤ (f l).length) :
    ls.flatMap f = ls.flatMap g ↔ ∀ l ∈ ls, f l = g l := by
  induction ls with
  | nil => simp
  | cons l ls ih =>
    have hle' : ∀ m ∈ ls, (g m).length ≤ (f m).length := fun m hm =>
      hle m (List.mem_cons_of_mem l hm)
    have hsum : (ls.flatMap g).length ≤ (ls.flatMap f).length := by
      rw [List.length_flatMap, List.length_flatMap]
      exact List.sum_le_sum hle'
    rw [List.flatMap_cons, List.flatMap_cons, List.forall_mem_cons, ← ih hle']
    refine ⟨fun h => ?_, fun h => by rw [h.1, h.2]⟩
    have hlen := congrArg List.length h
    have hl := hle l List.mem_cons_self
    rw [List.length_append, List.length_append] at hlen
    exact List.append_inj h (by omega)

/-- How a line of a file ends. -/
inductive Ending
  /-- The file ends here. -/
  | missing
  | lf
  | crlf
  deriving DecidableEq, Repr

def Ending.text : Ending → Text
  | .missing => []
  | .lf => ['\n']
  | .crlf => ['\r', '\n']

theorem Ending.text_eq_nil_iff {e : Ending} : e.text = [] ↔ e = .missing := by
  cases e with
  | missing => exact iff_of_true rfl rfl
  | lf | crlf => exact iff_of_false (List.cons_ne_nil _ _) Ending.noConfusion

/-- There is nothing but the line end in a line end. -/
theorem notMem_ending {c : Char} (hcr : c ≠ '\r') (hlf : c ≠ '\n') (e : Ending) : c ∉ e.text := by
  cases e with
  | missing => exact List.not_mem_nil
  | lf => simpa [Ending.text] using hlf
  | crlf => simpa [Ending.text] using ⟨hcr, hlf⟩

theorem nul_notMem_ending (e : Ending) : '\x00' ∉ e.text :=
  notMem_ending (by decide) (by decide) e

/-- A line as it stands in the file. -/
def lineText (l : Text × Ending) : Text :=
  l.1 ++ l.2.text

def fileText (ls : List (Text × Ending)) : Text :=
  ls.flatMap lineText

/-- Only the last line of a file may be without a line end. -/
def Terminated {α : Type} (ls : List (α × Ending)) : Prop :=
  ∀ l ∈ ls.dropLast, l.2 ≠ .missing

theorem Terminated.tail {α : Type} {l : α × Ending} {ls : List (α × Ending)}
    (h : Terminated (l :: ls)) : Terminated ls := by
  intro m hm
  cases ls with
  | nil => exact absurd hm List.not_mem_nil
  | cons k ls => exact h m (List.mem_cons_of_mem l hm)

theorem Terminated.head {α : Type} {l : α × Ending} {ls : List (α × Ending)}
    (h : Terminated (l :: ls)) (hls : ls ≠ []) : l.2 ≠ .missing := by
  obtain ⟨k, ls, rfl⟩ := List.exists_cons_of_ne_nil hls
  exact h l List.mem_cons_self

theorem Terminated.map {α β : Type} {ls : List (α × Ending)} (h : Terminated ls) (f : α → β) :
    Terminated (ls.map fun l => (f l.1, l.2)) := by
  intro l hl
  rw [← List.map_dropLast] at hl
  obtain ⟨m, hm, rfl⟩ := List.mem_map.1 hl
  exact h m hm

/-- A line with a line end is the line up to the line feed, and the line feed. -/
theorem lineText_eq_append_lf {l : Text × Ending} (hl : '\n' ∉ l.1) (he : l.2 ≠ .missing) :
    ∃ t, '\n' ∉ t ∧ lineText l = t ++ ['\n'] := by
  obtain ⟨t, e⟩ := l
  cases e with
  | missing => exact absurd rfl he
  | lf => exact ⟨t, hl, rfl⟩
  | crlf => exact ⟨t ++ ['\r'], by simpa using hl, by simp [lineText, Ending.text]⟩

/-- **The reads of a file are the pieces of its lines.** -/
theorem reads_fileText {n : Nat} (hn : 0 < n) {ls : List (Text × Ending)} (hls : Terminated ls)
    (hnl : ∀ l ∈ ls, '\n' ∉ l.1) :
    reads n (fileText ls) = ls.flatMap fun l => pieces n (lineText l) := by
  induction ls with
  | nil => rw [fileText, List.flatMap_nil, reads_nil, List.flatMap_nil]
  | cons l ls ih =>
    have hl := hnl l List.mem_cons_self
    have hrec := ih hls.tail fun m hm => hnl m (List.mem_cons_of_mem l hm)
    rw [fileText, List.flatMap_cons, List.flatMap_cons, ← fileText, ← hrec]
    by_cases he : l.2 = .missing
    · -- a line without an end is the last one
      have hnil : ls = [] := by
        by_contra h
        exact hls.head h he
      have htext : lineText l = l.1 := by rw [lineText, he, Ending.text, List.append_nil]
      rw [hnil, fileText, List.flatMap_nil, reads_nil, List.append_nil, List.append_nil, htext,
        reads_of_notMem hl]
    · obtain ⟨t, ht, htext⟩ := lineText_eq_append_lf hl he
      rw [htext, List.append_assoc, List.cons_append, List.nil_append, reads_append_line hn ht]

/-- Lines of any kind are read as the pieces of what they spell. -/
theorem reads_lines {α : Type} (content : α → Text) {n : Nat} (hn : 0 < n)
    {ls : List (α × Ending)} (hls : Terminated ls) (hnl : ∀ l ∈ ls, '\n' ∉ content l.1) :
    reads n (ls.flatMap fun l => lineText (content l.1, l.2)) =
      ls.flatMap fun l => pieces n (lineText (content l.1, l.2)) := by
  have hreads := reads_fileText hn (hls.map content) fun l hl => by
    obtain ⟨m, hm, rfl⟩ := List.mem_map.1 hl
    exact hnl m hm
  rwa [fileText, List.flatMap_map, List.flatMap_map] at hreads

/-- Lines that fit are read in one go; an empty one at the end of the file is not read at all. -/
theorem flatMap_pieces {n : Nat} {ls : List Text} (h : ∀ l ∈ ls, l.length ≤ n) :
    ls.flatMap (pieces n) = ls.filter (· ≠ []) := by
  induction ls with
  | nil => rfl
  | cons l ls ih =>
    rw [List.flatMap_cons, ih fun m hm => h m (List.mem_cons_of_mem l hm)]
    by_cases hl : l = []
    · rw [hl, pieces_nil, List.nil_append, List.filter_cons_of_neg (by simp)]
    · rw [pieces_of_length_le hl (h l List.mem_cons_self),
        List.filter_cons_of_pos (by simpa using hl)]
      rfl

/-! ## Stripping off the line end -/

/-- Cut a string at its line end, with `strchr` for either of the two characters. -/
def stripEnd (t : Text) : Text :=
  cutAt '\n' (cutAt '\r' t)

theorem length_stripEnd_le (t : Text) : (stripEnd t).length ≤ t.length :=
  (length_cutAt_le _ _).trans (length_cutAt_le _ _)

theorem mem_of_mem_stripEnd {t : Text} {c : Char} (h : c ∈ stripEnd t) : c ∈ t :=
  mem_of_mem_cutAt (mem_of_mem_cutAt h)

theorem cr_notMem_stripEnd (t : Text) : '\r' ∉ stripEnd t :=
  fun h => notMem_cutAt '\r' t (mem_of_mem_cutAt h)

theorem stripEnd_of_notMem {t : Text} (hcr : '\r' ∉ t) (hlf : '\n' ∉ t) : stripEnd t = t := by
  rw [stripEnd, cutAt_of_notMem hcr, cutAt_of_notMem hlf]

/-- A line end behind a string without one is what is stripped off. -/
theorem stripEnd_append_ending {t : Text} (hcr : '\r' ∉ t) (hlf : '\n' ∉ t) (e : Ending) :
    stripEnd (t ++ e.text) = t := by
  rw [stripEnd, cutAt_append_of_notMem hcr]
  cases e with
  | missing =>
    have hcut : cutAt '\r' (Ending.text .missing) = [] := by decide
    rw [hcut, List.append_nil, cutAt_of_notMem hlf]
  | lf =>
    have hcut : cutAt '\r' (Ending.text .lf) = ['\n'] := by decide
    rw [hcut, cutAt_append_cons, cutAt_of_notMem hlf]
  | crlf =>
    have hcut : cutAt '\r' (Ending.text .crlf) = [] := by decide
    rw [hcut, List.append_nil, cutAt_of_notMem hlf]

/-- With a line end in it or not, what is left is no longer than the string. -/
theorem length_stripEnd_append_ending_le {t : Text} (hlf : '\n' ∉ t) (e : Ending) :
    (stripEnd (t ++ e.text)).length ≤ t.length := by
  by_cases hcr : '\r' ∈ t
  · rw [stripEnd, cutAt_append_of_mem hcr]
    exact length_stripEnd_le t
  · rw [stripEnd_append_ending hcr hlf]

/-! ## `strtok` -/

/-- The next token of a string and what the next call goes on with, if there is a token. -/
def strtok (d : Char) (s : Text) : Option (Text × Text) :=
  match s.dropWhile (· == d) with
  | [] => none
  | c :: t => some (cutAt d (c :: t), ((c :: t).dropWhile (· != d)).tail)

@[simp] theorem strtok_nil (d : Char) : strtok d [] = none := rfl

/-- Separators in front of a token are skipped. -/
@[simp] theorem strtok_cons_self (d : Char) (s : Text) : strtok d (d :: s) = strtok d s := by
  simp [strtok]

theorem strtok_of_ne {d c : Char} (hc : c ≠ d) (s : Text) :
    strtok d (c :: s) = some (cutAt d (c :: s), ((c :: s).dropWhile (· != d)).tail) := by
  simp [strtok, hc]

/-- The last token. -/
theorem strtok_of_notMem {d : Char} {t : Text} (ht : t ≠ []) (hd : d ∉ t) :
    strtok d t = some (t, []) := by
  obtain ⟨c, t, rfl⟩ := List.exists_cons_of_ne_nil ht
  have hdrop : (c :: t).dropWhile (· != d) = [] :=
    List.dropWhile_eq_nil_iff.2 fun x hx => by
      simpa using fun hxd : x = d => hd (hxd ▸ hx)
  have hc : c ≠ d := by rintro rfl; exact hd List.mem_cons_self
  rw [strtok_of_ne hc, cutAt_of_notMem hd, hdrop, List.tail_nil]

theorem dropWhile_append_cons {d : Char} {t : Text} (hd : d ∉ t) (s : Text) :
    (t ++ d :: s).dropWhile (· != d) = d :: s := by
  rw [List.dropWhile_append_of_pos, List.dropWhile_cons_of_neg (by simp)]
  intro x hx
  simpa using fun hxd : x = d => hd (hxd ▸ hx)

/-- A token ends at the first separator, which is skipped. -/
theorem strtok_append_cons {d : Char} {t : Text} (ht : t ≠ []) (hd : d ∉ t) (s : Text) :
    strtok d (t ++ d :: s) = some (t, s) := by
  have hcut := cutAt_append_cons d t s
  have hdrop := dropWhile_append_cons hd s
  rw [cutAt_of_notMem hd] at hcut
  obtain ⟨c, t, rfl⟩ := List.exists_cons_of_ne_nil ht
  have hc : c ≠ d := by rintro rfl; exact hd List.mem_cons_self
  rw [List.cons_append] at hcut hdrop ⊢
  rw [strtok_of_ne hc, hcut, hdrop, List.tail_cons]

theorem strtok_eq_none_iff {d : Char} {s : Text} : strtok d s = none ↔ ∀ c ∈ s, c = d := by
  induction s with
  | nil => simp
  | cons c s ih =>
    rw [List.forall_mem_cons]
    by_cases hc : c = d
    · rw [hc, strtok_cons_self, ih]
      exact ⟨fun h => ⟨rfl, h⟩, fun h => h.2⟩
    · rw [strtok_of_ne hc]
      exact iff_of_false (Option.some_ne_none _) fun h => hc h.1

theorem strtok_append_of_none {d : Char} {s : Text} (h : strtok d s = none) (u : Text) :
    strtok d (s ++ u) = strtok d u := by
  induction s with
  | nil => rfl
  | cons c s ih =>
    obtain ⟨rfl, hs⟩ := List.forall_mem_cons.1 (strtok_eq_none_iff.1 h)
    rw [List.cons_append, strtok_cons_self, ih (strtok_eq_none_iff.2 hs)]

/-- What comes behind a string without a separator of its own belongs to the last token. -/
theorem strtok_append_of_some {d : Char} {s t rest u : Text} (h : strtok d s = some (t, rest))
    (hu : d ∉ u) :
    strtok d (s ++ u) = some (t, rest ++ u) ∨ strtok d (s ++ u) = some (t ++ u, []) := by
  induction s with
  | nil => simp at h
  | cons c s ih =>
    by_cases hc : c = d
    · rw [hc, strtok_cons_self] at h
      rw [hc, List.cons_append, strtok_cons_self]
      exact ih h
    · by_cases hd : d ∈ c :: s
      · obtain ⟨t', rest', hs, hdt⟩ := List.eq_append_cons_of_mem hd
        have ht' : t' ≠ [] := by
          rintro rfl
          exact hc (List.cons.inj hs).1
        rw [hs, strtok_append_cons ht' hdt, Option.some.injEq, Prod.mk.injEq] at h
        rw [hs, List.append_assoc, List.cons_append, strtok_append_cons ht' hdt, h.1, h.2]
        exact Or.inl rfl
      · rw [strtok_of_notMem (List.cons_ne_nil c s) hd, Option.some.injEq, Prod.mk.injEq] at h
        rw [strtok_of_notMem (by simp) (by simp only [List.mem_append]; tauto), h.1]
        exact Or.inr rfl

/-- A token and what is left behind its separator are no longer than the string. -/
theorem length_strtok_le {d : Char} {s t rest : Text} (h : strtok d s = some (t, rest)) :
    t.length + rest.length ≤ s.length ∧ (rest ≠ [] → t.length + 1 + rest.length ≤ s.length) := by
  induction s with
  | nil => simp at h
  | cons c s ih =>
    by_cases hc : c = d
    · rw [hc, strtok_cons_self] at h
      have := ih h
      simp only [List.length_cons]
      omega
    · by_cases hd : d ∈ c :: s
      · obtain ⟨u, v, hs, hdu⟩ := List.eq_append_cons_of_mem hd
        have hu : u ≠ [] := by
          rintro rfl
          exact hc (List.cons.inj hs).1
        rw [hs, strtok_append_cons hu hdu, Option.some.injEq, Prod.mk.injEq] at h
        rw [hs, ← h.1, ← h.2, List.length_append, List.length_cons]
        omega
      · rw [strtok_of_notMem (by simp) hd, Option.some.injEq, Prod.mk.injEq] at h
        rw [← h.1, ← h.2]
        simp

/-- There is no separator in a token. -/
theorem notMem_of_strtok {d : Char} {s t rest : Text} (h : strtok d s = some (t, rest)) :
    d ∉ t := by
  rw [strtok] at h
  split at h
  · simp at h
  · rw [Option.some.injEq, Prod.mk.injEq] at h
    exact h.1 ▸ notMem_cutAt d _

/-- A token is part of the string. -/
theorem mem_of_mem_strtok {d c : Char} {s t rest : Text} (h : strtok d s = some (t, rest))
    (hc : c ∈ t) : c ∈ s := by
  rw [strtok] at h
  split at h
  · simp at h
  · next e u hdrop =>
    rw [Option.some.injEq, Prod.mk.injEq] at h
    rw [← h.1] at hc
    exact (List.dropWhile_suffix _).subset (hdrop ▸ mem_of_mem_cutAt hc)

theorem ne_nil_of_strtok {d : Char} {s t rest : Text} (h : strtok d s = some (t, rest)) :
    s ≠ [] := by
  rintro rfl
  simp at h

/-- All tokens of a string. -/
def tokens (d : Char) (s : Text) : List Text :=
  (s.splitOn d).filter (· ≠ [])

@[simp] theorem tokens_nil (d : Char) : tokens d [] = [] := by
  simp [tokens]

@[simp] theorem tokens_cons_self (d : Char) (s : Text) : tokens d (d :: s) = tokens d s := by
  have hsplit := List.splitOn_append_cons_self_of_not_mem (List.not_mem_nil (a := d)) s
  rw [List.nil_append] at hsplit
  rw [tokens, hsplit, List.filter_cons_of_neg (by simp), ← tokens]

theorem tokens_of_notMem {d : Char} {t : Text} (ht : t ≠ []) (hd : d ∉ t) : tokens d t = [t] := by
  rw [tokens, List.splitOn_eq_singleton hd]
  simpa using ht

theorem tokens_append_cons {d : Char} {t : Text} (ht : t ≠ []) (hd : d ∉ t) (s : Text) :
    tokens d (t ++ d :: s) = t :: tokens d s := by
  rw [tokens, List.splitOn_append_cons_self_of_not_mem hd,
    List.filter_cons_of_pos (by simpa using ht),
    ← tokens]

/-- The tokens of a string that is put together from columns. -/
theorem tokens_intercalate {d : Char} {cols : List Text} (hcols : ∀ c ∈ cols, d ∉ c)
    (hne : cols ≠ []) : tokens d ([d].intercalate cols) = cols.filter (· ≠ []) := by
  rw [tokens, List.splitOn_intercalate d hcols hne]

theorem mem_intercalate {d c : Char} {t : Text} {cols : List Text} (ht : t ∈ cols) (hc : c ∈ t) :
    c ∈ [d].intercalate cols := by
  induction cols with
  | nil => exact absurd ht List.not_mem_nil
  | cons s cols ih =>
    by_cases hnil : cols = []
    · rw [hnil, List.mem_singleton] at ht
      rwa [hnil, List.intercalate_singleton, ← ht]
    · rw [List.intercalate_cons_of_ne_nil hnil, List.mem_append, List.mem_append]
      rcases List.mem_cons.1 ht with rfl | ht
      · exact Or.inl (Or.inl hc)
      · exact Or.inr (ih ht)

theorem mem_of_mem_tokens {d c : Char} {s t : Text} (ht : t ∈ tokens d s) (hc : c ∈ t) : c ∈ s := by
  have hmem := mem_intercalate (d := d) (List.mem_of_mem_filter ht) hc
  rwa [List.intercalate_splitOn] at hmem

/-- **`strtok` goes through the tokens one by one.** -/
theorem strtok_cases (d : Char) (s : Text) :
    (strtok d s = none ∧ tokens d s = []) ∨
    ∃ t rest, strtok d s = some (t, rest) ∧ tokens d s = t :: tokens d rest := by
  induction s with
  | nil => exact Or.inl ⟨rfl, tokens_nil d⟩
  | cons c s ih =>
    by_cases hc : c = d
    · rw [hc, strtok_cons_self, tokens_cons_self]
      exact ih
    · refine Or.inr ?_
      by_cases hd : d ∈ c :: s
      · obtain ⟨t, rest, hs, hdt⟩ := List.eq_append_cons_of_mem hd
        have ht : t ≠ [] := by
          rintro rfl
          exact hc (List.cons.inj hs).1
        rw [hs]
        exact ⟨t, rest, strtok_append_cons ht hdt rest, tokens_append_cons ht hdt rest⟩
      · exact ⟨c :: s, [], strtok_of_notMem (by simp) hd, by
          rw [tokens_of_notMem (by simp) hd, tokens_nil]⟩

end CFile
