import Mathlib

/-!
# Scanning a text for keywords

A scanner tries one test at every position of a text, from the left, and stops at the first
position where it succeeds.

* `scan` — the scanner, and `FirstHit`, what it looks for: `scan_eq_some`, `scan_eq_none`.
* `Blind` — a test that sees nothing from a certain character on.  Such a character cuts a text in
  two that are scanned one after the other: `scan_append_of_head`, `scan_append_of_getLast`.
* `found` — what the scanner finds, for those who do not care where.
* `startsWith` and `keywordAt` — the test for a keyword up to a folding of characters and for a
  table of keywords, which are blind to whatever no keyword contains.
-/

set_option autoImplicit false

namespace Scan

section Scan

variable {α β : Type} {p : List α → Option β}

/-- The first position where the test succeeds: what it says, and the text from there on. -/
def scan (p : List α → Option β) : List α → Option (β × List α)
  | [] => (p []).map fun b => (b, [])
  | c :: t => ((p (c :: t)).map fun b => (b, c :: t)).or (scan p t)

/-- The test says `b` at the position where `r` is left of the text, and nothing before it. -/
structure FirstHit (p : List α → Option β) (t : List α) (b : β) (r : List α) : Prop where
  suffix : r <:+ t
  hit : p r = some b
  first : ∀ s, s <:+ t → r.length < s.length → p s = none

theorem firstHit_cons_of_some {c : α} {t : List α} {b b' : β} {r : List α}
    (hp : p (c :: t) = some b') : FirstHit p (c :: t) b r ↔ b = b' ∧ r = c :: t := by
  constructor
  · intro h
    have hr : r = c :: t := by
      rcases List.suffix_cons_iff.1 h.suffix with hr | hr
      · exact hr
      · have hlen : r.length < (c :: t).length := Nat.lt_succ_of_le hr.length_le
        exact absurd (h.first _ List.suffix_rfl hlen) (by simp [hp])
    subst hr
    exact ⟨Option.some.inj (h.hit.symm.trans hp), rfl⟩
  · rintro ⟨rfl, rfl⟩
    exact ⟨List.suffix_rfl, hp, fun s hs hlt => absurd hs.length_le (Nat.not_le.2 hlt)⟩

theorem firstHit_cons_of_none {c : α} {t : List α} {b : β} {r : List α} (hp : p (c :: t) = none) :
    FirstHit p (c :: t) b r ↔ FirstHit p t b r := by
  constructor
  · intro h
    have hr : r <:+ t := by
      rcases List.suffix_cons_iff.1 h.suffix with hr | hr
      · exact absurd (hr ▸ h.hit) (by simp [hp])
      · exact hr
    exact ⟨hr, h.hit, fun s hs => h.first s (hs.trans (List.suffix_cons c t))⟩
  · intro h
    refine ⟨h.suffix.trans (List.suffix_cons c t), h.hit, fun s hs hlt => ?_⟩
    rcases List.suffix_cons_iff.1 hs with rfl | hs
    · exact hp
    · exact h.first s hs hlt

/-- **The scanner finds the first hit.** -/
theorem scan_eq_some {t : List α} {b : β} {r : List α} :
    scan p t = some (b, r) ↔ FirstHit p t b r := by
  induction t with
  | nil =>
    rw [scan, Option.map_eq_some_iff]
    constructor
    · rintro ⟨b', hp, heq⟩
      obtain ⟨rfl, rfl⟩ := Prod.mk.inj heq
      exact ⟨List.suffix_rfl, hp, fun s hs hlt => absurd hs.length_le (Nat.not_le.2 hlt)⟩
    · intro h
      obtain rfl := List.suffix_nil.1 h.suffix
      exact ⟨b, h.hit, rfl⟩
  | cons c t ih =>
    rw [scan]
    cases hp : p (c :: t) with
    | none => rw [firstHit_cons_of_none hp, ← ih, Option.map_none, Option.none_or]
    | some b' =>
      rw [firstHit_cons_of_some hp, Option.map_some, Option.some_or, Option.some.injEq,
        Prod.mk.injEq]
      exact ⟨fun h => ⟨h.1.symm, h.2.symm⟩, fun h => ⟨h.1.symm, h.2.symm⟩⟩

/-- The scanner finds nothing where there is nothing. -/
theorem scan_eq_none {t : List α} : scan p t = none ↔ ∀ s, s <:+ t → p s = none := by
  induction t with
  | nil => simp [scan]
  | cons c t ih =>
    rw [scan, Option.or_eq_none_iff, Option.map_eq_none_iff, ih]
    constructor
    · rintro ⟨hp, ht⟩ s hs
      rcases List.suffix_cons_iff.1 hs with rfl | hs
      · exact hp
      · exact ht s hs
    · intro h
      exact ⟨h _ List.suffix_rfl, fun s hs => h s (hs.trans (List.suffix_cons c t))⟩

/-- The test sees nothing from the character `d` on, and nothing in an empty text. -/
structure Blind (p : List α → Option β) (d : α) : Prop where
  cut : ∀ u t, p (u ++ d :: t) = p u
  nil : p [] = none

/-- **A text with a blind spot** is scanned up to it, and if nothing is found there from behind
it. -/
theorem scan_append_cons {d : α} (hblind : Blind p d) (u t : List α) :
    scan p (u ++ d :: t) =
      ((scan p u).map fun hit => (hit.1, hit.2 ++ d :: t)).or (scan p t) := by
  induction u with
  | nil =>
    have hd : p (d :: t) = none := (hblind.cut [] t).trans hblind.nil
    rw [List.nil_append, scan, scan, hd, hblind.nil]
    rfl
  | cons c u ih =>
    have hc : p (c :: (u ++ d :: t)) = p (c :: u) := hblind.cut (c :: u) t
    rw [List.cons_append, scan, scan, hc, ih]
    cases p (c :: u) with
    | none => simp
    | some b => simp

theorem scan_append_of_head {d : α} (hblind : Blind p d) (u : List α) {t : List α}
    (ht : t.head? = some d) :
    scan p (u ++ t) = ((scan p u).map fun hit => (hit.1, hit.2 ++ t)).or (scan p t) := by
  obtain ⟨t, rfl⟩ := List.head?_eq_some_iff.1 ht
  have hd : scan p (d :: t) = scan p t := by
    have := scan_append_cons hblind [] t
    rwa [scan, hblind.nil, Option.map_none, Option.map_none, Option.none_or] at this
  rw [scan_append_cons hblind, hd]

theorem scan_append_of_getLast {d : α} (hblind : Blind p d) {u : List α}
    (hu : u.getLast? = some d) (t : List α) :
    scan p (u ++ t) = ((scan p u).map fun hit => (hit.1, hit.2 ++ t)).or (scan p t) := by
  obtain ⟨u, rfl⟩ := List.getLast?_eq_some_iff.1 hu
  have hnil : scan p [] = none := by rw [scan, hblind.nil, Option.map_none]
  rw [List.append_assoc, List.singleton_append, scan_append_cons hblind,
    scan_append_cons hblind u [], hnil, Option.or_none, Option.map_map]
  congr 2
  funext hit
  simp

/-- What the scanner finds, without the place. -/
def found (p : List α → Option β) (t : List α) : Option β :=
  (scan p t).map Prod.fst

theorem found_append_of_head {d : α} (hblind : Blind p d) (u : List α) {t : List α}
    (ht : t.head? = some d) : found p (u ++ t) = (found p u).or (found p t) := by
  rw [found, scan_append_of_head hblind u ht, Option.map_or, Option.map_map]
  rfl

theorem found_append_of_getLast {d : α} (hblind : Blind p d) {u : List α}
    (hu : u.getLast? = some d) (t : List α) : found p (u ++ t) = (found p u).or (found p t) := by
  rw [found, scan_append_of_getLast hblind hu t, Option.map_or, Option.map_map]
  rfl

/-- Something is found where there is a first hit. -/
theorem found_eq_some {t : List α} {b : β} : found p t = some b ↔ ∃ r, FirstHit p t b r := by
  rw [found, Option.map_eq_some_iff]
  constructor
  · rintro ⟨⟨b', r⟩, hscan, rfl⟩
    exact ⟨r, scan_eq_some.1 hscan⟩
  · rintro ⟨r, hr⟩
    exact ⟨(b, r), scan_eq_some.2 hr, rfl⟩

theorem found_eq_none {t : List α} : found p t = none ↔ ∀ s, s <:+ t → p s = none := by
  rw [found, Option.map_eq_none_iff, scan_eq_none]

end Scan

/-! ## Keywords -/

section Keywords

variable {α β : Type} [DecidableEq α]

/-- The text starts with the keyword: its first character is there as it is, the others up to the
folding. -/
def startsWith (fold : α → α) (k t : List α) : Bool :=
  t.head? == k.head? && (t.take k.length).map fold == k.map fold

/-- What the first keyword of the table that the text starts with stands for. -/
def keywordAt (fold : α → α) (table : List (List α × β)) (t : List α) : Option β :=
  (table.find? fun entry => startsWith fold entry.1 t).map Prod.snd

/-- The keyword does not contain the character, and is not empty. -/
def Avoids (fold : α → α) (d : α) (k : List α) : Prop :=
  k ≠ [] ∧ fold d ∉ k.map fold

instance (fold : α → α) (d : α) (k : List α) : Decidable (Avoids fold d k) :=
  inferInstanceAs (Decidable (_ ∧ _))

variable {fold : α → α} {d : α}

theorem startsWith_of_length_lt {k t : List α} (hlt : t.length < k.length) :
    startsWith fold k t = false := by
  rw [startsWith, Bool.and_eq_false_iff]
  right
  rw [beq_eq_false_iff_ne]
  intro h
  have hlen := congrArg List.length h
  simp only [List.length_map, List.length_take] at hlen
  omega

theorem startsWith_append_cons {k : List α} (hk : Avoids fold d k) (u t : List α) :
    startsWith fold k (u ++ d :: t) = startsWith fold k u := by
  rcases Nat.lt_or_ge u.length k.length with hlt | hle
  · -- The keyword would have to contain the character.
    rw [startsWith_of_length_lt hlt, startsWith, Bool.and_eq_false_iff]
    right
    rw [beq_eq_false_iff_ne]
    intro h
    apply hk.2
    have hd : d ∈ (u ++ d :: t).take k.length := by
      rw [List.mem_take_iff_getElem]
      exact ⟨u.length, by simp [hlt], by simp⟩
    exact h ▸ List.mem_map_of_mem hd
  · have hu : u ≠ [] := by
      rintro rfl
      exact hk.1 (List.length_eq_zero_iff.1 (Nat.le_zero.1 hle))
    rw [startsWith, startsWith, List.take_append_of_le_length hle, List.head?_append_of_ne_nil _ hu]

@[simp] theorem keywordAt_nil (t : List α) :
    keywordAt fold ([] : List (List α × β)) t = none := rfl

@[simp] theorem keywordAt_cons (k : List α) (b : β) (table : List (List α × β)) (t : List α) :
    keywordAt fold ((k, b) :: table) t =
      if startsWith fold k t then some b else keywordAt fold table t := by
  rw [keywordAt, List.find?_cons]
  cases startsWith fold k t with
  | true => rfl
  | false => rfl

theorem keywordAt_blind {table : List (List α × β)}
    (htable : ∀ entry ∈ table, Avoids fold d entry.1) : Blind (keywordAt fold table) d where
  cut u t := by
    rw [keywordAt, keywordAt]
    congr 1
    apply List.find?_congr
    intro entry hentry
    exact startsWith_append_cons (htable entry hentry) u t
  nil := by
    rw [keywordAt, Option.map_eq_none_iff, List.find?_eq_none]
    intro entry hentry
    have hlt : ([] : List α).length < entry.1.length :=
      List.length_pos_iff.2 (htable entry hentry).1
    rw [startsWith_of_length_lt hlt]
    exact Bool.false_ne_true

end Keywords

end Scan
