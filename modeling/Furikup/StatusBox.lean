import Furikup.Lib.Cells
import Furikup.Lib.Machine

/-!
# The status box

The user interface shows its messages in a box of eight lines.  `gStatusLines` is an array of eight
rows of 69, in one piece of storage, and `statusMessage` appends a row or, when there are seven,
copies every row up by one with `strcpy`.

* `StatusBox`, `showMessage` and `clearStatusBox` — the box and what is done to it.
* `StatusBox.Ends` — what holds of the box after any messages.
* `Window` — the box shows the last messages since it was cleared, each cut to its row.
* `slidingWindow_iff` — **the box is a window exactly on runs that never clear it and whose messages
  all fit**: clearing writes behind the storage, and a long message runs on into the next row.
-/

set_option autoImplicit false

namespace Furikup

open CText Cells

/-! ## The box -/

/-- `MAX_STATUS_LINES` -/
def maxStatusLines : Nat := 8

/-- The length of a row of `gStatusLines`. -/
def rowLength : Nat := 69

structure StatusBox where
  gStatusLines : Bytes (maxStatusLines * rowLength) := fun _ => none
  gNumStatusLines : Nat := 0

/-- Where a row begins. -/
def rowStart (ii : Nat) : Nat :=
  rowLength * ii

/-- `strcpy(gStatusLines[ii], gStatusLines[ii+1])` -/
def scrollRow (ii : Nat) (m : Bytes (maxStatusLines * rowLength)) :
    C (Bytes (maxStatusLines * rowLength)) := do
  let line ← read m (rowStart (ii + 1))
  strcpy (rowStart ii) line m

/-- The loop over the rows that are copied up. -/
def scrollRows : Nat → Bytes (maxStatusLines * rowLength) → C (Bytes (maxStatusLines * rowLength))
  | 0, m => pure m
  | n + 1, m => do
    let m ← scrollRows n m
    scrollRow n m

/-- What `statusMessage` does with the message it has formatted. -/
def showMessage (lmsg : Text) (box : StatusBox) : C StatusBox :=
  if box.gNumStatusLines < maxStatusLines - 1 then do
    let m ← strcpy (rowStart box.gNumStatusLines) lmsg box.gStatusLines
    pure { gStatusLines := m, gNumStatusLines := box.gNumStatusLines + 1 }
  else do
    let m ← scrollRows (box.gNumStatusLines - 1) box.gStatusLines
    let m ← strcpy (rowStart (box.gNumStatusLines - 1)) lmsg m
    pure { box with gStatusLines := m }

/-- The loop of `clearStatusBox`, which has `MAX_STATUS_LINES` where it should have `ii`. -/
def clearRows : Nat → Bytes (maxStatusLines * rowLength) → C (Bytes (maxStatusLines * rowLength))
  | 0, m => pure m
  | n + 1, m => do
    let m ← clearRows n m
    strcpy (rowStart maxStatusLines) [] m

def clearStatusBox (box : StatusBox) : C StatusBox := do
  let m ← clearRows maxStatusLines box.gStatusLines
  pure { gStatusLines := m, gNumStatusLines := 0 }

/-- The string in a row. -/
def StatusBox.line (box : StatusBox) (ii : Nat) : C Text :=
  read box.gStatusLines (rowStart ii)

/-- The calls that the rest of the user interface makes; `lmsg` is the array `statusMessage` has
formatted its message into. -/
inductive BoxCall
  | message (lmsg : Buf 256)
  | clear

def boxStep : BoxCall → StatusBox → C StatusBox
  | .message lmsg => showMessage lmsg.text
  | .clear => clearStatusBox

/-- What a message does: it is copied to the first free row, or to the last one when the others
have been copied up. -/
theorem showMessage_cases {lmsg : Text} {box box' : StatusBox}
    (h : showMessage lmsg box = .ok box') :
    ∃ ii m, box'.gNumStatusLines = ii + 1 ∧
      Cells.strcpy (rowStart ii) lmsg m = .ok box'.gStatusLines ∧
      ((box.gNumStatusLines = ii ∧ ii < maxStatusLines - 1 ∧ m = box.gStatusLines) ∨
        (box.gNumStatusLines = ii + 1 ∧ scrollRows ii box.gStatusLines = .ok m)) := by
  rw [showMessage] at h
  split at h
  · next hroom =>
    obtain ⟨m', hm', h⟩ := bind_eq_ok.1 h
    rw [pure_eq_ok.1 h]
    exact ⟨_, _, rfl, hm', Or.inl ⟨rfl, hroom, rfl⟩⟩
  · next hroom =>
    obtain ⟨num, hnum⟩ : ∃ num, box.gNumStatusLines = num + 1 :=
      Nat.exists_eq_succ_of_ne_zero fun hzero => hroom (by rw [hzero]; decide)
    obtain ⟨m, hm, h⟩ := bind_eq_ok.1 h
    obtain ⟨m', hm', h⟩ := bind_eq_ok.1 h
    rw [hnum, Nat.add_sub_cancel] at hm hm'
    rw [pure_eq_ok.1 h]
    exact ⟨num, m, hnum, hm', Or.inr ⟨hnum, hm⟩⟩

/-- The message stands in the last of the rows that are shown. -/
theorem showMessage_ok {lmsg : Text} {box box' : StatusBox}
    (h : showMessage lmsg box = .ok box') :
    ∃ ii, box'.gNumStatusLines = ii + 1 ∧ Holds box'.gStatusLines (rowStart ii) lmsg := by
  obtain ⟨ii, m, hnum, hm, -⟩ := showMessage_cases h
  exact ⟨ii, hnum, holds_strcpy hm⟩

/-! ## Rows that end where they should -/

/-- The first `n` rows hold strings that end within them. -/
def Rows (n : Nat) (f : Nat → Text) (m : Bytes (maxStatusLines * rowLength)) : Prop :=
  ∀ ii < n, (f ii).length < rowLength ∧ Holds m (rowStart ii) (f ii)

/-- A copy that stays in its row puts a string there and leaves the other rows alone. -/
theorem Rows.strcpy {n : Nat} {f : Nat → Text} {m : Bytes (maxStatusLines * rowLength)}
    (h : Rows n f m) {jj : Nat} (hjj : jj < maxStatusLines) {line : Text}
    (hline : line.length < rowLength) :
    ∃ m', Cells.strcpy (rowStart jj) line m = .ok m' ∧ Holds m' (rowStart jj) line ∧
      Rows n (Function.update f jj line) m' := by
  have hroom : rowStart jj + line.length < maxStatusLines * rowLength := by
    simp only [rowStart, rowLength, maxStatusLines] at *
    omega
  obtain ⟨m', hm'⟩ := (exists_strcpy_iff (m := m)).2 hroom
  refine ⟨m', hm', holds_strcpy hm', fun ii hii => ?_⟩
  by_cases heq : ii = jj
  · rw [heq, Function.update_self]
    exact ⟨hline, holds_strcpy hm'⟩
  · rw [Function.update_of_ne heq]
    obtain ⟨hlen, hholds⟩ := h ii hii
    refine ⟨hlen, hholds.frame hm' ?_⟩
    simp only [rowStart, rowLength] at *
    omega

theorem Rows.congr {n : Nat} {f g : Nat → Text} {m : Bytes (maxStatusLines * rowLength)}
    (h : Rows n f m) (hfg : ∀ ii < n, g ii = f ii) : Rows n g m := by
  intro ii hii
  rw [hfg ii hii]
  exact h ii hii

/-- The rows after the first `k` have been overwritten, each with the one behind it. -/
def movedUp (k : Nat) (f : Nat → Text) (ii : Nat) : Text :=
  if ii < k then f (ii + 1) else f ii

theorem movedUp_of_lt {k ii : Nat} (f : Nat → Text) (h : ii < k) : movedUp k f ii = f (ii + 1) :=
  if_pos h

theorem movedUp_of_le {k ii : Nat} (f : Nat → Text) (h : k ≤ ii) : movedUp k f ii = f ii :=
  if_neg h.not_gt

theorem update_movedUp (k : Nat) (f : Nat → Text) (ii : Nat) :
    Function.update (movedUp k f) k (f (k + 1)) ii = movedUp (k + 1) f ii := by
  by_cases heq : ii = k
  · rw [heq, Function.update_self, movedUp_of_lt f (Nat.lt_succ_self k)]
  · rw [Function.update_of_ne heq]
    by_cases hlt : ii < k
    · rw [movedUp_of_lt f hlt, movedUp_of_lt f (Nat.lt_succ_of_lt hlt)]
    · rw [movedUp_of_le f (by omega), movedUp_of_le f (by omega)]

/-- Copying rows up, one after the other, moves each by one place. -/
theorem Rows.scrollRows {n k : Nat} {f : Nat → Text} {m : Bytes (maxStatusLines * rowLength)}
    (h : Rows n f m) (hn : n ≤ maxStatusLines) (hk : k < n) :
    ∃ m', Furikup.scrollRows k m = .ok m' ∧ Rows n (movedUp k f) m' := by
  induction k with
  | zero => exact ⟨m, rfl, h.congr fun ii _ => movedUp_of_le f (Nat.zero_le ii)⟩
  | succ k ih =>
    obtain ⟨m₁, hm₁, h₁⟩ := ih (Nat.lt_of_succ_lt hk)
    obtain ⟨hlen, hnext⟩ := h₁ (k + 1) hk
    rw [movedUp_of_le f (Nat.le_succ k)] at hlen hnext
    obtain ⟨m', hm', -, h'⟩ := h₁.strcpy ((Nat.lt_of_succ_lt hk).trans_le hn) hlen
    refine ⟨m', ?_, h'.congr fun ii _ => (update_movedUp k f ii).symm⟩
    rw [Furikup.scrollRows, hm₁, ok_bind, scrollRow, read_of_holds hnext, ok_bind, hm']

/-! ## Boxes that can be reached -/

/-- Whatever the messages were, the storage ends with a NUL, and at most seven rows are shown. -/
structure StatusBox.Ends (box : StatusBox) : Prop where
  count : box.gNumStatusLines ≤ maxStatusLines - 1
  last : cell box.gStatusLines (maxStatusLines * rowLength - 1) = none

theorem ends_empty : StatusBox.Ends {} where
  count := Nat.zero_le _
  last := by simp [cell]

/-- Copying rows up stays inside storage that ends with a NUL. -/
theorem exists_scrollRows {m : Bytes (maxStatusLines * rowLength)}
    (hlast : cell m (maxStatusLines * rowLength - 1) = none) {n : Nat} (hn : n < maxStatusLines) :
    ∃ m', scrollRows n m = .ok m' ∧ cell m' (maxStatusLines * rowLength - 1) = none := by
  induction n with
  | zero => exact ⟨m, rfl, hlast⟩
  | succ n ih =>
    obtain ⟨m₁, hm₁, h₁⟩ := ih (Nat.lt_of_succ_lt hn)
    have hrow : rowStart (n + 1) ≤ maxStatusLines * rowLength - 1 := by
      simp only [rowStart, rowLength, maxStatusLines] at *
      omega
    obtain ⟨line, hline, hlen⟩ := exists_read_of_cell h₁ (by decide) hrow
    have hroom : rowStart n + line.length < maxStatusLines * rowLength := by
      simp only [rowStart, rowLength, maxStatusLines] at *
      omega
    obtain ⟨m', hm'⟩ := (exists_strcpy_iff (m := m₁)).2 hroom
    refine ⟨m', ?_, cell_last_strcpy hm' h₁⟩
    rw [scrollRows, hm₁, ok_bind, scrollRow, hline, ok_bind, hm']

/-- A message that fits in a row can always be shown. -/
theorem StatusBox.Ends.exists_showMessage {box : StatusBox} (h : box.Ends) {lmsg : Text}
    (hlen : lmsg.length < rowLength) : ∃ box', showMessage lmsg box = .ok box' := by
  have hcount := h.count
  have hroom : ∀ ii < maxStatusLines, rowStart ii + lmsg.length < maxStatusLines * rowLength := by
    intro ii hii
    simp only [rowStart, rowLength, maxStatusLines] at *
    omega
  rw [showMessage]
  split
  · next hlt =>
    obtain ⟨m', hm'⟩ := (exists_strcpy_iff (m := box.gStatusLines)).2
      (hroom box.gNumStatusLines (hlt.trans_le (Nat.sub_le _ _)))
    exact ⟨_, by rw [hm', ok_bind]; rfl⟩
  · have hnum : box.gNumStatusLines - 1 < maxStatusLines := by
      simp only [maxStatusLines] at *
      omega
    obtain ⟨m₁, hm₁, -⟩ := exists_scrollRows h.last hnum
    obtain ⟨m', hm'⟩ := (exists_strcpy_iff (m := m₁)).2 (hroom (box.gNumStatusLines - 1) hnum)
    exact ⟨_, by rw [hm₁, ok_bind, hm', ok_bind]; rfl⟩

theorem StatusBox.Ends.showMessage {box box' : StatusBox} (h : box.Ends) {lmsg : Text}
    (hshow : Furikup.showMessage lmsg box = .ok box') : box'.Ends := by
  have hcount := h.count
  obtain ⟨ii, m, hnum, hm, hcase⟩ := showMessage_cases hshow
  rcases hcase with ⟨-, hroom, rfl⟩ | ⟨hfull, hscroll⟩
  · exact ⟨hnum ▸ hroom, cell_last_strcpy hm h.last⟩
  · have hii : ii < maxStatusLines := by
      rw [hfull] at hcount
      simp only [maxStatusLines] at *
      omega
    obtain ⟨m₁, hm₁, hlast⟩ := exists_scrollRows h.last hii
    rw [hscroll, Except.ok.injEq] at hm₁
    exact ⟨hnum ▸ hfull ▸ hcount, cell_last_strcpy hm (hm₁ ▸ hlast)⟩

/-! ## The window -/

/-- The messages since the box was cleared. -/
def remember (_ : StatusBox) (call : BoxCall) (msgs : List Text) : List Text :=
  match call with
  | .message lmsg => msgs ++ [lmsg.text]
  | .clear => []

/-- The message that belongs in a row: the rows show the last messages, in order. -/
def rowMessage (num : Nat) (msgs : List Text) (ii : Nat) : Text :=
  msgs.getD (msgs.length - num + ii) []

/-- The box shows the last messages, each cut to its row. -/
structure Window (box : StatusBox) (msgs : List Text) : Prop where
  count : box.gNumStatusLines ≤ maxStatusLines
  enough : box.gNumStatusLines ≤ msgs.length
  line : ∀ ii < box.gNumStatusLines,
    box.line ii = .ok ((rowMessage box.gNumStatusLines msgs ii).take (rowLength - 1))

/-- The invariant: the box shows the last seven messages, and each ends in its row. -/
structure WindowInv (box : StatusBox) (msgs : List Text) : Prop where
  count : box.gNumStatusLines = min msgs.length (maxStatusLines - 1)
  rows : Rows box.gNumStatusLines (rowMessage box.gNumStatusLines msgs) box.gStatusLines

theorem windowInv_initial : WindowInv {} [] where
  count := rfl
  rows := fun ii hii => absurd hii (Nat.not_lt_zero ii)

theorem WindowInv.window {box : StatusBox} {msgs : List Text} (h : WindowInv box msgs) :
    Window box msgs where
  count := by
    rw [h.count]
    exact (min_le_right _ _).trans (Nat.sub_le _ _)
  enough := by
    rw [h.count]
    exact min_le_left _ _
  line := fun ii hii => by
    obtain ⟨hlen, hholds⟩ := h.rows ii hii
    rw [StatusBox.line, read_of_holds hholds, List.take_of_length_le (Nat.le_sub_one_of_lt hlen)]

/-- The new message belongs in the last row. -/
theorem rowMessage_append_last {num : Nat} {msgs : List Text} (h : num ≤ msgs.length)
    (lmsg : Text) : rowMessage (num + 1) (msgs ++ [lmsg]) num = lmsg := by
  have hidx : (msgs ++ [lmsg]).length - (num + 1) + num = msgs.length := by
    rw [List.length_append, List.length_singleton]
    omega
  rw [rowMessage, hidx, List.getD_append_right _ _ _ _ le_rfl, Nat.sub_self]
  rfl

/-- With one more row, those that are there keep their messages. -/
theorem rowMessage_append_of_lt {num : Nat} {msgs : List Text} (h : num ≤ msgs.length) (lmsg : Text)
    {ii : Nat} (hii : ii < num) :
    rowMessage (num + 1) (msgs ++ [lmsg]) ii = rowMessage num msgs ii := by
  have hidx : (msgs ++ [lmsg]).length - (num + 1) + ii = msgs.length - num + ii := by
    rw [List.length_append, List.length_singleton]
    omega
  rw [rowMessage, hidx, List.getD_append _ _ _ _ (by omega), rowMessage]

/-- With as many rows, each takes the message of the one behind it. -/
theorem rowMessage_succ_append_of_lt {num : Nat} {msgs : List Text} (h : num < msgs.length)
    (lmsg : Text) {ii : Nat} (hii : ii < num) :
    rowMessage (num + 1) (msgs ++ [lmsg]) ii = rowMessage (num + 1) msgs (ii + 1) := by
  rw [rowMessage_append_of_lt h.le lmsg hii, rowMessage, rowMessage]
  congr 1
  omega

/-- A message that fits is appended, or takes the last row when the others have moved up. -/
theorem WindowInv.showMessage {box : StatusBox} {msgs : List Text} (h : WindowInv box msgs)
    {lmsg : Text} (hlen : lmsg.length < rowLength) :
    ∃ box', Furikup.showMessage lmsg box = .ok box' ∧ WindowInv box' (msgs ++ [lmsg]) := by
  have hcount : box.gNumStatusLines = min msgs.length 7 := h.count
  have hle : box.gNumStatusLines ≤ msgs.length := hcount ▸ min_le_left _ _
  rw [Furikup.showMessage]
  by_cases hroom : box.gNumStatusLines < maxStatusLines - 1
  · obtain ⟨m', hm', hholds, hrows⟩ := h.rows.strcpy (hroom.trans_le (Nat.sub_le _ _)) hlen
    rw [if_pos hroom, hm', ok_bind]
    refine ⟨_, rfl, ?_, fun ii hii => ?_⟩
    · simp only [List.length_append, List.length_singleton, maxStatusLines] at hroom ⊢
      omega
    · rcases Nat.lt_succ_iff_lt_or_eq.1 hii with hlt | rfl
      · have hrow := hrows ii hlt
        rw [Function.update_of_ne hlt.ne] at hrow
        rw [rowMessage_append_of_lt hle lmsg hlt]
        exact hrow
      · rw [rowMessage_append_last hle]
        exact ⟨hlen, hholds⟩
  · obtain ⟨num, hnum⟩ : ∃ num, box.gNumStatusLines = num + 1 :=
      Nat.exists_eq_succ_of_ne_zero fun hzero => hroom (by rw [hzero]; decide)
    have hseven : num + 1 ≤ maxStatusLines := by
      simp only [maxStatusLines]
      omega
    have hrows := h.rows
    rw [hnum] at hrows
    obtain ⟨m₁, hm₁, h₁⟩ := hrows.scrollRows hseven (Nat.lt_succ_self num)
    obtain ⟨m', hm', -, h'⟩ := h₁.strcpy hseven hlen
    rw [if_neg hroom, hnum, Nat.add_sub_cancel, hm₁, ok_bind, hm', ok_bind]
    refine ⟨_, rfl, ?_, ?_⟩
    · simp only [List.length_append, List.length_singleton, maxStatusLines] at hroom ⊢
      omega
    · refine h'.congr fun ii hii => ?_
      rcases Nat.lt_succ_iff_lt_or_eq.1 hii with hlt | rfl
      · rw [Function.update_of_ne hlt.ne, movedUp_of_lt _ hlt,
          rowMessage_succ_append_of_lt (by omega) lmsg hlt]
      · rw [Function.update_self, rowMessage_append_last (by omega)]

/-! ## Exactly when the box is a window -/

/-- What is written is behind the storage. -/
theorem clearRows_succ (n : Nat) (m : Bytes (maxStatusLines * rowLength)) :
    clearRows (n + 1) m = .error .overflow := by
  induction n with
  | zero => rfl
  | succ n ih => rw [clearRows, ih, error_bind]

theorem clearStatusBox_ne (box box' : StatusBox) : clearStatusBox box ≠ .ok box' := by
  have hrows : clearRows maxStatusLines box.gStatusLines = .error .overflow := clearRows_succ 7 _
  simp [clearStatusBox, hrows]

/-- What every run of calls comes to. -/
theorem ends_of_run {calls : List BoxCall} {box : StatusBox}
    (h : Machine.run boxStep calls {} = .ok box) : box.Ends := by
  refine Machine.run_invariant StatusBox.Ends (fun c s s' hs hstep => ?_) ends_empty h
  cases c with
  | message lmsg => exact hs.showMessage hstep
  | clear => exact absurd hstep (clearStatusBox_ne s s')

/-- A row that shows its message whole has room for it. -/
theorem Window.length_of_showMessage {lmsg : Text} {box box' : StatusBox} {msgs : List Text}
    (h : showMessage lmsg box = .ok box') (hw : Window box' (msgs ++ [lmsg])) :
    lmsg.length < rowLength := by
  obtain ⟨ii, hnum, hholds⟩ := showMessage_ok h
  have henough := hw.enough
  rw [hnum, List.length_append, List.length_singleton] at henough
  have hline := hw.line ii (hnum ▸ Nat.lt_succ_self ii)
  rw [hnum, rowMessage_append_last (Nat.le_of_succ_le_succ henough), StatusBox.line,
    read_of_holds hholds, Except.ok.injEq] at hline
  have hlen := congrArg List.length hline
  rw [List.length_take, rowLength] at hlen
  rw [rowLength]
  omega

/-- From the start, with nothing in it, the box takes all calls and is a window all along. -/
def SlidingWindow (calls : List BoxCall) : Prop :=
  Machine.Throughout (Machine.record boxStep remember) (fun s => Window s.1 s.2) calls ({}, [])

/-- **The box is a window if and only if it is never cleared and all messages fit in a row.** -/
theorem slidingWindow_iff (calls : List BoxCall) :
    SlidingWindow calls ↔
      ∀ c ∈ calls, ∃ lmsg : Buf 256, c = .message lmsg ∧ lmsg.text.length ≤ 68 := by
  refine Machine.throughout_iff_forall (fun s => WindowInv.window) (fun c s hs hc => ?_)
    (fun c s s' _ hstep hw => ?_) windowInv_initial
  · obtain ⟨lmsg, rfl, hlen⟩ := hc
    obtain ⟨box', hbox', hinv⟩ := hs.showMessage (Nat.lt_succ_of_le hlen)
    exact ⟨(box', s.2 ++ [lmsg.text]), Machine.record_ok.2 ⟨hbox', rfl⟩, hinv⟩
  · obtain ⟨hbox, hmsgs⟩ := Machine.record_ok.1 hstep
    cases c with
    | clear => exact absurd hbox (clearStatusBox_ne s.1 s'.1)
    | message lmsg =>
      rw [hmsgs] at hw
      exact ⟨lmsg, rfl, Nat.le_of_lt_succ (hw.length_of_showMessage hbox)⟩

/-- Clearing writes behind the storage. -/
theorem not_slidingWindow : ¬ SlidingWindow [.clear] := by
  intro h
  obtain ⟨t, ht, -⟩ := h [.clear] (List.prefix_refl _)
  obtain ⟨s', hs', -⟩ := Machine.run_cons_ok.1 ht
  exact clearStatusBox_ne _ _ (Machine.record_ok.1 hs').1

end Furikup
