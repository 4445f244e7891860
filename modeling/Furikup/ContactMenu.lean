import Furikup.Handover

/-!
# The list of contacts

In the state it is connected in, the main loop of the user interface shows the contacts with a star
in front of one of them.  Two keys move the star, and the cross calls the contact it is at.  The
table and the number of contacts are told by the engine when it has read the file, and if it could
not open the file they are not told at all.

* `Menu` and `menuStep` — the loop, with the events of the engine in between.
* `StepSafe` and `CursorValid` — what it should keep to: no remainder by zero, the cursor on a
  contact, and no contact read where there is none.
* `cursorValid_iff` — **when it does**: if the file lists a contact, or if neither of the two keys
  that need one is pressed while the list is shown.
* `exists_star` — with a contact in the file, one line of the list has the star.
-/

set_option autoImplicit false

namespace Furikup

open CText CFile

/-! ## The loop -/

theorem noName_fits : ([] : Text).length < 100 := by decide

/-- The globals of `text_gui.c` that the list of contacts is about, beside those of `TextGui`. -/
structure Menu where
  gui : TextGui := { gCaller := ⟨[], noName_fits⟩ }
  gContacts : Option (Vector Contact 20) := none
  gContactsCount : Int := 0
  gCurPos : Int := 0
  gCallee : Buf 100 := ⟨[], noName_fits⟩
  /-- What the engine was asked to do, latest first. -/
  asked : List GuiEvent := []

/-- The ways a turn of the loop goes wrong. -/
inductive MenuFault
  /-- A remainder by zero. -/
  | remainder
  /-- `gContacts[gCurPos]` through a null pointer or outside the table. -/
  | contact
  /-- A copy of a string that is too long. -/
  | copy
  deriving DecidableEq, Repr

/-- The keys of the list. -/
inductive MenuKey
  | up
  | down
  | cross
  deriving DecidableEq, Repr

inductive MenuInput
  | press (key : MenuKey)
  /-- The engine calls back. -/
  | event (event : Action)

def copied {α : Type} : C α → Except MenuFault α
  | .ok a => .ok a
  | .error _ => .error .copy

/-- `gContacts[gCurPos]` -/
def Menu.contact (s : Menu) : Except MenuFault Contact :=
  match s.gContacts with
  | none => .error .contact
  | some contacts =>
    if h : 0 ≤ s.gCurPos ∧ s.gCurPos.toNat < 20 then .ok (contacts.get ⟨s.gCurPos.toNat, h.2⟩)
    else .error .contact

namespace Menu

variable (s : Menu)

/-- The cross on a contact. -/
def cross : Except MenuFault Menu := do
  let con ← s.contact
  let (gCallee, event) ← copied (dial con)
  pure { s with gCallee := gCallee, asked := event.toList ++ s.asked }

/-- `gCurPos++; gCurPos %= gContactsCount;` -/
def down : Except MenuFault Menu :=
  if s.gContactsCount = 0 then .error .remainder
  else .ok { s with gCurPos := (s.gCurPos + 1).tmod s.gContactsCount }

/-- `gCurPos--; if (gCurPos < 0) gCurPos = gContactsCount-1;` -/
def up : Menu :=
  { s with gCurPos := if s.gCurPos - 1 < 0 then s.gContactsCount - 1 else s.gCurPos - 1 }

end Menu

/-- A key, in the switch on `gCurrentState`. -/
def menuKey (key : MenuKey) (s : Menu) : Except MenuFault Menu :=
  if s.gui.gCurrentState = 2 then
    match key with
    | .cross => s.cross
    | .down => s.down
    | .up => .ok s.up
  else
    match key with
    | .cross =>
      .ok { s with asked := (mainEvent s.gui.gCurrentState .cross []).toList ++ s.asked }
    | .down => .ok s
    | .up => .ok s

def menuStep (i : MenuInput) (s : Menu) : Except MenuFault Menu :=
  match i with
  | .press key => menuKey key s
  | .event event => do
    let gui ← copied (callbackEventHandler event s.gui)
    pure { s with gui := gui }

/-- The loop when `SIPEngineInitialize` has returned: it has told of the address book if it could
open the file. -/
def bootMenu (book : Addressbook × Bool) : Menu :=
  if book.2 then { gContacts := some book.1.contacts, gContactsCount := book.1.maxContact } else {}

/-- The lines of `DisplayMenu`, each with the star it has or has not. -/
def displayMenu (s : Menu) : List (Bool × Text) :=
  match s.gContacts with
  | none => []
  | some contacts =>
    (contacts.toList.take s.gContactsCount.toNat).zipIdx.map fun p =>
      (decide (s.gCurPos = p.2), p.1.nickname.text)

/-! ## What the loop should keep to -/

/-- The step reads `gContacts[gCurPos]`. -/
def ReadsContact (s : Menu) (i : MenuInput) : Prop :=
  i = .press .cross ∧ s.gui.gCurrentState = 2

/-- The cursor is on a contact if there is one. -/
def CursorInRange (s : Menu) : Prop :=
  0 < s.gContactsCount → 0 ≤ s.gCurPos ∧ s.gCurPos < s.gContactsCount

/-- What a step should keep to. -/
structure StepSafe (s : Menu) (i : MenuInput) : Prop where
  remainder : menuStep i s ≠ .error .remainder
  contact : ReadsContact s i →
    s.gContacts ≠ none ∧ 0 ≤ s.gCurPos ∧ s.gCurPos < s.gContactsCount

/-- What a run of the loop should keep to, with the contacts of a file. -/
def CursorValid (file : Option Text) (is : List MenuInput) : Prop :=
  ∀ book, parseAddressbook file = .ok book →
    Machine.Always menuStep CursorInRange is (bootMenu book) ∧
      Machine.Attempted menuStep StepSafe is (bootMenu book)

/-- The file opens, and a line of it is kept as a contact. -/
def ListsContact (file : Option Text) : Prop :=
  ∃ text, file = some text ∧ ∃ buffer ∈ reads 511 text, Stored buffer

/-! ## One step -/

/-- A copy has no other fault. -/
theorem copied_ne_error {α : Type} {x : C α} {e : MenuFault} (he : e ≠ .copy) :
    copied x ≠ .error e := by
  cases x with
  | ok a => simp [copied]
  | error f => simpa [copied] using he.symm

/-- **What a step does to the list**: nothing, but for the two keys that move the cursor. -/
theorem menuStep_cases {i : MenuInput} {s s' : Menu} (h : menuStep i s = .ok s') :
    s'.gContacts = s.gContacts ∧ s'.gContactsCount = s.gContactsCount ∧
      (s'.gCurPos = s.gCurPos ∨
        s.gContactsCount ≠ 0 ∧ s'.gCurPos = (s.gCurPos + 1).tmod s.gContactsCount ∨
        s'.gCurPos = if s.gCurPos - 1 < 0 then s.gContactsCount - 1 else s.gCurPos - 1) := by
  cases i with
  | event event =>
    obtain ⟨gui, -, h⟩ := bind_eq_ok.1 h
    obtain rfl := Except.ok.inj h
    exact ⟨rfl, rfl, Or.inl rfl⟩
  | press key =>
    rw [menuStep, menuKey.eq_def] at h
    split at h
    · cases key with
      | up =>
        obtain rfl := Except.ok.inj h
        exact ⟨rfl, rfl, Or.inr (Or.inr rfl)⟩
      | down =>
        simp only [Menu.down] at h
        split at h
        · exact absurd h (by simp)
        · next hcount =>
          obtain rfl := Except.ok.inj h
          exact ⟨rfl, rfl, Or.inr (Or.inl ⟨hcount, rfl⟩)⟩
      | cross =>
        obtain ⟨con, -, h⟩ := bind_eq_ok.1 h
        obtain ⟨r, -, h⟩ := bind_eq_ok.1 h
        obtain rfl := Except.ok.inj h
        exact ⟨rfl, rfl, Or.inl rfl⟩
    · cases key with
      | up | down | cross =>
        obtain rfl := Except.ok.inj h
        exact ⟨rfl, rfl, Or.inl rfl⟩

theorem contact_ne_remainder (s : Menu) : s.contact ≠ .error .remainder := by
  rw [Menu.contact]
  split
  · simp
  · split
    · simp
    · simp

theorem cross_ne_remainder (s : Menu) : s.cross ≠ .error .remainder := by
  intro h
  rcases bind_eq_error.1 h with h | ⟨con, -, h⟩
  · exact contact_ne_remainder s h
  · rcases bind_eq_error.1 h with h | ⟨r, -, h⟩
    · exact copied_ne_error (by decide) h
    · exact pure_ne_error h

/-- A remainder by zero takes the key that divides and no contacts. -/
theorem menuStep_eq_remainder_iff {i : MenuInput} {s : Menu} :
    menuStep i s = .error .remainder ↔
      i = .press .down ∧ s.gui.gCurrentState = 2 ∧ s.gContactsCount = 0 := by
  cases i with
  | event event =>
    refine iff_of_false (fun h => ?_) (by simp)
    rcases bind_eq_error.1 h with h | ⟨gui, -, h⟩
    · exact copied_ne_error (by decide) h
    · exact pure_ne_error h
  | press key =>
    rw [menuStep, menuKey.eq_def]
    by_cases hstate : s.gui.gCurrentState = 2
    · rw [if_pos hstate]
      cases key with
      | up => simp
      | down =>
        rw [Menu.down]
        by_cases hcount : s.gContactsCount = 0
        · simp [hstate, hcount]
        · simp [hcount]
      | cross => exact iff_of_false (cross_ne_remainder s) (by simp)
    · rw [if_neg hstate]
      cases key with
      | up | down | cross => simp [hstate]

/-! ## A list with contacts, and one without -/

/-- There is a table, with as many contacts as it has room for at most, and the cursor is on one of
them. -/
structure Listed (s : Menu) : Prop where
  table : s.gContacts ≠ none
  pos : 0 < s.gContactsCount
  room : s.gContactsCount ≤ 20
  cursor : 0 ≤ s.gCurPos ∧ s.gCurPos < s.gContactsCount

theorem Listed.step {i : MenuInput} {s s' : Menu} (hs : Listed s) (h : menuStep i s = .ok s') :
    Listed s' := by
  obtain ⟨hpos, hlt⟩ := hs.cursor
  have hcount := hs.pos
  obtain ⟨htable, hcount', hcursor⟩ := menuStep_cases h
  refine ⟨htable ▸ hs.table, hcount' ▸ hcount, hcount' ▸ hs.room, ?_⟩
  rw [hcount']
  rcases hcursor with heq | ⟨-, heq⟩ | heq
  · rw [heq]
    exact hs.cursor
  · rw [heq, Int.tmod_eq_emod_of_nonneg (by omega)]
    exact ⟨Int.emod_nonneg _ (by omega), Int.emod_lt_of_pos _ hcount⟩
  · rw [heq]
    split
    · omega
    · omega

theorem Listed.stepSafe {i : MenuInput} {s : Menu} (hs : Listed s) : StepSafe s i where
  remainder := fun h => hs.pos.ne' (menuStep_eq_remainder_iff.1 h).2.2
  contact := fun _ => ⟨hs.table, hs.cursor⟩

/-- **One line of the list has the star.** -/
theorem Listed.exists_star {s : Menu} (hs : Listed s) : (displayMenu s).countP Prod.fst = 1 := by
  obtain ⟨hpos, hlt⟩ := hs.cursor
  have hroom := hs.room
  cases hcontacts : s.gContacts with
  | none => exact absurd hcontacts hs.table
  | some contacts =>
    have hlen : (contacts.toList.take s.gContactsCount.toNat).length = s.gContactsCount.toNat := by
      rw [List.length_take, Vector.length_toList]
      omega
    have hstar : (fun k : Nat => decide (s.gCurPos = k)) = (· == s.gCurPos.toNat) := by
      funext k
      rw [Bool.eq_iff_iff, decide_eq_true_eq, beq_iff_eq]
      omega
    have hrows : displayMenu s =
        (contacts.toList.take s.gContactsCount.toNat).zipIdx.map fun p =>
          (decide (s.gCurPos = p.2), p.1.nickname.text) := by
      rw [displayMenu, hcontacts]
    calc (displayMenu s).countP Prod.fst
        = ((contacts.toList.take s.gContactsCount.toNat).zipIdx.map Prod.snd).countP
            fun k : Nat => decide (s.gCurPos = k) := by
          rw [hrows, List.countP_map, List.countP_map]
          rfl
      _ = (List.range' 0 s.gContactsCount.toNat).count s.gCurPos.toNat := by
          rw [List.zipIdx_map_snd, hlen, hstar, List.count]
      _ = 1 := List.count_eq_one_of_mem List.nodup_range' (by
          rw [List.mem_range'_1]
          omega)

/-- Neither of the keys that need a contact is pressed while the list is shown. -/
def PicksNothing (s : Menu) (i : MenuInput) : Prop :=
  s.gui.gCurrentState = 2 → i ≠ .press .down ∧ i ≠ .press .cross

/-- Without contacts a step is safe only if it does not need one. -/
theorem stepSafe_iff_of_empty {i : MenuInput} {s : Menu} (hs : s.gContactsCount = 0) :
    StepSafe s i ↔ PicksNothing s i := by
  constructor
  · intro h hstate
    refine ⟨fun hdown => h.remainder (menuStep_eq_remainder_iff.2 ⟨hdown, hstate, hs⟩), ?_⟩
    intro hcross
    obtain ⟨-, hpos, hlt⟩ := h.contact ⟨hcross, hstate⟩
    omega
  · intro h
    refine ⟨fun hfault => ?_, fun hread => absurd hread.1 (h hread.2).2⟩
    obtain ⟨hdown, hstate, -⟩ := menuStep_eq_remainder_iff.1 hfault
    exact (h hstate).1 hdown

/-! ## Whole runs -/

theorem listed_bootMenu {file : Option Text} {book : Addressbook × Bool}
    (hbook : parseAddressbook file = .ok book) (hlist : ListsContact file) :
    Listed (bootMenu book) := by
  obtain ⟨text, rfl, buffer, hmem, hstored⟩ := hlist
  obtain ⟨b, hb, h⟩ := bind_eq_ok.1 hbook
  obtain rfl := pure_eq_ok.1 h
  have hcount := maxContact_readContacts hb
  have hpos : 0 < (reads 511 text).countP (Stored ·) :=
    List.countP_pos_iff.2 ⟨buffer, hmem, by simpa using hstored⟩
  have hroom := maxContact_readContacts_le hb (Nat.zero_le 20)
  have hmax : Addressbook.maxContact {} = 0 := rfl
  have hlow : 0 < (b.maxContact : Int) := by omega
  have hhigh : (b.maxContact : Int) ≤ 20 := by omega
  exact ⟨Option.some_ne_none _, hlow, hhigh, le_rfl, hlow⟩

theorem empty_bootMenu {file : Option Text} {book : Addressbook × Bool}
    (hbook : parseAddressbook file = .ok book) (hlist : ¬ ListsContact file) :
    (bootMenu book).gContactsCount = 0 := by
  cases file with
  | none =>
    obtain rfl := pure_eq_ok.1 hbook
    rfl
  | some text =>
    obtain ⟨b, hb, h⟩ := bind_eq_ok.1 hbook
    obtain rfl := pure_eq_ok.1 h
    have hcount := maxContact_readContacts hb
    have hnone : (reads 511 text).countP (Stored ·) = 0 :=
      List.countP_eq_zero.2 fun buffer hmem hstored =>
        hlist ⟨text, rfl, buffer, hmem, by simpa using hstored⟩
    have hmax : Addressbook.maxContact {} = 0 := rfl
    have hboot : (bootMenu (b, true)).gContactsCount = b.maxContact := rfl
    omega

/-- **The cursor stays valid if and only if the file lists a contact or no key is pressed that
needs one.** -/
theorem cursorValid_iff (file : Option Text) (is : List MenuInput) :
    CursorValid file is ↔
      ListsContact file ∨ ∀ book, parseAddressbook file = .ok book →
        Machine.Attempted menuStep PicksNothing is (bootMenu book) := by
  have hkeep (i : MenuInput) (s s' : Menu) (hs : s.gContactsCount = 0)
      (h : menuStep i s = .ok s') : s'.gContactsCount = 0 :=
    (menuStep_cases h).2.1.trans hs
  by_cases hlist : ListsContact file
  · refine iff_of_true (fun book hbook => ⟨?_, ?_⟩) (Or.inl hlist)
    · refine Machine.always_iff_run.2 fun js _ t hrun _ => ?_
      exact (Machine.run_invariant Listed (fun i s s' hs h => hs.step h)
        (listed_bootMenu hbook hlist) hrun).cursor
    · intro front i rest _ t hrun
      exact (Machine.run_invariant Listed (fun i s s' hs h => hs.step h)
        (listed_bootMenu hbook hlist) hrun).stepSafe
  · rw [or_iff_right hlist]
    refine forall_congr' fun book => forall_congr' fun hbook => ?_
    have hempty := empty_bootMenu hbook hlist
    rw [← Machine.attempted_congr (fun s => s.gContactsCount = 0) hkeep
      (fun i s hs => stepSafe_iff_of_empty hs) hempty]
    refine and_iff_right (Machine.always_iff_run.2 fun js _ t hrun hpos => ?_)
    have hcount := Machine.run_invariant (fun s => s.gContactsCount = 0) hkeep hempty hrun
    omega

/-- Without a contacts file, the key that moves down divides by zero. -/
theorem not_cursorValid : ¬ CursorValid none [.event (.notice (.sipState 2)), .press .down] := by
  intro h
  obtain ⟨-, hsafe⟩ := h ({}, false) rfl
  refine (hsafe [.event (.notice (.sipState 2))] (.press .down) [] rfl _ rfl).remainder ?_
  rfl

end Furikup
