import Furikup.Codec
import Furikup.Lib.CFile

/-!
# The address book

`parseAddressbook` reads `contacts.txt` into a fixed table: it claims a slot for each line, fills
it column by column from what `strtok` returns, and gives it back where the line has no two columns.

* `Contact`, `Addressbook` and `parseAddressbook` — the table and the parser.
* `readContact_eq` — one read in terms of the tokens of the line.
* `addressbookSafe_iff` — when the parser stays inside its table and its fields.
* `readsContacts_iff` — when the table lists the contacts of the file, column by column.
-/

set_option autoImplicit false

namespace Furikup

open CText CFile

/-! ## The parser -/

structure Contact where
  nickname : Buf 128 := Buf.zero
  firstname : Buf 128 := Buf.zero
  lastname : Buf 128 := Buf.zero
  sipuri : Buf 128 := Buf.zero

/-- The columns of a line, in the order they have there. -/
inductive Column
  | nickname
  | sipuri
  | firstname
  | lastname
  deriving DecidableEq, Repr

namespace Contact

def set (con : Contact) : Column → Buf 128 → Contact
  | .nickname, b => { con with nickname := b }
  | .sipuri, b => { con with sipuri := b }
  | .firstname, b => { con with firstname := b }
  | .lastname, b => { con with lastname := b }

/-- The four strings, in the order of the columns. -/
def row (con : Contact) : List Text :=
  [con.nickname.text, con.sipuri.text, con.firstname.text, con.lastname.text]

end Contact

/-- The globals of `addressbook.c`. -/
structure Addressbook where
  contacts : Vector Contact 20 := Vector.replicate 20 {}
  maxContact : Nat := 0

def strip (buf : Text) : Text :=
  stripEnd buf

namespace Addressbook

/-- `strip(value)` and `strcpy` into a field of `contacts[i]`. -/
def copy (i : Nat) (column : Column) (value : Text) (b : Addressbook) : C Addressbook := do
  let field ← sprintf 128 (strip value)
  if h : i < 20 then
    pure { b with contacts := b.contacts.set i (b.contacts[i].set column field) }
  else .error .overflow

/-- `maxContact--` -/
def giveBack (b : Addressbook) : Addressbook :=
  { b with maxContact := b.maxContact - 1 }

end Addressbook

/-- The body of the loop of `parseAddressbook`. -/
def readContact (buffer : Text) (b : Addressbook) : C Addressbook := do
  let con := b.maxContact
  let b := { b with maxContact := b.maxContact + 1 }
  match strtok ',' (cstr buffer) with
  | none => pure b.giveBack
  | some (value, rest) =>
    let b ← b.copy con .nickname value
    match strtok ',' rest with
    | none => pure b.giveBack
    | some (value, rest) =>
      let b ← b.copy con .sipuri value
      match strtok ',' rest with
      | none => pure b
      | some (value, rest) =>
        let b ← b.copy con .firstname value
        match strtok ',' rest with
        | none => pure b
        | some (value, _) => b.copy con .lastname value

def readContacts : List Text → Addressbook → C Addressbook
  | [], b => pure b
  | buffer :: rest, b => do
    let b ← readContact buffer b
    readContacts rest b

/-- The parser, from the globals the program starts with.  `none` is a file that does not open;
otherwise the event `SUI_IN_ADDRESS_BOOK` is raised, and the flag says so. -/
def parseAddressbook (file : Option Text) : C (Addressbook × Bool) :=
  match file with
  | none => pure ({}, false)
  | some text => do
    let b ← readContacts (reads 511 text) {}
    pure (b, true)

/-! ## One read -/

/-- The order of the columns. -/
def columns : List Column :=
  [.nickname, .sipuri, .firstname, .lastname]

/-- Fill columns of one contact. -/
def fill : List (Column × Text) → Contact → C Contact
  | [], con => pure con
  | p :: ps, con => do
    let field ← sprintf 128 (strip p.2)
    fill ps (con.set p.1 field)

/-- A change of one contact. -/
def Addressbook.inSlot (i : Nat) (F : Contact → C Contact) (b : Addressbook) : C Addressbook :=
  if h : i < 20 then do
    let con ← F b.contacts[i]
    pure { b with contacts := b.contacts.set i con }
  else .error .overflow

/-- The tokens of a line as the parser reads it. -/
def tokensOf (buffer : Text) : List Text :=
  tokens ',' (cstr buffer)

theorem Addressbook.copy_eq (column : Column) (i : Nat) (value : Text) (b : Addressbook) :
    b.copy i column value = b.inSlot i (fill [(column, value)]) := by
  rw [copy, inSlot]
  by_cases hlen : (strip value).length < 128
  · simp only [fill, sprintf_of_lt hlen, ok_bind, pure_bind]
  · simp only [fill, sprintf_of_le (Nat.le_of_not_lt hlen), error_bind]
    split
    · rfl
    · rfl

/-- Two changes of one slot are one. -/
theorem Addressbook.inSlot_bind (i : Nat) (F G : Contact → C Contact) (b : Addressbook) :
    (b.inSlot i F >>= fun b => b.inSlot i G) = b.inSlot i fun con => F con >>= G := by
  rw [inSlot, inSlot]
  by_cases h : i < 20
  · rw [dif_pos h, dif_pos h]
    cases F b.contacts[i] with
    | error e => rfl
    | ok con => simp [inSlot, h]
  · rw [dif_neg h, dif_neg h, error_bind]

theorem fill_append (ps qs : List (Column × Text)) (con : Contact) :
    fill (ps ++ qs) con = fill ps con >>= fill qs := by
  induction ps generalizing con with
  | nil => rfl
  | cons p ps ih => simp only [List.cons_append, fill, ih, bind_assoc]

/-- Another column of the same slot. -/
theorem Addressbook.inSlot_copy (i : Nat) (ps : List (Column × Text)) (column : Column)
    (value : Text) (b : Addressbook) :
    (b.inSlot i (fill ps) >>= fun b => b.copy i column value) =
      b.inSlot i (fill (ps ++ [(column, value)])) := by
  simp only [copy_eq, inSlot_bind]
  congr 1
  funext con
  rw [fill_append]

/-- What a line does, in terms of its tokens: it fills a slot with them, and keeps the slot if there
are two. -/
def readTokens (ts : List Text) (b : Addressbook) : C Addressbook :=
  if ts = [] then pure b
  else do
    let b' ← b.inSlot b.maxContact (fill (columns.zip ts))
    pure { b' with maxContact := b.maxContact + if 2 ≤ ts.length then 1 else 0 }

/-- How many contacts there are does not matter to a slot. -/
theorem Addressbook.inSlot_count (i n : Nat) (F : Contact → C Contact) (b : Addressbook) :
    Addressbook.inSlot i F { b with maxContact := n } =
      b.inSlot i F >>= fun b' => pure { b' with maxContact := n } := by
  rw [inSlot, inSlot]
  by_cases h : i < 20
  · simp only [dif_pos h]
    cases F b.contacts[i] with
    | error e => rfl
    | ok con => rfl
  · rw [dif_neg h, dif_neg h, error_bind]

/-- **One read is what its tokens make of it.** -/
theorem readContact_eq (buffer : Text) (b : Addressbook) :
    readContact buffer b = readTokens (tokensOf buffer) b := by
  rw [readContact, tokensOf]
  rcases strtok_cases ',' (cstr buffer) with ⟨h₁, hts⟩ | ⟨t₁, r₁, h₁, hts⟩
  · rw [h₁, hts]
    rfl
  rw [h₁, hts, readTokens, if_neg (List.cons_ne_nil _ _)]
  rcases strtok_cases ',' r₁ with ⟨h₂, hts₂⟩ | ⟨t₂, r₂, h₂, hts₂⟩
  · simp only [h₂, hts₂, Addressbook.copy_eq, Addressbook.inSlot_count, bind_assoc, pure_bind]
    rfl
  rcases strtok_cases ',' r₂ with ⟨h₃, hts₃⟩ | ⟨t₃, r₃, h₃, hts₃⟩
  · simp only [h₂, hts₂, h₃, hts₃, bind_pure, Addressbook.copy_eq .nickname,
      Addressbook.inSlot_copy]
    rw [Addressbook.inSlot_count]
    rfl
  rcases strtok_cases ',' r₃ with ⟨h₄, hts₄⟩ | ⟨t₄, r₄, h₄, hts₄⟩
  · simp only [h₂, hts₂, h₃, hts₃, h₄, hts₄, bind_pure, Addressbook.copy_eq .nickname,
      ← bind_assoc, Addressbook.inSlot_copy]
    rw [Addressbook.inSlot_count]
    rfl
  · simp only [h₂, hts₂, h₃, hts₃, h₄, hts₄, Addressbook.copy_eq .nickname,
      ← bind_assoc, Addressbook.inSlot_copy]
    have htwo : 2 ≤ (t₁ :: t₂ :: t₃ :: t₄ :: tokens ',' r₄).length := by simp
    rw [Addressbook.inSlot_count, if_pos htwo]
    rfl

/-! ## Staying inside the table -/

/-- Columns can be filled if and only if each string fits its field. -/
theorem exists_fill_iff {ps : List (Column × Text)} {con : Contact} :
    (∃ con', fill ps con = .ok con') ↔ ∀ p ∈ ps, (strip p.2).length < 128 := by
  induction ps generalizing con with
  | nil => exact iff_of_true ⟨con, rfl⟩ fun p hp => absurd hp List.not_mem_nil
  | cons p ps ih =>
    rw [fill, List.forall_mem_cons]
    by_cases hlen : (strip p.2).length < 128
    · rw [sprintf_of_lt hlen, ok_bind, ih, and_iff_right hlen]
    · rw [sprintf_of_le (Nat.le_of_not_lt hlen), error_bind]
      exact iff_of_false (by simp) fun h => hlen h.1

theorem forall_zip_columns_iff {P : Text → Prop} {ts : List Text} :
    (∀ p ∈ columns.zip ts, P p.2) ↔ ∀ t ∈ ts.take 4, P t := by
  have hsnd : (columns.zip ts).map Prod.snd = ts.take 4 := by
    rcases ts with _ | ⟨a, _ | ⟨b, _ | ⟨c, _ | ⟨d, ts⟩⟩⟩⟩ <;> rfl
  rw [← hsnd, List.forall_mem_map]

theorem exists_inSlot_iff {i : Nat} {F : Contact → C Contact} {b : Addressbook} :
    (∃ b', b.inSlot i F = .ok b') ↔ ∃ h : i < 20, ∃ con, F b.contacts[i] = .ok con := by
  rw [Addressbook.inSlot]
  by_cases h : i < 20
  · simp only [dif_pos h, bind_eq_ok, pure_eq_ok]
    constructor
    · rintro ⟨b', con, hcon, rfl⟩
      exact ⟨h, con, hcon⟩
    · rintro ⟨_, con, hcon⟩
      exact ⟨_, con, hcon, rfl⟩
  · simp [h]

/-- The line keeps its slot. -/
def Stored (buffer : Text) : Prop :=
  2 ≤ (tokensOf buffer).length

instance (buffer : Text) : Decidable (Stored buffer) :=
  inferInstanceAs (Decidable (_ ≤ _))

/-- The columns that are copied fit their fields. -/
def FieldsFit (buffer : Text) : Prop :=
  ∀ t ∈ (tokensOf buffer).take 4, (strip t).length < 128

theorem exists_readContact_iff {buffer : Text} {b : Addressbook} :
    (∃ b', readContact buffer b = .ok b') ↔
      (tokensOf buffer ≠ [] → b.maxContact < 20) ∧ FieldsFit buffer := by
  rw [readContact_eq, readTokens, FieldsFit]
  by_cases hts : tokensOf buffer = []
  · simp [hts]
  · rw [if_neg hts, ← forall_zip_columns_iff (P := fun t => (strip t).length < 128)]
    have hbind : ∀ {n : Nat},
        (∃ b', (b.inSlot b.maxContact (fill (columns.zip (tokensOf buffer))) >>=
          fun b' => pure { b' with maxContact := n }) = .ok b') ↔
        ∃ b', b.inSlot b.maxContact (fill (columns.zip (tokensOf buffer))) = .ok b' := by
      intro n
      simp only [bind_eq_ok, pure_eq_ok]
      constructor
      · rintro ⟨_, b', h, -⟩
        exact ⟨b', h⟩
      · rintro ⟨b', h⟩
        exact ⟨_, b', h, rfl⟩
    rw [hbind, exists_inSlot_iff]
    simp only [exists_fill_iff]
    rw [exists_prop]
    exact and_congr_left' ⟨fun h _ => h, fun h => h hts⟩

/-- How a read changes the number of contacts. -/
theorem maxContact_readContact {buffer : Text} {b b' : Addressbook}
    (h : readContact buffer b = .ok b') :
    b'.maxContact = b.maxContact + if Stored buffer then 1 else 0 := by
  rw [readContact_eq, readTokens] at h
  by_cases hts : tokensOf buffer = []
  · rw [if_pos hts, pure_eq_ok] at h
    rw [h]
    simp [Stored, hts]
  · rw [if_neg hts] at h
    simp only [bind_eq_ok, pure_eq_ok] at h
    obtain ⟨b₁, -, rfl⟩ := h
    rfl

/-- How many contacts a run of reads adds. -/
theorem maxContact_readContacts {rs : List Text} {b b' : Addressbook}
    (h : readContacts rs b = .ok b') :
    b'.maxContact = b.maxContact + rs.countP (Stored ·) := by
  induction rs generalizing b with
  | nil => rw [pure_eq_ok.1 h, List.countP_nil, Nat.add_zero]
  | cons buffer rs ih =>
    obtain ⟨b₁, h₁, h⟩ := bind_eq_ok.1 h
    rw [ih h, maxContact_readContact h₁, List.countP_cons]
    simp only [decide_eq_true_eq]
    omega

/-- No line finds the table full, from `n` contacts on. -/
def RoomFor (rs : List Text) (n : Nat) : Prop :=
  ∀ front buffer back, rs = front ++ buffer :: back → tokensOf buffer ≠ [] →
    n + front.countP (Stored ·) < 20

theorem roomFor_cons {buffer : Text} {rs : List Text} {n : Nat} :
    RoomFor (buffer :: rs) n ↔
      (tokensOf buffer ≠ [] → n < 20) ∧ RoomFor rs (n + if Stored buffer then 1 else 0) := by
  constructor
  · intro h
    refine ⟨fun hne => h [] buffer rs rfl hne, fun front m back heq hne => ?_⟩
    have := h (buffer :: front) m back (by rw [heq, List.cons_append]) hne
    rw [List.countP_cons] at this
    simp only [decide_eq_true_eq] at this
    omega
  · rintro ⟨h₀, h⟩ front m back heq hne
    cases front with
    | nil =>
      rw [List.nil_append, List.cons.injEq] at heq
      exact h₀ (heq.1 ▸ hne)
    | cons k front =>
      rw [List.cons_append, List.cons.injEq] at heq
      have := h front m back heq.2 hne
      rw [← heq.1, List.countP_cons]
      simp only [decide_eq_true_eq]
      omega

/-- A run of reads stays inside the table if and only if each of them finds room. -/
theorem exists_readContacts_iff {rs : List Text} {b : Addressbook} :
    (∃ b', readContacts rs b = .ok b') ↔
      (∀ buffer ∈ rs, FieldsFit buffer) ∧ RoomFor rs b.maxContact := by
  induction rs generalizing b with
  | nil => exact iff_of_true ⟨b, rfl⟩ ⟨fun r hr => absurd hr List.not_mem_nil, fun front r back h =>
      absurd h (by simp)⟩
  | cons buffer rs ih =>
    rw [readContacts, List.forall_mem_cons, roomFor_cons]
    by_cases hread : ∃ b', readContact buffer b = .ok b'
    · obtain ⟨hroom, hfit⟩ := exists_readContact_iff.1 hread
      obtain ⟨b', hb'⟩ := hread
      rw [hb', ok_bind, ih, maxContact_readContact hb']
      tauto
    · refine iff_of_false ?_ fun h => ?_
      · rintro ⟨b', h⟩
        obtain ⟨b₁, h₁, -⟩ := bind_eq_ok.1 h
        exact hread ⟨b₁, h₁⟩
      · exact hread (exists_readContact_iff.2 ⟨h.2.1, h.1.1⟩)

theorem maxContact_readContacts_le {rs : List Text} {b b' : Addressbook}
    (h : readContacts rs b = .ok b') (hb : b.maxContact ≤ 20) : b'.maxContact ≤ 20 := by
  induction rs generalizing b with
  | nil =>
    rw [readContacts, pure_eq_ok] at h
    rwa [h]
  | cons buffer rs ih =>
    rw [readContacts, bind_eq_ok] at h
    obtain ⟨b₁, h₁, h⟩ := h
    refine ih h ?_
    obtain ⟨hroom, -⟩ := exists_readContact_iff.1 ⟨b₁, h₁⟩
    rw [maxContact_readContact h₁]
    split
    · next hst =>
      have hne : tokensOf buffer ≠ [] := fun hnil => by simp [Stored, hnil] at hst
      have := hroom hne
      omega
    · omega

/-- The parser writes nowhere but into the table and there into the fields, and counts at most as
many contacts as the table has. -/
def AddressbookSafe (text : Text) : Prop :=
  ∃ r, parseAddressbook (some text) = .ok r ∧ r.1.maxContact ≤ 20

/-- **The parser is safe if and only if no column it copies is too long and no line with a column
comes when the table is full.** -/
theorem addressbookSafe_iff (text : Text) :
    AddressbookSafe text ↔
      (∀ buffer ∈ reads 511 text, FieldsFit buffer) ∧
      ∀ front buffer back, reads 511 text = front ++ buffer :: back → tokensOf buffer ≠ [] →
        front.countP (Stored ·) < 20 := by
  have hroom : RoomFor (reads 511 text) (Addressbook.maxContact {}) ↔
      ∀ front buffer back, reads 511 text = front ++ buffer :: back → tokensOf buffer ≠ [] →
        front.countP (Stored ·) < 20 := by
    simp only [RoomFor, Nat.zero_add]
  rw [← hroom, ← exists_readContacts_iff, AddressbookSafe, parseAddressbook]
  simp only [bind_eq_ok, pure_eq_ok]
  constructor
  · rintro ⟨r, ⟨b, hb, -⟩, -⟩
    exact ⟨b, hb⟩
  · rintro ⟨b, hb⟩
    exact ⟨(b, true), ⟨b, hb, rfl⟩, maxContact_readContacts_le hb (Nat.zero_le 20)⟩

/-- A nickname of 128 characters is copied behind its field. -/
theorem not_addressbookSafe : ¬ AddressbookSafe (List.replicate 128 'a') := by
  have hreads : reads 511 (List.replicate 128 'a') = [List.replicate 128 'a'] := by
    rw [reads_of_notMem (by simp), pieces_of_length_le (by simp) (by simp)]
  rintro ⟨r, h, -⟩
  rw [parseAddressbook, hreads, bind_eq_ok] at h
  obtain ⟨b, hb, -⟩ := h
  have hfit := (exists_readContacts_iff.1 ⟨b, hb⟩).1 _ List.mem_cons_self
  have htokens : tokensOf (List.replicate 128 'a') = [List.replicate 128 'a'] := by
    rw [tokensOf, cstr, cutAt_of_notMem (by simp), tokens_of_notMem (by simp) (by simp)]
  rw [FieldsFit, htokens] at hfit
  have := hfit _ List.mem_cons_self
  rw [strip, stripEnd_of_notMem (by simp) (by simp), List.length_replicate] at this
  omega

/-! ## What the table lists -/

/-- The contacts that are listed. -/
def Addressbook.rows (b : Addressbook) : List (List Text) :=
  (b.contacts.toList.take b.maxContact).map Contact.row

/-- Slots that are not taken have nothing but a nickname a line left behind. -/
def Addressbook.Clean (b : Addressbook) : Prop :=
  ∀ con ∈ b.contacts.toList.drop b.maxContact,
    con.sipuri.text = [] ∧ con.firstname.text = [] ∧ con.lastname.text = []

/-- What a line is stored as, if it is: its first four tokens, empty ones in place of what there is
not. -/
def rowOf (ts : List Text) : Option (List Text) :=
  if 2 ≤ ts.length then
    some [strip (ts.getD 0 []), strip (ts.getD 1 []), strip (ts.getD 2 []), strip (ts.getD 3 [])]
  else none

/-- A slot without residue is filled with the tokens. -/
theorem row_of_fill {ts : List Text} {con con' : Contact}
    (h : fill (columns.zip ts) con = .ok con') (hts : 2 ≤ ts.length)
    (hcon : con.sipuri.text = [] ∧ con.firstname.text = [] ∧ con.lastname.text = []) :
    con'.row = [strip (ts.getD 0 []), strip (ts.getD 1 []), strip (ts.getD 2 []),
      strip (ts.getD 3 [])] := by
  obtain ⟨-, hfirst, hlast⟩ := hcon
  have hnil : strip [] = [] := rfl
  rcases ts with _ | ⟨t₁, _ | ⟨t₂, _ | ⟨t₃, _ | ⟨t₄, ts⟩⟩⟩⟩
  · simp at hts
  · simp at hts
  · simp only [columns, List.zip_cons_cons, List.zip_nil_right, fill, bind_eq_ok, pure_eq_ok] at h
    obtain ⟨b₁, h₁, b₂, h₂, rfl⟩ := h
    simp [Contact.row, Contact.set, sprintf_eq_ok.1 h₁, sprintf_eq_ok.1 h₂, hfirst, hlast, hnil]
  · simp only [columns, List.zip_cons_cons, List.zip_nil_right, fill, bind_eq_ok, pure_eq_ok] at h
    obtain ⟨b₁, h₁, b₂, h₂, b₃, h₃, rfl⟩ := h
    simp [Contact.row, Contact.set, sprintf_eq_ok.1 h₁, sprintf_eq_ok.1 h₂, sprintf_eq_ok.1 h₃,
      hlast, hnil]
  · simp only [columns, List.zip_cons_cons, List.zip_nil_left, fill, bind_eq_ok, pure_eq_ok] at h
    obtain ⟨b₁, h₁, b₂, h₂, b₃, h₃, b₄, h₄, rfl⟩ := h
    simp [Contact.row, Contact.set, sprintf_eq_ok.1 h₁, sprintf_eq_ok.1 h₂, sprintf_eq_ok.1 h₃,
      sprintf_eq_ok.1 h₄]

/-- A single token goes into the nickname. -/
theorem clean_of_fill {ts : List Text} {con con' : Contact}
    (h : fill (columns.zip ts) con = .ok con') (hts : ¬ 2 ≤ ts.length) :
    con'.sipuri = con.sipuri ∧ con'.firstname = con.firstname ∧ con'.lastname = con.lastname := by
  rcases ts with _ | ⟨t₁, _ | ⟨t₂, ts⟩⟩
  · rw [columns, List.zip_nil_right, fill, pure_eq_ok] at h
    rw [h]
    exact ⟨rfl, rfl, rfl⟩
  · simp only [columns, List.zip_cons_cons, List.zip_nil_right, fill, bind_eq_ok, pure_eq_ok] at h
    obtain ⟨b₁, -, rfl⟩ := h
    exact ⟨rfl, rfl, rfl⟩
  · simp at hts

/-- What a slot held and what it holds, in the list of slots. -/
theorem take_drop_set {α : Type} {l : List α} {n : Nat} (h : n < l.length) (a : α) :
    (l.set n a).take n = l.take n ∧ (l.set n a).take (n + 1) = l.take n ++ [a] ∧
      (l.set n a).drop n = a :: l.drop (n + 1) ∧ (l.set n a).drop (n + 1) = l.drop (n + 1) := by
  have hset : n < (l.set n a).length := by rwa [List.length_set]
  have hdrop : (l.set n a).drop (n + 1) = l.drop (n + 1) := List.drop_set_of_lt (Nat.lt_succ_self n)
  have htake : (l.set n a).take n = l.take n := List.take_set_of_le le_rfl
  refine ⟨htake, ?_, ?_, hdrop⟩
  · rw [List.take_succ_eq_append_getElem hset, htake, List.getElem_set_self]
  · rw [List.drop_eq_getElem_cons hset, hdrop, List.getElem_set_self]

/-- **One read lists one contact more, or none**, and leaves the free slots clean. -/
theorem rows_readContact {buffer : Text} {b b' : Addressbook} (hclean : b.Clean)
    (h : readContact buffer b = .ok b') :
    b'.rows = b.rows ++ (rowOf (tokensOf buffer)).toList ∧ b'.Clean := by
  rw [readContact_eq, readTokens] at h
  by_cases hnil : tokensOf buffer = []
  · rw [if_pos hnil, pure_eq_ok] at h
    rw [h, hnil]
    exact ⟨by simp [rowOf], hclean⟩
  rw [if_neg hnil, bind_eq_ok] at h
  obtain ⟨b₁, h₁, h⟩ := h
  rw [pure_eq_ok] at h
  obtain ⟨hlt, -⟩ := exists_inSlot_iff.1 ⟨b₁, h₁⟩
  rw [Addressbook.inSlot, dif_pos hlt, bind_eq_ok] at h₁
  obtain ⟨con, hfill, h₁⟩ := h₁
  rw [pure_eq_ok] at h₁
  have hlen : b.maxContact < b.contacts.toList.length := by simpa using hlt
  obtain ⟨htake, htake', hdrop, hdrop'⟩ := take_drop_set hlen con
  have hslot : b.contacts[b.maxContact].sipuri.text = [] ∧
      b.contacts[b.maxContact].firstname.text = [] ∧
      b.contacts[b.maxContact].lastname.text = [] := by
    refine hclean _ ?_
    rw [List.drop_eq_getElem_cons hlen, Vector.getElem_toList]
    exact List.mem_cons_self
  have hback : ∀ c ∈ b.contacts.toList.drop (b.maxContact + 1), c ∈ b.contacts.toList.drop
      b.maxContact := fun c hc => by
    rw [List.drop_eq_getElem_cons hlen]
    exact List.mem_cons_of_mem _ hc
  rw [h, h₁]
  by_cases htwo : 2 ≤ (tokensOf buffer).length
  · have hrow := row_of_fill hfill htwo hslot
    simp only [Addressbook.rows, Addressbook.Clean, if_pos htwo, Vector.toList_set, htake', hdrop',
      rowOf, List.map_append, List.map_cons, List.map_nil, hrow, Option.toList_some]
    exact ⟨trivial, fun c hc => hclean c (hback c hc)⟩
  · obtain ⟨hsip, hfirst, hlast⟩ := clean_of_fill hfill htwo
    simp only [Addressbook.rows, Addressbook.Clean, if_neg htwo, Vector.toList_set, Nat.add_zero,
      htake, hdrop, rowOf, Option.toList_none, List.append_nil, true_and, List.forall_mem_cons]
    rw [hsip, hfirst, hlast]
    exact ⟨hslot, fun c hc => hclean c (hback c hc)⟩

/-- The rows of a run of reads, in order. -/
theorem rows_readContacts {rs : List Text} {b b' : Addressbook} (hclean : b.Clean)
    (h : readContacts rs b = .ok b') :
    b'.rows = b.rows ++ rs.filterMap fun r => rowOf (tokensOf r) := by
  induction rs generalizing b with
  | nil =>
    rw [readContacts, pure_eq_ok] at h
    rw [h, List.filterMap_nil, List.append_nil]
  | cons buffer rs ih =>
    rw [readContacts, bind_eq_ok] at h
    obtain ⟨b₁, h₁, h⟩ := h
    obtain ⟨hrows, hclean₁⟩ := rows_readContact hclean h₁
    rw [ih hclean₁ h, hrows, List.append_assoc]
    congr 1
    cases hrow : rowOf (tokensOf buffer) with
    | none => simp [hrow]
    | some row => simp [hrow]

/-! ## Lines of columns -/

/-- The columns of a line with its line end behind the last. -/
def withEnding : List Text → Ending → List Text
  | [], e => [e.text]
  | [c], e => [c ++ e.text]
  | c :: d :: cols, e => c :: withEnding (d :: cols) e

theorem withEnding_ne (cols : List Text) (e : Ending) : withEnding cols e ≠ [] := by
  fun_cases withEnding cols e <;> simp

theorem intercalate_withEnding (cols : List Text) (e : Ending) :
    [','].intercalate (withEnding cols e) = [','].intercalate cols ++ e.text := by
  fun_induction withEnding cols e with
  | case1 e => rw [List.intercalate_singleton, List.intercalate_nil, List.nil_append]
  | case2 c e => rw [List.intercalate_singleton, List.intercalate_singleton]
  | case3 c d cols e ih =>
    rw [List.intercalate_cons_of_ne_nil (withEnding_ne _ e), ih, List.intercalate_cons_cons,
      List.append_assoc, List.append_assoc, List.append_assoc]

/-- What a string reader sees of columns: nothing behind the first NUL. -/
def cstrCols : List Text → List Text
  | [] => []
  | c :: cols => if '\x00' ∈ c then [cstr c] else c :: cstrCols cols

theorem cstr_intercalate (cols : List Text) :
    cstr ([','].intercalate cols) = [','].intercalate (cstrCols cols) := by
  induction cols with
  | nil => rfl
  | cons c cols ih =>
    rw [cstrCols]
    by_cases hnil : cols = []
    · rw [hnil, List.intercalate_singleton]
      split
      · rw [List.intercalate_singleton]
      · next h => rw [cstrCols, List.intercalate_singleton, cstr, cutAt_of_notMem h]
    · rw [List.intercalate_cons_of_ne_nil hnil]
      split
      · next h =>
        rw [List.append_assoc, cstr, cutAt_append_of_mem h, List.intercalate_singleton, cstr]
      · next h =>
        have hne : cstrCols cols ≠ [] := by
          obtain ⟨d, ds, rfl⟩ := List.exists_cons_of_ne_nil hnil
          rw [cstrCols]
          split <;> simp
        have hcomma : '\x00' ∉ c ++ [','] := by simpa using h
        rw [List.intercalate_cons_of_ne_nil hne, ← ih, cstr, cutAt_append_of_notMem hcomma, cstr]

theorem mem_cstrCols {cols : List Text} {p : Text} (h : p ∈ cstrCols cols) :
    ∃ c ∈ cols, p = c ∨ p = cstr c := by
  induction cols with
  | nil => exact absurd h List.not_mem_nil
  | cons c cols ih =>
    rw [cstrCols] at h
    split at h
    · exact ⟨c, List.mem_cons_self, Or.inr (List.mem_singleton.1 h)⟩
    · rcases List.mem_cons.1 h with rfl | h
      · exact ⟨p, List.mem_cons_self, Or.inl rfl⟩
      · obtain ⟨d, hd, hp⟩ := ih h
        exact ⟨d, List.mem_cons_of_mem c hd, hp⟩

theorem mem_withEnding {cols : List Text} {e : Ending} {p : Text} (h : p ∈ withEnding cols e) :
    p = e.text ∨ ∃ c ∈ cols, p = c ∨ p = c ++ e.text := by
  fun_induction withEnding cols e with
  | case1 e => exact Or.inl (List.mem_singleton.1 h)
  | case2 c e => exact Or.inr ⟨c, List.mem_cons_self, Or.inr (List.mem_singleton.1 h)⟩
  | case3 c d cols e ih =>
    rcases List.mem_cons.1 h with rfl | h
    · exact Or.inr ⟨p, List.mem_cons_self, Or.inl rfl⟩
    · rcases ih h with h | ⟨k, hk, hp⟩
      · exact Or.inl h
      · exact Or.inr ⟨k, List.mem_cons_of_mem c hk, hp⟩

/-- A line of the contacts file, without its line end. -/
structure ContactLine where
  cols : List Text
  plain : ∀ c ∈ cols, ',' ∉ c ∧ '\n' ∉ c

namespace ContactLine

variable (l : ContactLine) (e : Ending)

def content : Text :=
  [','].intercalate l.cols

/-- The line as it stands in the file. -/
def text : Text :=
  lineText (l.content, e)

/-- A column, empty if it is absent. -/
def col (i : Nat) : Text :=
  l.cols.getD i []

/-- There is a nickname and a SIP URI. -/
def Valid : Prop :=
  l.col 0 ≠ [] ∧ l.col 1 ≠ []

instance : Decidable l.Valid :=
  inferInstanceAs (Decidable (_ ∧ _))

/-- The contact the line stands for. -/
def row : List Text :=
  [l.col 0, l.col 1, l.col 2, l.col 3]

theorem comma_notMem_ending : ',' ∉ e.text :=
  notMem_ending (by decide) (by decide) e

theorem comma_notMem_cstrCols {p : Text} (hp : p ∈ cstrCols (withEnding l.cols e)) : ',' ∉ p := by
  obtain ⟨q, hq, hpq⟩ := mem_cstrCols hp
  have hq' : ',' ∉ q := by
    rcases mem_withEnding hq with rfl | ⟨c, hc, rfl | rfl⟩
    · exact comma_notMem_ending e
    · exact (l.plain q hc).1
    · simp [(l.plain c hc).1, comma_notMem_ending]
  rcases hpq with rfl | rfl
  · exact hq'
  · exact fun h => hq' (mem_of_mem_cutAt h)

/-- The tokens of a line are the columns in front of the first NUL that are not empty, the last one
with the line end behind it. -/
theorem tokensOf_text : tokensOf (l.text e) = (cstrCols (withEnding l.cols e)).filter (· ≠ []) := by
  have hne : cstrCols (withEnding l.cols e) ≠ [] := by
    obtain ⟨c, cols, hcols⟩ := List.exists_cons_of_ne_nil (withEnding_ne l.cols e)
    rw [hcols, cstrCols]
    split <;> simp
  rw [tokensOf, text, lineText, content, ← intercalate_withEnding, cstr_intercalate,
    tokens_intercalate (fun p hp => l.comma_notMem_cstrCols e hp) hne]

/-- No token is longer than the longest column. -/
theorem length_strip_le {n : Nat} (hcols : ∀ c ∈ l.cols, c.length ≤ n) {t : Text}
    (ht : t ∈ tokensOf (l.text e)) : (strip t).length ≤ n := by
  rw [tokensOf_text] at ht
  obtain ⟨p, hp, htp⟩ := mem_cstrCols (List.mem_of_mem_filter ht)
  have hprefix : ∀ c ∈ l.cols, ∀ t, t = c ++ e.text ∨ t = cstr (c ++ e.text) →
      (strip t).length ≤ n := by
    intro c hc t ht
    have hlen := hcols c hc
    have hlf := (l.plain c hc).2
    rcases ht with rfl | rfl
    · exact (length_stripEnd_append_ending_le hlf e).trans hlen
    · by_cases hnul : '\x00' ∈ c
      · rw [cstr, cutAt_append_of_mem hnul]
        exact ((length_stripEnd_le _).trans (length_cutAt_le _ _)).trans hlen
      · rw [cstr, cutAt_append_of_notMem hnul, cutAt_of_notMem (nul_notMem_ending e)]
        exact (length_stripEnd_append_ending_le hlf e).trans hlen
  rcases mem_withEnding hp with rfl | ⟨c, hc, rfl | rfl⟩
  · have hcut : cstr e.text = e.text := cutAt_of_notMem (nul_notMem_ending e)
    have hnil : strip e.text = [] := stripEnd_append_ending (t := []) (by simp) (by simp) e
    rcases htp with rfl | rfl
    · rw [hnil]
      exact Nat.zero_le n
    · rw [hcut, hnil]
      exact Nat.zero_le n
  · have hlen := hcols p hc
    rcases htp with rfl | rfl
    · exact (length_stripEnd_le _).trans hlen
    · exact ((length_stripEnd_le _).trans (length_cutAt_le _ _)).trans hlen
  · exact hprefix c hc t htp

end ContactLine

/-- The columns as the parser sees them, where there is no NUL and no carriage return up to
there. -/
theorem strip_getD_cstrCols {cols : List Text} (hlf : ∀ c ∈ cols, '\n' ∉ c) (e : Ending) {i : Nat}
    (h : ∀ j ≤ i, '\x00' ∉ cols.getD j [] ∧ '\r' ∉ cols.getD j []) :
    strip ((cstrCols (withEnding cols e)).getD i []) = cols.getD i [] := by
  induction cols generalizing i with
  | nil =>
    have hnil : strip e.text = [] := stripEnd_append_ending (t := []) (by simp) (by simp) e
    rw [withEnding, cstrCols, if_neg (nul_notMem_ending e), cstrCols]
    cases i with
    | zero => exact hnil
    | succ i => rfl
  | cons c cols ih =>
    obtain ⟨hnul, hcr⟩ := h 0 (Nat.zero_le i)
    rw [List.getD_cons_zero] at hnul hcr
    have hc := hlf c List.mem_cons_self
    cases cols with
    | nil =>
      have hnul' : '\x00' ∉ c ++ e.text := by simp [hnul, nul_notMem_ending]
      rw [withEnding, cstrCols, if_neg hnul', cstrCols]
      cases i with
      | zero => exact stripEnd_append_ending hcr hc e
      | succ i => rfl
    | cons d cols =>
      rw [withEnding, cstrCols, if_neg hnul]
      cases i with
      | zero => exact stripEnd_of_notMem hcr hc
      | succ i =>
        rw [List.getD_cons_succ, List.getD_cons_succ]
        refine ih (fun c hc => hlf c (List.mem_cons_of_mem _ hc)) fun j hj => ?_
        have hj' := h (j + 1) (Nat.succ_le_succ hj)
        rwa [List.getD_cons_succ] at hj'

/-- Two names behind the URI, of which empty ones are passed over. -/
theorem names_filter_iff {ps : List Text} {first last : Text}
    (hfirst : strip (ps.getD 0 []) = first) (hlast : strip (ps.getD 1 []) = last) :
    (strip ((ps.filter (· ≠ [])).getD 0 []) = first ∧
        strip ((ps.filter (· ≠ [])).getD 1 []) = last) ↔
      (first = [] → strip ((ps.filter (· ≠ [])).getD 0 []) = []) ∧
        (last = [] → strip ((ps.filter (· ≠ [])).getD 1 []) = []) := by
  have hnil : strip [] = [] := rfl
  refine ⟨fun h => ⟨fun hf => hf ▸ h.1, fun hl => hl ▸ h.2⟩, ?_⟩
  rintro ⟨h₂, h₃⟩
  cases ps with
  | nil => exact ⟨hfirst, hlast⟩
  | cons p ps =>
    rw [List.getD_cons_zero] at hfirst
    rw [List.getD_cons_succ] at hlast
    have hq : ps.getD 0 [] ≠ [] → (ps.filter (· ≠ [])).getD 0 [] = ps.getD 0 [] := fun hne => by
      cases ps with
      | nil => exact absurd rfl hne
      | cons q ps => rw [List.filter_cons_of_pos (by simpa using hne)]; rfl
    by_cases hp : p = []
    · rw [List.filter_cons_of_neg (by simp [hp])] at h₂ h₃ ⊢
      rw [hp, hnil] at hfirst
      by_cases hl : last = []
      · rw [← hfirst, hl]
        exact ⟨h₂ hfirst.symm, h₃ hl⟩
      · -- The last name would be taken for the first.
        have hne : ps.getD 0 [] ≠ [] := fun h => hl (by rw [← hlast, h, hnil])
        rw [hq hne, hlast] at h₂
        exact absurd (h₂ hfirst.symm) hl
    · rw [List.filter_cons_of_pos (by simpa using hp)] at h₂ h₃ ⊢
      rw [List.getD_cons_zero, List.getD_cons_succ]
      rw [List.getD_cons_succ] at h₃
      refine ⟨hfirst, ?_⟩
      by_cases hl : last = []
      · rw [h₃ hl, hl]
      · have hne : ps.getD 0 [] ≠ [] := fun h => hl (by rw [← hlast, h, hnil])
        rw [hq hne, hlast]

/-- Empty pieces are passed over, so that a line is stored as it says only if nothing takes the
place of an empty name. -/
theorem rowOf_filter_iff {ps : List Text} {c : Nat → Text}
    (hps : ∀ i < 4, strip (ps.getD i []) = c i) (h₀ : c 0 ≠ []) (h₁ : c 1 ≠ []) :
    rowOf (ps.filter (· ≠ [])) = some [c 0, c 1, c 2, c 3] ↔
      ∀ i, i = 2 ∨ i = 3 → c i = [] → strip ((ps.filter (· ≠ [])).getD i []) = [] := by
  have hnil : strip [] = [] := rfl
  have hne : ∀ i < 4, c i ≠ [] → ps.getD i [] ≠ [] := fun i hi hc h => by
    rw [← hps i hi, h, hnil] at hc
    exact hc rfl
  have hne₀ := hne 0 (by omega) h₀
  have hne₁ := hne 1 (by omega) h₁
  rcases ps with _ | ⟨p₀, _ | ⟨p₁, ps⟩⟩
  · exact absurd rfl hne₀
  · exact absurd rfl hne₁
  · have h₂ := hps 2 (by omega)
    have h₃ := hps 3 (by omega)
    have hnames := names_filter_iff h₂ h₃
    have hp₀ : strip p₀ = c 0 := hps 0 (by omega)
    have hp₁ : strip p₁ = c 1 := hps 1 (by omega)
    rw [List.filter_cons_of_pos (by simpa using hne₀),
      List.filter_cons_of_pos (by simpa using hne₁), rowOf, if_pos (by simp)]
    simp only [List.getD_cons_zero, List.getD_cons_succ, hp₀, hp₁, Option.some.injEq,
      List.cons.injEq, true_and, and_true]
    rw [hnames]
    simp only [forall_eq_or_imp, forall_eq, List.getD_cons_succ]

/-! ## The file -/

/-- A contacts file whose lines are each read in one go, with columns that fit their fields and no
more contacts than the table has slots. -/
structure ContactFile where
  lines : List (ContactLine × Ending)
  terminated : Terminated lines
  fits : ∀ l ∈ lines, (l.1.text l.2).length ≤ 511
  fields : ∀ l ∈ lines, ∀ c ∈ l.1.cols, c.length ≤ 127
  atMost : lines.countP (fun l => l.1.Valid) ≤ 20

namespace ContactFile

variable (f : ContactFile)

def text : Text :=
  f.lines.flatMap fun l => l.1.text l.2

/-- The lines that stand for a contact. -/
def valid : List (ContactLine × Ending) :=
  f.lines.filter fun l => l.1.Valid

end ContactFile

theorem ContactLine.newline_notMem_content (l : ContactLine) : '\n' ∉ l.content := by
  rw [content]
  have : ∀ cols : List Text, (∀ c ∈ cols, '\n' ∉ c) → '\n' ∉ [','].intercalate cols := by
    intro cols hcols
    induction cols with
    | nil => simp
    | cons c cols ih =>
      have hc := hcols c List.mem_cons_self
      have hrec := ih fun d hd => hcols d (List.mem_cons_of_mem c hd)
      by_cases hnil : cols = []
      · rwa [hnil, List.intercalate_singleton]
      · rw [List.intercalate_cons_of_ne_nil hnil]
        simp [hc, hrec]
  exact this l.cols fun c hc => (l.plain c hc).2

/-- An empty read does nothing. -/
theorem readContacts_filter (rs : List Text) (b : Addressbook) :
    readContacts (rs.filter (· ≠ [])) b = readContacts rs b := by
  induction rs generalizing b with
  | nil => rfl
  | cons r rs ih =>
    by_cases hr : r = []
    · have hread : readContact r b = pure b := by
        rw [readContact_eq, readTokens, hr, if_pos (by decide)]
      rw [List.filter_cons_of_neg (by simp [hr]), ih, readContacts, hread, pure_bind]
    · rw [List.filter_cons_of_pos (by simpa using hr), readContacts, readContacts]
      exact bind_congr fun b' => ih b'

/-- The parser reads the lines of the file. -/
theorem ContactFile.readContacts_text (f : ContactFile) (b : Addressbook) :
    readContacts (reads 511 f.text) b =
      readContacts (f.lines.map fun l => l.1.text l.2) b := by
  have hreads : reads 511 f.text = f.lines.flatMap fun l => pieces 511 (l.1.text l.2) :=
    reads_lines ContactLine.content (by omega) f.terminated fun l _ => l.1.newline_notMem_content
  have hfit : ∀ t ∈ f.lines.map (fun l => l.1.text l.2), t.length ≤ 511 := fun t ht => by
    obtain ⟨l, hl, rfl⟩ := List.mem_map.1 ht
    exact f.fits l hl
  have hfilter := flatMap_pieces hfit
  rw [List.flatMap_map] at hfilter
  rw [hreads, hfilter, readContacts_filter]

/-- After the parser the table lists the contacts of the file, each in its place. -/
def ReadsContacts (f : ContactFile) : Prop :=
  ∃ r, parseAddressbook (some f.text) = .ok r ∧ r.1.maxContact = f.valid.length ∧
    r.1.rows = f.valid.map fun l => l.1.row

/-- A line with a contact that is stored as it says. -/
structure ContactLine.Kept (l : ContactLine) (e : Ending) : Prop where
  /-- Nothing cuts the four columns short. -/
  plain : ∀ i < 4, '\x00' ∉ l.col i ∧ '\r' ∉ l.col i
  /-- Nothing but a line end takes the place of an empty name. -/
  names : ∀ i, i = 2 ∨ i = 3 → l.col i = [] → strip ((tokensOf (l.text e)).getD i []) = []

/-- What it takes for the table to list the file. -/
structure ContactsPlain (f : ContactFile) : Prop where
  valid : ∀ l ∈ f.lines, l.1.Valid → l.1.Kept l.2
  /-- A line without a contact has no two columns that `strtok` finds. -/
  invalid : ∀ l ∈ f.lines, ¬ l.1.Valid → ¬ Stored (l.1.text l.2)
  /-- With 20 contacts read there is nothing more in the file. -/
  full : ∀ front l back, f.lines = front ++ l :: back → tokensOf (l.1.text l.2) ≠ [] →
    front.countP (fun l => l.1.Valid) < 20

theorem ContactLine.rowOf_iff {l : ContactLine} {e : Ending} (hvalid : l.Valid)
    (hplain : ∀ i < 4, '\x00' ∉ l.col i ∧ '\r' ∉ l.col i) :
    rowOf (tokensOf (l.text e)) = some l.row ↔
      ∀ i, i = 2 ∨ i = 3 → l.col i = [] → strip ((tokensOf (l.text e)).getD i []) = [] := by
  rw [tokensOf_text]
  refine rowOf_filter_iff (fun i hi => ?_) hvalid.1 hvalid.2
  exact strip_getD_cstrCols (fun c hc => (l.plain c hc).2) e fun j hj => hplain j (by omega)

theorem rowOf_eq_none_iff {buffer : Text} : rowOf (tokensOf buffer) = none ↔ ¬ Stored buffer := by
  rw [rowOf, Stored]
  split
  · next h => simp [h]
  · next h => simp [h]

/-- A stored field has neither a NUL nor a carriage return. -/
theorem plain_of_mem_rowOf {buffer : Text} {row : List Text}
    (h : rowOf (tokensOf buffer) = some row) {field : Text} (hfield : field ∈ row) :
    '\x00' ∉ field ∧ '\r' ∉ field := by
  have hstrip : ∀ i, '\x00' ∉ strip ((tokensOf buffer).getD i []) ∧
      '\r' ∉ strip ((tokensOf buffer).getD i []) := by
    intro i
    refine ⟨fun hnul => ?_, cr_notMem_stripEnd _⟩
    have hmem := mem_of_mem_stripEnd hnul
    rw [List.getD_eq_getElem?_getD] at hmem
    cases hget : (tokensOf buffer)[i]? with
    | none => simp [hget] at hmem
    | some t =>
      rw [hget, Option.getD_some] at hmem
      exact notMem_cutAt '\x00' buffer (mem_of_mem_tokens (List.mem_of_getElem? hget) hmem)
  rw [rowOf] at h
  split at h
  · rw [Option.some.injEq] at h
    rw [← h] at hfield
    simp only [List.mem_cons, List.not_mem_nil, or_false] at hfield
    rcases hfield with rfl | rfl | rfl | rfl
    · exact hstrip 0
    · exact hstrip 1
    · exact hstrip 2
    · exact hstrip 3
  · simp at h

/-- A line with a nickname and a URI in front of any NUL keeps its slot. -/
theorem ContactLine.stored_of_valid {l : ContactLine} {e : Ending} (hvalid : l.Valid)
    (hplain : ∀ i < 4, '\x00' ∉ l.col i ∧ '\r' ∉ l.col i) : Stored (l.text e) := by
  have hne : ∀ i < 2, l.col i ≠ [] → (cstrCols (withEnding l.cols e)).getD i [] ≠ [] := by
    intro i hi hcol hnil
    have hstrip := strip_getD_cstrCols (fun c hc => (l.plain c hc).2) e (i := i)
      fun j hj => hplain j (by omega)
    rw [hnil] at hstrip
    exact hcol hstrip.symm
  have hne₀ := hne 0 (by omega) hvalid.1
  have hne₁ := hne 1 (by omega) hvalid.2
  rw [Stored, tokensOf_text]
  clear hne
  generalize cstrCols (withEnding l.cols e) = ps at hne₀ hne₁ ⊢
  rcases ps with _ | ⟨p₀, _ | ⟨p₁, ps⟩⟩
  · exact absurd rfl hne₀
  · exact absurd rfl hne₁
  · rw [List.filter_cons_of_pos (by simpa using hne₀),
      List.filter_cons_of_pos (by simpa using hne₁)]
    simp

theorem clean_empty : Addressbook.Clean {} := by
  intro con hcon
  have hmem := List.mem_of_mem_drop hcon
  rw [Vector.toList_replicate, List.mem_replicate] at hmem
  rw [hmem.2]
  exact ⟨rfl, rfl, rfl⟩

/-- What the lines of a file put into the table, one after the other. -/
theorem ContactFile.rows_of_readContacts {f : ContactFile} {b : Addressbook}
    (h : readContacts (f.lines.map fun l => l.1.text l.2) {} = .ok b) :
    b.rows = f.lines.flatMap fun l => (rowOf (tokensOf (l.1.text l.2))).toList := by
  rw [rows_readContacts clean_empty h, List.filterMap_map, List.filterMap_eq_flatMap_toList]
  rfl

theorem ContactFile.map_row_valid (f : ContactFile) :
    (f.valid.map fun l => l.1.row) =
      f.lines.flatMap fun l => if l.1.Valid then [l.1.row] else [] := by
  rw [valid]
  induction f.lines with
  | nil => rfl
  | cons l ls ih =>
    rw [List.flatMap_cons, ← ih]
    by_cases hl : l.1.Valid
    · rw [List.filter_cons_of_pos (by simpa using hl), if_pos hl]
      rfl
    · rw [List.filter_cons_of_neg (by simpa using hl), if_neg hl]
      rfl

theorem Addressbook.length_rows {b : Addressbook} (h : b.maxContact ≤ 20) :
    b.rows.length = b.maxContact := by
  rw [rows, List.length_map, List.length_take, Vector.length_toList, min_eq_left h]

/-- There is room for each line as long as there is room for the contacts. -/
theorem ContactFile.roomFor_iff {f : ContactFile}
    (h : ∀ l ∈ f.lines, Stored (l.1.text l.2) ↔ l.1.Valid) :
    RoomFor (f.lines.map fun l => l.1.text l.2) 0 ↔
      ∀ front l back, f.lines = front ++ l :: back → tokensOf (l.1.text l.2) ≠ [] →
        front.countP (fun l => l.1.Valid) < 20 := by
  have hcount : ∀ front : List (ContactLine × Ending), (∀ l ∈ front, l ∈ f.lines) →
      (front.map fun l => l.1.text l.2).countP (Stored ·) = front.countP fun l => l.1.Valid := by
    intro front hfront
    rw [List.countP_map]
    exact List.countP_congr fun l hl => by simpa using h l (hfront l hl)
  constructor
  · intro hroom front l back heq hne
    have hfront : ∀ m ∈ front, m ∈ f.lines := fun m hm => heq ▸ List.mem_append_left _ hm
    have := hroom (front.map fun l => l.1.text l.2) (l.1.text l.2) (back.map fun l => l.1.text l.2)
      (by rw [heq, List.map_append, List.map_cons]) hne
    rwa [hcount front hfront, Nat.zero_add] at this
  · intro hfull front buffer back heq hne
    obtain ⟨front, rest, hls, rfl, hrest⟩ := List.map_eq_append_iff.1 heq
    obtain ⟨l, back, rfl, rfl, -⟩ := List.map_eq_cons_iff.1 hrest
    have hfront : ∀ m ∈ front, m ∈ f.lines := fun m hm => hls ▸ List.mem_append_left _ hm
    rw [hcount front hfront, Nat.zero_add]
    exact hfull front l back hls hne

theorem readsContacts_iff_exists {f : ContactFile} :
    ReadsContacts f ↔ ∃ b, readContacts (f.lines.map fun l => l.1.text l.2) {} = .ok b ∧
      b.maxContact = f.valid.length ∧ b.rows = f.valid.map fun l => l.1.row := by
  rw [ReadsContacts, parseAddressbook, f.readContacts_text]
  simp only [bind_eq_ok, pure_eq_ok]
  constructor
  · rintro ⟨r, ⟨b, hb, rfl⟩, hrest⟩
    exact ⟨b, hb, hrest⟩
  · rintro ⟨b, hb, hrest⟩
    exact ⟨(b, true), ⟨b, hb, rfl⟩, hrest⟩

section Line

variable {l : ContactLine} {e : Ending}
  (hplain : l.Valid → ∀ i < 4, '\x00' ∉ l.col i ∧ '\r' ∉ l.col i)

include hplain in
/-- With plain columns a line stores what it should exactly if it is kept, or has nothing to
store. -/
theorem ContactLine.toList_rowOf_iff :
    (rowOf (tokensOf (l.text e))).toList = (if l.Valid then [l.row] else []) ↔
      (l.Valid → l.Kept e) ∧ (¬ l.Valid → ¬ Stored (l.text e)) := by
  by_cases hvalid : l.Valid
  · rw [if_pos hvalid, Option.toList_eq_singleton_iff, rowOf_iff hvalid (hplain hvalid)]
    exact ⟨fun h => ⟨fun _ => ⟨hplain hvalid, h⟩, fun hnot => absurd hvalid hnot⟩,
      fun h => (h.1 hvalid).names⟩
  · rw [if_neg hvalid, Option.toList_eq_nil_iff, rowOf_eq_none_iff]
    exact ⟨fun h => ⟨fun hval => absurd hval hvalid, fun _ => h⟩, fun h => h.2 hvalid⟩

include hplain in
theorem ContactLine.length_row_le :
    (if l.Valid then [l.row] else []).length ≤ (rowOf (tokensOf (l.text e))).toList.length := by
  by_cases hvalid : l.Valid
  · have hst : Stored (l.text e) := stored_of_valid hvalid (hplain hvalid)
    rw [if_pos hvalid]
    cases hrow : rowOf (tokensOf (l.text e)) with
    | none => exact absurd hst (rowOf_eq_none_iff.1 hrow)
    | some row => exact le_rfl
  · rw [if_neg hvalid]
    exact Nat.zero_le _

include hplain in
theorem ContactLine.stored_iff_valid (hinvalid : ¬ l.Valid → ¬ Stored (l.text e)) :
    Stored (l.text e) ↔ l.Valid :=
  ⟨fun h => by_contra fun hvalid => hinvalid hvalid h,
    fun h => stored_of_valid h (hplain h)⟩

end Line

/-- What is stored of a line has no NUL and no CR in it. -/
theorem ContactFile.plain_of_rows {f : ContactFile}
    (hrows : (f.lines.flatMap fun l => (rowOf (tokensOf (l.1.text l.2))).toList) =
      f.valid.map fun l => l.1.row) {l : ContactLine × Ending} (hl : l ∈ f.lines)
    (hvalid : l.1.Valid) : ∀ i < 4, '\x00' ∉ l.1.col i ∧ '\r' ∉ l.1.col i := by
  intro i hi
  have hmem : l.1.row ∈ f.valid.map fun l => l.1.row :=
    List.mem_map.2 ⟨l, List.mem_filter.2 ⟨hl, by simpa using hvalid⟩, rfl⟩
  rw [← hrows, List.mem_flatMap] at hmem
  obtain ⟨m, -, hm⟩ := hmem
  refine plain_of_mem_rowOf (Option.mem_toList.1 hm) ?_
  interval_cases i <;> simp [ContactLine.row]

/-- The columns of such a file fit their fields. -/
theorem ContactFile.fieldsFit (f : ContactFile) :
    ∀ buffer ∈ f.lines.map fun l => l.1.text l.2, FieldsFit buffer := by
  intro buffer hbuffer t ht
  obtain ⟨l, hl, rfl⟩ := List.mem_map.1 hbuffer
  have := l.1.length_strip_le l.2 (f.fields l hl) (List.mem_of_mem_take ht)
  omega

/-- **The table lists the contacts of the file if and only if the file is plain.** -/
theorem readsContacts_iff (f : ContactFile) : ReadsContacts f ↔ ContactsPlain f := by
  rw [readsContacts_iff_exists]
  constructor
  · rintro ⟨b, hb, -, hrows⟩
    rw [ContactFile.rows_of_readContacts hb] at hrows
    have hplain := fun l hl => ContactFile.plain_of_rows hrows (l := l) hl
    rw [f.map_row_valid,
      flatMap_eq_iff fun l hl => ContactLine.length_row_le (hplain l hl)] at hrows
    have hlines := fun l hl => (ContactLine.toList_rowOf_iff (hplain l hl)).1 (hrows l hl)
    have hstored := fun l hl => ContactLine.stored_iff_valid (hplain l hl) (hlines l hl).2
    exact ⟨fun l hl => (hlines l hl).1, fun l hl => (hlines l hl).2,
      (ContactFile.roomFor_iff hstored).1 (exists_readContacts_iff.1 ⟨b, hb⟩).2⟩
  · intro h
    have hplain : ∀ l ∈ f.lines, l.1.Valid → ∀ i < 4, '\x00' ∉ l.1.col i ∧ '\r' ∉ l.1.col i :=
      fun l hl hvalid => (h.valid l hl hvalid).plain
    have hstored := fun l hl => ContactLine.stored_iff_valid (hplain l hl) (h.invalid l hl)
    obtain ⟨b, hb⟩ := (exists_readContacts_iff (b := {})).2
      ⟨f.fieldsFit, (ContactFile.roomFor_iff hstored).2 h.full⟩
    have hrows : b.rows = f.valid.map fun l => l.1.row := by
      rw [ContactFile.rows_of_readContacts hb, f.map_row_valid]
      refine List.flatMap_congr fun l hl => ?_
      exact (ContactLine.toList_rowOf_iff (hplain l hl)).2 ⟨h.valid l hl, h.invalid l hl⟩
    refine ⟨b, hb, ?_, hrows⟩
    rw [← Addressbook.length_rows (maxContact_readContacts_le hb (Nat.zero_le 20)), hrows,
      List.length_map]

/-- A file of the one line `n,u,,l`, which has no first name. -/
def namelessFile : ContactFile where
  lines := [(⟨[['n'], ['u'], [], ['l']], by decide⟩, .lf)]
  terminated := by simp [Terminated]
  fits := by decide
  fields := by decide
  atMost := by decide

/-- The last name is stored as the first. -/
theorem not_readsContacts : ¬ ReadsContacts namelessFile := by
  rw [readsContacts_iff_exists]
  rintro ⟨b, hb, -, hrows⟩
  rw [ContactFile.rows_of_readContacts hb] at hrows
  exact absurd hrows (by decide)

end Furikup
