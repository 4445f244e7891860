import Furikup.Lib.Scan
import Furikup.Engine

/-!
# The presence document

`update_presence` writes the presence of the user into a document that names him twice, and
`parse_presence` reads a presence off a document by looking for words anywhere in it.

* `presenceDocument` and `parsePresence` — the two functions.
* `parsePresence_document` — **what is read**, in terms of what a scan of the user's own URI finds.
* `presence_roundTrip_iff` — **when that is what was written**: unless the URI has one of the words
  the parser looks for, and then only by coincidence.
-/

set_option autoImplicit false

namespace Furikup

open CText Scan

/-! ## The presence states -/

/-- The `SUI_PRESENCE_*` constants. -/
inductive Presence
  | offline
  | online
  | busy
  | away
  | onPhone
  deriving DecidableEq, Repr

def Presence.code : Presence → Int
  | offline => 0
  | online => 1
  | busy => 2
  | away => 3
  | onPhone => 4

/-- The state an `int` stands for, if it is one of the cases of the switch. -/
def Presence.ofCode (status : Int) : Option Presence :=
  [offline, online, busy, away, onPhone].find? fun p => p.code == status

@[simp] theorem Presence.ofCode_code (status : Presence) : ofCode status.code = some status := by
  cases status <;> rfl

theorem Presence.ofCode_eq_none {status : Int} :
    ofCode status = none ↔ status < 0 ∨ 4 < status := by
  simp only [ofCode, List.find?_eq_none, List.forall_mem_cons, code, beq_iff_eq]
  constructor
  · rintro ⟨h₀, h₁, h₂, h₃, h₄, -⟩
    omega
  · intro h
    exact ⟨by omega, by omega, by omega, by omega, by omega, by simp⟩

/-! ## The writer -/

/-- `config_get_user_uri` -/
def userUri (user server : Buf 128) : Text :=
  lit "sip:" ++ user.text ++ lit "@" ++ server.text

def stateText (status : Presence) : Text :=
  if status = .offline then lit "closed" else lit "open"

/-- The element all activities are written in. -/
def activities (activity : Text) : Text :=
  lit "<es:activities>\n  <es:activity>" ++ activity ++
    lit "</es:activity>\n</es:activities>\n"

/-- The piece `activity`, empty where the source leaves it unassigned. -/
def activityText : Presence → Text
  | .offline => activities (lit "permanent-absence")
  | .online => []
  | .busy => activities (lit "busy")
  | .away => activities (lit "away")
  | .onPhone => activities (lit "on-the-phone")

/-- The piece `note`, empty where the source leaves it unassigned. -/
def noteText : Presence → Text
  | .offline => []
  | .online => lit "<note>online</note>\n"
  | .busy => lit "<note>busy</note>\n"
  | .away => lit "<note>away</note>\n"
  | .onPhone => lit "<note>On the phone</note>\n"

/-! The format of `update_presence`, in parts: what it has between its conversions, with what the
conversions print. -/

/-- The document up to the first URI. -/
def documentHead : Text :=
  lit "<?xml version=\"1.0\" encoding=\"UTF-8\"?>\n" ++
  lit "<presence xmlns=\"urn:ietf:params:xml:ns:pidf\"\n" ++
  lit "          xmlns:es=\"urn:ietf:params:xml:ns:pidf:status:rpid-status\"\n" ++
  lit "          entity=\""

/-- From behind the first URI up to the state. -/
def documentTuple : Text :=
  lit "\">\n" ++ lit "<tuple id=\"sg89ae\">\n" ++ lit "<status>\n" ++ lit "<basic>"

/-- From the activity on up to the second URI. -/
def documentStatus (status : Presence) : Text :=
  activityText status ++ (lit "</status>\n" ++ lit "<contact priority=\"0.8\">")

/-- What follows the second URI. -/
def documentFoot (status : Presence) : Text :=
  lit "</contact>\n" ++ (noteText status ++ (lit "</tuple>\n" ++ lit "</presence>"))

/-- From the state on. -/
def documentState (uri : Text) (status : Presence) : Text :=
  stateText status ++ (lit "</basic>\n" ++ (documentStatus status ++ (uri ++ documentFoot status)))

def presenceText (uri : Text) (status : Presence) : Text :=
  documentHead ++ (uri ++ (documentTuple ++ documentState uri status))

/-- What `update_presence` leaves in the 5000 bytes of `buf`. -/
def presenceDocument (user server : Buf 128) (status : Presence) : Text :=
  snprintf 5000 (presenceText (userUri user server) status)

/-! ## The reader -/

/-- `osip_strncasecmp` of two strings gives 0. -/
def osipStrncasecmp (s t : Text) (len : Nat) : Bool :=
  (s.take len).map Char.toLower == (t.take len).map Char.toLower

/-- The inner loop of `parse_presence`, which goes on where "open" was found. -/
def parseActivity : Text → Presence
  | [] => .offline
  | c :: tmp =>
    if c = 'a' ∧ osipStrncasecmp (c :: tmp) (lit "away") 4 then .away
    else if c = 'b' ∧ osipStrncasecmp (c :: tmp) (lit "busy") 4 then .busy
    else if c = 'o' ∧ osipStrncasecmp (c :: tmp) (lit "on-the-phone") 12 then .onPhone
    else if c = '/' ∧ osipStrncasecmp (c :: tmp) (lit "/status") 7 then .online
    else parseActivity tmp

/-- The outer loop of `parse_presence`. -/
def parseState : Text → Presence
  | [] => .offline
  | c :: tmp =>
    if c = 'o' ∧ osipStrncasecmp (c :: tmp) (lit "open") 4 then parseActivity (c :: tmp)
    else if c = 'c' ∧ osipStrncasecmp (c :: tmp) (lit "closed") 6 then .offline
    else parseState tmp

def parsePresence : Option Text → Presence
  | some body => parseState body
  | none => .offline

/-! ## What the reader looks for -/

/-- The two words of the outer loop, and whether they mean that the state is open. -/
def stateAt : Text → Option Bool :=
  keywordAt Char.toLower [(lit "open", true), (lit "closed", false)]

/-- The four words of the inner loop. -/
def activityAt : Text → Option Presence :=
  keywordAt Char.toLower
    [(lit "away", .away), (lit "busy", .busy), (lit "on-the-phone", .onPhone),
      (lit "/status", .online)]

/-- The test the loops make for a word: its first character as it is, then as many as it has. -/
theorem startsWith_word {k : Text} {a : Char} {n : Nat} (hhead : k.head? = some a)
    (hlen : k.length = n) (c : Char) (tmp : Text) :
    startsWith Char.toLower k (c :: tmp) =
      decide (c = a ∧ osipStrncasecmp (c :: tmp) k n = true) := by
  rw [startsWith, osipStrncasecmp, hhead, ← hlen, List.take_length, Bool.decide_and,
    Bool.decide_eq_true, List.head?_cons]
  congr 1

theorem activityAt_cons (c : Char) (tmp : Text) :
    activityAt (c :: tmp) =
      if c = 'a' ∧ osipStrncasecmp (c :: tmp) (lit "away") 4 then some .away
      else if c = 'b' ∧ osipStrncasecmp (c :: tmp) (lit "busy") 4 then some .busy
      else if c = 'o' ∧ osipStrncasecmp (c :: tmp) (lit "on-the-phone") 12 then some .onPhone
      else if c = '/' ∧ osipStrncasecmp (c :: tmp) (lit "/status") 7 then some .online
      else none := by
  have haway : (lit "away").head? = some 'a' ∧ (lit "away").length = 4 := by simp [lit]
  have hbusy : (lit "busy").head? = some 'b' ∧ (lit "busy").length = 4 := by simp [lit]
  have hphone : (lit "on-the-phone").head? = some 'o' ∧ (lit "on-the-phone").length = 12 := by
    simp [lit]
  have hstatus : (lit "/status").head? = some '/' ∧ (lit "/status").length = 7 := by simp [lit]
  simp only [activityAt, keywordAt_cons, keywordAt_nil, startsWith_word haway.1 haway.2,
    startsWith_word hbusy.1 hbusy.2, startsWith_word hphone.1 hphone.2,
    startsWith_word hstatus.1 hstatus.2, decide_eq_true_eq]

theorem stateAt_cons (c : Char) (tmp : Text) :
    stateAt (c :: tmp) =
      if c = 'o' ∧ osipStrncasecmp (c :: tmp) (lit "open") 4 then some true
      else if c = 'c' ∧ osipStrncasecmp (c :: tmp) (lit "closed") 6 then some false
      else none := by
  have hopen : (lit "open").head? = some 'o' ∧ (lit "open").length = 4 := by simp [lit]
  have hclosed : (lit "closed").head? = some 'c' ∧ (lit "closed").length = 6 := by simp [lit]
  simp only [stateAt, keywordAt_cons, keywordAt_nil, startsWith_word hopen.1 hopen.2,
    startsWith_word hclosed.1 hclosed.2, decide_eq_true_eq]

/-- The characters of the markup that the text is cut at. -/
def marks : List Char := ['"', '<', '>', '\n']

/-- None of the words has one of them. -/
theorem stateAt_blind {d : Char} (hd : d ∈ marks) : Blind stateAt d := by
  have hwords : ∀ d ∈ marks, Avoids Char.toLower d (lit "open") ∧
      Avoids Char.toLower d (lit "closed") := by
    simp [marks, Avoids, lit]
  obtain ⟨hopen, hclosed⟩ := hwords d hd
  apply keywordAt_blind
  simp [hopen, hclosed]

theorem activityAt_blind {d : Char} (hd : d ∈ marks) : Blind activityAt d := by
  have hwords : ∀ d ∈ marks, Avoids Char.toLower d (lit "away") ∧
      Avoids Char.toLower d (lit "busy") ∧ Avoids Char.toLower d (lit "on-the-phone") ∧
      Avoids Char.toLower d (lit "/status") := by
    simp [marks, Avoids, lit]
  obtain ⟨haway, hbusy, hphone, hstatus⟩ := hwords d hd
  apply keywordAt_blind
  simp [haway, hbusy, hphone, hstatus]

/-- The inner loop is a scan for the activity. -/
theorem parseActivity_eq (t : Text) : parseActivity t = (found activityAt t).getD .offline := by
  induction t with
  | nil =>
    have hnil : activityAt [] = none := (activityAt_blind (d := '"') (by decide)).nil
    rw [parseActivity, found, scan, hnil]
    rfl
  | cons c tmp ih =>
    rw [parseActivity, ih, found, found, scan, activityAt_cons]
    split_ifs
    · rfl
    · rfl
    · rfl
    · rfl
    · rfl

/-- The outer loop is a scan for the state, and behind an open one a scan for the activity. -/
theorem parseState_eq (t : Text) :
    parseState t =
      match scan stateAt t with
      | some (true, r) => (found activityAt r).getD .offline
      | some (false, _) => .offline
      | none => .offline := by
  induction t with
  | nil =>
    have hnil : stateAt [] = none := (stateAt_blind (d := '"') (by decide)).nil
    rw [parseState, scan, hnil]
    rfl
  | cons c tmp ih =>
    rw [parseState, ih, scan, stateAt_cons]
    split_ifs
    · rw [parseActivity_eq]
      rfl
    · rfl
    · rfl

/-! ## What it finds in the document -/

theorem length_stateText (status : Presence) : (stateText status).length ≤ 6 := by
  rw [stateText]
  split <;> simp [lit]

theorem length_activityText (status : Presence) : (activityText status).length ≤ 90 := by
  cases status with
  | online => simp [activityText]
  | offline | busy | away | onPhone =>
    rw [activityText, activities, lit_ofList, lit_ofList, lit_ofList]
    decide +kernel

theorem length_noteText (status : Presence) : (noteText status).length ≤ 40 := by
  cases status with
  | offline => simp [noteText]
  | online | busy | away | onPhone =>
    rw [noteText, lit_ofList]
    decide +kernel

theorem length_presenceText (uri : Text) (status : Presence) :
    (presenceText uri status).length ≤ 2 * uri.length + 600 := by
  have hstate := length_stateText status
  have hactivity := length_activityText status
  have hnote := length_noteText status
  have hhead : documentHead.length ≤ 200 := by
    rw [documentHead, lit_ofList, lit_ofList, lit_ofList, lit_ofList]
    decide +kernel
  have htuple : documentTuple.length ≤ 50 := by simp [documentTuple, lit]
  have hbasic : (lit "</basic>\n").length ≤ 10 := by simp [lit]
  have hcontact : (lit "</status>\n").length ≤ 10 ∧
      (lit "<contact priority=\"0.8\">").length ≤ 40 := by
    simp [lit]
  have hend : (lit "</contact>\n").length ≤ 15 ∧ (lit "</tuple>\n").length ≤ 10 ∧
      (lit "</presence>").length ≤ 15 := by
    simp [lit]
  simp only [presenceText, documentState, documentStatus, documentFoot, List.length_append]
  omega

theorem length_userUri (user server : Buf 128) : (userUri user server).length < 260 := by
  have hsip : (lit "sip:").length = 4 := by simp [lit]
  have hat : (lit "@").length = 1 := by simp [lit]
  have huser := user.fits
  have hserver := server.fits
  simp only [userUri, List.length_append]
  omega

/-- The document is never cut off. -/
theorem presenceDocument_eq (user server : Buf 128) (status : Presence) :
    presenceDocument user server status = presenceText (userUri user server) status := by
  have huri := length_userUri user server
  have htext := length_presenceText (userUri user server) status
  exact snprintf_of_lt (by omega)

/-- What stands for itself in the part from the activity on: a line for the states that have one,
and "/status" for the others. -/
def shown : Presence → Presence
  | .offline => .online
  | status => status

theorem found_documentStatus (status : Presence) :
    found activityAt (documentStatus status) = some (shown status) := by
  cases status with
  | offline =>
    rw [documentStatus, activityText, activities, lit_ofList, lit_ofList, lit_ofList, lit_ofList,
      lit_ofList]
    decide +kernel
  | online =>
    rw [documentStatus, activityText, lit_ofList, lit_ofList]
    decide +kernel
  | busy =>
    rw [documentStatus, activityText, activities, lit_ofList, lit_ofList, lit_ofList, lit_ofList,
      lit_ofList]
    decide +kernel
  | away =>
    rw [documentStatus, activityText, activities, lit_ofList, lit_ofList, lit_ofList, lit_ofList,
      lit_ofList]
    decide +kernel
  | onPhone =>
    rw [documentStatus, activityText, activities, lit_ofList, lit_ofList, lit_ofList, lit_ofList,
      lit_ofList]
    decide +kernel

theorem found_documentState (uri : Text) (status : Presence) :
    found activityAt (documentState uri status) = some (shown status) := by
  have hquote : '"' ∈ marks ∧ '<' ∈ marks ∧ '>' ∈ marks ∧ '\n' ∈ marks := by decide
  have hstate : found activityAt (stateText status) = none := by
    rw [stateText, lit_ofList, lit_ofList]
    split <;> decide +kernel
  have hbasic : found activityAt (lit "</basic>\n") = none := by
    rw [lit_ofList]
    decide +kernel
  have hhead : (lit "</basic>\n" ++ (documentStatus status ++
      (uri ++ documentFoot status))).head? = some '<' := by
    simp [lit]
  have hlast : (lit "</basic>\n").getLast? = some '\n' := by simp [lit]
  have hlast' : (documentStatus status).getLast? = some '>' := by
    simp [documentStatus, lit]
  rw [documentState, found_append_of_head (activityAt_blind hquote.2.1) _ hhead, hstate,
    found_append_of_getLast (activityAt_blind hquote.2.2.2) hlast, hbasic,
    found_append_of_getLast (activityAt_blind hquote.2.2.1) hlast', found_documentStatus]
  rfl

theorem scan_documentState (uri : Text) (status : Presence) :
    scan stateAt (documentState uri status) =
      some (decide (status ≠ .offline), documentState uri status) := by
  have hmark : '<' ∈ marks := by decide
  have hstate : scan stateAt (stateText status) =
      some (decide (status ≠ .offline), stateText status) := by
    rw [stateText, lit_ofList, lit_ofList]
    cases status <;> decide +kernel
  have hhead : (lit "</basic>\n" ++ (documentStatus status ++
      (uri ++ documentFoot status))).head? = some '<' := by
    simp [lit]
  rw [documentState, scan_append_of_head (stateAt_blind hmark) _ hhead, hstate, Option.map_some,
    Option.some_or]

/-- **What is read** depends on the words in the user's URI, which stands in front of the state. -/
theorem parsePresence_document (user server : Buf 128) (status : Presence) :
    parsePresence (some (presenceDocument user server status)) =
      match scan stateAt (userUri user server) with
      | some (true, r) => (found activityAt r).getD (shown status)
      | some (false, _) => .offline
      | none => status := by
  have hmark : '"' ∈ marks ∧ '>' ∈ marks := by decide
  have hhead : scan stateAt documentHead = none := by
    rw [documentHead, lit_ofList, lit_ofList, lit_ofList, lit_ofList]
    decide +kernel
  have hheadLast : documentHead.getLast? = some '"' := by
    rw [documentHead, lit_ofList, lit_ofList, lit_ofList, lit_ofList]
    decide +kernel
  have htuple : scan stateAt documentTuple = none ∧ found activityAt documentTuple = none := by
    rw [documentTuple, lit_ofList, lit_ofList, lit_ofList, lit_ofList]
    decide +kernel
  have htupleHead : (documentTuple ++ documentState (userUri user server) status).head? =
      some '"' := by
    simp [documentTuple, lit]
  have htupleLast : documentTuple.getLast? = some '>' := by simp [documentTuple, lit]
  -- The state is found behind the first URI, and the activity behind that.
  have hrest : scan stateAt (documentTuple ++ documentState (userUri user server) status) =
      some (decide (status ≠ .offline), documentState (userUri user server) status) := by
    rw [scan_append_of_getLast (stateAt_blind hmark.2) htupleLast, htuple.1, scan_documentState]
    rfl
  have hfound : found activityAt (documentTuple ++ documentState (userUri user server) status) =
      some (shown status) := by
    rw [found_append_of_getLast (activityAt_blind hmark.2) htupleLast, htuple.2,
      found_documentState]
    rfl
  rw [parsePresence, presenceDocument_eq, presenceText, parseState_eq,
    scan_append_of_getLast (stateAt_blind hmark.1) hheadLast, hhead, Option.map_none,
    Option.none_or, scan_append_of_head (stateAt_blind hmark.1) _ htupleHead, hrest]
  cases hscan : scan stateAt (userUri user server) with
  | none =>
    rw [Option.map_none, Option.none_or]
    cases status with
    | offline => rfl
    | online => simp [found_documentState, shown]
    | busy => simp [found_documentState, shown]
    | away => simp [found_documentState, shown]
    | onPhone => simp [found_documentState, shown]
  | some hit =>
    obtain ⟨isOpen, r⟩ := hit
    rw [Option.map_some, Option.some_or]
    cases isOpen with
    | false => rfl
    | true =>
      simp only [found_append_of_head (activityAt_blind hmark.1) r htupleHead, hfound]
      cases found activityAt r with
      | none => rfl
      | some activity => rfl

/-! ## When it is what was written -/

/-- What is found in a URI does not change how a presence state is read: there is neither "open" nor
"closed", or "closed" comes first and says so, or "open" comes first, and behind it there is no
other word to be found and the state is indeed open, or the first one is that of the state. -/
def Unmistaken (uri : Text) (status : Presence) : Prop :=
  (∀ s, s <:+ uri → stateAt s = none) ∨
  (∃ r, FirstHit stateAt uri false r) ∧ status = .offline ∨
  ∃ r, FirstHit stateAt uri true r ∧
    ((∀ s, s <:+ r → activityAt s = none) ∧ status ≠ .offline ∨
      ∃ s, FirstHit activityAt r status s)

theorem getD_shown_eq_iff (activity : Option Presence) (status : Presence) :
    activity.getD (shown status) = status ↔
      activity = none ∧ status ≠ .offline ∨ activity = some status := by
  cases activity with
  | none => cases status <;> simp [shown]
  | some activity => simp

/-- **A presence document is read as it was written** if and only if the words in the user's URI do
not stand in the way. -/
theorem presence_roundTrip_iff (user server : Buf 128) (status : Presence) :
    parsePresence (some (presenceDocument user server status)) = status ↔
      Unmistaken (userUri user server) status := by
  rw [parsePresence_document, Unmistaken]
  cases hscan : scan stateAt (userUri user server) with
  | none => exact iff_of_true rfl (Or.inl (scan_eq_none.1 hscan))
  | some hit =>
    obtain ⟨isOpen, r⟩ := hit
    have hfirst := scan_eq_some.1 hscan
    have hsome : ¬ ∀ s, s <:+ userUri user server → stateAt s = none := by
      intro h
      rw [scan_eq_none.2 h] at hscan
      exact Option.some_ne_none _ hscan.symm
    -- The first hit is the only one.
    have hunique : ∀ {b r'}, FirstHit stateAt (userUri user server) b r' → b = isOpen ∧ r' = r := by
      intro b r' h
      have heq := Option.some.inj ((scan_eq_some.2 h).symm.trans hscan)
      exact Prod.mk.inj heq
    cases isOpen with
    | false =>
      constructor
      · intro h
        exact Or.inr (Or.inl ⟨⟨r, hfirst⟩, h.symm⟩)
      · rintro (h | ⟨-, h⟩ | ⟨r', h, -⟩)
        · exact absurd h hsome
        · exact h.symm
        · exact absurd (hunique h).1 (by decide)
    | true =>
      simp only [getD_shown_eq_iff, found_eq_none, found_eq_some]
      constructor
      · intro h
        exact Or.inr (Or.inr ⟨r, hfirst, h⟩)
      · rintro (h | ⟨⟨r', h⟩, -⟩ | ⟨r', h, hr'⟩)
        · exact absurd h hsome
        · exact absurd (hunique h).1 (by decide)
        · exact (hunique h).2 ▸ hr'

/-- A server whose name has one of the words: everybody there is offline. -/
theorem closedServer_reads_offline :
    parsePresence (some (presenceDocument ⟨lit "bob", by simp [lit]⟩
      ⟨lit "closed.org", by simp [lit]⟩ .online)) ≠ .online := by
  have hscan : scan stateAt (lit "sip:" ++ lit "bob" ++ lit "@" ++ lit "closed.org") =
      some (false, lit "closed.org") := by
    simp only [lit_ofList ['s', 'i', 'p', ':'], lit_ofList ['b', 'o', 'b'], lit_ofList ['@'],
      lit_ofList ['c', 'l', 'o', 's', 'e', 'd', '.', 'o', 'r', 'g']]
    decide +kernel
  rw [parsePresence_document, userUri, hscan]
  decide

/-! ## In the engine -/

/-- The states the engine publishes are those that have a document. -/
theorem updatePresence_eq (lib : Lib) (presence : Int) (e : Engine) :
    updatePresence lib presence e =
      match Presence.ofCode presence with
      | some _ =>
        if lib.publishBuild < 0 then e else ((e.act .lock).act (.publish presence)).act .unlock
      | none => e := by
  rw [updatePresence]
  cases hcode : Presence.ofCode presence with
  | none =>
    rw [if_pos]
    have := Presence.ofCode_eq_none.1 hcode
    omega
  | some status =>
    have hrange : ¬ (presence < 0 ∨ 4 < presence) := by
      rw [← Presence.ofCode_eq_none, hcode]
      exact Option.some_ne_none status
    simp only [← or_assoc, hrange, false_or]

end Furikup
