import Furikup.OsipSdp.Message

/-!
# Printing and parsing session descriptions

The printer writes the lines in the order in which the parser looks for them, and the parser knows
the line it is at by its letter, so that it never takes a line for one of another kind.

* `readLine_printLine`, `readLine_of_begins` — a line that has been printed, and one of another kind.
* `next_lines`, `next_line` — what one call of a function makes of the lines it is for.
* `next_moreTimes`, `next_underMedia`, `rounds_medias` — the loops.
* `exists_sdpMessageParse_iff` — **the descriptions that can be read are the well-formed ones**.
* `sdpMessageParse_text_iff` — **and they are those that are read back**.
* `sdpMessageClone_iff` — **what has been read is copied as it is, as long as it fits**.
-/

set_option autoImplicit false

namespace Furikup
namespace OsipSdp

open CText Descent

/-! ## Lines -/

theorem readLine_cons {letter c : Char} (hc : c ≠ '=') (t : Text) :
    readLine letter (c :: '=' :: t) =
      if some c ≠ some letter then .other
      else
        match t.dropWhile fun c => !isEol c with
        | [] => .bad
        | _ :: next =>
          let value := t.takeWhile fun c => !isEol c
          if value = [] then .bad
          else .read value (if next.head? = some '\n' then next.tail else next) := by
  have hdrop : (c :: '=' :: t).dropWhile (· ≠ '=') = '=' :: t := by simp [hc]
  have htake : (c :: '=' :: t).takeWhile (· ≠ '=') = [c] := by simp [hc]
  rw [readLine, hdrop]
  dsimp only
  rw [htake]
  rfl

/-- **A line that has been printed is read.** -/
theorem readLine_printLine {letter : Char} (hletter : letter ≠ '=') {value : Text}
    (hvalue : Value value) (t : Text) :
    readLine letter (printLine letter value ++ t) = .read value t := by
  have hline : printLine letter value ++ t = letter :: '=' :: (value ++ '\r' :: '\n' :: t) := by
    simp [printLine, crlf]
  have hall : ∀ c ∈ value, (!isEol c) = true := fun c hc => by rw [hvalue.oneLine c hc]; rfl
  have hdrop : (value ++ '\r' :: '\n' :: t).dropWhile (fun c => !isEol c) = '\r' :: '\n' :: t := by
    rw [List.dropWhile_append_of_pos hall, List.dropWhile_cons_of_neg (by decide)]
  have htake : (value ++ '\r' :: '\n' :: t).takeWhile (fun c => !isEol c) = value := by
    rw [List.takeWhile_append_of_pos hall, List.takeWhile_cons_of_neg (by decide), List.append_nil]
  rw [hline, readLine_cons hletter, if_neg (not_not.2 rfl), hdrop]
  dsimp only
  rw [htake, if_neg hvalue.ne_nil]
  rfl

/-- A text that is empty or begins with a line of one of these letters. -/
def Begins (letters : List Char) (t : Text) : Prop :=
  t = [] ∨ ∃ c ∈ letters, (c ≠ '=' ∧ isEol c = false) ∧ ∃ t', t = c :: '=' :: t'

theorem readLine_of_begins {letters : List Char} {t : Text} (h : Begins letters t) (hne : t ≠ [])
    {letter : Char} (hletter : letter ∉ letters) : readLine letter t = .other := by
  obtain ⟨c, hc, ⟨heq, -⟩, t', rfl⟩ := h.resolve_left hne
  rw [readLine_cons heq, if_pos]
  rintro hsame
  exact hletter (Option.some.inj hsame ▸ hc)

theorem Begins.mono {letters letters' : List Char} {t : Text} (h : Begins letters t)
    (hsub : letters ⊆ letters') : Begins letters' t :=
  h.imp_right fun ⟨c, hc, hrest⟩ => ⟨c, hsub hc, hrest⟩

/-- Lines of one letter, and what is behind them. -/
theorem Begins.flatMap {letters : List Char} {rest : Text} (h : Begins letters rest) {letter : Char}
    (hletter : letter ≠ '=' ∧ isEol letter = false) {α : Type} (pr : α → Text)
    (hpr : ∀ x, ∃ t, pr x = letter :: '=' :: t) (xs : List α) :
    Begins (letter :: letters) (xs.flatMap pr ++ rest) := by
  cases xs with
  | nil => exact h.mono (List.subset_cons_self _ _)
  | cons x xs =>
    obtain ⟨t, ht⟩ := hpr x
    refine Or.inr ⟨letter, List.mem_cons_self, hletter, ?_⟩
    rw [List.flatMap_cons, ht]
    exact ⟨_, rfl⟩

theorem exists_printLine (letter : Char) (value : Text) :
    ∃ t, printLine letter value = letter :: '=' :: t :=
  ⟨_, rfl⟩

/-! ## Functions -/

section Functions

variable {letter : Char} {add : Text → Message → Option Message} {sdp sdp' : Message}
  {letters : List Char} {rest : Text} {ended : Text → Bool}

theorem parseField_printLine (hletter : letter ≠ '=') {value : Text} (hvalue : Value value)
    (hadd : add value sdp = some sdp') (t : Text) :
    parseField letter add sdp (printLine letter value ++ t) = .read sdp' t := by
  rw [parseField, readLine_printLine hletter hvalue]
  dsimp only
  rw [hadd]

theorem parseField_of_begins (h : Begins letters rest) (hne : rest ≠ [])
    (hletter : letter ∉ letters) :
    parseField letter add sdp rest = .other := by
  rw [parseField, readLine_of_begins h hne hletter]

/-- The two ways to look for the end of the text. -/
structure Ends (ended : Text → Bool) (rest : Text) : Prop where
  letter : ∀ c, isEol c = false → ∀ t, ended (c :: t) = false
  rest : ended rest = false → rest ≠ []

theorem ends_isEnd (rest : Text) : Ends isEnd rest :=
  ⟨fun _ hc _ => hc, fun h hnil => by rw [hnil] at h; cases h⟩

theorem ends_never (h : rest ≠ []) : Ends never rest :=
  ⟨fun _ _ _ => rfl, fun _ => h⟩

/-- **The lines of one letter are read**, and no more. -/
theorem next_lines {α : Type} (state : List α → Message) {val : α → Text} {xs : List α}
    (hletter : letter ≠ '=' ∧ isEol letter = false) (hxs : ∀ x ∈ xs, Value (val x))
    (hadd : ∀ x ∈ xs, ∀ l, add (val x) (state l) = some (state (l ++ [x])))
    (hended : Ends ended rest) (hrest : Begins letters rest) (hnot : letter ∉ letters) :
    (check ended (state []) (xs.flatMap (fun x => printLine letter (val x)) ++ rest)).next
        (many ended (parseField letter add)) =
      check ended (state xs) rest :=
  next_many state (fun _ => List.cons_ne_nil _ _)
    (fun x hx l t => parseField_printLine hletter.1 (hxs x hx) (hadd x hx l) t)
    (fun _ _ _ => hended.letter letter hletter.2 _)
    fun h _ => parseField_of_begins hrest (hended.rest h) hnot

theorem next_line {α : Type} (state : Option α → Message) {val : α → Text} {x : Option α}
    (hletter : letter ≠ '=' ∧ isEol letter = false) (hx : ∀ y ∈ x, Value (val y))
    (hadd : ∀ y ∈ x, add (val y) (state none) = some (state (some y)))
    (hended : Ends ended rest) (hrest : Begins letters rest) (hnot : letter ∉ letters) :
    (check ended (state none) (x.toList.flatMap (fun y => printLine letter (val y)) ++ rest)).next
        (once ended (parseField letter add)) =
      check ended (state x) rest := by
  refine next_once state (fun y hy t => ?_) (fun _ _ _ => hended.letter letter hletter.2 _)
    fun h => parseField_of_begins hrest (hended.rest h) hnot
  subst hy
  exact parseField_printLine hletter.1 (hx y rfl) (hadd y rfl) t

/-- A line that has to be there is read. -/
theorem must_line {value : Text} (hletter : letter ≠ '=') (hvalue : Value value)
    (hadd : add value sdp = some sdp') (t : Text) :
    must ended (parseField letter add) sdp (printLine letter value ++ t) = check ended sdp' t := by
  rw [must, parseField_printLine hletter hvalue hadd]

end Functions

theorem addUnder_nil {session : Message → Message} {media : Media → Media} {sdp : Message}
    (h : sdp.mMedias = []) : addUnder session media sdp = session sdp :=
  if_pos h

/-- The session with media lines, of which one is the last. -/
def withMedia (sdp : Message) (done : List Media) (m : Media) : Message :=
  { sdp with mMedias := done ++ [m] }

theorem addUnder_withMedia {session : Message → Message} {media : Media → Media} (sdp : Message)
    (done : List Media) (m : Media) :
    addUnder session media (withMedia sdp done m) = withMedia sdp done (media m) := by
  rw [addUnder, withMedia, if_neg (List.concat_ne_nil _ _), List.modifyLast_concat]
  rfl

/-! ## Times -/

section Times

variable {sdp : Message} {letters : List Char} {rest : Text}

/-- The repeats of the last time are read. -/
theorem next_repeats {done : List TimeDescr} {td : TimeDescr} (h : td.Sound)
    (hrest : Begins letters rest) (hnot : 'r' ∉ letters) :
    (check isEnd { sdp with tDescrs := done ++ [{ td with rRepeats := [] }] }
        (td.rRepeats.flatMap (printLine 'r') ++ rest)).next (many isEnd sdpMessageParseR) =
      check isEnd { sdp with tDescrs := done ++ [td] } rest := by
  refine next_lines (fun l => { sdp with tDescrs := done ++ [{ td with rRepeats := l }] })
    (by decide) h.repeats (fun r hr l => ?_) (ends_isEnd rest) hrest hnot
  dsimp only
  rw [if_neg (List.concat_ne_nil _ _), List.modifyLast_concat]

theorem parseTimeDescr_value {td : TimeDescr} (h : td.Sound) :
    parseTimeDescr td.value = some { td with rRepeats := [] } := by
  rw [parseTimeDescr, TimeDescr.value, parsePair_iff.2 ⟨h.start.1, h.start.2, h.stop, rfl⟩]
  rfl

theorem parseT_text {done : List TimeDescr} {td : TimeDescr} (h : td.Sound) (t : Text) :
    sdpMessageParseT { sdp with tDescrs := done } (td.text ++ t) =
      .read { sdp with tDescrs := done ++ [{ td with rRepeats := [] }] }
        (td.rRepeats.flatMap (printLine 'r') ++ t) := by
  rw [TimeDescr.text, List.append_assoc]
  refine parseField_printLine (by decide) h.value ?_ _
  rw [parseTimeDescr_value h]
  rfl

theorem begins_times (tds : List TimeDescr) (hrest : Begins letters rest) :
    Begins ('t' :: letters) (tds.flatMap TimeDescr.text ++ rest) :=
  hrest.flatMap (by decide) TimeDescr.text (fun _ => ⟨_, rfl⟩) tds

/-- What comes behind the repeats of a time. -/
def nextTime (n : Nat) (sdp : Message) (buf : Text) : Outcome Message Char :=
  match sdpMessageParseT sdp buf with
  | .bad => .failed
  | .other => check isEnd sdp buf
  | .read sdp buf => (check isEnd sdp buf).next (moreTimes n)

theorem next_moreTimes_succ (o : Outcome Message Char) (n : Nat) :
    o.next (moreTimes (n + 1)) = (o.next (many isEnd sdpMessageParseR)).next (nextTime n) := by
  rw [next_assoc]
  rfl

/-- **Further times and their repeats are read.** -/
theorem next_moreTimes {done : List TimeDescr} {td : TimeDescr} {tds : List TimeDescr}
    (h : ∀ x ∈ td :: tds, x.Sound) (hrest : Begins letters rest) (hnot : 'r' ∉ letters)
    (hnot' : 't' ∉ letters) {n : Nat} (hn : tds.length < n) :
    (check isEnd { sdp with tDescrs := done ++ [{ td with rRepeats := [] }] }
        (td.rRepeats.flatMap (printLine 'r') ++ (tds.flatMap TimeDescr.text ++ rest))).next
        (moreTimes n) =
      check isEnd { sdp with tDescrs := done ++ td :: tds } rest := by
  induction tds generalizing done td n with
  | nil =>
    cases n with
    | zero => omega
    | succ n =>
      rw [List.flatMap_nil, List.nil_append, next_moreTimes_succ,
        next_repeats (h td List.mem_cons_self) hrest hnot]
      cases hend : isEnd rest with
      | true => rw [check, if_pos hend, next_done]
      | false =>
        have hother : sdpMessageParseT { sdp with tDescrs := done ++ [td] } rest = .other :=
          parseField_of_begins hrest ((ends_isEnd rest).rest hend) hnot'
        rw [check, if_neg (Bool.eq_false_iff.1 hend), next_more, nextTime, hother, check,
          if_neg (Bool.eq_false_iff.1 hend)]
  | cons next tds ih =>
    cases n with
    | zero => omega
    | succ n =>
      have hbegins := begins_times (next :: tds) hrest
      rw [next_moreTimes_succ, next_repeats (h td List.mem_cons_self) hbegins
        (by simp [hnot]), List.flatMap_cons, List.append_assoc]
      have hread := @parseT_text sdp (done ++ [td]) next
        (h next (List.mem_cons_of_mem _ List.mem_cons_self)) (tds.flatMap TimeDescr.text ++ rest)
      have hend : isEnd (next.text ++ (tds.flatMap TimeDescr.text ++ rest)) = false := rfl
      rw [check, if_neg (Bool.eq_false_iff.1 hend), next_more, nextTime, hread]
      dsimp only
      rw [ih (fun x hx => h x (List.mem_cons_of_mem _ hx)) (Nat.lt_of_succ_lt_succ hn),
        List.append_assoc, List.singleton_append]

/-- The bound of a loop that is started with what is left is told by what is left. -/
theorem next_bounded (k : Nat → Message → Text → Outcome Message Char) (s : Message) (t : Text) :
    (check isEnd s t).next (fun s t => k (t.length + 1) s t) =
      (check isEnd s t).next (k (t.length + 1)) := by
  rw [check]
  split
  · rfl
  · rfl

/-- **All times and their repeats are read.** -/
theorem must_times {all : List TimeDescr} (hne : all ≠ []) (h : ∀ x ∈ all, x.Sound)
    (hrest : Begins letters rest) (hnot : 'r' ∉ letters) (hnot' : 't' ∉ letters) :
    (((must isEnd sdpMessageParseT { sdp with tDescrs := [] }
        (all.flatMap TimeDescr.text ++ rest)).next (many isEnd sdpMessageParseR)).next
        (once isEnd sdpMessageParseT)).next (fun sdp buf => moreTimes (buf.length + 1) sdp buf) =
      check isEnd { sdp with tDescrs := all } rest := by
  obtain ⟨td, tds, rfl⟩ := List.exists_cons_of_ne_nil hne
  have htd := h td List.mem_cons_self
  have hbegins := begins_times tds hrest
  rw [List.flatMap_cons, List.append_assoc, must, parseT_text htd]
  dsimp only
  rw [next_repeats htd hbegins (by simp [hnot])]
  cases tds with
  | nil =>
    have hT : isEnd rest = false →
        sdpMessageParseT { sdp with tDescrs := [td] } rest = .other := fun hend =>
      parseField_of_begins hrest ((ends_isEnd rest).rest hend) hnot'
    have hR : isEnd rest = false →
        sdpMessageParseR { sdp with tDescrs := [td] } rest = .other := fun hend =>
      parseField_of_begins hrest ((ends_isEnd rest).rest hend) hnot
    rw [List.flatMap_nil, List.nil_append, List.nil_append, next_once_other hT, next_bounded,
      next_moreTimes_succ, next_many_other hR]
    cases hend : isEnd rest with
    | true => rw [check, if_pos hend, next_done]
    | false =>
      rw [check, if_neg (Bool.eq_false_iff.1 hend), next_more, nextTime, hT hend, check,
        if_neg (Bool.eq_false_iff.1 hend)]
  | cons next tds =>
    have hnext := h next (List.mem_cons_of_mem _ List.mem_cons_self)
    have hend : isEnd (next.text ++ (tds.flatMap TimeDescr.text ++ rest)) = false := rfl
    rw [List.flatMap_cons, List.append_assoc, check, if_neg (Bool.eq_false_iff.1 hend), next_more,
      once, parseT_text hnext]
    dsimp only
    rw [next_bounded, next_moreTimes (fun x hx => h x (List.mem_cons_of_mem _ hx)) hrest hnot hnot']
    · rfl
    · have hlength : tds.length ≤ (tds.flatMap TimeDescr.text).length :=
        length_le_flatMap (fun _ => List.cons_ne_nil _ _) tds
      rw [List.length_append, List.length_append]
      omega

end Times

/-! ## Media -/

section Medias

variable {sdp : Message} {letters : List Char} {rest : Text}

theorem begins_medias (ms : List Media) : Begins ['m'] (ms.flatMap Media.text) := by
  have hnil : Begins [] ([] : Text) := Or.inl rfl
  have hbegins := hnil.flatMap (by decide) Media.text (fun _ => ⟨_, rfl⟩) ms
  rwa [List.append_nil] at hbegins

section Under

variable (sdp) (done : List Media)

/-- A line under a media line, of which there is one at most. -/
theorem next_lineUnder (letter : Char) {α : Type} (parse : Text → Option α) {val : α → Text}
    {session : α → Message → Message} {media : α → Media → Media} {x : Option α}
    (state : Option α → Media)
    (hletter : letter ≠ '=' ∧ isEol letter = false) (hx : ∀ y ∈ x, Value (val y))
    (hparse : ∀ y ∈ x, parse (val y) = some y)
    (hmedia : ∀ y, media y (state none) = state (some y)) (hrest : Begins letters rest)
    (hnot : letter ∉ letters) :
    (check isEnd (withMedia sdp done (state none))
        (x.toList.flatMap (fun y => printLine letter (val y)) ++ rest)).next
        (once isEnd (parseField letter fun value sdp =>
          (parse value).map fun y => addUnder (session y) (media y) sdp)) =
      check isEnd (withMedia sdp done (state x)) rest := by
  refine next_line (fun x => withMedia sdp done (state x)) hletter hx (fun y hy => ?_)
    (ends_isEnd rest) hrest hnot
  rw [hparse y hy, Option.map_some, addUnder_withMedia, hmedia]

theorem next_linesUnder (letter : Char) {α : Type} (parse : Text → Option α) {val : α → Text}
    {session : α → Message → Message} {media : α → Media → Media} {xs : List α}
    (state : List α → Media)
    (hletter : letter ≠ '=' ∧ isEol letter = false) (hxs : ∀ y ∈ xs, Value (val y))
    (hparse : ∀ y ∈ xs, parse (val y) = some y)
    (hmedia : ∀ y l, media y (state l) = state (l ++ [y])) (hrest : Begins letters rest)
    (hnot : letter ∉ letters) :
    (check isEnd (withMedia sdp done (state []))
        (xs.flatMap (fun y => printLine letter (val y)) ++ rest)).next
        (many isEnd (parseField letter fun value sdp =>
          (parse value).map fun y => addUnder (session y) (media y) sdp)) =
      check isEnd (withMedia sdp done (state xs)) rest := by
  refine next_lines (fun l => withMedia sdp done (state l)) hletter hxs (fun y hy l => ?_)
    (ends_isEnd rest) hrest hnot
  rw [hparse y hy, Option.map_some, addUnder_withMedia, hmedia]

end Under

/-- **What is printed under a media line is read there.** -/
theorem next_underMedia {done : List Media} {m : Media} (h : m.Sound)
    (hrest : Begins ['m'] rest) :
    (check isEnd (withMedia sdp done m.line)
        (m.iInfo.toList.flatMap (printLine 'i') ++ (m.cConnections.flatMap Connection.text ++
          (m.bBandwidths.flatMap Bandwidth.text ++ (m.kKey.toList.flatMap Key.text ++
            (m.aAttributes.flatMap Attribute.text ++ rest)))))).next underMedia =
      check isEnd (withMedia sdp done m) rest := by
  have hA := hrest.flatMap (by decide) Attribute.text (fun _ => ⟨_, rfl⟩) m.aAttributes
  have hK := hA.flatMap (by decide) Key.text (fun _ => ⟨_, rfl⟩) m.kKey.toList
  have hB := hK.flatMap (by decide) Bandwidth.text (fun _ => ⟨_, rfl⟩) m.bBandwidths
  have hC := hB.flatMap (by decide) Connection.text (fun _ => ⟨_, rfl⟩) m.cConnections
  have hchain (o : Outcome Message Char) : o.next underMedia =
      ((((o.next (once isEnd sdpMessageParseI)).next (many isEnd sdpMessageParseC)).next
        (many isEnd sdpMessageParseB)).next (once isEnd sdpMessageParseK)).next
          (many isEnd sdpMessageParseA) := by
    cases o with
    | failed => rfl
    | done s => rfl
    | more s t => rfl
  have hinfo := Outcome.step (k := once isEnd sdpMessageParseI) rfl
    (next_lineUnder sdp done 'i' some (fun x => { m.line with iInfo := x }) (by decide) h.under.info
      (fun _ _ => rfl) (fun _ => rfl) hC (by decide))
  have hconns := Outcome.step (k := many isEnd sdpMessageParseC) hinfo
    (next_linesUnder sdp done 'c' parseConnection
      (fun l => { m.line with iInfo := m.iInfo, cConnections := l }) (by decide)
      (fun x hx => (h.under.conns x hx).2)
      (fun x hx => parseConnection_iff.2 ⟨(h.under.conns x hx).1, rfl⟩) (fun _ _ => rfl) hB
      (by decide))
  have hbandwidths := Outcome.step (k := many isEnd sdpMessageParseB) hconns
    (next_linesUnder sdp done 'b' parseBandwidth
      (fun l => { m with bBandwidths := l, kKey := none, aAttributes := [] }) (by decide)
      (fun x hx => (h.under.bandwidths x hx).2)
      (fun x hx => parseBandwidth_iff.2 ⟨(h.under.bandwidths x hx).1, rfl⟩) (fun _ _ => rfl) hK
      (by decide))
  have hkey := Outcome.step (k := once isEnd sdpMessageParseK) hbandwidths
    (next_lineUnder sdp done 'k' parseKey (fun x => { m with kKey := x, aAttributes := [] })
      (by decide) (fun x hx => (h.under.key x hx).2)
      (fun x hx => parseKey_iff.2 ⟨(h.under.key x hx).1, rfl⟩) (fun _ => rfl) hA (by decide))
  have hattributes := Outcome.step (k := many isEnd sdpMessageParseA) hkey
    (next_linesUnder sdp done 'a' parseAttribute (fun l => { m with aAttributes := l }) (by decide)
      (fun x hx => (h.under.attributes x hx).2)
      (fun x hx => parseAttribute_iff.2 ⟨(h.under.attributes x hx).1, rfl⟩) (fun _ _ => rfl) hrest
      (by decide))
  exact (hchain _).trans hattributes

theorem parseM_text {done : List Media} {m : Media} (h : m.Sound) (t : Text) :
    sdpMessageParseM { sdp with mMedias := done } (m.text ++ t) =
      .read (withMedia sdp done m.line)
        (m.iInfo.toList.flatMap (printLine 'i') ++ (m.cConnections.flatMap Connection.text ++
          (m.bBandwidths.flatMap Bandwidth.text ++ (m.kKey.toList.flatMap Key.text ++
            (m.aAttributes.flatMap Attribute.text ++ t))))) := by
  rw [Media.text, List.append_assoc, List.append_assoc, List.append_assoc, List.append_assoc,
    List.append_assoc]
  refine parseField_printLine (by decide) h.value ?_ _
  rw [parseMedia_value h.line]
  rfl

/-- **All media lines are read, with what is under them.** -/
theorem next_rounds {done ms : List Media} (h : ∀ m ∈ ms, m.Sound) {n : Nat} (hn : ms.length < n) :
    (check isEnd { sdp with mMedias := done } (ms.flatMap Media.text)).next
        (rounds isEnd sdpMessageParseM underMedia n) =
      check isEnd { sdp with mMedias := done ++ ms } [] := by
  induction ms generalizing done n with
  | nil => rw [List.append_nil]; rfl
  | cons m ms ih =>
    cases n with
    | zero => omega
    | succ n =>
      have hread := @parseM_text sdp done m (h m List.mem_cons_self) (ms.flatMap Media.text)
      have hend : isEnd (m.text ++ ms.flatMap Media.text) = false := rfl
      have hunder := @next_underMedia sdp (ms.flatMap Media.text) done m (h m List.mem_cons_self)
        (begins_medias ms)
      have hrest := @ih (done ++ [m]) (fun x hx => h x (List.mem_cons_of_mem _ hx)) n
        (Nat.lt_of_succ_lt_succ hn)
      rw [List.flatMap_cons, check, if_neg (Bool.eq_false_iff.1 hend), next_more, rounds, hread]
      dsimp only
      rw [hunder, withMedia, hrest, List.append_assoc, List.singleton_append]

end Medias

/-! ## Descriptions -/

/-- **A well-formed description that has been printed is read back.** -/
theorem sdpMessageParse_text {sdp : Message} (h : Reached True True True sdp) :
    sdpMessageParse sdp.text = some sdp := by
  obtain ⟨v, hv⟩ := Option.isSome_iff_exists.1 (h.version trivial)
  obtain ⟨o, ho⟩ := Option.isSome_iff_exists.1 (h.origin trivial)
  have htimes := h.times trivial
  have hsound := h.sound
  have hunder := hsound.under
  -- what each part of the text begins with
  have hM := begins_medias sdp.mMedias
  have hA := hM.flatMap (by decide) Attribute.text (fun _ => ⟨_, rfl⟩) sdp.aAttributes
  have hK := hA.flatMap (by decide) Key.text (fun _ => ⟨_, rfl⟩) sdp.kKey.toList
  have hZ := hK.flatMap (by decide) _ (exists_printLine 'z') sdp.zAdjustments.toList
  have hT := begins_times sdp.tDescrs hZ
  have hB := hT.flatMap (by decide) Bandwidth.text (fun _ => ⟨_, rfl⟩) sdp.bBandwidths
  have hC := hB.flatMap (by decide) Connection.text (fun _ => ⟨_, rfl⟩) sdp.cConnection.toList
  have hP := hC.flatMap (by decide) _ (exists_printLine 'p') sdp.pPhones
  have hE := hP.flatMap (by decide) _ (exists_printLine 'e') sdp.eEmails
  have hU := hE.flatMap (by decide) _ (exists_printLine 'u') sdp.uUri.toList
  have hI := hU.flatMap (by decide) _ (exists_printLine 'i') sdp.iInfo.toList
  have hS := hI.flatMap (by decide) _ (exists_printLine 's') sdp.sName.toList
  -- there is a time, so that the parser is not at the end before it
  have hneT : sdp.tDescrs.flatMap TimeDescr.text ++
      (sdp.zAdjustments.toList.flatMap (printLine 'z') ++ (sdp.kKey.toList.flatMap Key.text ++
        (sdp.aAttributes.flatMap Attribute.text ++ sdp.mMedias.flatMap Media.text))) ≠ [] := by
    obtain ⟨td, tds, htds⟩ := List.exists_cons_of_ne_nil htimes
    rw [htds]
    exact List.cons_ne_nil _ _
  have hneB := List.append_ne_nil_of_right_ne_nil (sdp.bBandwidths.flatMap Bandwidth.text) hneT
  have hneC := List.append_ne_nil_of_right_ne_nil (sdp.cConnection.toList.flatMap Connection.text)
    hneB
  have hneP := List.append_ne_nil_of_right_ne_nil (sdp.pPhones.flatMap (printLine 'p')) hneC
  have hneE := List.append_ne_nil_of_right_ne_nil (sdp.eEmails.flatMap (printLine 'e')) hneP
  have hneU := List.append_ne_nil_of_right_ne_nil (sdp.uUri.toList.flatMap (printLine 'u')) hneE
  have hneI := List.append_ne_nil_of_right_ne_nil (sdp.iInfo.toList.flatMap (printLine 'i')) hneU
  have hV' : must never sdpMessageParseV sdpMessageInit
      (printLine 'v' v ++ (printLine 'o' o.value ++ sdp.rest)) =
        check never { sdpMessageInit with vVersion := some v } (printLine 'o' o.value ++ sdp.rest) :=
    must_line (by decide) (hsound.version v hv) rfl _
  have hnoS := Outcome.step (k := once never sdpMessageParseS) hV'
    (next_once_other fun _ => parseField_of_begins
      (.inr ⟨'o', List.mem_singleton_self _, by decide, _, rfl⟩) (List.cons_ne_nil _ _) (by decide))
  have hO' := Outcome.step (k := must never sdpMessageParseO) hnoS
    (must_line (by decide) (hsound.origin o ho).2
      (congrArg (Option.map _) (parseOrigin_iff.2 ⟨(hsound.origin o ho).1, rfl⟩)) _)
  have hS' := Outcome.step (k := once never sdpMessageParseS) hO'
    (next_line (fun x => { sdpMessageInit with vVersion := some v, oOrigin := some o, sName := x })
      (by decide) hsound.name (fun _ _ => rfl) (ends_never hneI) hI (by decide))
  have hI' := Outcome.step (k := once never sdpMessageParseI) hS'
    (next_line
      (fun x =>
        { sdpMessageInit with
          vVersion := some v, oOrigin := some o, sName := sdp.sName, iInfo := x })
      (by decide) hunder.info (fun _ _ => rfl) (ends_never hneU) hU (by decide))
  have hU' := Outcome.step (k := once never sdpMessageParseU) hI'
    (next_line
      (fun x =>
        { sdpMessageInit with
          vVersion := some v, oOrigin := some o, sName := sdp.sName, iInfo := sdp.iInfo, uUri := x })
      (by decide) hsound.uri (fun _ _ => rfl) (ends_never hneE) hE (by decide))
  have hE' := Outcome.step (k := many never sdpMessageParseE) hU'
    (next_lines
      (fun l =>
        { sdpMessageInit with
          vVersion := some v, oOrigin := some o, sName := sdp.sName, iInfo := sdp.iInfo
          uUri := sdp.uUri, eEmails := l })
      (by decide) hsound.emails (fun _ _ _ => rfl) (ends_never hneP) hP (by decide))
  have hP' := Outcome.step (k := many never sdpMessageParseP) hE'
    (next_lines
      (fun l =>
        { sdpMessageInit with
          vVersion := some v, oOrigin := some o, sName := sdp.sName, iInfo := sdp.iInfo
          uUri := sdp.uUri, eEmails := sdp.eEmails, pPhones := l })
      (by decide) hsound.phones (fun _ _ _ => rfl) (ends_never hneC) hC (by decide))
  have hC' := Outcome.step (k := once never sdpMessageParseC) hP'
    (next_line
      (fun x =>
        { sdp with
          vVersion := some v, oOrigin := some o, cConnection := x, bBandwidths := [], tDescrs := []
          zAdjustments := none, kKey := none, aAttributes := [], mMedias := [] })
      (by decide) (fun x hx => (hunder.conns x (Option.mem_toList.2 hx)).2)
      (fun x hx => congrArg (Option.map _)
        (parseConnection_iff.2 ⟨(hunder.conns x (Option.mem_toList.2 hx)).1, rfl⟩))
      (ends_never hneB) hB (by decide))
  have hB' := Outcome.step (k := many never sdpMessageParseB) hC'
    (next_lines
      (fun l =>
        { sdp with
          vVersion := some v, oOrigin := some o, bBandwidths := l, tDescrs := []
          zAdjustments := none, kKey := none, aAttributes := [], mMedias := [] })
      (by decide) (fun x hx => (hunder.bandwidths x hx).2)
      (fun x hx _ => congrArg (Option.map _)
        (parseBandwidth_iff.2 ⟨(hunder.bandwidths x hx).1, rfl⟩))
      (ends_never hneT) hT (by decide))
  have hTimes := @must_times
    { sdp with
      vVersion := some v, oOrigin := some o, zAdjustments := none, kKey := none, aAttributes := []
      mMedias := [] }
    _ _ sdp.tDescrs htimes hsound.times hZ (by decide) (by decide)
  have hT' := (congrArg
    (fun o => (((Outcome.next o (must isEnd sdpMessageParseT)).next
      (many isEnd sdpMessageParseR)).next (once isEnd sdpMessageParseT)).next
        fun sdp buf => moreTimes (buf.length + 1) sdp buf) hB').trans hTimes
  have hZ' := Outcome.step (k := once isEnd sdpMessageParseZ) hT'
    (next_line
      (fun x =>
        { sdp with
          vVersion := some v, oOrigin := some o, zAdjustments := x, kKey := none, aAttributes := []
          mMedias := [] })
      (by decide) hsound.adjustments (fun _ _ => rfl) (ends_isEnd _) hK (by decide))
  have hK' := Outcome.step (k := once isEnd sdpMessageParseK) hZ'
    (next_line
      (fun x =>
        { sdp with
          vVersion := some v, oOrigin := some o, kKey := x, aAttributes := [], mMedias := [] })
      (by decide) (fun x hx => (hunder.key x hx).2)
      (fun x hx => congrArg (Option.map _) (parseKey_iff.2 ⟨(hunder.key x hx).1, rfl⟩))
      (ends_isEnd _) hA (by decide))
  have hA' := Outcome.step (k := many isEnd sdpMessageParseA) hK'
    (next_lines
      (fun l =>
        { sdp with vVersion := some v, oOrigin := some o, aAttributes := l, mMedias := [] })
      (by decide) (fun x hx => (hunder.attributes x hx).2)
      (fun x hx _ => congrArg (Option.map _)
        (parseAttribute_iff.2 ⟨(hunder.attributes x hx).1, rfl⟩))
      (ends_isEnd _) hM (by decide))
  have hlength : sdp.mMedias.length ≤ (sdp.mMedias.flatMap Media.text).length :=
    length_le_flatMap (fun _ => List.cons_ne_nil _ _) sdp.mMedias
  have hRounds := @next_rounds { sdp with vVersion := some v, oOrigin := some o } [] sdp.mMedias
    hsound.medias _ (Nat.lt_succ_of_le hlength)
  have hM' := Outcome.step
    (k := fun sdp buf => rounds isEnd sdpMessageParseM underMedia (buf.length + 1) sdp buf) hA'
    ((next_bounded (rounds isEnd sdpMessageParseM underMedia) _ _).trans hRounds)
  have htext : sdp.text = printLine 'v' v ++ (printLine 'o' o.value ++ sdp.rest) := by
    rw [Message.text, hv, ho, Option.toList_some, Option.toList_some, List.flatMap_singleton,
      List.flatMap_singleton]
  rw [htext]
  refine (congrArg Outcome.result hM').trans (congrArg some ?_)
  rw [← hv, ← ho, List.nil_append]

/-- **The descriptions that can be read are the well-formed ones** with a version, an origin and a
time. -/
theorem exists_sdpMessageParse_iff (sdp : Message) :
    (∃ buf, sdpMessageParse buf = some sdp) ↔ Reached True True True sdp :=
  ⟨fun ⟨_, h⟩ => reached_of_sdpMessageParse h, fun h => ⟨_, sdpMessageParse_text h⟩⟩

/-- **Printing and parsing again changes nothing**: the descriptions that can be read are those that
are read back. -/
theorem sdpMessageParse_text_iff (sdp : Message) :
    sdpMessageParse sdp.text = some sdp ↔ ∃ buf, sdpMessageParse buf = some sdp :=
  ⟨fun h => ⟨_, h⟩, fun ⟨_, h⟩ => sdpMessageParse_text (reached_of_sdpMessageParse h)⟩

theorem sdpMessageToStr_of_reached {sdp : Message} (h : Reached True True True sdp) :
    sdpMessageToStr sdp =
      (sprintf bodyMessageMaxSize sdp.text).map fun string => some string.text := by
  rw [sdpMessageToStr, h.version trivial, h.origin trivial]
  rfl

/-- **What has been read is copied as it is**, exactly if it fits into the block it is printed
into. -/
theorem sdpMessageClone_iff {buf : Text} {sdp : Message} (h : sdpMessageParse buf = some sdp) :
    sdpMessageClone sdp = .ok (some sdp) ↔ sdp.text.length < bodyMessageMaxSize := by
  have hreached := reached_of_sdpMessageParse h
  rw [sdpMessageClone, sdpMessageToStr_of_reached hreached]
  constructor
  · intro hclone
    by_contra hlong
    rw [sprintf_of_le (Nat.le_of_not_lt hlong)] at hclone
    cases hclone
  · intro hfits
    rw [sprintf_of_lt hfits]
    exact congrArg Except.ok (sdpMessageParse_text hreached)

/-- A name in front of the origin, as some phones place it, is printed behind it. -/
theorem sdpMessageClone_iff_name :
    ∃ sdp,
      sdpMessageParse "v=0\r\ns=a\r\no=- 1 1 IN IP4 h\nt=0 0\r\n".toList = some sdp ∧
        sdp.text = "v=0\r\no=- 1 1 IN IP4 h\r\ns=a\r\nt=0 0\r\n".toList ∧
          (sdpMessageClone sdp = .ok (some sdp) ↔ sdp.text.length < bodyMessageMaxSize) := by
  have h : (sdpMessageParse "v=0\r\ns=a\r\no=- 1 1 IN IP4 h\nt=0 0\r\n".toList).map Message.text =
      some "v=0\r\no=- 1 1 IN IP4 h\r\ns=a\r\nt=0 0\r\n".toList := by decide +kernel
  obtain ⟨sdp, hsdp, htext⟩ := Option.map_eq_some_iff.1 h
  exact ⟨sdp, hsdp, htext, sdpMessageClone_iff hsdp⟩

end OsipSdp
end Furikup
