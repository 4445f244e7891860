import Furikup.Lib.Printf
import Furikup.StatusBox

/-!
# Messages of the engine on the screen

A message is formatted by `InfoMessage` or `ErrorMessage`, handed to `CallbackEventHandler`,
formatted again by `statusMessage`, kept in the status box and printed on the screen.  Both
`statusMessage` and the screen take the text they are given for a format.

* `EngineMessage` — the messages the engine has, each with the format and the arguments it is made
  of and with the text that it is meant to be.
* `message`, `storeMessage` and `displayStatusLines` — the stages on the way.
* `Verbatim` — the text comes through all stages as it is, cut to the arrays it goes through.
* `verbatim_iff` — **it does exactly if it has no percent sign where it is taken for a format, and
  fits in its row if it is shown.**
* `Screen.run` — what a run of such messages leaves on the screen.
-/

set_option autoImplicit false

namespace Furikup

open CText Printf

/-! ## The messages -/

/-- The levels of a trace that are passed to the user interface. -/
inductive TraceLevel
  | fatal
  | bug
  | error
  | warning

def TraceLevel.tag : TraceLevel → Text
  | .fatal => lit "| FATAL | <"
  | .bug => lit "|  BUG  | <"
  | .error => lit "| ERROR | <"
  | .warning => lit "|WARNING| <"

/-- What is printed in front of a trace. -/
def traceFront (level : TraceLevel) (fi : Text) (li : Int) : Text :=
  level.tag ++ (fi ++ (lit ": " ++ (fmtD li ++ lit "> ")))

/-- It is printed with the format of the level. -/
theorem format_traceFront (level : TraceLevel) (fi : Text) (li : Int) :
    format (level.tag ++ lit "%s: %i> ") [.str (some fi), .int li] =
      some (traceFront level fi li) := by
  have htag : '%' ∉ level.tag := by cases level <;> simp [TraceLevel.tag, lit]
  have hrest : format (lit "%s: %i> ") [.str (some fi), .int li] =
      some (fi ++ (lit ": " ++ (fmtD li ++ lit "> "))) := by
    simp [lit, format_cons, fmtS]
  rw [format_append htag, hrest, Option.map_some, traceFront]

/-- A call of `osip_trace_func`, with what `chfr` and its arguments are printed as. -/
structure Trace where
  level : TraceLevel
  fi : Text
  li : Int
  body : Text
  /-- The name of a source file leaves room for the rest. -/
  room : (traceFront level fi li).length < 2047

/-- `trc_buf` -/
def Trace.text (trc : Trace) : Text :=
  traceFront trc.level trc.fi trc.li ++
    snprintf (2047 - (traceFront trc.level trc.fi trc.li).length) trc.body

/-- The messages without arguments. -/
inductive Remark
  | notSetUp
  | wavFormat
  | transport
  | registered
  | ringing
  | failed
  | newCall
  | inviteFailed
  | inviteSent
  | inCall

def Remark.text : Remark → Text
  | .notSetUp => lit "you haven't set up your sipcfg.ini - see the readme.txt"
  | .wavFormat => lit "Error: audio.wav must be 44.1kHz, 16 bit mono"
  | .transport => lit "Could not initialize transport layer"
  | .registered => lit "registered fine"
  | .ringing => lit "Phone is ringing"
  | .failed => lit "Call failed"
  | .newCall => lit "new call"
  | .inviteFailed => lit "Failed invite build"
  | .inviteSent => lit "Sent invite"
  | .inCall => lit "Now in call"

def Remark.isError : Remark → Bool
  | .notSetUp => true
  | .wavFormat => true
  | .transport => true
  | .failed => true
  | .inviteFailed => true
  | _ => false

/-- The messages with the result of a call of the system. -/
inductive Failure
  | camera
  | loadAudioFreq
  | loadUsbacc
  | loadUsbcam
  | loadUsbmic
  | startUsbbus
  | startUsbacc
  | startUsbcam
  | startUsbcammic
  | startUsbmic
  | setupMic
  | startMic
  | readMic
  | readWav
  | readHeader
  | openRingback

/-- What stands in front of the result. -/
def Failure.front : Failure → Text
  | .camera => lit "Error activating the camera: 0x"
  | .readHeader => lit "Failed to read wav header: 0x"
  | _ => lit "Error 0x"

/-- What stands behind the result. -/
def Failure.back : Failure → Text
  | .camera => lit "\n"
  | .loadAudioFreq => lit " loading AudioFreq.prx.\n"
  | .loadUsbacc => lit " loading usbacc.prx.\n"
  | .loadUsbcam => lit " loading usbcam.prx.\n"
  | .loadUsbmic => lit " loading usbmic.prx.\n"
  | .startUsbbus => lit " starting usbbus driver.\n"
  | .startUsbacc => lit " starting usbacc driver.\n"
  | .startUsbcam => lit " starting usbcam driver.\n"
  | .startUsbcammic => lit " starting usbcammic driver.\n"
  | .startUsbmic => lit " starting usbmic driver.\n"
  | .setupMic => lit " in sceUsbCamSetupMic.\n"
  | .startMic => lit " starting mic.\n"
  | .readMic => lit " reading mic.\n"
  | .readWav => lit " reading audio.wav file"
  | .readHeader => []
  | .openRingback => lit " opening ringback.wav file"

def Failure.isError : Failure → Bool
  | .readMic => false
  | .readHeader => false
  | .openRingback => false
  | _ => true

/-- The messages with a number. -/
inductive Figure
  | presence
  | bitsPerSample
  | sampleRate
  | numChannels

def Figure.front : Figure → Text
  | .presence => lit "presence="
  | .bitsPerSample => lit "Wrong bits per sample: "
  | .sampleRate => lit "Wrong sample rate: "
  | .numChannels => lit "Wrong number of channels: "

/-- What the engine calls `InfoMessage` and `ErrorMessage` with. -/
inductive EngineMessage
  | event (textinfo : Text)
  | trace (trc : Trace)
  | call (lAddress : Text)
  | incoming (displayname : Option Text)
  | remark (r : Remark)
  | failure (f : Failure) (result : BitVec 32)
  | figure (f : Figure) (n : Int)

namespace EngineMessage

def fmt : EngineMessage → Text
  | event textinfo => textinfo
  | trace trc => trc.text
  | call _ => lit "Call '%s'"
  | incoming _ => lit "New call from %s"
  | remark r => r.text
  | failure f _ => f.front ++ (lit "%08X" ++ f.back)
  | figure f _ => f.front ++ lit "%d"

def args : EngineMessage → List Arg
  | call lAddress => [.str (some lAddress)]
  | incoming displayname => [.str displayname]
  | failure _ result => [.word result]
  | figure _ n => [.int n]
  | _ => []

def isError : EngineMessage → Bool
  | remark r => r.isError
  | failure f _ => f.isError
  | _ => false

/-- The text that is meant. -/
def text : EngineMessage → Text
  | event textinfo => textinfo
  | trace trc => trc.text
  | call lAddress => lit "Call '" ++ (lAddress ++ lit "'")
  | incoming displayname => lit "New call from " ++ fmtS displayname
  | remark r => r.text
  | failure f result => f.front ++ (fmt08X result ++ f.back)
  | figure f n => f.front ++ fmtD n

/-- The text itself is passed as the format. -/
def isFormat : EngineMessage → Bool
  | event _ => true
  | trace _ => true
  | remark _ => true
  | _ => false

theorem eq_of_isFormat {m : EngineMessage} (h : m.isFormat = true) :
    m.fmt = m.text ∧ m.args = [] := by
  cases m with
  | event | trace | remark => exact ⟨rfl, rfl⟩
  | call | incoming | failure | figure => exact absurd h Bool.false_ne_true

/-- A text that is an argument is printed as it is. -/
theorem format_of_not_isFormat {m : EngineMessage} (h : m.isFormat = false) :
    format m.fmt m.args = some m.text := by
  cases m with
  | event | trace | remark => exact absurd h.symm Bool.false_ne_true
  | call lAddress =>
    have hfmt : lit "Call '%s'" = lit "Call '" ++ '%' :: 's' :: lit "'" := by simp [lit]
    have hfront : '%' ∉ lit "Call '" := by simp [lit]
    have hback : '%' ∉ lit "'" := by simp [lit]
    rw [fmt, args, text, hfmt, format_append hfront, format_s, format_of_notMem hback]
    rfl
  | incoming displayname =>
    have hfmt : lit "New call from %s" = lit "New call from " ++ ['%', 's'] := by simp [lit]
    have hfront : '%' ∉ lit "New call from " := by simp [lit]
    rw [fmt, args, text, hfmt, format_append hfront, format_s, format_nil, Option.map_some,
      List.append_nil]
    rfl
  | failure f result =>
    have hfront : '%' ∉ f.front := by cases f <;> simp [Failure.front, lit]
    have hback : '%' ∉ f.back := by cases f <;> simp [Failure.back, lit]
    have hrest : format (lit "%08X" ++ f.back) [.word result] = some (fmt08X result ++ f.back) := by
      simp [lit, format_of_notMem hback]
    rw [fmt, args, text, format_append hfront, hrest, Option.map_some]
  | figure f n =>
    have hfront : '%' ∉ f.front := by cases f <;> simp [Figure.front, lit]
    have hrest : format (lit "%d") [.int n] = some (fmtD n) := by simp [lit]
    rw [fmt, args, text, format_append hfront, hrest, Option.map_some]

/-- The message is printed as it is meant if and only if no percent sign of it is taken for a
conversion. -/
theorem format_iff (m : EngineMessage) :
    format m.fmt m.args = some m.text ↔ (m.isFormat = true → '%' ∉ m.text) := by
  cases h : m.isFormat with
  | true =>
    obtain ⟨hfmt, hargs⟩ := eq_of_isFormat h
    rw [hfmt, hargs, format_eq_self_iff]
    exact ⟨fun hmem _ => hmem, fun hmem => hmem rfl⟩
  | false => exact iff_of_true (format_of_not_isFormat h) fun hfalse => absurd hfalse.symm (by simp)

end EngineMessage

/-! ## The stages -/

/-- What can go wrong on the way. -/
inductive ScreenFault
  | memory (f : Fault)
  | conversion

def formatted : Option Text → Except ScreenFault Text
  | some t => .ok t
  | none => .error .conversion

def stored {α : Type} : C α → Except ScreenFault α
  | .ok a => .ok a
  | .error f => .error (.memory f)

/-- `InfoMessage` and `ErrorMessage`, up to the call of `gEventFunction`. -/
def message (fmt : Text) (args : List Arg) : Except ScreenFault Text :=
  formatted (vsnprintf 256 fmt args)

/-- `statusMessage`, up to the call of `displayStatusLines`. -/
def storeMessage (msg : Text) (args : List Arg) (box : StatusBox) :
    Except ScreenFault StatusBox := do
  let lmsg ← formatted (vsnprintf 256 msg args)
  stored (showMessage lmsg box)

/-- `pspDebugScreenPrintf(gStatusLines[ii])` -/
def StatusBox.printLine (box : StatusBox) (ii : Nat) : Except ScreenFault Text := do
  let line ← stored (box.line ii)
  formatted (format line [])

/-- What is printed on the screen, one text a row. -/
def displayStatusLines (box : StatusBox) : Except ScreenFault (List Text) :=
  (List.range box.gNumStatusLines).mapM box.printLine

def statusMessage (msg : Text) (args : List Arg) (box : StatusBox) :
    Except ScreenFault (StatusBox × List Text) := do
  let box ← storeMessage msg args box
  let screen ← displayStatusLines box
  pure (box, screen)

/-- The two cases of `CallbackEventHandler`: extra messages are shown if they are switched on. -/
def callbackEventHandlerMessage (showInfos isError : Bool) (lmsg : Text)
    (s : StatusBox × List Text) : Except ScreenFault (StatusBox × List Text) :=
  if isError || showInfos then statusMessage lmsg [] s.1 else pure s

/-- A message of the engine, from its call to the screen. -/
def screenStep (showInfos : Bool) (m : EngineMessage) (s : StatusBox × List Text) :
    Except ScreenFault (StatusBox × List Text) := do
  let msg ← message m.fmt m.args
  callbackEventHandlerMessage showInfos m.isError msg s

/-! ## What a message needs -/

/-- The text comes through all stages as it is: `InfoMessage` or `ErrorMessage` prints it and passes
on what its array takes, and of what is passed on to `statusMessage` the row takes its part and is
printed.  No stage finds a conversion in it. -/
structure Verbatim (showInfos : Bool) (m : EngineMessage) : Prop where
  printed : format m.fmt m.args = some m.text
  passed : message m.fmt m.args = .ok (m.text.take 255)
  kept : (m.isError || showInfos) = true →
    format (m.text.take 255) [] = some (m.text.take 255) ∧ ∀ box : StatusBox, box.Ends →
      ∃ box' ii, storeMessage (m.text.take 255) [] box = .ok box' ∧
        box'.gNumStatusLines = ii + 1 ∧ box'.line ii = .ok (m.text.take 68) ∧
        box'.printLine ii = .ok (m.text.take 68)

@[simp] theorem stored_eq_ok {α : Type} {x : C α} {a : α} : stored x = .ok a ↔ x = .ok a := by
  cases x with
  | ok b => simp [stored]
  | error f => simp [stored]

/-- Without a percent sign the second formatting only cuts. -/
theorem storeMessage_of_notMem {t : Text} (ht : '%' ∉ t) (box : StatusBox) :
    storeMessage t [] box = stored (showMessage (t.take 255) box) := by
  rw [storeMessage, vsnprintf, format_of_notMem ht]
  rfl

/-- A text without a percent sign that fits in a row is kept and printed. -/
theorem storeMessage_of_fits {t : Text} (ht : '%' ∉ t) (hlen : t.length ≤ 68) {box : StatusBox}
    (hbox : box.Ends) :
    ∃ box' ii, storeMessage t [] box = .ok box' ∧ box'.gNumStatusLines = ii + 1 ∧
      box'.line ii = .ok t ∧ box'.printLine ii = .ok t := by
  obtain ⟨box', hbox'⟩ := hbox.exists_showMessage (Nat.lt_succ_of_le hlen)
  obtain ⟨ii, hnum, hholds⟩ := showMessage_ok hbox'
  have hline : box'.line ii = .ok t := Cells.read_of_holds hholds
  refine ⟨box', ii, ?_, hnum, hline, ?_⟩
  · rw [storeMessage_of_notMem ht, List.take_of_length_le (by omega), stored_eq_ok, hbox']
  · rw [StatusBox.printLine, hline]
    exact congrArg formatted (format_of_notMem ht [])

/-- The row takes all of a text without a percent sign, whether it has room for it or not. -/
theorem line_of_storeMessage {t : Text} (ht : '%' ∉ t) {box box' : StatusBox}
    (h : storeMessage t [] box = .ok box') {ii : Nat} (hnum : box'.gNumStatusLines = ii + 1) :
    box'.line ii = .ok (t.take 255) := by
  rw [storeMessage_of_notMem ht, stored_eq_ok] at h
  obtain ⟨jj, hjj, hholds⟩ := showMessage_ok h
  obtain rfl : ii = jj := Nat.succ.inj (hnum.symm.trans hjj)
  exact Cells.read_of_holds hholds

/-- A message that is shown fits in its row. -/
theorem Verbatim.length_le {showInfos : Bool} {m : EngineMessage} (h : Verbatim showInfos m)
    (hshown : (m.isError || showInfos) = true) : m.text.length ≤ 68 := by
  obtain ⟨hplain, hboxes⟩ := h.kept hshown
  obtain ⟨box', ii, hstore, hnum, hline, -⟩ := hboxes {} ends_empty
  rw [line_of_storeMessage (format_eq_self_iff.1 hplain) hstore hnum, Except.ok.injEq] at hline
  have hlen := congrArg List.length hline
  simp only [List.length_take] at hlen
  omega

/-- A message that is shown has no percent sign. -/
theorem Verbatim.notMem {showInfos : Bool} {m : EngineMessage} (h : Verbatim showInfos m)
    (hshown : (m.isError || showInfos) = true) : '%' ∉ m.text := by
  have hplain := format_eq_self_iff.1 (h.kept hshown).1
  have hlen := h.length_le hshown
  rwa [List.take_of_length_le (by omega)] at hplain

/-- **A message reaches the screen as it is if and only if it has no percent sign where it is taken
for a format, and fits in its row if it is shown.** -/
theorem verbatim_iff (showInfos : Bool) (m : EngineMessage) :
    Verbatim showInfos m ↔
      ((m.isFormat || m.isError || showInfos) = true → '%' ∉ m.text) ∧
        ((m.isError || showInfos) = true → m.text.length ≤ 68) := by
  constructor
  · intro h
    refine ⟨fun htaken => ?_, h.length_le⟩
    by_cases hshown : (m.isError || showInfos) = true
    · exact h.notMem hshown
    · rw [Bool.or_assoc, Bool.or_eq_true, or_iff_left hshown] at htaken
      exact m.format_iff.1 h.printed htaken
  · rintro ⟨hplain, hlen⟩
    have hprinted : format m.fmt m.args = some m.text :=
      m.format_iff.2 fun hfmt => hplain (by simp [hfmt])
    refine ⟨hprinted, ?_, fun hshown => ?_⟩
    · rw [message, vsnprintf, hprinted]
      rfl
    · have hmem : '%' ∉ m.text := hplain (by rw [Bool.or_assoc, hshown, Bool.or_true])
      have hfits := hlen hshown
      rw [List.take_of_length_le (by omega), List.take_of_length_le hfits]
      exact ⟨format_of_notMem hmem [], fun box => storeMessage_of_fits hmem hfits⟩

/-- A caller whose name is `%s`. -/
theorem not_verbatim : ¬ Verbatim true (.incoming (some (lit "%s"))) := by
  intro h
  have hplain := format_eq_self_iff.1 (h.kept rfl).1
  simp [EngineMessage.text, fmtS, lit] at hplain

/-! ## The screen -/

/-- The screen shows the box, and the box the last of the messages. -/
structure Screen (s : StatusBox × List Text) (msgs : List Text) : Prop where
  window : WindowInv s.1 msgs
  plain : ∀ msg ∈ msgs, '%' ∉ msg
  printed : s.2 = (List.range s.1.gNumStatusLines).map (rowMessage s.1.gNumStatusLines msgs)

theorem screen_initial : Screen ({}, []) [] where
  window := windowInv_initial
  plain := fun _ hmsg => absurd hmsg List.not_mem_nil
  printed := rfl

theorem mapM_eq_ok {α β ε : Type} {f : α → Except ε β} {g : α → β} {as : List α}
    (h : ∀ a ∈ as, f a = .ok (g a)) : as.mapM f = .ok (as.map g) := by
  induction as with
  | nil => rfl
  | cons a as ih =>
    obtain ⟨ha, has⟩ := List.forall_mem_cons.1 h
    rw [List.mapM_cons, ha, ih has]
    rfl

/-- Rows without percent signs are printed as they are. -/
theorem WindowInv.displayStatusLines {box : StatusBox} {msgs : List Text} (h : WindowInv box msgs)
    (hplain : ∀ msg ∈ msgs, '%' ∉ msg) :
    Furikup.displayStatusLines box =
      .ok ((List.range box.gNumStatusLines).map (rowMessage box.gNumStatusLines msgs)) := by
  refine mapM_eq_ok fun ii hii => ?_
  have hline : box.line ii = .ok (rowMessage box.gNumStatusLines msgs ii) :=
    Cells.read_of_holds (h.rows ii (List.mem_range.1 hii)).2
  have hmem : '%' ∉ rowMessage box.gNumStatusLines msgs ii := by
    rw [rowMessage, List.getD_eq_getElem?_getD]
    cases hget : msgs[msgs.length - box.gNumStatusLines + ii]? with
    | none => exact List.not_mem_nil
    | some msg => exact hplain msg (List.mem_of_getElem? hget)
  rw [StatusBox.printLine, hline]
  exact congrArg formatted (format_of_notMem hmem [])

/-- What a message does to the messages that are shown. -/
def shownWith (showInfos : Bool) (m : EngineMessage) (msgs : List Text) : List Text :=
  if m.isError || showInfos then msgs ++ [m.text] else msgs

/-- **A message that goes through all stages as it is goes to the bottom of the screen.** -/
theorem Screen.step {showInfos : Bool} {m : EngineMessage} {s : StatusBox × List Text}
    {msgs : List Text} (h : Screen s msgs) (hm : Verbatim showInfos m) :
    ∃ s', screenStep showInfos m s = .ok s' ∧ Screen s' (shownWith showInfos m msgs) := by
  rw [screenStep, hm.passed, shownWith]
  cases hshown : m.isError || showInfos with
  | false => exact ⟨s, by simp [bind, Except.bind, callbackEventHandlerMessage, hshown], h⟩
  | true =>
    have hlen := hm.length_le hshown
    have hmem := hm.notMem hshown
    obtain ⟨box', hbox', hwindow⟩ := h.window.showMessage (Nat.lt_succ_of_le hlen)
    have hplain : ∀ msg ∈ msgs ++ [m.text], '%' ∉ msg := by
      intro msg hmsg
      rcases List.mem_append.1 hmsg with hmsg | hmsg
      · exact h.plain msg hmsg
      · rwa [List.mem_singleton.1 hmsg]
    rw [if_pos rfl]
    refine ⟨(box', (List.range box'.gNumStatusLines).map
      (rowMessage box'.gNumStatusLines (msgs ++ [m.text]))), ?_, hwindow, hplain, rfl⟩
    have hstore : storeMessage m.text [] s.1 = .ok box' := by
      rw [storeMessage_of_notMem hmem, List.take_of_length_le (by omega), stored_eq_ok, hbox']
    simp only [bind, Except.bind, callbackEventHandlerMessage, hshown, if_true, statusMessage,
      List.take_of_length_le (show m.text.length ≤ 255 by omega), hstore,
      hwindow.displayStatusLines hplain]
    rfl

/-- **Messages that go through all stages as they are stand on the screen, the last seven of them,
in order.** -/
theorem Screen.run {showInfos : Bool} {ms : List EngineMessage} {s : StatusBox × List Text}
    {msgs : List Text} (h : Screen s msgs) (hms : ∀ m ∈ ms, Verbatim showInfos m) :
    ∃ s', Machine.run (screenStep showInfos) ms s = .ok s' ∧
      Screen s' (ms.foldl (fun msgs m => shownWith showInfos m msgs) msgs) := by
  induction ms generalizing s msgs with
  | nil => exact ⟨s, rfl, h⟩
  | cons m ms ih =>
    obtain ⟨hm, hms⟩ := List.forall_mem_cons.1 hms
    obtain ⟨s', hs', h'⟩ := h.step hm
    obtain ⟨t, ht, htscreen⟩ := ih h' hms
    exact ⟨t, Machine.run_cons_ok.2 ⟨s', hs', ht⟩, htscreen⟩

/-- The screen after a run from the start. -/
theorem exists_screen {showInfos : Bool} {ms : List EngineMessage}
    (hms : ∀ m ∈ ms, Verbatim showInfos m) :
    ∃ s, Machine.run (screenStep showInfos) ms ({}, []) = .ok s ∧
      Screen s (ms.foldl (fun msgs m => shownWith showInfos m msgs) []) :=
  screen_initial.run hms

end Furikup
