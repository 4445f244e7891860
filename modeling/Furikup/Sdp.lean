import Furikup.Lib.CText

/-!
# Session descriptions

The engine sees a peer's session description as the parsed `sdp_message_t` of the SIP library, and
writes its own as text.  Both ends are here.

* `SdpMessage` — what the engine reads of a parsed description: its media lines, each with media
  name, port, payload tokens and connection lines, and the session's own connection line.
* `eXosipGetAudioMedia`, `eXosipGetAudioConnection` and their video counterparts — the library's
  look-ups.  They take the pointer the library returned for the message, and none of them checks
  it: on a null message they read through it.  What they return is a pointer again.
* `readMLines` — the media lines of a description that is still text, which is how the peer gets to
  know what the engine advertises.  It reads a line `m=<media> <port> <proto> <fmt> …` as the
  grammar of session descriptions has it and passes over every other line.
-/

set_option autoImplicit false

namespace Furikup

open CText

/-! ## Parsed descriptions -/

/-- A `c=` line, of which only the address is used. -/
structure SdpConnection where
  cAddr : Text
  deriving DecidableEq, Repr

/-- An `m=` line and the connection lines under it. -/
structure SdpMedia where
  mMedia : Text
  mPort : Text
  mPayloads : List Text
  cConnections : List SdpConnection := []
  deriving DecidableEq, Repr

structure SdpMessage where
  cConnection : Option SdpConnection
  mMedias : List SdpMedia
  deriving DecidableEq, Repr

/-- `osip_strcasecmp` of two strings gives 0: they are equal up to the case of ASCII letters. -/
def osipStrcasecmp (s t : Text) : Bool :=
  s.map Char.toLower == t.map Char.toLower

/-- The first media line of a kind, or null. -/
def eXosipGetMedia (media : Text) (sdp : Option SdpMessage) : C (Option SdpMedia) := do
  let sdp ← deref sdp
  pure (sdp.mMedias.find? fun med => osipStrcasecmp med.mMedia media)

/-- The connection line that applies to the first media line of a kind: its own first one, and
failing that the session's. -/
def eXosipGetConnection (media : Text) (sdp : Option SdpMessage) : C (Option SdpConnection) := do
  let med ← eXosipGetMedia media sdp
  match med with
  | none => pure none
  | some med =>
    match med.cConnections with
    | [] => pure (sdp.bind (·.cConnection))
    | con :: _ => pure (some con)

def eXosipGetAudioMedia : Option SdpMessage → C (Option SdpMedia) :=
  eXosipGetMedia (lit "audio")

def eXosipGetAudioConnection : Option SdpMessage → C (Option SdpConnection) :=
  eXosipGetConnection (lit "audio")

def eXosipGetVideoMedia : Option SdpMessage → C (Option SdpMedia) :=
  eXosipGetMedia (lit "video")

def eXosipGetVideoConnection : Option SdpMessage → C (Option SdpConnection) :=
  eXosipGetConnection (lit "video")

/-- What the look-up of a media line finds in a message that exists. -/
def SdpMessage.media (sdp : SdpMessage) (media : Text) : Option SdpMedia :=
  sdp.mMedias.find? fun med => osipStrcasecmp med.mMedia media

/-- What the look-up of a connection line finds in a message that exists. -/
def SdpMessage.connection (sdp : SdpMessage) (media : Text) : Option SdpConnection :=
  (sdp.media media).bind fun med => med.cConnections.head?.or sdp.cConnection

@[simp] theorem eXosipGetMedia_some (media : Text) (sdp : SdpMessage) :
    eXosipGetMedia media (some sdp) = .ok (sdp.media media) := rfl

@[simp] theorem eXosipGetConnection_none (media : Text) :
    eXosipGetConnection media none = .error .null := rfl

@[simp] theorem eXosipGetConnection_some (media : Text) (sdp : SdpMessage) :
    eXosipGetConnection media (some sdp) = .ok (sdp.connection media) := by
  have hget : eXosipGetConnection media (some sdp) =
      match sdp.media media with
      | none => pure none
      | some med =>
        match med.cConnections with
        | [] => pure sdp.cConnection
        | con :: _ => pure (some con) := rfl
  rw [hget, SdpMessage.connection]
  cases sdp.media media with
  | none => rfl
  | some med =>
    rw [Option.bind_some]
    cases hcon : med.cConnections with
    | nil => simp only [hcon, List.head?_nil, Option.none_or]; rfl
    | cons con cons => simp only [hcon, List.head?_cons, Option.some_or]; rfl

/-! ## Descriptions as text -/

/-- A media line as its reader sees it. -/
structure MLine where
  media : Text
  port : Text
  fmts : List Text
  deriving DecidableEq, Repr

/-- Read one line, if it is a media line. -/
def readMLine : Text → Option MLine
  | 'm' :: '=' :: l =>
    match words l with
    | media :: port :: _proto :: fmts => some ⟨media, port, fmts⟩
    | _ => none
  | _ => none

/-- The media lines of a description, in their order. -/
def readMLines (sdp : Text) : List MLine :=
  (lines sdp).filterMap readMLine

/-- A media line as its writer prints it. -/
def MLine.print (m : MLine) : Text :=
  lit "m=" ++ (m.media ++ spaced (m.port :: lit "RTP/AVP" :: m.fmts))

/-- No field of the line contains a character that separates words or lines. -/
structure MLine.Plain (m : MLine) : Prop where
  media : ' ' ∉ m.media ∧ '\n' ∉ m.media
  port : ' ' ∉ m.port ∧ '\n' ∉ m.port
  fmts : ∀ f ∈ m.fmts, ' ' ∉ f ∧ '\n' ∉ f

/-- **A printed media line is read back.** -/
theorem readMLine_print {m : MLine} (h : m.Plain) : readMLine m.print = some m := by
  have hm (t : Text) : lit "m=" ++ t = 'm' :: '=' :: t := by simp [lit]
  have hproto : ' ' ∉ lit "RTP/AVP" := by simp [lit]
  have hwords : words (m.media ++ spaced (m.port :: lit "RTP/AVP" :: m.fmts)) =
      m.media :: m.port :: lit "RTP/AVP" :: m.fmts := by
    refine words_append_spaced h.media.1 fun x hx => ?_
    rcases List.mem_cons.1 hx with rfl | hx
    · exact h.port.1
    · rcases List.mem_cons.1 hx with rfl | hx
      · exact hproto
      · exact (h.fmts x hx).1
  rw [MLine.print, hm, readMLine, hwords]

theorem MLine.Plain.newline_notMem_print {m : MLine} (h : m.Plain) : '\n' ∉ m.print := by
  have hm : '\n' ∉ lit "m=" := by simp [lit]
  have hproto : '\n' ∉ lit "RTP/AVP" := by simp [lit]
  have hfmts : '\n' ∉ spaced m.fmts := by
    intro hmem
    obtain ⟨f, hf, hmem⟩ := List.mem_flatMap.1 hmem
    rcases List.mem_cons.1 hmem with hsp | hmem
    · exact absurd hsp (by decide)
    · exact (h.fmts f hf).2 hmem
  simp only [MLine.print, spaced_cons, List.mem_append, List.mem_cons, hm, h.media.2, h.port.2,
    hproto, hfmts, or_false, false_or]
  decide

/-- A line of another kind is passed over. -/
theorem readMLine_of_ne {c : Char} (hc : c ≠ 'm') (l : Text) : readMLine (c :: l) = none := by
  rw [readMLine]
  intro l' h
  exact hc (List.cons.inj h).1

end Furikup
