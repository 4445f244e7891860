import Furikup.Sdp

/-!
# The description the engine sends

`createLocalSdp` writes the session description of a call: an offer when there is no remote
description, and otherwise an answer to it.  It takes the two port numbers of the call from a
counter, asks for the address to advertise, and assembles the text from fragments in arrays of 128
characters, so a long enough payload list in the offer overruns them.

* `Ports` and `Ports.next` — the port globals and what each call of `createLocalSdp` does to them.
* `Net` — what the network has to say: the local address, or with NAT traversal the addresses the
  STUN server reports.
* `createLocalSdp` — the function.  Its local `jpegSupported` has no initial value in the source, so
  the value it happens to have is an argument here.
* `createLocalSdp_offer`, `createLocalSdp_answer` — **what it writes**, as a list of lines, and
  `createLocalSdp_overflow`, the answers it does not get to write; together `sdp_fits_iff`, **when
  the description fits**.
* `readMLines_offerText`, `readMLines_answerText` — the media lines a peer reads in that text.
-/

set_option autoImplicit false

namespace Furikup

open CText

/-! ## Configuration, ports and addresses -/

/-- The configuration the calls depend on. -/
structure Config where
  useVideo : Bool := false
  useUsb : Bool := false
  natTraversal : Bool := false
  deriving DecidableEq, Repr

/-- The port globals, each a C `int`. -/
structure Ports where
  audioPort : Int32 := 0
  videoPort : Int32 := 0
  portCount : Int32 := 30000
  deriving DecidableEq, Repr

def getAudioPort (ports : Ports) : Int32 := ports.audioPort

def getVideoPort (ports : Ports) : Int32 := ports.videoPort

/-- Take the next two port numbers: `audioPort = portCount; portCount += 2; …` -/
def Ports.next (ports : Ports) : Ports where
  audioPort := ports.portCount
  videoPort := ports.portCount + 2
  portCount := ports.portCount + 2 + 2

structure StunAddress4 where
  port : UInt16
  addr : UInt32
  deriving DecidableEq, Repr

/-- What the two look-ups of an address in one run of `createLocalSdp` write: the local address
guessed for the audio and for the video line, and the addresses STUN maps their sockets to. -/
structure Net where
  audioLocalip : UInt32 := 0x7f000001
  videoLocalip : UInt32 := 0x7f000001
  audioMapAddr : StunAddress4 := ⟨0, 0⟩
  videoMapAddr : StunAddress4 := ⟨0, 0⟩
  deriving DecidableEq, Repr

/-- Print an address with dots. -/
def inetNtoa (addr : UInt32) : Text :=
  let octet (i : Nat) : Text := fmtD (addr.toNat / 256 ^ i % 256 : Nat)
  octet 3 ++ '.' :: (octet 2 ++ '.' :: (octet 1 ++ '.' :: octet 0))

def ipaddr (addr : StunAddress4) : Text :=
  inetNtoa addr.addr

/-! ## The description -/

/-- The fragments the audio lines are assembled in, and whether a codec was found. -/
structure AudioLines where
  added : Bool
  audiooptions : Buf 128
  audiomap : Buf 128

/-- An array after `memset (…, 0, …)`. -/
def Buf.zero : Buf 128 := ⟨[], by decide⟩

/-- One round of the loop over the payloads of the remote audio line. -/
def addPayload (payload : Text) (s : AudioLines) : C AudioLines :=
  if atoi payload = 0 then do
    let audiooptions ← s.audiooptions.strcat (lit " 0")
    let audiomap ← s.audiomap.strcat (lit "a=rtpmap:0 PCMU/8000\r\n")
    pure ⟨true, audiooptions, audiomap⟩
  else if atoi payload = 8 then do
    let audiooptions ← s.audiooptions.strcat (lit " 8")
    let audiomap ← s.audiomap.strcat (lit "a=rtpmap:8 PCMA/8000\r\n")
    pure ⟨true, audiooptions, audiomap⟩
  else
    pure s

def addPayloads : List Text → AudioLines → C AudioLines
  | [], s => pure s
  | payload :: payloads, s => do
    let s ← addPayload payload s
    addPayloads payloads s

/-- The loop over the payloads of the remote audio line, if there is one. -/
def addMedia (s : AudioLines) : Option SdpMedia → C AudioLines
  | some med => addPayloads med.mPayloads s
  | none => pure s

/-- The audio fragments of an answer.  A missing audio line and one without a known codec both
leave `added` unset. -/
def answerAudio (audiooptions : Buf 128) (remMedia : Option SdpMedia) : C AudioLines := do
  let s ← addMedia ⟨false, audiooptions, Buf.zero⟩ remMedia
  if !s.added then do
    -- No supported codecs
    let audiooptions ← sprintf 128 (lit "m=audio 0 RTP/AVP 0")
    let audiomap ← s.audiomap.strcat (lit "a=rtpmap:0 PCMU/8000\r\n")
    pure ⟨s.added, audiooptions, audiomap⟩
  else
    pure s

/-- The audio fragments of an offer. -/
def offerAudio (audiooptions : Buf 128) : C AudioLines := do
  let audiooptions ← audiooptions.strcat (lit " 0 8 101")
  let audiomap ← Buf.zero.strcat (lit "a=rtpmap:0 PCMU/8000\r\n")
  let audiomap ← audiomap.strcat (lit "a=rtpmap:8 PCMA/8000\r\n")
  let audiomap ← audiomap.strcat (lit "a=rtpmap:101 telephone-event/8000\r\n")
  pure ⟨false, audiooptions, audiomap⟩

/-- The loop over the payloads of the remote video line, from the value `jpegSupported` had. -/
def findJpeg : List Text → Bool → Bool
  | [], jpegSupported => jpegSupported
  | payload :: payloads, jpegSupported =>
    findJpeg payloads (if atoi payload = 26 then true else jpegSupported)

/-- Look for JPEG on the remote video line, and write the line that rejects the others. -/
def answerVideo (jpegSupported : Bool) : Option SdpMedia → C (Bool × Buf 128)
  | some med => do
    let jpegSupported := findJpeg med.mPayloads jpegSupported
    let videooptions ←
      if !jpegSupported then sprintf 128 (lit "m=video 0 RTP/AVP 26\r\n") else pure Buf.zero
    pure (jpegSupported, videooptions)
  | none => pure (jpegSupported, Buf.zero)

/-- The branch on the remote description: audio fragments, `jpegSupported` and video fragment. -/
def mediaLines (audiooptions : Buf 128) (jpegSupported : Bool) :
    Option SdpMessage → C (AudioLines × Bool × Buf 128)
  | some remoteSdp => do
    let audio ← answerAudio audiooptions (← eXosipGetAudioMedia (some remoteSdp))
    let video ← answerVideo jpegSupported (← eXosipGetVideoMedia (some remoteSdp))
    pure (audio, video)
  | none => do
    let audio ← offerAudio audiooptions
    pure (audio, jpegSupported, Buf.zero)

/-- The final `snprintf` into `localSdp`. -/
def printSdp (addr audiooptions videooptions audiomap : Text) : Text :=
  snprintf 1024 <|
    lit "v=0\r\n" ++
    (lit "o=- 200 200 IN IP4 " ++ addr ++ lit "\r\n") ++
    lit "s=SIP Phone\r\n" ++
    (lit "c=IN IP4 " ++ addr ++ lit "\r\n") ++
    lit "t=0 0\r\n" ++
    (audiooptions ++ lit "\r\n") ++
    videooptions ++
    audiomap ++
    lit "a=ptime:20\r\n"

/-- The address of the description before the video line has been looked at. -/
def audioAddr (cfg : Config) (net : Net) : Text :=
  if cfg.natTraversal then ipaddr net.audioMapAddr else inetNtoa net.audioLocalip

/-- The port of the audio line. -/
def mappedPort (cfg : Config) (net : Net) (ports : Ports) : Int :=
  if cfg.natTraversal then net.audioMapAddr.port.toNat else ports.audioPort.toInt

/-- The address after the video line: without NAT traversal it has been guessed again. -/
def videoAddr (cfg : Config) (net : Net) : Text :=
  if cfg.natTraversal then ipaddr net.audioMapAddr else inetNtoa net.videoLocalip

/-- The port of the video line. -/
def mappedVideoPort (cfg : Config) (net : Net) (ports : Ports) : Int :=
  if cfg.natTraversal then net.videoMapAddr.port.toNat else ports.videoPort.toInt

def createLocalSdp (cfg : Config) (net : Net) (jpegSupported : Bool)
    (remoteSdp : Option SdpMessage) (ports : Ports) : C (Text × Ports) := do
  let ports := ports.next
  let audiooptions ← sprintf 128
    (lit "m=audio " ++ fmtD (mappedPort cfg net ports) ++ lit " RTP/AVP")
  let (audio, jpegSupported, videooptions) ← mediaLines audiooptions jpegSupported remoteSdp
  if cfg.useVideo && (remoteSdp.isNone || jpegSupported) then do
    let videooptions ← sprintf 128
      (lit "m=video " ++ fmtD (mappedVideoPort cfg net ports) ++ lit " RTP/AVP 26\r\n")
    pure (printSdp (videoAddr cfg net) audio.audiooptions.text videooptions.text
      audio.audiomap.text, ports)
  else
    pure (printSdp (audioAddr cfg net) audio.audiooptions.text videooptions.text
      audio.audiomap.text, ports)

/-! ## The audio fragments

Each payload that reads as 0 or as 8 adds one format to the `m=` line and one `a=rtpmap` line, and
the others add nothing.  The array for the `a=rtpmap` lines has room for five of them. -/

/-- The format the engine answers a payload token with. -/
def pcmFmt (payload : Text) : Option Text :=
  if atoi payload = 0 then some (lit "0")
  else if atoi payload = 8 then some (lit "8")
  else none

/-- The `a=rtpmap` line of a format. -/
def rtpmap (fmt : Text) : Text :=
  if fmt = lit "0" then lit "a=rtpmap:0 PCMU/8000" else lit "a=rtpmap:8 PCMA/8000"

/-- The formats the engine answers the first audio line of a description with. -/
def SdpMessage.pcmFmts (sdp : SdpMessage) : List Text :=
  ((sdp.media (lit "audio")).elim [] SdpMedia.mPayloads).filterMap pcmFmt

/-- The fragments spell an `m=` line that starts with `head` and lists `fmts`, and one `a=rtpmap`
line for each of them. -/
structure AudioLines.Spells (s : AudioLines) (head : Text) (fmts : List Text) : Prop where
  audiooptions : s.audiooptions.text = head ++ spaced fmts
  audiomap : s.audiomap.text = unlines (fmts.map rtpmap)
  added : s.added = !fmts.isEmpty

theorem pcmFmt_eq_some {payload fmt : Text} (h : pcmFmt payload = some fmt) :
    fmt = lit "0" ∨ fmt = lit "8" := by
  rw [pcmFmt] at h
  split at h
  · exact Or.inl (Option.some.inj h).symm
  · split at h
    · exact Or.inr (Option.some.inj h).symm
    · exact absurd h (by simp)

theorem mem_pcmFmts {payloads : List Text} {fmt : Text} (h : fmt ∈ payloads.filterMap pcmFmt) :
    fmt = lit "0" ∨ fmt = lit "8" := by
  obtain ⟨payload, -, hp⟩ := List.mem_filterMap.1 h
  exact pcmFmt_eq_some hp

theorem length_spaced_pcm {fmts : List Text} (h : ∀ f ∈ fmts, f = lit "0" ∨ f = lit "8") :
    (spaced fmts).length = 2 * fmts.length := by
  induction fmts with
  | nil => rfl
  | cons f fmts ih =>
    have hf : f.length = 1 := by rcases h f List.mem_cons_self with rfl | rfl <;> simp [lit]
    have := ih fun g hg => h g (List.mem_cons_of_mem f hg)
    simp only [spaced_cons, List.length_cons, List.length_append]
    omega

theorem length_rtpmap (f : Text) : (rtpmap f).length = 20 := by
  rw [rtpmap]
  split <;> simp [lit]

theorem length_unlines_rtpmap (fmts : List Text) :
    (unlines (fmts.map rtpmap)).length = 22 * fmts.length := by
  induction fmts with
  | nil => rfl
  | cons f fmts ih =>
    have hcrlf : crlf.length = 2 := rfl
    rw [List.map_cons, unlines_cons, List.length_append, List.length_append, length_rtpmap, ih,
      hcrlf, List.length_cons]
    omega

theorem addPayload_eq (payload : Text) (s : AudioLines) :
    addPayload payload s =
      match pcmFmt payload with
      | some fmt => do
        let audiooptions ← s.audiooptions.strcat (' ' :: fmt)
        let audiomap ← s.audiomap.strcat (rtpmap fmt ++ crlf)
        pure ⟨true, audiooptions, audiomap⟩
      | none => pure s := by
  have h0map : lit "a=rtpmap:0 PCMU/8000\r\n" = rtpmap (lit "0") ++ crlf := by
    simp [lit, rtpmap, crlf]
  have h8map : lit "a=rtpmap:8 PCMA/8000\r\n" = rtpmap (lit "8") ++ crlf := by
    simp [lit, rtpmap, crlf]
  have h0 : lit " 0" = ' ' :: lit "0" := by simp [lit]
  have h8 : lit " 8" = ' ' :: lit "8" := by simp [lit]
  rw [addPayload, pcmFmt, h0map, h8map, h0, h8]
  by_cases hp0 : atoi payload = 0
  · rw [if_pos hp0, if_pos hp0]
  · rw [if_neg hp0, if_neg hp0]
    by_cases hp8 : atoi payload = 8
    · rw [if_pos hp8, if_pos hp8]
    · rw [if_neg hp8, if_neg hp8]

/-- The step of the loop: up to five formats there is room for one more. -/
theorem addPayload_spells {head : Text} (hhead : head.length ≤ 60) {fmts : List Text}
    (hfmts : ∀ f ∈ fmts, f = lit "0" ∨ f = lit "8") {s : AudioLines}
    (hs : s.Spells head fmts) {payload fmt : Text} (hp : pcmFmt payload = some fmt)
    (hroom : fmts.length < 5) :
    ∃ s', addPayload payload s = .ok s' ∧ s'.Spells head (fmts ++ [fmt]) := by
  have hfmt : fmt.length = 1 := by rcases pcmFmt_eq_some hp with rfl | rfl <;> simp [lit]
  have hopt : (s.audiooptions.text ++ ' ' :: fmt).length < 128 := by
    have := length_spaced_pcm hfmts
    simp only [hs.audiooptions, List.length_append, List.length_cons]
    omega
  have hmap : (s.audiomap.text ++ (rtpmap fmt ++ crlf)).length < 128 := by
    have hcrlf : crlf.length = 2 := rfl
    simp only [hs.audiomap, List.length_append, length_unlines_rtpmap, length_rtpmap]
    omega
  refine ⟨⟨true, ⟨_, hopt⟩, ⟨_, hmap⟩⟩, ?_, ?_⟩
  · rw [addPayload_eq, hp]
    simp only [Buf.strcat, sprintf_of_lt hopt, sprintf_of_lt hmap]
    rfl
  · refine ⟨?_, ?_, ?_⟩
    · simp only [hs.audiooptions, spaced_append, spaced_cons, spaced_nil, List.append_assoc,
        List.append_nil]
    · simp only [hs.audiomap, List.map_append, unlines_append, List.map_cons, List.map_nil,
        unlines_cons, unlines_nil, List.append_nil]
    · simp

/-- The sixth format overruns the array. -/
theorem addPayload_overflow {head : Text} {fmts : List Text} {s : AudioLines}
    (hs : s.Spells head fmts) {payload fmt : Text} (hp : pcmFmt payload = some fmt)
    (hfull : fmts.length = 5) : addPayload payload s = .error .overflow := by
  have hmap : ¬(s.audiomap.text ++ (rtpmap fmt ++ crlf)).length < 128 := by
    have hcrlf : crlf.length = 2 := rfl
    simp only [hs.audiomap, List.length_append, length_unlines_rtpmap, length_rtpmap]
    omega
  have hstr : s.audiomap.strcat (rtpmap fmt ++ crlf) = .error .overflow := by
    rw [Buf.strcat, sprintf, dif_neg hmap]
  rw [addPayload_eq, hp]
  simp only [hstr]
  rw [Buf.strcat, sprintf]
  split <;> rfl

/-- **The loop over the payloads**, where there is room for what it finds. -/
theorem addPayloads_spells {head : Text} (hhead : head.length ≤ 60) {payloads : List Text} :
    ∀ {fmts : List Text} {s : AudioLines}, (∀ f ∈ fmts, f = lit "0" ∨ f = lit "8") →
      s.Spells head fmts → (fmts ++ payloads.filterMap pcmFmt).length ≤ 5 →
      ∃ s', addPayloads payloads s = .ok s' ∧
        s'.Spells head (fmts ++ payloads.filterMap pcmFmt) := by
  induction payloads with
  | nil =>
    intro fmts s _ hs _
    refine ⟨s, rfl, ?_⟩
    rwa [List.filterMap_nil, List.append_nil]
  | cons payload payloads ih =>
    intro fmts s hfmts hs hroom
    rw [addPayloads]
    cases hp : pcmFmt payload with
    | none =>
      rw [List.filterMap_cons_none hp] at hroom ⊢
      rw [addPayload_eq, hp]
      exact ih hfmts hs hroom
    | some fmt =>
      rw [List.filterMap_cons_some hp, List.append_cons] at hroom ⊢
      have hlt : fmts.length < 5 := by
        simp only [List.length_append, List.length_cons] at hroom
        omega
      obtain ⟨s', hs', hspells⟩ := addPayload_spells hhead hfmts hs hp hlt
      rw [hs']
      refine ih (fun f hf => ?_) hspells hroom
      rcases List.mem_append.1 hf with hf | hf
      · exact hfmts f hf
      · exact List.mem_singleton.1 hf ▸ pcmFmt_eq_some hp

/-- The loop over the payloads, where there is not. -/
theorem addPayloads_overflow {head : Text} (hhead : head.length ≤ 60) (payloads : List Text) :
    ∀ {fmts : List Text} {s : AudioLines}, (∀ f ∈ fmts, f = lit "0" ∨ f = lit "8") →
      s.Spells head fmts → fmts.length ≤ 5 → 5 < (fmts ++ payloads.filterMap pcmFmt).length →
      addPayloads payloads s = .error .overflow := by
  induction payloads with
  | nil =>
    intro fmts s _ _ hle hlt
    simp only [List.filterMap_nil, List.append_nil] at hlt
    omega
  | cons payload payloads ih =>
    intro fmts s hfmts hs hle hlt
    rw [addPayloads]
    cases hp : pcmFmt payload with
    | none =>
      rw [List.filterMap_cons_none hp] at hlt
      rw [addPayload_eq, hp]
      exact ih hfmts hs hle hlt
    | some fmt =>
      rw [List.filterMap_cons_some hp, List.append_cons] at hlt
      rcases Nat.lt_or_eq_of_le hle with hroom | hfull
      · obtain ⟨s', hs', hspells⟩ := addPayload_spells hhead hfmts hs hp hroom
        rw [hs']
        have hle' : (fmts ++ [fmt]).length ≤ 5 := by
          rw [List.length_append, List.length_singleton]
          omega
        refine ih (fun f hf => ?_) hspells hle' hlt
        rcases List.mem_append.1 hf with hf | hf
        · exact hfmts f hf
        · exact List.mem_singleton.1 hf ▸ pcmFmt_eq_some hp
      · rw [addPayload_overflow hs hp hfull]
        rfl

/-- The `m=` line of the answer to an audio line: the formats found, or port 0. -/
def audioMLine (port : Int) (fmts : List Text) : MLine :=
  if fmts = [] then ⟨lit "audio", lit "0", [lit "0"]⟩ else ⟨lit "audio", fmtD port, fmts⟩

/-- The `a=rtpmap` lines of that answer. -/
def rtpmaps (fmts : List Text) : List Text :=
  if fmts = [] then [lit "a=rtpmap:0 PCMU/8000"] else fmts.map rtpmap

/-- The start of an audio line, as it is printed before the loop. -/
def audioHead (port : Int) : Text :=
  lit "m=audio " ++ fmtD port ++ lit " RTP/AVP"

theorem audioHead_spaced (port : Int) (fmts : List Text) :
    audioHead port ++ spaced fmts = MLine.print ⟨lit "audio", fmtD port, fmts⟩ := by
  simp [audioHead, MLine.print, lit]

theorem length_audioHead {port : Int} (hmin : intMin ≤ port) (hmax : port ≤ intMax) :
    (audioHead port).length ≤ 60 := by
  have hport := length_fmtD hmin hmax
  have hstart : (lit "m=audio ").length = 8 := by simp [lit]
  have hproto : (lit " RTP/AVP").length = 8 := by simp [lit]
  rw [audioHead, List.length_append, List.length_append, hstart, hproto]
  omega

/-- The audio fragments of an answer, on an array that holds the start of the line. -/
theorem answerAudio_spells {port : Int} {audiooptions : Buf 128}
    (hopt : audiooptions.text = audioHead port) (hhead : (audioHead port).length ≤ 60)
    {med : Option SdpMedia}
    (hroom : ((med.elim [] SdpMedia.mPayloads).filterMap pcmFmt).length ≤ 5) :
    ∃ s, answerAudio audiooptions med = .ok s ∧
      s.audiooptions.text =
        (audioMLine port ((med.elim [] SdpMedia.mPayloads).filterMap pcmFmt)).print ∧
      s.audiomap.text =
        unlines (rtpmaps ((med.elim [] SdpMedia.mPayloads).filterMap pcmFmt)) := by
  have hstart : (⟨false, audiooptions, Buf.zero⟩ : AudioLines).Spells (audioHead port) [] :=
    ⟨by simp [hopt], rfl, rfl⟩
  obtain ⟨s, hs, hspells⟩ : ∃ s, addMedia ⟨false, audiooptions, Buf.zero⟩ med = .ok s ∧
      s.Spells (audioHead port) ((med.elim [] SdpMedia.mPayloads).filterMap pcmFmt) := by
    cases med with
    | none => exact ⟨_, rfl, hstart⟩
    | some med => exact addPayloads_spells hhead (by simp) hstart hroom
  generalize (med.elim [] SdpMedia.mPayloads).filterMap pcmFmt = fmts at hspells ⊢
  rw [answerAudio, hs]
  by_cases hnil : fmts = []
  · subst hnil
    have hopt0 : (lit "m=audio 0 RTP/AVP 0").length < 128 := by simp [lit]
    have hmap0 : ([] ++ lit "a=rtpmap:0 PCMU/8000\r\n").length < 128 := by simp [lit]
    refine ⟨⟨false, ⟨_, hopt0⟩, ⟨_, hmap0⟩⟩, ?_, ?_, ?_⟩
    · have hmap : s.audiomap.text = [] := hspells.audiomap
      have hadded : s.added = false := hspells.added
      simp only [ok_bind, Buf.strcat, hmap, sprintf_of_lt hopt0, sprintf_of_lt hmap0, hadded]
      rfl
    · simp [audioMLine, MLine.print, lit]
    · simp [rtpmaps, crlf, lit]
  · refine ⟨s, ?_, ?_, ?_⟩
    · have hadded : s.added = true := by simp [hspells.added, hnil]
      rw [ok_bind, hadded]
      rfl
    · rw [hspells.audiooptions, audioMLine, if_neg hnil, audioHead_spaced]
    · rw [hspells.audiomap, rtpmaps, if_neg hnil]

theorem answerAudio_overflow {port : Int} {audiooptions : Buf 128}
    (hopt : audiooptions.text = audioHead port) (hhead : (audioHead port).length ≤ 60)
    {med : Option SdpMedia}
    (hfull : 5 < ((med.elim [] SdpMedia.mPayloads).filterMap pcmFmt).length) :
    answerAudio audiooptions med = .error .overflow := by
  have hstart : (⟨false, audiooptions, Buf.zero⟩ : AudioLines).Spells (audioHead port) [] :=
    ⟨by simp [hopt], rfl, rfl⟩
  cases med with
  | none => simp at hfull
  | some med =>
    have := addPayloads_overflow hhead med.mPayloads (by simp) hstart (by simp)
      (by simpa using hfull)
    rw [answerAudio, addMedia, this]
    rfl

/-! ## The text -/

/-- The lines of a description. -/
def sdpLines (addr : Text) (ms : List MLine) (maps : List Text) : List Text :=
  [lit "v=0", lit "o=- 200 200 IN IP4 " ++ addr, lit "s=SIP Phone", lit "c=IN IP4 " ++ addr,
    lit "t=0 0"] ++ ms.map MLine.print ++ maps ++ [lit "a=ptime:20"]

/-- The text of a description. -/
def sdpText (addr : Text) (ms : List MLine) (maps : List Text) : Text :=
  unlines (sdpLines addr ms maps)

/-- A line that is not a media line and has no line end in it. -/
def Attribute (l : Text) : Prop :=
  '\n' ∉ l ∧ readMLine l = none

instance (l : Text) : Decidable (Attribute l) := inferInstanceAs (Decidable (_ ∧ _))

theorem attribute_append {c : Char} (hc : c ≠ 'm') {l t : Text} (hl : '\n' ∉ c :: l)
    (ht : '\n' ∉ t) : Attribute (c :: l ++ t) :=
  ⟨fun h => (List.mem_append.1 h).elim hl ht, readMLine_of_ne hc (l ++ t)⟩

/-- The lines in front of the media lines. -/
def sessionLines (addr : Text) : List Text :=
  [lit "v=0", lit "o=- 200 200 IN IP4 " ++ addr, lit "s=SIP Phone", lit "c=IN IP4 " ++ addr,
    lit "t=0 0"]

theorem sdpLines_eq (addr : Text) (ms : List MLine) (maps : List Text) :
    sdpLines addr ms maps =
      sessionLines addr ++ (ms.map MLine.print ++ (maps ++ [lit "a=ptime:20"])) := by
  simp [sdpLines, sessionLines]

theorem attribute_sessionLines {addr : Text} (haddr : '\n' ∉ addr) :
    ∀ l ∈ sessionLines addr, Attribute l := by
  have ho : Attribute (lit "o=- 200 200 IN IP4 " ++ addr) := by
    rw [show lit "o=- 200 200 IN IP4 " = 'o' :: lit "=- 200 200 IN IP4 " by simp [lit]]
    exact attribute_append (by decide) (by simp [lit]) haddr
  have hc : Attribute (lit "c=IN IP4 " ++ addr) := by
    rw [show lit "c=IN IP4 " = 'c' :: lit "=IN IP4 " by simp [lit]]
    exact attribute_append (by decide) (by simp [lit]) haddr
  simp only [sessionLines, List.forall_mem_cons]
  exact ⟨by simp [lit, Attribute, readMLine], ho, by simp [lit, Attribute, readMLine], hc,
    by simp [lit, Attribute, readMLine], by simp⟩

/-- The lines behind the media lines. -/
theorem attribute_maps {maps : List Text} (hmaps : ∀ l ∈ maps, Attribute l) :
    ∀ l ∈ maps ++ [lit "a=ptime:20"], Attribute l := by
  refine List.forall_mem_append.2 ⟨hmaps, ?_⟩
  simp [lit, Attribute, readMLine]

/-- The lines of a description are read as they were written. -/
theorem lines_sdpText {addr : Text} (haddr : '\n' ∉ addr) {ms : List MLine}
    (hms : ∀ m ∈ ms, m.Plain) {maps : List Text} (hmaps : ∀ l ∈ maps, Attribute l) :
    lines (sdpText addr ms maps) = sdpLines addr ms maps ++ [[]] := by
  refine lines_unlines ?_
  rw [sdpLines_eq]
  refine List.forall_mem_append.2 ⟨fun l hl => (attribute_sessionLines haddr l hl).1, ?_⟩
  refine List.forall_mem_append.2 ⟨fun l hl => ?_, fun l hl => (attribute_maps hmaps l hl).1⟩
  obtain ⟨m, hm, rfl⟩ := List.mem_map.1 hl
  exact (hms m hm).newline_notMem_print

/-- **What a peer reads**: the media lines that were written, in their order. -/
theorem readMLines_sdpText {addr : Text} (haddr : '\n' ∉ addr) {ms : List MLine}
    (hms : ∀ m ∈ ms, m.Plain) {maps : List Text} (hmaps : ∀ l ∈ maps, Attribute l) :
    readMLines (sdpText addr ms maps) = ms := by
  have hskip {ls : List Text} (h : ∀ l ∈ ls, Attribute l) : ls.filterMap readMLine = [] :=
    List.filterMap_eq_nil_iff.2 fun l hl => (h l hl).2
  have hread : (ms.map MLine.print).filterMap readMLine = ms := by
    rw [List.filterMap_map]
    exact (List.filterMap_congr fun m hm => readMLine_print (hms m hm)).trans List.filterMap_some
  have hempty : [[]].filterMap readMLine = [] := rfl
  rw [readMLines, lines_sdpText haddr hms hmaps, sdpLines_eq, List.filterMap_append,
    List.filterMap_append, List.filterMap_append, hskip (attribute_sessionLines haddr), hread,
    hskip (attribute_maps hmaps), hempty]
  simp

/-- What the final `snprintf` is given. -/
theorem sdpText_eq (addr : Text) (audio : MLine) (video : List MLine) (maps : List Text) :
    lit "v=0\r\n" ++ (lit "o=- 200 200 IN IP4 " ++ addr ++ lit "\r\n") ++
      lit "s=SIP Phone\r\n" ++ (lit "c=IN IP4 " ++ addr ++ lit "\r\n") ++ lit "t=0 0\r\n" ++
      (audio.print ++ lit "\r\n") ++ unlines (video.map MLine.print) ++ unlines maps ++
      lit "a=ptime:20\r\n" = sdpText addr (audio :: video) maps := by
  simp [sdpText, sdpLines, unlines_append, lit, crlf]

/-- Fragments that fit their arrays make a text that fits by far. -/
theorem length_sdpText {addr : Text} (haddr : addr.length ≤ 60) {audio : MLine}
    (haudio : audio.print.length < 128) {video : List MLine}
    (hvideo : (unlines (video.map MLine.print)).length < 128) {maps : List Text}
    (hmaps : (unlines maps).length < 128) :
    (sdpText addr (audio :: video) maps).length < 1023 := by
  rw [← sdpText_eq]
  simp only [List.length_append]
  have h1 : (lit "v=0\r\n").length = 5 := by simp [lit]
  have h2 : (lit "o=- 200 200 IN IP4 ").length = 19 := by simp [lit]
  have h3 : (lit "\r\n").length = 2 := by simp [lit]
  have h4 : (lit "s=SIP Phone\r\n").length = 13 := by simp [lit]
  have h5 : (lit "c=IN IP4 ").length = 9 := by simp [lit]
  have h6 : (lit "t=0 0\r\n").length = 7 := by simp [lit]
  have h7 : (lit "a=ptime:20\r\n").length = 12 := by simp [lit]
  omega

/-- The final `snprintf` has room for everything, so its text is the one put together from
lines. -/
theorem printSdp_eq {addr : Text} (haddr : addr.length ≤ 60) {audio : MLine}
    (haudio : audio.print.length < 128) {video : List MLine}
    (hvideo : (unlines (video.map MLine.print)).length < 128) {maps : List Text}
    (hmaps : (unlines maps).length < 128) :
    printSdp addr audio.print (unlines (video.map MLine.print)) (unlines maps) =
      sdpText addr (audio :: video) maps := by
  rw [printSdp, sdpText_eq]
  exact snprintf_of_lt ((length_sdpText haddr haudio hvideo hmaps).trans (by decide))

/-! ## What `createLocalSdp` writes -/

/-- What is left of `jpegSupported` after the look at the remote video line. -/
def SdpMessage.jpeg (sdp : SdpMessage) (jpegSupported : Bool) : Bool :=
  (sdp.media (lit "video")).elim jpegSupported fun med => findJpeg med.mPayloads jpegSupported

/-- The media line of a video session. -/
def videoMLine (port : Int) : MLine :=
  ⟨lit "video", fmtD port, [lit "26"]⟩

/-- The video lines of a description. -/
def videoMLines (useVideo jpeg present : Bool) (port : Int) : List MLine :=
  if useVideo && jpeg then [videoMLine port]
  else if present && !jpeg then [⟨lit "video", lit "0", [lit "26"]⟩]
  else []

/-- The media lines of an answer. -/
def answerMLines (cfg : Config) (net : Net) (jpegSupported : Bool) (remoteSdp : SdpMessage)
    (ports : Ports) : List MLine :=
  audioMLine (mappedPort cfg net ports.next) remoteSdp.pcmFmts ::
    videoMLines cfg.useVideo (remoteSdp.jpeg jpegSupported)
      (remoteSdp.media (lit "video")).isSome (mappedVideoPort cfg net ports.next)

/-- The media lines of an offer. -/
def offerMLines (cfg : Config) (net : Net) (ports : Ports) : List MLine :=
  ⟨lit "audio", fmtD (mappedPort cfg net ports.next), [lit "0", lit "8", lit "101"]⟩ ::
    videoMLines cfg.useVideo true false (mappedVideoPort cfg net ports.next)

/-- The address of a description, with or without a video line. -/
def sdpAddr (cfg : Config) (net : Net) (video : Bool) : Text :=
  if video then videoAddr cfg net else audioAddr cfg net

/-- The text of an answer. -/
def answerText (cfg : Config) (net : Net) (jpegSupported : Bool) (remoteSdp : SdpMessage)
    (ports : Ports) : Text :=
  sdpText (sdpAddr cfg net (cfg.useVideo && remoteSdp.jpeg jpegSupported))
    (answerMLines cfg net jpegSupported remoteSdp ports) (rtpmaps remoteSdp.pcmFmts)

/-- The text of an offer. -/
def offerText (cfg : Config) (net : Net) (ports : Ports) : Text :=
  sdpText (sdpAddr cfg net cfg.useVideo) (offerMLines cfg net ports)
    [lit "a=rtpmap:0 PCMU/8000", lit "a=rtpmap:8 PCMA/8000",
      lit "a=rtpmap:101 telephone-event/8000"]

theorem findJpeg_eq (payloads : List Text) (jpegSupported : Bool) :
    findJpeg payloads jpegSupported =
      (jpegSupported || payloads.any fun payload => atoi payload == 26) := by
  induction payloads generalizing jpegSupported with
  | nil => simp [findJpeg]
  | cons payload payloads ih =>
    rw [findJpeg, ih, List.any_cons]
    by_cases h : atoi payload = 26
    · rw [if_pos h, h]
      simp
    · rw [if_neg h, beq_eq_false_iff_ne.2 h, Bool.false_or]

theorem mappedPort_mem (cfg : Config) (net : Net) (ports : Ports) :
    intMin ≤ mappedPort cfg net ports ∧ mappedPort cfg net ports ≤ intMax := by
  rw [mappedPort, intMin, intMax]
  split
  · have := net.audioMapAddr.port.toNat_lt
    omega
  · exact ⟨ports.audioPort.le_toInt, Int.le_of_lt_add_one ports.audioPort.toInt_lt⟩

theorem mappedVideoPort_mem (cfg : Config) (net : Net) (ports : Ports) :
    intMin ≤ mappedVideoPort cfg net ports ∧ mappedVideoPort cfg net ports ≤ intMax := by
  rw [mappedVideoPort, intMin, intMax]
  split
  · have := net.videoMapAddr.port.toNat_lt
    omega
  · exact ⟨ports.videoPort.le_toInt, Int.le_of_lt_add_one ports.videoPort.toInt_lt⟩

theorem length_inetNtoa (addr : UInt32) : (inetNtoa addr).length ≤ 47 := by
  have hoctet (i : Nat) : (fmtD (addr.toNat / 256 ^ i % 256 : Nat)).length ≤ 11 := by
    refine length_fmtD ?_ ?_
    · rw [intMin]; omega
    · rw [intMax]; omega
  have h0 := hoctet 0
  have h1 := hoctet 1
  have h2 := hoctet 2
  have h3 := hoctet 3
  simp only [inetNtoa, List.length_append, List.length_cons]
  omega

theorem newline_notMem_fmtD (n : Int) : '\n' ∉ fmtD n :=
  not_mem_fmtD (by decide) (by decide) n

theorem newline_notMem_inetNtoa (addr : UInt32) : '\n' ∉ inetNtoa addr := by
  simp only [inetNtoa, List.mem_append, List.mem_cons, newline_notMem_fmtD, or_false, false_or]
  decide

theorem length_sdpAddr (cfg : Config) (net : Net) (video : Bool) :
    (sdpAddr cfg net video).length ≤ 60 := by
  have haddr (a : UInt32) : (inetNtoa a).length ≤ 60 := (length_inetNtoa a).trans (by decide)
  rw [sdpAddr, videoAddr, audioAddr, ipaddr]
  split
  · split <;> exact haddr _
  · split <;> exact haddr _

theorem newline_notMem_sdpAddr (cfg : Config) (net : Net) (video : Bool) :
    '\n' ∉ sdpAddr cfg net video := by
  rw [sdpAddr, videoAddr, audioAddr, ipaddr]
  split
  · split <;> exact newline_notMem_inetNtoa _
  · split <;> exact newline_notMem_inetNtoa _

theorem audioMLine_print_lt {port : Int} (hmin : intMin ≤ port) (hmax : port ≤ intMax)
    {fmts : List Text} (hfmts : ∀ f ∈ fmts, f = lit "0" ∨ f = lit "8") (hlen : fmts.length ≤ 5) :
    (audioMLine port fmts).print.length < 128 := by
  by_cases hnil : fmts = []
  · rw [audioMLine, if_pos hnil]
    simp [lit, MLine.print]
  · have hhead := length_audioHead hmin hmax
    have hspaced := length_spaced_pcm hfmts
    rw [audioMLine, if_neg hnil, ← audioHead_spaced, List.length_append]
    omega

theorem length_unlines_rtpmaps {fmts : List Text} (hlen : fmts.length ≤ 5) :
    (unlines (rtpmaps fmts)).length < 128 := by
  rw [rtpmaps]
  split
  · simp [lit, crlf]
  · rw [length_unlines_rtpmap]
    omega

theorem videoMLine_print_lt {port : Int} (hmin : intMin ≤ port) (hmax : port ≤ intMax) :
    (unlines ([videoMLine port].map MLine.print)).length < 128 := by
  have hport := length_fmtD hmin hmax
  simp [videoMLine, MLine.print, lit, crlf]
  omega

theorem videoMLines_print_lt (useVideo jpeg present : Bool) {port : Int} (hmin : intMin ≤ port)
    (hmax : port ≤ intMax) :
    (unlines ((videoMLines useVideo jpeg present port).map MLine.print)).length < 128 := by
  rw [videoMLines]
  split
  · exact videoMLine_print_lt hmin hmax
  · split <;> simp [lit, MLine.print, crlf]

/-- The video fragment that is printed when there is a video line. -/
theorem sprintf_video {port : Int} (hmin : intMin ≤ port) (hmax : port ≤ intMax) :
    ∃ videooptions : Buf 128,
      sprintf 128 (lit "m=video " ++ fmtD port ++ lit " RTP/AVP 26\r\n") = .ok videooptions ∧
      videooptions.text = unlines ([videoMLine port].map MLine.print) := by
  have htext : lit "m=video " ++ fmtD port ++ lit " RTP/AVP 26\r\n" =
      unlines ([videoMLine port].map MLine.print) := by
    simp [videoMLine, MLine.print, lit, crlf]
  refine ⟨⟨_, videoMLine_print_lt hmin hmax⟩, ?_, rfl⟩
  rw [htext, sprintf_of_lt (videoMLine_print_lt hmin hmax)]

theorem answerVideo_eq (jpegSupported : Bool) (sdp : SdpMessage) :
    ∃ videooptions, answerVideo jpegSupported (sdp.media (lit "video")) =
        .ok (sdp.jpeg jpegSupported, videooptions) ∧
      videooptions.text = unlines ((videoMLines false (sdp.jpeg jpegSupported)
        (sdp.media (lit "video")).isSome 0).map MLine.print) := by
  rw [SdpMessage.jpeg]
  cases sdp.media (lit "video") with
  | none => exact ⟨Buf.zero, rfl, by simp [videoMLines, Buf.zero]⟩
  | some med =>
    simp only [answerVideo, Option.elim_some]
    cases findJpeg med.mPayloads jpegSupported with
    | true => exact ⟨Buf.zero, rfl, by simp [videoMLines, Buf.zero]⟩
    | false =>
      have hlen : (lit "m=video 0 RTP/AVP 26\r\n").length < 128 := by simp [lit]
      refine ⟨⟨_, hlen⟩, ?_, by simp [videoMLines, MLine.print, lit, crlf]⟩
      rw [sprintf_of_lt hlen]
      rfl

theorem sprintf_audioHead {port : Int} (hopt : (audioHead port).length < 128) :
    sprintf 128 (lit "m=audio " ++ fmtD port ++ lit " RTP/AVP") =
      .ok ⟨audioHead port, hopt⟩ :=
  sprintf_of_lt hopt

/-- **The answer**, when the arrays hold it. -/
theorem createLocalSdp_answer (cfg : Config) (net : Net) (jpegSupported : Bool)
    {remoteSdp : SdpMessage} (ports : Ports) (hroom : remoteSdp.pcmFmts.length ≤ 5) :
    createLocalSdp cfg net jpegSupported (some remoteSdp) ports =
      .ok (answerText cfg net jpegSupported remoteSdp ports, ports.next) := by
  obtain ⟨hmin, hmax⟩ := mappedPort_mem cfg net ports.next
  obtain ⟨hvmin, hvmax⟩ := mappedVideoPort_mem cfg net ports.next
  have hhead := length_audioHead hmin hmax
  have hopt : (audioHead (mappedPort cfg net ports.next)).length < 128 := by omega
  obtain ⟨audio, haudio, hoptions, hmaps⟩ :=
    answerAudio_spells (show (⟨_, hopt⟩ : Buf 128).text = _ from rfl) hhead hroom
  obtain ⟨videooptions, hvideo, hvtext⟩ := answerVideo_eq jpegSupported remoteSdp
  have haudiolt : (audioMLine (mappedPort cfg net ports.next) remoteSdp.pcmFmts).print.length <
      128 := audioMLine_print_lt hmin hmax (fun f hf => mem_pcmFmts hf) hroom
  have hmapslt := length_unlines_rtpmaps hroom
  have hvideolt := videoMLines_print_lt cfg.useVideo (remoteSdp.jpeg jpegSupported)
    (remoteSdp.media (lit "video")).isSome hvmin hvmax
  rw [createLocalSdp]
  simp only [sprintf_audioHead hopt, ok_bind, mediaLines, eXosipGetAudioMedia, eXosipGetVideoMedia,
    eXosipGetMedia_some, haudio, hvideo, pure_bind, Option.isNone_some, Bool.false_or, hoptions,
    hmaps]
  rw [answerText, answerMLines]
  by_cases hv : (cfg.useVideo && remoteSdp.jpeg jpegSupported) = true
  · obtain ⟨fragment, hfragment, hftext⟩ := sprintf_video hvmin hvmax
    rw [if_pos hv, hfragment, ok_bind, hftext, hv, videoMLines, if_pos hv]
    exact congrArg (fun text => Except.ok (text, ports.next))
      (printSdp_eq (length_sdpAddr cfg net true) haudiolt (videoMLine_print_lt hvmin hvmax) hmapslt)
  · have hline : videoMLines cfg.useVideo (remoteSdp.jpeg jpegSupported)
        (remoteSdp.media (lit "video")).isSome (mappedVideoPort cfg net ports.next) =
        videoMLines false (remoteSdp.jpeg jpegSupported)
          (remoteSdp.media (lit "video")).isSome 0 := by
      rw [videoMLines, videoMLines, if_neg hv, Bool.false_and, if_neg Bool.false_ne_true]
    rw [if_neg hv, Bool.eq_false_iff.2 hv, hvtext, ← hline]
    exact congrArg (fun text => Except.ok (text, ports.next))
      (printSdp_eq (length_sdpAddr cfg net false) haudiolt hvideolt hmapslt)

/-- The answers it does not get to write. -/
theorem createLocalSdp_overflow (cfg : Config) (net : Net) (jpegSupported : Bool)
    {remoteSdp : SdpMessage} (ports : Ports) (hfull : 5 < remoteSdp.pcmFmts.length) :
    createLocalSdp cfg net jpegSupported (some remoteSdp) ports = .error .overflow := by
  obtain ⟨hmin, hmax⟩ := mappedPort_mem cfg net ports.next
  have hhead := length_audioHead hmin hmax
  have hopt : (audioHead (mappedPort cfg net ports.next)).length < 128 := by omega
  have haudio :=
    answerAudio_overflow (show (⟨_, hopt⟩ : Buf 128).text = _ from rfl) hhead hfull
  rw [createLocalSdp]
  simp only [sprintf_audioHead hopt, ok_bind, mediaLines, eXosipGetAudioMedia,
    eXosipGetMedia_some, haudio, error_bind]

theorem offerAudio_eq {port : Int} (hopt : (audioHead port).length < 128)
    (hhead : (audioHead port).length ≤ 60) :
    ∃ audio, offerAudio ⟨audioHead port, hopt⟩ = .ok audio ∧
      audio.audiooptions.text =
        MLine.print ⟨lit "audio", fmtD port, [lit "0", lit "8", lit "101"]⟩ ∧
      audio.audiomap.text = unlines [lit "a=rtpmap:0 PCMU/8000", lit "a=rtpmap:8 PCMA/8000",
        lit "a=rtpmap:101 telephone-event/8000"] := by
  have hfmts : lit " 0 8 101" = spaced [lit "0", lit "8", lit "101"] := by simp [lit]
  have hline : (audioHead port ++ lit " 0 8 101").length < 128 := by
    have hlen : (lit " 0 8 101").length = 8 := by simp [lit]
    rw [List.length_append]
    omega
  have hmap0 : ([] ++ lit "a=rtpmap:0 PCMU/8000\r\n").length < 128 := by simp [lit]
  have hmap8 : ([] ++ lit "a=rtpmap:0 PCMU/8000\r\n" ++ lit "a=rtpmap:8 PCMA/8000\r\n").length <
      128 := by simp [lit]
  have hmap101 : ([] ++ lit "a=rtpmap:0 PCMU/8000\r\n" ++ lit "a=rtpmap:8 PCMA/8000\r\n" ++
      lit "a=rtpmap:101 telephone-event/8000\r\n").length < 128 := by simp [lit]
  refine ⟨⟨false, ⟨_, hline⟩, ⟨_, hmap101⟩⟩, ?_, ?_, by simp [lit, crlf]⟩
  · simp only [offerAudio, Buf.strcat, Buf.zero, sprintf_of_lt hline, sprintf_of_lt hmap0,
      sprintf_of_lt hmap8, sprintf_of_lt hmap101, ok_bind]
    rfl
  · rw [← audioHead_spaced, ← hfmts]

theorem offerMLine_print_lt {port : Int} (hmin : intMin ≤ port) (hmax : port ≤ intMax) :
    (MLine.print ⟨lit "audio", fmtD port, [lit "0", lit "8", lit "101"]⟩).length < 128 := by
  have hhead := length_audioHead hmin hmax
  have hfmts : (spaced [lit "0", lit "8", lit "101"]).length = 8 := by simp [lit]
  rw [← audioHead_spaced, List.length_append]
  omega

/-- The `a=rtpmap` lines of an offer. -/
theorem length_unlines_offer : (unlines [lit "a=rtpmap:0 PCMU/8000", lit "a=rtpmap:8 PCMA/8000",
    lit "a=rtpmap:101 telephone-event/8000"]).length < 128 := by
  simp [lit, crlf]

/-- **The offer.**  It always fits. -/
theorem createLocalSdp_offer (cfg : Config) (net : Net) (jpegSupported : Bool) (ports : Ports) :
    createLocalSdp cfg net jpegSupported none ports =
      .ok (offerText cfg net ports, ports.next) := by
  obtain ⟨hmin, hmax⟩ := mappedPort_mem cfg net ports.next
  obtain ⟨hvmin, hvmax⟩ := mappedVideoPort_mem cfg net ports.next
  have hhead := length_audioHead hmin hmax
  have hopt : (audioHead (mappedPort cfg net ports.next)).length < 128 := by omega
  obtain ⟨audio, haudio, hoptions, hmaps⟩ := offerAudio_eq hopt hhead
  have haudiolt := offerMLine_print_lt hmin hmax
  have hmapslt := length_unlines_offer
  rw [createLocalSdp]
  simp only [sprintf_audioHead hopt, ok_bind, mediaLines, haudio, pure_bind, Option.isNone_none,
    Bool.true_or, Bool.and_true, hoptions, hmaps]
  rw [offerText, offerMLines]
  by_cases hv : cfg.useVideo = true
  · obtain ⟨fragment, hfragment, hftext⟩ := sprintf_video hvmin hvmax
    rw [if_pos hv, hfragment, ok_bind, hftext, hv, videoMLines, if_pos (by simp)]
    exact congrArg (fun text => Except.ok (text, ports.next))
      (printSdp_eq (length_sdpAddr cfg net true) haudiolt (videoMLine_print_lt hvmin hvmax) hmapslt)
  · have hnone : (unlines (([] : List MLine).map MLine.print)).length < 128 := by decide
    rw [if_neg hv, Bool.eq_false_iff.2 hv, videoMLines, if_neg (by simp), if_neg (by simp)]
    exact congrArg (fun text => Except.ok (text, ports.next))
      (printSdp_eq (length_sdpAddr cfg net false) haudiolt hnone hmapslt)

theorem createLocalSdp_answer_iff {cfg : Config} {net : Net} {jpegSupported : Bool}
    {remoteSdp : SdpMessage} {ports : Ports} {r : Text × Ports} :
    createLocalSdp cfg net jpegSupported (some remoteSdp) ports = .ok r ↔
      remoteSdp.pcmFmts.length ≤ 5 ∧
        r = (answerText cfg net jpegSupported remoteSdp ports, ports.next) := by
  rcases Nat.lt_or_ge 5 remoteSdp.pcmFmts.length with hfull | hroom
  · rw [createLocalSdp_overflow cfg net jpegSupported ports hfull]
    simp only [reduceCtorEq, false_iff]
    omega
  · rw [createLocalSdp_answer cfg net jpegSupported ports hroom, Except.ok.injEq]
    exact ⟨fun h => ⟨hroom, h.symm⟩, fun h => h.2.symm⟩

/-! ## Room

An array that is written within its bounds is a `Buf`, so a run that gets to the end has kept every
fragment within 127 characters all along. -/

theorem length_answerText (cfg : Config) (net : Net) (jpegSupported : Bool)
    {remoteSdp : SdpMessage} (ports : Ports) (hroom : remoteSdp.pcmFmts.length ≤ 5) :
    (answerText cfg net jpegSupported remoteSdp ports).length < 1023 := by
  obtain ⟨hmin, hmax⟩ := mappedPort_mem cfg net ports.next
  obtain ⟨hvmin, hvmax⟩ := mappedVideoPort_mem cfg net ports.next
  exact length_sdpText (length_sdpAddr _ _ _)
    (audioMLine_print_lt hmin hmax (fun f hf => mem_pcmFmts hf) hroom)
    (videoMLines_print_lt _ _ _ hvmin hvmax) (length_unlines_rtpmaps hroom)

theorem length_offerText (cfg : Config) (net : Net) (ports : Ports) :
    (offerText cfg net ports).length < 1023 := by
  obtain ⟨hmin, hmax⟩ := mappedPort_mem cfg net ports.next
  obtain ⟨hvmin, hvmax⟩ := mappedVideoPort_mem cfg net ports.next
  exact length_sdpText (length_sdpAddr _ _ _) (offerMLine_print_lt hmin hmax)
    (videoMLines_print_lt _ _ _ hvmin hvmax) length_unlines_offer

/-- The description fits: no fragment overruns its array, and the text is shorter than what
`snprintf` leaves of one that it cuts off. -/
def SdpFits (cfg : Config) (net : Net) (jpegSupported : Bool) (remoteSdp : Option SdpMessage)
    (ports : Ports) : Prop :=
  ∃ localSdp ports', createLocalSdp cfg net jpegSupported remoteSdp ports =
    .ok (localSdp, ports') ∧ localSdp.length < 1023

/-- **When the description fits**: an offer always, and an answer if no more than five tokens on the
audio line of the other side read as 0 or 8.  A token that is no number reads as 0. -/
theorem sdp_fits_iff (cfg : Config) (net : Net) (jpegSupported : Bool)
    (remoteSdp : Option SdpMessage) (ports : Ports) :
    SdpFits cfg net jpegSupported remoteSdp ports ↔
      ∀ sdp, remoteSdp = some sdp → sdp.pcmFmts.length ≤ 5 := by
  cases remoteSdp with
  | none =>
    refine iff_of_true ⟨_, _, createLocalSdp_offer cfg net jpegSupported ports, ?_⟩ ?_
    · exact length_offerText cfg net ports
    · exact fun sdp hsdp => absurd hsdp (by simp)
  | some remoteSdp =>
    constructor
    · rintro ⟨localSdp, ports', hok, -⟩ sdp hsdp
      obtain rfl := Option.some.inj hsdp
      exact (createLocalSdp_answer_iff.1 hok).1
    · intro h
      have hroom := h remoteSdp rfl
      exact ⟨_, _, createLocalSdp_answer cfg net jpegSupported ports hroom,
        length_answerText cfg net jpegSupported ports hroom⟩

/-- An audio line with six tokens that are no numbers. -/
def sixTokens : SdpMessage where
  cConnection := none
  mMedias := [⟨lit "audio", lit "4000", List.replicate 6 (lit "x"), []⟩]

theorem sixTokens_overflow : createLocalSdp {} {} false (some sixTokens) {} = .error .overflow :=
  createLocalSdp_overflow {} {} false {} (show 5 < sixTokens.pcmFmts.length by decide +kernel)

/-! ## What a peer reads in it -/

/-- A line with a printed port is read back if the rest of it is. -/
theorem plain_fmtD {m : MLine} (h : m.Plain) (port : Int) :
    MLine.Plain { m with port := fmtD port } :=
  ⟨h.media, ⟨not_mem_fmtD (by decide) (by decide) port, newline_notMem_fmtD port⟩, h.fmts⟩

/-- Literals without a separator in them. -/
theorem plain_lit {media port : Text} {fmts : List Text}
    (h : ∀ w ∈ media :: port :: fmts, ' ' ∉ w ∧ '\n' ∉ w) : MLine.Plain ⟨media, port, fmts⟩ :=
  ⟨h media (by simp), h port (by simp), fun f hf => h f (by simp [hf])⟩

theorem plain_audioMLine {fmts : List Text} (hfmts : ∀ f ∈ fmts, f = lit "0" ∨ f = lit "8")
    (port : Int) : (audioMLine port fmts).Plain := by
  rw [audioMLine]
  split
  · exact plain_lit (by simp [lit])
  · refine plain_fmtD (m := ⟨lit "audio", [], fmts⟩) (plain_lit ?_) port
    simp only [List.forall_mem_cons]
    refine ⟨by simp [lit], by decide, fun f hf => ?_⟩
    rcases hfmts f hf with rfl | rfl
    · simp [lit]
    · simp [lit]

theorem plain_videoMLines (useVideo jpeg present : Bool) (port : Int) :
    ∀ m ∈ videoMLines useVideo jpeg present port, m.Plain := by
  rw [videoMLines]
  split
  · refine List.forall_mem_singleton.2 ?_
    exact plain_fmtD (m := ⟨lit "video", [], [lit "26"]⟩) (plain_lit (by simp [lit])) port
  · split
    · exact List.forall_mem_singleton.2 (plain_lit (by simp [lit]))
    · exact fun m hm => absurd hm List.not_mem_nil

theorem attribute_rtpmaps (fmts : List Text) : ∀ l ∈ rtpmaps fmts, Attribute l := by
  rw [rtpmaps]
  split
  · simp [lit, Attribute, readMLine]
  · intro l hl
    obtain ⟨f, -, rfl⟩ := List.mem_map.1 hl
    rw [rtpmap]
    split
    · simp [lit, Attribute, readMLine]
    · simp [lit, Attribute, readMLine]

/-- **The media lines of the answer**, as a peer reads them. -/
theorem readMLines_answerText (cfg : Config) (net : Net) (jpegSupported : Bool)
    (remoteSdp : SdpMessage) (ports : Ports) :
    readMLines (answerText cfg net jpegSupported remoteSdp ports) =
      answerMLines cfg net jpegSupported remoteSdp ports := by
  refine readMLines_sdpText (newline_notMem_sdpAddr cfg net _) ?_ (attribute_rtpmaps _)
  exact List.forall_mem_cons.2
    ⟨plain_audioMLine (fun f hf => mem_pcmFmts hf) _, plain_videoMLines _ _ _ _⟩

/-- **The media lines of the offer**, as a peer reads them. -/
theorem readMLines_offerText (cfg : Config) (net : Net) (ports : Ports) :
    readMLines (offerText cfg net ports) = offerMLines cfg net ports := by
  refine readMLines_sdpText (newline_notMem_sdpAddr cfg net _) ?_
    (by simp [lit, Attribute, readMLine])
  refine List.forall_mem_cons.2 ⟨?_, plain_videoMLines _ _ _ _⟩
  exact plain_fmtD (m := ⟨lit "audio", [], [lit "0", lit "8", lit "101"]⟩)
    (plain_lit (by simp [lit])) _

end Furikup
