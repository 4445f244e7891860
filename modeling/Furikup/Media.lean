import Furikup.Codec

/-!
# Audio and video sessions

What is set up when a call is answered and taken down when it ends.  The statics of the audio and
of the video part are a record each, `Audio` and `Video`, and with each record goes the history of
the sessions it started and stopped.

* `rtpAudioSetup`, `rtpAudioStop`, `rtpVideoSetup`, `rtpVideoStop` — start and stop.  The setup
  functions fetch the remote description of a transaction from the SIP library, which is the
  argument `remoteSdp`.  `locSdp` is fetched with the same call.
* `rtpAudioSetup_eq_ok`, `rtpVideoSetup_eq_ok` — **when they run to the end, and what they do**.
* `playRingback`, `stopRingback` — the ring tone flag.
* `scaleFn`, `encodeSample` — which of the two laws of telephone audio the receiving and the
  sending thread apply, with the conversions themselves.
-/

set_option autoImplicit false

namespace Furikup

open CText

/-! ## Sessions -/

/-- The addressing and the payload type an RTP session is configured with. -/
structure RtpSession where
  localPort : Int32
  remoteAddr : Text
  remotePort : Int
  payloadType : Int
  deriving DecidableEq, Repr

/-- One entry of the history of a medium. -/
inductive RtpCall
  | setup (session : RtpSession)
  | stop
  deriving DecidableEq, Repr

/-- The statics of `audio.c`. -/
structure Audio where
  session : Option RtpSession := none
  rtpPayload : Int := 0
  ringback : Bool := false
  /-- The descriptor of `ringback.wav`, negative when it could not be opened. -/
  ringbackfile : Int := -1
  /-- How many ring tone threads have been started. -/
  ringbackThreads : Nat := 0
  /-- What was set up and stopped, latest first. -/
  calls : List RtpCall := []
  deriving DecidableEq, Repr

/-- The statics of `video.c`. -/
structure Video where
  isVidAvailable : Bool := false
  stopVideo : Bool := true
  session : Option RtpSession := none
  /-- What was set up and stopped, latest first. -/
  calls : List RtpCall := []
  deriving DecidableEq, Repr

/-- `osip_list_get`: null behind the end of the list. -/
def osipListGet {α : Type} (l : List α) (pos : Nat) : Option α := l[pos]?

/-- The first payload of a media line, which `atoi` reads as a string. -/
def firstPayload (med : Option SdpMedia) : C Text := do
  let med ← deref med
  deref (osipListGet med.mPayloads 0)

def rtpAudioSetup (remoteSdp : Int → Option SdpMessage) (tid : Int) (incoming : Bool)
    (ports : Ports) (audio : Audio) : C Audio := do
  let remSdp := remoteSdp tid
  let remCon ← eXosipGetAudioConnection remSdp
  let remMedia ← eXosipGetAudioMedia remSdp
  let locSdp := remoteSdp tid
  let locMedia ← eXosipGetAudioMedia locSdp
  let payload ← firstPayload (if incoming then locMedia else remMedia)
  let con ← deref remCon
  let med ← deref remMedia
  let session : RtpSession :=
    { localPort := getAudioPort ports
      remoteAddr := con.cAddr
      remotePort := atoi med.mPort
      payloadType := atoi payload }
  pure { audio with
    rtpPayload := atoi payload
    session := some session
    calls := .setup session :: audio.calls }

def rtpAudioStop (audio : Audio) : Audio :=
  { audio with session := none, calls := .stop :: audio.calls }

def videoAvailable (video : Video) : Bool := video.isVidAvailable

def rtpVideoSetup (remoteSdp : Int → Option SdpMessage) (tid : Int) (incoming : Bool)
    (ports : Ports) (video : Video) : C Video :=
  if !videoAvailable video then
    pure video
  else do
    let remSdp := remoteSdp tid
    let remCon ← eXosipGetVideoConnection remSdp
    let remMedia ← eXosipGetVideoMedia remSdp
    let locSdp := remoteSdp tid
    let locMedia ← eXosipGetVideoMedia locSdp
    if locMedia.isNone && remMedia.isNone then
      pure video
    else do
      let payload ← firstPayload (if incoming then locMedia else remMedia)
      let med ← deref remMedia
      -- Only MJPEG is supported, and port 0 says that the other side has no video.
      if atoi payload ≠ 26 ∨ atoi med.mPort = 0 then
        pure video
      else do
        let con ← deref remCon
        let session : RtpSession :=
          { localPort := getVideoPort ports
            remoteAddr := con.cAddr
            remotePort := atoi med.mPort
            payloadType := atoi payload }
        pure { video with
          stopVideo := false
          session := some session
          calls := .setup session :: video.calls }

def rtpVideoStop (video : Video) : Video :=
  if !video.stopVideo then
    { video with stopVideo := true, session := none, calls := .stop :: video.calls }
  else
    video

/-- `initVideo`, which marks the camera as available if it could be set up and started. -/
def initVideo (setupResult startResult : Int) (video : Video) : Video :=
  if setupResult < 0 ∨ startResult < 0 then video else { video with isVidAvailable := true }

def playRingback (audio : Audio) : Audio :=
  let audio := { audio with ringback := true }
  if audio.ringbackfile ≥ 0 then
    { audio with ringbackThreads := audio.ringbackThreads + 1 }
  else
    audio

def stopRingback (audio : Audio) : Audio :=
  { audio with ringback := false }

/-! ## What setup does -/

@[simp] theorem firstPayload_none : firstPayload none = .error .null := rfl

theorem firstPayload_some (med : SdpMedia) :
    firstPayload (some med) = deref med.mPayloads.head? := by
  rw [List.head?_eq_getElem?]
  rfl

/-- The session `rtpAudioSetup` starts on a remote description, if it has everything it takes. -/
def SdpMessage.audioSession (sdp : SdpMessage) (ports : Ports) : Option RtpSession := do
  let med ← sdp.media (lit "audio")
  let payload ← med.mPayloads.head?
  let con ← sdp.connection (lit "audio")
  some
    { localPort := ports.audioPort
      remoteAddr := con.cAddr
      remotePort := atoi med.mPort
      payloadType := atoi payload }

/-- **`rtpAudioSetup` runs to the end exactly on a description that has an audio line with a
payload and with a connection**, in either direction of the call. -/
theorem rtpAudioSetup_eq_ok {remoteSdp : Int → Option SdpMessage} {tid : Int} {incoming : Bool}
    {ports : Ports} {audio audio' : Audio} :
    rtpAudioSetup remoteSdp tid incoming ports audio = .ok audio' ↔
      ∃ sdp, remoteSdp tid = some sdp ∧ ∃ session, sdp.audioSession ports = some session ∧
        audio' = { audio with
          rtpPayload := session.payloadType
          session := some session
          calls := .setup session :: audio.calls } := by
  cases hsdp : remoteSdp tid with
  | none => simp [rtpAudioSetup, hsdp, eXosipGetAudioConnection]
  | some sdp =>
    simp only [rtpAudioSetup, hsdp, eXosipGetAudioConnection, eXosipGetAudioMedia,
      eXosipGetConnection_some, eXosipGetMedia_some, ok_bind, ite_self, Option.some.injEq,
      exists_eq_left', SdpMessage.audioSession]
    cases sdp.media (lit "audio") with
    | none => simp
    | some med =>
      simp only [firstPayload_some, Option.bind_eq_bind, Option.bind_some]
      cases med.mPayloads.head? with
      | none => simp [deref]
      | some payload =>
        simp only [Option.bind_some]
        cases sdp.connection (lit "audio") with
        | none => simp [deref]
        | some con =>
          simp only [deref, ok_bind, pure_eq_ok, Option.bind_some, Option.some.injEq,
            exists_eq_left', getAudioPort]

/-- The session `rtpVideoSetup` starts on a remote description, where it starts one. -/
def SdpMessage.videoSession (sdp : SdpMessage) (ports : Ports) : Option RtpSession := do
  let med ← sdp.media (lit "video")
  let payload ← med.mPayloads.head?
  if atoi payload ≠ 26 ∨ atoi med.mPort = 0 then none
  let con ← sdp.connection (lit "video")
  some
    { localPort := ports.videoPort
      remoteAddr := con.cAddr
      remotePort := atoi med.mPort
      payloadType := atoi payload }

/-- The video line asks for no session: there is none, or it is for another format than MJPEG, or
its port is 0. -/
def SdpMessage.VideoOff (sdp : SdpMessage) : Prop :=
  match sdp.media (lit "video") with
  | none => True
  | some med => ∃ payload, med.mPayloads.head? = some payload ∧
      (atoi payload ≠ 26 ∨ atoi med.mPort = 0)

/-- **`rtpVideoSetup` runs to the end** without a camera, on a description that asks for no video,
and on one that has everything a session takes; only then it starts one. -/
theorem rtpVideoSetup_eq_ok {remoteSdp : Int → Option SdpMessage} {tid : Int} {incoming : Bool}
    {ports : Ports} {video video' : Video} :
    rtpVideoSetup remoteSdp tid incoming ports video = .ok video' ↔
      (video.isVidAvailable = false ∧ video' = video) ∨
      (video.isVidAvailable = true ∧ ∃ sdp, remoteSdp tid = some sdp ∧
        (sdp.VideoOff ∧ video' = video ∨
          ∃ session, sdp.videoSession ports = some session ∧
            video' = { video with
              stopVideo := false
              session := some session
              calls := .setup session :: video.calls })) := by
  rw [rtpVideoSetup, videoAvailable]
  cases video.isVidAvailable with
  | false => simp
  | true =>
    cases remoteSdp tid with
    | none => simp [eXosipGetVideoConnection]
    | some sdp =>
      simp only [eXosipGetVideoConnection, eXosipGetVideoMedia, eXosipGetConnection_some,
        eXosipGetMedia_some, ok_bind, ite_self, SdpMessage.VideoOff, SdpMessage.videoSession,
        Option.some.injEq, exists_eq_left', Bool.not_true, Bool.false_eq_true, if_false,
        false_and, true_and, false_or, reduceCtorEq]
      cases sdp.media (lit "video") with
      | none => simp
      | some med =>
        simp only [firstPayload_some, Option.bind_eq_bind, Option.bind_some, Option.isNone_some,
          Bool.and_self, Bool.false_eq_true, if_false]
        cases med.mPayloads.head? with
        | none => simp [deref]
        | some payload =>
          simp only [Option.bind_some]
          by_cases hoff : atoi payload ≠ 26 ∨ atoi med.mPort = 0
          · simp [deref, hoff]
          · cases sdp.connection (lit "video") with
            | none => simp [deref, hoff]
            | some con => simp [deref, hoff, getVideoPort, eq_comm]

/-! ## The two laws

A sample of telephone audio is one byte on the wire.  Both laws store a sign, a segment number and
four bits of the magnitude; the conversions are the arithmetic of the source on the magnitude, which
is never negative there. -/

/-- The segment a magnitude lies in. -/
def valSeg (val : Nat) : Nat :=
  let val := val >>> 7
  let (val, r) := if val &&& 0xf0 ≠ 0 then (val >>> 4, 4) else (val, 0)
  let (val, r) := if val &&& 0x0c ≠ 0 then (val >>> 2, r + 2) else (val, r)
  if val &&& 0x02 ≠ 0 then r + 1 else r

/-- The segment number and the four bits below the leading one. -/
def segmentCode (val : Nat) : UInt8 :=
  UInt8.ofNat ((valSeg val <<< 4) ||| ((val >>> (valSeg val + 3)) &&& 0x0f))

def s16ToAlaw (pcmVal : Int) : UInt8 :=
  let (mask, val) : UInt8 × Nat :=
    if 0 ≤ pcmVal then (0xD5, pcmVal.toNat) else (0x55, min (-pcmVal).toNat 0x7fff)
  let aval := if val < 256 then UInt8.ofNat (val >>> 4) else segmentCode val
  aval ^^^ mask

def alawToS16 (aVal : UInt8) : Int :=
  let aVal := aVal ^^^ 0x55
  let t := (aVal &&& 0x7f).toNat
  let t :=
    if t < 16 then (t <<< 4) + 8
    else
      let seg := (t >>> 4) &&& 0x07
      (((t &&& 0x0f) <<< 4) + 0x108) <<< (seg - 1)
  if aVal &&& 0x80 ≠ 0 then t else -t

def s16ToUlaw (pcmVal : Int) : UInt8 :=
  let (mask, val) : UInt8 × Nat :=
    if pcmVal < 0 then (0x7f, (0x84 - pcmVal).toNat) else (0xff, (pcmVal + 0x84).toNat)
  segmentCode (min val 0x7fff) ^^^ mask

def ulawToS16 (uVal : UInt8) : Int :=
  let uVal := ~~~uVal
  let t : Nat := ((uVal &&& 0x0f).toNat <<< 3) + 0x84
  let t := t <<< ((uVal &&& 0x70) >>> 4).toNat
  if uVal &&& 0x80 ≠ 0 then 0x84 - t else t - 0x84

/-- The conversion `rtpAudioRecv` picks. -/
def scaleFn (rtpPayload : Int) : UInt8 → Int :=
  if rtpPayload = 0 then ulawToS16 else alawToS16

/-- The conversion `rtpAudioSend` applies to a sample. -/
def encodeSample (rtpPayload value : Int) : UInt8 :=
  if rtpPayload = 0 then s16ToUlaw value else s16ToAlaw value

theorem ulawToS16_ne_alawToS16 : ulawToS16 ≠ alawToS16 := by
  intro h
  exact absurd (congrFun h 0) (by decide)

theorem s16ToUlaw_ne_s16ToAlaw : s16ToUlaw ≠ s16ToAlaw := by
  intro h
  exact absurd (congrFun h 0) (by decide)

/-- The threads apply mu-law on payload 0 only, and A-law on every other. -/
theorem scaleFn_eq_iff (p : Int) :
    (scaleFn p = ulawToS16 ↔ p = 0) ∧ (scaleFn p = alawToS16 ↔ p ≠ 0) := by
  rw [scaleFn]
  by_cases hp : p = 0
  · rw [if_pos hp]
    exact ⟨⟨fun _ => hp, fun _ => rfl⟩,
      ⟨fun h => absurd h ulawToS16_ne_alawToS16, fun h => absurd hp h⟩⟩
  · rw [if_neg hp]
    exact ⟨⟨fun h => absurd h.symm ulawToS16_ne_alawToS16, fun h => absurd h hp⟩,
      ⟨fun _ => hp, fun _ => rfl⟩⟩

theorem encodeSample_eq_iff (p : Int) :
    (encodeSample p = s16ToUlaw ↔ p = 0) ∧ (encodeSample p = s16ToAlaw ↔ p ≠ 0) := by
  by_cases hp : p = 0
  · have h : encodeSample p = s16ToUlaw := funext fun value => by rw [encodeSample, if_pos hp]
    rw [h]
    exact ⟨⟨fun _ => hp, fun _ => rfl⟩,
      ⟨fun h => absurd h s16ToUlaw_ne_s16ToAlaw, fun h => absurd hp h⟩⟩
  · have h : encodeSample p = s16ToAlaw := funext fun value => by rw [encodeSample, if_neg hp]
    rw [h]
    exact ⟨⟨fun h => absurd h.symm s16ToUlaw_ne_s16ToAlaw, fun h => absurd h hp⟩,
      ⟨fun _ => hp, fun _ => rfl⟩⟩

/-- Silence goes through both laws and comes back as the nearest sample they have. -/
example : ulawToS16 (s16ToUlaw 0) = 0 ∧ alawToS16 (s16ToAlaw 0) = 8 := by decide

end Furikup
