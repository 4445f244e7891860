import Furikup.Lifecycle
import Furikup.Negotiation

/-!
# The port a session is bound to

A port is taken when the description of a call is written and bound when the call is answered, many
steps later, and in between it is in two globals that every description overwrites.

* `sentSdp` — the description the peer got for the current call, read off the history.
* `Advertised`, `PortsOk` — a session that runs is bound to the port on the media line of it.
* `KeepsPorts` — the steps that keep it so.  The first 200 of a call that is accepted is the last:
  `answerCall` writes a new description each time it runs.
* `advertised_port_bound` — **on a run of such steps the peer's packets arrive**.
-/

set_option autoImplicit false

namespace Furikup

open CText CallState

/-- The description that was sent for the current call: the one in the INVITE, if it went out, or in
the first 200 that was accepted.  An announced call starts without one. -/
def sentSdp : List Action → Option Text
  | [] => none
  | .invite _ sdp result :: _ => if 0 < result then some sdp else none
  | .incomingCall .. :: _ => none
  | .answer _ 200 (some sdp) result :: requests =>
    (sentSdp requests).or (if result = 0 then some sdp else none)
  | _ :: requests => sentSdp requests

/-- The first line of a media type in the description `sdp` has the port `port`. -/
def Advertised (media : Text) (sdp : Text) (port : Int32) : Prop :=
  ∃ m, (readMLines sdp).find? (fun m => osipStrcasecmp m.media media) = some m ∧
    atoi m.port = port.toInt

/-- Every session is bound to the port that was sent to the peer. -/
structure PortsOk (e : Engine) : Prop where
  audio : ∀ session, e.audio.session = some session →
    ∃ sdp, sentSdp e.requests = some sdp ∧ Advertised (lit "audio") sdp session.localPort
  video : ∀ session, e.video.session = some session →
    ∃ sdp, sentSdp e.requests = some sdp ∧ Advertised (lit "video") sdp session.localPort

/-- The steps that keep the ports in order.  A call is answered before a 200 of it was accepted, and
if that one is, with an audio format in common; and media is set up for a call that a description
was sent for.  With a camera, it has to be the call that was answered: `offer` is what the library
knows of the peer's description for each transaction. -/
def KeepsPorts (offer : Int → Option SdpMessage) (s : Core) : Input → Prop
  | .gui lib .answer => s.currentState = eIncomingCall → sentSdp s.requests = none ∧
    (lib.answerResult = 0 → (∀ remote ∈ lib.remoteSdp s.tid, remote.pcmFmts ≠ []) ∧
      (s.video.isVidAvailable = true → lib.remoteSdp s.tid = offer s.tid))
  | .poll lib (some je) => s.currentState.Ringing → je.type = .callAnswered ∨ je.type = .callAck →
    (sentSdp s.requests).isSome = true ∧
      (s.currentState = eIncomingCall → s.video.isVidAvailable = true →
        je.tid = s.tid ∧ lib.remoteSdp je.tid = offer je.tid)
  | _ => True

instance (offer : Int → Option SdpMessage) (s : Core) : ∀ i, Decidable (KeepsPorts offer s i)
  | .gui lib .answer => inferInstanceAs (Decidable (s.currentState = eIncomingCall →
      sentSdp s.requests = none ∧
        (lib.answerResult = 0 → (∀ remote ∈ lib.remoteSdp s.tid, remote.pcmFmts ≠ []) ∧
          (s.video.isVidAvailable = true → lib.remoteSdp s.tid = offer s.tid))))
  | .poll lib (some je) => inferInstanceAs (Decidable (s.currentState.Ringing →
      je.type = .callAnswered ∨ je.type = .callAck → (sentSdp s.requests).isSome = true ∧
        (s.currentState = eIncomingCall → s.video.isVidAvailable = true →
          je.tid = s.tid ∧ lib.remoteSdp je.tid = offer je.tid)))
  | .gui _ .hangup => isTrue trivial
  | .gui _ (.newCall _) => isTrue trivial
  | .gui _ .reject => isTrue trivial
  | .gui _ (.changePresence _) => isTrue trivial
  | .gui _ .shutdown => isTrue trivial
  | .gui _ (.unknown _) => isTrue trivial
  | .poll _ none => isTrue trivial

/-! ## What is advertised -/

theorem atoi_port (port : Int32) : atoi (fmtD port.toInt) = port.toInt :=
  atoi_fmtD port.le_toInt (Int.le_of_lt_add_one port.toInt_lt)

/-- The ports on an audio line and on a video line after it. -/
theorem advertised_lines {sdp : Text} {audioPort : Int32} {fmts : List Text} {video : List MLine}
    (hread : readMLines sdp = ⟨lit "audio", fmtD audioPort.toInt, fmts⟩ :: video) :
    Advertised (lit "audio") sdp audioPort ∧
      ∀ videoPort : Int32, video = [videoMLine videoPort.toInt] →
        Advertised (lit "video") sdp videoPort := by
  have hother : osipStrcasecmp (lit "audio") (lit "video") ≠ true := by
    rw [not_video_of_audio (beq_self_eq_true _)]
    exact Bool.false_ne_true
  constructor
  · refine ⟨⟨lit "audio", fmtD audioPort.toInt, fmts⟩, ?_, atoi_port audioPort⟩
    rw [hread]
    exact List.find?_cons_of_pos (beq_self_eq_true _)
  · rintro videoPort rfl
    refine ⟨videoMLine videoPort.toInt, ?_, atoi_port videoPort⟩
    rw [hread, List.find?_cons_of_neg (by exact hother)]
    exact List.find?_cons_of_pos (beq_self_eq_true _)

theorem mappedPort_eq {cfg : Config} (hnat : cfg.natTraversal = false) (net : Net) (ports : Ports) :
    mappedPort cfg net ports = ports.audioPort.toInt := by
  rw [mappedPort, hnat, if_neg Bool.false_ne_true]

theorem mappedVideoPort_eq {cfg : Config} (hnat : cfg.natTraversal = false) (net : Net)
    (ports : Ports) : mappedVideoPort cfg net ports = ports.videoPort.toInt := by
  rw [mappedVideoPort, hnat, if_neg Bool.false_ne_true]

/-- The ports of an offer. -/
theorem advertised_offer {cfg : Config} (hnat : cfg.natTraversal = false) (net : Net)
    (ports : Ports) :
    Advertised (lit "audio") (offerText cfg net ports) ports.next.audioPort ∧
      (cfg.useVideo = true →
        Advertised (lit "video") (offerText cfg net ports) ports.next.videoPort) := by
  have hread := readMLines_offerText cfg net ports
  rw [offerMLines, mappedPort_eq hnat, mappedVideoPort_eq hnat] at hread
  obtain ⟨haudio, hvideo⟩ := advertised_lines hread
  exact ⟨haudio, fun huse => hvideo _ (by rw [huse, videoMLines, if_pos (by decide)])⟩

/-- The ports of an answer, where it takes the line up. -/
theorem advertised_answer {cfg : Config} (hnat : cfg.natTraversal = false) (net : Net)
    (ports : Ports) (jpegSupported : Bool) {remote : SdpMessage} (hpcm : remote.pcmFmts ≠ []) :
    Advertised (lit "audio") (answerText cfg net jpegSupported remote ports) ports.next.audioPort ∧
      (cfg.useVideo = true → remote.jpeg jpegSupported = true →
        Advertised (lit "video") (answerText cfg net jpegSupported remote ports)
          ports.next.videoPort) := by
  have hread := readMLines_answerText cfg net jpegSupported remote ports
  rw [answerMLines, mappedPort_eq hnat, mappedVideoPort_eq hnat, audioMLine, if_neg hpcm] at hread
  obtain ⟨haudio, hvideo⟩ := advertised_lines hread
  refine ⟨haudio, fun huse hjpeg => hvideo _ ?_⟩
  rw [huse, hjpeg, videoMLines, if_pos (by decide)]

theorem jpeg_of_jpeg_false {sdp : SdpMessage} (h : sdp.jpeg false = true) (jpegSupported : Bool) :
    sdp.jpeg jpegSupported = true := by
  rw [SdpMessage.jpeg] at h ⊢
  cases hmed : sdp.media (lit "video") with
  | none => rw [hmed] at h; exact absurd h Bool.false_ne_true
  | some med =>
    rw [hmed, Option.elim_some, findJpeg_eq, Bool.false_or] at h
    rw [Option.elim_some, findJpeg_eq, h, Bool.or_true]

/-- A video line that a session is started on offers JPEG. -/
theorem jpeg_of_videoSession {sdp : SdpMessage} {ports : Ports} {session : RtpSession}
    (h : sdp.videoSession ports = some session) :
    sdp.jpeg false = true ∧ session.localPort = ports.videoPort := by
  obtain ⟨med, hmed, h⟩ := Option.bind_eq_some_iff.1 h
  obtain ⟨payload, hhead, h⟩ := Option.bind_eq_some_iff.1 h
  by_cases hoff : atoi payload ≠ 26 ∨ atoi med.mPort = 0
  · rw [if_pos hoff] at h
    exact absurd h (by simp)
  · rw [if_neg hoff] at h
    obtain ⟨con, -, h⟩ := Option.bind_eq_some_iff.1 h
    obtain rfl := Option.some.inj h
    have htype : (atoi payload == 26) = true :=
      beq_iff_eq.2 (not_not.1 fun htype => hoff (Or.inl htype))
    rw [SdpMessage.jpeg, hmed, Option.elim_some, findJpeg_eq, List.any_eq_true.2
      ⟨payload, List.mem_of_mem_head? hhead, htype⟩]
    exact ⟨rfl, rfl⟩

theorem localPort_of_audioSession {sdp : SdpMessage} {ports : Ports} {session : RtpSession}
    (h : sdp.audioSession ports = some session) : session.localPort = ports.audioPort := by
  obtain ⟨med, -, h⟩ := Option.bind_eq_some_iff.1 h
  obtain ⟨payload, -, h⟩ := Option.bind_eq_some_iff.1 h
  obtain ⟨con, -, h⟩ := Option.bind_eq_some_iff.1 h
  exact Option.some.inj h ▸ rfl

/-! ## The invariant -/

/-- The invariant.  While a call is being set up, the ports a session would get are the ones that
were sent; for the video port of an incoming call, if its offer had JPEG. -/
structure PortsInv (cfg : Config) (offer : Int → Option SdpMessage) (s : Core) : Prop where
  media : MediaInv s
  camera : s.video.isVidAvailable = true → cfg.useVideo = true
  audioSent : s.currentState.Ringing → ∀ sdp, sentSdp s.requests = some sdp →
    Advertised (lit "audio") sdp s.ports.audioPort
  videoSent : s.currentState.Ringing → ∀ sdp, sentSdp s.requests = some sdp →
    s.video.isVidAvailable = true →
    (s.currentState = eIncomingCall → ∀ remote, offer s.tid = some remote →
      remote.jpeg false = true) → Advertised (lit "video") sdp s.ports.videoPort
  audio : ∀ session, s.audio.session = some session →
    ∃ sdp, sentSdp s.requests = some sdp ∧ Advertised (lit "audio") sdp session.localPort
  video : ∀ session, s.video.session = some session →
    ∃ sdp, sentSdp s.requests = some sdp ∧ Advertised (lit "video") sdp session.localPort

theorem PortsInv.portsOk {cfg : Config} {offer : Int → Option SdpMessage} {e : Engine}
    (h : PortsInv cfg offer e.core) : PortsOk e :=
  ⟨h.audio, h.video⟩

/-- No session runs outside an answered call. -/
theorem MediaInv.session_eq_none {s : Core} (hs : MediaInv s) (h : s.currentState ≠ eAnswered) :
    s.audio.session = none ∧ s.video.session = none := by
  have haudio := hs.audioSession
  rw [decide_eq_false h] at haudio
  have hstop : s.video.stopVideo = true := Bool.not_eq_false _ ▸ fun hstop => h (hs.stopVideo hstop)
  have hvideo := hs.videoSession
  rw [hstop] at hvideo
  exact ⟨by simpa using haudio, by simpa using hvideo⟩

theorem isVidAvailable_rtpVideoStop (video : Video) :
    (rtpVideoStop video).isVidAvailable = video.isVidAvailable := by
  rw [rtpVideoStop]
  split
  · rfl
  · rfl

theorem isVidAvailable_rtpVideoSetup {remoteSdp : Int → Option SdpMessage} {tid : Int}
    {incoming : Bool} {ports : Ports} {video video' : Video}
    (h : rtpVideoSetup remoteSdp tid incoming ports video = .ok video') :
    video'.isVidAvailable = video.isVidAvailable := by
  rcases rtpVideoSetup_eq_ok.1 h with ⟨-, rfl⟩ | ⟨-, sdp, -, ⟨-, rfl⟩ | ⟨session, -, rfl⟩⟩
  · rfl
  · rfl
  · rfl

theorem isVidAvailable_hangup (s : Core) :
    s.hangup.video.isVidAvailable = s.video.isVidAvailable := by
  rw [Core.hangup]
  split
  · exact isVidAvailable_rtpVideoStop s.video
  · rfl

/-- Whether there is a camera is settled at the start. -/
theorem isVidAvailable_arm {cfg : Config} {i : Input} {s s' : Core} (harm : Arm cfg i s s') :
    s'.video.isVidAvailable = s.video.isVidAvailable := by
  cases harm with
  | hangup => exact isVidAvailable_hangup s
  | disconnectCall => exact isVidAvailable_hangup s
  | answered _ _ _ hvideo => exact isVidAvailable_rtpVideoSetup hvideo
  | ack _ _ _ hvideo => exact isVidAvailable_rtpVideoSetup hvideo
  | closed => exact isVidAvailable_rtpVideoStop s.video
  | _ => rfl

/-- A step to a state without a call. -/
theorem PortsInv.leave {cfg : Config} {offer : Int → Option SdpMessage} {s s' : Core}
    (hs : PortsInv cfg offer s) (hmedia : MediaInv s')
    (hcamera : s'.video.isVidAvailable = s.video.isVidAvailable)
    (hstate : ¬s'.currentState.Busy) : PortsInv cfg offer s' := by
  obtain ⟨haudio, hvideo⟩ := hmedia.session_eq_none fun h => hstate (Or.inr (Or.inl h))
  refine ⟨hmedia, fun h => hs.camera (hcamera ▸ h), fun h => absurd h.busy hstate,
    fun h => absurd h.busy hstate, fun session h => ?_, fun session h => ?_⟩
  · exact absurd (haudio.symm.trans h) (by simp)
  · exact absurd (hvideo.symm.trans h) (by simp)

/-- A step into the setting up of a call. -/
theorem PortsInv.ring {cfg : Config} {offer : Int → Option SdpMessage} {s s' : Core}
    (hs : PortsInv cfg offer s) (hmedia : MediaInv s')
    (hcamera : s'.video.isVidAvailable = s.video.isVidAvailable)
    (hstate : s'.currentState.Ringing)
    (hsent : ∀ sdp, sentSdp s'.requests = some sdp →
      Advertised (lit "audio") sdp s'.ports.audioPort ∧
        (s'.video.isVidAvailable = true → (s'.currentState = eIncomingCall → ∀ remote,
          offer s'.tid = some remote → remote.jpeg false = true) →
          Advertised (lit "video") sdp s'.ports.videoPort)) : PortsInv cfg offer s' := by
  obtain ⟨haudio, hvideo⟩ := hmedia.session_eq_none hstate.ne_answered
  refine ⟨hmedia, fun h => hs.camera (hcamera ▸ h), fun _ sdp h => (hsent sdp h).1,
    fun _ sdp h => (hsent sdp h).2, fun session h => ?_, fun session h => ?_⟩
  · exact absurd (haudio.symm.trans h) (by simp)
  · exact absurd (hvideo.symm.trans h) (by simp)

/-- The ports in a 200, with or without an offer to answer. -/
theorem advertised_ok {cfg : Config} (hnat : cfg.natTraversal = false) {net : Net}
    {jpegSupported : Bool} {offer : Option SdpMessage} {ports ports' : Ports} {sdp : Text}
    (h : createLocalSdp cfg net jpegSupported offer ports = .ok (sdp, ports'))
    (hpcm : ∀ remote, offer = some remote → remote.pcmFmts ≠ []) :
    Advertised (lit "audio") sdp ports'.audioPort ∧
      (cfg.useVideo = true → (∀ remote, offer = some remote → remote.jpeg false = true) →
        Advertised (lit "video") sdp ports'.videoPort) := by
  cases offer with
  | none =>
    rw [createLocalSdp_offer] at h
    obtain ⟨rfl, rfl⟩ := Prod.mk.inj (Except.ok.inj h)
    obtain ⟨haudio, hvideo⟩ := advertised_offer hnat net ports
    exact ⟨haudio, fun huse _ => hvideo huse⟩
  | some remote =>
    obtain ⟨-, heq⟩ := createLocalSdp_answer_iff.1 h
    obtain ⟨rfl, rfl⟩ := Prod.mk.inj heq
    obtain ⟨haudio, hvideo⟩ := advertised_answer hnat net ports jpegSupported (hpcm remote rfl)
    exact ⟨haudio, fun huse hjpeg =>
      hvideo huse (jpeg_of_jpeg_false (hjpeg remote rfl) jpegSupported)⟩

/-- The answered transition binds the ports that were sent. -/
theorem PortsInv.start {cfg : Config} {offer : Int → Option SdpMessage} {lib : Lib} {je : Event}
    {incoming : Bool} {audio : Audio} {video : Video} {s s' : Core} (hs : PortsInv cfg offer s)
    (hmedia : MediaInv s') (hring : s.currentState.Ringing)
    (hkeeps : (sentSdp s.requests).isSome = true ∧
      (s.currentState = eIncomingCall → s.video.isVidAvailable = true →
        je.tid = s.tid ∧ lib.remoteSdp je.tid = offer je.tid))
    (haudio : rtpAudioSetup lib.remoteSdp je.tid incoming s.ports s.audio = .ok audio)
    (hvideo : rtpVideoSetup lib.remoteSdp je.tid incoming s.ports s.video = .ok video)
    (hstate : s'.currentState = eAnswered) (hsent : sentSdp s'.requests = sentSdp s.requests)
    (haudio' : s'.audio.session = audio.session) (hvideo' : s'.video = video) :
    PortsInv cfg offer s' := by
  obtain ⟨sdp, hsdp⟩ := Option.isSome_iff_exists.1 hkeeps.1
  have hnot : ¬s'.currentState.Ringing := by rw [hstate]; decide
  have hcamera : video.isVidAvailable = true → cfg.useVideo = true := fun h =>
    hs.camera ((isVidAvailable_rtpVideoSetup hvideo).symm.trans h)
  refine ⟨hmedia, fun h => hcamera (hvideo' ▸ h), fun h => absurd h hnot,
    fun h => absurd h hnot, fun session h => ?_, fun session h => ?_⟩
  · obtain ⟨remote, -, session', hsession', rfl⟩ := rtpAudioSetup_eq_ok.1 haudio
    obtain rfl : session' = session := Option.some.inj (haudio'.symm.trans h)
    refine ⟨sdp, hsent.trans hsdp, ?_⟩
    rw [localPort_of_audioSession hsession']
    exact hs.audioSent hring sdp hsdp
  · rw [hvideo'] at h
    have hnone := (hs.media.session_eq_none hring.ne_answered).2
    rcases rtpVideoSetup_eq_ok.1 hvideo with ⟨-, rfl⟩ | ⟨havail, remote, hremote, hstart⟩
    · exact absurd (hnone.symm.trans h) (by simp)
    · rcases hstart with ⟨-, rfl⟩ | ⟨session', hsession', rfl⟩
      · exact absurd (hnone.symm.trans h) (by simp)
      · obtain rfl : session' = session := Option.some.inj h
        obtain ⟨hjpeg, hport⟩ := jpeg_of_videoSession hsession'
        refine ⟨sdp, hsent.trans hsdp, ?_⟩
        rw [hport]
        refine hs.videoSent hring sdp hsdp havail fun hin remote' hremote' => ?_
        obtain ⟨htid, hoffer⟩ := hkeeps.2 hin havail
        rw [← htid, ← hoffer, hremote] at hremote'
        exact Option.some.inj hremote' ▸ hjpeg

theorem portsInv_arm {cfg : Config} (hnat : cfg.natTraversal = false)
    {offer : Int → Option SdpMessage} {i : Input} {s s' : Core} (hkeeps : KeepsPorts offer s i)
    (hs : PortsInv cfg offer s) (harm : Arm cfg i s s') : PortsInv cfg offer s' := by
  have hmedia := mediaInv_arm harm hs.media
  have hcamera := isVidAvailable_arm harm
  cases harm with
  | idle => exact hs
  | @makeCall lib address user sdp ports _ hstate hbuilt haddress hsdp =>
    refine hs.ring hmedia hcamera (Or.inl rfl) fun sent hsent => ?_
    have hsent : (if 0 < lib.inviteResult then some sdp else none) = some sent := hsent
    split at hsent
    · obtain rfl := Option.some.inj hsent
      obtain ⟨haudio, hvideo⟩ := advertised_ok hnat hsdp (by simp)
      exact ⟨haudio, fun havail _ => hvideo (hs.camera havail) (by simp)⟩
    · exact absurd hsent (by simp)
  | @answerCall lib sdp ports _ hstate hbuilt hsdp =>
    refine hs.ring hmedia hcamera (Or.inr hstate) fun sent hsent => ?_
    obtain ⟨hnone, haccepted⟩ := hkeeps hstate
    have hsent : (sentSdp s.requests).or (if lib.answerResult = 0 then some sdp else none) =
        some sent := hsent
    rw [hnone, Option.none_or] at hsent
    split at hsent
    · next hresult =>
      obtain rfl := Option.some.inj hsent
      obtain ⟨hpcm, hoffer⟩ := haccepted hresult
      obtain ⟨haudio, hvideo⟩ := advertised_ok hnat hsdp hpcm
      refine ⟨haudio, fun havail hjpeg => hvideo (hs.camera havail) ?_⟩
      rw [hoffer havail]
      exact hjpeg hstate
    · exact absurd hsent (by simp)
  | hangup => exact hs.leave hmedia hcamera (by simp only [currentState_hangup]; decide)
  | disconnect hstate => exact hs.leave hmedia hcamera (show ¬eDisconnecting.Busy by decide)
  | disconnectCall => exact hs.leave hmedia hcamera (show ¬eDisconnecting.Busy by decide)
  | quit =>
    exact ⟨hmedia, hs.camera, hs.audioSent, hs.videoSent, hs.audio, hs.video⟩
  | registering => exact hs.leave hmedia hcamera (show ¬eRegistering.Busy by decide)
  | registeringRegistered => exact hs.leave hmedia hcamera (show ¬eRegistered.Busy by decide)
  | registered => exact hs.leave hmedia hcamera (show ¬eRegistered.Busy by decide)
  | incoming => exact hs.ring hmedia hcamera (Or.inr rfl) fun _ hsent => by cases hsent
  | ringing hring =>
    exact hs.ring hmedia hcamera hring fun sent hsent =>
      ⟨hs.audioSent hring sent hsent, hs.videoSent hring sent hsent⟩
  | answered hring htype haudio hvideo =>
    exact hs.start hmedia hring (hkeeps hring (Or.inl htype)) haudio hvideo rfl rfl rfl rfl
  | ack hring htype haudio hvideo =>
    exact hs.start hmedia hring (hkeeps hring (Or.inr htype)) haudio hvideo rfl rfl rfl rfl
  | ended => exact hs.leave hmedia hcamera (show ¬eRegistered.Busy by decide)
  | closed => exact hs.leave hmedia hcamera (show ¬eRegistered.Busy by decide)
  | disconnected => exact hs.leave hmedia hcamera (show ¬eNotRegistered.Busy by decide)

theorem portsInv_boot (cfg : Config) (offer : Int → Option SdpMessage)
    (callThid cbid ringbackfile cameraSetup cameraStart : Int) :
    PortsInv cfg offer (boot cfg callThid cbid ringbackfile cameraSetup cameraStart).core := by
  have hmedia := mediaInv_boot cfg callThid cbid ringbackfile cameraSetup cameraStart
  obtain ⟨haudio, hvideo⟩ := hmedia.session_eq_none
    (show (boot cfg callThid cbid ringbackfile cameraSetup cameraStart).currentState ≠ eAnswered
      from fun h => by cases h)
  refine ⟨hmedia, ?_, fun _ _ h => (by cases h), fun _ _ h => (by cases h),
    fun session h => ?_, fun session h => ?_⟩
  · intro h
    have hvideo : (if cfg.useUsb && cfg.useVideo then initVideo cameraSetup cameraStart {}
        else {} : Video).isVidAvailable = true := h
    split at hvideo
    · next huse => exact (Bool.and_eq_true _ _ ▸ huse).2
    · exact absurd hvideo Bool.false_ne_true
  · exact absurd (haudio.symm.trans h) (by simp)
  · exact absurd (hvideo.symm.trans h) (by simp)

/-- **A session is bound to the port that was sent**, all along a run whose steps keep the ports in
order, if there is no NAT to traverse. -/
theorem advertised_port_bound {cfg : Config} (hnat : cfg.natTraversal = false)
    (offer : Int → Option SdpMessage) (callThid cbid ringbackfile cameraSetup cameraStart : Int)
    {is : List Input}
    (h : Machine.Along (step cfg) (fun e i => e.thread = .looping → KeepsPorts offer e.core i) is
      (boot cfg callThid cbid ringbackfile cameraSetup cameraStart)) :
    Machine.Always (step cfg) PortsOk is
      (boot cfg callThid cbid ringbackfile cameraSetup cameraStart) := by
  have hstep (i : Input) (e e' : Engine) (_ : True) (he : PortsInv cfg offer e.core)
      (hkeeps : e.thread = .looping → KeepsPorts offer e.core i) (hstep : step cfg i e = .ok e') :
      PortsInv cfg offer e'.core := by
    by_cases hloop : e.thread = .looping
    · exact portsInv_arm hnat (hkeeps hloop) he (step_arm hstep)
    · rw [step.eq_def, if_neg hloop] at hstep
      exact pure_eq_ok.1 hstep ▸ he
  have hboot := portsInv_boot cfg offer callThid cbid ringbackfile cameraSetup cameraStart
  exact (Machine.always_of_along hstep (fun _ _ => trivial) hboot h).mono fun _ => PortsInv.portsOk

/-- The library with the peer's description at hand. -/
def peerLib : Lib :=
  { remoteSdp := theSdp (audioSdp [lit "0"]) }

/-- The peer acknowledges the answer. -/
def ackInput : Input :=
  .poll peerLib (some { type := .callAck, cid := 1, did := 11, tid := 21 })

theorem advertised_port_bound_answer :
    Machine.Always (step {}) PortsOk (incomingInputs ++ [.gui peerLib .answer, ackInput])
      (boot {} 1 1 (-1) 0 0) :=
  advertised_port_bound rfl peerLib.remoteSdp 1 1 (-1) 0 0 (by decide +kernel)

/-- The local port of the audio session, and the port on the audio line that was sent. -/
def audioPorts (e : Engine) : Option Int × Option Int :=
  (e.audio.session.map fun session => session.localPort.toInt,
    (sentSdp e.requests).bind fun sdp =>
      ((readMLines sdp).find? fun m => osipStrcasecmp m.media (lit "audio")).map fun m =>
        atoi m.port)

/-- To answer twice is to listen on a port that was not sent. -/
theorem answered_twice : ∃ e, Reachable {} e ∧ audioPorts e = (some 30004, some 30000) ∧
    ¬PortsOk e := by
  obtain ⟨e, hrun, hp⟩ := Machine.exists_of_okAnd
    (show Machine.okAnd (Machine.run (step {})
        (incomingInputs ++ [.gui peerLib .answer, .gui peerLib .answer, ackInput])
        (boot {} 1 1 (-1) 0 0)) (fun e => decide (audioPorts e = (some 30004, some 30000))) = true
      by decide +kernel)
  have hports := of_decide_eq_true hp
  refine ⟨e, ⟨1, 1, -1, 0, 0, _, hrun⟩, hports, fun h => ?_⟩
  obtain ⟨hbound, hsent⟩ := Prod.mk.inj hports
  obtain ⟨session, hsession, hlocal⟩ := Option.map_eq_some_iff.1 hbound
  obtain ⟨sdp, hsdp, m, hm, hport⟩ := h.audio session hsession
  rw [hsdp, Option.bind_some, hm, Option.map_some, hport, hlocal] at hsent
  exact absurd hsent (by decide)

end Furikup
