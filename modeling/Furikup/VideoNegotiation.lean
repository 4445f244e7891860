import Furikup.Negotiation

/-!
# Video, negotiated and set up

`createLocalSdp` promises a video session by the configuration and by what it finds anywhere on the
remote video line; `rtpVideoSetup` starts one by the camera and by the first payload.

* `VideoStarts`, `SentVideo`, `SdpMessage.AcceptsJpeg` — what is done, what was promised, and what
  the other side promised.
* `videoStarts_iff`, `sentVideo_iff` — the two decisions in terms of what they are made of.
* `video_agrees_iff` — **when they agree.**
-/

set_option autoImplicit false

namespace Furikup

open CText

/-! ## The two decisions -/

/-- `rtpVideoSetup` starts a session. -/
def VideoStarts (remoteSdp : Int → Option SdpMessage) (tid : Int) (incoming : Bool) (ports : Ports)
    (video : Video) : Prop :=
  ∃ session video', rtpVideoSetup remoteSdp tid incoming ports video = .ok video' ∧
    video'.calls = .setup session :: video.calls

/-- A video line with a port is in the text. -/
def SentVideo (sdp : Text) : Prop :=
  ∃ m ∈ readMLines sdp, osipStrcasecmp m.media (lit "video") = true ∧ atoi m.port ≠ 0

/-- A video line of the description has a port and lists JPEG. -/
def SdpMessage.AcceptsJpeg (sdp : SdpMessage) : Prop :=
  ∃ med ∈ sdp.mMedias, osipStrcasecmp med.mMedia (lit "video") = true ∧ atoi med.mPort ≠ 0 ∧
    ∃ payload ∈ med.mPayloads, atoi payload = 26

/-- The first video line has a port and a connection and starts with JPEG. -/
def SdpMessage.LeadsWithJpeg (sdp : SdpMessage) : Prop :=
  ∃ med, sdp.media (lit "video") = some med ∧ atoi med.mPort ≠ 0 ∧
    (∃ payload, med.mPayloads.head? = some payload ∧ atoi payload = 26) ∧
    (sdp.connection (lit "video")).isSome

theorem videoSession_isSome_iff (sdp : SdpMessage) (ports : Ports) :
    (∃ session, sdp.videoSession ports = some session) ↔ sdp.LeadsWithJpeg := by
  rw [SdpMessage.videoSession, SdpMessage.LeadsWithJpeg]
  cases hmed : sdp.media (lit "video") with
  | none => simp
  | some med =>
    cases hhead : med.mPayloads.head? with
    | none => simp [hhead]
    | some payload =>
      by_cases hoff : atoi payload ≠ 26 ∨ atoi med.mPort = 0
      · refine iff_of_false (by simp [hhead, hoff]) ?_
        rintro ⟨med', hmed', hport, ⟨payload', hpayload', htype⟩, -⟩
        obtain rfl := Option.some.inj hmed'
        obtain rfl := Option.some.inj (hhead.symm.trans hpayload')
        exact hoff.elim (fun h => h htype) hport
      · have hon : atoi payload = 26 ∧ atoi med.mPort ≠ 0 := by
          simpa [not_or] using hoff
        cases hcon : sdp.connection (lit "video") with
        | none => simp
        | some con => simp [hhead, hon]

/-- **What is done** depends on the camera and on the head of the first video line. -/
theorem videoStarts_iff {remoteSdp : Int → Option SdpMessage} {tid : Int} {incoming : Bool}
    {ports : Ports} {video : Video} {remote : SdpMessage} (hremote : remoteSdp tid = some remote) :
    VideoStarts remoteSdp tid incoming ports video ↔
      video.isVidAvailable = true ∧ remote.LeadsWithJpeg := by
  rw [← videoSession_isSome_iff remote ports]
  constructor
  · rintro ⟨session, video', hok, hcalls⟩
    rcases rtpVideoSetup_eq_ok.1 hok with ⟨-, rfl⟩ | ⟨hcamera, sdp, hsdp, hstart⟩
    · exact absurd hcalls.symm (List.cons_ne_self _ _)
    · obtain rfl := Option.some.inj (hremote.symm.trans hsdp)
      rcases hstart with ⟨-, rfl⟩ | ⟨session', hsession', -⟩
      · exact absurd hcalls.symm (List.cons_ne_self _ _)
      · exact ⟨hcamera, session', hsession'⟩
  · rintro ⟨hcamera, session, hsession⟩
    exact ⟨session, _, rtpVideoSetup_eq_ok.2 (Or.inr ⟨hcamera, remote, hremote,
      Or.inr ⟨session, hsession, rfl⟩⟩), rfl⟩

theorem atoi_videoPort (cfg : Config) (net : Net) (ports : Ports) :
    atoi (fmtD (mappedVideoPort cfg net ports)) = mappedVideoPort cfg net ports := by
  obtain ⟨hmin, hmax⟩ := mappedVideoPort_mem cfg net ports
  exact atoi_fmtD hmin hmax

/-- The video lines the engine writes. -/
theorem videoMLines_sent_iff (useVideo jpeg present : Bool) {port : Int}
    (hport : atoi (fmtD port) = port) :
    (∃ m ∈ videoMLines useVideo jpeg present port,
        osipStrcasecmp m.media (lit "video") = true ∧ atoi m.port ≠ 0) ↔
      useVideo = true ∧ jpeg = true ∧ port ≠ 0 := by
  have hvideo : osipStrcasecmp (lit "video") (lit "video") = true := beq_self_eq_true _
  rw [videoMLines]
  cases useVideo with
  | true =>
    cases jpeg with
    | true => simp [videoMLine, hvideo, hport]
    | false => cases present <;> simp [hvideo, atoi_pcmu]
  | false =>
    cases jpeg with
    | true => simp
    | false => cases present <;> simp [hvideo, atoi_pcmu]

theorem sentVideo_cons {sdp : Text} {audio : MLine} {video : List MLine}
    (hread : readMLines sdp = audio :: video) (haudio : audio.media = lit "audio") :
    SentVideo sdp ↔
      ∃ m ∈ video, osipStrcasecmp m.media (lit "video") = true ∧ atoi m.port ≠ 0 := by
  have hnot : osipStrcasecmp audio.media (lit "video") = false := by
    rw [haudio]
    exact not_video_of_audio (beq_self_eq_true _)
  rw [SentVideo, hread]
  constructor
  · rintro ⟨m, hm, hmedia, hport⟩
    rcases List.mem_cons.1 hm with rfl | hm
    · exact absurd (hmedia.symm.trans hnot) (by decide)
    · exact ⟨m, hm, hmedia, hport⟩
  · rintro ⟨m, hm, h⟩
    exact ⟨m, List.mem_cons_of_mem _ hm, h⟩

/-- **What is promised** depends on the configuration and, in an answer, on what the first video
line of the offer lists anywhere. -/
theorem sentVideo_iff {cfg : Config} {net : Net} {jpegSupported incoming : Bool}
    {ports ports' : Ports} {remote : SdpMessage} {sdp : Text}
    (hsent : createLocalSdp cfg net jpegSupported (if incoming then some remote else none) ports =
      .ok (sdp, ports')) :
    SentVideo sdp ↔ cfg.useVideo = true ∧ (incoming = true → remote.jpeg jpegSupported = true) ∧
      mappedVideoPort cfg net ports.next ≠ 0 := by
  have hport := atoi_videoPort cfg net ports.next
  cases incoming with
  | true =>
    obtain ⟨-, hr⟩ := createLocalSdp_answer_iff.1 hsent
    obtain ⟨rfl, -⟩ := Prod.mk.inj hr
    have haudio : (audioMLine (mappedPort cfg net ports.next) remote.pcmFmts).media =
        lit "audio" := by
      rw [audioMLine]
      split
      · rfl
      · rfl
    rw [sentVideo_cons (readMLines_answerText cfg net jpegSupported remote ports) haudio,
      videoMLines_sent_iff _ _ _ hport]
    simp
  | false =>
    obtain ⟨rfl, -⟩ := Prod.mk.inj
      (Except.ok.inj ((createLocalSdp_offer cfg net jpegSupported ports).symm.trans hsent))
    rw [sentVideo_cons (readMLines_offerText cfg net ports) rfl, videoMLines_sent_iff _ _ _ hport]
    simp

/-! ## When they agree -/

theorem SdpMessage.LeadsWithJpeg.acceptsJpeg {sdp : SdpMessage} (h : sdp.LeadsWithJpeg) :
    sdp.AcceptsJpeg := by
  obtain ⟨med, hmed, hport, ⟨payload, hhead, htype⟩, -⟩ := h
  have hfind : sdp.mMedias.find? (fun med => osipStrcasecmp med.mMedia (lit "video")) = some med :=
    hmed
  have hmedia : osipStrcasecmp med.mMedia (lit "video") = true := by
    simpa using List.find?_some hfind
  exact ⟨med, List.mem_of_find?_eq_some hfind, hmedia, hport, payload, List.mem_of_head? hhead,
    htype⟩

theorem SdpMessage.LeadsWithJpeg.jpeg {sdp : SdpMessage} (h : sdp.LeadsWithJpeg)
    (jpegSupported : Bool) : sdp.jpeg jpegSupported = true := by
  obtain ⟨med, hmed, -, ⟨payload, hhead, htype⟩, -⟩ := h
  rw [SdpMessage.jpeg, hmed, Option.elim_some, findJpeg_eq, Bool.or_eq_true]
  exact Or.inr (List.any_eq_true.2 ⟨payload, List.mem_of_head? hhead, beq_iff_eq.2 htype⟩)

/-- A session is started exactly if both sides promised one. -/
def VideoAgrees (remoteSdp : Int → Option SdpMessage) (tid : Int) (incoming : Bool) (ports : Ports)
    (video : Video) (sent : Text) (remote : SdpMessage) : Prop :=
  VideoStarts remoteSdp tid incoming ports video ↔ SentVideo sent ∧ remote.AcceptsJpeg

/-- If the other side leads with JPEG, the camera is there exactly if video is in use and has a
port.  If it accepts JPEG in another way, this side does not promise video. -/
structure VideoFlagsAgree (cfg : Config) (net : Net) (jpegSupported incoming : Bool) (ports : Ports)
    (video : Video) (remote : SdpMessage) : Prop where
  leads : remote.LeadsWithJpeg →
    (video.isVidAvailable = true ↔
      cfg.useVideo = true ∧ mappedVideoPort cfg net ports.next ≠ 0)
  accepts : remote.AcceptsJpeg → ¬remote.LeadsWithJpeg → cfg.useVideo = true →
    mappedVideoPort cfg net ports.next ≠ 0 → incoming = true ∧ remote.jpeg jpegSupported = false

/-- **When video is set up as it was negotiated**, for the description that was sent in a call of
either direction and any starting value of `jpegSupported`. -/
theorem video_agrees_iff {cfg : Config} {net : Net} {jpegSupported : Bool}
    {remoteSdp : Int → Option SdpMessage} {tid : Int} {incoming : Bool} {ports ports' : Ports}
    {video : Video} {remote : SdpMessage} {sent : Text} (hremote : remoteSdp tid = some remote)
    (hsent : createLocalSdp cfg net jpegSupported (if incoming then some remote else none) ports =
      .ok (sent, ports')) :
    VideoAgrees remoteSdp tid incoming ports' video sent remote ↔
      VideoFlagsAgree cfg net jpegSupported incoming ports video remote := by
  rw [VideoAgrees, videoStarts_iff hremote, sentVideo_iff hsent]
  by_cases hleads : remote.LeadsWithJpeg
  · have haccepts := hleads.acceptsJpeg
    have hjpeg := hleads.jpeg jpegSupported
    have hflags : VideoFlagsAgree cfg net jpegSupported incoming ports video remote ↔
        (video.isVidAvailable = true ↔
          cfg.useVideo = true ∧ mappedVideoPort cfg net ports.next ≠ 0) :=
      ⟨fun h => h.leads hleads, fun h => ⟨fun _ => h, fun _ hnot => absurd hleads hnot⟩⟩
    rw [hflags]
    simp only [hleads, haccepts, hjpeg, and_true, implies_true, true_and]
  · constructor
    · intro h
      refine ⟨fun hyes => absurd hyes hleads, fun haccepts _ huse hport => ?_⟩
      by_contra hnot
      have hpromised : incoming = true → remote.jpeg jpegSupported = true := fun hin =>
        Bool.not_eq_false _ ▸ fun hjpeg => hnot ⟨hin, hjpeg⟩
      exact hleads (h.2 ⟨⟨huse, hpromised, hport⟩, haccepts⟩).2
    · intro h
      refine iff_of_false (fun hstart => hleads hstart.2) ?_
      rintro ⟨⟨huse, hpromised, hport⟩, haccepts⟩
      obtain ⟨hin, hjpeg⟩ := h.accepts haccepts hleads huse hport
      exact absurd ((hpromised hin).symm.trans hjpeg) (by decide)

/-- A description with one audio and one video line. -/
def avSdp (payloads : List Text) : SdpMessage :=
  ⟨some ⟨lit "10.0.0.2"⟩, [⟨lit "audio", lit "4000", [lit "0"], []⟩,
    ⟨lit "video", lit "4002", payloads, []⟩]⟩

theorem media_avSdp (payloads : List Text) :
    (avSdp payloads).media (lit "video") = some ⟨lit "video", lit "4002", payloads, []⟩ := by
  rw [avSdp, media_video_cons (beq_self_eq_true _)]
  exact List.find?_cons_of_pos (beq_self_eq_true _)

theorem createLocalSdp_avSdp (cfg : Config) (payloads : List Text) :
    ∃ sent ports', createLocalSdp cfg {} false (if true then some (avSdp payloads) else none) {} =
      .ok (sent, ports') := by
  refine ⟨_, _, createLocalSdp_answer cfg {} false {} ?_⟩
  have hfmts : (avSdp payloads).pcmFmts = [lit "0"] := by
    rw [avSdp, SdpMessage.pcmFmts, media_audio_cons (beq_self_eq_true _)]
    simp [pcmFmt, atoi_pcmu]
  rw [hfmts]
  decide

theorem leadsWithJpeg_avSdp : (avSdp [lit "26"]).LeadsWithJpeg := by
  refine ⟨_, media_avSdp _, by decide +kernel, ⟨_, rfl, atoi_jpeg⟩, ?_⟩
  rw [SdpMessage.connection, media_avSdp]
  rfl

/-- An offer of JPEG, with a camera and video in use. -/
theorem video_agrees_iff_jpeg : ∃ sent ports',
    createLocalSdp { useVideo := true } {} false (some (avSdp [lit "26"])) {} = .ok (sent, ports') ∧
      VideoAgrees (theSdp (avSdp [lit "26"])) 1 true ports' { isVidAvailable := true } sent
        (avSdp [lit "26"]) := by
  obtain ⟨sent, ports', hsent⟩ := createLocalSdp_avSdp { useVideo := true } [lit "26"]
  refine ⟨sent, ports', hsent, (video_agrees_iff rfl hsent).2 ?_⟩
  refine ⟨fun _ => iff_of_true rfl ⟨rfl, by decide +kernel⟩, fun _ hnot => ?_⟩
  exact absurd leadsWithJpeg_avSdp hnot

/-- An offer of H.263 and JPEG is accepted, and no session is started. -/
theorem second_payload_not_set_up : ∃ sent ports',
    createLocalSdp { useVideo := true } {} false (some (avSdp [lit "34", lit "26"])) {} =
        .ok (sent, ports') ∧
      ¬VideoAgrees (theSdp (avSdp [lit "34", lit "26"])) 1 true ports' { isVidAvailable := true }
        sent (avSdp [lit "34", lit "26"]) := by
  obtain ⟨sent, ports', hsent⟩ :=
    createLocalSdp_avSdp { useVideo := true } [lit "34", lit "26"]
  refine ⟨sent, ports', hsent, fun hagrees => ?_⟩
  have hjpeg : (avSdp [lit "34", lit "26"]).jpeg false = true := by
    rw [SdpMessage.jpeg, media_avSdp, Option.elim_some, findJpeg_eq]
    simp [atoi_jpeg]
  have hpromised : SentVideo sent :=
    (sentVideo_iff hsent).2 ⟨rfl, fun _ => hjpeg, by decide +kernel⟩
  have haccepts : (avSdp [lit "34", lit "26"]).AcceptsJpeg :=
    ⟨_, List.mem_cons_of_mem _ List.mem_cons_self, beq_self_eq_true _, by decide +kernel, lit "26",
      List.mem_cons_of_mem _ List.mem_cons_self, atoi_jpeg⟩
  obtain ⟨-, med, hmed, -, ⟨payload, hhead, htype⟩, -⟩ :=
    (videoStarts_iff rfl).1 (hagrees.2 ⟨hpromised, haccepts⟩)
  obtain rfl := Option.some.inj ((media_avSdp _).symm.trans hmed)
  obtain rfl := Option.some.inj hhead
  exact absurd htype (by decide +kernel)

end Furikup
