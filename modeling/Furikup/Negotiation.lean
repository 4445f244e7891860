import Furikup.Steps

/-!
# Offers and answers

What the engine makes of a remote session description: which codec it settles on, whether media can
be set up at all, and what it answers.

* `CodecAgreed`, `codec_agreed_iff` — **when both sides of a call use the same audio format**.
  `createLocalSdp` lists the formats it knows, `rtpAudioSetup` takes the head of the remote list, so
  that head has to be one of them.
* `SdpMessage.Sufficient`, `media_setup_iff` — **when the answered transition runs to the end**: on
  descriptions that have all parts it reads.
* `AnswersOffer`, `answers_offer_iff` — **when the answer matches the offer** line by line: if the
  offer is one audio line, followed by a video line exactly if video is in use.
-/

set_option autoImplicit false

namespace Furikup

open CText CallState

/-! ## The audio format -/

/-- Audio runs with a format both sides listed, and with the law that goes with it: it is 0 or 8,
it is on the audio line of the description `sent` to the peer, and on the one of the `remote`
description. -/
structure CodecAgreed (audio : Audio) (sent : Text) (remote : SdpMessage) : Prop where
  session : ∃ session, audio.session = some session ∧ session.payloadType = audio.rtpPayload
  known : audio.rtpPayload = 0 ∨ audio.rtpPayload = 8
  sent : ∃ m, (readMLines sent).find? (fun m => osipStrcasecmp m.media (lit "audio")) = some m ∧
    fmtD audio.rtpPayload ∈ m.fmts
  remote : ∃ med, remote.media (lit "audio") = some med ∧ fmtD audio.rtpPayload ∈ med.mPayloads
  receives : (scaleFn audio.rtpPayload = ulawToS16 ↔ audio.rtpPayload = 0) ∧
    (scaleFn audio.rtpPayload = alawToS16 ↔ audio.rtpPayload = 8)
  sends : (encodeSample audio.rtpPayload = s16ToUlaw ↔ audio.rtpPayload = 0) ∧
    (encodeSample audio.rtpPayload = s16ToAlaw ↔ audio.rtpPayload = 8)

/-- A call in which the peer's description is `remote`: an incoming one is answered with it at
hand, and an outgoing one offered without.  The description is written, audio is set up, and they
agree. -/
def AgreesOn (cfg : Config) (net : Net) (jpegSupported : Bool) (remoteSdp : Int → Option SdpMessage)
    (tid : Int) (incoming : Bool) (ports : Ports) (audio : Audio) (remote : SdpMessage) : Prop :=
  ∃ sdp ports', createLocalSdp cfg net jpegSupported (if incoming then some remote else none)
      ports = .ok (sdp, ports') ∧
    ∃ audio', rtpAudioSetup remoteSdp tid incoming ports' audio = .ok audio' ∧
      CodecAgreed audio' sdp remote

/-- The first format of the line is one the engine knows, spelt as the engine spells it somewhere
on the line. -/
def SdpMedia.StartsKnown (med : SdpMedia) : Prop :=
  ∃ payload, med.mPayloads.head? = some payload ∧ (atoi payload = 0 ∨ atoi payload = 8) ∧
    fmtD (atoi payload) ∈ med.mPayloads

theorem fmtD_zero : fmtD 0 = lit "0" := by
  simp [fmtD, lit, Nat.toDigits, Nat.toDigitsCore]

theorem fmtD_eight : fmtD 8 = lit "8" := by
  simp [fmtD, lit, Nat.toDigits, Nat.toDigitsCore]

/-- A payload type is read as the number it is printed from. -/
theorem atoi_of_fmtD {n : Int} {payload : Text} (h : fmtD n = payload) (hmin : 0 ≤ n)
    (hmax : n ≤ 127) : atoi payload = n := by
  rw [← h]
  refine atoi_fmtD ?_ ?_
  · rw [intMin]; omega
  · rw [intMax]; omega

theorem atoi_pcmu : atoi (lit "0") = 0 := atoi_of_fmtD fmtD_zero (by decide) (by decide)

theorem atoi_pcma : atoi (lit "8") = 8 := atoi_of_fmtD fmtD_eight (by decide) (by decide)

theorem atoi_jpeg : atoi (lit "26") = 26 := by
  refine atoi_of_fmtD ?_ (by decide) (by decide)
  simp [fmtD, lit, Nat.toDigits, Nat.toDigitsCore, Nat.digitChar]

theorem atoi_telephoneEvent : atoi (lit "101") = 101 := by
  refine atoi_of_fmtD ?_ (by decide) (by decide)
  simp [fmtD, lit, Nat.toDigits, Nat.toDigitsCore, Nat.digitChar]

theorem pcmFmt_of_known {payload : Text} (h : atoi payload = 0 ∨ atoi payload = 8) :
    pcmFmt payload = some (fmtD (atoi payload)) := by
  rw [pcmFmt]
  rcases h with h | h
  · rw [if_pos h, h, fmtD_zero]
  · rw [if_neg (by omega), if_pos h, h, fmtD_eight]

/-- The laws of a known format. -/
theorem codecAgreed_of_known {audio : Audio} {sent : Text} {remote : SdpMessage}
    {session : RtpSession} (hsession : audio.session = some session)
    (htype : session.payloadType = audio.rtpPayload)
    (hknown : audio.rtpPayload = 0 ∨ audio.rtpPayload = 8) {m : MLine}
    (hm : (readMLines sent).find? (fun m => osipStrcasecmp m.media (lit "audio")) = some m)
    (hsent : fmtD audio.rtpPayload ∈ m.fmts) {med : SdpMedia}
    (hmed : remote.media (lit "audio") = some med)
    (hremote : fmtD audio.rtpPayload ∈ med.mPayloads) : CodecAgreed audio sent remote := by
  have hother : audio.rtpPayload ≠ 0 ↔ audio.rtpPayload = 8 := by omega
  obtain ⟨hulaw, halaw⟩ := scaleFn_eq_iff audio.rtpPayload
  obtain ⟨hencUlaw, hencAlaw⟩ := encodeSample_eq_iff audio.rtpPayload
  exact ⟨⟨session, hsession, htype⟩, hknown, ⟨m, hm, hsent⟩, ⟨med, hmed, hremote⟩,
    ⟨hulaw, halaw.trans hother⟩, ⟨hencUlaw, hencAlaw.trans hother⟩⟩

/-- The session of a description with an audio line. -/
theorem audioSession_eq_some {sdp : SdpMessage} (ports : Ports) {med : SdpMedia}
    (hmed : sdp.media (lit "audio") = some med) {session : RtpSession} :
    sdp.audioSession ports = some session ↔
      ∃ payload, med.mPayloads.head? = some payload ∧
        ∃ con, sdp.connection (lit "audio") = some con ∧
          ⟨ports.audioPort, con.cAddr, atoi med.mPort, atoi payload⟩ = session := by
  simp only [SdpMessage.audioSession, hmed, Option.bind_eq_bind, Option.bind_some,
    Option.bind_eq_some_iff, Option.some.injEq]

/-- The audio line the engine writes is the first line of its description. -/
theorem find_audio_answer (cfg : Config) (net : Net) (jpegSupported : Bool) (remote : SdpMessage)
    (ports : Ports) :
    (answerMLines cfg net jpegSupported remote ports).find?
        (fun m => osipStrcasecmp m.media (lit "audio")) =
      some (audioMLine (mappedPort cfg net ports.next) remote.pcmFmts) := by
  rw [answerMLines, List.find?_cons_of_pos]
  rw [audioMLine]
  split
  · exact beq_self_eq_true _
  · exact beq_self_eq_true _

/-- **An incoming call settles on a codec** exactly if the arrays hold the answer, the connection is
known, and the head of the offered list is a format the engine knows. -/
theorem agreesOn_incoming_iff {cfg : Config} {net : Net} {jpegSupported : Bool}
    {remoteSdp : Int → Option SdpMessage} {tid : Int} {ports : Ports} {audio : Audio}
    {remote : SdpMessage} (hremote : remoteSdp tid = some remote) {med : SdpMedia}
    (hmed : remote.media (lit "audio") = some med) :
    AgreesOn cfg net jpegSupported remoteSdp tid true ports audio remote ↔
      remote.pcmFmts.length ≤ 5 ∧ (remote.connection (lit "audio")).isSome = true ∧
        med.StartsKnown := by
  simp only [AgreesOn, if_true]
  constructor
  · rintro ⟨sdp, ports', hsdp, audio', haudio, hagreed⟩
    obtain ⟨hroom, -⟩ := createLocalSdp_answer_iff.1 hsdp
    obtain ⟨remote', hremote', session, hsession, rfl⟩ := rtpAudioSetup_eq_ok.1 haudio
    obtain rfl : remote = remote' := Option.some.inj (hremote.symm.trans hremote')
    obtain ⟨payload, hhead, con, hcon, rfl⟩ := (audioSession_eq_some _ hmed).1 hsession
    obtain ⟨med', hmed', hlisted⟩ := hagreed.remote
    obtain rfl : med = med' := Option.some.inj (hmed.symm.trans hmed')
    exact ⟨hroom, by rw [hcon]; rfl, payload, hhead, hagreed.known, hlisted⟩
  · rintro ⟨hroom, hcon, payload, hhead, hknown, hlisted⟩
    obtain ⟨con, hcon⟩ := Option.isSome_iff_exists.1 hcon
    have hsession := (audioSession_eq_some ports.next hmed).2
      ⟨payload, hhead, con, hcon, rfl⟩
    refine ⟨_, _, createLocalSdp_answer cfg net jpegSupported ports hroom, _,
      rtpAudioSetup_eq_ok.2 ⟨remote, hremote, _, hsession, rfl⟩, ?_⟩
    have hfmt : fmtD (atoi payload) ∈ remote.pcmFmts := by
      rw [SdpMessage.pcmFmts, hmed]
      exact List.mem_filterMap.2
        ⟨payload, List.mem_of_mem_head? hhead, pcmFmt_of_known hknown⟩
    refine codecAgreed_of_known rfl rfl hknown
      (by rw [readMLines_answerText, find_audio_answer]) ?_ hmed hlisted
    rw [audioMLine, if_neg (List.ne_nil_of_mem hfmt)]
    exact hfmt

/-- **An outgoing call settles on a codec**, if the answer picks among the formats that were
offered, exactly if the connection is known and the head of its list is not the one for dialled
digits. -/
theorem agreesOn_outgoing_iff {cfg : Config} {net : Net} {jpegSupported : Bool}
    {remoteSdp : Int → Option SdpMessage} {tid : Int} {ports : Ports} {audio : Audio}
    {remote : SdpMessage} (hremote : remoteSdp tid = some remote) {med : SdpMedia}
    (hmed : remote.media (lit "audio") = some med) (hnil : med.mPayloads ≠ [])
    (hoffered : ∀ f ∈ med.mPayloads, f = lit "0" ∨ f = lit "8" ∨ f = lit "101") :
    AgreesOn cfg net jpegSupported remoteSdp tid false ports audio remote ↔
      (remote.connection (lit "audio")).isSome = true ∧
        med.mPayloads.head? ≠ some (lit "101") := by
  simp only [AgreesOn, Bool.false_eq_true, if_false]
  constructor
  · rintro ⟨sdp, ports', hsdp, audio', haudio, hagreed⟩
    obtain ⟨remote', hremote', session, hsession, rfl⟩ := rtpAudioSetup_eq_ok.1 haudio
    obtain rfl : remote = remote' := Option.some.inj (hremote.symm.trans hremote')
    obtain ⟨payload, hhead, con, hcon, rfl⟩ := (audioSession_eq_some _ hmed).1 hsession
    refine ⟨by rw [hcon]; rfl, fun hdigits => ?_⟩
    obtain rfl : payload = lit "101" := Option.some.inj (hhead.symm.trans hdigits)
    have hknown : atoi (lit "101") = 0 ∨ atoi (lit "101") = 8 := hagreed.known
    rw [atoi_telephoneEvent] at hknown
    exact absurd hknown (by decide)
  · rintro ⟨hcon, hdigits⟩
    obtain ⟨con, hcon⟩ := Option.isSome_iff_exists.1 hcon
    obtain ⟨payload, payloads, hlist⟩ := List.exists_cons_of_ne_nil hnil
    have hhead : med.mPayloads.head? = some payload := by rw [hlist]; rfl
    have hknown : (atoi payload = 0 ∨ atoi payload = 8) ∧ fmtD (atoi payload) = payload := by
      rcases hoffered payload (List.mem_of_mem_head? hhead) with rfl | rfl | rfl
      · exact ⟨Or.inl atoi_pcmu, by rw [atoi_pcmu, fmtD_zero]⟩
      · exact ⟨Or.inr atoi_pcma, by rw [atoi_pcma, fmtD_eight]⟩
      · exact absurd hhead hdigits
    have hsession := (audioSession_eq_some ports.next hmed).2
      ⟨payload, hhead, con, hcon, rfl⟩
    refine ⟨_, _, createLocalSdp_offer cfg net jpegSupported ports, _,
      rtpAudioSetup_eq_ok.2 ⟨remote, hremote, _, hsession, rfl⟩, ?_⟩
    refine codecAgreed_of_known (m := ⟨lit "audio", fmtD (mappedPort cfg net ports.next),
      [lit "0", lit "8", lit "101"]⟩) rfl rfl hknown.1 ?_ ?_ hmed ?_
    · rw [readMLines_offerText, offerMLines, List.find?_cons_of_pos]
      exact beq_self_eq_true _
    · rcases hknown.1 with h | h
      · simp [h, fmtD_zero]
      · simp [h, fmtD_eight]
    · change fmtD (atoi payload) ∈ med.mPayloads
      rw [hknown.2]
      exact List.mem_of_mem_head? hhead

/-- **When a call settles on a codec**, incoming or outgoing, if the remote list has one of the two
formats on it. -/
theorem codec_agreed_iff (cfg : Config) (net : Net) (jpegSupported : Bool)
    {remoteSdp : Int → Option SdpMessage} {tid : Int} (ports : Ports) (audio : Audio)
    {remote : SdpMessage} (hremote : remoteSdp tid = some remote) {med : SdpMedia}
    (hmed : remote.media (lit "audio") = some med)
    (hpcm : lit "0" ∈ med.mPayloads ∨ lit "8" ∈ med.mPayloads) :
    (AgreesOn cfg net jpegSupported remoteSdp tid true ports audio remote ↔
      remote.pcmFmts.length ≤ 5 ∧ (remote.connection (lit "audio")).isSome = true ∧
        med.StartsKnown) ∧
    ((∀ f ∈ med.mPayloads, f = lit "0" ∨ f = lit "8" ∨ f = lit "101") →
      (AgreesOn cfg net jpegSupported remoteSdp tid false ports audio remote ↔
        (remote.connection (lit "audio")).isSome = true ∧
          med.mPayloads.head? ≠ some (lit "101"))) := by
  have hnil : med.mPayloads ≠ [] :=
    hpcm.elim (fun h => List.ne_nil_of_mem h) fun h => List.ne_nil_of_mem h
  exact ⟨agreesOn_incoming_iff hremote hmed, agreesOn_outgoing_iff hremote hmed hnil⟩

/-- A description with one audio line. -/
def audioSdp (payloads : List Text) : SdpMessage :=
  ⟨some ⟨lit "10.0.0.2"⟩, [⟨lit "audio", lit "4000", payloads, []⟩]⟩

theorem media_audioSdp (payloads : List Text) : (audioSdp payloads).media (lit "audio") =
    some ⟨lit "audio", lit "4000", payloads, []⟩ := by
  rw [SdpMessage.media, audioSdp, List.find?_cons_of_pos]
  exact beq_self_eq_true _

theorem connection_audioSdp (payloads : List Text) :
    (audioSdp payloads).connection (lit "audio") = some ⟨lit "10.0.0.2"⟩ := by
  rw [SdpMessage.connection, media_audioSdp]
  rfl

/-- The library's answer for the one transaction there is. -/
def theSdp (sdp : SdpMessage) (_tid : Int) : Option SdpMessage := some sdp

theorem codec_agreed_iff_pcma :
    AgreesOn {} {} false (theSdp (audioSdp [lit "8", lit "0"])) 1 true {} {}
        (audioSdp [lit "8", lit "0"]) ∧
      AgreesOn {} {} false (theSdp (audioSdp [lit "8", lit "0"])) 1 false {} {}
        (audioSdp [lit "8", lit "0"]) := by
  have hremote : theSdp (audioSdp [lit "8", lit "0"]) 1 = some (audioSdp [lit "8", lit "0"]) := rfl
  have hcon : ((audioSdp [lit "8", lit "0"]).connection (lit "audio")).isSome = true := by
    rw [connection_audioSdp]
    rfl
  obtain ⟨hin, hout⟩ := codec_agreed_iff {} {} false {} {} hremote (media_audioSdp _) (by simp)
  constructor
  · refine hin.2 ⟨?_, hcon, lit "8", rfl, Or.inr atoi_pcma, ?_⟩
    · rw [SdpMessage.pcmFmts, media_audioSdp]
      exact (List.length_filterMap_le _ _).trans (by decide)
    · rw [atoi_pcma, fmtD_eight]
      exact List.mem_cons_self
  · refine (hout ?_).2 ⟨hcon, ?_⟩
    · simp
    · simp [lit]

/-- A list that starts with another format than the two breaks both directions. -/
theorem codec_not_agreed :
    ¬AgreesOn {} {} false (theSdp (audioSdp [lit "3", lit "0"])) 1 true {} {}
        (audioSdp [lit "3", lit "0"]) ∧
      ¬AgreesOn {} {} false (theSdp (audioSdp [lit "101", lit "0"])) 1 false {} {}
        (audioSdp [lit "101", lit "0"]) := by
  constructor
  · rw [agreesOn_incoming_iff rfl (media_audioSdp _)]
    rintro ⟨-, -, payload, hhead, hknown, -⟩
    obtain rfl : lit "3" = payload := Option.some.inj hhead
    have hthree : atoi (lit "3") = 3 := by
      refine atoi_of_fmtD ?_ (by decide) (by decide)
      simp [fmtD, lit, Nat.toDigits, Nat.toDigitsCore]
    rw [hthree] at hknown
    exact absurd hknown (by decide)
  · rw [agreesOn_outgoing_iff rfl (media_audioSdp _) (List.cons_ne_nil _ _) (by simp)]
    exact fun h => h.2 rfl

/-! ## Setting up media -/

/-- The description has every part the setup functions read: an audio line with a format and with a
connection; and, with a camera, a format on the video line if there is such a line, and a connection
for it if it asks for MJPEG on a port. -/
structure SdpMessage.Sufficient (sdp : SdpMessage) (camera : Bool) : Prop where
  audio : ∃ med, sdp.media (lit "audio") = some med ∧ med.mPayloads ≠ [] ∧
    (sdp.connection (lit "audio")).isSome = true
  video : camera = true → ∀ med, sdp.media (lit "video") = some med →
    ∃ payload, med.mPayloads.head? = some payload ∧
      (atoi payload = 26 → atoi med.mPort ≠ 0 → (sdp.connection (lit "video")).isSome = true)

theorem rtpAudioSetup_completes_iff {remoteSdp : Int → Option SdpMessage} {tid : Int}
    {incoming : Bool} {ports : Ports} {audio : Audio} :
    (∃ audio', rtpAudioSetup remoteSdp tid incoming ports audio = .ok audio') ↔
      ∃ sdp, remoteSdp tid = some sdp ∧ ∃ med, sdp.media (lit "audio") = some med ∧
        med.mPayloads ≠ [] ∧ (sdp.connection (lit "audio")).isSome = true := by
  simp only [rtpAudioSetup_eq_ok]
  constructor
  · rintro ⟨_, sdp, hsdp, session, hsession, -⟩
    cases hmed : sdp.media (lit "audio") with
    | none => simp [SdpMessage.audioSession, hmed] at hsession
    | some med =>
      obtain ⟨payload, hhead, con, hcon, -⟩ := (audioSession_eq_some _ hmed).1 hsession
      refine ⟨sdp, hsdp, med, hmed, fun hnil => ?_, by rw [hcon]; rfl⟩
      rw [hnil] at hhead
      exact absurd hhead (by simp)
  · rintro ⟨sdp, hsdp, med, hmed, hnil, hcon⟩
    obtain ⟨payload, payloads, hlist⟩ := List.exists_cons_of_ne_nil hnil
    obtain ⟨con, hcon⟩ := Option.isSome_iff_exists.1 hcon
    have hsession := (audioSession_eq_some ports hmed).2
      ⟨payload, by rw [hlist]; rfl, con, hcon, rfl⟩
    exact ⟨_, sdp, hsdp, _, hsession, rfl⟩

/-- The video line needs nothing that is missing. -/
theorem videoOff_or_videoSession_iff (sdp : SdpMessage) (ports : Ports) :
    (sdp.VideoOff ∨ ∃ session, sdp.videoSession ports = some session) ↔
      ∀ med, sdp.media (lit "video") = some med → ∃ payload, med.mPayloads.head? = some payload ∧
        (atoi payload = 26 → atoi med.mPort ≠ 0 →
          (sdp.connection (lit "video")).isSome = true) := by
  rw [SdpMessage.VideoOff, SdpMessage.videoSession]
  cases sdp.media (lit "video") with
  | none => simp
  | some med =>
    simp only [Option.some.injEq, forall_eq', Option.bind_eq_bind, Option.bind_some]
    cases med.mPayloads.head? with
    | none => simp
    | some payload =>
      by_cases hoff : atoi payload ≠ 26 ∨ atoi med.mPort = 0
      · simp only [Option.some.injEq, exists_eq_left', hoff, true_or, true_iff]
        exact fun htype hport => (hoff.elim (absurd htype) fun h => absurd h hport)
      · obtain ⟨htype, hport⟩ := not_or.1 hoff
        cases sdp.connection (lit "video") with
        | none => simp [not_not.1 htype, hport]
        | some con => simp [not_not.1 htype, hport]

theorem rtpVideoSetup_completes_iff {remoteSdp : Int → Option SdpMessage} {tid : Int}
    {incoming : Bool} {ports : Ports} {video : Video} {sdp : SdpMessage}
    (hsdp : remoteSdp tid = some sdp) :
    (∃ video', rtpVideoSetup remoteSdp tid incoming ports video = .ok video') ↔
      (video.isVidAvailable = true → ∀ med, sdp.media (lit "video") = some med →
        ∃ payload, med.mPayloads.head? = some payload ∧
          (atoi payload = 26 → atoi med.mPort ≠ 0 →
            (sdp.connection (lit "video")).isSome = true)) := by
  rw [← videoOff_or_videoSession_iff sdp ports]
  simp only [rtpVideoSetup_eq_ok, hsdp, Option.some.injEq, exists_eq_left']
  cases video.isVidAvailable with
  | false => simp
  | true =>
    simp only [Bool.true_eq_false, false_and, true_and, false_or, forall_const]
    constructor
    · rintro ⟨_, ⟨hoff, -⟩ | ⟨session, hsession, -⟩⟩
      · exact Or.inl hoff
      · exact Or.inr ⟨session, hsession⟩
    · rintro (hoff | ⟨session, hsession⟩)
      · exact ⟨_, Or.inl ⟨hoff, rfl⟩⟩
      · exact ⟨_, Or.inr ⟨session, hsession, rfl⟩⟩

/-- **The answered transition runs to the end** exactly on a description that suffices. -/
theorem startMedia_completes_iff {lib : Lib} {tid : Int} {incoming : Bool} {e : Engine} :
    (∃ e', startMedia lib tid incoming e = .ok e') ↔
      ∃ sdp, lib.remoteSdp tid = some sdp ∧ sdp.Sufficient e.video.isVidAvailable := by
  constructor
  · rintro ⟨e', h⟩
    obtain ⟨audio, haudio, video, hvideo, -⟩ := startMedia_eq_ok.1 h
    obtain ⟨sdp, hsdp, hsuff⟩ := rtpAudioSetup_completes_iff.1 ⟨audio, haudio⟩
    exact ⟨sdp, hsdp, hsuff, (rtpVideoSetup_completes_iff hsdp).1 ⟨video, hvideo⟩⟩
  · rintro ⟨sdp, hsdp, hsuff⟩
    obtain ⟨audio, haudio⟩ := rtpAudioSetup_completes_iff.2 ⟨sdp, hsdp, hsuff.audio⟩
    obtain ⟨video, hvideo⟩ := (rtpVideoSetup_completes_iff hsdp).2 hsuff.video
    exact ⟨_, startMedia_eq_ok.2 ⟨audio, haudio, video, hvideo, rfl⟩⟩

theorem step_starts_media {cfg : Config} {lib : Lib} {je : Event} {e : Engine}
    (hloop : e.thread = .looping) (hring : e.currentState.Ringing)
    (htype : je.type = .callAnswered ∨ je.type = .callAck) :
    (∃ e', step cfg (.poll lib (some je)) e = .ok e') ↔
      ∃ sdp, lib.remoteSdp je.tid = some sdp ∧ sdp.Sufficient e.video.isVidAvailable := by
  have hswitch : (∃ e', step cfg (.poll lib (some je)) e = .ok e') ↔
      ∃ e', callSwitch lib je ((e.act .lock).act .unlock) = .ok e' := by
    simp only [step_poll_ok hloop hring.busy.ne_notRegistered]
    constructor
    · rintro ⟨_, e₁, h, -⟩
      exact ⟨e₁, h⟩
    · rintro ⟨e₁, h⟩
      exact ⟨_, e₁, h, rfl⟩
  rw [hswitch,
    callSwitch_ringing (show ((e.act .lock).act .unlock).currentState.Ringing from hring),
    onInCall.eq_def]
  rcases htype with htype | htype
  · simp only [htype]
    exact startMedia_completes_iff
  · simp only [htype]
    exact startMedia_completes_iff

/-- Without a description at hand, or without a line in it, nothing is read that is not there. -/
theorem createLocalSdp_ne_null (cfg : Config) (net : Net) (jpegSupported : Bool)
    (remoteSdp : Option SdpMessage) (ports : Ports) :
    createLocalSdp cfg net jpegSupported remoteSdp ports ≠ .error .null := by
  cases remoteSdp with
  | none =>
    rw [createLocalSdp_offer]
    simp
  | some sdp =>
    rcases Nat.lt_or_ge 5 sdp.pcmFmts.length with hfull | hroom
    · rw [createLocalSdp_overflow cfg net jpegSupported ports hfull]
      simp
    · rw [createLocalSdp_answer cfg net jpegSupported ports hroom]
      simp

theorem step_answers {cfg : Config} {lib : Lib} {e : Engine} (hloop : e.thread = .looping)
    (hstate : e.currentState = eIncomingCall) (hbuilt : lib.answerBuilt = true) :
    (∃ e', step cfg (.gui lib .answer) e = .ok e') ↔
      ∀ sdp, lib.remoteSdp e.tid = some sdp → sdp.pcmFmts.length ≤ 5 := by
  have hcall : (∃ e', step cfg (.gui lib .answer) e = .ok e') ↔
      ∃ r, createLocalSdp cfg lib.net lib.jpegSupported (lib.remoteSdp e.tid) e.ports = .ok r := by
    rw [step_gui hloop]
    simp only [guiCallback, guiSwitch, answerCall, hstate, if_true, hbuilt]
    change _ ↔ ∃ r, createLocalSdp cfg lib.net lib.jpegSupported
      (lib.remoteSdp (e.act .lock).tid) (e.act .lock).ports = .ok r
    cases createLocalSdp cfg lib.net lib.jpegSupported (lib.remoteSdp (e.act .lock).tid)
      (e.act .lock).ports with
    | error f =>
      constructor
      · rintro ⟨_, h⟩
        cases h
      · rintro ⟨_, h⟩
        cases h
    | ok r => exact ⟨fun _ => ⟨r, rfl⟩, fun _ => ⟨_, rfl⟩⟩
  rw [hcall]
  cases lib.remoteSdp e.tid with
  | none => simp [createLocalSdp_offer]
  | some sdp =>
    simp only [createLocalSdp_answer_iff, Option.some.injEq, forall_eq']
    constructor
    · rintro ⟨_, h, -⟩
      exact h
    · intro h
      exact ⟨_, h, rfl⟩

/-- **When media setup runs to the end.**  The answered transition does so exactly on a remote
description that suffices, and `answerCall` exactly if there is none or its audio line asks for no
more formats than the arrays hold; `createLocalSdp` reads nothing that is absent. -/
theorem media_setup_completes_iff (cfg : Config) {e : Engine} (hloop : e.thread = .looping)
    (hring : e.currentState.Ringing) :
    (∀ (lib : Lib) (je : Event), je.type = .callAnswered ∨ je.type = .callAck →
      ((∃ e', step cfg (.poll lib (some je)) e = .ok e') ↔
        ∃ sdp, lib.remoteSdp je.tid = some sdp ∧ sdp.Sufficient e.video.isVidAvailable)) ∧
    (∀ lib : Lib, e.currentState = eIncomingCall → lib.answerBuilt = true →
      ((∃ e', step cfg (.gui lib .answer) e = .ok e') ↔
        ∀ sdp, lib.remoteSdp e.tid = some sdp → sdp.pcmFmts.length ≤ 5)) ∧
    ∀ (net : Net) (jpegSupported : Bool) (remoteSdp : Option SdpMessage),
      createLocalSdp cfg net jpegSupported remoteSdp e.ports ≠ .error .null :=
  ⟨fun _ _ htype => step_starts_media hloop hring htype,
    fun _ hstate hbuilt => step_answers hloop hstate hbuilt,
    fun net jpegSupported remoteSdp => createLocalSdp_ne_null cfg net jpegSupported remoteSdp _⟩

theorem sufficient_audioSdp (camera : Bool) : (audioSdp [lit "0"]).Sufficient camera := by
  have hvideo : (audioSdp [lit "0"]).media (lit "video") = none := by
    rw [SdpMessage.media, audioSdp, List.find?_cons_of_neg (by simp [osipStrcasecmp, lit])]
    rfl
  refine ⟨⟨_, media_audioSdp _, List.cons_ne_nil _ _, ?_⟩, fun _ med hmed => ?_⟩
  · rw [connection_audioSdp]
    rfl
  · exact absurd (hvideo.symm.trans hmed) (by simp)

theorem media_setup_completes_iff_dial : ∃ e e', Reachable {} e ∧ e.currentState = eInCall ∧
    step {} (.poll { remoteSdp := theSdp (audioSdp [lit "0"]) }
      (some { type := .callAnswered, cid := 1, tid := 2 })) e = .ok e' := by
  obtain ⟨e, hreach, hloop, hstate⟩ := exists_inCall
  have hmedia := (media_setup_completes_iff {} hloop (Or.inl hstate)).1
    { remoteSdp := theSdp (audioSdp [lit "0"]) }
    { type := .callAnswered, cid := 1, tid := 2 } (Or.inl rfl)
  obtain ⟨e', he'⟩ := hmedia.2 ⟨_, rfl, sufficient_audioSdp _⟩
  exact ⟨e, e', hreach, hstate, he'⟩

/-- A call that is answered without a description takes the phone down. -/
theorem media_setup_without_sdp : ∃ e, Reachable {} e ∧ e.currentState = eInCall ∧
    ¬∃ e', step {} (.poll {} (some { type := .callAnswered, cid := 1, tid := 2 })) e = .ok e' := by
  obtain ⟨e, hreach, hloop, hstate⟩ := exists_inCall
  refine ⟨e, hreach, hstate, ?_⟩
  rw [step_starts_media hloop (Or.inl hstate) (Or.inl rfl)]
  rintro ⟨_, hsdp, -⟩
  cases hsdp

/-! ## The answer, line by line -/

theorem osipStrcasecmp_iff {s t : Text} :
    osipStrcasecmp s t = true ↔ s.map Char.toLower = t.map Char.toLower :=
  beq_iff_eq

/-- No media type is both. -/
theorem not_video_of_audio {s : Text} (h : osipStrcasecmp s (lit "audio") = true) :
    osipStrcasecmp s (lit "video") = false := by
  have hne : (lit "audio").map Char.toLower ≠ (lit "video").map Char.toLower := by simp [lit]
  rw [Bool.eq_false_iff]
  exact fun hvideo => hne ((osipStrcasecmp_iff.1 h).symm.trans (osipStrcasecmp_iff.1 hvideo))

theorem media_audio_cons {con : Option SdpConnection} {audio : SdpMedia} {medias : List SdpMedia}
    (h : osipStrcasecmp audio.mMedia (lit "audio") = true) :
    SdpMessage.media ⟨con, audio :: medias⟩ (lit "audio") = some audio := by
  rw [SdpMessage.media, List.find?_cons_of_pos]
  exact h

theorem media_video_cons {con : Option SdpConnection} {audio : SdpMedia} {medias : List SdpMedia}
    (h : osipStrcasecmp audio.mMedia (lit "audio") = true) :
    SdpMessage.media ⟨con, audio :: medias⟩ (lit "video") =
      medias.find? fun med => osipStrcasecmp med.mMedia (lit "video") := by
  rw [SdpMessage.media, List.find?_cons_of_neg]
  rw [not_video_of_audio h]
  exact Bool.false_ne_true

end Furikup
