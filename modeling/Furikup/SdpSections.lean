import Furikup.Codec

/-!
# Whose attributes they are

An attribute line of a description belongs to the media line in front of it, or to the session if
there is none.  `createLocalSdp` collects the media lines and the `a=rtpmap` lines of the audio line
in three arrays and prints the first two in front of the third.

* `splitSections` — how a reader takes a description apart.
* `RtpmapsPlaced` — each `a=rtpmap` line is about a format of its own section, and each audio format
  has exactly one.
* `sdpPlaced_iff` — **when that is so**: there is no video line, and no format is listed twice.
-/

set_option autoImplicit false

namespace Furikup

open CText

/-! ## Sections -/

/-- The lines of the session, and of each media line. -/
def splitSections : List Text → List Text × List (MLine × List Text)
  | [] => ([], [])
  | l :: ls =>
    match readMLine l with
    | some m => ([], (m, (splitSections ls).1) :: (splitSections ls).2)
    | none => (l :: (splitSections ls).1, (splitSections ls).2)

/-- The format that an `a=rtpmap` line is about. -/
def readRtpmap (l : Text) : Option Text :=
  if (lit "a=rtpmap:").isPrefixOf l then
    some ((l.drop (lit "a=rtpmap:").length).takeWhile (· ≠ ' '))
  else none

/-- The `a=rtpmap` lines are where they belong: each is in the section of a media line that lists
its format, and each format of an audio line has exactly one in its section. -/
structure RtpmapsPlaced (sdp : Text) : Prop where
  session : (splitSections (lines sdp)).1.filterMap readRtpmap = []
  listed : ∀ sec ∈ (splitSections (lines sdp)).2, ∀ fmt ∈ sec.2.filterMap readRtpmap,
    fmt ∈ sec.1.fmts
  mapped : ∀ sec ∈ (splitSections (lines sdp)).2, sec.1.media = lit "audio" →
    ∀ fmt ∈ sec.1.fmts, (sec.2.filterMap readRtpmap).count fmt = 1

theorem splitSections_append {ls : List Text} (hls : ∀ l ∈ ls, readMLine l = none)
    (ms : List Text) :
    splitSections (ls ++ ms) = (ls ++ (splitSections ms).1, (splitSections ms).2) := by
  induction ls with
  | nil => rfl
  | cons l ls ih =>
    obtain ⟨hl, hls⟩ := List.forall_mem_cons.1 hls
    rw [List.cons_append, splitSections, hl, ih hls]
    rfl

theorem splitSections_print {m : MLine} (h : m.Plain) (ls : List Text) :
    splitSections (m.print :: ls) =
      ([], (m, (splitSections ls).1) :: (splitSections ls).2) := by
  rw [splitSections, readMLine_print h]

theorem splitSections_of_none {ls : List Text} (hls : ∀ l ∈ ls, readMLine l = none) :
    splitSections ls = (ls, []) := by
  have happ := splitSections_append hls []
  rwa [splitSections, List.append_nil] at happ

theorem readRtpmap_of_ne {c : Char} (hc : c ≠ 'a') (l : Text) : readRtpmap (c :: l) = none := by
  simp [readRtpmap, lit, hc.symm]

theorem filterMap_sessionLines (addr : Text) : (sessionLines addr).filterMap readRtpmap = [] := by
  refine List.filterMap_eq_nil_iff.2 ?_
  have ho : lit "o=- 200 200 IN IP4 " = 'o' :: lit "=- 200 200 IN IP4 " := by simp [lit]
  have hc : lit "c=IN IP4 " = 'c' :: lit "=IN IP4 " := by simp [lit]
  simp only [sessionLines, List.forall_mem_cons, ho, hc, List.cons_append]
  exact ⟨by simp [lit, readRtpmap], readRtpmap_of_ne (by decide) _, by simp [lit, readRtpmap],
    readRtpmap_of_ne (by decide) _, by simp [lit, readRtpmap], by simp⟩

/-! ## The sections of a description -/

/-- The lines behind the media lines. -/
def mapLines (maps : List Text) : List Text :=
  maps ++ [lit "a=ptime:20"] ++ [[]]

theorem filterMap_mapLines (maps : List Text) :
    (mapLines maps).filterMap readRtpmap = maps.filterMap readRtpmap := by
  have hptime : readRtpmap (lit "a=ptime:20") = none := by simp [readRtpmap, lit]
  have hempty : readRtpmap [] = none := by simp [readRtpmap, lit]
  simp [mapLines, List.filterMap_append, hptime, hempty]

/-- What a reader makes of a description. -/
theorem splitSections_sdpText {addr : Text} (haddr : '\n' ∉ addr) {audio : MLine}
    {video : List MLine} (hms : ∀ m ∈ audio :: video, m.Plain) {maps : List Text}
    (hmaps : ∀ l ∈ maps, Attribute l) :
    splitSections (lines (sdpText addr (audio :: video) maps)) =
      (sessionLines addr,
        (audio, (splitSections (video.map MLine.print ++ mapLines maps)).1) ::
          (splitSections (video.map MLine.print ++ mapLines maps)).2) := by
  have hlines : sdpLines addr (audio :: video) maps ++ [[]] =
      sessionLines addr ++ (audio.print :: (video.map MLine.print ++ mapLines maps)) := by
    simp [sdpLines_eq, mapLines]
  rw [lines_sdpText haddr hms hmaps, hlines,
    splitSections_append fun l hl => (attribute_sessionLines haddr l hl).2,
    splitSections_print (hms audio List.mem_cons_self), List.append_nil]

/-- Whatever comes behind the audio line, the `a=rtpmap` lines are in the last section. -/
theorem rtpmapsPlaced_sdpText_iff {addr : Text} (haddr : '\n' ∉ addr) {audio : MLine}
    {video : List MLine} (hms : ∀ m ∈ audio :: video, m.Plain) {maps : List Text}
    (hmaps : ∀ l ∈ maps, Attribute l) (hmedia : audio.media = lit "audio")
    (hne : audio.fmts ≠ []) (hfmts : maps.filterMap readRtpmap = audio.fmts) :
    RtpmapsPlaced (sdpText addr (audio :: video) maps) ↔ video = [] ∧ audio.fmts.Nodup := by
  have hsections := splitSections_sdpText haddr hms hmaps
  cases video with
  | nil =>
    have hrest : splitSections (mapLines maps) = (mapLines maps, []) := by
      refine splitSections_of_none (List.forall_mem_append.2 ⟨fun l hl => ?_, ?_⟩)
      · exact (attribute_maps hmaps l hl).2
      · simp [readMLine]
    rw [List.map_nil, List.nil_append, hrest] at hsections
    rw [and_iff_right rfl, List.nodup_iff_count_eq_one]
    constructor
    · intro h fmt hfmt
      have hmapped := h.mapped (audio, mapLines maps) (by simp [hsections]) hmedia fmt hfmt
      rwa [filterMap_mapLines, hfmts] at hmapped
    · intro h
      refine ⟨?_, ?_, ?_⟩
      · rw [hsections, filterMap_sessionLines]
      · simp only [hsections, List.mem_singleton, forall_eq, filterMap_mapLines, hfmts]
        exact fun fmt hfmt => hfmt
      · simp only [hsections, List.mem_singleton, forall_eq, filterMap_mapLines, hfmts]
        exact fun _ => h
  | cons v video =>
    have hv : v.Plain := hms v (List.mem_cons_of_mem _ List.mem_cons_self)
    rw [List.map_cons, List.cons_append, splitSections_print hv] at hsections
    refine iff_of_false (fun h => ?_) fun h => List.cons_ne_nil _ _ h.1
    obtain ⟨fmt, hfmt⟩ := List.exists_mem_of_ne_nil _ hne
    have hmapped := h.mapped (audio, []) (by simp [hsections]) hmedia fmt hfmt
    rw [List.filterMap_nil, List.count_nil] at hmapped
    exact absurd hmapped (by decide)

/-! ## The two descriptions -/

theorem readRtpmap_rtpmap {fmt : Text} (h : fmt = lit "0" ∨ fmt = lit "8") :
    readRtpmap (rtpmap fmt) = some fmt := by
  rcases h with rfl | rfl
  · simp [rtpmap, readRtpmap, lit]
  · simp [rtpmap, readRtpmap, lit]

/-- The `a=rtpmap` lines of an answer are about the formats of its audio line. -/
theorem filterMap_rtpmaps {fmts : List Text} (h : ∀ f ∈ fmts, f = lit "0" ∨ f = lit "8")
    (port : Int) : (rtpmaps fmts).filterMap readRtpmap = (audioMLine port fmts).fmts := by
  rw [rtpmaps, audioMLine]
  split
  · simp [readRtpmap, lit]
  · rw [List.filterMap_map]
    exact (List.filterMap_congr fun f hf => readRtpmap_rtpmap (h f hf)).trans List.filterMap_some

theorem audioMLine_fmts_ne_nil (port : Int) (fmts : List Text) :
    (audioMLine port fmts).fmts ≠ [] := by
  rw [audioMLine]
  split
  · exact List.cons_ne_nil _ _
  · next hne => exact hne

theorem audioMLine_nodup_iff (port : Int) (fmts : List Text) :
    (audioMLine port fmts).fmts.Nodup ↔ fmts.Nodup := by
  rw [audioMLine]
  split
  · next hnil => simp [hnil]
  · exact Iff.rfl

theorem audioMLine_media (port : Int) (fmts : List Text) :
    (audioMLine port fmts).media = lit "audio" := by
  rw [audioMLine]
  split
  · rfl
  · rfl

/-- There is no video line if video is off or not accepted, and there is none to reject. -/
theorem videoMLines_eq_nil_iff {useVideo jpeg present : Bool} {port : Int} :
    videoMLines useVideo jpeg present port = [] ↔
      (jpeg = true → useVideo = false) ∧ (present = true → jpeg = true) := by
  cases useVideo <;> cases jpeg <;> cases present <;> simp [videoMLines]

/-- The description that is written has its `a=rtpmap` lines where they belong. -/
def SdpPlaced (cfg : Config) (net : Net) (jpegSupported : Bool) (remoteSdp : Option SdpMessage)
    (ports : Ports) : Prop :=
  ∃ localSdp ports', createLocalSdp cfg net jpegSupported remoteSdp ports =
    .ok (localSdp, ports') ∧ RtpmapsPlaced localSdp

theorem offer_placed_iff (cfg : Config) (net : Net) (ports : Ports) :
    RtpmapsPlaced (offerText cfg net ports) ↔ cfg.useVideo = false := by
  have haudio : MLine.Plain ⟨lit "audio", fmtD (mappedPort cfg net ports.next),
      [lit "0", lit "8", lit "101"]⟩ :=
    plain_fmtD (m := ⟨lit "audio", [], [lit "0", lit "8", lit "101"]⟩) (plain_lit (by simp [lit])) _
  rw [offerText, offerMLines, rtpmapsPlaced_sdpText_iff (newline_notMem_sdpAddr cfg net _)
    (List.forall_mem_cons.2 ⟨haudio, plain_videoMLines _ _ _ _⟩)
    (by simp [lit, Attribute, readMLine]) rfl (List.cons_ne_nil _ _) (by simp [readRtpmap, lit]),
    videoMLines_eq_nil_iff]
  simp [lit]

theorem answer_placed_iff (cfg : Config) (net : Net) (jpegSupported : Bool)
    (remoteSdp : SdpMessage) (ports : Ports) :
    RtpmapsPlaced (answerText cfg net jpegSupported remoteSdp ports) ↔
      ((remoteSdp.jpeg jpegSupported = true → cfg.useVideo = false) ∧
        ((remoteSdp.media (lit "video")).isSome = true → remoteSdp.jpeg jpegSupported = true)) ∧
      remoteSdp.pcmFmts.Nodup := by
  have hpcm : ∀ f ∈ remoteSdp.pcmFmts, f = lit "0" ∨ f = lit "8" := fun f hf => mem_pcmFmts hf
  rw [answerText, answerMLines, rtpmapsPlaced_sdpText_iff (newline_notMem_sdpAddr cfg net _)
    (List.forall_mem_cons.2 ⟨plain_audioMLine hpcm _, plain_videoMLines _ _ _ _⟩)
    (attribute_rtpmaps _) (audioMLine_media _ _) (audioMLine_fmts_ne_nil _ _)
    (filterMap_rtpmaps hpcm _), videoMLines_eq_nil_iff, audioMLine_nodup_iff]

/-- There are two formats to list. -/
theorem length_le_of_nodup {fmts : List Text} (h : ∀ f ∈ fmts, f = lit "0" ∨ f = lit "8")
    (hnodup : fmts.Nodup) : fmts.length ≤ 2 := by
  have hsub : fmts ⊆ [lit "0", lit "8"] := fun f hf => by simpa using h f hf
  exact (hnodup.subperm hsub).length_le

/-- **The `a=rtpmap` lines are where they belong if and only if there is no video line behind the
audio line, and the audio line lists no format twice.** -/
theorem sdpPlaced_iff (cfg : Config) (net : Net) (jpegSupported : Bool)
    (remoteSdp : Option SdpMessage) (ports : Ports) :
    SdpPlaced cfg net jpegSupported remoteSdp ports ↔
      match remoteSdp with
      | none => cfg.useVideo = false
      | some sdp =>
        ((sdp.jpeg jpegSupported = true → cfg.useVideo = false) ∧
          ((sdp.media (lit "video")).isSome = true → sdp.jpeg jpegSupported = true)) ∧
        sdp.pcmFmts.Nodup := by
  cases remoteSdp with
  | none =>
    rw [SdpPlaced, createLocalSdp_offer]
    simp only [Except.ok.injEq, Prod.mk.injEq]
    rw [← offer_placed_iff cfg net ports]
    constructor
    · rintro ⟨localSdp, ports', ⟨rfl, -⟩, h⟩
      exact h
    · exact fun h => ⟨_, _, ⟨rfl, rfl⟩, h⟩
  | some sdp =>
    simp only [SdpPlaced, createLocalSdp_answer_iff, Prod.mk.injEq]
    rw [← answer_placed_iff cfg net jpegSupported sdp ports]
    constructor
    · rintro ⟨localSdp, ports', ⟨-, rfl, -⟩, h⟩
      exact h
    · intro h
      have hnodup := ((answer_placed_iff cfg net jpegSupported sdp ports).1 h).2
      have hlen : sdp.pcmFmts.length ≤ 2 := length_le_of_nodup (fun f hf => mem_pcmFmts hf) hnodup
      exact ⟨_, _, ⟨hlen.trans (by decide), rfl, rfl⟩, h⟩

/-- In an offer with video the `a=rtpmap` lines of the audio line are behind the video line. -/
theorem not_sdpPlaced : ¬ SdpPlaced { useVideo := true } {} false none {} := by
  rintro ⟨localSdp, ports', hok, h⟩
  rw [createLocalSdp_offer, Except.ok.injEq, Prod.mk.injEq] at hok
  rw [← hok.1, offer_placed_iff] at h
  exact Bool.false_ne_true h.symm

end Furikup
