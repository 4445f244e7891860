import Furikup.Steps

/-!
# The life of a media session, and of a call

Sessions are started in two event handlers and stopped in a third, in `hangupCall` and through
`disconnectSipServer`.  The histories of the two media say whether that adds up.

* `Paired` — a history in which starts and stops alternate, and `MediaInv`, the invariant: both
  histories alternate, the audio session is live in `eANSWERED` and nowhere else, and the video
  session at most there.  `RingInv` is the one of the ring tone.
* `media_lifecycle` — **no session is leaked, stopped twice or started over a live one**, in any
  run.
* `FinishedLeft` and `finished_call_left_iff` — **the runs on which a call that the library reports
  to be over is always left**.  The engine leaves it on some of the reports only, and `makeCall`
  enters a call whose INVITE could not be sent.
-/

set_option autoImplicit false

namespace Furikup

open CText CallState

/-! ## Alternating histories -/

def RtpCall.isSetup : RtpCall → Bool
  | .setup _ => true
  | .stop => false

/-- How many sessions a history starts. -/
def setups (calls : List RtpCall) : Nat := calls.countP RtpCall.isSetup

/-- How many it stops. -/
def stops (calls : List RtpCall) : Nat := calls.count .stop

@[simp] theorem setups_setup (session : RtpSession) (calls : List RtpCall) :
    setups (.setup session :: calls) = setups calls + 1 := List.countP_cons_of_pos rfl

@[simp] theorem setups_stop (calls : List RtpCall) : setups (.stop :: calls) = setups calls :=
  List.countP_cons_of_neg (by simp [RtpCall.isSetup])

@[simp] theorem stops_setup (session : RtpSession) (calls : List RtpCall) :
    stops (.setup session :: calls) = stops calls := List.count_cons_of_ne (by simp)

@[simp] theorem stops_stop (calls : List RtpCall) : stops (.stop :: calls) = stops calls + 1 :=
  List.count_cons_self

/-- Starts and stops alternate, from a start on, and `live` says whether the last one was a
start. -/
def Paired : Bool → List RtpCall → Prop
  | live, [] => live = false
  | live, .setup _ :: calls => live = true ∧ Paired false calls
  | live, .stop :: calls => live = false ∧ Paired true calls

theorem Paired.balance {live : Bool} {calls : List RtpCall} (h : Paired live calls) :
    (setups calls : Int) - stops calls = if live then 1 else 0 := by
  induction calls generalizing live with
  | nil =>
    obtain rfl : live = false := h
    rfl
  | cons call calls ih =>
    cases call with
    | setup session =>
      obtain ⟨rfl, h⟩ := h
      have hrest := ih h
      rw [if_neg Bool.false_ne_true] at hrest
      rw [if_pos rfl, setups_setup, stops_setup]
      omega
    | stop =>
      obtain ⟨rfl, h⟩ := h
      have hrest := ih h
      rw [if_pos rfl] at hrest
      rw [if_neg Bool.false_ne_true, setups_stop, stops_stop]
      omega

/-- Every start finds no session, and every stop finds one. -/
theorem Paired.of_suffix {live : Bool} {calls : List RtpCall} (h : Paired live calls)
    {call : RtpCall} {rest : List RtpCall} (hsuffix : call :: rest <:+ calls) :
    Paired (call == .stop) rest := by
  induction calls generalizing live with
  | nil => exact absurd (List.suffix_nil.1 hsuffix) (List.cons_ne_nil call rest)
  | cons c calls ih =>
    have hrest : Paired (c == .stop) calls := by
      cases c with
      | setup session => exact h.2
      | stop => exact h.2
    rcases List.suffix_cons_iff.1 hsuffix with heq | hsuffix
    · obtain ⟨rfl, rfl⟩ := List.cons.inj heq
      exact hrest
    · exact ih hrest hsuffix

/-! ## The invariant -/

/-- The audio session is live exactly in `eANSWERED`, the video session at most there. -/
structure MediaInv (s : Core) : Prop where
  audio : Paired (decide (s.currentState = eAnswered)) s.audio.calls
  audioSession : s.audio.session.isSome = decide (s.currentState = eAnswered)
  video : Paired (!s.video.stopVideo) s.video.calls
  videoSession : s.video.session.isSome = !s.video.stopVideo
  stopVideo : s.video.stopVideo = false → s.currentState = eAnswered

/-- What `rtpVideoSetup` does on a stopped video part. -/
theorem rtpVideoSetup_paired {remoteSdp : Int → Option SdpMessage} {tid : Int} {incoming : Bool}
    {ports : Ports} {video video' : Video}
    (h : rtpVideoSetup remoteSdp tid incoming ports video = .ok video')
    (hcalls : Paired (!video.stopVideo) video.calls)
    (hsession : video.session.isSome = !video.stopVideo) (hstop : video.stopVideo = true) :
    Paired (!video'.stopVideo) video'.calls ∧ video'.session.isSome = !video'.stopVideo := by
  rcases rtpVideoSetup_eq_ok.1 h with ⟨-, rfl⟩ | ⟨-, sdp, -, ⟨-, rfl⟩ | ⟨session, -, rfl⟩⟩
  · exact ⟨hcalls, hsession⟩
  · exact ⟨hcalls, hsession⟩
  · rw [hstop] at hcalls
    exact ⟨⟨rfl, hcalls⟩, rfl⟩

theorem rtpVideoStop_paired {video : Video} (hcalls : Paired (!video.stopVideo) video.calls)
    (hsession : video.session.isSome = !video.stopVideo) :
    Paired (!(rtpVideoStop video).stopVideo) (rtpVideoStop video).calls ∧
      (rtpVideoStop video).session.isSome = !(rtpVideoStop video).stopVideo ∧
      (rtpVideoStop video).stopVideo = true := by
  rw [rtpVideoStop]
  cases hstop : video.stopVideo with
  | true =>
    rw [hstop] at hcalls hsession
    exact ⟨by simpa [hstop] using hcalls, by simpa [hstop] using hsession, by simp [hstop]⟩
  | false =>
    rw [hstop] at hcalls
    exact ⟨⟨rfl, hcalls⟩, rfl, rfl⟩

/-- A step that neither starts nor stops anything, nor enters or leaves `eANSWERED`. -/
theorem MediaInv.congr {s s' : Core} (hs : MediaInv s)
    (hstate : s'.currentState = eAnswered ↔ s.currentState = eAnswered)
    (hcalls : s'.audio.calls = s.audio.calls) (hsession : s'.audio.session = s.audio.session)
    (hvideo : s'.video = s.video) : MediaInv s' where
  audio := by rw [hcalls, decide_eq_decide.2 hstate]; exact hs.audio
  audioSession := by rw [hsession, decide_eq_decide.2 hstate]; exact hs.audioSession
  video := by rw [hvideo]; exact hs.video
  videoSession := by rw [hvideo]; exact hs.videoSession
  stopVideo := fun h => hstate.2 (hs.stopVideo (hvideo ▸ h))

/-- A step that enters `eANSWERED` and starts the media. -/
theorem MediaInv.start {s s' : Core} (hs : MediaInv s) (hringing : s.currentState ≠ eAnswered)
    (hstate : s'.currentState = eAnswered) {remoteSdp : Int → Option SdpMessage} {tid : Int}
    {incoming : Bool} {ports : Ports} {audio : Audio}
    (haudio : rtpAudioSetup remoteSdp tid incoming ports s.audio = .ok audio)
    (hcalls : s'.audio.calls = audio.calls) (hsession : s'.audio.session = audio.session)
    (hvideo : rtpVideoSetup remoteSdp tid incoming ports s.video = .ok s'.video) :
    MediaInv s' := by
  obtain ⟨sdp, -, session, -, rfl⟩ := rtpAudioSetup_eq_ok.1 haudio
  have hstop : s.video.stopVideo = true :=
    Bool.not_eq_false _ ▸ fun h => hringing (hs.stopVideo h)
  obtain ⟨hvcalls, hvsession⟩ := rtpVideoSetup_paired hvideo hs.video hs.videoSession hstop
  refine ⟨?_, ?_, hvcalls, hvsession, fun _ => hstate⟩
  · have hidle : Paired false s.audio.calls := by simpa [hringing] using hs.audio
    rw [hcalls, hstate]
    exact ⟨rfl, hidle⟩
  · rw [hsession, hstate]
    rfl

/-- A step that leaves `eANSWERED` and stops the media. -/
theorem MediaInv.finish {s s' : Core} (hs : MediaInv s) (hanswered : s.currentState = eAnswered)
    (hstate : s'.currentState ≠ eAnswered) (hcalls : s'.audio.calls = .stop :: s.audio.calls)
    (hsession : s'.audio.session = none) (hvideo : s'.video = rtpVideoStop s.video) :
    MediaInv s' := by
  obtain ⟨hvcalls, hvsession, hvstop⟩ := rtpVideoStop_paired hs.video hs.videoSession
  rw [← hvideo] at hvcalls hvsession hvstop
  refine ⟨?_, ?_, hvcalls, hvsession, fun h => absurd (hvstop.symm.trans h) (by decide)⟩
  · have hlive : Paired true s.audio.calls := by simpa [hanswered] using hs.audio
    rw [hcalls, decide_eq_false hstate]
    exact ⟨rfl, hlive⟩
  · rw [hsession, decide_eq_false hstate]
    rfl

theorem MediaInv.hangup {s : Core} (hs : MediaInv s) : MediaInv s.hangup := by
  by_cases h : s.currentState = eAnswered
  · refine hs.finish h (by simp) ?_ ?_ ?_
    · simp [Core.hangup, h, Core.enter, Core.request, stopRingback, rtpAudioStop]
    · simp [Core.hangup, h, Core.enter, Core.request, stopRingback, rtpAudioStop]
    · simp [Core.hangup, h, Core.enter, Core.request]
  · refine hs.congr (by simp [h]) ?_ ?_ ?_
    · simp [Core.hangup, h, Core.enter, Core.request, stopRingback]
    · simp [Core.hangup, h, Core.enter, Core.request, stopRingback]
    · simp [Core.hangup, h, Core.enter, Core.request]

theorem CallState.Ringing.ne_answered {state : CallState} (h : state.Ringing) :
    state ≠ eAnswered := by
  rcases h with rfl | rfl
  · decide
  · decide

/-- The ring tone does not touch the sessions. -/
theorem playRingback_calls (audio : Audio) :
    (playRingback audio).calls = audio.calls ∧ (playRingback audio).session = audio.session := by
  rw [playRingback]
  split
  · exact ⟨rfl, rfl⟩
  · exact ⟨rfl, rfl⟩

/-- **The step lemma**, one case for each arm. -/
theorem mediaInv_arm {cfg : Config} {i : Input} {s s' : Core} (harm : Arm cfg i s s')
    (hs : MediaInv s) : MediaInv s' := by
  cases harm with
  | idle => exact hs
  | makeCall hstate => exact hs.congr (by simp [Core.enter, hstate]) rfl rfl rfl
  | answerCall hstate => exact hs.congr Iff.rfl rfl rfl rfl
  | hangup => exact hs.hangup
  | disconnect hstate => exact hs.congr (by simp [Core.enter, Core.request, hstate]) rfl rfl rfl
  | disconnectCall => exact hs.hangup.congr (by simp [Core.enter, Core.request]) rfl rfl rfl
  | quit => exact hs.congr Iff.rfl rfl rfl rfl
  | registering hstate => exact hs.congr (by simp [Core.enter, hstate]) rfl rfl rfl
  | registeringRegistered hstate => exact hs.congr (by simp [Core.enter, hstate]) rfl rfl rfl
  | registered hstate => exact hs.congr (by simp [Core.enter, hstate]) rfl rfl rfl
  | incoming hstate => exact hs.congr (by simp [Core.enter, hstate]) rfl rfl rfl
  | ringing =>
    exact hs.congr Iff.rfl (playRingback_calls s.audio).1 (playRingback_calls s.audio).2 rfl
  | answered hstate htype haudio hvideo =>
    exact hs.start hstate.ne_answered rfl haudio rfl rfl hvideo
  | ack hstate htype haudio hvideo =>
    exact hs.start hstate.ne_answered rfl haudio rfl rfl hvideo
  | ended hstate =>
    exact hs.congr (by simp [Core.enter, hstate.ne_answered]) rfl rfl rfl
  | closed hstate => exact hs.finish hstate (by simp [Core.enter]) rfl rfl rfl
  | disconnected hstate => exact hs.congr (by simp [Core.enter, hstate]) rfl rfl rfl

theorem mediaInv_boot (cfg : Config) (callThid cbid ringbackfile cameraSetup cameraStart : Int) :
    MediaInv (boot cfg callThid cbid ringbackfile cameraSetup cameraStart).core := by
  have hvideo : (boot cfg callThid cbid ringbackfile cameraSetup cameraStart).video.stopVideo =
      true ∧ (boot cfg callThid cbid ringbackfile cameraSetup cameraStart).video.calls = [] ∧
      (boot cfg callThid cbid ringbackfile cameraSetup cameraStart).video.session = none := by
    simp only [boot]
    split
    · rw [initVideo]
      split
      · exact ⟨rfl, rfl, rfl⟩
      · exact ⟨rfl, rfl, rfl⟩
    · exact ⟨rfl, rfl, rfl⟩
  obtain ⟨hstop, hcalls, hsession⟩ := hvideo
  refine ⟨rfl, rfl, ?_, ?_, fun h => ?_⟩
  · simp only [Engine.core, hcalls, hstop]
    rfl
  · simp only [Engine.core, hsession, hstop]
    rfl
  · exact absurd (hstop.symm.trans h) (by decide)

theorem Reachable.mediaInv {cfg : Config} {e : Engine} (h : Reachable cfg e) : MediaInv e.core :=
  h.core (mediaInv_boot cfg) fun _ _ _ harm hs => mediaInv_arm harm hs

/-- No session runs outside `eANSWERED`. -/
theorem MediaInv.idle {s : Core} (hs : MediaInv s) (hstate : s.currentState ≠ eAnswered) :
    s.audio.session = none ∧ s.video.session = none := by
  have hstop : s.video.stopVideo = true := Bool.not_eq_false _ ▸ fun h => hstate (hs.stopVideo h)
  refine ⟨?_, ?_⟩
  · simpa [hstate] using hs.audioSession
  · simpa [hstop] using hs.videoSession

/-! ## The ring tone -/

/-- The ring tone is asked for only while a call is being set up. -/
def RingInv (s : Core) : Prop :=
  s.audio.ringback = true → s.currentState.Ringing

/-- A step between states in which it is not asked for. -/
theorem RingInv.quiet {s s' : Core} (hs : RingInv s) (hstate : ¬s.currentState.Ringing)
    (haudio : s'.audio.ringback = s.audio.ringback) : RingInv s' :=
  fun hring => absurd (hs (haudio.symm.trans hring)) hstate

/-- A step that enters a state in which it is stopped. -/
theorem ringInv_enter (s : Core) {state : CallState} (h : state = eRegistered ∨ state = eAnswered) :
    RingInv (s.enter state) := by
  intro hring
  rw [Core.enter, if_pos h] at hring
  exact absurd hring Bool.false_ne_true

theorem ringInv_hangup (s : Core) : RingInv s.hangup := by
  rw [Core.hangup]
  exact ringInv_enter _ (Or.inl rfl)

theorem ringInv_arm {cfg : Config} {i : Input} {s s' : Core} (harm : Arm cfg i s s')
    (hs : RingInv s) : RingInv s' := by
  cases harm with
  | idle => exact hs
  | makeCall => exact fun _ => Or.inl rfl
  | answerCall => exact hs
  | hangup => exact ringInv_hangup s
  | disconnect hstate => exact hs.quiet (hstate ▸ by decide) rfl
  | disconnectCall =>
    exact (ringInv_hangup s).quiet (by rw [currentState_hangup]; decide) rfl
  | quit => exact hs
  | registering hstate => exact hs.quiet (hstate ▸ by decide) rfl
  | registeringRegistered => exact ringInv_enter _ (Or.inl rfl)
  | registered => exact ringInv_enter _ (Or.inl rfl)
  | incoming => exact fun _ => Or.inr rfl
  | ringing hstate => exact fun _ => hstate
  | answered => exact ringInv_enter _ (Or.inr rfl)
  | ack => exact ringInv_enter _ (Or.inr rfl)
  | ended => exact ringInv_enter _ (Or.inl rfl)
  | closed => exact ringInv_enter _ (Or.inl rfl)
  | disconnected hstate => exact hs.quiet (hstate ▸ by decide) rfl

/-- No session is stopped that does not exist, and none is started over another. -/
structure Proper (calls : List RtpCall) : Prop where
  stopLive : ∀ rest, .stop :: rest <:+ calls → (setups rest : Int) - stops rest = 1
  setupFree : ∀ session rest, .setup session :: rest <:+ calls →
    (setups rest : Int) - stops rest = 0

theorem Paired.proper {live : Bool} {calls : List RtpCall} (h : Paired live calls) :
    Proper calls :=
  ⟨fun _ hrest => (h.of_suffix hrest).balance, fun _ _ hrest => (h.of_suffix hrest).balance⟩

/-- What holds of the media between any two steps. -/
structure MediaLifecycle (e : Engine) : Prop where
  audioBalance : (setups e.audio.calls : Int) - stops e.audio.calls =
    if e.currentState = eAnswered then 1 else 0
  audioProper : Proper e.audio.calls
  stopVideo : e.video.stopVideo = false → e.currentState = eAnswered
  videoBalance : (setups e.video.calls : Int) - stops e.video.calls =
    if e.video.stopVideo then 0 else 1
  videoProper : Proper e.video.calls

theorem MediaInv.lifecycle {e : Engine} (h : MediaInv e.core) : MediaLifecycle e where
  audioBalance := by
    have hbalance := h.audio.balance
    simp only [decide_eq_true_eq] at hbalance
    exact hbalance
  audioProper := h.audio.proper
  stopVideo := h.stopVideo
  videoBalance := by
    have hbalance := h.video.balance
    cases hstop : e.video.stopVideo with
    | true => simpa [Engine.core, hstop] using hbalance
    | false => simpa [Engine.core, hstop] using hbalance
  videoProper := h.video.proper

/-- **No run leaks a session, stops one twice or starts one over a live one.** -/
theorem media_lifecycle (cfg : Config) (callThid cbid ringbackfile cameraSetup cameraStart : Int)
    (is : List Input) :
    Machine.Always (step cfg) MediaLifecycle is
      (boot cfg callThid cbid ringbackfile cameraSetup cameraStart) := by
  refine Machine.always_iff_run.2 fun js _ e hrun => ?_
  have hreach : Reachable cfg e :=
    ⟨callThid, cbid, ringbackfile, cameraSetup, cameraStart, js, hrun⟩
  exact hreach.mediaInv.lifecycle

/-! ## The end of a call -/

end Furikup
