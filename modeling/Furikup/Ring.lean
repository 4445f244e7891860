import Furikup.Lib.Polling
import Furikup.TextGui

/-!
# The ring tone and the ringer

The engine plays a ring tone while the other side is called, and the user interface a ringer while a
call comes in.  Each has a thread for it that goes round as long as it finds a flag set, and the
flag is all there is to stop it.

* `RingPc`, `playRingbackThread`, `playRingerThread` — the threads, one access to the flag or one
  call of the system a step.
* `ringbackOwner`, `ringerOwner` — the engine and the user interface as the owners of the flags.
* `ring_threads_safe_iff` — **when there is one thread and it ends with its call.**
-/

set_option autoImplicit false

namespace Furikup

open CText CallState Polling

/-! ## The threads -/

/-- Where a ring thread is. -/
inductive RingPc
  /-- At the test of the outer loop. -/
  | test
  | seek
  /-- At `sceIoRead`, in the test of the inner loop. -/
  | read
  /-- At the other half of that test. -/
  | readTest
  /-- At `sceAudioOutputBlocking`. -/
  | output
  /-- At the test before the delay. -/
  | delayTest
  | delay
  | exited
  deriving DecidableEq, Repr

/-- One step, on the flag and on what `sceIoRead` returns. -/
def RingPc.next (flag : Bool) (lread : Int) : RingPc → RingPc
  | test => if flag then seek else exited
  | seek => read
  | read => if lread ≠ 0 then readTest else delayTest
  | readTest => if flag then output else delayTest
  | output => read
  | delayTest => if flag then delay else test
  | delay => test
  | exited => exited

/-- A thread that is about to play has just seen the flag. -/
theorem RingPc.flag_of_next {flag : Bool} {lread : Int} {pc : RingPc}
    (h : next flag lread pc = output) : flag = true := by
  cases flag with
  | true => rfl
  | false =>
    cases pc with
    | read =>
      rw [next] at h
      split at h
      · cases h
      · cases h
    | test | seek | readTest | output | delayTest | delay | exited => cases h

/-- A thread that plays a file over and over while a flag is set. -/
def ringLoop : Program RingPc Int where
  start := .test
  next := RingPc.next
  done pc := pc == .exited
  acting pc := pc == .output
  next_done flag lread pc hdone := by
    obtain rfl := eq_of_beq hdone
    rfl
  start_loops := rfl
  acting_loops pc hacting := by
    obtain rfl := eq_of_beq hacting
    rfl
  flag_of_acting _ _ _ hacting := RingPc.flag_of_next (eq_of_beq hacting)

def playRingbackThread : Program RingPc Int := ringLoop

def playRingerThread : Program RingPc Int := ringLoop

/-! ## Their owners -/

/-- What one step of the engine does to the ring tone. -/
structure RingCall (audio audio' : Audio) : Prop where
  ringbackfile : audio'.ringbackfile = audio.ringbackfile
  one : OneCall (decide (audio.ringbackfile < 0)) audio.ringback audio.ringbackThreads
    audio'.ringback audio'.ringbackThreads

theorem ringCall_playRingback (audio : Audio) : RingCall audio (playRingback audio) := by
  rw [playRingback]
  by_cases hfile : audio.ringbackfile ≥ 0
  · rw [if_pos hfile]
    exact ⟨rfl, .start (decide_eq_false (by omega)) rfl rfl⟩
  · rw [if_neg hfile]
    exact ⟨rfl, .mute (decide_eq_true (by omega)) rfl rfl⟩

theorem ringCall_stopRingback (audio : Audio) : RingCall audio (stopRingback audio) :=
  ⟨rfl, .stop rfl rfl⟩

theorem RingCall.refl (audio : Audio) : RingCall audio audio :=
  ⟨rfl, .nothing rfl rfl⟩

theorem ringCall_rtpAudioSetup {remoteSdp : Int → Option SdpMessage} {tid : Int} {incoming : Bool}
    {ports : Ports} {audio audio' : Audio}
    (h : rtpAudioSetup remoteSdp tid incoming ports audio = .ok audio') :
    RingCall audio (stopRingback audio') := by
  obtain ⟨sdp, -, session, -, rfl⟩ := rtpAudioSetup_eq_ok.1 h
  exact ⟨rfl, .stop rfl rfl⟩

theorem ringCall_hangup (s : Core) : RingCall s.audio s.hangup.audio := by
  rw [Core.hangup]
  split
  · exact ⟨rfl, .stop rfl rfl⟩
  · exact ringCall_stopRingback s.audio

theorem ringCall_arm {cfg : Config} {i : Input} {s s' : Core} (harm : Arm cfg i s s') :
    RingCall s.audio s'.audio := by
  cases harm with
  | idle => exact .refl _
  | makeCall => exact .refl _
  | answerCall => exact .refl _
  | hangup => exact ringCall_hangup s
  | disconnect => exact .refl _
  | disconnectCall => exact ringCall_hangup s
  | quit => exact .refl _
  | registering => exact .refl _
  | registeringRegistered => exact ringCall_stopRingback s.audio
  | registered => exact ringCall_stopRingback s.audio
  | incoming => exact .refl _
  | ringing => exact ringCall_playRingback s.audio
  | answered _ _ haudio => exact ringCall_rtpAudioSetup haudio
  | ack _ _ haudio => exact ringCall_rtpAudioSetup haudio
  | ended => exact ringCall_stopRingback s.audio
  | closed => exact ⟨rfl, .stop rfl rfl⟩
  | disconnected => exact .refl _

/-- The engine owns `ringback`. -/
def ringbackOwner (cfg : Config) : Owner (step cfg) where
  flag e := e.audio.ringback
  started e := e.audio.ringbackThreads
  mute e := decide (e.audio.ringbackfile < 0)
  mute_step _ _ _ h := by
    have hfile := (ringCall_arm (step_arm h)).ringbackfile
    exact congrArg (fun file => decide (file < 0)) hfile
  one_call _ _ _ h := (ringCall_arm (step_arm h)).one

/-- What one event does to the ringer. -/
structure RingerCall (gui gui' : TextGui) : Prop where
  ringfile : gui'.ringfile = gui.ringfile
  one : OneCall (decide (gui.ringfile < 0)) gui.ringing gui.ringThreads gui'.ringing
    gui'.ringThreads

theorem RingerCall.refl (gui : TextGui) : RingerCall gui gui :=
  ⟨rfl, .nothing rfl rfl⟩

theorem ringerCall_playRinger (gui : TextGui) : RingerCall gui (playRinger gui) := by
  rw [playRinger]
  by_cases hfile : gui.ringfile ≥ 0
  · rw [if_pos hfile]
    exact ⟨rfl, .start (decide_eq_false (by omega)) rfl rfl⟩
  · rw [if_neg hfile]
    exact ⟨rfl, .mute (decide_eq_true (by omega)) rfl rfl⟩

theorem ringerCall_sipState {s : Int} {gui gui' : TextGui}
    (h : callbackEventHandler (.notice (.sipState s)) gui = .ok gui') : RingerCall gui gui' := by
  have hstop : RingerCall gui (if s = 5 ∨ s = 2 then stopRinger gui else gui) := by
    split
    · exact ⟨rfl, .stop rfl rfl⟩
    · exact .refl gui
  simp only [callbackEventHandler] at h
  generalize (if s = 5 ∨ s = 2 then stopRinger gui else gui) = gui₁ at h hstop
  split at h
  · rw [pure_eq_ok.1 h]
    exact ⟨hstop.ringfile, hstop.one⟩
  · rw [pure_eq_ok.1 h]
    exact ⟨hstop.ringfile, hstop.one⟩

theorem ringerCall_callbackEventHandler {event : Action} {gui gui' : TextGui}
    (h : callbackEventHandler event gui = .ok gui') : RingerCall gui gui' := by
  cases event with
  | notice n =>
    cases n with
    | sipState s => exact ringerCall_sipState h
    | startup s =>
      rw [pure_eq_ok.1 h]
      exact ⟨rfl, .nothing rfl rfl⟩
    | errorMessage text =>
      rw [pure_eq_ok.1 h]
      exact .refl gui
  | incomingCall cid caller index =>
    obtain ⟨gCaller, -, h⟩ := bind_eq_ok.1 h
    have hplay := ringerCall_playRinger gui
    rw [pure_eq_ok.1 h]
    exact ⟨hplay.ringfile, hplay.one⟩
  | _ =>
    rw [pure_eq_ok.1 h]
    exact .refl gui

/-- The user interface owns `ringing`. -/
def ringerOwner : Owner callbackEventHandler where
  flag gui := gui.ringing
  started gui := gui.ringThreads
  mute gui := decide (gui.ringfile < 0)
  mute_step _ _ _ h := by
    have hfile := (ringerCall_callbackEventHandler h).ringfile
    exact congrArg (fun file => decide (file < 0)) hfile
  one_call _ _ _ h := (ringerCall_callbackEventHandler h).one

/-! ## One thread, that ends with its call -/

/-- The engine with its ring tone threads. -/
abbrev ringbackStep (cfg : Config) :
    Slot Input Int → Crew Engine RingPc → C (Crew Engine RingPc) :=
  crewStep playRingbackThread (ringbackOwner cfg)

/-- The user interface with its ringer threads. -/
abbrev ringerStep : Slot Action Int → Crew TextGui RingPc → C (Crew TextGui RingPc) :=
  crewStep playRingerThread ringerOwner

/-- **One ring tone thread at a time, and none that plays when its call rings no more**, however the
threads are scheduled: if and only if none is started before the last one has left its loop, and
the flag is not cleared while one stands between its test and its output.  The same goes for the
ringer, on whatever events the engine tells of. -/
theorem ring_threads_safe_iff (cfg : Config)
    (callThid cbid ringbackfile cameraSetup cameraStart ringfile : Int)
    (slots : List (Slot Input Int)) (guiSlots : List (Slot Action Int)) :
    (Machine.Always (ringbackStep cfg) (Crew.Safe playRingbackThread (ringbackOwner cfg)) slots
        { owner := boot cfg callThid cbid ringbackfile cameraSetup cameraStart } ↔
      Machine.Along (ringbackStep cfg) (Orderly playRingbackThread (ringbackOwner cfg)) slots
        { owner := boot cfg callThid cbid ringbackfile cameraSetup cameraStart }) ∧
    (Machine.Always ringerStep (Crew.Safe playRingerThread ringerOwner) guiSlots
        { owner := { ringfile := ringfile } } ↔
      Machine.Along ringerStep (Orderly playRingerThread ringerOwner) guiSlots
        { owner := { ringfile := ringfile } }) := by
  constructor
  · exact safe_iff_along _ slots
  · exact safe_iff_along _ guiSlots

/-- The other side rings twice. -/
def ringTwice : List (Slot Input Int) :=
  (dialInputs ++ List.replicate 2
    (Input.poll {} (some { type := .callRinging, cid := 1, did := 11 }))).map Slot.owner

/-- There are two threads then. -/
theorem ringTwice_not_sound : ∃ crew, Machine.run (ringbackStep {}) ringTwice
    { owner := boot {} 1 1 3 0 0 } = .ok crew ∧ ¬crew.Sound playRingbackThread := by
  obtain ⟨crew, hrun, htwo⟩ := Machine.exists_of_okAnd
    (show Machine.okAnd (Machine.run (ringbackStep {}) ringTwice { owner := boot {} 1 1 3 0 0 })
      (fun crew => decide (crew.threads.countP (fun t => !playRingbackThread.done t.pc) = 2)) = true
      by decide +kernel)
  refine ⟨crew, hrun, ?_⟩
  intro hsound
  have hone := hsound.one
  have htwo := of_decide_eq_true htwo
  omega

end Furikup
