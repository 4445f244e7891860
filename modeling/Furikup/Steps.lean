import Furikup.Engine
import Furikup.Lib.Machine

/-!
# What one step does

The engine's globals split into those a call is about and the rest: the callback flag, the state of
the thread, the lock, the notices.  `Core` is the first part, with the requests made of the SIP
library and the announcements of calls as the only entries of the history.

* `Arm cfg i s s'` — the ways input `i` takes the core `s` to the core `s'`, one constructor for
  each arm of the source that changes something, with the conditions that lead to it.
* `makeCall_cases` and the like — what each function does, with the whole engine, and `Command` and
  `Handled`, which of them the switches run.  The facts about the rest of the engine are proved from
  these.
* `step_arm` — **every step is one of the arms.**  All invariants of the core are proved from this
  one case analysis.
* `run_core` — the induction over runs in terms of cores.
* `dialInputs`, `incomingInputs` — two runs that lead into a call, one in each direction.
-/

set_option autoImplicit false

namespace Furikup

open CText CallState

/-! ## The core -/

/-- What is asked of the SIP library about registrations and calls, and the announcement of a
call. -/
def Action.isRequest : Action → Bool
  | .register .. => true
  | .invite .. => true
  | .answer .. => true
  | .ack .. => true
  | .terminate .. => true
  | .incomingCall .. => true
  | _ => false

/-- The part of the engine that calls are about. -/
structure Core where
  currentState : CallState
  quit : Bool
  cid : Int
  did : Int
  tid : Int
  rid : Int
  sdp : Text
  ports : Ports
  audio : Audio
  video : Video
  requests : List Action

def Engine.requests (e : Engine) : List Action :=
  e.log.filter Action.isRequest

def Engine.core (e : Engine) : Core where
  currentState := e.currentState
  quit := e.quit
  cid := e.cid
  did := e.did
  tid := e.tid
  rid := e.rid
  sdp := e.sdp
  ports := e.ports
  audio := e.audio
  video := e.video
  requests := e.requests

/-- The core after one more request. -/
def Core.request (s : Core) (a : Action) : Core :=
  { s with requests := a :: s.requests }

/-- The core after a change of state: entering `eREGISTERED` and `eANSWERED` stops the ring
tone. -/
def Core.enter (s : Core) (state : CallState) : Core :=
  { s with
    currentState := state
    audio := if state = eRegistered ∨ state = eAnswered then stopRingback s.audio else s.audio }

@[simp] theorem core_act_request {e : Engine} {a : Action} (h : a.isRequest = true) :
    (e.act a).core = e.core.request a := by
  simp [Engine.core, Engine.act, Core.request, Engine.requests, h]

@[simp] theorem core_act_other {e : Engine} {a : Action} (h : a.isRequest = false) :
    (e.act a).core = e.core := by
  simp [Engine.core, Engine.act, Engine.requests, h]

@[simp] theorem core_changeState (state : CallState) (e : Engine) :
    (changeState state e).core = e.core.enter state := by
  cases state <;> simp [changeState, Engine.core, Engine.act, Core.enter, Engine.requests,
    Action.isRequest]

/-! ## The arms -/

/-- The states of a call that is being set up. -/
def CallState.Ringing (state : CallState) : Prop :=
  state = eInCall ∨ state = eIncomingCall

instance (state : CallState) : Decidable state.Ringing := inferInstanceAs (Decidable (_ ∨ _))

/-- The states of a call. -/
def CallState.Busy (state : CallState) : Prop :=
  state = eInCall ∨ state = eAnswered ∨ state = eIncomingCall

instance (state : CallState) : Decidable state.Busy := inferInstanceAs (Decidable (_ ∨ _))

/-- The events that end a call that is being set up. -/
def EventType.endsRinging : EventType → Bool
  | .callClosed | .callServerfailure | .callGlobalfailure | .callCancelled | .callTimeout => true
  | _ => false

/-- The core after `hangupCall` in a call. -/
def Core.hangup (s : Core) : Core :=
  let s :=
    if s.currentState = eAnswered then
      { s with audio := rtpAudioStop s.audio, video := rtpVideoStop s.video }
    else s
  { s.request (.terminate s.cid s.did) with cid := 0, did := 0 }.enter eRegistered

/-- The ways a step changes the core. -/
inductive Arm (cfg : Config) : Input → Core → Core → Prop
  | idle {i : Input} {s : Core} : Arm cfg i s s
  /-- `makeCall` in `eREGISTERED`. -/
  | makeCall {lib : Lib} {address user sdp : Text} {ports : Ports} {s : Core}
      (hstate : s.currentState = eRegistered) (hbuilt : lib.inviteBuilt = true)
      (haddress : callAddress address = .ok user)
      (hsdp : createLocalSdp cfg lib.net lib.jpegSupported none s.ports = .ok (sdp, ports)) :
      Arm cfg (.gui lib (.newCall address)) s
        (({ s with sdp := sdp, ports := ports }.request
          (.invite user sdp lib.inviteResult)).enter eInCall)
  /-- `answerCall` in `eINCOMING_CALL`. -/
  | answerCall {lib : Lib} {sdp : Text} {ports : Ports} {s : Core}
      (hstate : s.currentState = eIncomingCall) (hbuilt : lib.answerBuilt = true)
      (hsdp : createLocalSdp cfg lib.net lib.jpegSupported (lib.remoteSdp s.tid) s.ports =
        .ok (sdp, ports)) :
      Arm cfg (.gui lib .answer) s
        ({ s with sdp := sdp, ports := ports }.request
          (.answer s.tid 200 (some sdp) lib.answerResult))
  /-- `hangupCall` in a call. -/
  | hangup {lib : Lib} {event : GuiEvent} {s : Core} (hevent : event = .hangup ∨ event = .reject)
      (hstate : s.currentState.Busy) : Arm cfg (.gui lib event) s s.hangup
  /-- `disconnectSipServer` without a call. -/
  | disconnect {lib : Lib} {s : Core} (hstate : s.currentState = eRegistered) :
      Arm cfg (.gui lib .shutdown) s ((s.enter eDisconnecting).request (.register s.rid 0))
  /-- `disconnectSipServer` in a call that it hangs up. -/
  | disconnectCall {lib : Lib} {s : Core}
      (hstate : s.currentState = eInCall ∨ s.currentState = eAnswered) :
      Arm cfg (.gui lib .shutdown) s
        ((s.hangup.enter eDisconnecting).request (.register s.rid 0))
  /-- `disconnectSipServer` in the other states. -/
  | quit {lib : Lib} {s : Core} (hstate : s.currentState ≠ eRegistered)
      (hcall : s.currentState ≠ eInCall) (hanswered : s.currentState ≠ eAnswered) :
      Arm cfg (.gui lib .shutdown) s { s with quit := true }
  /-- The registration is sent. -/
  | registering {lib : Lib} {je : Option Event} {s : Core}
      (hstate : s.currentState = eNotRegistered) :
      Arm cfg (.poll lib je) s ((s.request (.register lib.registerId 120)).enter eRegistering)
  /-- The registration is sent and succeeds in the same round. -/
  | registeringRegistered {lib : Lib} {je : Event} {s : Core}
      (hstate : s.currentState = eNotRegistered) (htype : je.type = .registrationSuccess) :
      Arm cfg (.poll lib (some je)) s
        ({ (s.request (.register lib.registerId 120)).enter eRegistering with
          rid := je.rid }.enter eRegistered)
  | registered {lib : Lib} {je : Event} {s : Core} (hstate : s.currentState = eRegistering)
      (htype : je.type = .registrationSuccess) :
      Arm cfg (.poll lib (some je)) s ({ s with rid := je.rid }.enter eRegistered)
  /-- A call comes in. -/
  | incoming {lib : Lib} {je : Event} {s : Core} (hstate : s.currentState = eRegistered)
      (htype : je.type = .callInvite) :
      Arm cfg (.poll lib (some je)) s
        ((({ s.request (.answer je.tid 180 none lib.answerResult) with
          cid := je.cid
          did := je.did
          tid := je.tid }).request (.incomingCall je.cid je.displayname (-1))).enter
            eIncomingCall)
  | ringing {lib : Lib} {je : Event} {s : Core} (hstate : s.currentState.Ringing)
      (htype : je.type = .callRinging) :
      Arm cfg (.poll lib (some je)) s
        { s with cid := je.cid, did := je.did, audio := playRingback s.audio }
  /-- The call is answered by the other side. -/
  | answered {lib : Lib} {je : Event} {audio : Audio} {video : Video} {s : Core}
      (hstate : s.currentState.Ringing) (htype : je.type = .callAnswered)
      (haudio : rtpAudioSetup lib.remoteSdp je.tid false s.ports s.audio = .ok audio)
      (hvideo : rtpVideoSetup lib.remoteSdp je.tid false s.ports s.video = .ok video) :
      Arm cfg (.poll lib (some je)) s
        ({ s.request (.ack je.did) with audio := audio, video := video }.enter eAnswered)
  /-- The answer of this side is acknowledged. -/
  | ack {lib : Lib} {je : Event} {audio : Audio} {video : Video} {s : Core}
      (hstate : s.currentState.Ringing) (htype : je.type = .callAck)
      (haudio : rtpAudioSetup lib.remoteSdp je.tid true s.ports s.audio = .ok audio)
      (hvideo : rtpVideoSetup lib.remoteSdp je.tid true s.ports s.video = .ok video) :
      Arm cfg (.poll lib (some je)) s
        ({ s with cid := je.cid, did := je.did, audio := audio, video := video }.enter eAnswered)
  /-- A call that has not been answered ends. -/
  | ended {lib : Lib} {je : Event} {s : Core} (hstate : s.currentState.Ringing)
      (htype : je.type.endsRinging = true) :
      Arm cfg (.poll lib (some je)) s (s.enter eRegistered)
  /-- An answered call ends. -/
  | closed {lib : Lib} {je : Event} {s : Core} (hstate : s.currentState = eAnswered)
      (htype : je.type = .callClosed) :
      Arm cfg (.poll lib (some je)) s
        ({ s with
          cid := 0
          tid := 0
          did := 0
          audio := rtpAudioStop s.audio
          video := rtpVideoStop s.video }.enter eRegistered)
  /-- The registration is gone. -/
  | disconnected {lib : Lib} {je : Event} {s : Core} (hstate : s.currentState = eDisconnecting)
      (htype : je.type = .registrationSuccess ∨ je.type = .registrationTerminated) :
      Arm cfg (.poll lib (some je)) s { s.enter eNotRegistered with quit := true }

/-! ## What the functions do -/

/-- The ways a call is made: not when the engine is not registered, not if the request cannot be
built, or with a description that was written for it. -/
theorem makeCall_cases {cfg : Config} {lib : Lib} {user : Text} {e e' : Engine}
    (h : makeCall cfg lib user e = .ok e') :
    (e.currentState ≠ eRegistered ∧ e' = e) ∨
    (e.currentState = eRegistered ∧ lib.inviteBuilt = false ∧
      e' = e.act (.notice (.errorMessage (lit "Failed invite build")))) ∨
    (e.currentState = eRegistered ∧ lib.inviteBuilt = true ∧ ∃ sdp ports,
      createLocalSdp cfg lib.net lib.jpegSupported none e.ports = .ok (sdp, ports) ∧
      e' = changeState eInCall (((({ e with sdp := sdp, ports := ports }).act .lock).act
        (.invite user sdp lib.inviteResult)).act .unlock)) := by
  rw [makeCall] at h
  by_cases hstate : e.currentState = eRegistered
  · rw [if_pos hstate] at h
    cases hbuilt : lib.inviteBuilt with
    | false =>
      rw [hbuilt] at h
      exact Or.inr (Or.inl ⟨hstate, rfl, pure_eq_ok.1 h⟩)
    | true =>
      rw [hbuilt] at h
      obtain ⟨⟨sdp, ports⟩, hsdp, h⟩ := bind_eq_ok.1 h
      exact Or.inr (Or.inr ⟨hstate, rfl, sdp, ports, hsdp, pure_eq_ok.1 h⟩)
  · rw [if_neg hstate] at h
    exact Or.inl ⟨hstate, pure_eq_ok.1 h⟩

theorem answerCall_cases {cfg : Config} {lib : Lib} {e e' : Engine}
    (h : answerCall cfg lib e = .ok e') :
    (e.currentState ≠ eIncomingCall ∧ e' = e) ∨
    (e.currentState = eIncomingCall ∧ lib.answerBuilt = true ∧ ∃ sdp ports,
      createLocalSdp cfg lib.net lib.jpegSupported (lib.remoteSdp e.tid) e.ports =
        .ok (sdp, ports) ∧
      e' = ((({ e with sdp := sdp, ports := ports }).act .lock).act
        (.answer e.tid 200 (some sdp) lib.answerResult)).act .unlock) := by
  rw [answerCall] at h
  by_cases hstate : e.currentState = eIncomingCall
  · rw [if_pos hstate] at h
    obtain ⟨⟨sdp, ports⟩, hsdp, h⟩ := bind_eq_ok.1 h
    obtain ⟨_, hbuilt, h⟩ := bind_eq_ok.1 h
    have hlib : lib.answerBuilt = true := by
      cases hb : lib.answerBuilt with
      | true => rfl
      | false => simp [hb] at hbuilt
    exact Or.inr ⟨hstate, hlib, sdp, ports, hsdp, pure_eq_ok.1 h⟩
  · rw [if_neg hstate] at h
    exact Or.inl ⟨hstate, pure_eq_ok.1 h⟩

theorem hangupCall_of_not_busy {e : Engine} (h : ¬e.currentState.Busy) : hangupCall e = e := by
  have hanswered : e.currentState ≠ eAnswered := fun ha => h (Or.inr (Or.inl ha))
  have hbusy : ¬(e.currentState = eInCall ∨ e.currentState = eAnswered ∨
      e.currentState = eIncomingCall) := h
  rw [hangupCall, if_neg hanswered, if_neg hbusy]

/-- The call is terminated, and its media are stopped if it had been answered. -/
theorem hangupCall_of_busy {e : Engine} (h : e.currentState.Busy) :
    hangupCall e = changeState eRegistered
      { ((e.act .lock).act (.terminate e.cid e.did)).act .unlock with
        audio := if e.currentState = eAnswered then rtpAudioStop e.audio else e.audio
        video := if e.currentState = eAnswered then rtpVideoStop e.video else e.video
        cid := 0
        did := 0 } := by
  have hbusy : e.currentState = eInCall ∨ e.currentState = eAnswered ∨
      e.currentState = eIncomingCall := h
  rw [hangupCall]
  by_cases hanswered : e.currentState = eAnswered
  · rw [if_pos hanswered, if_pos (Or.inr (Or.inl hanswered)), if_pos hanswered, if_pos hanswered]
    rfl
  · rw [if_neg hanswered, if_pos hbusy, if_neg hanswered, if_neg hanswered]
    rfl

/-- The ways the engine is shut down: it un-registers, and hangs up before that if it is in a call,
or is about to leave its loop, or has none. -/
theorem disconnectSipServer_cases (e : Engine) :
    ((e.currentState = eInCall ∨ e.currentState = eAnswered) ∧ disconnectSipServer e =
      (((changeState eDisconnecting (hangupCall e)).act .lock).act
        (.register (hangupCall e).rid 0)).act .lock) ∨
    (e.currentState = eRegistered ∧ disconnectSipServer e =
      (((changeState eDisconnecting e).act .lock).act (.register e.rid 0)).act .lock) ∨
    (¬(e.currentState = eInCall ∨ e.currentState = eAnswered) ∧ e.currentState ≠ eRegistered ∧
      disconnectSipServer e = if e.callThid > 0 then { e with quit := true }
        else { e.act .closeLog with callbackDone := true }) := by
  rw [disconnectSipServer]
  by_cases hcall : e.currentState = eInCall ∨ e.currentState = eAnswered
  · have hbusy : e.currentState.Busy := hcall.elim Or.inl fun h => Or.inr (Or.inl h)
    have hstate : (hangupCall e).currentState = eRegistered := by
      rw [hangupCall_of_busy hbusy]
      rfl
    rw [if_pos hcall, if_pos hstate]
    exact Or.inl ⟨hcall, rfl⟩
  · rw [if_neg hcall]
    by_cases hstate : e.currentState = eRegistered
    · exact Or.inr (Or.inl ⟨hstate, if_pos hstate⟩)
    · exact Or.inr (Or.inr ⟨hcall, hstate, if_neg hstate⟩)

/-- A subscription is accepted, or refused with the library still locked. -/
theorem onInSubscriptionNew_cases (lib : Lib) (je : Event) (e : Engine) :
    (lib.insubBuild = 0 ∧ lib.insubSend = 0 ∧ onInSubscriptionNew lib je e =
      ((e.act .lock).act (.insubscriptionAnswer je.tid 202)).act .unlock) ∨
    (lib.insubBuild = 0 ∧ lib.insubSend ≠ 0 ∧ onInSubscriptionNew lib je e =
      { ((e.act .lock).act (.insubscriptionAnswer je.tid 202)).act
        (.insubscriptionAnswer je.tid 400) with thread := .returned 0 }) ∨
    (lib.insubBuild ≠ 0 ∧ onInSubscriptionNew lib je e =
      { (e.act .lock).act (.insubscriptionAnswer je.tid 400) with thread := .returned 0 }) := by
  rw [onInSubscriptionNew]
  by_cases hbuild : lib.insubBuild = 0
  · simp only [if_pos hbuild]
    by_cases hsend : lib.insubSend = 0
    · exact Or.inl ⟨hbuild, hsend, if_neg (not_not.2 hsend)⟩
    · exact Or.inr (Or.inl ⟨hbuild, hsend, if_pos hsend⟩)
  · simp only [if_neg hbuild]
    exact Or.inr (Or.inr ⟨hbuild, if_pos hbuild⟩)

/-- The ways a round starts. -/
theorem registerStep_cases (lib : Lib) (e : Engine) :
    (e.currentState ≠ eNotRegistered ∧ registerStep lib e = e) ∨
    (e.currentState = eNotRegistered ∧ lib.registerId < 0 ∧
      registerStep lib e = { (e.act .lock).act .unlock with thread := .returned (-1) }) ∨
    (e.currentState = eNotRegistered ∧ ¬lib.registerId < 0 ∧
      registerStep lib e = changeState eRegistering
        ((((e.act .lock).act (.register lib.registerId 120)).act .unlock).act
          (.notice (.startup 1)))) := by
  rw [registerStep]
  by_cases hstate : e.currentState = eNotRegistered
  · rw [if_pos hstate]
    by_cases hid : lib.registerId < 0
    · exact Or.inr (Or.inl ⟨hstate, hid, if_pos hid⟩)
    · exact Or.inr (Or.inr ⟨hstate, hid, if_neg hid⟩)
  · exact Or.inl ⟨hstate, if_neg hstate⟩

/-! ## What the switches run -/

/-- What the switch of the callback runs for an event. -/
inductive Command (cfg : Config) (lib : Lib) (e : Engine) : GuiEvent → Engine → Prop
  | newCall {address user : Text} {e' : Engine} (haddress : callAddress address = .ok user)
      (hcall : makeCall cfg lib user e = .ok e') : Command cfg lib e (.newCall address) e'
  | answer {e' : Engine} (hcall : answerCall cfg lib e = .ok e') : Command cfg lib e .answer e'
  | hangup {event : GuiEvent} (hevent : event = .hangup ∨ event = .reject) :
      Command cfg lib e event (hangupCall e)
  | changePresence {presence : Int} :
      Command cfg lib e (.changePresence presence) (updatePresence lib presence e)
  | shutdown : Command cfg lib e .shutdown (disconnectSipServer e)
  | unknown {eventID : Int} : Command cfg lib e (.unknown eventID) e

/-- The switch runs the command of the event, and only a shutdown leaves `done` unset. -/
theorem guiSwitch_command {cfg : Config} {lib : Lib} {event : GuiEvent} {e e' : Engine}
    {done : Bool} (h : guiSwitch cfg lib event e = .ok (e', done)) :
    Command cfg lib e event e' ∧ (done = false ↔ event = .shutdown) := by
  cases event with
  | newCall address =>
    obtain ⟨user, haddress, h⟩ := bind_eq_ok.1 h
    obtain ⟨e₁, hcall, h⟩ := bind_eq_ok.1 h
    obtain ⟨rfl, rfl⟩ := Prod.mk.inj (pure_eq_ok.1 h)
    exact ⟨.newCall haddress hcall, by simp⟩
  | answer =>
    obtain ⟨e₁, hcall, h⟩ := bind_eq_ok.1 h
    obtain ⟨rfl, rfl⟩ := Prod.mk.inj (pure_eq_ok.1 h)
    exact ⟨.answer hcall, by simp⟩
  | reject =>
    obtain ⟨rfl, rfl⟩ := Prod.mk.inj (pure_eq_ok.1 h)
    exact ⟨.hangup (Or.inr rfl), by simp⟩
  | hangup =>
    obtain ⟨rfl, rfl⟩ := Prod.mk.inj (pure_eq_ok.1 h)
    exact ⟨.hangup (Or.inl rfl), by simp⟩
  | changePresence presence =>
    obtain ⟨rfl, rfl⟩ := Prod.mk.inj (pure_eq_ok.1 h)
    exact ⟨.changePresence, by simp⟩
  | shutdown =>
    obtain ⟨rfl, rfl⟩ := Prod.mk.inj (pure_eq_ok.1 h)
    exact ⟨.shutdown, by simp⟩
  | unknown eventID =>
    obtain ⟨rfl, rfl⟩ := Prod.mk.inj (pure_eq_ok.1 h)
    exact ⟨.unknown, by simp⟩

theorem guiCallback_command {cfg : Config} {lib : Lib} {event : GuiEvent} {e e' : Engine}
    (h : guiCallback cfg lib event e = .ok e') :
    ∃ e₁ done, Command cfg lib e event e₁ ∧ e' = { e₁ with callbackDone := done } := by
  obtain ⟨⟨e₁, done⟩, hswitch, h⟩ := bind_eq_ok.1 h
  exact ⟨e₁, done, (guiSwitch_command hswitch).1, pure_eq_ok.1 h⟩

/-- What the switch over `currentState` does with an event. -/
inductive Handled (lib : Lib) (je : Event) (e : Engine) : Engine → Prop
  /-- There is no arm for it, or an empty one. -/
  | ignored (hno : je.type = .inSubscriptionNew →
      ¬(e.currentState = eRegistered ∨ e.currentState.Ringing)) : Handled lib je e e
  | registered (hstate : e.currentState = eRegistering) (htype : je.type = .registrationSuccess) :
      Handled lib je e
        (changeState eRegistered ({ e with rid := je.rid }.act (.notice (.startup 2))))
  | invited (hstate : e.currentState = eRegistered) (htype : je.type = .callInvite) :
      Handled lib je e (changeState eIncomingCall ({ ((e.act .lock).act
        (.answer je.tid 180 none lib.answerResult)).act .unlock with
          cid := je.cid, did := je.did, tid := je.tid }.act
            (.incomingCall je.cid je.displayname (-1))))
  | subscribed (hstate : e.currentState = eRegistered ∨ e.currentState.Ringing)
      (htype : je.type = .inSubscriptionNew) : Handled lib je e (onInSubscriptionNew lib je e)
  | ringing (hstate : e.currentState.Ringing) (htype : je.type = .callRinging) :
      Handled lib je e { e with cid := je.cid, did := je.did, audio := playRingback e.audio }
  | answered {e' : Engine} (hstate : e.currentState.Ringing) (htype : je.type = .callAnswered)
      (hmedia : startMedia lib je.tid false (((e.act .lock).act (.ack je.did)).act .unlock) =
        .ok e') : Handled lib je e e'
  | ack {e' : Engine} (hstate : e.currentState.Ringing) (htype : je.type = .callAck)
      (hmedia : startMedia lib je.tid true { e with cid := je.cid, did := je.did } = .ok e') :
      Handled lib je e e'
  | ended (hstate : e.currentState.Ringing) (htype : je.type = .callClosed) :
      Handled lib je e (changeState eRegistered e)
  | failed (hstate : e.currentState.Ringing) (htype : je.type.endsRinging = true) :
      Handled lib je e
        (changeState eRegistered (e.act (.notice (.errorMessage (lit "Call failed")))))
  | closed (hstate : e.currentState = eAnswered) (htype : je.type = .callClosed) :
      Handled lib je e (changeState eRegistered { e with
        audio := rtpAudioStop e.audio
        video := rtpVideoStop e.video
        cid := 0
        tid := 0
        did := 0 })
  | disconnected (hstate : e.currentState = eDisconnecting)
      (htype : je.type = .registrationSuccess ∨ je.type = .registrationTerminated) :
      Handled lib je e { changeState eNotRegistered e with quit := true }

theorem onInCall_handled {lib : Lib} {je : Event} {e e' : Engine}
    (hstate : e.currentState.Ringing) (h : onInCall lib je e = .ok e') : Handled lib je e e' := by
  rw [onInCall.eq_def] at h
  split at h
  · next htype => exact pure_eq_ok.1 h ▸ .ringing hstate htype
  · next htype => exact .answered hstate htype h
  · next htype => exact pure_eq_ok.1 h ▸ .subscribed (Or.inr hstate) htype
  · next htype => exact .ack hstate htype h
  · next htype => exact pure_eq_ok.1 h ▸ .ended hstate htype
  · next htype => exact pure_eq_ok.1 h ▸ .failed hstate (by rw [htype]; rfl)
  · next htype => exact pure_eq_ok.1 h ▸ .failed hstate (by rw [htype]; rfl)
  · next htype => exact pure_eq_ok.1 h ▸ .failed hstate (by rw [htype]; rfl)
  · next htype => exact pure_eq_ok.1 h ▸ .failed hstate (by rw [htype]; rfl)
  · next hno _ _ _ _ _ _ => exact pure_eq_ok.1 h ▸ .ignored fun htype => absurd htype hno

theorem onRegistered_handled (lib : Lib) (je : Event) {e : Engine}
    (hstate : e.currentState = eRegistered) : Handled lib je e (onRegistered lib je e) := by
  rw [onRegistered.eq_def]
  split
  · next htype => exact .invited hstate htype
  · next htype => exact .subscribed (Or.inl hstate) htype
  · next _ hno => exact .ignored fun htype => absurd htype hno

/-- **The switch** in terms of its arms. -/
theorem callSwitch_handled {lib : Lib} {je : Event} {e e' : Engine}
    (h : callSwitch lib je e = .ok e') : Handled lib je e e' := by
  have hignored {state : CallState} (hstate : e.currentState = state)
      (hno : ¬(state = eRegistered ∨ state.Ringing)) : Handled lib je e e :=
    .ignored fun _ => hstate ▸ hno
  rw [callSwitch] at h
  split at h
  · next hstate => exact pure_eq_ok.1 h ▸ hignored hstate (by decide)
  · next hstate =>
    rw [pure_eq_ok.1 h, onRegistering.eq_def]
    split
    · next htype => exact .registered hstate htype
    · exact hignored hstate (by decide)
  · next hstate => exact pure_eq_ok.1 h ▸ onRegistered_handled lib je hstate
  · next hstate => exact onInCall_handled (Or.inl hstate) h
  · next hstate => exact onInCall_handled (Or.inr hstate) h
  · next hstate =>
    rw [pure_eq_ok.1 h, onAnswered.eq_def]
    split
    · exact hignored hstate (by decide)
    · next htype => exact .closed hstate htype
    · exact hignored hstate (by decide)
  · next hstate =>
    rw [pure_eq_ok.1 h, onDisconnecting.eq_def]
    split
    · next htype => exact .disconnected hstate (Or.inl htype)
    · next htype => exact .disconnected hstate (Or.inr htype)
    · exact hignored hstate (by decide)

/-! ## Every step is one of them -/

theorem core_terminate (e : Engine) :
    (changeState eRegistered { ((e.act .lock).act (.terminate e.cid e.did)).act .unlock with
      cid := 0, did := 0 }).core =
    Core.enter { e.core.request (.terminate e.cid e.did) with cid := 0, did := 0 } eRegistered := by
  rw [core_changeState]
  change Core.enter { (((e.act .lock).act (.terminate e.cid e.did)).act .unlock).core with
    cid := 0, did := 0 } eRegistered = _
  rw [core_act_other rfl, core_act_request rfl, core_act_other rfl]

theorem core_hangupCall {e : Engine} (h : e.currentState.Busy) :
    (hangupCall e).core = e.core.hangup := by
  rw [hangupCall_of_busy h, Core.hangup]
  by_cases hanswered : e.currentState = eAnswered
  · have hcore : e.core.currentState = eAnswered := hanswered
    rw [if_pos hanswered, if_pos hanswered, if_pos hcore]
    exact core_terminate { e with audio := rtpAudioStop e.audio, video := rtpVideoStop e.video }
  · have hcore : e.core.currentState ≠ eAnswered := hanswered
    rw [if_neg hanswered, if_neg hanswered, if_neg hcore]
    exact core_terminate e

@[simp] theorem currentState_hangup (s : Core) : s.hangup.currentState = eRegistered := rfl

@[simp] theorem rid_hangup (s : Core) : s.hangup.rid = s.rid := by
  rw [Core.hangup]
  split <;> rfl

theorem hangup_arm (cfg : Config) (lib : Lib) {event : GuiEvent}
    (hevent : event = .hangup ∨ event = .reject) (e : Engine) :
    Arm cfg (.gui lib event) e.core (hangupCall e).core := by
  by_cases h : e.currentState.Busy
  · rw [core_hangupCall h]
    exact .hangup hevent h
  · rw [hangupCall_of_not_busy h]
    exact .idle

/-- The end of `disconnectSipServer` in `eREGISTERED`. -/
theorem core_unregister (e : Engine) :
    ((((changeState eDisconnecting e).act .lock).act (.register e.rid 0)).act .lock).core =
      (e.core.enter eDisconnecting).request (.register e.core.rid 0) := by
  rw [core_act_other rfl, core_act_request rfl, core_act_other rfl, core_changeState]
  rfl

theorem disconnectSipServer_arm (cfg : Config) (lib : Lib) (e : Engine) :
    Arm cfg (.gui lib .shutdown) e.core (disconnectSipServer e).core := by
  rcases disconnectSipServer_cases e with ⟨hcall, heq⟩ | ⟨hstate, heq⟩ | ⟨hcall, hstate, heq⟩
  · have hcore := core_hangupCall (hcall.elim Or.inl fun h => Or.inr (Or.inl h))
    rw [heq, core_unregister, hcore, rid_hangup]
    exact .disconnectCall hcall
  · rw [heq, core_unregister]
    exact .disconnect hstate
  · rw [heq]
    split
    · exact .quit hstate (fun h => hcall (Or.inl h)) fun h => hcall (Or.inr h)
    · exact .idle

theorem makeCall_arm {cfg : Config} {lib : Lib} {address user : Text} {e e' : Engine}
    (haddress : callAddress address = .ok user) (h : makeCall cfg lib user e = .ok e') :
    Arm cfg (.gui lib (.newCall address)) e.core e'.core := by
  obtain ⟨-, rfl⟩ | ⟨-, -, rfl⟩ | ⟨hstate, hbuilt, sdp, ports, hsdp, rfl⟩ := makeCall_cases h
  · exact .idle
  · rw [core_act_other rfl]
    exact .idle
  · rw [core_changeState, core_act_other rfl, core_act_request rfl, core_act_other rfl]
    exact .makeCall hstate hbuilt haddress hsdp

theorem answerCall_arm {cfg : Config} {lib : Lib} {e e' : Engine}
    (h : answerCall cfg lib e = .ok e') : Arm cfg (.gui lib .answer) e.core e'.core := by
  obtain ⟨-, rfl⟩ | ⟨hstate, hbuilt, sdp, ports, hsdp, rfl⟩ := answerCall_cases h
  · exact .idle
  · rw [core_act_other rfl, core_act_request rfl, core_act_other rfl]
    exact .answerCall hstate hbuilt hsdp

theorem guiCallback_arm {cfg : Config} {lib : Lib} {event : GuiEvent} {e e' : Engine}
    (h : guiCallback cfg lib event e = .ok e') : Arm cfg (.gui lib event) e.core e'.core := by
  obtain ⟨e₁, done, hcommand, rfl⟩ := guiCallback_command h
  change Arm cfg (.gui lib event) e.core e₁.core
  cases hcommand with
  | newCall haddress hcall => exact makeCall_arm haddress hcall
  | answer hcall => exact answerCall_arm hcall
  | hangup hevent => exact hangup_arm cfg lib hevent e
  | changePresence =>
    rw [updatePresence]
    split
    · exact .idle
    · rw [core_act_other rfl, core_act_other rfl, core_act_other rfl]
      exact .idle
  | shutdown => exact disconnectSipServer_arm cfg lib e
  | unknown => exact .idle

/-- The subscription handler leaves the core alone. -/
@[simp] theorem core_onInSubscriptionNew (lib : Lib) (je : Event) (e : Engine) :
    (onInSubscriptionNew lib je e).core = e.core := by
  have hreturn (e : Engine) (a : Action) : ({ e.act a with thread := .returned 0 } : Engine).core =
      (e.act a).core := rfl
  rcases onInSubscriptionNew_cases lib je e with ⟨-, -, heq⟩ | ⟨-, -, heq⟩ | ⟨-, heq⟩
  · rw [heq, core_act_other rfl, core_act_other rfl, core_act_other rfl]
  · rw [heq, hreturn, core_act_other rfl, core_act_other rfl, core_act_other rfl]
  · rw [heq, hreturn, core_act_other rfl, core_act_other rfl]

@[simp] theorem thread_changeState (state : CallState) (e : Engine) :
    (changeState state e).thread = e.thread := by
  cases state <;> rfl

theorem core_registerStep (lib : Lib) {e : Engine} (h : (registerStep lib e).thread = .looping) :
    (e.currentState = eNotRegistered ∧
      (registerStep lib e).core = (e.core.request (.register lib.registerId 120)).enter
        eRegistering) ∨
    (e.currentState ≠ eNotRegistered ∧ registerStep lib e = e) := by
  rcases registerStep_cases lib e with hskips | ⟨-, -, hfails⟩ | ⟨hstate, -, hsends⟩
  · exact Or.inr hskips
  · rw [hfails] at h
    exact absurd h (by simp)
  · refine Or.inl ⟨hstate, ?_⟩
    rw [hsends, core_changeState, core_act_other rfl, core_act_other rfl, core_act_request rfl,
      core_act_other rfl]

theorem core_registerStep_of_returned (lib : Lib) {e : Engine} (hloop : e.thread = .looping)
    (h : (registerStep lib e).thread ≠ .looping) : (registerStep lib e).core = e.core := by
  rcases registerStep_cases lib e with ⟨-, hskips⟩ | ⟨-, -, hfails⟩ | ⟨-, -, hsends⟩
  · rw [hskips]
  · rw [hfails]
    change ((e.act .lock).act .unlock).core = e.core
    rw [core_act_other rfl, core_act_other rfl]
  · rw [hsends, thread_changeState] at h
    exact absurd hloop h

@[simp] theorem core_loopTest (e : Engine) : (loopTest e).core = e.core := by
  rw [loopTest]
  split
  · change (e.act .closeLog).core = e.core
    exact core_act_other rfl
  · rfl

theorem startMedia_eq_ok {lib : Lib} {tid : Int} {incoming : Bool} {e e' : Engine} :
    startMedia lib tid incoming e = .ok e' ↔
      ∃ audio, rtpAudioSetup lib.remoteSdp tid incoming e.ports e.audio = .ok audio ∧
        ∃ video, rtpVideoSetup lib.remoteSdp tid incoming e.ports e.video = .ok video ∧
          e' = changeState eAnswered { e with audio := audio, video := video } := by
  rw [startMedia]
  simp only [bind_eq_ok, pure_eq_ok]

/-- The switch of a round that has not just sent the registration. -/
theorem callSwitch_arm {cfg : Config} {lib : Lib} {je : Event} {e e' : Engine}
    (h : callSwitch lib je e = .ok e') : Arm cfg (.poll lib (some je)) e.core e'.core := by
  cases callSwitch_handled h with
  | ignored => exact .idle
  | registered hstate htype =>
    rw [core_changeState, core_act_other rfl]
    exact .registered hstate htype
  | invited hstate htype =>
    rw [core_changeState, core_act_request rfl]
    change Arm cfg _ _ (Core.enter (Core.request { (((e.act .lock).act (.answer je.tid 180 none
      lib.answerResult)).act .unlock).core with cid := je.cid, did := je.did, tid := je.tid } _) _)
    rw [core_act_other rfl, core_act_request rfl, core_act_other rfl]
    exact .incoming hstate htype
  | subscribed =>
    rw [core_onInSubscriptionNew]
    exact .idle
  | ringing hstate htype => exact .ringing hstate htype
  | answered hstate htype hmedia =>
    obtain ⟨audio, haudio, video, hvideo, rfl⟩ := startMedia_eq_ok.1 hmedia
    rw [core_changeState]
    change Arm cfg _ _ (Core.enter { (((e.act .lock).act (.ack je.did)).act .unlock).core with
      audio := audio, video := video } _)
    rw [core_act_other rfl, core_act_request rfl, core_act_other rfl]
    exact .answered hstate htype haudio hvideo
  | ack hstate htype hmedia =>
    obtain ⟨audio, haudio, video, hvideo, rfl⟩ := startMedia_eq_ok.1 hmedia
    rw [core_changeState]
    exact .ack hstate htype haudio hvideo
  | ended hstate htype =>
    rw [core_changeState]
    exact .ended hstate (by rw [htype]; rfl)
  | failed hstate htype =>
    rw [core_changeState, core_act_other rfl]
    exact .ended hstate htype
  | closed hstate htype =>
    rw [core_changeState]
    exact .closed hstate htype
  | disconnected hstate htype => exact .disconnected hstate htype

/-- The switch of a round that has. -/
theorem callSwitch_arm_registering {cfg : Config} {lib : Lib} {je : Event} {s : Core}
    (hstate : s.currentState = eNotRegistered) {e e' : Engine}
    (hcore : e.core = (s.request (.register lib.registerId 120)).enter eRegistering)
    (h : callSwitch lib je e = .ok e') : Arm cfg (.poll lib (some je)) s e'.core := by
  have hreg : e.currentState = eRegistering := congrArg Core.currentState hcore
  rw [callSwitch, hreg] at h
  obtain rfl := pure_eq_ok.1 h
  rw [onRegistering.eq_def]
  split
  · next htype =>
    rw [core_changeState, core_act_other rfl]
    change Arm cfg _ s (Core.enter { e.core with rid := je.rid } eRegistered)
    rw [hcore]
    exact .registeringRegistered hstate htype
  · rw [hcore]
    exact .registering hstate

theorem callThread_arm {cfg : Config} {lib : Lib} {je : Option Event} {e e' : Engine}
    (hloop : e.thread = .looping) (h : callThread lib je e = .ok e') :
    Arm cfg (.poll lib je) e.core e'.core := by
  obtain ⟨e₁, hbody, h⟩ := bind_eq_ok.1 h
  obtain rfl := pure_eq_ok.1 h
  rw [core_loopTest]
  rw [callThreadBody] at hbody
  by_cases hthread : (registerStep lib e).thread = .looping
  · rw [if_neg (not_not.2 hthread)] at hbody
    have hcore : (((registerStep lib e).act .lock).act .unlock).core = (registerStep lib e).core :=
      (core_act_other rfl).trans (core_act_other rfl)
    rcases core_registerStep lib hthread with ⟨hstate, hreg⟩ | ⟨hstate, hreg⟩
    · cases je with
      | none =>
        obtain rfl := pure_eq_ok.1 hbody
        rw [hcore, hreg]
        exact .registering hstate
      | some je => exact callSwitch_arm_registering hstate (hcore.trans hreg) hbody
    · cases je with
      | none =>
        obtain rfl := pure_eq_ok.1 hbody
        rw [hcore, hreg]
        exact .idle
      | some je =>
        have harm : Arm cfg (.poll lib (some je))
            (((registerStep lib e).act .lock).act .unlock).core e₁.core := callSwitch_arm hbody
        rwa [hcore, hreg] at harm
  · rw [if_pos hthread] at hbody
    obtain rfl := pure_eq_ok.1 hbody
    rw [core_registerStep_of_returned lib hloop hthread]
    exact .idle

/-- **Every step is an arm.** -/
theorem step_arm {cfg : Config} {i : Input} {e e' : Engine} (h : step cfg i e = .ok e') :
    Arm cfg i e.core e'.core := by
  rw [step.eq_def] at h
  split at h
  · next hloop =>
    cases i with
    | gui lib event => exact guiCallback_arm h
    | poll lib je => exact callThread_arm hloop h
  · obtain rfl := pure_eq_ok.1 h
    exact .idle

/-! ## Runs -/

/-- The states the engine gets to, from any outcome of its initialisation. -/
def Reachable (cfg : Config) (e : Engine) : Prop :=
  ∃ callThid cbid ringbackfile cameraSetup cameraStart is,
    Machine.run (step cfg) is (boot cfg callThid cbid ringbackfile cameraSetup cameraStart) = .ok e

/-- What every arm keeps, every run keeps. -/
theorem run_core {cfg : Config} {P : Core → Prop}
    (harm : ∀ i s s', Arm cfg i s s' → P s → P s') {is : List Input} {e e' : Engine}
    (he : P e.core) (h : Machine.run (step cfg) is e = .ok e') : P e'.core :=
  Machine.run_invariant (fun e => P e.core)
    (fun i _ _ he hstep => harm i _ _ (step_arm hstep) he) he h

theorem Reachable.core {cfg : Config} {P : Core → Prop}
    (hboot : ∀ callThid cbid ringbackfile cameraSetup cameraStart,
      P (boot cfg callThid cbid ringbackfile cameraSetup cameraStart).core)
    (harm : ∀ i s s', Arm cfg i s s' → P s → P s') {e : Engine} (h : Reachable cfg e) :
    P e.core := by
  obtain ⟨callThid, cbid, ringbackfile, cameraSetup, cameraStart, is, hrun⟩ := h
  exact run_core harm (hboot callThid cbid ringbackfile cameraSetup cameraStart) hrun

/-! ## Steps on a given input -/

/-- A round of the loop with an event, once the registration has been sent. -/
theorem step_poll {cfg : Config} {lib : Lib} {je : Event} {e : Engine}
    (hloop : e.thread = .looping) (hstate : e.currentState ≠ eNotRegistered) :
    step cfg (.poll lib (some je)) e = (do
      let e ← callSwitch lib je ((e.act .lock).act .unlock)
      pure (loopTest e)) := by
  have hreg : registerStep lib e = e := by rw [registerStep, if_neg hstate]
  rw [step.eq_def, if_pos hloop]
  simp only [callThread, callThreadBody, hreg]
  rw [if_neg (not_not.2 hloop)]

theorem step_poll_ok {cfg : Config} {lib : Lib} {je : Event} {e e' : Engine}
    (hloop : e.thread = .looping) (hstate : e.currentState ≠ eNotRegistered) :
    step cfg (.poll lib (some je)) e = .ok e' ↔
      ∃ e₁, callSwitch lib je ((e.act .lock).act .unlock) = .ok e₁ ∧ e' = loopTest e₁ := by
  rw [step_poll hloop hstate]
  simp only [bind_eq_ok, pure_eq_ok]

/-- The automatic actions of a round leave the core alone. -/
theorem core_automatic (e : Engine) : ((e.act .lock).act .unlock).core = e.core :=
  (core_act_other rfl).trans (core_act_other rfl)

theorem CallState.Busy.ne_notRegistered {state : CallState} (h : state.Busy) :
    state ≠ eNotRegistered := by
  rcases h with rfl | rfl | rfl
  · decide
  · decide
  · decide

theorem CallState.Ringing.busy {state : CallState} (h : state.Ringing) : state.Busy :=
  h.elim Or.inl fun h => Or.inr (Or.inr h)

theorem step_gui {cfg : Config} {lib : Lib} {event : GuiEvent} {e : Engine}
    (hloop : e.thread = .looping) :
    step cfg (.gui lib event) e = guiCallback cfg lib event e := by
  rw [step.eq_def, if_pos hloop]

theorem callAddress_of_step {cfg : Config} {lib : Lib} {address : Text} {e e' : Engine}
    (hloop : e.thread = .looping)
    (h : step cfg (.gui lib (.newCall address)) e = .ok e') :
    ∃ user, callAddress address = .ok user := by
  rw [step_gui hloop] at h
  obtain ⟨_, hswitch, -⟩ := bind_eq_ok.1 h
  obtain ⟨user, haddress, -⟩ := bind_eq_ok.1 hswitch
  exact ⟨user, haddress⟩

/-- `makeCall` in `eREGISTERED` always gets to `eIN_CALL`. -/
theorem makeCall_step (cfg : Config) {lib : Lib} {address user : Text} {e : Engine}
    (hloop : e.thread = .looping) (haddress : callAddress address = .ok user)
    (hstate : e.currentState = eRegistered) (hbuilt : lib.inviteBuilt = true) :
    ∃ e', step cfg (.gui lib (.newCall address)) e = .ok e' ∧
      e'.core = ({ e.core with sdp := offerText cfg lib.net e.ports, ports := e.ports.next }.request
        (.invite user (offerText cfg lib.net e.ports) lib.inviteResult)).enter eInCall := by
  rw [step_gui hloop]
  simp only [guiCallback, guiSwitch, haddress, ok_bind, makeCall, hstate, if_true, hbuilt,
    createLocalSdp_offer]
  exact ⟨_, rfl, rfl⟩

theorem callSwitch_ringing {lib : Lib} {je : Event} {e : Engine}
    (hstate : e.currentState.Ringing) : callSwitch lib je e = onInCall lib je e := by
  rw [callSwitch]
  rcases hstate with h | h
  · rw [h]
  · rw [h]

theorem callSwitch_endsRinging (lib : Lib) {je : Event} {e : Engine}
    (hstate : e.currentState.Ringing) (htype : je.type.endsRinging = true) :
    ∃ e', callSwitch lib je e = .ok e' ∧ e'.core = e.core.enter eRegistered := by
  rw [callSwitch_ringing hstate, onInCall.eq_def]
  cases hje : je.type <;> rw [hje] at htype <;> simp only [EventType.endsRinging,
    Bool.false_eq_true] at htype
  case callClosed => exact ⟨_, rfl, core_changeState _ _⟩
  all_goals
    refine ⟨_, rfl, ?_⟩
    rw [core_changeState, core_act_other rfl]

/-- Register, and dial. -/
def dialInputs : List Input :=
  [.poll {} none, .poll {} (some { type := .registrationSuccess, rid := 1 }),
    .gui {} (.newCall (lit "sip:bob@example.org"))]

theorem exists_inCall : ∃ e, Reachable {} e ∧ e.thread = .looping ∧ e.currentState = eInCall := by
  obtain ⟨e, hrun, hp⟩ := Machine.exists_of_okAnd
    (show Machine.okAnd (Machine.run (step {}) dialInputs (boot {} 1 1 (-1) 0 0))
      (fun e => decide (e.thread = .looping ∧ e.currentState = eInCall)) = true by decide +kernel)
  exact ⟨e, ⟨1, 1, -1, 0, 0, dialInputs, hrun⟩, of_decide_eq_true hp⟩

/-- Register, and get a call. -/
def incomingInputs : List Input :=
  [.poll {} none, .poll {} (some { type := .registrationSuccess, rid := 1 }),
    .poll {} (some { type := .callInvite, cid := 1, did := 11, tid := 21 })]

theorem exists_incoming : ∃ e, Reachable {} e ∧ e.thread = .looping ∧
    e.currentState = eIncomingCall ∧ e.cid = 1 := by
  obtain ⟨e, hrun, hp⟩ := Machine.exists_of_okAnd
    (show Machine.okAnd (Machine.run (step {}) incomingInputs (boot {} 1 1 (-1) 0 0))
      (fun e => decide (e.thread = .looping ∧ e.currentState = eIncomingCall ∧ e.cid = 1)) = true
      by decide +kernel)
  exact ⟨e, ⟨1, 1, -1, 0, 0, incomingInputs, hrun⟩, of_decide_eq_true hp⟩

end Furikup
