import Furikup.Media

/-!
# The call engine

`CallThread`, the one thread that talks to the SIP library, and `GuiCallback`, which the user
interface has run on that thread.  Together they are a machine on the globals of the engine.

* `Engine` — the globals, and with them the history `log` of what the engine asked of the SIP
  library and told the user interface.
* `Lib` — the answers the libraries give during one step.  They are inputs, so a statement about
  the engine holds whatever the libraries do.
* `guiCallback` and `callThreadBody` — the callback, and one round of the thread's loop with its
  switch over state and event.
* `step` — **the machine**: a user interface event, or a round of the loop.  The callback is only
  run where the thread waits for it, which is between two rounds.

Progress texts for the status line are left out; the error texts are not.
-/

set_option autoImplicit false

namespace Furikup

open CText

/-! ## States, events and actions -/

inductive CallState
  | eNotRegistered
  | eRegistering
  | eRegistered
  | eInCall
  | eIncomingCall
  | eAnswered
  | eDisconnecting
  deriving DecidableEq, Repr

open CallState

/-- The types of `eXosip_event_t`.  The engine names no others than these. -/
inductive EventType
  | registrationNew
  | registrationSuccess
  | registrationFailure
  | registrationRefreshed
  | registrationTerminated
  | callInvite
  | callReinvite
  | callNoanswer
  | callProceeding
  | callRinging
  | callAnswered
  | callRedirected
  | callRequestfailure
  | callServerfailure
  | callGlobalfailure
  | callAck
  | callCancelled
  | callTimeout
  | callClosed
  | callReleased
  | subscriptionNotify
  | inSubscriptionNew
  | other (n : Nat)
  deriving DecidableEq, Repr

/-- What the engine reads of an `eXosip_event_t`.  `displayname` is the one of the `From` header of
the request, null if it has none. -/
structure Event where
  type : EventType
  tid : Int := 0
  did : Int := 0
  rid : Int := 0
  cid : Int := 0
  displayname : Option Text := none
  /-- The status code of the response that came with the event. -/
  response : Option Int := none
  deriving DecidableEq, Repr

/-- The events of the user interface, with their arguments. -/
inductive GuiEvent
  | hangup
  | newCall (address : Text)
  | answer
  | reject
  | changePresence (presence : Int)
  | shutdown
  /-- An event id the engine does not know. -/
  | unknown (eventID : Int)
  deriving DecidableEq, Repr

/-- What the engine passes to `gEventFunction`, but for the announcement of a call. -/
inductive Notice
  | startup (state : Int)
  | sipState (state : Int)
  | errorMessage (text : Text)
  deriving DecidableEq, Repr

/-- One entry of the history. -/
inductive Action
  | lock
  | unlock
  | notice (n : Notice)
  /-- `SUI_IN_EVENT_INCOMING_CALL` with its two arguments, and the id of the call it is about. -/
  | incomingCall (cid : Int) (displayname : Option Text) (index : Int)
  /-- `eXosip_register_send_register`, with the expiry time. -/
  | register (rid expires : Int)
  /-- `eXosip_call_send_initial_invite` with a session description, and the call id it returned. -/
  | invite (user sdp : Text) (result : Int)
  /-- `eXosip_call_send_answer`, and what it returned. -/
  | answer (tid status : Int) (sdp : Option Text) (result : Int)
  | ack (did : Int)
  | terminate (cid did : Int)
  | insubscriptionAnswer (tid status : Int)
  | publish (presence : Int)
  | closeLog
  deriving DecidableEq, Repr

/-- Where the thread is: in its loop, returned from the middle of it, or through. -/
inductive Thread
  | looping
  | returned (code : Int)
  | exited
  deriving DecidableEq, Repr

/-- The globals of the engine. -/
structure Engine where
  currentState : CallState := eNotRegistered
  callThid : Int := 0
  cbid : Int := 0
  quit : Bool := false
  cid : Int := 0
  did : Int := 0
  tid : Int := 0
  rid : Int := 0
  callbackDone : Bool := false
  sdp : Text := []
  ports : Ports := {}
  audio : Audio := {}
  video : Video := {}
  thread : Thread := .looping
  /-- What was done, latest first. -/
  log : List Action := []
  deriving DecidableEq, Repr

/-- What the library calls made during one step return. -/
structure Lib where
  /-- `eXosip_register_build_initial_register` -/
  registerId : Int := 1
  /-- `eXosip_call_build_initial_invite` leaves a message. -/
  inviteBuilt : Bool := true
  /-- `eXosip_call_send_initial_invite` -/
  inviteResult : Int := 1
  /-- `eXosip_call_build_answer` leaves a message. -/
  answerBuilt : Bool := true
  /-- `eXosip_call_send_answer` -/
  answerResult : Int := 0
  /-- `eXosip_get_remote_sdp_from_tid` -/
  remoteSdp : Int → Option SdpMessage := fun _ => none
  /-- `eXosip_insubscription_build_answer` -/
  insubBuild : Int := 0
  /-- `eXosip_insubscription_send_answer` -/
  insubSend : Int := 0
  /-- `eXosip_build_publish` -/
  publishBuild : Int := 0
  net : Net := {}
  /-- The value `jpegSupported` starts with in `createLocalSdp`. -/
  jpegSupported : Bool := false

/-- Do one more thing. -/
def Engine.act (e : Engine) (a : Action) : Engine :=
  { e with log := a :: e.log }

/-! ## State changes -/

def changeState (state : CallState) (e : Engine) : Engine :=
  match state with
  | eNotRegistered => { e.act (.notice (.sipState 0)) with currentState := state }
  | eRegistering => { e.act (.notice (.sipState 1)) with currentState := state }
  | eRegistered =>
    { e.act (.notice (.sipState 2)) with
      currentState := state, audio := stopRingback e.audio }
  | eInCall => { e.act (.notice (.sipState 3)) with currentState := state }
  | eIncomingCall => { e.act (.notice (.sipState 4)) with currentState := state }
  | eAnswered =>
    { e.act (.notice (.sipState 5)) with
      currentState := state, audio := stopRingback e.audio }
  | eDisconnecting => { e with currentState := state }

/-! ## Commands of the user -/

def makeCall (cfg : Config) (lib : Lib) (user : Text) (e : Engine) : C Engine :=
  if e.currentState = eRegistered then
    if !lib.inviteBuilt then
      pure (e.act (.notice (.errorMessage (lit "Failed invite build"))))
    else do
      let (sdp, ports) ← createLocalSdp cfg lib.net lib.jpegSupported none e.ports
      let e := { e with sdp := sdp, ports := ports }
      let e := ((e.act .lock).act (.invite user sdp lib.inviteResult)).act .unlock
      pure (changeState eInCall e)
  else
    pure e

def answerCall (cfg : Config) (lib : Lib) (e : Engine) : C Engine :=
  if e.currentState = eIncomingCall then do
    let e := e.act .lock
    let remSdp := lib.remoteSdp e.tid
    let (sdp, ports) ← createLocalSdp cfg lib.net lib.jpegSupported remSdp e.ports
    -- The body is set on the answer, which must have been built.
    let _ ← deref (if lib.answerBuilt then some () else none)
    let e := { e with sdp := sdp, ports := ports }
    pure ((e.act (.answer e.tid 200 (some sdp) lib.answerResult)).act .unlock)
  else
    pure e

def hangupCall (e : Engine) : Engine :=
  let e :=
    if e.currentState = eAnswered then
      { e with audio := rtpAudioStop e.audio, video := rtpVideoStop e.video }
    else e
  if e.currentState = eInCall ∨ e.currentState = eAnswered ∨ e.currentState = eIncomingCall then
    let e := ((e.act .lock).act (.terminate e.cid e.did)).act .unlock
    changeState eRegistered { e with cid := 0, did := 0 }
  else e

def disconnectSipServer (e : Engine) : Engine :=
  let e := if e.currentState = eInCall ∨ e.currentState = eAnswered then hangupCall e else e
  if e.currentState = eRegistered then
    -- The second lock is the source's: it does not unlock here.
    (((changeState eDisconnecting e).act .lock).act (.register e.rid 0)).act .lock
  else if e.callThid > 0 then
    { e with quit := true }
  else
    { e.act .closeLog with callbackDone := true }

/-- `update_presence`, which knows the presence states 0 to 4. -/
def updatePresence (lib : Lib) (presence : Int) (e : Engine) : Engine :=
  if presence < 0 ∨ 4 < presence ∨ lib.publishBuild < 0 then e
  else ((e.act .lock).act (.publish presence)).act .unlock

/-- The address with the default scheme in front if it has none, in an array of 128. -/
def callAddress (address : Text) : C Text :=
  if (lit "sip:").isPrefixOf address || (lit "tel:").isPrefixOf address then
    pure address
  else do
    let newAddress ← sprintf 128 (lit "sip:" ++ address)
    pure newAddress.text

/-- The switch of `GuiCallback`, with the value of its `done`. -/
def guiSwitch (cfg : Config) (lib : Lib) (event : GuiEvent) (e : Engine) : C (Engine × Bool) :=
  match event with
  | .newCall address => do
    let address ← callAddress address
    let e ← makeCall cfg lib address e
    pure (e, true)
  | .answer => do
    let e ← answerCall cfg lib e
    pure (e, true)
  | .reject => pure (hangupCall e, true)
  | .hangup => pure (hangupCall e, true)
  | .changePresence presence => pure (updatePresence lib presence e, true)
  | .shutdown => pure (disconnectSipServer e, false)
  | .unknown _ => pure (e, true)

def guiCallback (cfg : Config) (lib : Lib) (event : GuiEvent) (e : Engine) : C Engine := do
  let (e, done) ← guiSwitch cfg lib event e
  pure { e with callbackDone := done }

/-! ## Events of the SIP library -/

/-- An incoming subscription is accepted.  If that fails it is refused, and the thread returns with
the library still locked. -/
def onInSubscriptionNew (lib : Lib) (je : Event) (e : Engine) : Engine :=
  let e := e.act .lock
  let (e, i) :=
    if lib.insubBuild = 0 then (e.act (.insubscriptionAnswer je.tid 202), lib.insubSend)
    else (e, lib.insubBuild)
  if i ≠ 0 then
    { e.act (.insubscriptionAnswer je.tid 400) with thread := .returned 0 }
  else
    e.act .unlock

def onRegistering (je : Event) (e : Engine) : Engine :=
  match je.type with
  | .registrationSuccess =>
    changeState eRegistered ({ e with rid := je.rid }.act (.notice (.startup 2)))
  | _ => e

def onRegistered (lib : Lib) (je : Event) (e : Engine) : Engine :=
  match je.type with
  | .callInvite =>
    let e := ((e.act .lock).act (.answer je.tid 180 none lib.answerResult)).act .unlock
    let e := { e with cid := je.cid, did := je.did, tid := je.tid }
    changeState eIncomingCall (e.act (.incomingCall je.cid je.displayname (-1)))
  | .inSubscriptionNew => onInSubscriptionNew lib je e
  | _ => e

/-- The answered transition: both media are set up for the transaction of the event. -/
def startMedia (lib : Lib) (tid : Int) (incoming : Bool) (e : Engine) : C Engine := do
  let audio ← rtpAudioSetup lib.remoteSdp tid incoming e.ports e.audio
  let video ← rtpVideoSetup lib.remoteSdp tid incoming e.ports e.video
  pure (changeState eAnswered { e with audio := audio, video := video })

/-- The switch shared by `eIN_CALL` and `eINCOMING_CALL`. -/
def onInCall (lib : Lib) (je : Event) (e : Engine) : C Engine :=
  match je.type with
  | .callRinging => pure { e with cid := je.cid, did := je.did, audio := playRingback e.audio }
  | .callAnswered =>
    let e := ((e.act .lock).act (.ack je.did)).act .unlock
    startMedia lib je.tid false e
  | .inSubscriptionNew => pure (onInSubscriptionNew lib je e)
  | .callAck => startMedia lib je.tid true { e with cid := je.cid, did := je.did }
  | .callClosed => pure (changeState eRegistered e)
  | .callServerfailure | .callGlobalfailure | .callCancelled | .callTimeout =>
    pure (changeState eRegistered (e.act (.notice (.errorMessage (lit "Call failed")))))
  | _ => pure e

def onAnswered (je : Event) (e : Engine) : Engine :=
  match je.type with
  | .callInvite => e
  | .callClosed =>
    let e := { e with audio := rtpAudioStop e.audio, video := rtpVideoStop e.video }
    changeState eRegistered { e with cid := 0, tid := 0, did := 0 }
  | _ => e

def onDisconnecting (je : Event) (e : Engine) : Engine :=
  match je.type with
  | .registrationSuccess | .registrationTerminated =>
    { changeState eNotRegistered e with quit := true }
  | _ => e

/-- The switch over `currentState`. -/
def callSwitch (lib : Lib) (je : Event) (e : Engine) : C Engine :=
  match e.currentState with
  | eNotRegistered => pure e
  | eRegistering => pure (onRegistering je e)
  | eRegistered => pure (onRegistered lib je e)
  | eInCall | eIncomingCall => onInCall lib je e
  | eAnswered => pure (onAnswered je e)
  | eDisconnecting => pure (onDisconnecting je e)

/-! ## The thread -/

/-- The start of a round: register if that has not been done.  If the request cannot be built the
thread returns. -/
def registerStep (lib : Lib) (e : Engine) : Engine :=
  if e.currentState = eNotRegistered then
    let e := e.act .lock
    if lib.registerId < 0 then
      { e.act .unlock with thread := .returned (-1) }
    else
      let e := (e.act (.register lib.registerId 120)).act .unlock
      changeState eRegistering (e.act (.notice (.startup 1)))
  else e

/-- One round of the loop, from the point where the callback may run on. -/
def callThreadBody (lib : Lib) (je : Option Event) (e : Engine) : C Engine :=
  let e := registerStep lib e
  if e.thread ≠ .looping then pure e
  else
    -- The automatic refreshes and retries of the library.
    let e := (e.act .lock).act .unlock
    match je with
    | none => pure e
    | some je => callSwitch lib je e

/-- The test at the head of the loop, and what follows it. -/
def loopTest (e : Engine) : Engine :=
  if e.thread = .looping ∧ e.quit then
    { e.act .closeLog with callbackDone := true, thread := .exited }
  else e

def callThread (lib : Lib) (je : Option Event) (e : Engine) : C Engine := do
  let e ← callThreadBody lib je e
  pure (loopTest e)

/-! ## The machine -/

inductive Input
  /-- The user interface has the callback run. -/
  | gui (lib : Lib) (event : GuiEvent)
  /-- The loop goes round, with or without an event. -/
  | poll (lib : Lib) (je : Option Event)

/-- One step of the thread.  Once it has left its loop nothing happens any more. -/
def step (cfg : Config) (i : Input) (e : Engine) : C Engine :=
  if e.thread = .looping then
    match i with
    | .gui lib event => guiCallback cfg lib event e
    | .poll lib je => callThread lib je e
  else pure e

/-- The engine when `SIPEngineInitialize` has started the thread and the thread has created its
callback.  The camera is only set up for a call with video over USB. -/
def boot (cfg : Config) (callThid cbid ringbackfile cameraSetup cameraStart : Int) : Engine where
  callThid := callThid
  cbid := cbid
  audio := { ringbackfile := ringbackfile }
  video := if cfg.useUsb && cfg.useVideo then initVideo cameraSetup cameraStart {} else {}
  log := [.notice (.startup 0)]

end Furikup
