import Furikup.Steps

/-!
# The handshake between the user interface and the engine

`SIPEngineDoEvent` runs on the thread of the user interface and `CallThread` on its own.  The first
leaves an event on its stack, has the kernel queue `GuiCallback` for the second, and waits on the
flag `callback_done`; the second runs the callback where it waits, and sets the flag.

* `Handshake`, `turn` — the two threads, one access to shared memory at a time.  A schedule is a
  list of turns, and any list is one.
* `turn_callback`, `turn_round` — left alone, the SIP thread is the machine of `Furikup.Engine`.
* `Mark`, `Ordered` — what is observed of the calls and in which order it may come.
* `HandshakeOk`, `handshake_ordered` — **the law on every interleaving**, from an invariant with one
  case for each phase of a call.
* `no_callback_after_shutdown` — a call after the engine was shut down waits forever.
-/

set_option autoImplicit false

namespace Furikup

open CText CallState

/-! ## Two threads -/

/-- Where the thread of the user interface is.  In call number `n` of `SIPEngineDoEvent` the event
is on its stack. -/
inductive Gui
  | idle
  | notifying (n : Nat) (event : GuiEvent)
  /-- `while(!callback_done)` -/
  | spinning (n : Nat) (event : GuiEvent)
  /-- `callback_done = 0`, and the return. -/
  | resetting (n : Nat) (event : GuiEvent)
  deriving DecidableEq, Repr

/-- What the address of the event of call `n` points to: nothing once the call has returned. -/
def Gui.frame (n : Nat) : Gui → Option GuiEvent
  | .idle => none
  | .notifying m event | .spinning m event | .resetting m event =>
    if m = n then some event else none

/-- Where the SIP thread is. -/
inductive Sip
  /-- `while(!quit)` -/
  | testing
  /-- `sceKernelDelayThreadCB`, where a queued callback may be run. -/
  | delaying
  /-- In `GuiCallback`, with the address of the event of call `n`. -/
  | calledBack (n : Nat)
  /-- `callback_done = done`, the last thing the callback does. -/
  | setting (n : Nat) (done : Bool)
  /-- The rest of the loop. -/
  | working
  /-- `sceIoClose(logfd)` -/
  | closing
  /-- `callback_done = 1`, and the end of the thread. -/
  | finishing
  | exited
  /-- Returned from the middle of the loop. -/
  | returned
  deriving DecidableEq, Repr

/-- What is observed of the calls. -/
inductive Mark
  | started (n : Nat) (event : GuiEvent)
  | began (n : Nat)
  | ended (n : Nat)
  | returned (n : Nat)
  | leftLoop
  | closedLog
  deriving DecidableEq, Repr

structure Handshake where
  engine : Engine
  gui : Gui := .idle
  sip : Sip := .testing
  /-- The callback the kernel has queued, with its argument. -/
  queue : Option Nat := none
  /-- How many calls have been started. -/
  calls : Nat := 0
  /-- What was observed, latest first. -/
  history : List Mark := []

def Handshake.mark (h : Handshake) (m : Mark) : Handshake :=
  { h with history := m :: h.history }

/-- A turn of the user interface in `SIPEngineDoEvent`.  Between two calls it starts one with the
event it is given. -/
def guiTurn (event : GuiEvent) (h : Handshake) : Handshake :=
  match h.gui with
  | .idle => { h with gui := .notifying h.calls event, calls := h.calls + 1 }.mark
      (.started h.calls event)
  | .notifying n event =>
    if h.engine.cbid > 0 then { h with queue := some n, gui := .spinning n event }
    else { h with gui := .resetting n event }
  | .spinning n event =>
    if !h.engine.callbackDone then h else { h with gui := .resetting n event }
  | .resetting n _ =>
    { h with engine := { h.engine with callbackDone := false }, gui := .idle }.mark (.returned n)

/-- A turn of the SIP thread in `CallThread` or in the callback.  `deliver` says whether the kernel
runs a queued callback now. -/
def sipTurn (cfg : Config) (lib : Lib) (je : Option Event) (deliver : Bool) (h : Handshake) :
    C Handshake :=
  match h.sip with
  | .testing =>
    if !h.engine.quit then pure { h with sip := .delaying }
    else pure ({ h with sip := .closing }.mark .leftLoop)
  | .delaying =>
    match h.queue with
    | some n =>
      if deliver then pure ({ h with sip := .calledBack n, queue := none }.mark (.began n))
      else pure { h with sip := .working }
    | none => pure { h with sip := .working }
  | .calledBack n => do
    let event ← deref (h.gui.frame n)
    let (engine, done) ← guiSwitch cfg lib event h.engine
    pure { h with engine := engine, sip := .setting n done }
  | .setting n done =>
    pure ({ h with engine := { h.engine with callbackDone := done }, sip := .delaying }.mark
      (.ended n))
  | .working => do
    let engine ← callThreadBody lib je h.engine
    pure { h with
      engine := engine
      sip := if engine.thread = .looping then .testing else .returned }
  | .closing =>
    pure ({ h with engine := h.engine.act .closeLog, sip := .finishing }.mark .closedLog)
  | .finishing =>
    pure { h with
      engine := { h.engine with callbackDone := true, thread := .exited }
      sip := .exited }
  | .exited | .returned => pure h

inductive Turn
  | gui (event : GuiEvent)
  | sip (lib : Lib) (je : Option Event) (deliver : Bool)

def turn (cfg : Config) : Turn → Handshake → C Handshake
  | .gui event, h => pure (guiTurn event h)
  | .sip lib je deliver, h => sipTurn cfg lib je deliver h

/-! ## The SIP thread alone -/

/-- The two turns of a callback do what `guiCallback` does. -/
theorem turn_callback {cfg : Config} {lib : Lib} {je : Option Event} {deliver : Bool} {n : Nat}
    {event : GuiEvent} {h : Handshake} (hsip : h.sip = .calledBack n)
    (hframe : h.gui.frame n = some event) :
    Machine.run (turn cfg) [.sip lib je deliver, .sip lib je deliver] h =
      (guiCallback cfg lib event h.engine).map fun e =>
        { h with engine := e, sip := .delaying }.mark (.ended n) := by
  simp only [Machine.run, turn, sipTurn, hsip, hframe, deref, ok_bind, guiCallback]
  cases guiSwitch cfg lib event h.engine with
  | error f => rfl
  | ok r => rfl

theorem sipTurn_working {cfg : Config} {lib : Lib} {je : Option Event} {deliver : Bool}
    {h h' : Handshake} (hsip : h.sip = .working) :
    sipTurn cfg lib je deliver h = .ok h' ↔ ∃ e, callThreadBody lib je h.engine = .ok e ∧
      h' = { h with engine := e, sip := if e.thread = .looping then .testing else .returned } := by
  rw [sipTurn, hsip]
  simp only [bind_eq_ok, pure_eq_ok]

/-- The ways a turn of the SIP thread goes. -/
inductive SipMove (cfg : Config) (lib : Lib) (je : Option Event) (h : Handshake) : Handshake → Prop
  | enters (hsip : h.sip = .testing) (hquit : h.engine.quit = false) :
      SipMove cfg lib je h { h with sip := .delaying }
  | leaves (hsip : h.sip = .testing) (hquit : h.engine.quit = true) :
      SipMove cfg lib je h ({ h with sip := .closing }.mark .leftLoop)
  | begins {n : Nat} (hsip : h.sip = .delaying) (hqueue : h.queue = some n) :
      SipMove cfg lib je h ({ h with sip := .calledBack n, queue := none }.mark (.began n))
  /-- No callback is run. -/
  | passes (hsip : h.sip = .delaying) : SipMove cfg lib je h { h with sip := .working }
  | callsBack {n : Nat} {event : GuiEvent} {e : Engine} {done : Bool} (hsip : h.sip = .calledBack n)
      (hframe : h.gui.frame n = some event)
      (hswitch : guiSwitch cfg lib event h.engine = .ok (e, done)) :
      SipMove cfg lib je h { h with engine := e, sip := .setting n done }
  | sets {n : Nat} {done : Bool} (hsip : h.sip = .setting n done) :
      SipMove cfg lib je h ({ h with
        engine := { h.engine with callbackDone := done }
        sip := .delaying }.mark (.ended n))
  | works {e : Engine} (hsip : h.sip = .working) (hbody : callThreadBody lib je h.engine = .ok e) :
      SipMove cfg lib je h { h with
        engine := e
        sip := if e.thread = .looping then .testing else .returned }
  | closes (hsip : h.sip = .closing) :
      SipMove cfg lib je h
        ({ h with engine := h.engine.act .closeLog, sip := .finishing }.mark .closedLog)
  | finishes (hsip : h.sip = .finishing) :
      SipMove cfg lib je h { h with
        engine := { h.engine with callbackDone := true, thread := .exited }
        sip := .exited }
  | stays (hsip : h.sip = .exited ∨ h.sip = .returned) : SipMove cfg lib je h h

theorem sipTurn_move {cfg : Config} {lib : Lib} {je : Option Event} {deliver : Bool}
    {h h' : Handshake} (hturn : sipTurn cfg lib je deliver h = .ok h') :
    SipMove cfg lib je h h' := by
  cases hsip : h.sip with
  | testing =>
    rw [sipTurn, hsip] at hturn
    cases hquit : h.engine.quit with
    | false =>
      simp only [hquit, Bool.not_false, if_true] at hturn
      exact pure_eq_ok.1 hturn ▸ .enters hsip hquit
    | true =>
      simp only [hquit, Bool.not_true, Bool.false_eq_true, if_false] at hturn
      exact pure_eq_ok.1 hturn ▸ .leaves hsip hquit
  | delaying =>
    rw [sipTurn, hsip] at hturn
    simp only at hturn
    split at hturn
    · next hqueue =>
      split at hturn
      · exact pure_eq_ok.1 hturn ▸ .begins hsip hqueue
      · exact pure_eq_ok.1 hturn ▸ .passes hsip
    · exact pure_eq_ok.1 hturn ▸ .passes hsip
  | calledBack n =>
    rw [sipTurn, hsip] at hturn
    obtain ⟨event, hframe, hturn⟩ := bind_eq_ok.1 hturn
    obtain ⟨⟨e, done⟩, hswitch, hturn⟩ := bind_eq_ok.1 hturn
    exact pure_eq_ok.1 hturn ▸ .callsBack hsip (deref_eq_ok.1 hframe) hswitch
  | setting n done =>
    rw [sipTurn, hsip] at hturn
    exact pure_eq_ok.1 hturn ▸ .sets hsip
  | working =>
    obtain ⟨e, hbody, rfl⟩ := (sipTurn_working hsip).1 hturn
    exact .works hsip hbody
  | closing =>
    rw [sipTurn, hsip] at hturn
    exact pure_eq_ok.1 hturn ▸ .closes hsip
  | finishing =>
    rw [sipTurn, hsip] at hturn
    exact pure_eq_ok.1 hturn ▸ .finishes hsip
  | exited =>
    rw [sipTurn, hsip] at hturn
    obtain rfl := pure_eq_ok.1 hturn
    exact .stays (Or.inl hsip)
  | returned =>
    rw [sipTurn, hsip] at hturn
    obtain rfl := pure_eq_ok.1 hturn
    exact .stays (Or.inr hsip)

/-- A round of `callThread` is one turn if the thread returns in the middle, two if it stays in its
loop, and four if it leaves it. -/
theorem turn_round {cfg : Config} {lib : Lib} {je : Option Event} {deliver : Bool} {h : Handshake}
    {e : Engine} (hsip : h.sip = .working) (hround : callThread lib je h.engine = .ok e) :
    ∃ k sip history, Machine.run (turn cfg) (List.replicate k (.sip lib je deliver)) h =
      .ok { h with engine := e, sip := sip, history := history } := by
  obtain ⟨e₁, hbody, he⟩ := bind_eq_ok.1 hround
  obtain rfl := pure_eq_ok.1 he
  have hworking : turn cfg (.sip lib je deliver) h = .ok { h with
      engine := e₁
      sip := if e₁.thread = .looping then .testing else .returned } :=
    (sipTurn_working hsip).2 ⟨e₁, hbody, rfl⟩
  rw [loopTest]
  by_cases hthread : e₁.thread = .looping
  · rw [if_pos hthread] at hworking
    cases hquit : e₁.quit with
    | false =>
      refine ⟨2, .delaying, h.history, Machine.run_cons_ok.2 ⟨_, hworking,
        Machine.run_cons_ok.2 ⟨_, ?_, rfl⟩⟩⟩
      simp [turn, sipTurn, hquit]
    | true =>
      refine ⟨4, .exited, .closedLog :: .leftLoop :: h.history,
        Machine.run_cons_ok.2 ⟨_, hworking, Machine.run_cons_ok.2
          ⟨{ h with engine := e₁, sip := .closing }.mark .leftLoop, ?_, ?_⟩⟩⟩
      · simp [turn, sipTurn, hquit]
      · rw [if_pos ⟨hthread, rfl⟩]
        rfl
  · rw [if_neg hthread] at hworking
    refine ⟨1, .returned, h.history, Machine.run_cons_ok.2 ⟨_, hworking, ?_⟩⟩
    rw [if_neg fun hleave => hthread hleave.1]
    rfl

/-! ## What the SIP thread does to the flag -/

/-- What the callback and the loop leave alone until they are through. -/
def Engine.frame (e : Engine) : Int × Int × Bool :=
  (e.callThid, e.cbid, e.callbackDone)

theorem callThid_of_frame {e e' : Engine} (h : e'.frame = e.frame) : e'.callThid = e.callThid :=
  congrArg (fun f => f.1) h

theorem cbid_of_frame {e e' : Engine} (h : e'.frame = e.frame) : e'.cbid = e.cbid :=
  congrArg (fun f => f.2.1) h

theorem callbackDone_of_frame {e e' : Engine} (h : e'.frame = e.frame) :
    e'.callbackDone = e.callbackDone :=
  congrArg (fun f => f.2.2) h

/-- The engine is not going down. -/
def Core.Up (s : Core) : Prop :=
  s.quit = false ∧ s.currentState ≠ eDisconnecting

@[simp] theorem frame_act (e : Engine) (a : Action) : (e.act a).frame = e.frame := rfl

@[simp] theorem frame_changeState (state : CallState) (e : Engine) :
    (changeState state e).frame = e.frame := by
  cases state with
  | _ => rfl

@[simp] theorem frame_hangupCall (e : Engine) : (hangupCall e).frame = e.frame := by
  by_cases hbusy : e.currentState.Busy
  · rw [hangupCall_of_busy hbusy, frame_changeState]
    rfl
  · rw [hangupCall_of_not_busy hbusy]

theorem frame_makeCall {cfg : Config} {lib : Lib} {user : Text} {e e' : Engine}
    (h : makeCall cfg lib user e = .ok e') : e'.frame = e.frame := by
  obtain ⟨-, rfl⟩ | ⟨-, -, rfl⟩ | ⟨-, -, sdp, ports, -, rfl⟩ := makeCall_cases h
  · rfl
  · exact frame_act e _
  · rw [frame_changeState]
    rfl

theorem frame_answerCall {cfg : Config} {lib : Lib} {e e' : Engine}
    (h : answerCall cfg lib e = .ok e') : e'.frame = e.frame := by
  obtain ⟨-, rfl⟩ | ⟨-, -, sdp, ports, -, rfl⟩ := answerCall_cases h
  · rfl
  · rw [frame_act, frame_act, frame_act]
    rfl

/-- If the thread has an id, shutting down leaves the flag to the end of the thread. -/
theorem frame_disconnectSipServer {e : Engine} (hthid : 0 < e.callThid) :
    (disconnectSipServer e).frame = e.frame := by
  rcases disconnectSipServer_cases e with ⟨-, heq⟩ | ⟨-, heq⟩ | ⟨-, -, heq⟩
  · rw [heq, frame_act, frame_act, frame_act, frame_changeState, frame_hangupCall]
  · rw [heq, frame_act, frame_act, frame_act, frame_changeState]
  · rw [heq, if_pos hthid]
    rfl

theorem frame_updatePresence (lib : Lib) (presence : Int) (e : Engine) :
    (updatePresence lib presence e).frame = e.frame := by
  rw [updatePresence]
  split
  · rfl
  · rfl

/-- The switch of the callback leaves the flag alone, and only a shutdown leaves it unset at the
end. -/
theorem guiSwitch_frame {cfg : Config} {lib : Lib} {event : GuiEvent} {e e' : Engine} {done : Bool}
    (hthid : 0 < e.callThid) (h : guiSwitch cfg lib event e = .ok (e', done)) :
    e'.frame = e.frame ∧ (done = false ↔ event = .shutdown) := by
  obtain ⟨hcommand, hdone⟩ := guiSwitch_command h
  refine ⟨?_, hdone⟩
  cases hcommand with
  | newCall _ hcall => exact frame_makeCall hcall
  | answer hcall => exact frame_answerCall hcall
  | hangup => exact frame_hangupCall e
  | changePresence => exact frame_updatePresence lib _ e
  | shutdown => exact frame_disconnectSipServer hthid
  | unknown => rfl

theorem frame_onInSubscriptionNew (lib : Lib) (je : Event) (e : Engine) :
    (onInSubscriptionNew lib je e).frame = e.frame := by
  rcases onInSubscriptionNew_cases lib je e with ⟨-, -, heq⟩ | ⟨-, -, heq⟩ | ⟨-, heq⟩
  · rw [heq]
    rfl
  · rw [heq]
    rfl
  · rw [heq]
    rfl

theorem frame_startMedia {lib : Lib} {tid : Int} {incoming : Bool} {e e' : Engine}
    (h : startMedia lib tid incoming e = .ok e') : e'.frame = e.frame := by
  obtain ⟨audio, -, video, -, rfl⟩ := startMedia_eq_ok.1 h
  rw [frame_changeState]
  rfl

theorem frame_callSwitch {lib : Lib} {je : Event} {e e' : Engine}
    (h : callSwitch lib je e = .ok e') : e'.frame = e.frame := by
  cases callSwitch_handled h with
  | ignored => rfl
  | registered =>
    rw [frame_changeState]
    rfl
  | invited =>
    rw [frame_changeState]
    rfl
  | subscribed => exact frame_onInSubscriptionNew lib je e
  | ringing => rfl
  | answered _ _ hmedia => rw [frame_startMedia hmedia, frame_act, frame_act, frame_act]
  | ack _ _ hmedia =>
    rw [frame_startMedia hmedia]
    rfl
  | ended => rw [frame_changeState]
  | failed => rw [frame_changeState, frame_act]
  | closed =>
    rw [frame_changeState]
    rfl
  | disconnected => exact frame_changeState eNotRegistered e

theorem frame_registerStep (lib : Lib) (e : Engine) : (registerStep lib e).frame = e.frame := by
  rcases registerStep_cases lib e with ⟨-, hskips⟩ | ⟨-, -, hfails⟩ | ⟨-, -, hsends⟩
  · rw [hskips]
  · rw [hfails]
    rfl
  · rw [hsends, frame_changeState]
    rfl

theorem callThreadBody_frame {lib : Lib} {je : Option Event} {e e' : Engine}
    (h : callThreadBody lib je e = .ok e') : e'.frame = e.frame := by
  rw [callThreadBody] at h
  by_cases hthread : (registerStep lib e).thread ≠ .looping
  · rw [if_pos hthread] at h
    rw [pure_eq_ok.1 h, frame_registerStep]
  · rw [if_neg hthread] at h
    cases je with
    | none => rw [pure_eq_ok.1 h, frame_act, frame_act, frame_registerStep]
    | some je => rw [frame_callSwitch h, frame_act, frame_act, frame_registerStep]

/-- Only a shutdown takes the engine down. -/
theorem up_arm {cfg : Config} {i : Input} {s s' : Core} (harm : Arm cfg i s s')
    (hi : ∀ lib, i ≠ .gui lib .shutdown) (hs : s.Up) : s'.Up := by
  obtain ⟨hquit, hstate⟩ := hs
  cases harm with
  | idle => exact ⟨hquit, hstate⟩
  | makeCall => exact ⟨hquit, fun h => by cases h⟩
  | answerCall => exact ⟨hquit, hstate⟩
  | hangup =>
    refine ⟨?_, by rw [currentState_hangup]; decide⟩
    rw [Core.hangup]
    split
    · exact hquit
    · exact hquit
  | disconnect => exact absurd rfl (hi _)
  | disconnectCall => exact absurd rfl (hi _)
  | quit => exact absurd rfl (hi _)
  | ringing => exact ⟨hquit, hstate⟩
  | disconnected hdis => exact absurd hdis hstate
  | _ => exact ⟨hquit, fun h => by cases h⟩

/-! ## The law -/

/-- The call a mark is about. -/
def Mark.call : Mark → Option Nat
  | .started n _ | .began n | .ended n | .returned n => some n
  | .leftLoop | .closedLog => none

/-- What has been observed `before` a mark.  The callback of a call begins once, after the call has
started, and ends once; the call returns once, and after that; and the call that shuts the engine
down returns after the thread has left its loop and closed the log. -/
def Mark.Follows (before : List Mark) : Mark → Prop
  | .started n _ => ∀ m ∈ before, m.call ≠ some n
  | .began n => (∃ event, .started n event ∈ before) ∧ .began n ∉ before ∧ .returned n ∉ before
  | .ended n => .began n ∈ before ∧ .ended n ∉ before ∧ .returned n ∉ before
  | .returned n => .ended n ∈ before ∧ .returned n ∉ before ∧
    (.started n .shutdown ∈ before → .leftLoop ∈ before ∧ .closedLog ∈ before)
  | .leftLoop | .closedLog => True

/-- Every mark follows what was observed before it. -/
def Ordered : List Mark → Prop
  | [] => True
  | m :: before => m.Follows before ∧ Ordered before

structure HandshakeOk (h : Handshake) : Prop where
  /-- The flag is unset whenever a call may start. -/
  flag : h.gui = .idle → h.engine.callbackDone = false
  ordered : Ordered h.history
  /-- The event of a call is on the stack when the callback reads it. -/
  frame : ∀ n, h.sip = .calledBack n → (h.gui.frame n).isSome = true
  /-- The callback of a call that waits is queued until it begins. -/
  queued : ∀ n event, h.gui = .spinning n event → h.queue = some n ∨ .began n ∈ h.history

/-- The thread is in its loop, with no callback on it, or has returned from the middle. -/
def Sip.Waiting (sip : Sip) : Prop :=
  sip = .testing ∨ sip = .delaying ∨ sip = .working ∨ sip = .returned

/-- Call `n` is under way, with `event`. -/
structure InCall (n : Nat) (event : GuiEvent) (history : List Mark) : Prop where
  started : .started n event ∈ history
  only : ∀ event', .started n event' ∈ history → event' = event
  live : .returned n ∉ history

/-- The phases of a call, from one in which there is none to the one after the engine was shut
down. -/
inductive Phase (h : Handshake) : Prop
  | idle (gui : h.gui = .idle) (flag : h.engine.callbackDone = false) (queue : h.queue = none)
      (sip : h.sip.Waiting) (up : h.engine.core.Up)
  | notifying {n : Nat} {event : GuiEvent} (gui : h.gui = .notifying n event)
      (flag : h.engine.callbackDone = false) (queue : h.queue = none) (sip : h.sip.Waiting)
      (up : h.engine.core.Up) (call : InCall n event h.history) (notBegun : .began n ∉ h.history)
      (notEnded : .ended n ∉ h.history)
  | queued {n : Nat} {event : GuiEvent} (gui : h.gui = .spinning n event)
      (flag : h.engine.callbackDone = false) (queue : h.queue = some n) (sip : h.sip.Waiting)
      (up : h.engine.core.Up) (call : InCall n event h.history) (notBegun : .began n ∉ h.history)
      (notEnded : .ended n ∉ h.history)
  | calledBack {n : Nat} {event : GuiEvent} (gui : h.gui = .spinning n event)
      (flag : h.engine.callbackDone = false) (queue : h.queue = none) (sip : h.sip = .calledBack n)
      (up : h.engine.core.Up) (call : InCall n event h.history) (begun : .began n ∈ h.history)
      (notEnded : .ended n ∉ h.history)
  | setting {n : Nat} {event : GuiEvent} {done : Bool} (gui : h.gui = .spinning n event)
      (flag : h.engine.callbackDone = false) (queue : h.queue = none)
      (sip : h.sip = .setting n done) (isDone : done = false ↔ event = .shutdown)
      (up : event ≠ .shutdown → h.engine.core.Up) (call : InCall n event h.history)
      (begun : .began n ∈ h.history) (notEnded : .ended n ∉ h.history)
  | released {n : Nat} {event : GuiEvent}
      (gui : h.gui = .spinning n event ∨ h.gui = .resetting n event)
      (flag : h.engine.callbackDone = true) (queue : h.queue = none) (sip : h.sip.Waiting)
      (up : h.engine.core.Up) (isOther : event ≠ .shutdown) (call : InCall n event h.history)
      (begun : .began n ∈ h.history) (ended : .ended n ∈ h.history)
  | shutting {n : Nat} (gui : h.gui = .spinning n .shutdown)
      (flag : h.engine.callbackDone = false) (queue : h.queue = none) (sip : h.sip.Waiting)
      (call : InCall n .shutdown h.history) (begun : .began n ∈ h.history)
      (ended : .ended n ∈ h.history)
  | closing {n : Nat} (gui : h.gui = .spinning n .shutdown)
      (flag : h.engine.callbackDone = false) (queue : h.queue = none) (sip : h.sip = .closing)
      (call : InCall n .shutdown h.history) (begun : .began n ∈ h.history)
      (ended : .ended n ∈ h.history) (left : .leftLoop ∈ h.history)
  | finishing {n : Nat} (gui : h.gui = .spinning n .shutdown)
      (flag : h.engine.callbackDone = false) (queue : h.queue = none) (sip : h.sip = .finishing)
      (call : InCall n .shutdown h.history) (begun : .began n ∈ h.history)
      (ended : .ended n ∈ h.history) (left : .leftLoop ∈ h.history)
      (closed : .closedLog ∈ h.history)
  | exited {n : Nat} (gui : h.gui = .spinning n .shutdown ∨ h.gui = .resetting n .shutdown)
      (queue : h.queue = none) (sip : h.sip = .exited)
      (call : InCall n .shutdown h.history) (begun : .began n ∈ h.history)
      (ended : .ended n ∈ h.history) (left : .leftLoop ∈ h.history)
      (closed : .closedLog ∈ h.history)
  | down (gui : h.gui = .idle) (flag : h.engine.callbackDone = false) (sip : h.sip = .exited)
  | stranded {n : Nat} {event : GuiEvent}
      (gui : h.gui = .notifying n event ∨ h.gui = .spinning n event ∧ h.queue = some n)
      (flag : h.engine.callbackDone = false) (sip : h.sip = .exited)

/-- The invariant. -/
structure HandshakeInv (h : Handshake) : Prop where
  phase : Phase h
  ordered : Ordered h.history
  numbered : ∀ m ∈ h.history, ∀ n, m.call = some n → n < h.calls
  thid : 0 < h.engine.callThid
  cbid : 0 < h.engine.cbid

@[simp] theorem not_waiting_calledBack (n : Nat) : ¬(Sip.calledBack n).Waiting := by
  simp [Sip.Waiting]

theorem Phase.flag {h : Handshake} (hphase : Phase h) (hgui : h.gui = .idle) :
    h.engine.callbackDone = false := by
  cases hphase with
  | released gui => rcases gui with gui | gui <;> exact absurd (hgui.symm.trans gui) (by simp)
  | exited gui => rcases gui with gui | gui <;> exact absurd (hgui.symm.trans gui) (by simp)
  | idle _ flag | notifying _ flag | queued _ flag | calledBack _ flag | setting _ flag
  | shutting _ flag | closing _ flag | finishing _ flag | down _ flag | stranded _ flag =>
    exact flag

theorem Phase.frame {h : Handshake} (hphase : Phase h) {n : Nat} (hsip : h.sip = .calledBack n) :
    (h.gui.frame n).isSome = true := by
  cases hphase with
  | calledBack gui _ _ sip =>
    obtain rfl := Sip.calledBack.inj (sip.symm.trans hsip)
    simp [gui, Gui.frame]
  | idle _ _ _ sip | notifying _ _ _ sip | queued _ _ _ sip | released _ _ _ sip
  | shutting _ _ _ sip => exact absurd (hsip ▸ sip) (not_waiting_calledBack n)
  | setting _ _ _ sip | closing _ _ _ sip | finishing _ _ _ sip | exited _ _ sip | down _ _ sip
  | stranded _ _ sip => exact absurd (hsip.symm.trans sip) (by simp)

theorem Phase.queued_or_begun {h : Handshake} (hphase : Phase h) {n : Nat} {event : GuiEvent}
    (hgui : h.gui = .spinning n event) : h.queue = some n ∨ .began n ∈ h.history := by
  cases hphase with
  | idle gui => exact absurd (hgui.symm.trans gui) (by simp)
  | down gui => exact absurd (hgui.symm.trans gui) (by simp)
  | notifying gui => exact absurd (hgui.symm.trans gui) (by simp)
  | queued gui _ queue =>
    obtain ⟨rfl, -⟩ := Gui.spinning.inj (gui.symm.trans hgui)
    exact Or.inl queue
  | calledBack gui _ _ _ _ _ begun =>
    obtain ⟨rfl, -⟩ := Gui.spinning.inj (gui.symm.trans hgui)
    exact Or.inr begun
  | setting gui _ _ _ _ _ _ begun =>
    obtain ⟨rfl, -⟩ := Gui.spinning.inj (gui.symm.trans hgui)
    exact Or.inr begun
  | released gui _ _ _ _ _ _ begun =>
    rcases gui with gui | gui
    · obtain ⟨rfl, -⟩ := Gui.spinning.inj (gui.symm.trans hgui)
      exact Or.inr begun
    · exact absurd (hgui.symm.trans gui) (by simp)
  | shutting gui _ _ _ _ begun | closing gui _ _ _ _ begun | finishing gui _ _ _ _ begun =>
    obtain ⟨rfl, -⟩ := Gui.spinning.inj (gui.symm.trans hgui)
    exact Or.inr begun
  | exited gui _ _ _ begun =>
    rcases gui with gui | gui
    · obtain ⟨rfl, -⟩ := Gui.spinning.inj (gui.symm.trans hgui)
      exact Or.inr begun
    · exact absurd (hgui.symm.trans gui) (by simp)
  | stranded gui =>
    rcases gui with gui | ⟨gui, queue⟩
    · exact absurd (hgui.symm.trans gui) (by simp)
    · obtain ⟨rfl, -⟩ := Gui.spinning.inj (gui.symm.trans hgui)
      exact Or.inl queue

theorem HandshakeInv.ok {h : Handshake} (hinv : HandshakeInv h) : HandshakeOk h :=
  ⟨hinv.phase.flag, hinv.ordered, fun _ => hinv.phase.frame, fun _ _ => hinv.phase.queued_or_begun⟩

/-! ## One turn -/

theorem InCall.cons {n : Nat} {event : GuiEvent} {history : List Mark} (h : InCall n event history)
    {m : Mark} (hstarted : ∀ event', m ≠ .started n event') (hreturned : m ≠ .returned n) :
    InCall n event (m :: history) where
  started := List.mem_cons_of_mem m h.started
  only := fun event' hmem => (List.mem_cons.1 hmem).elim
    (fun heq => absurd heq.symm (hstarted event')) (h.only event')
  live := fun hmem => (List.mem_cons.1 hmem).elim (fun heq => hreturned heq.symm) h.live

/-- One more mark, of a call that has been started. -/
theorem HandshakeInv.numbered_cons {h : Handshake} (hinv : HandshakeInv h) {m : Mark} {n : Nat}
    (hcall : ∀ k, m.call = some k → k = n) {event : GuiEvent}
    (hstarted : .started n event ∈ h.history) :
    ∀ m' ∈ m :: h.history, ∀ k, m'.call = some k → k < h.calls := by
  refine List.forall_mem_cons.2 ⟨fun k hk => ?_, hinv.numbered⟩
  rw [hcall k hk]
  exact hinv.numbered _ hstarted n rfl

/-- A turn that leaves the marks alone. -/
theorem HandshakeInv.congr {h h' : Handshake} (hinv : HandshakeInv h) (hphase : Phase h')
    (hhistory : h'.history = h.history) (hcalls : h'.calls = h.calls)
    (hframe : h'.engine.callThid = h.engine.callThid ∧ h'.engine.cbid = h.engine.cbid) :
    HandshakeInv h' :=
  ⟨hphase, hhistory ▸ hinv.ordered, by rw [hhistory, hcalls]; exact hinv.numbered,
    hframe.1 ▸ hinv.thid, hframe.2 ▸ hinv.cbid⟩

/-- The start of a call. -/
theorem HandshakeInv.start {h : Handshake} (hinv : HandshakeInv h) (event : GuiEvent) :
    InCall h.calls event (.started h.calls event :: h.history) ∧
      .began h.calls ∉ .started h.calls event :: h.history ∧
      .ended h.calls ∉ .started h.calls event :: h.history ∧
      Ordered (.started h.calls event :: h.history) ∧
      ∀ m ∈ .started h.calls event :: h.history, ∀ n, m.call = some n → n < h.calls + 1 := by
  have hfresh (m : Mark) (hm : m ∈ h.history) : m.call ≠ some h.calls := fun hcall =>
    absurd (hinv.numbered m hm h.calls hcall) (Nat.lt_irrefl _)
  -- the call has no other mark yet
  have honly {m : Mark} (hcall : m.call = some h.calls)
      (hm : m ∈ Mark.started h.calls event :: h.history) : m = .started h.calls event :=
    (List.mem_cons.1 hm).resolve_right fun hmem => hfresh m hmem hcall
  refine ⟨⟨List.mem_cons_self, fun event' hmem => ?_, fun hmem => ?_⟩, fun hmem => ?_,
    fun hmem => ?_, ⟨hfresh, hinv.ordered⟩, ?_⟩
  · exact (Mark.started.inj (honly rfl hmem)).2
  · exact Mark.noConfusion (honly rfl hmem)
  · exact Mark.noConfusion (honly rfl hmem)
  · exact Mark.noConfusion (honly rfl hmem)
  · refine List.forall_mem_cons.2 ⟨fun n hn => ?_, fun m hm n hn => ?_⟩
    · obtain rfl := Option.some.inj hn
      exact Nat.lt_succ_self _
    · exact Nat.lt_succ_of_lt (hinv.numbered m hm n hn)

theorem handshakeInv_guiTurn {h : Handshake} (hinv : HandshakeInv h) (event : GuiEvent) :
    HandshakeInv (guiTurn event h) := by
  have hcbid := hinv.cbid
  cases hinv.phase with
  | idle gui flag queue sip up =>
    obtain ⟨call, notBegun, notEnded, ordered, numbered⟩ := hinv.start event
    rw [guiTurn, gui]
    exact ⟨.notifying rfl flag queue sip up call notBegun notEnded, ordered, numbered, hinv.thid,
      hcbid⟩
  | down gui flag sip =>
    obtain ⟨-, -, -, ordered, numbered⟩ := hinv.start event
    rw [guiTurn, gui]
    exact ⟨.stranded (Or.inl rfl) flag sip, ordered, numbered, hinv.thid, hcbid⟩
  | notifying gui flag queue sip up call notBegun notEnded =>
    rw [guiTurn, gui]
    simp only [gt_iff_lt, hcbid, if_true]
    exact hinv.congr (.queued rfl flag rfl sip up call notBegun notEnded) rfl rfl ⟨rfl, rfl⟩
  | queued gui flag | calledBack gui flag | setting gui flag | shutting gui flag
  | closing gui flag | finishing gui flag =>
    rw [guiTurn, gui]
    simp only [flag, Bool.not_false, if_true]
    exact hinv
  | released gui flag queue sip up isOther call begun ended =>
    rcases gui with gui | gui
    · rw [guiTurn, gui]
      simp only [flag, Bool.not_true, Bool.false_eq_true, if_false]
      exact hinv.congr (.released (Or.inr rfl) flag queue sip up isOther call begun ended) rfl rfl
        ⟨rfl, rfl⟩
    · rw [guiTurn, gui]
      refine ⟨.idle rfl rfl queue sip up, ⟨⟨ended, call.live, fun hshut => ?_⟩, hinv.ordered⟩,
        hinv.numbered_cons (fun _ hk => (Option.some.inj hk).symm) call.started, hinv.thid, hcbid⟩
      exact absurd (call.only _ hshut).symm isOther
  | exited gui queue sip call begun ended left closed =>
    rcases gui with gui | gui
    · rw [guiTurn, gui]
      cases hflag : h.engine.callbackDone with
      | false =>
        simp only [Bool.not_false, if_true]
        exact hinv
      | true =>
        simp only [Bool.not_true, Bool.false_eq_true, if_false]
        exact hinv.congr (.exited (Or.inr rfl) queue sip call begun ended left closed) rfl rfl
          ⟨rfl, rfl⟩
    · rw [guiTurn, gui]
      exact ⟨.down rfl rfl sip, ⟨⟨ended, call.live, fun _ => ⟨left, closed⟩⟩, hinv.ordered⟩,
        hinv.numbered_cons (fun _ hk => (Option.some.inj hk).symm) call.started, hinv.thid, hcbid⟩
  | stranded gui flag sip =>
    rcases gui with gui | ⟨gui, queue⟩
    · rw [guiTurn, gui]
      simp only [gt_iff_lt, hcbid, if_true]
      exact hinv.congr (.stranded (Or.inr ⟨rfl, rfl⟩) flag sip) rfl rfl ⟨rfl, rfl⟩
    · rw [guiTurn, gui]
      simp only [flag, Bool.not_false, if_true]
      exact hinv

theorem registerStep_up (lib : Lib) {e : Engine} (hup : e.core.Up) :
    (registerStep lib e).core.Up := by
  rcases registerStep_cases lib e with ⟨-, hskips⟩ | ⟨-, -, hfails⟩ | ⟨-, -, hsends⟩
  · rw [hskips]
    exact hup
  · rw [hfails]
    exact hup
  · rw [hsends, core_changeState]
    exact ⟨hup.1, fun h => by cases h⟩

theorem callThreadBody_up {lib : Lib} {je : Option Event} {e e' : Engine}
    (h : callThreadBody lib je e = .ok e') (hup : e.core.Up) : e'.core.Up := by
  have hreg := registerStep_up lib hup
  rw [callThreadBody] at h
  by_cases hthread : (registerStep lib e).thread ≠ .looping
  · rw [if_pos hthread] at h
    rw [pure_eq_ok.1 h]
    exact hreg
  · rw [if_neg hthread] at h
    cases je with
    | none =>
      rw [pure_eq_ok.1 h, core_automatic]
      exact hreg
    | some je =>
      have harm : Arm {} (.poll lib (some je)) (((registerStep lib e).act .lock).act .unlock).core
          e'.core := callSwitch_arm h
      rw [core_automatic] at harm
      exact up_arm harm (fun _ => (by simp)) hreg

/-- What the callback does, but for a shutdown. -/
theorem guiSwitch_up {cfg : Config} {lib : Lib} {event : GuiEvent} {e e' : Engine} {done : Bool}
    (h : guiSwitch cfg lib event e = .ok (e', done)) (hevent : event ≠ .shutdown)
    (hup : e.core.Up) : e'.core.Up := by
  have hcallback : guiCallback cfg lib event e = .ok { e' with callbackDone := done } := by
    rw [guiCallback, h]
    rfl
  have hup' := up_arm (guiCallback_arm hcallback)
    (fun _ heq => hevent (Input.gui.inj heq).2) hup
  exact hup'

/-- A turn of a thread that waits: it goes on, is called back, or leaves its loop. -/
inductive Waited (h : Handshake) : Handshake → Prop
  | goesOn {e : Engine} {sip : Sip} (hsip : sip.Waiting) (hframe : e.frame = h.engine.frame)
      (hup : h.engine.core.Up → e.core.Up) : Waited h { h with engine := e, sip := sip }
  | calledBack {n : Nat} (hqueue : h.queue = some n) :
      Waited h ({ h with sip := .calledBack n, queue := none }.mark (.began n))
  | leaves (hquit : h.engine.quit = true) : Waited h ({ h with sip := .closing }.mark .leftLoop)

theorem waited_sipTurn {cfg : Config} {lib : Lib} {je : Option Event} {deliver : Bool}
    {h h' : Handshake} (hsip : h.sip.Waiting) (hturn : sipTurn cfg lib je deliver h = .ok h') :
    Waited h h' := by
  cases sipTurn_move hturn with
  | enters => exact .goesOn (Or.inr (Or.inl rfl)) rfl id
  | leaves _ hquit => exact .leaves hquit
  | begins _ hqueue => exact .calledBack hqueue
  | passes => exact .goesOn (Or.inr (Or.inr (Or.inl rfl))) rfl id
  | works _ hbody =>
    refine .goesOn ?_ (callThreadBody_frame hbody) (callThreadBody_up hbody)
    split
    · exact Or.inl rfl
    · exact Or.inr (Or.inr (Or.inr rfl))
  | stays => exact .goesOn hsip rfl id
  | callsBack hother | sets hother | closes hother | finishes hother =>
    rw [hother] at hsip
    exact absurd hsip (by simp [Sip.Waiting])

theorem not_quit_of_up {e : Engine} (hup : e.core.Up) : e.quit ≠ true :=
  Bool.eq_false_iff.1 hup.1

/-- A turn that goes on. -/
theorem HandshakeInv.goesOn {h : Handshake} (hinv : HandshakeInv h) {e : Engine} {sip : Sip}
    (hframe : e.frame = h.engine.frame) (hphase : Phase { h with engine := e, sip := sip }) :
    HandshakeInv { h with engine := e, sip := sip } :=
  hinv.congr hphase rfl rfl ⟨callThid_of_frame hframe, cbid_of_frame hframe⟩

theorem handshakeInv_sipTurn {cfg : Config} {lib : Lib} {je : Option Event} {deliver : Bool}
    {h h' : Handshake} (hinv : HandshakeInv h) (hturn : sipTurn cfg lib je deliver h = .ok h') :
    HandshakeInv h' := by
  cases hinv.phase with
  | idle gui flag queue sip up =>
    cases waited_sipTurn sip hturn with
    | goesOn hsip hframe hup =>
      exact hinv.goesOn hframe
        (.idle gui ((callbackDone_of_frame hframe).trans flag) queue hsip (hup up))
    | calledBack hqueue => exact absurd (queue.symm.trans hqueue) (by simp)
    | leaves hquit => exact absurd hquit (not_quit_of_up up)
  | notifying gui flag queue sip up call notBegun notEnded =>
    cases waited_sipTurn sip hturn with
    | goesOn hsip hframe hup =>
      exact hinv.goesOn hframe (.notifying gui ((callbackDone_of_frame hframe).trans flag) queue
        hsip (hup up) call notBegun notEnded)
    | calledBack hqueue => exact absurd (queue.symm.trans hqueue) (by simp)
    | leaves hquit => exact absurd hquit (not_quit_of_up up)
  | @queued n event gui flag queue sip up call notBegun notEnded =>
    cases waited_sipTurn sip hturn with
    | goesOn hsip hframe hup =>
      exact hinv.goesOn hframe (.queued gui ((callbackDone_of_frame hframe).trans flag) queue
        hsip (hup up) call notBegun notEnded)
    | calledBack hqueue =>
      obtain rfl := Option.some.inj (queue.symm.trans hqueue)
      refine ⟨.calledBack gui flag rfl rfl up (call.cons (by simp) (by simp)) List.mem_cons_self ?_,
        ⟨⟨⟨event, call.started⟩, notBegun, call.live⟩, hinv.ordered⟩,
        hinv.numbered_cons (fun _ hk => (Option.some.inj hk).symm) call.started, hinv.thid,
        hinv.cbid⟩
      exact fun hmem => (List.mem_cons.1 hmem).elim (by simp) notEnded
    | leaves hquit => exact absurd hquit (not_quit_of_up up)
  | @calledBack n event gui flag queue sip up call begun notEnded =>
    have hread : h.gui.frame n = some event := by rw [gui, Gui.frame, if_pos rfl]
    rw [sipTurn, sip] at hturn
    simp only [hread, deref, ok_bind] at hturn
    obtain ⟨⟨e, done⟩, hswitch, hturn⟩ := bind_eq_ok.1 hturn
    obtain ⟨hframe, hdone⟩ := guiSwitch_frame hinv.thid hswitch
    rw [pure_eq_ok.1 hturn]
    exact hinv.goesOn hframe (.setting gui ((callbackDone_of_frame hframe).trans flag) queue rfl
      hdone (fun hevent => guiSwitch_up hswitch hevent up) call begun notEnded)
  | @setting n event done gui flag queue sip isDone up call begun notEnded =>
    rw [sipTurn, sip] at hturn
    rw [pure_eq_ok.1 hturn]
    have hsip : Sip.delaying.Waiting := Or.inr (Or.inl rfl)
    have hended : .ended n ∈ Mark.ended n :: h.history := List.mem_cons_self
    have hcall : InCall n event (.ended n :: h.history) := call.cons (by simp) (by simp)
    refine ⟨?_, ⟨⟨begun, notEnded, call.live⟩, hinv.ordered⟩,
      hinv.numbered_cons (fun _ hk => (Option.some.inj hk).symm) call.started, hinv.thid, hinv.cbid⟩
    cases done with
    | true =>
      have hevent : event ≠ .shutdown := fun hevent => absurd (isDone.2 hevent) (by simp)
      exact .released (Or.inl gui) rfl queue hsip (up hevent) hevent hcall
        (List.mem_cons_of_mem _ begun) hended
    | false =>
      obtain rfl := isDone.1 rfl
      exact .shutting gui rfl queue hsip hcall (List.mem_cons_of_mem _ begun) hended
  | released gui flag queue sip up isOther call begun ended =>
    cases waited_sipTurn sip hturn with
    | goesOn hsip hframe hup =>
      exact hinv.goesOn hframe (.released gui ((callbackDone_of_frame hframe).trans flag) queue
        hsip (hup up) isOther call begun ended)
    | calledBack hqueue => exact absurd (queue.symm.trans hqueue) (by simp)
    | leaves hquit => exact absurd hquit (not_quit_of_up up)
  | shutting gui flag queue sip call begun ended =>
    cases waited_sipTurn sip hturn with
    | goesOn hsip hframe hup =>
      exact hinv.goesOn hframe (.shutting gui ((callbackDone_of_frame hframe).trans flag) queue
        hsip call begun ended)
    | calledBack hqueue => exact absurd (queue.symm.trans hqueue) (by simp)
    | leaves hquit =>
      exact ⟨.closing gui flag queue rfl (call.cons (by simp) (by simp))
        (List.mem_cons_of_mem _ begun) (List.mem_cons_of_mem _ ended) List.mem_cons_self,
        ⟨trivial, hinv.ordered⟩,
        hinv.numbered_cons (fun _ h => by cases h) call.started, hinv.thid, hinv.cbid⟩
  | closing gui flag queue sip call begun ended left =>
    rw [sipTurn, sip] at hturn
    rw [pure_eq_ok.1 hturn]
    exact ⟨.finishing gui flag queue rfl (call.cons (by simp) (by simp))
      (List.mem_cons_of_mem _ begun) (List.mem_cons_of_mem _ ended) (List.mem_cons_of_mem _ left)
      List.mem_cons_self, ⟨trivial, hinv.ordered⟩,
      hinv.numbered_cons (fun _ h => by cases h) call.started, hinv.thid, hinv.cbid⟩
  | finishing gui flag queue sip call begun ended left closed =>
    rw [sipTurn, sip] at hturn
    rw [pure_eq_ok.1 hturn]
    exact hinv.congr (.exited (Or.inl gui) queue rfl call begun ended left closed) rfl rfl
      ⟨rfl, rfl⟩
  | exited _ _ sip | down _ _ sip | stranded _ _ sip =>
    rw [sipTurn, sip] at hturn
    rw [pure_eq_ok.1 hturn]
    exact hinv

theorem handshakeInv_turn {cfg : Config} {t : Turn} {h h' : Handshake} (hinv : HandshakeInv h)
    (hturn : turn cfg t h = .ok h') : HandshakeInv h' := by
  cases t with
  | gui event => exact pure_eq_ok.1 hturn ▸ handshakeInv_guiTurn hinv event
  | sip lib je deliver => exact handshakeInv_sipTurn hinv hturn

/-! ## Every interleaving -/

/-- The two threads when the SIP thread is about to enter its loop. -/
def bootHandshake (cfg : Config) (callThid cbid ringbackfile cameraSetup cameraStart : Int) :
    Handshake where
  engine := boot cfg callThid cbid ringbackfile cameraSetup cameraStart

theorem handshakeInv_boot (cfg : Config) {callThid cbid : Int} (hthid : 0 < callThid)
    (hcbid : 0 < cbid) (ringbackfile cameraSetup cameraStart : Int) :
    HandshakeInv (bootHandshake cfg callThid cbid ringbackfile cameraSetup cameraStart) :=
  ⟨.idle rfl rfl rfl (Or.inl rfl) ⟨rfl, fun h => by cases h⟩, trivial, fun _ h => (by cases h),
    hthid, hcbid⟩

/-- **The law holds on every interleaving.**  `setupCallThread` stores the id of the thread before
it starts it, and the thread that of the callback before it enters its loop. -/
theorem handshake_ordered (cfg : Config) {callThid cbid : Int} (hthid : 0 < callThid)
    (hcbid : 0 < cbid) (ringbackfile cameraSetup cameraStart : Int) (turns : List Turn) :
    Machine.Always (turn cfg) HandshakeOk turns
      (bootHandshake cfg callThid cbid ringbackfile cameraSetup cameraStart) := by
  refine Machine.always_iff_run.2 fun js _ h hrun => HandshakeInv.ok ?_
  exact Machine.run_invariant HandshakeInv (fun _ _ _ => handshakeInv_turn)
    (handshakeInv_boot cfg hthid hcbid ringbackfile cameraSetup cameraStart) hrun

/-- A turn of the SIP thread, with nothing to handle. -/
def sipTurns (k : Nat) : List Turn :=
  List.replicate k (.sip {} none true)

/-- A call with a queued callback, up to the end of the callback. -/
def callTurns (event : GuiEvent) : List Turn :=
  [.gui event, .gui event] ++ sipTurns 4

theorem handshake_ordered_hangup : ∃ h,
    Machine.run (turn {}) (callTurns .hangup ++ [.gui .hangup, .gui .hangup])
      (bootHandshake {} 1 1 (-1) 0 0) = .ok h ∧ .returned 0 ∈ h.history ∧ HandshakeOk h := by
  obtain ⟨h, hrun, hp⟩ := Machine.exists_of_okAnd
    (show Machine.okAnd (Machine.run (turn {}) (callTurns .hangup ++ [.gui .hangup, .gui .hangup])
      (bootHandshake {} 1 1 (-1) 0 0)) (fun h => decide (.returned 0 ∈ h.history)) = true
      by decide +kernel)
  have hok := handshake_ordered {} (show 0 < (1 : Int) by decide) (show 0 < (1 : Int) by decide)
    (-1) 0 0 (callTurns .hangup ++ [.gui .hangup, .gui .hangup])
  exact ⟨h, hrun, of_decide_eq_true hp,
    Machine.always_iff_run.1 hok _ (List.prefix_refl _) h hrun⟩

/-- A call that is made after the engine was shut down: the SIP thread goes on to its end, and the
user interface returns and calls again. -/
def callAgainTurns : List Turn :=
  callTurns .shutdown ++ sipTurns 5 ++ [.gui .shutdown, .gui .shutdown, .gui .hangup, .gui .hangup]

/-- Its callback never runs, and it never returns. -/
theorem no_callback_after_shutdown : ∃ h,
    Machine.run (turn {}) callAgainTurns (bootHandshake {} 1 1 (-1) 0 0) = .ok h ∧
      .started 1 .hangup ∈ h.history ∧ .began 1 ∉ h.history ∧
      ∀ turns, Machine.run (turn {}) turns h = .ok h := by
  obtain ⟨h, hrun, hp⟩ := Machine.exists_of_okAnd
    (show Machine.okAnd (Machine.run (turn {}) callAgainTurns (bootHandshake {} 1 1 (-1) 0 0))
      (fun h => decide (h.gui = .spinning 1 .hangup ∧ h.sip = .exited ∧
        h.engine.callbackDone = false ∧ .started 1 .hangup ∈ h.history ∧
        .began 1 ∉ h.history)) = true by decide +kernel)
  obtain ⟨hgui, hsip, hflag, hstarted, hbegan⟩ := of_decide_eq_true hp
  refine ⟨h, hrun, hstarted, hbegan, fun turns => ?_⟩
  have hstuck (t : Turn) : turn {} t h = .ok h := by
    cases t with
    | gui event => simp [turn, guiTurn, hgui, hflag]
    | sip lib je deliver => simp [turn, sipTurn, hsip]
  induction turns with
  | nil => rfl
  | cons t turns ih => exact Machine.run_cons_ok.2 ⟨h, hstuck t, ih⟩

end Furikup
