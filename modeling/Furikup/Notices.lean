import Furikup.Steps

/-!
# What the engine tells the user interface

`ChangeState` tells of the new state before it is entered, and a call that comes in is announced
before that.  To the user interface the engine is a small state diagram whose edges carry notices.

* `View` — the state, and what has been told.
* `Edge` — the edges of the diagram.  Entering `eDISCONNECTING` is the one that carries nothing.
* `step_moves` — **every step of the engine follows edges of the diagram.**
-/

set_option autoImplicit false

namespace Furikup

open CText CallState

/-! ## The diagram -/

/-- What is passed to `gEventFunction`. -/
def Action.isTold : Action → Bool
  | .notice _ => true
  | .incomingCall .. => true
  | _ => false

def Engine.told (e : Engine) : List Action :=
  e.log.filter Action.isTold

/-- The state and what has been told, latest first. -/
abbrev View := CallState × List Action

def Engine.view (e : Engine) : View :=
  (e.currentState, e.told)

/-- The code of a state for the user interface.  It keeps the one of `eREGISTERED` while the engine
is disconnecting. -/
def CallState.sipState : CallState → Int
  | eNotRegistered => 0
  | eRegistering => 1
  | eRegistered => 2
  | eInCall => 3
  | eIncomingCall => 4
  | eAnswered => 5
  | eDisconnecting => 2

/-- The changes of state that are only told of. -/
inductive Leads : CallState → CallState → Prop
  | registering : Leads eNotRegistered eRegistering
  | registered : Leads eRegistering eRegistered
  | makeCall : Leads eRegistered eInCall
  | answered {state : CallState} (h : state.Ringing) : Leads state eAnswered
  | ended {state : CallState} (h : state.Busy) : Leads state eRegistered
  | disconnected : Leads eDisconnecting eNotRegistered

/-- The edges of the diagram. -/
inductive Edge : View → View → Prop
  /-- Something other than a state is told. -/
  | tells {state : CallState} {told : List Action} {n : Notice} (h : ∀ s, n ≠ .sipState s) :
      Edge (state, told) (state, .notice n :: told)
  | enters {state state' : CallState} {told : List Action} (h : Leads state state') :
      Edge (state, told) (state', .notice (.sipState state'.sipState) :: told)
  | announces {told : List Action} {cid : Int} {displayname : Option Text} {index : Int} :
      Edge (eRegistered, told) (eIncomingCall,
        .notice (.sipState eIncomingCall.sipState) :: .incomingCall cid displayname index :: told)
  /-- Nothing is told. -/
  | disconnects {told : List Action} : Edge (eRegistered, told) (eDisconnecting, told)

/-- A path in the diagram. -/
abbrev Moves : View → View → Prop := Relation.ReflTransGen Edge

@[simp] theorem view_act_other {e : Engine} {a : Action} (h : a.isTold = false) :
    (e.act a).view = e.view := by
  simp [Engine.view, Engine.told, Engine.act, h]

@[simp] theorem view_act_told {e : Engine} {a : Action} (h : a.isTold = true) :
    (e.act a).view = (e.currentState, a :: e.told) := by
  simp [Engine.view, Engine.told, Engine.act, h]

theorem view_changeState {state : CallState} (h : state ≠ eDisconnecting) (e : Engine) :
    (changeState state e).view = (state, .notice (.sipState state.sipState) :: e.told) := by
  cases state with
  | eDisconnecting => exact absurd rfl h
  | _ => rfl

theorem Leads.ne_disconnecting {state state' : CallState} (h : Leads state state') :
    state' ≠ eDisconnecting := by
  cases h with
  | _ => decide

/-- A change of state along an edge. -/
theorem moves_changeState {e x : Engine} {state : CallState} (hview : x.view = e.view)
    (h : Leads e.currentState state) : Moves e.view (changeState state x).view := by
  have htold : x.told = e.told := congrArg Prod.snd hview
  rw [view_changeState h.ne_disconnecting, htold]
  exact .single (.enters h)

/-- The lock and the requests are not told. -/
theorem view_bracket (e : Engine) {a : Action} (ha : a.isTold = false) :
    (((e.act .lock).act a).act .unlock).view = e.view := by
  rw [view_act_other rfl, view_act_other ha, view_act_other rfl]

theorem view_automatic (e : Engine) : ((e.act .lock).act .unlock).view = e.view := by
  rw [view_act_other rfl, view_act_other rfl]

/-! ## Commands of the user -/

theorem moves_makeCall {cfg : Config} {lib : Lib} {user : Text} {e e' : Engine}
    (h : makeCall cfg lib user e = .ok e') : Moves e.view e'.view := by
  obtain ⟨-, rfl⟩ | ⟨-, -, rfl⟩ | ⟨hstate, -, sdp, ports, -, rfl⟩ := makeCall_cases h
  · exact .refl
  · rw [view_act_told rfl]
    exact .single (.tells (by simp))
  · exact moves_changeState (view_bracket { e with sdp := sdp, ports := ports } rfl)
      (hstate ▸ .makeCall)

theorem view_answerCall {cfg : Config} {lib : Lib} {e e' : Engine}
    (h : answerCall cfg lib e = .ok e') : e'.view = e.view := by
  obtain ⟨-, rfl⟩ | ⟨-, -, sdp, ports, -, rfl⟩ := answerCall_cases h
  · rfl
  · exact view_bracket { e with sdp := sdp, ports := ports } rfl

theorem moves_hangupCall (e : Engine) : Moves e.view (hangupCall e).view := by
  by_cases hbusy : e.currentState.Busy
  · rw [hangupCall_of_busy hbusy]
    exact moves_changeState (view_bracket e rfl) (.ended hbusy)
  · rw [hangupCall_of_not_busy hbusy]

theorem moves_disconnectSipServer (e : Engine) : Moves e.view (disconnectSipServer e).view := by
  have hunregister {e₁ : Engine} (hstate : e₁.currentState = eRegistered) : Moves e₁.view
      ((((changeState eDisconnecting e₁).act .lock).act (.register e₁.rid 0)).act .lock).view := by
    rw [view_act_other rfl, view_act_other rfl, view_act_other rfl, Engine.view, hstate]
    exact .single .disconnects
  rcases disconnectSipServer_cases e with ⟨hcall, heq⟩ | ⟨hstate, heq⟩ | ⟨-, -, heq⟩
  · have hbusy : e.currentState.Busy := hcall.elim Or.inl fun h => Or.inr (Or.inl h)
    have hstate : (hangupCall e).currentState = eRegistered :=
      congrArg Core.currentState (core_hangupCall hbusy)
    rw [heq]
    exact (moves_hangupCall e).trans (hunregister hstate)
  · rw [heq]
    exact hunregister hstate
  · rw [heq]
    split
    · exact .refl
    · exact .refl

theorem view_updatePresence (lib : Lib) (presence : Int) (e : Engine) :
    (updatePresence lib presence e).view = e.view := by
  rw [updatePresence]
  split
  · rfl
  · exact view_bracket e rfl

theorem moves_guiCallback {cfg : Config} {lib : Lib} {event : GuiEvent} {e e' : Engine}
    (h : guiCallback cfg lib event e = .ok e') : Moves e.view e'.view := by
  obtain ⟨e₁, done, hcommand, rfl⟩ := guiCallback_command h
  change Moves e.view e₁.view
  cases hcommand with
  | newCall _ hcall => exact moves_makeCall hcall
  | answer hcall => rw [view_answerCall hcall]
  | hangup => exact moves_hangupCall e
  | changePresence => rw [view_updatePresence]
  | shutdown => exact moves_disconnectSipServer e
  | unknown => exact .refl

/-! ## Events of the SIP library -/

theorem view_onInSubscriptionNew (lib : Lib) (je : Event) (e : Engine) :
    (onInSubscriptionNew lib je e).view = e.view := by
  have hreturn (e₁ : Engine) : ({ e₁.act (.insubscriptionAnswer je.tid 400) with
      thread := .returned 0 } : Engine).view = e₁.view :=
    view_act_other (e := e₁) (a := .insubscriptionAnswer je.tid 400) rfl
  rcases onInSubscriptionNew_cases lib je e with ⟨-, -, heq⟩ | ⟨-, -, heq⟩ | ⟨-, heq⟩
  · rw [heq, view_act_other rfl, view_act_other rfl, view_act_other rfl]
  · rw [heq, hreturn, view_act_other rfl, view_act_other rfl]
  · rw [heq, hreturn, view_act_other rfl]

theorem moves_startMedia {lib : Lib} {tid : Int} {incoming : Bool} {e e' : Engine}
    (hstate : e.currentState.Ringing) (h : startMedia lib tid incoming e = .ok e') :
    Moves e.view e'.view := by
  obtain ⟨audio, -, video, -, rfl⟩ := startMedia_eq_ok.1 h
  exact moves_changeState (x := { e with audio := audio, video := video }) rfl (.answered hstate)

/-- A call that is being set up ends with an error message. -/
theorem moves_callFailed {e : Engine} (hstate : e.currentState.Ringing) (text : Text) :
    Moves e.view (changeState eRegistered (e.act (.notice (.errorMessage text)))).view := by
  have htold : Edge e.view (e.act (.notice (.errorMessage text))).view := by
    rw [view_act_told rfl]
    exact .tells (by simp)
  refine .head htold ?_
  exact moves_changeState (e := e.act (.notice (.errorMessage text))) rfl (.ended hstate.busy)

theorem moves_callSwitch {lib : Lib} {je : Event} {e e' : Engine}
    (h : callSwitch lib je e = .ok e') : Moves e.view e'.view := by
  cases callSwitch_handled h with
  | ignored => exact .refl
  | registered hstate =>
    have htold : Edge e.view (e.act (.notice (.startup 2))).view := by
      rw [view_act_told rfl]
      exact .tells (by simp)
    refine .head htold ?_
    exact moves_changeState (e := e.act (.notice (.startup 2))) rfl (hstate ▸ .registered)
  | invited hstate =>
    rw [view_changeState (by decide), Engine.view, hstate]
    exact .single .announces
  | subscribed => rw [view_onInSubscriptionNew]
  | ringing => exact .refl
  | answered hstate _ hmedia =>
    rw [← view_bracket e (a := .ack je.did) rfl]
    exact moves_startMedia (by exact hstate) hmedia
  | ack hstate _ hmedia =>
    exact moves_startMedia (e := { e with cid := je.cid, did := je.did }) hstate hmedia
  | ended hstate => exact moves_changeState rfl (.ended hstate.busy)
  | failed hstate => exact moves_callFailed hstate _
  | closed hstate => exact moves_changeState rfl (hstate ▸ .ended (Or.inr (Or.inl rfl)))
  | disconnected hstate =>
    change Moves e.view (changeState eNotRegistered e).view
    exact moves_changeState rfl (hstate ▸ .disconnected)

/-! ## The thread -/

theorem moves_registerStep (lib : Lib) (e : Engine) : Moves e.view (registerStep lib e).view := by
  rcases registerStep_cases lib e with ⟨-, hskips⟩ | ⟨-, -, hfails⟩ | ⟨hstate, -, hsends⟩
  · rw [hskips]
  · rw [hfails]
    exact .refl
  · have hsent := view_bracket e (a := .register lib.registerId 120) rfl
    have htold : Edge e.view ((((e.act .lock).act (.register lib.registerId 120)).act .unlock).act
        (.notice (.startup 1))).view := by
      rw [view_act_told rfl, ← hsent]
      exact .tells (by simp)
    rw [hsends]
    refine .head htold ?_
    exact moves_changeState rfl (by exact hstate ▸ .registering)

@[simp] theorem view_loopTest (e : Engine) : (loopTest e).view = e.view := by
  rw [loopTest]
  split
  · exact view_act_other (e := e) (a := .closeLog) rfl
  · rfl

theorem moves_callThread {lib : Lib} {je : Option Event} {e e' : Engine}
    (h : callThread lib je e = .ok e') : Moves e.view e'.view := by
  obtain ⟨e₁, hbody, h⟩ := bind_eq_ok.1 h
  rw [pure_eq_ok.1 h, view_loopTest]
  refine (moves_registerStep lib e).trans ?_
  rw [callThreadBody] at hbody
  split at hbody
  · rw [pure_eq_ok.1 hbody]
  · rw [← view_automatic (registerStep lib e)]
    cases je with
    | none => rw [pure_eq_ok.1 hbody]
    | some je => exact moves_callSwitch hbody

/-- **Every step follows the diagram.** -/
theorem step_moves {cfg : Config} {i : Input} {e e' : Engine} (h : step cfg i e = .ok e') :
    Moves e.view e'.view := by
  rw [step.eq_def] at h
  split at h
  · cases i with
    | gui lib event => exact moves_guiCallback h
    | poll lib je => exact moves_callThread h
  · rw [pure_eq_ok.1 h]

end Furikup
