import Furikup.Handshake
import Furikup.Locks

/-!
# The exits of the engine's thread

`CallThread` ends in three places: the registration cannot be built, a subscription cannot be
answered, or the loop was left.  Only the last sets the flag that a waiting user interface spins on,
and none takes back the id of the callback, so a call that is made afterwards is queued for a thread
that is not there.

* `CanReturn` — some schedule leads a call of `SIPEngineDoEvent` to its return.
* `StrandsNobody` — once the thread has ended, whoever is in a call can return.
* `exit_strands_nobody_iff` — **the schedules on which nobody is stranded**: the thread does not
  end in the middle while a call waits for its callback, and no call is made once it has ended.
-/

set_option autoImplicit false

namespace Furikup

open CText CallState

/-! ## Being able to return -/

/-- The SIP thread is through. -/
def Handshake.Ended (h : Handshake) : Prop :=
  h.sip = .exited ∨ h.sip = .returned

instance (h : Handshake) : Decidable h.Ended := inferInstanceAs (Decidable (_ ∨ _))

/-- The call of `SIPEngineDoEvent` the user interface is in. -/
def Gui.call : Gui → Option Nat
  | .idle => none
  | .notifying n _ | .spinning n _ | .resetting n _ => some n

/-- The call can return. -/
def CanReturn (cfg : Config) (n : Nat) (h : Handshake) : Prop :=
  ∃ turns h', Machine.run (turn cfg) turns h = .ok h' ∧ .returned n ∈ h'.history

/-- Once the thread has ended, the call the user interface is in can return. -/
def StrandsNobody (cfg : Config) (h : Handshake) : Prop :=
  h.Ended → ∀ n, h.gui.call = some n → CanReturn cfg n h

/-- The turns that strand nobody: if there is a callback, no call is started once the thread has
ended, and the thread does not end in the middle while a call waits. -/
def ReleasesCalls (h : Handshake) : Turn → Prop
  | .gui _ => 0 < h.engine.cbid → h.Ended → h.gui ≠ .idle
  | .sip lib je _ => 0 < h.engine.cbid →
    h.sip = .working → Bails lib je h.engine → h.gui = .idle ∨ h.engine.callbackDone = true

instance (h : Handshake) : ∀ t, Decidable (ReleasesCalls h t)
  | .gui _ => inferInstanceAs (Decidable (0 < h.engine.cbid → h.Ended → h.gui ≠ .idle))
  | .sip lib je _ => inferInstanceAs (Decidable (0 < h.engine.cbid → h.sip = .working →
      Bails lib je h.engine → h.gui = .idle ∨ h.engine.callbackDone = true))

/-! ## Where the thread is -/

@[simp] theorem thread_hangupCall (e : Engine) : (hangupCall e).thread = e.thread := by
  by_cases hbusy : e.currentState.Busy
  · rw [hangupCall_of_busy hbusy, thread_changeState]
    rfl
  · rw [hangupCall_of_not_busy hbusy]

theorem thread_disconnectSipServer (e : Engine) :
    (disconnectSipServer e).thread = e.thread := by
  have hunregister (e₁ : Engine) :
      ((((changeState eDisconnecting e₁).act .lock).act (.register e₁.rid 0)).act .lock).thread =
        e₁.thread :=
    thread_changeState eDisconnecting e₁
  rcases disconnectSipServer_cases e with ⟨-, heq⟩ | ⟨-, heq⟩ | ⟨-, -, heq⟩
  · rw [heq, hunregister, thread_hangupCall]
  · rw [heq, hunregister]
  · rw [heq]
    split
    · rfl
    · rfl

theorem thread_makeCall {cfg : Config} {lib : Lib} {user : Text} {e e' : Engine}
    (h : makeCall cfg lib user e = .ok e') : e'.thread = e.thread := by
  obtain ⟨-, rfl⟩ | ⟨-, -, rfl⟩ | ⟨-, -, sdp, ports, -, rfl⟩ := makeCall_cases h
  · rfl
  · rfl
  · rw [thread_changeState]
    rfl

theorem thread_answerCall {cfg : Config} {lib : Lib} {e e' : Engine}
    (h : answerCall cfg lib e = .ok e') : e'.thread = e.thread := by
  obtain ⟨-, rfl⟩ | ⟨-, -, sdp, ports, -, rfl⟩ := answerCall_cases h
  · rfl
  · rfl

/-- The callback does not end the thread. -/
theorem thread_guiSwitch {cfg : Config} {lib : Lib} {event : GuiEvent} {e e' : Engine} {done : Bool}
    (h : guiSwitch cfg lib event e = .ok (e', done)) : e'.thread = e.thread := by
  cases (guiSwitch_command h).1 with
  | newCall _ hcall => exact thread_makeCall hcall
  | answer hcall => exact thread_answerCall hcall
  | hangup => exact thread_hangupCall e
  | changePresence =>
    rw [updatePresence]
    split
    · rfl
    · rfl
  | shutdown => exact thread_disconnectSipServer e
  | unknown => rfl

/-- Until it has ended, the thread is in its loop. -/
def InLoop (h : Handshake) : Prop :=
  ¬h.Ended → h.engine.thread = .looping

/-- A turn of the user interface leaves the thread where it is. -/
theorem guiTurn_sip (event : GuiEvent) (h : Handshake) :
    (guiTurn event h).sip = h.sip ∧ (guiTurn event h).engine.thread = h.engine.thread := by
  rw [guiTurn.eq_def]
  split
  · exact ⟨rfl, rfl⟩
  · split
    · exact ⟨rfl, rfl⟩
    · exact ⟨rfl, rfl⟩
  · split
    · exact ⟨rfl, rfl⟩
    · exact ⟨rfl, rfl⟩
  · exact ⟨rfl, rfl⟩

theorem ended_guiTurn {event : GuiEvent} {h : Handshake} :
    (guiTurn event h).Ended ↔ h.Ended := by
  rw [Handshake.Ended, Handshake.Ended, (guiTurn_sip event h).1]

theorem inLoop_turn {cfg : Config} {t : Turn} {h h' : Handshake} (hinv : InLoop h)
    (hturn : turn cfg t h = .ok h') : InLoop h' := by
  cases t with
  | gui event =>
    rw [pure_eq_ok.1 hturn, InLoop, ended_guiTurn, (guiTurn_sip event h).2]
    exact hinv
  | sip lib je deliver =>
    have hlooping {sip : Sip} (hsip : h.sip = sip) (hlive : ¬(sip = .exited ∨ sip = .returned)) :
        h.engine.thread = .looping :=
      hinv fun hended => hlive (hsip ▸ hended)
    cases sipTurn_move hturn with
    | enters hsip | leaves hsip | begins hsip | passes hsip | sets hsip | closes hsip =>
      exact fun _ => hlooping hsip (by simp)
    | callsBack hsip _ hswitch =>
      exact fun _ => (thread_guiSwitch hswitch).trans (hlooping hsip (by simp))
    | works hsip hbody =>
      intro hnot
      by_contra hthread
      refine hnot (Or.inr ?_)
      exact if_neg hthread
    | finishes => exact fun hnot => absurd (Or.inl rfl) hnot
    | stays => exact hinv

/-! ## Stranded -/

/-- Call `n` waits for a flag that nobody will set. -/
structure Stuck (n : Nat) (h : Handshake) : Prop where
  ended : h.Ended
  cbid : 0 < h.engine.cbid
  flag : h.engine.callbackDone = false
  waits : ∃ event, h.gui = .notifying n event ∨ h.gui = .spinning n event
  live : .returned n ∉ h.history

/-- The SIP thread does nothing once it has ended. -/
theorem sipTurn_ended {cfg : Config} {lib : Lib} {je : Option Event} {deliver : Bool}
    {h h' : Handshake} (hended : h.Ended) (hturn : sipTurn cfg lib je deliver h = .ok h') :
    h' = h := by
  rcases hended with hsip | hsip
  · rw [sipTurn, hsip] at hturn
    exact pure_eq_ok.1 hturn
  · rw [sipTurn, hsip] at hturn
    exact pure_eq_ok.1 hturn

theorem stuck_turn {cfg : Config} {n : Nat} {t : Turn} {h h' : Handshake} (hstuck : Stuck n h)
    (hturn : turn cfg t h = .ok h') : Stuck n h' := by
  cases t with
  | gui event =>
    rw [pure_eq_ok.1 hturn]
    obtain ⟨event', hgui | hgui⟩ := hstuck.waits
    · rw [guiTurn, hgui]
      simp only [gt_iff_lt, hstuck.cbid, if_true]
      exact ⟨hstuck.ended, hstuck.cbid, hstuck.flag, ⟨event', Or.inr rfl⟩, hstuck.live⟩
    · rw [guiTurn, hgui]
      simp only [hstuck.flag, Bool.not_false, if_true]
      exact hstuck
  | sip lib je deliver =>
    rw [sipTurn_ended hstuck.ended hturn]
    exact hstuck

theorem Stuck.not_canReturn {cfg : Config} {n : Nat} {h : Handshake} (hstuck : Stuck n h) :
    ¬CanReturn cfg n h := by
  rintro ⟨turns, h', hrun, hreturned⟩
  have hstuck' : Stuck n h' :=
    Machine.run_invariant (Stuck n) (fun _ _ _ => stuck_turn) hstuck hrun
  exact hstuck'.live hreturned

theorem Stuck.strands {cfg : Config} {n : Nat} {h : Handshake} (hstuck : Stuck n h) :
    ¬StrandsNobody cfg h := by
  intro hnobody
  refine hstuck.not_canReturn (hnobody hstuck.ended n ?_)
  obtain ⟨event, hgui | hgui⟩ := hstuck.waits
  · rw [hgui, Gui.call]
  · rw [hgui, Gui.call]

/-! ## Released -/

/-- Once the thread has ended, the call that is left has its flag, or has seen it. -/
def Freed (h : Handshake) : Prop :=
  h.Ended → ∀ n, h.gui.call = some n → ∃ event,
    h.gui = .spinning n event ∧ h.engine.callbackDone = true ∨ h.gui = .resetting n event

theorem Freed.strandsNobody {cfg : Config} {h : Handshake} (hfreed : Freed h) :
    StrandsNobody cfg h := by
  intro hended n hn
  obtain ⟨event, ⟨hgui, hflag⟩ | hgui⟩ := hfreed hended n hn
  · refine ⟨[.gui event, .gui event], _, rfl, ?_⟩
    have hreset : guiTurn event h = { h with gui := .resetting n event } := by
      rw [guiTurn, hgui]
      simp [hflag]
    rw [hreset]
    exact List.mem_cons_self
  · refine ⟨[.gui event], _, rfl, ?_⟩
    rw [guiTurn, hgui]
    exact List.mem_cons_self

/-- What carries the induction. -/
structure ExitInv (h : Handshake) : Prop where
  handshake : HandshakeInv h
  inLoop : InLoop h
  freed : Freed h

/-- The thread is in its loop at its work. -/
theorem ExitInv.looping {h : Handshake} (hinv : ExitInv h) (hsip : h.sip = .working) :
    h.engine.thread = .looping :=
  hinv.inLoop (by simp [Handshake.Ended, hsip])

/-- A turn that ends the thread is the last one of the loop, or one in the middle. -/
theorem ended_sipTurn {cfg : Config} {lib : Lib} {je : Option Event} {deliver : Bool}
    {h h' : Handshake} (hinv : ExitInv h) (hnot : ¬h.Ended)
    (hturn : sipTurn cfg lib je deliver h = .ok h') (hended : h'.Ended) :
    h'.gui = h.gui ∧
      (h.sip = .finishing ∧ h'.engine.callbackDone = true ∨
        h.sip = .working ∧ Bails lib je h.engine ∧
          h'.engine.frame = h.engine.frame ∧ h'.history = h.history) := by
  cases sipTurn_move hturn with
  | enters | passes | callsBack => exact absurd hended (by simp [Handshake.Ended])
  | leaves | begins | sets | closes =>
    exact absurd hended (by simp [Handshake.Ended, Handshake.mark])
  | @works e hsip hbody =>
    refine ⟨rfl, Or.inr ⟨hsip, ?_, callThreadBody_frame hbody, rfl⟩⟩
    refine (callThreadBody_spec (hinv.looping hsip) hbody).2.1 fun hthread => ?_
    simp [Handshake.Ended, hthread] at hended
  | finishes hsip => exact ⟨rfl, Or.inl ⟨hsip, rfl⟩⟩
  | stays hsip => exact absurd hsip hnot

/-! ## The law -/

theorem freed_guiTurn {event : GuiEvent} {h : Handshake} (hfreed : Freed h)
    (hcbid : 0 < h.engine.cbid) (hreleases : ReleasesCalls h (.gui event)) :
    Freed (guiTurn event h) := by
  intro hended n hn
  have hended : h.Ended := ended_guiTurn.1 hended
  cases hgui : h.gui with
  | idle => exact absurd hgui (hreleases hcbid hended)
  | notifying k event' =>
    obtain ⟨event₁, ⟨hspin, -⟩ | hreset⟩ := hfreed hended k (by rw [hgui, Gui.call])
    · exact absurd (hgui.symm.trans hspin) (by simp)
    · exact absurd (hgui.symm.trans hreset) (by simp)
  | spinning k event' =>
    obtain ⟨event₁, ⟨-, hflag⟩ | hreset⟩ := hfreed hended k (by rw [hgui, Gui.call])
    · rw [guiTurn, hgui] at hn ⊢
      simp only [hflag, Bool.not_true, Bool.false_eq_true, if_false] at hn ⊢
      obtain rfl := Option.some.inj hn
      exact ⟨event', Or.inr rfl⟩
    · exact absurd (hgui.symm.trans hreset) (by simp)
  | resetting k event' =>
    rw [guiTurn, hgui] at hn
    cases hn

/-- A call that waits while the flag is unset, at the work of the thread, has not returned. -/
theorem HandshakeInv.waits {h : Handshake} (hinv : HandshakeInv h) (hsip : h.sip = .working)
    (hgui : h.gui ≠ .idle) (hflag : h.engine.callbackDone = false) :
    ∃ n, .returned n ∉ h.history ∧
      ∃ event, h.gui = .notifying n event ∨ h.gui = .spinning n event := by
  cases hinv.phase with
  | idle gui => exact absurd gui hgui
  | @notifying n event gui _ _ _ _ call => exact ⟨n, call.live, event, Or.inl gui⟩
  | @queued n event gui _ _ _ _ call => exact ⟨n, call.live, event, Or.inr gui⟩
  | released _ flag => exact absurd (hflag.symm.trans flag) (by simp)
  | @shutting n gui _ _ _ call => exact ⟨n, call.live, .shutdown, Or.inr gui⟩
  | calledBack _ _ _ sip | setting _ _ _ sip | closing _ _ _ sip | finishing _ _ _ sip
  | exited _ _ sip | down _ _ sip | stranded _ _ sip =>
    exact absurd (hsip.symm.trans sip) (by simp)

/-- The last turn of the thread finds the user interface in the call that shuts the engine down. -/
theorem HandshakeInv.shutsDown {h : Handshake} (hinv : HandshakeInv h)
    (hsip : h.sip = .finishing) : ∃ n, h.gui = .spinning n .shutdown := by
  cases hinv.phase with
  | finishing gui => exact ⟨_, gui⟩
  | idle _ _ _ sip | notifying _ _ _ sip | queued _ _ _ sip | released _ _ _ sip
  | shutting _ _ _ sip => exact absurd (hsip ▸ sip) (by simp [Sip.Waiting])
  | calledBack _ _ _ sip | setting _ _ _ sip | closing _ _ _ sip
  | exited _ _ sip | down _ _ sip | stranded _ _ sip =>
    exact absurd (hsip.symm.trans sip) (by simp)

theorem freed_sipTurn {cfg : Config} {lib : Lib} {je : Option Event} {deliver : Bool}
    {h h' : Handshake} (hinv : ExitInv h) (hreleases : ReleasesCalls h (.sip lib je deliver))
    (hturn : sipTurn cfg lib je deliver h = .ok h') : Freed h' := by
  by_cases hended : h.Ended
  · rw [sipTurn_ended hended hturn]
    exact hinv.freed
  · intro hended' n hn
    obtain ⟨hgui, ⟨hsip, hflag⟩ | ⟨hsip, hbails, hframe, -⟩⟩ :=
      ended_sipTurn hinv hended hturn hended'
    · obtain ⟨k, hspin⟩ := hinv.handshake.shutsDown hsip
      rw [hgui, hspin] at hn
      obtain rfl := Option.some.inj hn
      exact ⟨.shutdown, Or.inl ⟨hgui.trans hspin, hflag⟩⟩
    · have hkept : h'.engine.callbackDone = h.engine.callbackDone :=
        callbackDone_of_frame hframe
      rcases hreleases hinv.handshake.cbid hsip hbails with hidle | hflag
      · rw [hgui, hidle] at hn
        cases hn
      · cases hg : h.gui with
        | idle =>
          rw [hgui, hg] at hn
          cases hn
        | notifying k event =>
          -- the flag is not set before the callback has been queued
          cases hinv.handshake.phase with
          | notifying _ flag => exact absurd (hflag.symm.trans flag) (by simp)
          | stranded _ flag => exact absurd (hflag.symm.trans flag) (by simp)
          | released gui => rcases gui with gui | gui <;> exact absurd (hg.symm.trans gui) (by simp)
          | exited gui => rcases gui with gui | gui <;> exact absurd (hg.symm.trans gui) (by simp)
          | idle gui | queued gui | calledBack gui | setting gui | shutting gui | closing gui
          | finishing gui | down gui => exact absurd (hg.symm.trans gui) (by simp)
        | spinning k event =>
          rw [hgui, hg] at hn
          obtain rfl := Option.some.inj hn
          exact ⟨event, Or.inl ⟨hgui.trans hg, hkept.trans hflag⟩⟩
        | resetting k event =>
          rw [hgui, hg] at hn
          obtain rfl := Option.some.inj hn
          exact ⟨event, Or.inr (hgui.trans hg)⟩

theorem exitInv_turn {cfg : Config} {t : Turn} {h h' : Handshake} (hinv : ExitInv h)
    (hreleases : ReleasesCalls h t) (hturn : turn cfg t h = .ok h') : ExitInv h' where
  handshake := handshakeInv_turn hinv.handshake hturn
  inLoop := inLoop_turn hinv.inLoop hturn
  freed := by
    cases t with
    | gui event => exact pure_eq_ok.1 hturn ▸ freed_guiTurn hinv.freed hinv.handshake.cbid hreleases
    | sip lib je deliver => exact freed_sipTurn hinv hreleases hturn

/-- A turn that does not release the calls strands one. -/
theorem stuck_of_not_releases {cfg : Config} {t : Turn} {h h' : Handshake} (hinv : ExitInv h)
    (hnot : ¬ReleasesCalls h t) (hturn : turn cfg t h = .ok h') : ∃ n, Stuck n h' := by
  have hcbid : 0 < h'.engine.cbid := (handshakeInv_turn hinv.handshake hturn).cbid
  cases t with
  | gui event =>
    obtain ⟨-, hnot⟩ := Classical.not_imp.1 hnot
    obtain ⟨hended, hidle⟩ := Classical.not_imp.1 hnot
    have hidle : h.gui = .idle := not_not.1 hidle
    obtain ⟨call, -, -, -, -⟩ := hinv.handshake.start event
    rw [pure_eq_ok.1 hturn] at hcbid ⊢
    refine ⟨h.calls, ended_guiTurn.2 hended, hcbid, ?_, ?_, ?_⟩
    · rw [guiTurn, hidle]
      exact hinv.handshake.phase.flag hidle
    · rw [guiTurn, hidle]
      exact ⟨event, Or.inl rfl⟩
    · rw [guiTurn, hidle]
      exact call.live
  | sip lib je deliver =>
    obtain ⟨-, hnot⟩ := Classical.not_imp.1 hnot
    obtain ⟨hsip, hnot⟩ := Classical.not_imp.1 hnot
    obtain ⟨hbails, hnot⟩ := Classical.not_imp.1 hnot
    obtain ⟨hgui, hflag⟩ := not_or.1 hnot
    have hflag : h.engine.callbackDone = false := Bool.eq_false_iff.2 hflag
    obtain ⟨n, hlive, event, hwaits⟩ := hinv.handshake.waits hsip hgui hflag
    obtain ⟨e, hbody, rfl⟩ := (sipTurn_working hsip).1 hturn
    have hthread : e.thread ≠ .looping :=
      (callThreadBody_spec (hinv.looping hsip) hbody).2.2 hbails
    refine ⟨n, Or.inr (if_neg hthread), hcbid, ?_, ⟨event, hwaits⟩, hlive⟩
    exact (callbackDone_of_frame (callThreadBody_frame hbody)).trans hflag

/-- There is no callback to wait for. -/
structure NoCallback (h : Handshake) : Prop where
  cbid : h.engine.cbid ≤ 0
  thid : 0 < h.engine.callThid
  waits : ∀ n event, h.gui ≠ .spinning n event

theorem NoCallback.strandsNobody {cfg : Config} {h : Handshake} (hno : NoCallback h) :
    StrandsNobody cfg h := by
  intro _ n hn
  cases hgui : h.gui with
  | idle =>
    rw [hgui] at hn
    cases hn
  | notifying k event =>
    rw [hgui] at hn
    obtain rfl := Option.some.inj hn
    refine ⟨[.gui event, .gui event], _, rfl, ?_⟩
    have hreset : guiTurn event h = { h with gui := .resetting k event } := by
      rw [guiTurn, hgui]
      exact if_neg (Int.not_lt.2 hno.cbid)
    rw [hreset]
    exact List.mem_cons_self
  | spinning k event => exact absurd hgui (hno.waits k event)
  | resetting k event =>
    rw [hgui] at hn
    obtain rfl := Option.some.inj hn
    refine ⟨[.gui event], _, rfl, ?_⟩
    rw [guiTurn, hgui]
    exact List.mem_cons_self

/-- A turn of the SIP thread leaves the ids and the user interface alone. -/
theorem sipTurn_ids {cfg : Config} {lib : Lib} {je : Option Event} {deliver : Bool}
    {h h' : Handshake} (hthid : 0 < h.engine.callThid)
    (hturn : sipTurn cfg lib je deliver h = .ok h') :
    h'.engine.cbid = h.engine.cbid ∧ h'.engine.callThid = h.engine.callThid ∧ h'.gui = h.gui := by
  have hof {e : Engine} (hframe : e.frame = h.engine.frame) :
      e.cbid = h.engine.cbid ∧ e.callThid = h.engine.callThid ∧ h.gui = h.gui :=
    ⟨cbid_of_frame hframe, callThid_of_frame hframe, rfl⟩
  cases sipTurn_move hturn with
  | enters | leaves | begins | passes | sets | closes | finishes | stays => exact ⟨rfl, rfl, rfl⟩
  | callsBack _ _ hswitch => exact hof (guiSwitch_frame hthid hswitch).1
  | works _ hbody => exact hof (callThreadBody_frame hbody)

theorem noCallback_turn {cfg : Config} {t : Turn} {h h' : Handshake} (hno : NoCallback h)
    (hturn : turn cfg t h = .ok h') : NoCallback h' := by
  cases t with
  | gui event =>
    rw [pure_eq_ok.1 hturn]
    cases hgui : h.gui with
    | idle =>
      rw [guiTurn, hgui]
      exact ⟨hno.cbid, hno.thid, fun _ _ => by simp [Handshake.mark]⟩
    | notifying n event' =>
      rw [guiTurn, hgui]
      simp only [gt_iff_lt, Int.not_lt.2 hno.cbid, if_false]
      exact ⟨hno.cbid, hno.thid, fun _ _ => by simp⟩
    | spinning n event' => exact absurd hgui (hno.waits n event')
    | resetting n event' =>
      rw [guiTurn, hgui]
      exact ⟨hno.cbid, hno.thid, fun _ _ => by simp [Handshake.mark]⟩
  | sip lib je deliver =>
    obtain ⟨hcbid, hthid, hgui⟩ := sipTurn_ids hno.thid hturn
    exact ⟨hcbid ▸ hno.cbid, hthid ▸ hno.thid, fun n event => hgui ▸ hno.waits n event⟩

theorem NoCallback.releasesCalls {h : Handshake} (hno : NoCallback h) (t : Turn) :
    ReleasesCalls h t := by
  cases t with
  | gui event => exact fun hcbid => absurd hcbid (Int.not_lt.2 hno.cbid)
  | sip lib je deliver => exact fun hcbid => absurd hcbid (Int.not_lt.2 hno.cbid)

/-- **The schedules on which nobody is stranded.**  Once the thread has ended, whoever is in a call
can return, exactly if there is no callback, or the thread does not end in the middle while a call
waits for it and no call is made after its end. -/
theorem exit_strands_nobody_iff (cfg : Config) {callThid : Int} (hthid : 0 < callThid)
    (cbid ringbackfile cameraSetup cameraStart : Int) (turns : List Turn) :
    Machine.Always (turn cfg) (StrandsNobody cfg) turns
        (bootHandshake cfg callThid cbid ringbackfile cameraSetup cameraStart) ↔
      Machine.Along (turn cfg) ReleasesCalls turns
        (bootHandshake cfg callThid cbid ringbackfile cameraSetup cameraStart) := by
  rcases Int.lt_or_le 0 cbid with hcbid | hcbid
  · refine Machine.always_iff_along (A := fun _ => True)
      (fun _ (hinv : ExitInv _) => hinv.freed.strandsNobody) ?_ ?_ (fun _ _ => trivial) ?_
    · intro t h h' _ hinv hreleases hturn
      exact exitInv_turn hinv hreleases hturn
    · intro t h h' hinv hturn hnobody
      by_contra hnot
      obtain ⟨n, hstuck⟩ := stuck_of_not_releases hinv hnot hturn
      exact hstuck.strands hnobody
    · refine ⟨handshakeInv_boot cfg hthid hcbid ringbackfile cameraSetup cameraStart, fun _ => rfl,
        fun hended => absurd hended (by simp [Handshake.Ended, bootHandshake])⟩
  · refine Machine.always_iff_along (A := fun _ => True)
      (fun _ (hno : NoCallback _) => hno.strandsNobody) ?_ ?_ (fun _ _ => trivial) ?_
    · intro t h h' _ hno _ hturn
      exact noCallback_turn hno hturn
    · intro t h h' hno _ _
      exact hno.releasesCalls t
    · exact ⟨hcbid, hthid, fun _ _ => by simp [bootHandshake]⟩

/-- The call that shuts the engine down returns. -/
theorem exit_strands_nobody_shutdown :
    Machine.Always (turn {}) (StrandsNobody {})
      (callTurns .shutdown ++ sipTurns 5 ++ [.gui .shutdown, .gui .shutdown])
      (bootHandshake {} 1 1 (-1) 0 0) := by
  refine (exit_strands_nobody_iff {} (show 0 < (1 : Int) by decide) 1 (-1) 0 0 _).2 ?_
  decide +kernel

/-- A registration that cannot be built, while a call waits: the call never returns. -/
def strandedTurns : List Turn :=
  [.gui .hangup, .gui .hangup, .sip {} none false, .sip {} none false,
    .sip { registerId := -1 } none false]

theorem hangup_stranded : ∃ h,
    Machine.run (turn {}) strandedTurns (bootHandshake {} 1 1 (-1) 0 0) = .ok h ∧
      ¬StrandsNobody {} h := by
  obtain ⟨h, hrun, hp⟩ := Machine.exists_of_okAnd
    (show Machine.okAnd (Machine.run (turn {}) strandedTurns (bootHandshake {} 1 1 (-1) 0 0))
      (fun h => decide (h.gui = .spinning 0 .hangup ∧ h.sip = .returned ∧
        h.engine.callbackDone = false ∧ 0 < h.engine.cbid ∧ .returned 0 ∉ h.history)) = true
      by decide +kernel)
  obtain ⟨hgui, hsip, hflag, hcbid, hlive⟩ := of_decide_eq_true hp
  have hstuck : Stuck 0 h := ⟨Or.inr hsip, hcbid, hflag, ⟨.hangup, Or.inr hgui⟩, hlive⟩
  exact ⟨h, hrun, hstuck.strands⟩

end Furikup
