import Furikup.Steps

/-!
# The lock of the SIP library

Every call into the SIP library is bracketed by `eXosip_lock` and `eXosip_unlock`.  The history of
the engine has both, so what is still held after a step is a sum over it.

* `Engine.lockDepth` — how often the lock is held.
* `lockDepth_step` — **what one step does to it**, from one lemma for each function: nothing, but
  for a subscription that fails, which returns with the lock held, and for the un-registration,
  which locks where it should unlock.
* `lock_balanced_iff` — the runs that keep the lock balanced.
-/

set_option autoImplicit false

namespace Furikup

open CText CallState

/-! ## The depth -/

/-- What an action adds to the depth of the lock. -/
def Action.lockDelta : Action → Int
  | .lock => 1
  | .unlock => -1
  | _ => 0

/-- Calls of `eXosip_lock` minus calls of `eXosip_unlock`. -/
def Engine.lockDepth (e : Engine) : Int :=
  (e.log.map Action.lockDelta).sum

@[simp] theorem lockDepth_act (e : Engine) (a : Action) :
    (e.act a).lockDepth = a.lockDelta + e.lockDepth := rfl

@[simp] theorem lockDepth_changeState (state : CallState) (e : Engine) :
    (changeState state e).lockDepth = e.lockDepth := by
  cases state <;> simp [changeState, Engine.lockDepth, Engine.act, Action.lockDelta]

/-- A pair of brackets around one request. -/
theorem lockDepth_bracket (e : Engine) {a : Action} (ha : a.lockDelta = 0) :
    (((e.act .lock).act a).act .unlock).lockDepth = e.lockDepth := by
  rw [lockDepth_act, lockDepth_act, lockDepth_act, ha]
  change (-1 : Int) + (0 + (1 + e.lockDepth)) = e.lockDepth
  omega

/-- The automatic actions of a round. -/
theorem lockDepth_automatic (e : Engine) : ((e.act .lock).act .unlock).lockDepth = e.lockDepth := by
  simp only [lockDepth_act, Action.lockDelta]
  omega

/-! ## The functions -/

theorem lockDepth_hangupCall (e : Engine) : (hangupCall e).lockDepth = e.lockDepth := by
  by_cases hbusy : e.currentState.Busy
  · rw [hangupCall_of_busy hbusy, lockDepth_changeState]
    exact lockDepth_bracket e rfl
  · rw [hangupCall_of_not_busy hbusy]

theorem lockDepth_makeCall {cfg : Config} {lib : Lib} {user : Text} {e e' : Engine}
    (h : makeCall cfg lib user e = .ok e') : e'.lockDepth = e.lockDepth := by
  obtain ⟨-, rfl⟩ | ⟨-, -, rfl⟩ | ⟨-, -, sdp, ports, -, rfl⟩ := makeCall_cases h
  · rfl
  · rw [lockDepth_act]
    exact Int.zero_add _
  · rw [lockDepth_changeState]
    exact lockDepth_bracket { e with sdp := sdp, ports := ports } rfl

theorem lockDepth_answerCall {cfg : Config} {lib : Lib} {e e' : Engine}
    (h : answerCall cfg lib e = .ok e') : e'.lockDepth = e.lockDepth := by
  obtain ⟨-, rfl⟩ | ⟨-, -, sdp, ports, -, rfl⟩ := answerCall_cases h
  · rfl
  · exact lockDepth_bracket { e with sdp := sdp, ports := ports } rfl

/-- The states in which a shutdown un-registers. -/
def CallState.Unregisters (state : CallState) : Prop :=
  state = eRegistered ∨ state = eInCall ∨ state = eAnswered

instance (state : CallState) : Decidable state.Unregisters := inferInstanceAs (Decidable (_ ∨ _))

/-- The un-registration locks twice and unlocks never. -/
theorem lockDepth_disconnectSipServer (e : Engine) :
    (disconnectSipServer e).lockDepth =
      e.lockDepth + if e.currentState.Unregisters then 2 else 0 := by
  have hunregister (e₁ : Engine) :
      ((((changeState eDisconnecting e₁).act .lock).act (.register e₁.rid 0)).act .lock).lockDepth =
        e₁.lockDepth + 2 := by
    simp only [lockDepth_act, lockDepth_changeState, Action.lockDelta]
    omega
  rcases disconnectSipServer_cases e with ⟨hcall, heq⟩ | ⟨hstate, heq⟩ | ⟨hcall, hstate, heq⟩
  · have hdoes : e.currentState.Unregisters := Or.inr hcall
    rw [heq, hunregister, lockDepth_hangupCall, if_pos hdoes]
  · have hdoes : e.currentState.Unregisters := Or.inl hstate
    rw [heq, hunregister, if_pos hdoes]
  · have hnot : ¬e.currentState.Unregisters := fun h => h.elim hstate hcall
    rw [heq, if_neg hnot, Int.add_zero]
    split
    · rfl
    · exact Int.zero_add _

theorem lockDepth_updatePresence (lib : Lib) (presence : Int) (e : Engine) :
    (updatePresence lib presence e).lockDepth = e.lockDepth := by
  rw [updatePresence]
  split
  · rfl
  · exact lockDepth_bracket e rfl

/-- What the callback of an event leaves locked. -/
def GuiEvent.leak (state : CallState) : GuiEvent → Int
  | .shutdown => if state.Unregisters then 2 else 0
  | _ => 0

theorem lockDepth_guiCallback {cfg : Config} {lib : Lib} {event : GuiEvent} {e e' : Engine}
    (h : guiCallback cfg lib event e = .ok e') :
    e'.lockDepth = e.lockDepth + event.leak e.currentState := by
  obtain ⟨e₁, done, hcommand, rfl⟩ := guiCallback_command h
  change e₁.lockDepth = _
  cases hcommand with
  | newCall _ hcall =>
    rw [lockDepth_makeCall hcall]
    exact (Int.add_zero _).symm
  | answer hcall =>
    rw [lockDepth_answerCall hcall]
    exact (Int.add_zero _).symm
  | hangup hevent =>
    rw [lockDepth_hangupCall]
    rcases hevent with rfl | rfl <;> exact (Int.add_zero _).symm
  | changePresence =>
    rw [lockDepth_updatePresence]
    exact (Int.add_zero _).symm
  | shutdown => exact lockDepth_disconnectSipServer e
  | unknown => exact (Int.add_zero _).symm

/-! ## The rounds of the loop -/

/-- A subscription cannot be accepted: its answer cannot be built, or not be sent. -/
def Lib.RefusesSubscription (lib : Lib) : Prop :=
  lib.insubBuild ≠ 0 ∨ lib.insubSend ≠ 0

instance (lib : Lib) : Decidable lib.RefusesSubscription := inferInstanceAs (Decidable (_ ∨ _))

/-- Accepted, the thread goes on with the lock released; refused, it returns and keeps it. -/
theorem onInSubscriptionNew_spec (lib : Lib) (je : Event) (e : Engine) :
    (onInSubscriptionNew lib je e).lockDepth =
        e.lockDepth + (if lib.RefusesSubscription then 1 else 0) ∧
      (onInSubscriptionNew lib je e).thread =
        if lib.RefusesSubscription then .returned 0 else e.thread := by
  rcases onInSubscriptionNew_cases lib je e with ⟨hbuild, hsend, heq⟩ | ⟨-, hsend, heq⟩ |
    ⟨hbuild, heq⟩
  · have hnot : ¬lib.RefusesSubscription := fun h => h.elim (absurd hbuild) (absurd hsend)
    rw [heq, if_neg hnot, if_neg hnot, Int.add_zero]
    exact ⟨lockDepth_bracket e rfl, rfl⟩
  · have hrefuses : lib.RefusesSubscription := Or.inr hsend
    rw [heq, if_pos hrefuses, if_pos hrefuses]
    refine ⟨?_, rfl⟩
    change (0 : Int) + (0 + (1 + e.lockDepth)) = e.lockDepth + 1
    omega
  · have hrefuses : lib.RefusesSubscription := Or.inl hbuild
    rw [heq, if_pos hrefuses, if_pos hrefuses]
    refine ⟨?_, rfl⟩
    change (0 : Int) + (1 + e.lockDepth) = e.lockDepth + 1
    omega

/-- The states whose switch has an arm for a new subscription. -/
def CallState.TakesSubscription (state : CallState) : Prop :=
  state = eRegistered ∨ state.Ringing

instance (state : CallState) : Decidable state.TakesSubscription :=
  inferInstanceAs (Decidable (_ ∨ _))

/-- The event is a subscription, in a state that takes one, and cannot be accepted. -/
def SubscriptionFails (state : CallState) (lib : Lib) (je : Event) : Prop :=
  state.TakesSubscription ∧ je.type = .inSubscriptionNew ∧ lib.RefusesSubscription

instance (state : CallState) (lib : Lib) (je : Event) :
    Decidable (SubscriptionFails state lib je) := inferInstanceAs (Decidable (_ ∧ _))

/-- What an arm of the switch owes: it keeps the lock balanced and the thread in its loop, unless
the event is a subscription that fails. -/
structure KeepsThread (lib : Lib) (je : Event) (e e' : Engine) : Prop where
  lockDepth : e'.lockDepth =
    e.lockDepth + if SubscriptionFails e.currentState lib je then 1 else 0
  thread : e'.thread = if SubscriptionFails e.currentState lib je then .returned 0 else e.thread

theorem KeepsThread.of_not {lib : Lib} {je : Event} {e e' : Engine}
    (hnot : ¬SubscriptionFails e.currentState lib je) (hdepth : e'.lockDepth = e.lockDepth)
    (hthread : e'.thread = e.thread) : KeepsThread lib je e e' := by
  refine ⟨?_, ?_⟩
  · rw [if_neg hnot, Int.add_zero, hdepth]
  · rw [if_neg hnot, hthread]

theorem KeepsThread.of_type {lib : Lib} {je : Event} {e e' : Engine}
    (htype : je.type ≠ .inSubscriptionNew) (hdepth : e'.lockDepth = e.lockDepth)
    (hthread : e'.thread = e.thread) : KeepsThread lib je e e' :=
  .of_not (fun hfails => htype hfails.2.1) hdepth hthread

theorem keepsThread_onInSubscriptionNew {lib : Lib} {je : Event} {e : Engine}
    (hstate : e.currentState.TakesSubscription) (htype : je.type = .inSubscriptionNew) :
    KeepsThread lib je e (onInSubscriptionNew lib je e) := by
  have hiff : SubscriptionFails e.currentState lib je ↔ lib.RefusesSubscription :=
    ⟨fun h => h.2.2, fun h => ⟨hstate, htype, h⟩⟩
  obtain ⟨hdepth, hthread⟩ := onInSubscriptionNew_spec lib je e
  refine ⟨?_, ?_⟩
  · simp only [hdepth, hiff]
  · simp only [hthread, hiff]

theorem keepsThread_startMedia {lib : Lib} {je : Event} {tid : Int} {incoming : Bool}
    {e e₁ e' : Engine} (htype : je.type ≠ .inSubscriptionNew) (hdepth : e₁.lockDepth = e.lockDepth)
    (hthread : e₁.thread = e.thread) (h : startMedia lib tid incoming e₁ = .ok e') :
    KeepsThread lib je e e' := by
  obtain ⟨audio, -, video, -, rfl⟩ := startMedia_eq_ok.1 h
  refine .of_type htype ?_ ?_
  · rw [lockDepth_changeState]
    exact hdepth
  · rw [thread_changeState]
    exact hthread

/-- **The switch** keeps the lock and the thread, unless a subscription fails. -/
theorem keepsThread_callSwitch {lib : Lib} {je : Event} {e e' : Engine}
    (h : callSwitch lib je e = .ok e') : KeepsThread lib je e e' := by
  cases callSwitch_handled h with
  | ignored hno => exact .of_not (fun hfails => hno hfails.2.1 hfails.1) rfl rfl
  | registered _ htype =>
    refine .of_type (by rw [htype]; decide) ?_ (thread_changeState _ _)
    rw [lockDepth_changeState]
    exact Int.zero_add _
  | invited _ htype =>
    refine .of_type (by rw [htype]; decide) ?_ (thread_changeState _ _)
    rw [lockDepth_changeState, lockDepth_act]
    exact (Int.zero_add _).trans (lockDepth_bracket e rfl)
  | subscribed hstate htype => exact keepsThread_onInSubscriptionNew hstate htype
  | ringing _ htype => exact .of_type (by rw [htype]; decide) rfl rfl
  | answered _ htype hmedia =>
    exact keepsThread_startMedia (by rw [htype]; decide) (lockDepth_bracket e rfl) rfl hmedia
  | ack _ htype hmedia =>
    refine keepsThread_startMedia (by rw [htype]; decide) ?_ ?_ hmedia
    · rfl
    · rfl
  | ended _ htype =>
    exact .of_type (by rw [htype]; decide) (lockDepth_changeState _ _) (thread_changeState _ _)
  | failed _ htype =>
    refine .of_type (fun hsub => by rw [hsub] at htype; cases htype) ?_ (thread_changeState _ _)
    rw [lockDepth_changeState]
    exact Int.zero_add _
  | closed _ htype =>
    exact .of_type (by rw [htype]; decide) (lockDepth_changeState _ _) (thread_changeState _ _)
  | disconnected _ htype =>
    have hnot : je.type ≠ .inSubscriptionNew := by
      rcases htype with htype | htype <;> rw [htype] <;> decide
    exact .of_type hnot (lockDepth_changeState eNotRegistered e)
      (thread_changeState eNotRegistered e)

/-- The registration is due and cannot be built. -/
def RegistrationFails (state : CallState) (lib : Lib) : Prop :=
  state = eNotRegistered ∧ lib.registerId < 0

instance (state : CallState) (lib : Lib) : Decidable (RegistrationFails state lib) :=
  inferInstanceAs (Decidable (_ ∧ _))

/-- The lock is kept by the registration whatever comes of it; if it fails the thread returns. -/
theorem registerStep_spec (lib : Lib) (e : Engine) :
    (registerStep lib e).lockDepth = e.lockDepth ∧
      (registerStep lib e).thread =
        (if RegistrationFails e.currentState lib then .returned (-1) else e.thread) ∧
      ((registerStep lib e).currentState = e.currentState ∨
        e.currentState = eNotRegistered ∧ (registerStep lib e).currentState = eRegistering) := by
  rcases registerStep_cases lib e with ⟨hstate, hskips⟩ | ⟨hstate, hid, hends⟩ |
    ⟨hstate, hid, hsends⟩
  · have hnot : ¬RegistrationFails e.currentState lib := fun h => hstate h.1
    rw [hskips, if_neg hnot]
    exact ⟨rfl, rfl, Or.inl rfl⟩
  · have hfails : RegistrationFails e.currentState lib := ⟨hstate, hid⟩
    rw [hends, if_pos hfails]
    exact ⟨lockDepth_automatic e, rfl, Or.inl rfl⟩
  · have hnot : ¬RegistrationFails e.currentState lib := fun h => hid h.2
    rw [hsends, if_neg hnot]
    refine ⟨?_, thread_changeState _ _, Or.inr ⟨hstate, rfl⟩⟩
    rw [lockDepth_changeState, lockDepth_act]
    exact (Int.zero_add _).trans (lockDepth_bracket e rfl)

/-- The rounds that end the thread in the middle. -/
def Bails (lib : Lib) (je : Option Event) (e : Engine) : Prop :=
  RegistrationFails e.currentState lib ∨
    ∃ event ∈ je, SubscriptionFails e.currentState lib event

instance (lib : Lib) (je : Option Event) (e : Engine) : Decidable (Bails lib je e) :=
  inferInstanceAs (Decidable (_ ∨ _))

/-- What a round leaves locked. -/
def pollLeak (state : CallState) (lib : Lib) : Option Event → Int
  | some je => if SubscriptionFails state lib je then 1 else 0
  | none => 0

theorem pollLeak_of_not {state : CallState} (hstate : ¬state.TakesSubscription) (lib : Lib)
    (je : Option Event) : pollLeak state lib je = 0 := by
  cases je with
  | none => rfl
  | some je => exact if_neg fun hfails => hstate hfails.1

/-- **One round**, from the start of the loop to its end. -/
theorem callThreadBody_spec {lib : Lib} {je : Option Event} {e e' : Engine}
    (hloop : e.thread = .looping) (h : callThreadBody lib je e = .ok e') :
    e'.lockDepth = e.lockDepth + pollLeak e.currentState lib je ∧
      (e'.thread ≠ .looping ↔ Bails lib je e) := by
  obtain ⟨hdepth, hthread, hstate⟩ := registerStep_spec lib e
  have hleak : pollLeak (registerStep lib e).currentState lib je =
      pollLeak e.currentState lib je := by
    rcases hstate with hstate | ⟨hnot, hreg⟩
    · rw [hstate]
    · rw [hnot, hreg, pollLeak_of_not (by decide), pollLeak_of_not (by decide)]
  rw [callThreadBody] at h
  by_cases hfails : RegistrationFails e.currentState lib
  · rw [if_pos hfails] at hthread
    have hend : (registerStep lib e).thread ≠ .looping := by rw [hthread]; simp
    rw [if_pos hend] at h
    rw [pure_eq_ok.1 h]
    refine ⟨?_, iff_of_true hend (Or.inl hfails)⟩
    rw [hdepth, hfails.1, pollLeak_of_not (by decide), Int.add_zero]
  · rw [if_neg hfails] at hthread
    have hlooping : (registerStep lib e).thread = .looping := hthread.trans hloop
    rw [if_neg (not_not.2 hlooping)] at h
    have hauto : (((registerStep lib e).act .lock).act .unlock).lockDepth = e.lockDepth :=
      (lockDepth_automatic _).trans hdepth
    cases je with
    | none =>
      rw [pure_eq_ok.1 h, hauto]
      refine ⟨(Int.add_zero _).symm, iff_of_false (not_not.2 hlooping) ?_⟩
      rintro (hreg | ⟨event, hje, -⟩)
      · exact hfails hreg
      · cases hje
    | some je =>
      have hkeeps := keepsThread_callSwitch h
      have hsub : SubscriptionFails (registerStep lib e).currentState lib je ↔
          SubscriptionFails e.currentState lib je := by
        rcases hstate with hstate | ⟨hnot, hreg⟩
        · rw [hstate]
        · rw [hnot, hreg]
          exact iff_of_false (fun hsub => absurd hsub.1 (by decide))
            fun hsub => absurd hsub.1 (by decide)
      have hdepth' := hkeeps.lockDepth
      have hthread' := hkeeps.thread
      rw [hauto] at hdepth'
      change e'.lockDepth = e.lockDepth + pollLeak (registerStep lib e).currentState lib (some je)
        at hdepth'
      change e'.thread = if SubscriptionFails (registerStep lib e).currentState lib je
        then .returned 0 else (registerStep lib e).thread at hthread'
      refine ⟨hdepth'.trans (by rw [hleak]), ?_⟩
      rw [hthread', hlooping]
      by_cases hsubs : SubscriptionFails e.currentState lib je
      · rw [if_pos (hsub.2 hsubs)]
        exact iff_of_true (by simp) (Or.inr ⟨je, rfl, hsubs⟩)
      · rw [if_neg fun h => hsubs (hsub.1 h)]
        refine iff_of_false (not_not.2 rfl) ?_
        rintro (hreg | ⟨event, hje, h⟩)
        · exact hfails hreg
        · exact hsubs (Option.some.inj hje ▸ h)

/-! ## The runs -/

@[simp] theorem lockDepth_loopTest (e : Engine) : (loopTest e).lockDepth = e.lockDepth := by
  rw [loopTest]
  split
  · exact Int.zero_add _
  · rfl

/-- What a step leaves locked. -/
def Input.leak (state : CallState) : Input → Int
  | .gui _ event => event.leak state
  | .poll lib je => pollLeak state lib je

/-- **What one step does to the lock.** -/
theorem lockDepth_step {cfg : Config} {i : Input} {e e' : Engine} (hloop : e.thread = .looping)
    (h : step cfg i e = .ok e') : e'.lockDepth = e.lockDepth + i.leak e.currentState := by
  rw [step.eq_def, if_pos hloop] at h
  cases i with
  | gui lib event => exact lockDepth_guiCallback h
  | poll lib je =>
    obtain ⟨e₁, hbody, h⟩ := bind_eq_ok.1 h
    rw [pure_eq_ok.1 h, lockDepth_loopTest]
    exact (callThreadBody_spec hloop hbody).1

/-- The steps that release what they take: no shutdown that un-registers, and no subscription that
fails. -/
def KeepsLock (e : Engine) : Input → Prop
  | .gui _ .shutdown => e.thread = .looping → ¬e.currentState.Unregisters
  | .poll lib (some je) => e.thread = .looping → ¬SubscriptionFails e.currentState lib je
  | _ => True

theorem keepsLock_iff {e : Engine} (hloop : e.thread = .looping) (i : Input) :
    KeepsLock e i ↔ i.leak e.currentState = 0 := by
  cases i with
  | gui lib event =>
    cases event with
    | shutdown =>
      rw [Input.leak, GuiEvent.leak]
      split
      · next hstate => exact iff_of_false (fun h => h hloop hstate) (by decide)
      · next hstate => exact iff_of_true (fun _ => hstate) rfl
    | _ => exact iff_of_true trivial rfl
  | poll lib je =>
    cases je with
    | none => exact iff_of_true trivial rfl
    | some je =>
      rw [Input.leak, pollLeak]
      split
      · next hfails => exact iff_of_false (fun h => h hloop hfails) (by decide)
      · next hfails => exact iff_of_true (fun _ => hfails) rfl

/-- **The runs that keep the lock balanced**: between any two steps, and wherever the thread ends,
it is held no more often than released, exactly if no shutdown un-registers and no subscription
fails. -/
theorem lock_balanced_iff (cfg : Config)
    (callThid cbid ringbackfile cameraSetup cameraStart : Int) (is : List Input) :
    Machine.Always (step cfg) (fun e => e.lockDepth = 0) is
        (boot cfg callThid cbid ringbackfile cameraSetup cameraStart) ↔
      Machine.Along (step cfg) KeepsLock is
        (boot cfg callThid cbid ringbackfile cameraSetup cameraStart) := by
  have hstep {i : Input} {e e' : Engine} (he : e.lockDepth = 0) (h : step cfg i e = .ok e') :
      e'.lockDepth = 0 ↔ KeepsLock e i := by
    by_cases hloop : e.thread = .looping
    · rw [keepsLock_iff hloop, lockDepth_step hloop h, he, Int.zero_add]
    · have hkeeps : KeepsLock e i := by
        cases i with
        | gui lib event =>
          cases event with
          | shutdown => exact fun h => absurd h hloop
          | _ => trivial
        | poll lib je =>
          cases je with
          | none => trivial
          | some je => exact fun h => absurd h hloop
      rw [step.eq_def, if_neg hloop] at h
      exact iff_of_true (pure_eq_ok.1 h ▸ he) hkeeps
  refine Machine.always_iff_along (A := fun _ => True) (fun _ he => he) ?_ ?_
    (fun _ _ => trivial) rfl
  · intro i e e' _ he hkeeps h
    exact (hstep he h).2 hkeeps
  · intro i e e' he h he'
    exact (hstep he h).1 he'

/-- An un-registration leaves the library locked, twice. -/
theorem unregister_leaves_locked : ∃ e, Machine.run (step {})
    [.poll {} none, .poll {} (some { type := .registrationSuccess, rid := 1 }), .gui {} .shutdown]
    (boot {} 1 1 (-1) 0 0) = .ok e ∧ e.lockDepth = 2 := by
  obtain ⟨e, hrun, hp⟩ := Machine.exists_of_okAnd
    (show Machine.okAnd (Machine.run (step {})
      [.poll {} none, .poll {} (some { type := .registrationSuccess, rid := 1 }),
        .gui {} .shutdown] (boot {} 1 1 (-1) 0 0)) (fun e => decide (e.lockDepth = 2)) = true
      by decide +kernel)
  exact ⟨e, hrun, of_decide_eq_true hp⟩

end Furikup
