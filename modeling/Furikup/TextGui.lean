import Furikup.Lifecycle
import Furikup.Notices

/-!
# The text user interface beside the engine

The user interface keeps its own copy of the engine's state, in the numbering of the interface
between the two, and a flag of its own for the ringer.  `CallbackEventHandler` writes both, on the
thread of the engine, from what the engine tells.

* `TextGui`, `callbackEventHandler` — the user interface, but for what is only displayed.
* `Phone`, `phoneStep` — the two together.  What a step of the engine tells is heard in the order in
  which it is told.
* `Shows` — the relation between the two states, and `gui_simulates_engine`, **it holds throughout
  every run**.
-/

set_option autoImplicit false

namespace Furikup

open CText CallState

/-! ## The user interface -/

/-- The globals of `text_gui.c` that the engine's events are kept in. -/
structure TextGui where
  gCurrentState : Int := 0
  gCaller : Buf 100 := ⟨[], by decide⟩
  gCallerIndex : Int := -1
  gStartup : Int := 0
  ringing : Bool := false
  /-- The descriptor of `ring.wav`, negative when it could not be opened. -/
  ringfile : Int := -1
  /-- How many ringer threads have been started. -/
  ringThreads : Nat := 0

def playRinger (gui : TextGui) : TextGui :=
  let gui := { gui with ringing := true }
  if gui.ringfile ≥ 0 then { gui with ringThreads := gui.ringThreads + 1 } else gui

def stopRinger (gui : TextGui) : TextGui :=
  { gui with ringing := false }

/-- `CallbackEventHandler`.  The engine tells of nothing else than these events. -/
def callbackEventHandler (event : Action) (gui : TextGui) : C TextGui :=
  match event with
  | .notice (.sipState lNewState) =>
    let gui := if lNewState = 5 ∨ lNewState = 2 then stopRinger gui else gui
    let gui := { gui with gCurrentState := lNewState }
    if gui.gCurrentState = 2 then
      pure { gui with gCaller := ⟨[], by decide⟩, gCallerIndex := -1 }
    else pure gui
  | .incomingCall _ caller index => do
    let gui := playRinger gui
    let gCaller ← sprintf 100 (caller.getD (lit "Unknown"))
    pure { gui with gCaller := gCaller, gCallerIndex := index }
  | .notice (.startup state) => pure { gui with gStartup := state }
  -- The text goes to the status box.
  | .notice (.errorMessage _) => pure gui
  | _ => pure gui

/-- Hear what has been told, latest first. -/
def hear : List Action → TextGui → C TextGui
  | [], gui => pure gui
  | event :: told, gui => do
    let gui ← hear told gui
    callbackEventHandler event gui

/-! ## The two together -/

structure Phone where
  engine : Engine
  gui : TextGui

/-- What has been told since. -/
def news (e e' : Engine) : List Action :=
  e'.told.take (e'.told.length - e.told.length)

def phoneStep (cfg : Config) (i : Input) (p : Phone) : C Phone := do
  let engine ← step cfg i p.engine
  let gui ← hear (news p.engine engine) p.gui
  pure { engine := engine, gui := gui }

/-! ## The simulation -/

/-- The user interface shows the state of the engine, and the ringer is on while a call comes in. -/
structure Shows (state : CallState) (gui : TextGui) : Prop where
  gCurrentState : gui.gCurrentState = state.sipState
  ringing : gui.ringing = true ↔ state = eIncomingCall

theorem hear_append (new old : List Action) (gui : TextGui) :
    hear (new ++ old) gui = hear old gui >>= hear new := by
  induction new with
  | nil =>
    rw [List.nil_append]
    cases hear old gui with
    | ok gui => rfl
    | error f => rfl
  | cons event new ih =>
    rw [List.cons_append, hear, ih]
    cases hear old gui with
    | ok gui => rfl
    | error f => rfl

/-- Other notices change neither. -/
theorem Shows.tells {state : CallState} {gui gui' : TextGui} (hshows : Shows state gui) {n : Notice}
    (hn : ∀ s, n ≠ .sipState s) (h : callbackEventHandler (.notice n) gui = .ok gui') :
    Shows state gui' := by
  cases n with
  | sipState s => exact absurd rfl (hn s)
  | startup s =>
    rw [pure_eq_ok.1 h]
    exact ⟨hshows.gCurrentState, hshows.ringing⟩
  | errorMessage text =>
    rw [pure_eq_ok.1 h]
    exact hshows

theorem not_incoming_of_leads {state state' : CallState} (h : Leads state state') :
    state' ≠ eIncomingCall := by
  cases h with
  | _ => decide

/-- What is heard of a change of state. -/
theorem callbackEventHandler_sipState {s : Int} {gui gui' : TextGui}
    (h : callbackEventHandler (.notice (.sipState s)) gui = .ok gui') :
    gui'.gCurrentState = s ∧ gui'.ringing = (if s = 5 ∨ s = 2 then false else gui.ringing) := by
  have hring : (if s = 5 ∨ s = 2 then stopRinger gui else gui).ringing =
      (if s = 5 ∨ s = 2 then false else gui.ringing) := by
    split
    · rfl
    · rfl
  simp only [callbackEventHandler] at h
  generalize (if s = 5 ∨ s = 2 then stopRinger gui else gui) = gui₁ at h hring
  split at h
  · rw [pure_eq_ok.1 h]
    exact ⟨rfl, hring⟩
  · rw [pure_eq_ok.1 h]
    exact ⟨rfl, hring⟩

/-- The ringer goes off with a change of state that is only told of. -/
theorem Shows.enters {state state' : CallState} {gui gui' : TextGui} (hshows : Shows state gui)
    (hleads : Leads state state')
    (h : callbackEventHandler (.notice (.sipState state'.sipState)) gui = .ok gui') :
    Shows state' gui' := by
  obtain ⟨hstate, hring⟩ := callbackEventHandler_sipState h
  refine ⟨hstate, iff_of_false ?_ (not_incoming_of_leads hleads)⟩
  rw [hring]
  cases hleads with
  | registered | answered | ended => simp [sipState]
  | registering | makeCall | disconnected => simp [sipState, hshows.ringing]

theorem shows_announces {told : List Action} {cid : Int} {displayname : Option Text} {index : Int}
    {gui gui' : TextGui}
    (h : hear (.notice (.sipState eIncomingCall.sipState) :: .incomingCall cid displayname index ::
      told) gui = .ok gui') : Shows eIncomingCall gui' := by
  obtain ⟨gui₁, hincoming, h⟩ := bind_eq_ok.1 h
  obtain ⟨gui₂, -, hincoming⟩ := bind_eq_ok.1 hincoming
  obtain ⟨gCaller, -, hincoming⟩ := bind_eq_ok.1 hincoming
  obtain ⟨hstate, hring⟩ := callbackEventHandler_sipState h
  refine ⟨hstate, iff_of_true ?_ rfl⟩
  rw [hring, pure_eq_ok.1 hincoming]
  simp only [sipState, Int.reduceEq, or_self, if_false, playRinger]
  split
  · rfl
  · rfl

/-- One edge of the diagram. -/
theorem shows_edge {v v' : View} (hedge : Edge v v') :
    ∃ new, v'.2 = new ++ v.2 ∧
      ∀ gui gui', Shows v.1 gui → hear new gui = .ok gui' → Shows v'.1 gui' := by
  cases hedge with
  | @tells state told n hn =>
    refine ⟨[.notice n], rfl, fun gui gui' hshows h => ?_⟩
    exact hshows.tells hn h
  | @enters state state' told hleads =>
    refine ⟨[.notice (.sipState state'.sipState)], rfl, fun gui gui' hshows h => ?_⟩
    exact hshows.enters hleads h
  | @announces told cid displayname index =>
    refine ⟨[.notice (.sipState eIncomingCall.sipState), .incomingCall cid displayname index], rfl,
      fun gui gui' _ h => ?_⟩
    exact shows_announces h
  | disconnects =>
    refine ⟨[], rfl, fun gui gui' hshows h => ?_⟩
    rw [pure_eq_ok.1 h]
    exact ⟨hshows.gCurrentState, hshows.ringing.trans (by simp)⟩

/-- A path. -/
theorem shows_moves {v v' : View} (hmoves : Moves v v') :
    ∃ new, v'.2 = new ++ v.2 ∧
      ∀ gui gui', Shows v.1 gui → hear new gui = .ok gui' → Shows v'.1 gui' := by
  induction hmoves with
  | refl =>
    refine ⟨[], rfl, fun gui gui' hshows h => ?_⟩
    rw [pure_eq_ok.1 h]
    exact hshows
  | tail _ hedge ih =>
    obtain ⟨new, htold, hshows⟩ := ih
    obtain ⟨new', htold', hshows'⟩ := shows_edge hedge
    refine ⟨new' ++ new, by rw [htold', htold, List.append_assoc], fun gui gui' hgui h => ?_⟩
    rw [hear_append] at h
    obtain ⟨gui₁, h₁, h₂⟩ := bind_eq_ok.1 h
    exact hshows' gui₁ gui' (hshows gui gui₁ hgui h₁) h₂

theorem news_eq {e e' : Engine} {new : List Action} (h : e'.told = new ++ e.told) :
    news e e' = new := by
  rw [news, h, List.length_append, Nat.add_sub_cancel, List.take_left']
  rfl

/-- **The step lemma.** -/
theorem shows_step {cfg : Config} {i : Input} {p p' : Phone}
    (hshows : Shows p.engine.currentState p.gui) (h : phoneStep cfg i p = .ok p') :
    step cfg i p.engine = .ok p'.engine ∧ Shows p'.engine.currentState p'.gui := by
  obtain ⟨engine, hstep, h⟩ := bind_eq_ok.1 h
  obtain ⟨gui, hhear, h⟩ := bind_eq_ok.1 h
  obtain ⟨new, htold, hkeeps⟩ := shows_moves (step_moves hstep)
  rw [pure_eq_ok.1 h]
  rw [news_eq htold] at hhear
  exact ⟨hstep, hkeeps p.gui gui hshows hhear⟩

/-- The phone when the engine has been initialised. -/
def bootPhone (cfg : Config) (callThid cbid ringbackfile cameraSetup cameraStart ringfile : Int) :
    Phone where
  engine := boot cfg callThid cbid ringbackfile cameraSetup cameraStart
  gui := { ringfile := ringfile }

/-- What relates the two modules. -/
structure Simulates (p : Phone) : Prop where
  shows : Shows p.engine.currentState p.gui
  ringback : p.engine.audio.ringback = true →
    p.engine.currentState = eInCall ∨ p.engine.currentState = eIncomingCall

/-- **The user interface simulates the engine.**  After every step of every run it shows the state
of the engine, its ringer is on exactly while a call comes in, and the engine's ring tone is on at
most while a call is being set up. -/
theorem gui_simulates_engine (cfg : Config)
    (callThid cbid ringbackfile cameraSetup cameraStart ringfile : Int) (is : List Input) :
    Machine.Always (phoneStep cfg) Simulates is
      (bootPhone cfg callThid cbid ringbackfile cameraSetup cameraStart ringfile) := by
  refine Machine.always_iff_run.2 fun js _ p hrun => ?_
  refine Machine.run_invariant Simulates ?_ ⟨⟨rfl, by simp [bootPhone, boot]⟩, ?_⟩ hrun
  · intro i p p' hp h
    obtain ⟨hstep, hshows⟩ := shows_step hp.shows h
    exact ⟨hshows, ringInv_arm (step_arm hstep) hp.ringback⟩
  · intro hring
    exact absurd hring Bool.false_ne_true

end Furikup
