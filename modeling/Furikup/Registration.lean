import Furikup.Shutdown

/-!
# The engine and the server's view of its registration

The library reports how the first registration went, how the refreshes went that it sends on its
own, and how the un-registration went, all with the same four types of event.

* `Outcome`, `Event.outcome` — the outcome an event reports, if it is a final one.
* `registrar` — the engine with a variable that remembers the latest outcome it has been given.
* `Agrees` — what a step owes the outcomes, and `registration_agrees_iff`, **the runs on which every
  step pays**.  The switch handles a success in `eREGISTERING`, and a success or a termination in
  `eDISCONNECTING`; every other outcome falls into a default.
-/

set_option autoImplicit false

namespace Furikup

open CText CallState

/-! ## Outcomes -/

/-- The final outcomes of a registration. -/
inductive Outcome
  | success
  | failure
  | terminated
  deriving DecidableEq, Repr

/-- The library answers a failure with status 401 or 407 with credentials and tries again, so it is
not final. -/
def Event.outcome (je : Event) : Option Outcome :=
  match je.type with
  | .registrationSuccess | .registrationRefreshed => some .success
  | .registrationFailure =>
    if je.response = some 401 ∨ je.response = some 407 then none else some .failure
  | .registrationTerminated => some .terminated
  | _ => none

/-- The round gets as far as the switch. -/
def Heard (lib : Lib) (e : Engine) : Prop :=
  e.thread = .looping ∧ ¬RegistrationFails e.currentState lib

instance (lib : Lib) (e : Engine) : Decidable (Heard lib e) := inferInstanceAs (Decidable (_ ∧ _))

/-- The outcome a step is given. -/
def outcomeOf (e : Engine) : Input → Option Outcome
  | .poll lib (some je) => if Heard lib e then je.outcome else none
  | _ => none

theorem outcomeOf_eq_some {e : Engine} {i : Input} {o : Outcome} :
    outcomeOf e i = some o ↔
      ∃ lib je, i = .poll lib (some je) ∧ Heard lib e ∧ je.outcome = some o := by
  cases i with
  | gui lib event => simp [outcomeOf]
  | poll lib je =>
    cases je with
    | none => simp [outcomeOf]
    | some je => simp [outcomeOf]

theorem outcome_of_succeeds {je : Event} (h : je.type = .registrationSuccess) :
    je.outcome = some .success := by
  rw [Event.outcome, h]

theorem type_of_outcome {je : Event} {o : Outcome} (h : je.outcome = some o) (ho : o ≠ .success) :
    je.type = .registrationFailure ∨ je.type = .registrationTerminated := by
  rw [Event.outcome.eq_def] at h
  split at h
  · exact absurd (Option.some.inj h).symm ho
  · exact absurd (Option.some.inj h).symm ho
  · next htype => exact Or.inl htype
  · next htype => exact Or.inr htype
  · exact absurd h (by simp)

/-! ## The states of a registration -/

/-- The states of an engine that takes itself to be registered. -/
def CallState.Settled (state : CallState) : Prop :=
  state = eRegistered ∨ state.Busy

instance (state : CallState) : Decidable state.Settled := inferInstanceAs (Decidable (_ ∨ _))

theorem CallState.cases_settled (state : CallState) :
    state.Settled ∨ state.Fresh ∨ state = eDisconnecting := by
  cases state with
  | eNotRegistered => exact Or.inr (Or.inl (Or.inl rfl))
  | eRegistering => exact Or.inr (Or.inl (Or.inr rfl))
  | eDisconnecting => exact Or.inr (Or.inr rfl)
  | _ => exact Or.inl (by decide)

theorem CallState.Settled.not_fresh {state : CallState} (h : state.Settled) : ¬state.Fresh := by
  rcases h with rfl | rfl | rfl | rfl
  · decide
  · decide
  · decide
  · decide

theorem CallState.Settled.ne_disconnecting {state : CallState} (h : state.Settled) :
    state ≠ eDisconnecting := by
  rintro rfl
  exact absurd h (by decide)

/-- A round that does not get as far as the switch does nothing to the core. -/
theorem core_of_not_heard {cfg : Config} {lib : Lib} {je : Option Event} {e e' : Engine}
    (hnot : ¬Heard lib e) (h : step cfg (.poll lib je) e = .ok e') : e'.core = e.core := by
  rw [step.eq_def] at h
  by_cases hloop : e.thread = .looping
  · have hfails : RegistrationFails e.currentState lib := by
      by_contra hbuilt
      exact hnot ⟨hloop, hbuilt⟩
    have hend : (registerStep lib e).thread ≠ .looping := by
      rw [(registerStep_spec lib e).2.1, if_pos hfails]
      simp
    rw [if_pos hloop] at h
    obtain ⟨e₁, hbody, h⟩ := bind_eq_ok.1 h
    obtain rfl := pure_eq_ok.1 h
    rw [callThreadBody, if_pos hend] at hbody
    obtain rfl := pure_eq_ok.1 hbody
    rw [core_loopTest, core_registerStep_of_returned lib hloop hend]
  · rw [if_neg hloop] at h
    rw [pure_eq_ok.1 h]

/-- The engine is settled after a step only if it was before, or has been given a success. -/
theorem settled_of_step {cfg : Config} {i : Input} {e e' : Engine} (h : step cfg i e = .ok e')
    (hsettled : e'.currentState.Settled) :
    e.currentState.Settled ∨ outcomeOf e i = some .success := by
  have hheard {lib : Lib} {je : Event} (hi : i = .poll lib (some je))
      (htype : je.type = .registrationSuccess) :
      e.currentState.Settled ∨ outcomeOf e i = some .success := by
    subst hi
    by_cases hheard : Heard lib e
    · exact Or.inr (outcomeOf_eq_some.2 ⟨lib, je, rfl, hheard, outcome_of_succeeds htype⟩)
    · have hsame : e'.currentState = e.currentState :=
        congrArg Core.currentState (core_of_not_heard hheard h)
      exact Or.inl (hsame ▸ hsettled)
  have harm := step_arm h
  have hstate : e.currentState = e.core.currentState := rfl
  have hstate' : e'.currentState = e'.core.currentState := rfl
  rw [hstate'] at hsettled
  rw [hstate] at hheard ⊢
  generalize e.core = s at harm hheard
  generalize e'.core = s' at harm hsettled
  cases harm with
  | idle | quit | answerCall | ringing => exact Or.inl hsettled
  | makeCall h | disconnect h | incoming h => exact Or.inl (Or.inl h)
  | hangup _ h => exact Or.inl (Or.inr h)
  | closed h => exact Or.inl (Or.inr (Or.inr (Or.inl h)))
  | disconnectCall h => exact Or.inl (Or.inr (h.elim Or.inl fun h => Or.inr (Or.inl h)))
  | answered h | ack h | ended h => exact Or.inl (Or.inr h.busy)
  | registeringRegistered _ htype => exact hheard rfl htype
  | registered _ htype => exact hheard rfl htype
  | registering => exact absurd hsettled (by simp [CallState.Settled, CallState.Busy, Core.enter])
  | disconnected => exact absurd hsettled (by simp [CallState.Settled, CallState.Busy, Core.enter])

/-- A settled engine passes over the outcomes that are no success. -/
theorem callSwitch_settled (lib : Lib) {je : Event} {e : Engine} (hsettled : e.currentState.Settled)
    (htype : je.type = .registrationFailure ∨ je.type = .registrationTerminated) :
    callSwitch lib je e = .ok e := by
  have hregistered : onRegistered lib je e = e := by
    rcases htype with htype | htype
    · simp only [onRegistered, htype]
    · simp only [onRegistered, htype]
  have hcall : onInCall lib je e = .ok e := by
    rcases htype with htype | htype
    · simp only [onInCall, htype]
      rfl
    · simp only [onInCall, htype]
      rfl
  have hanswered : onAnswered je e = e := by
    rcases htype with htype | htype
    · simp only [onAnswered, htype]
    · simp only [onAnswered, htype]
  rw [callSwitch]
  rcases hsettled with h | h | h | h
  · simp only [h, hregistered]
    rfl
  · simp only [h, hcall]
  · simp only [h, hanswered]
    rfl
  · simp only [h, hcall]

theorem CallState.Settled.ne_notRegistered {state : CallState} (h : state.Settled) :
    state ≠ eNotRegistered := by
  rintro rfl
  exact absurd h (by decide)

theorem poll_settled {cfg : Config} {lib : Lib} {je : Event} {e e' : Engine}
    (hloop : e.thread = .looping) (hsettled : e.currentState.Settled)
    (htype : je.type = .registrationFailure ∨ je.type = .registrationTerminated)
    (h : step cfg (.poll lib (some je)) e = .ok e') : e'.currentState = e.currentState := by
  obtain ⟨e₁, hswitch, rfl⟩ := (step_poll_ok hloop hsettled.ne_notRegistered).1 h
  rw [callSwitch_settled lib
    (show ((e.act .lock).act .unlock).currentState.Settled from hsettled) htype] at hswitch
  obtain rfl := Except.ok.inj hswitch
  exact congrArg Core.currentState ((core_loopTest _).trans (core_automatic e))

/-- The types that end the un-registration. -/
def EventType.unregisters : EventType → Bool
  | .registrationSuccess | .registrationTerminated => true
  | _ => false

theorem quit_onDisconnecting (je : Event) (e : Engine) :
    (onDisconnecting je e).quit = (e.quit || je.type.unregisters) := by
  rw [onDisconnecting.eq_def]
  split
  · next htype => simp [EventType.unregisters, htype]
  · next htype => simp [EventType.unregisters, htype]
  · next hsuccess hterminated =>
    have hnot : je.type.unregisters = false := by
      cases htype : je.type with
      | registrationSuccess => exact absurd htype hsuccess
      | registrationTerminated => exact absurd htype hterminated
      | _ => rfl
    rw [hnot, Bool.or_false]

/-- The un-registration is over when an event of these types comes in, and not before. -/
theorem poll_disconnecting {cfg : Config} {lib : Lib} {je : Event} {e e' : Engine}
    (hloop : e.thread = .looping) (hstate : e.currentState = eDisconnecting)
    (h : step cfg (.poll lib (some je)) e = .ok e') :
    e'.quit = (e.quit || je.type.unregisters) := by
  obtain ⟨e₁, hswitch, rfl⟩ := (step_poll_ok hloop (by rw [hstate]; decide)).1 h
  rw [callSwitch, show ((e.act .lock).act .unlock).currentState = eDisconnecting from hstate]
    at hswitch
  obtain rfl := pure_eq_ok.1 hswitch
  exact (congrArg Core.quit (core_loopTest _)).trans (quit_onDisconnecting je _)

/-! ## Agreement -/

/-- The engine with the latest final outcome it has been given.  Each input comes with a remark,
which no step reads: whether an outcome it brings is the one of the un-registration. -/
def registrar (cfg : Config) :
    Input × Bool → Engine × Option Outcome → C (Engine × Option Outcome) :=
  Machine.record (fun i => step cfg i.1) fun e i latest => (outcomeOf e i.1).or latest

/-- The registrar runs wherever the engine runs. -/
theorem registrar_run {cfg : Config} {is : List (Input × Bool)} {e e' : Engine}
    {latest : Option Outcome} :
    (∃ latest', Machine.run (registrar cfg) is (e, latest) = .ok (e', latest')) ↔
      Machine.run (fun i => step cfg i.1) is e = .ok e' :=
  Machine.run_record

/-- What a step from `e` to `e'` owes the outcome it is given.  After it the engine is settled only
on a success; a failure does not leave it registering; and while it is disconnecting an outcome sets
`quit` if it is the one of the un-registration, and does not otherwise. -/
structure AgreesAfter (e : Engine) (i : Input × Bool) (e' : Engine) (latest' : Option Outcome) :
    Prop where
  settled : e'.currentState.Settled → latest' = some .success
  failed : outcomeOf e i.1 = some .failure → e'.currentState ≠ eRegistering
  quit : e.currentState = eDisconnecting → outcomeOf e i.1 ≠ none →
    if i.2 then e'.quit = true else e'.quit = e.quit

def Agrees (cfg : Config) (s : Engine × Option Outcome) (i : Input × Bool) : Prop :=
  ∀ s', registrar cfg i s = .ok s' → AgreesAfter s.1 i s'.1 s'.2

/-- The outcomes an engine heeds: a settled one a success, one that registers what is no failure,
and one that un-registers, until `quit` is set, those that are told by their type to be the one it
waits for. -/
def HeedsOutcome (s : Engine × Option Outcome) (i : Input × Bool) : Prop :=
  ∀ lib je, i.1 = .poll lib (some je) → Heard lib s.1 → ∀ o, je.outcome = some o →
    (s.1.currentState.Settled → o = .success) ∧
      (s.1.currentState.Fresh → o ≠ .failure) ∧
      (s.1.currentState = eDisconnecting → s.1.quit = false → je.type.unregisters = i.2)

/-- What carries the induction. -/
def AgreesInv (s : Engine × Option Outcome) : Prop :=
  s.1.currentState.Settled → s.2 = some .success

theorem agrees_iff_after {cfg : Config} {s s' : Engine × Option Outcome} {i : Input × Bool}
    (h : registrar cfg i s = .ok s') : Agrees cfg s i ↔ AgreesAfter s.1 i s'.1 s'.2 := by
  constructor
  · intro hagrees
    exact hagrees s' h
  · intro hafter t ht
    obtain rfl := Except.ok.inj (h.symm.trans ht)
    exact hafter

/-- A step that is given no outcome. -/
theorem agreesAfter_of_none {cfg : Config} {e e' : Engine} {i : Input × Bool}
    {latest : Option Outcome} (hinv : AgreesInv (e, latest)) (h : step cfg i.1 e = .ok e')
    (hnone : outcomeOf e i.1 = none) : AgreesAfter e i e' latest where
  settled := by
    intro hsettled
    rcases settled_of_step h hsettled with hbefore | hsuccess
    · exact hinv hbefore
    · exact absurd (hnone.symm.trans hsuccess) (by simp)
  failed := fun hfailed => absurd (hnone.symm.trans hfailed) (by simp)
  quit := fun _ hsome => absurd hnone hsome

/-- A settled engine that is given an outcome. -/
theorem agreesAfter_settled {cfg : Config} {lib : Lib} {je : Event} {e e' : Engine} {o : Outcome}
    (ofUnregister : Bool) (hsettled : e.currentState.Settled) (hheard : Heard lib e)
    (ho : je.outcome = some o) (h : step cfg (.poll lib (some je)) e = .ok e') :
    AgreesAfter e (.poll lib (some je), ofUnregister) e' (some o) ↔ o = .success := by
  have hgiven : outcomeOf e (.poll lib (some je)) = some o :=
    outcomeOf_eq_some.2 ⟨lib, je, rfl, hheard, ho⟩
  constructor
  · intro hafter
    by_contra hne
    have hstate := poll_settled hheard.1 hsettled (type_of_outcome ho hne) h
    exact hne (Option.some.inj (hafter.settled (hstate ▸ hsettled)))
  · rintro rfl
    refine ⟨fun _ => rfl, fun hfailed => ?_, fun hstate => ?_⟩
    · exact absurd (hgiven.symm.trans hfailed) (by simp)
    · exact absurd hstate hsettled.ne_disconnecting

/-- One that registers. -/
theorem agreesAfter_fresh {cfg : Config} {lib : Lib} {je : Event} {e e' : Engine} {o : Outcome}
    (ofUnregister : Bool) (hfresh : e.currentState.Fresh) (hheard : Heard lib e)
    (ho : je.outcome = some o) (h : step cfg (.poll lib (some je)) e = .ok e') :
    AgreesAfter e (.poll lib (some je), ofUnregister) e' (some o) ↔ o ≠ .failure := by
  have hgiven : outcomeOf e (.poll lib (some je)) = some o :=
    outcomeOf_eq_some.2 ⟨lib, je, rfl, hheard, ho⟩
  have hround := poll_fresh hheard.1 hfresh hheard.2 h
  constructor
  · rintro hafter rfl
    have hfails : ¬Succeeds (some je) := by
      rintro ⟨event, hje, htype⟩
      obtain rfl := Option.some.inj hje
      exact absurd ((outcome_of_succeeds htype).symm.trans ho) (by simp)
    exact hafter.failed hgiven ((if_neg hfails).mp hround).1
  · intro hne
    refine ⟨fun hsettled => ?_, fun hfailed => ?_, fun hstate => ?_⟩
    · rcases settled_of_step h hsettled with hbefore | hsuccess
      · exact absurd hfresh hbefore.not_fresh
      · exact hgiven.symm.trans hsuccess
    · exact absurd (Option.some.inj (hgiven.symm.trans hfailed)) hne
    · rw [hstate] at hfresh
      exact absurd hfresh (by decide)

/-- One that un-registers. -/
theorem agreesAfter_disconnecting {cfg : Config} {lib : Lib} {je : Event} {e e' : Engine}
    {o : Outcome} (ofUnregister : Bool) (hstate : e.currentState = eDisconnecting)
    (hheard : Heard lib e) (ho : je.outcome = some o)
    (h : step cfg (.poll lib (some je)) e = .ok e') :
    AgreesAfter e (.poll lib (some je), ofUnregister) e' (some o) ↔
      (e.quit = false → je.type.unregisters = ofUnregister) := by
  have hgiven : outcomeOf e (.poll lib (some je)) = some o :=
    outcomeOf_eq_some.2 ⟨lib, je, rfl, hheard, ho⟩
  have hquit := poll_disconnecting hheard.1 hstate h
  have hquit_iff : (if ofUnregister then e'.quit = true else e'.quit = e.quit) ↔
      (e.quit = false → je.type.unregisters = ofUnregister) := by
    rw [hquit]
    cases e.quit <;> cases je.type.unregisters <;> cases ofUnregister <;> simp
  rw [← hquit_iff]
  constructor
  · intro hafter
    exact hafter.quit hstate (by simp [hgiven])
  · intro hset
    have hend : e'.currentState = eDisconnecting ∨ e'.currentState = eNotRegistered := by
      obtain ⟨-, hcore | ⟨hnot, -⟩⟩ := held_of_disconnecting (step_arm h) hstate
      · exact Or.inl ((congrArg Core.currentState hcore).trans hstate)
      · exact Or.inr hnot
    refine ⟨fun hsettled => ?_, fun _ hreg => ?_, fun _ _ => hset⟩
    · rcases hend with hend | hend
      · exact absurd hend hsettled.ne_disconnecting
      · exact absurd hend hsettled.ne_notRegistered
    · rcases hend with hend | hend
      · exact absurd (hend.symm.trans hreg) (by decide)
      · exact absurd (hend.symm.trans hreg) (by decide)

/-- **One step.** -/
theorem agrees_iff {cfg : Config} {s s' : Engine × Option Outcome} {i : Input × Bool}
    (hinv : AgreesInv s) (h : registrar cfg i s = .ok s') : Agrees cfg s i ↔ HeedsOutcome s i := by
  obtain ⟨hstep, hlatest⟩ := Machine.record_ok.1 h
  rw [agrees_iff_after h, hlatest]
  cases hgiven : outcomeOf s.1 i.1 with
  | none =>
    refine iff_of_true (agreesAfter_of_none hinv hstep hgiven) ?_
    intro lib je hi hheard o ho
    exact absurd (hgiven.symm.trans (outcomeOf_eq_some.2 ⟨lib, je, hi, hheard, ho⟩)) (by simp)
  | some o =>
    obtain ⟨i, ofUnregister⟩ := i
    obtain ⟨lib, je, rfl, hheard, ho⟩ := outcomeOf_eq_some.1 hgiven
    have hheeds : HeedsOutcome s (.poll lib (some je), ofUnregister) ↔
        (s.1.currentState.Settled → o = .success) ∧ (s.1.currentState.Fresh → o ≠ .failure) ∧
          (s.1.currentState = eDisconnecting → s.1.quit = false →
            je.type.unregisters = ofUnregister) := by
      constructor
      · intro hheeds
        exact hheeds lib je rfl hheard o ho
      · intro hall lib' je' hi _ o' ho'
        obtain ⟨rfl, hje⟩ := Input.poll.inj hi
        obtain rfl := Option.some.inj hje
        obtain rfl := Option.some.inj (ho.symm.trans ho')
        exact hall
    rw [hheeds, Option.some_or]
    rcases s.1.currentState.cases_settled with hsettled | hfresh | hstate
    · rw [agreesAfter_settled ofUnregister hsettled hheard ho hstep]
      refine ⟨fun hsuccess => ⟨fun _ => hsuccess, fun hfresh => ?_, fun hstate => ?_⟩,
        fun hall => hall.1 hsettled⟩
      · exact absurd hfresh hsettled.not_fresh
      · exact absurd hstate hsettled.ne_disconnecting
    · rw [agreesAfter_fresh ofUnregister hfresh hheard ho hstep]
      refine ⟨fun hne => ⟨fun hsettled => ?_, fun _ => hne, fun hstate => ?_⟩,
        fun hall => hall.2.1 hfresh⟩
      · exact absurd hfresh hsettled.not_fresh
      · rw [hstate] at hfresh
        exact absurd hfresh (by decide)
    · rw [agreesAfter_disconnecting ofUnregister hstate hheard ho hstep]
      refine ⟨fun hquit => ⟨fun hsettled => ?_, fun hfresh => ?_, fun _ => hquit⟩,
        fun hall => hall.2.2 hstate⟩
      · exact absurd hstate hsettled.ne_disconnecting
      · rw [hstate] at hfresh
        exact absurd hfresh (by decide)

/-- **The runs on which the engine agrees with the server.**  Each step pays what it owes exactly if
no failure and no termination is brought while the engine takes itself to be registered, no failure
while it registers, and while it un-registers the outcomes of the un-registration are those with
the types of a success or a termination. -/
theorem registration_agrees_iff (cfg : Config)
    (callThid cbid ringbackfile cameraSetup cameraStart : Int) (is : List (Input × Bool)) :
    Machine.Along (registrar cfg) (Agrees cfg) is
        (boot cfg callThid cbid ringbackfile cameraSetup cameraStart, none) ↔
      Machine.Along (registrar cfg) HeedsOutcome is
        (boot cfg callThid cbid ringbackfile cameraSetup cameraStart, none) := by
  refine Machine.along_congr AgreesInv ?_ ?_ ?_
  · intro i s s' _ hagrees h
    exact (hagrees s' h).settled
  · intro i s s' hinv h
    exact agrees_iff hinv h
  · intro hsettled
    exact absurd (show eNotRegistered.Settled from hsettled) (by decide)

/-- The registration is refused. -/
def refused : Event :=
  { type := .registrationFailure, response := some 403 }

/-- The engine goes on waiting for the registration. -/
theorem refused_still_registering : ∃ e e', Reachable {} e ∧
    step {} (.poll {} (some refused)) e = .ok e' ∧
    outcomeOf e (.poll {} (some refused)) = some .failure ∧ e'.currentState = eRegistering := by
  obtain ⟨e, hrun, hp⟩ := Machine.exists_of_okAnd
    (show Machine.okAnd (Machine.run (step {}) [.poll {} none] (boot {} 1 1 (-1) 0 0))
      (fun e => decide (outcomeOf e (.poll {} (some refused)) = some .failure) &&
        Machine.okAnd (step {} (.poll {} (some refused)) e)
          fun e' => decide (e'.currentState = eRegistering)) = true by decide +kernel)
  obtain ⟨hgiven, hstep⟩ := (Bool.and_eq_true _ _).mp hp
  obtain ⟨e', he', hstate⟩ := Machine.exists_of_okAnd hstep
  exact ⟨e, e', ⟨1, 1, -1, 0, 0, _, hrun⟩, he', of_decide_eq_true hgiven,
    of_decide_eq_true hstate⟩

end Furikup
