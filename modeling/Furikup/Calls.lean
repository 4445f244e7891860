import Furikup.Steps

/-!
# Which call the engine is in

The engine knows the call it is in by three numbers, and the SIP library numbers every event with
the call it belongs to.  What follows is about how the two go together.

* `currentCall` — the call the engine is in, according to what it asked of the library and what it
  announced; `IdsOk`, the property of the ids, and `ids_name_the_call_iff`, **the runs on which the
  ids name the call throughout**: those that never dial, and never lose a call before it is
  answered.
* `event_of_another_call` — what an event of another call does.  No handler looks at the id of the
  event's call, so it is taken as an event of the current one.
* `invite_announced_or_passed_over` — what becomes of an INVITE: it is announced in `eREGISTERED`
  and passed over everywhere else.
-/

set_option autoImplicit false

namespace Furikup

open CText CallState

/-! ## The ids of the current call -/

/-- The call the engine is in: the one its last INVITE created, if the library created one, or the
one it announced last. -/
def currentCall : List Action → Option Int
  | [] => none
  | .invite _ _ result :: _ => if 0 < result then some result else none
  | .incomingCall cid _ _ :: _ => some cid
  | _ :: requests => currentCall requests

/-- The ids name the call: `cid` is its id, and `did` is 0 or a dialog of it.  `owner` is the call
each dialog belongs to. -/
def Names (owner : Int → Int) (call : Option Int) (cid did : Int) : Prop :=
  call = some cid ∧ (did = 0 ∨ owner did = cid)

/-- Every call the engine terminated was the one it was in. -/
def TerminatesOk (owner : Int → Int) (requests : List Action) : Prop :=
  ∀ cid did rest, .terminate cid did :: rest <:+ requests →
    Names owner (currentCall rest) cid did

/-- The ids name the call in every call state, and are 0 in `eREGISTERED`. -/
structure IdsOk (owner : Int → Int) (e : Engine) : Prop where
  busy : e.currentState.Busy → Names owner (currentCall e.requests) e.cid e.did
  registered : e.currentState = eRegistered → e.cid = 0 ∧ e.did = 0
  terminates : TerminatesOk owner e.requests

/-- The event types that belong to a call. -/
def EventType.isCall : EventType → Bool
  | .callInvite | .callReinvite | .callNoanswer | .callProceeding | .callRinging | .callAnswered
  | .callRedirected | .callRequestfailure | .callServerfailure | .callGlobalfailure | .callAck
  | .callCancelled | .callTimeout | .callClosed | .callReleased => true
  | _ => false

/-- The library numbers calls with positive ids, and the dialog of an event, if it has one yet,
belongs to the event's call. -/
def StackOk (owner : Int → Int) : Input → Prop
  | .poll _ (some je) => je.type.isCall = true → 0 < je.cid ∧ (je.did = 0 ∨ owner je.did = je.cid)
  | _ => True

/-- The steps that keep the ids in order: no call is dialled; and while a call comes in it does not
end, and what rings or is acknowledged is that call. -/
def KeepsIds (e : Engine) : Input → Prop
  | .gui lib (.newCall _) =>
    ¬(e.thread = .looping ∧ e.currentState = eRegistered ∧ lib.inviteBuilt = true)
  | .poll _ (some je) =>
    e.thread = .looping → e.currentState = eIncomingCall →
      je.type.endsRinging = false ∧
        (je.type = .callRinging ∨ je.type = .callAck → je.cid = e.cid)
  | _ => True

instance (e : Engine) : ∀ i, Decidable (KeepsIds e i)
  | .gui _ (.newCall _) => inferInstanceAs (Decidable (¬_))
  | .gui _ .hangup => isTrue trivial
  | .gui _ .answer => isTrue trivial
  | .gui _ .reject => isTrue trivial
  | .gui _ (.changePresence _) => isTrue trivial
  | .gui _ .shutdown => isTrue trivial
  | .gui _ (.unknown _) => isTrue trivial
  | .poll _ none => isTrue trivial
  | .poll _ (some je) => inferInstanceAs (Decidable (e.thread = .looping →
      e.currentState = eIncomingCall → je.type.endsRinging = false ∧
        (je.type = .callRinging ∨ je.type = .callAck → je.cid = e.cid)))

/-- The invariant of the runs whose steps do. -/
structure IdsInv (owner : Int → Int) (s : Core) : Prop where
  notInCall : s.currentState ≠ eInCall
  busy : s.currentState.Busy → Names owner (currentCall s.requests) s.cid s.did ∧ 0 < s.cid
  idle : ¬s.currentState.Busy → s.cid = 0 ∧ s.did = 0
  terminates : TerminatesOk owner s.requests

theorem TerminatesOk.cons {owner : Int → Int} {requests : List Action}
    (h : TerminatesOk owner requests) {a : Action}
    (ha : ∀ cid did, a = .terminate cid did → Names owner (currentCall requests) cid did) :
    TerminatesOk owner (a :: requests) := by
  intro cid did rest hsuffix
  rcases List.suffix_cons_iff.1 hsuffix with heq | hsuffix
  · obtain ⟨rfl, rfl⟩ := List.cons.inj heq
    exact ha cid did rfl
  · exact h cid did rest hsuffix

theorem TerminatesOk.cons_other {owner : Int → Int} {requests : List Action}
    (h : TerminatesOk owner requests) {a : Action} (ha : ∀ cid did, a ≠ .terminate cid did) :
    TerminatesOk owner (a :: requests) :=
  h.cons fun cid did heq => absurd heq (ha cid did)

theorem IdsInv.idsOk {owner : Int → Int} {e : Engine} (h : IdsInv owner e.core) :
    IdsOk owner e where
  busy := fun hbusy => (h.busy hbusy).1
  registered := fun hreg => h.idle fun hbusy => by
    rcases hbusy with hstate | hstate | hstate <;> exact absurd (hreg.symm.trans hstate) (by decide)
  terminates := h.terminates

@[simp] theorem requests_hangup (s : Core) :
    s.hangup.requests = .terminate s.cid s.did :: s.requests := by
  rw [Core.hangup]
  split <;> rfl

theorem IdsInv.hangup {owner : Int → Int} {s : Core} (hs : IdsInv owner s)
    (hbusy : s.currentState.Busy) : IdsInv owner s.hangup where
  notInCall := by simp
  busy := fun h => absurd h (by simp only [currentState_hangup]; decide)
  idle := fun _ => ⟨rfl, rfl⟩
  terminates := by
    rw [requests_hangup]
    refine hs.terminates.cons fun cid did heq => ?_
    obtain ⟨rfl, rfl⟩ := Action.terminate.inj heq
    exact (hs.busy hbusy).1

/-- A change of state between states without a call. -/
theorem IdsInv.enter {owner : Int → Int} {s s' : Core} (hs : IdsInv owner s)
    (hidle : ¬s.currentState.Busy) (hstate : ¬s'.currentState.Busy) (hcid : s'.cid = s.cid)
    (hdid : s'.did = s.did) (hrequests : TerminatesOk owner s'.requests) : IdsInv owner s' where
  notInCall := fun h => hstate (Or.inl h)
  busy := fun h => absurd h hstate
  idle := fun _ => by rw [hcid, hdid]; exact hs.idle hidle
  terminates := hrequests

theorem not_busy_eNotRegistered : ¬eNotRegistered.Busy := by decide

theorem not_busy_eRegistering : ¬eRegistering.Busy := by decide

theorem not_busy_eRegistered : ¬eRegistered.Busy := by decide

theorem not_busy_eDisconnecting : ¬eDisconnecting.Busy := by decide

theorem idsInv_arm {owner : Int → Int} {cfg : Config} {i : Input} {e e' : Engine}
    (hi : StackOk owner i) (hloop : e.thread = .looping) (hkeeps : KeepsIds e i)
    (hs : IdsInv owner e.core) (harm : Arm cfg i e.core e'.core) : IdsInv owner e'.core := by
  have hstate : e.currentState = e.core.currentState := rfl
  have hcid : e.cid = e.core.cid := rfl
  generalize e.core = s at *
  generalize e'.core = s' at *
  have hincoming (h : s.currentState.Ringing) : s.currentState = eIncomingCall :=
    h.resolve_left hs.notInCall
  cases harm with
  | idle => exact hs
  | makeCall hreg hbuilt => exact absurd ⟨hloop, hstate.trans hreg, hbuilt⟩ hkeeps
  | answerCall hin =>
    exact ⟨hs.notInCall, hs.busy, hs.idle, hs.terminates.cons_other (by simp)⟩
  | hangup _ hbusy => exact hs.hangup hbusy
  | disconnect hreg =>
    refine hs.enter (hreg ▸ not_busy_eRegistered) not_busy_eDisconnecting rfl rfl ?_
    exact hs.terminates.cons_other (by simp)
  | disconnectCall hcall =>
    have hhung := hs.hangup (hcall.elim Or.inl fun h => Or.inr (Or.inl h))
    refine hhung.enter not_busy_eRegistered not_busy_eDisconnecting rfl rfl ?_
    exact hhung.terminates.cons_other (by simp)
  | quit => exact ⟨hs.notInCall, hs.busy, hs.idle, hs.terminates⟩
  | registering hnot =>
    refine hs.enter (hnot ▸ not_busy_eNotRegistered) not_busy_eRegistering rfl rfl ?_
    exact hs.terminates.cons_other (by simp)
  | registeringRegistered hnot =>
    refine hs.enter (hnot ▸ not_busy_eNotRegistered) not_busy_eRegistered rfl rfl ?_
    exact hs.terminates.cons_other (by simp)
  | registered hreg =>
    exact hs.enter (hreg ▸ not_busy_eRegistering) not_busy_eRegistered rfl rfl hs.terminates
  | @incoming lib je _ hreg htype =>
    obtain ⟨hpos, hdid⟩ := hi (by rw [htype]; rfl)
    refine ⟨fun h => (by cases h), fun _ => ⟨⟨rfl, hdid⟩, hpos⟩, fun h => ?_, ?_⟩
    · exact absurd (Or.inr (Or.inr rfl)) h
    · exact (hs.terminates.cons_other (by simp)).cons_other (by simp)
  | @ringing lib je _ hring htype =>
    obtain ⟨hpos, hdid⟩ := hi (by rw [htype]; rfl)
    have hcall : je.cid = s.cid :=
      ((hkeeps hloop (hstate.trans (hincoming hring))).2 (Or.inl htype)).trans hcid
    refine ⟨hs.notInCall, fun hbusy => ⟨⟨?_, hdid⟩, hpos⟩, fun h => ?_, hs.terminates⟩
    · exact (hs.busy hbusy).1.1.trans (congrArg some hcall.symm)
    · exact absurd (Or.inr (Or.inr (hincoming hring))) h
  | answered hring =>
    refine ⟨fun h => (by cases h), fun _ => ?_, fun h => absurd (Or.inr (Or.inl rfl)) h, ?_⟩
    · exact hs.busy (Or.inr (Or.inr (hincoming hring)))
    · exact hs.terminates.cons_other (by simp)
  | @ack lib je _ _ _ hring htype =>
    obtain ⟨hpos, hdid⟩ := hi (by rw [htype]; rfl)
    have hcall : je.cid = s.cid :=
      ((hkeeps hloop (hstate.trans (hincoming hring))).2 (Or.inr htype)).trans hcid
    have hbusy := hs.busy (Or.inr (Or.inr (hincoming hring)))
    refine ⟨fun h => (by cases h), fun _ => ⟨⟨?_, hdid⟩, hpos⟩, fun h => ?_, hs.terminates⟩
    · exact hbusy.1.1.trans (congrArg some hcall.symm)
    · exact absurd (Or.inr (Or.inl rfl)) h
  | ended hring htype =>
    have hnot := (hkeeps hloop (hstate.trans (hincoming hring))).1
    exact absurd (htype.symm.trans hnot) (by decide)
  | closed =>
    exact ⟨fun h => (by cases h), fun h => absurd h not_busy_eRegistered, fun _ => ⟨rfl, rfl⟩,
      hs.terminates⟩
  | disconnected hdis =>
    exact hs.enter (hdis ▸ not_busy_eDisconnecting) not_busy_eNotRegistered rfl rfl hs.terminates

/-- The ring tone and the acknowledgement take over the id of their call. -/
theorem step_takes_cid {cfg : Config} {lib : Lib} {je : Event} {e e' : Engine}
    (hloop : e.thread = .looping) (hstate : e.currentState.Ringing)
    (htype : je.type = .callRinging ∨ je.type = .callAck)
    (h : step cfg (.poll lib (some je)) e = .ok e') :
    e'.currentState.Busy ∧ e'.cid = je.cid ∧ e'.requests = e.requests := by
  obtain ⟨e₁, hswitch, rfl⟩ := (step_poll_ok hloop hstate.busy.ne_notRegistered).1 h
  have hcore := core_loopTest e₁
  have hrequests : ((e.act .lock).act .unlock).requests = e.requests :=
    congrArg Core.requests (core_automatic e)
  suffices hres : e₁.currentState.Busy ∧ e₁.cid = je.cid ∧
      e₁.requests = ((e.act .lock).act .unlock).requests by
    rw [← hrequests]
    rwa [show (loopTest e₁).currentState = e₁.currentState from congrArg Core.currentState hcore,
      show (loopTest e₁).cid = e₁.cid from congrArg Core.cid hcore,
      show (loopTest e₁).requests = e₁.requests from congrArg Core.requests hcore]
  rw [callSwitch_ringing (show ((e.act .lock).act .unlock).currentState.Ringing from hstate),
    onInCall.eq_def] at hswitch
  rcases htype with htype | htype
  · rw [htype] at hswitch
    obtain rfl := pure_eq_ok.1 hswitch
    exact ⟨hstate.busy, rfl, rfl⟩
  · rw [htype] at hswitch
    obtain ⟨audio, -, video, -, rfl⟩ := startMedia_eq_ok.1 hswitch
    have hstart := core_changeState eAnswered { (e.act .lock).act .unlock with
      cid := je.cid, did := je.did, audio := audio, video := video }
    exact ⟨Or.inr (Or.inl rfl), congrArg Core.cid hstart, congrArg Core.requests hstart⟩

/-- A call that ends before it is answered leaves its ids behind. -/
theorem step_ended {cfg : Config} {lib : Lib} {je : Event} {e e' : Engine}
    (hloop : e.thread = .looping) (hstate : e.currentState.Ringing)
    (htype : je.type.endsRinging = true) (h : step cfg (.poll lib (some je)) e = .ok e') :
    e'.core = e.core.enter eRegistered := by
  obtain ⟨e₁, hswitch, rfl⟩ := (step_poll_ok hloop hstate.busy.ne_notRegistered).1 h
  obtain ⟨e₂, he₂, hcore⟩ := callSwitch_endsRinging lib
    (show ((e.act .lock).act .unlock).currentState.Ringing from hstate) htype
  obtain rfl : e₁ = e₂ := Except.ok.inj (hswitch.symm.trans he₂)
  rw [core_loopTest, hcore, core_automatic]

/-- **A step that does not keep the ids in order breaks them.** -/
theorem keepsIds_of_idsOk {owner : Int → Int} {cfg : Config} {i : Input} {e e' : Engine}
    (hs : IdsInv owner e.core) (hstep : step cfg i e = .ok e') (hok : IdsOk owner e') :
    KeepsIds e i := by
  cases i with
  | gui lib event =>
    cases event with
    | newCall address =>
      rintro ⟨hloop, hreg, hbuilt⟩
      obtain ⟨user, haddress⟩ := callAddress_of_step hloop hstep
      obtain ⟨e₂, he₂, hcore⟩ := makeCall_step cfg hloop haddress hreg hbuilt
      obtain rfl : e' = e₂ := Except.ok.inj (hstep.symm.trans he₂)
      have hcid : e'.cid = 0 := (congrArg Core.cid hcore).trans
        (hs.idle (show ¬e.currentState.Busy from hreg ▸ not_busy_eRegistered)).1
      have hrequests : e'.requests = _ := congrArg Core.requests hcore
      have hnamed := (hok.busy (Or.inl (congrArg Core.currentState hcore))).1
      rw [hrequests, hcid, Core.enter, Core.request, currentCall] at hnamed
      split at hnamed
      · next hpos =>
        have hzero := Option.some.inj hnamed
        omega
      · exact absurd hnamed (by simp)
    | _ => trivial
  | poll lib je =>
    cases je with
    | none => trivial
    | some je =>
      intro hloop hin
      have hring : e.currentState.Ringing := Or.inr hin
      obtain ⟨⟨hnamed, -⟩, hpos⟩ := hs.busy hring.busy
      refine ⟨?_, fun htype => ?_⟩
      · cases hends : je.type.endsRinging with
        | false => rfl
        | true =>
          have hcore := step_ended hloop hring hends hstep
          have hzero := (hok.registered (congrArg Core.currentState hcore)).1
          rw [show e'.cid = e.core.cid from congrArg Core.cid hcore] at hzero
          omega
      · obtain ⟨hbusy, hcid, hrequests⟩ := step_takes_cid hloop hring htype hstep
        have hcall := (hok.busy hbusy).1
        rw [hrequests, hcid] at hcall
        exact Option.some.inj (hcall.symm.trans hnamed)

/-- **The runs on which the ids name the call.**  If the library numbers calls and dialogs as it
should, the ids are in order in every state of a run, and every call that is terminated is the
current one, exactly when each step keeps them: no call is dialled, since `makeCall` drops the id
of the call it creates; and a call that comes in does not end before it is answered or rejected,
since the handlers of its end leave the ids behind. -/
theorem ids_name_the_call_iff (owner : Int → Int) (cfg : Config)
    (callThid cbid ringbackfile cameraSetup cameraStart : Int) {is : List Input}
    (his : ∀ i ∈ is, StackOk owner i) :
    Machine.Always (step cfg) (IdsOk owner) is
        (boot cfg callThid cbid ringbackfile cameraSetup cameraStart) ↔
      Machine.Along (step cfg) KeepsIds is
        (boot cfg callThid cbid ringbackfile cameraSetup cameraStart) := by
  refine Machine.always_iff_along (fun _ => IdsInv.idsOk) ?_
    (fun _ _ _ hs hstep hok => keepsIds_of_idsOk hs hstep hok) his ?_
  · intro i e e' hi hs hkeeps hstep
    by_cases hloop : e.thread = .looping
    · exact idsInv_arm hi hloop hkeeps hs (step_arm hstep)
    · rw [step.eq_def, if_neg hloop] at hstep
      exact pure_eq_ok.1 hstep ▸ hs
  · refine ⟨fun h => (by cases h), fun h => absurd h not_busy_eNotRegistered,
      fun _ => ⟨rfl, rfl⟩, ?_⟩
    intro cid did rest hsuffix
    exact absurd (List.suffix_nil.1 hsuffix) (List.cons_ne_nil _ _)

theorem ids_name_the_call_iff_reject :
    Machine.Always (step {}) (IdsOk fun did => did - 10) (incomingInputs ++ [.gui {} .reject])
      (boot {} 1 1 (-1) 0 0) := by
  refine (ids_name_the_call_iff (fun did => did - 10) {} 1 1 (-1) 0 0 ?_).2 (by decide +kernel)
  simp [incomingInputs, StackOk, EventType.isCall]

/-- A dialled call is hung up as call 0, while the library knows it as call 1. -/
theorem dialled_call_not_named :
    ∃ e, Machine.run (step {})
        [.poll {} none, .poll {} (some { type := .registrationSuccess, rid := 1 }),
          .gui {} (.newCall (lit "sip:bob@example.org")), .gui {} .hangup]
        (boot {} 1 1 (-1) 0 0) = .ok e ∧
      ∃ rest, e.requests = .terminate 0 0 :: rest ∧ currentCall rest = some 1 := by
  obtain ⟨e, hrun, hp⟩ := Machine.exists_of_okAnd
    (show Machine.okAnd (Machine.run (step {})
        [.poll {} none, .poll {} (some { type := .registrationSuccess, rid := 1 }),
          .gui {} (.newCall (lit "sip:bob@example.org")), .gui {} .hangup]
        (boot {} 1 1 (-1) 0 0))
      (fun e => decide (e.requests.head? = some (.terminate 0 0) ∧
        currentCall e.requests.tail = some 1)) = true by decide +kernel)
  obtain ⟨hhead, htail⟩ := of_decide_eq_true hp
  exact ⟨e, hrun, e.requests.tail, (List.cons_head?_tail hhead).symm, htail⟩

/-! ## INVITEs -/

/-- The call is announced: its ids are stored, 180 is sent and the user interface told. -/
structure Announced (lib : Lib) (je : Event) (e e' : Engine) : Prop where
  currentState : e'.currentState = eIncomingCall
  ids : e'.cid = je.cid ∧ e'.did = je.did ∧ e'.tid = je.tid
  requests : e'.requests = .incomingCall je.cid je.displayname (-1) ::
    .answer je.tid 180 none lib.answerResult :: e.requests

/-- The INVITE is passed over: no call state is entered or left, the ids are as they were, and
nothing is requested but a registration that was due. -/
structure PassedOver (lib : Lib) (e e' : Engine) : Prop where
  currentState : e'.currentState = e.currentState ∨
    e.currentState = eNotRegistered ∧ e'.currentState = eRegistering
  ids : e'.cid = e.cid ∧ e'.did = e.did ∧ e'.tid = e.tid
  requests : e'.requests = e.requests ∨
    e.currentState = eNotRegistered ∧ e'.requests = .register lib.registerId 120 :: e.requests

/-- The events that ask for a call or for a change of one. -/
def EventType.isInvite : EventType → Bool
  | .callInvite | .callReinvite => true
  | _ => false

theorem callSwitch_invite_registered (lib : Lib) {je : Event} {e : Engine}
    (hstate : e.currentState = eRegistered) (htype : je.type = .callInvite) :
    ∃ e', callSwitch lib je e = .ok e' ∧ Announced lib je e e' := by
  rw [callSwitch, hstate, onRegistered, htype]
  refine ⟨_, rfl, rfl, ⟨rfl, rfl, rfl⟩, rfl⟩

theorem callSwitch_invite_other (lib : Lib) {je : Event} {e : Engine}
    (htype : je.type.isInvite = true)
    (hstate : ¬(e.currentState = eRegistered ∧ je.type = .callInvite)) :
    callSwitch lib je e = .ok e := by
  have hinvite : je.type = .callInvite ∨ je.type = .callReinvite := by
    cases hje : je.type <;> simp_all [EventType.isInvite]
  rcases hinvite with hje | hje
  · have hnot : e.currentState ≠ eRegistered := fun h => hstate ⟨h, hje⟩
    cases hs : e.currentState <;> simp_all [callSwitch, onRegistering, onInCall, onAnswered,
      onDisconnecting]
  · cases hs : e.currentState <;> simp_all [callSwitch, onRegistering, onRegistered, onInCall,
      onAnswered, onDisconnecting]

/-- The fields of an engine whose core is known. -/
theorem passedOver_of_core {lib : Lib} {e e' : Engine} (h : e'.core = e.core) :
    PassedOver lib e e' :=
  ⟨Or.inl (congrArg Core.currentState h),
    ⟨congrArg Core.cid h, congrArg Core.did h, congrArg Core.tid h⟩,
    Or.inl (congrArg Core.requests h)⟩

theorem passedOver_of_registering {lib : Lib} {e e' : Engine}
    (hstate : e.currentState = eNotRegistered)
    (h : e'.core = (e.core.request (.register lib.registerId 120)).enter eRegistering) :
    PassedOver lib e e' :=
  ⟨Or.inr ⟨hstate, congrArg Core.currentState h⟩,
    ⟨congrArg Core.cid h, congrArg Core.did h, congrArg Core.tid h⟩,
    Or.inr ⟨hstate, congrArg Core.requests h⟩⟩

/-- A round on an INVITE in a state where it is passed over. -/
theorem callThread_invite_other (lib : Lib) (je : Event) {e : Engine}
    (hloop : e.thread = .looping) (htype : je.type.isInvite = true)
    (hstate : ¬(e.currentState = eRegistered ∧ je.type = .callInvite)) :
    ∃ e', callThread lib (some je) e = .ok e' ∧ PassedOver lib e e' := by
  by_cases hthread : (registerStep lib e).thread = .looping
  · have hswitch : callSwitch lib je (((registerStep lib e).act .lock).act .unlock) =
        .ok (((registerStep lib e).act .lock).act .unlock) := by
      refine callSwitch_invite_other lib htype ?_
      rintro ⟨hreg, hje⟩
      rcases core_registerStep lib hthread with ⟨-, hcore⟩ | ⟨-, hcore⟩
      · have hregistering : (registerStep lib e).currentState = eRegistering :=
          congrArg Core.currentState hcore
        exact absurd (hregistering.symm.trans hreg) (by decide)
      · rw [hcore] at hreg
        exact hstate ⟨hreg, hje⟩
    refine ⟨loopTest (((registerStep lib e).act .lock).act .unlock), ?_, ?_⟩
    · rw [callThread, callThreadBody]
      simp only [if_neg (not_not.2 hthread), hswitch]
      rfl
    · have hcore := (core_loopTest (((registerStep lib e).act .lock).act .unlock)).trans
        (core_automatic (registerStep lib e))
      rcases core_registerStep lib hthread with ⟨hnot, hreg⟩ | ⟨-, hreg⟩
      · exact passedOver_of_registering hnot (hcore.trans hreg)
      · exact passedOver_of_core (hcore.trans (congrArg Engine.core hreg))
  · refine ⟨loopTest (registerStep lib e), ?_, ?_⟩
    · rw [callThread, callThreadBody]
      simp only [if_pos hthread]
      rfl
    · exact passedOver_of_core ((core_loopTest _).trans
        (core_registerStep_of_returned lib hloop hthread))

/-- A round on an INVITE in `eREGISTERED`. -/
theorem step_invite_registered (cfg : Config) (lib : Lib) {je : Event} {e : Engine}
    (hloop : e.thread = .looping) (hstate : e.currentState = eRegistered)
    (htype : je.type = .callInvite) :
    ∃ e', step cfg (.poll lib (some je)) e = .ok e' ∧ Announced lib je e e' := by
  obtain ⟨e₁, he₁, hann⟩ := callSwitch_invite_registered lib
    (show ((e.act .lock).act .unlock).currentState = eRegistered from hstate) htype
  have hcore := core_loopTest e₁
  refine ⟨loopTest e₁, (step_poll_ok hloop (by rw [hstate]; decide)).2 ⟨e₁, he₁, rfl⟩, ?_, ?_, ?_⟩
  · exact (congrArg Core.currentState hcore).trans hann.currentState
  · exact ⟨(congrArg Core.cid hcore).trans hann.ids.1, (congrArg Core.did hcore).trans hann.ids.2.1,
      (congrArg Core.tid hcore).trans hann.ids.2.2⟩
  · exact (congrArg Core.requests hcore).trans hann.requests

/-- What one INVITE or re-INVITE comes to. -/
theorem step_invite (cfg : Config) (lib : Lib) {je : Event} {e : Engine}
    (hloop : e.thread = .looping) (htype : je.type.isInvite = true) :
    ∃ e', step cfg (.poll lib (some je)) e = .ok e' ∧
      if e.currentState = eRegistered ∧ je.type = .callInvite then Announced lib je e e'
      else PassedOver lib e e' := by
  by_cases hstate : e.currentState = eRegistered ∧ je.type = .callInvite
  · simp only [if_pos hstate]
    exact step_invite_registered cfg lib hloop hstate.1 hstate.2
  · simp only [if_neg hstate]
    rw [step.eq_def, if_pos hloop]
    exact callThread_invite_other lib je hloop htype hstate

/-- How many calls were announced to the user interface. -/
def announcements (requests : List Action) : Nat :=
  requests.countP fun a => match a with
    | .incomingCall .. => true
    | _ => false

/-- The step processes an INVITE in `eREGISTERED`. -/
def announces (e : Engine) : Input → Bool
  | .poll _ (some je) =>
    decide (e.thread = .looping ∧ e.currentState = eRegistered ∧ je.type = .callInvite)
  | _ => false

theorem exists_of_announces {i : Input} {e : Engine} (h : announces e i = true) :
    ∃ lib je, i = .poll lib (some je) ∧ e.thread = .looping ∧ e.currentState = eRegistered ∧
      je.type = .callInvite := by
  cases i with
  | gui lib event => exact absurd h Bool.false_ne_true
  | poll lib je =>
    cases je with
    | none => exact absurd h Bool.false_ne_true
    | some je => exact ⟨lib, je, rfl, of_decide_eq_true h⟩

theorem announcements_step {cfg : Config} {i : Input} {e e' : Engine}
    (hstep : step cfg i e = .ok e') :
    announcements e'.requests = announcements e.requests + if announces e i then 1 else 0 := by
  by_cases hann : announces e i = true
  · rw [if_pos hann]
    obtain ⟨lib, je, rfl, hloop, hstate, htype⟩ := exists_of_announces hann
    obtain ⟨e₁, he₁, h⟩ := step_invite_registered cfg lib hloop hstate htype
    obtain rfl : e' = e₁ := Except.ok.inj (hstep.symm.trans he₁)
    rw [h.requests]
    simp [announcements]
  · rw [if_neg hann, Nat.add_zero]
    by_cases hloop : e.thread = .looping
    · have harm := step_arm hstep
      have hstate : e.currentState = e.core.currentState := rfl
      change announcements e'.core.requests = announcements e.core.requests
      generalize e.core = s at *
      generalize e'.core = s' at *
      cases harm with
      | incoming hreg htype => exact absurd (decide_eq_true ⟨hloop, hstate.trans hreg, htype⟩) hann
      | hangup => simp [announcements]
      | disconnectCall => simp [announcements, Core.enter, Core.request]
      | _ => rfl
    · rw [step.eq_def, if_neg hloop] at hstep
      rw [pure_eq_ok.1 hstep]

/-- **What becomes of an INVITE.**  In `eREGISTERED` it is announced; in every other state, and a
re-INVITE always, it is passed over without a response.  So over a run the calls announced are the
INVITEs processed in `eREGISTERED`. -/
theorem invite_announced_or_passed_over (cfg : Config) :
    (∀ (lib : Lib) (je : Event) (e : Engine), e.thread = .looping → je.type.isInvite = true →
      ∃ e', step cfg (.poll lib (some je)) e = .ok e' ∧
        if e.currentState = eRegistered ∧ je.type = .callInvite then Announced lib je e e'
        else PassedOver lib e e') ∧
    (∀ (callThid cbid ringbackfile cameraSetup cameraStart : Int) (is : List Input) (e : Engine),
      Machine.run (step cfg) is (boot cfg callThid cbid ringbackfile cameraSetup cameraStart) =
        .ok e →
      announcements e.requests = Machine.countAlong (step cfg) announces is
        (boot cfg callThid cbid ringbackfile cameraSetup cameraStart)) := by
  constructor
  · intro lib je e hloop htype
    exact step_invite cfg lib hloop htype
  intro callThid cbid ringbackfile cameraSetup cameraStart is e hrun
  have hcount := Machine.run_measure (μ := fun e => announcements e.requests)
    (fun _ _ _ hstep => announcements_step hstep) hrun
  rw [hcount]
  exact Nat.zero_add _

theorem invite_announced_or_passed_over_incoming : ∃ e e',
    e.currentState = eIncomingCall ∧
      step {} (.poll {} (some { type := .callReinvite })) e = .ok e' ∧ PassedOver {} e e' := by
  obtain ⟨e, -, hloop, hstate, -⟩ := exists_incoming
  obtain ⟨e', he', h⟩ := (invite_announced_or_passed_over {}).1 {} { type := .callReinvite } e
    hloop rfl
  rw [if_neg (by simp)] at h
  exact ⟨e, e', hstate, he', h⟩

/-- A second call that comes in during the first is neither announced nor answered. -/
theorem second_invite_passed_over : ∃ e e', Reachable {} e ∧ e.currentState = eIncomingCall ∧
    step {} (.poll {} (some { type := .callInvite, cid := 2, did := 12, tid := 22 })) e = .ok e' ∧
      e'.cid = 1 ∧ e'.requests = e.requests := by
  obtain ⟨e, hreach, hloop, hstate, hcid⟩ := exists_incoming
  obtain ⟨e', he', h⟩ := callThread_invite_other {}
    { type := .callInvite, cid := 2, did := 12, tid := 22 } hloop rfl (by simp [hstate])
  refine ⟨e, e', hreach, hstate, by rw [step.eq_def, if_pos hloop]; exact he', ?_, ?_⟩
  · exact h.ids.1.trans hcid
  · refine h.requests.resolve_right fun hnot => ?_
    exact absurd (hstate.symm.trans hnot.1) (by decide)

/-! ## Events of another call -/

/-- The core but for the stored call id. -/
def Core.withoutCid (s : Core) : Core :=
  { s with cid := 0 }

/-- What a round with an event comes to, but for the stored call id. -/
def effect (cfg : Config) (lib : Lib) (je : Event) (e : Engine) : C Core :=
  (step cfg (.poll lib (some je)) e).map fun e' => e'.core.withoutCid

/-- The part of a call that an event of type `type` leaves alone while the call is being set up. -/
structure LeftAlone (type : EventType) (s s' : Core) : Prop where
  tid : s'.tid = s.tid
  ids : type ≠ .callRinging → type ≠ .callAck → s'.cid = s.cid ∧ s'.did = s.did
  currentState : type = .callRinging → s'.currentState = s.currentState
  audio : type ≠ .callAnswered → type ≠ .callAck →
    s'.audio.session = s.audio.session ∧ s'.audio.calls = s.audio.calls
  video : type ≠ .callAnswered → type ≠ .callAck → s'.video = s.video

theorem startMedia_cid (lib : Lib) (tid c d : Int) (incoming : Bool) (e : Engine) :
    (startMedia lib tid incoming { e with cid := c }).map (fun e' => e'.core.withoutCid) =
      (startMedia lib tid incoming { e with cid := d }).map fun e' => e'.core.withoutCid := by
  simp only [startMedia]
  cases rtpAudioSetup lib.remoteSdp tid incoming e.ports e.audio with
  | error f => rfl
  | ok audio =>
    cases rtpVideoSetup lib.remoteSdp tid incoming e.ports e.video with
    | error f => rfl
    | ok video => rfl

theorem callSwitch_cid (lib : Lib) (je : Event) (c : Int) {e : Engine}
    (hstate : e.currentState.Busy) :
    (callSwitch lib { je with cid := c } e).map (fun e' => e'.core.withoutCid) =
      (callSwitch lib je e).map fun e' => e'.core.withoutCid := by
  have hring (hring : e.currentState.Ringing) :
      (onInCall lib { je with cid := c } e).map (fun e' => e'.core.withoutCid) =
        (onInCall lib je e).map fun e' => e'.core.withoutCid := by
    simp only [onInCall.eq_def]
    cases je.type with
    | callAck => exact startMedia_cid lib je.tid c je.cid true { e with did := je.did }
    | _ => rfl
  rcases hstate with h | h | h
  · rw [callSwitch_ringing (Or.inl h), callSwitch_ringing (Or.inl h)]
    exact hring (Or.inl h)
  · simp only [callSwitch, h, onAnswered.eq_def]
  · rw [callSwitch_ringing (Or.inr h), callSwitch_ringing (Or.inr h)]
    exact hring (Or.inr h)

theorem effect_eq (cfg : Config) (lib : Lib) (je : Event) {e : Engine}
    (hloop : e.thread = .looping) (hstate : e.currentState.Busy) :
    effect cfg lib je e = (callSwitch lib je ((e.act .lock).act .unlock)).map
      fun e' => e'.core.withoutCid := by
  rw [effect, step_poll hloop hstate.ne_notRegistered]
  cases callSwitch lib je ((e.act .lock).act .unlock) with
  | error f => rfl
  | ok e₁ =>
    change Except.ok (loopTest e₁).core.withoutCid = Except.ok e₁.core.withoutCid
    rw [core_loopTest]

theorem answered_arm {cfg : Config} {lib : Lib} {je : Event} {s s' : Core}
    (hstate : s.currentState = eAnswered) (htype : je.type ≠ .callClosed)
    (harm : Arm cfg (.poll lib (some je)) s s') : s' = s := by
  cases harm with
  | idle => rfl
  | closed _ hclosed => exact absurd hclosed htype
  | ringing hring => exact absurd hring (by rw [hstate]; decide)
  | answered hring => exact absurd hring (by rw [hstate]; decide)
  | ack hring => exact absurd hring (by rw [hstate]; decide)
  | ended hring => exact absurd hring (by rw [hstate]; decide)
  | registering h | registeringRegistered h | registered h | incoming h | disconnected h =>
    exact absurd (hstate.symm.trans h) (by decide)

theorem leftAlone_of_arm {cfg : Config} {lib : Lib} {je : Event} {s s' : Core}
    (hstate : s.currentState.Ringing) (harm : Arm cfg (.poll lib (some je)) s s') :
    LeftAlone je.type s s' := by
  have hother {state : CallState} (h : s.currentState = state) (hnot : ¬state.Ringing) : False :=
    hnot (h ▸ hstate)
  cases harm with
  | idle => exact ⟨rfl, fun _ _ => ⟨rfl, rfl⟩, fun _ => rfl, fun _ _ => ⟨rfl, rfl⟩, fun _ _ => rfl⟩
  | ringing _ htype =>
    rw [htype]
    refine ⟨rfl, fun h => absurd rfl h, fun _ => rfl, fun _ _ => ?_, fun _ _ => rfl⟩
    change (playRingback s.audio).session = _ ∧ (playRingback s.audio).calls = _
    rw [playRingback]
    split
    · exact ⟨rfl, rfl⟩
    · exact ⟨rfl, rfl⟩
  | answered _ htype =>
    rw [htype]
    exact ⟨rfl, fun _ _ => ⟨rfl, rfl⟩, (by simp), fun h => absurd rfl h, fun h => absurd rfl h⟩
  | ack _ htype =>
    rw [htype]
    exact ⟨rfl, fun _ h => absurd rfl h, (by simp), fun _ h => absurd rfl h,
      fun _ h => absurd rfl h⟩
  | ended _ htype =>
    refine ⟨rfl, fun _ _ => ⟨rfl, rfl⟩, fun hring => ?_, fun _ _ => ⟨rfl, rfl⟩, fun _ _ => rfl⟩
    rw [hring] at htype
    exact absurd htype (by decide)
  | registering h => exact (hother h (by decide)).elim
  | registeringRegistered h => exact (hother h (by decide)).elim
  | registered h => exact (hother h (by decide)).elim
  | incoming h => exact (hother h (by decide)).elim
  | closed h => exact (hother h (by decide)).elim
  | disconnected h => exact (hother h (by decide)).elim

/-- **What an event does in a call, whichever call it is of.**  In an answered call only CLOSED does
anything.  While a call is being set up an event never changes `tid`; it changes `cid` and `did`
only as a RINGING or an ACK, the state not as a RINGING, and the sessions only as an ANSWERED or an
ACK.  In either case an event of another call does just what it would do as an event of the
current one. -/
theorem event_of_another_call {cfg : Config} {lib : Lib} {je : Event} {e e' : Engine}
    (hloop : e.thread = .looping) (hbusy : e.currentState.Busy)
    (hstep : step cfg (.poll lib (some je)) e = .ok e') :
    (e.currentState = eAnswered → je.type ≠ .callClosed → e'.core = e.core) ∧
      (e.currentState.Ringing → LeftAlone je.type e.core e'.core) ∧
      effect cfg lib je e = effect cfg lib { je with cid := e.cid } e := by
  refine ⟨fun hstate hnot => answered_arm hstate hnot (step_arm hstep),
    fun hstate => leftAlone_of_arm hstate (step_arm hstep), ?_⟩
  rw [effect_eq cfg lib je hloop hbusy, effect_eq cfg lib _ hloop hbusy]
  exact (callSwitch_cid lib je e.cid
    (show ((e.act .lock).act .unlock).currentState.Busy from hbusy)).symm

theorem event_of_another_call_ringing : ∃ e e',
    e.currentState = eIncomingCall ∧ e.cid = 1 ∧
      step {} (.poll {} (some { type := .callRinging, cid := 2, did := 12 })) e = .ok e' ∧
      e'.cid = 2 ∧ LeftAlone .callRinging e.core e'.core := by
  obtain ⟨e, -, hloop, hstate, hcid⟩ := exists_incoming
  have hring : e.currentState.Ringing := Or.inr hstate
  have hswitch : ∃ e₁, callSwitch {} { type := .callRinging, cid := 2, did := 12 }
      ((e.act .lock).act .unlock) = .ok e₁ ∧ e₁.core.cid = 2 := by
    rw [callSwitch_ringing (show ((e.act .lock).act .unlock).currentState.Ringing from hring)]
    exact ⟨_, rfl, rfl⟩
  obtain ⟨e₁, he₁, hcid₁⟩ := hswitch
  have hstep : step {} (.poll {} (some { type := .callRinging, cid := 2, did := 12 })) e =
      .ok (loopTest e₁) := (step_poll_ok hloop hring.busy.ne_notRegistered).2 ⟨e₁, he₁, rfl⟩
  exact ⟨e, loopTest e₁, hstate, hcid, hstep,
    (congrArg Core.cid (core_loopTest e₁)).trans hcid₁,
    (event_of_another_call hloop hring.busy hstep).2.1 hring⟩

/-- A call that comes in after the one before it was rejected. -/
def nextCallInputs : List Input :=
  incomingInputs ++ [.gui {} .reject,
    .poll {} (some { type := .callInvite, cid := 2, did := 12, tid := 22 })]

/-- What is left of the rejected call. -/
def lateClosed : Event :=
  { type := .callClosed, cid := 1, did := 11 }

/-- The end of a call that was rejected comes late and ends the next one. -/
theorem late_closed_ends_next_call : ∃ e e', Reachable {} e ∧ e.currentState = eIncomingCall ∧
    e.cid = 2 ∧ step {} (.poll {} (some lateClosed)) e = .ok e' ∧
      e'.currentState = eRegistered := by
  obtain ⟨e, hrun, hp⟩ := Machine.exists_of_okAnd
    (show Machine.okAnd (Machine.run (step {}) nextCallInputs (boot {} 1 1 (-1) 0 0))
      (fun e => decide (e.thread = .looping ∧ e.currentState = eIncomingCall ∧ e.cid = 2)) = true
      by decide +kernel)
  obtain ⟨hloop, hstate, hcid⟩ := of_decide_eq_true hp
  have hreach : Reachable {} e := ⟨1, 1, -1, 0, 0, nextCallInputs, hrun⟩
  have hring : e.currentState.Ringing := Or.inr hstate
  obtain ⟨e₁, he₁, hcore⟩ := callSwitch_endsRinging {}
    (show ((e.act .lock).act .unlock).currentState.Ringing from hring)
    (show lateClosed.type.endsRinging = true from rfl)
  have hstep : step {} (.poll {} (some lateClosed)) e = .ok (loopTest e₁) :=
    (step_poll_ok hloop hring.busy.ne_notRegistered).2 ⟨e₁, he₁, rfl⟩
  refine ⟨e, loopTest e₁, hreach, hstate, hcid, hstep, ?_⟩
  exact congrArg Core.currentState ((core_loopTest e₁).trans hcore)

end Furikup
