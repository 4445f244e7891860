import Furikup.Osip.Lifetime

/-!
# What a client does and what a server does

The two machines of clients do the same kinds of things, and so do the two of servers.

* `happenings` — what the users of the stack are told, in the words of `Exchange`.
* `Queued` — where the events in a queue come from.
* `ClientMove` and `ServerMove` — all that an event does to a client and to a server.
* `clientMove_osipTransactionExecute` and `serverMove_osipTransactionExecute` — nothing else is done.
-/

set_option autoImplicit false

namespace Furikup
namespace Osip

open CText

/-! ## What is told and what is sent -/

abbrev Happening := Exchange.Event SipMessage SipMessage

/-- What a callback is to the user of the stack.  What is done again is not news. -/
def MessageCallback.happening (msg : Option SipMessage) : MessageCallback → Option Happening
  | .ictInviteSent | .nictRegisterSent | .nictByeSent | .nictOptionsSent | .nictInfoSent
  | .nictCancelSent | .nictNotifySent | .nictSubscribeSent | .nictUnknownRequestSent =>
    msg.map .ask
  | .ictStatus1xxReceived | .ictStatus2xxReceived | .ictStatus3xxReceived | .ictStatus4xxReceived
  | .ictStatus5xxReceived | .ictStatus6xxReceived | .nictStatus1xxReceived | .nictStatus2xxReceived
  | .nictStatus3xxReceived | .nictStatus4xxReceived | .nictStatus5xxReceived
  | .nictStatus6xxReceived => msg.map .tell
  | .istInviteReceived | .nistRegisterReceived | .nistByeReceived | .nistOptionsReceived
  | .nistInfoReceived | .nistCancelReceived | .nistNotifyReceived | .nistSubscribeReceived
  | .nistUnknownRequestReceived => msg.map .announce
  | .istStatus1xxSent | .istStatus2xxSent | .istStatus3xxSent | .istStatus4xxSent
  | .istStatus5xxSent | .istStatus6xxSent | .nistStatus1xxSent | .nistStatus2xxSent
  | .nistStatus3xxSent | .nistStatus4xxSent | .nistStatus5xxSent | .nistStatus6xxSent =>
    msg.map .give
  | .istAckReceived => some .confirm
  | .ictStatusTimeout | .nictStatusTimeout => some .giveUp
  | .ictInviteSentAgain | .ictAckSent | .ictAckSentAgain | .ictStatus3456xxReceivedAgain
  | .istInviteReceivedAgain | .istAckReceivedAgain | .istStatus2xxSentAgain
  | .istStatus3456xxSentAgain | .nictRequestSentAgain | .nistRequestReceivedAgain
  | .nistStatus2xxSentAgain | .nistStatus3456xxSentAgain => none

/-- A server that cannot send has nobody to tell. -/
def Output.happening : Output → Option Happening
  | .sendMessage _ _ _ => none
  | .message type msg => type.happening msg
  | .transportError .ict _ | .transportError .nict _ => some .giveUp
  | .transportError .ist _ | .transportError .nist _ => none
  | .killTransaction _ => none

def happenings (outs : List Output) : List Happening :=
  outs.filterMap Output.happening

/-- The message that has gone out, if one has. -/
def Output.sent : Output → Option SipMessage
  | .sendMessage msg _ result => if result = 0 then msg else none
  | .message _ _ | .transportError _ _ | .killTransaction _ => none

def sent (outs : List Output) : List SipMessage :=
  outs.filterMap Output.sent

@[simp] theorem happenings_after (outs : List Output) (r : Result) :
    happenings (r.after outs).2 = happenings outs ++ happenings r.2 :=
  List.filterMap_append

@[simp] theorem sent_after (outs : List Output) (r : Result) :
    sent (r.after outs).2 = sent outs ++ sent r.2 :=
  List.filterMap_append

theorem sent_ok {result : Int} (h : result = 0) (msg : Option SipMessage) (d : Destination) :
    sent [.sendMessage msg d result] = msg.toList := by
  rw [sent, List.filterMap_cons, Output.sent, if_pos h]
  cases msg <;> rfl

theorem sent_fail {result : Int} (h : result ≠ 0) (msg : Option SipMessage) (d : Destination) :
    sent [.sendMessage msg d result] = [] := by
  rw [sent, List.filterMap_cons, Output.sent, if_neg h]
  rfl

@[simp] theorem sent_nil : sent [] = [] := rfl

@[simp] theorem sent_message (type : MessageCallback) (msg : Option SipMessage)
    (outs : List Output) : sent (.message type msg :: outs) = sent outs := rfl

/-! ## Events in a queue -/

def SipMessage.isAck (msg : SipMessage) : Bool :=
  msg.isMethod "ACK"

theorem isAck_of_isInvite {msg : SipMessage} (h : msg.isMethod "INVITE" = true) :
    msg.isAck = false := by
  have hne : (lit "INVITE" == lit "ACK") = false := by
    rw [beq_eq_false_iff_ne]
    simp [lit]
  simp only [SipMessage.isMethod, SipMessage.isAck, Bool.and_eq_true, beq_iff_eq] at h ⊢
  rw [h.2, hne, Bool.and_false]

/-- What holds of the six kinds of messages holds of what is picked by the kind. -/
theorem of_kind {α : Type} {P : α → Prop} {invite ack request provisional success failure : α}
    (msg : SipMessage) (hinvite : msg.isAck = false → P invite) (hack : msg.isAck = true → P ack)
    (hrequest : msg.isAck = false → P request)
    (hprovisional : msg.isRequest = false → ¬ Final msg → P provisional)
    (hsuccess : msg.isRequest = false → Final msg → P success)
    (hfailure : msg.isRequest = false → Final msg → P failure) :
    P (if msg.isRequest then
        if msg.isMethod "INVITE" then invite
        else if msg.isMethod "ACK" then ack
        else request
      else if msg.isStatus 1 then provisional
      else if msg.isStatus 2 then success
      else failure) := by
  split
  · split
    · exact hinvite (isAck_of_isInvite ‹_›)
    · split
      · exact hack ‹_›
      · exact hrequest (Bool.eq_false_iff.2 ‹_›)
  · have hresponse : msg.isRequest = false := Bool.eq_false_iff.2 ‹_›
    split
    · next hprov =>
      exact hprovisional hresponse fun hfinal => Bool.noConfusion (hprov.symm.trans hfinal.2)
    · next hprov =>
      have hfinal : Final msg := ⟨hresponse, Bool.eq_false_iff.2 hprov⟩
      split
      · exact hsuccess hresponse hfinal
      · exact hfailure hresponse hfinal

/-- What the type of an event says of its message. -/
def EventType.Describes (msg : SipMessage) : EventType → Prop
  | .rcvReqInvite | .rcvRequest | .sndReqInvite | .sndRequest => msg.isAck = false
  | .rcvReqAck | .sndReqAck => msg.isAck = true
  | .rcvStatus1xx | .sndStatus1xx => msg.isRequest = false ∧ ¬ Final msg
  | .rcvStatus2xx | .rcvStatus3456xx | .sndStatus2xx | .sndStatus3456xx =>
    msg.isRequest = false ∧ Final msg
  | _ => False

/-- The types of what has come in. -/
def rcvTypes : List EventType :=
  [.rcvReqInvite, .rcvReqAck, .rcvRequest, .rcvStatus1xx, .rcvStatus2xx, .rcvStatus3456xx]

/-- The types of what is to go out. -/
def sndTypes : List EventType :=
  [.sndReqInvite, .sndReqAck, .sndRequest, .sndStatus1xx, .sndStatus2xx, .sndStatus3456xx]

/-- The types of events without a message. -/
def timerTypes : List EventType :=
  [.timeoutA, .timeoutB, .timeoutD, .timeoutE, .timeoutF, .timeoutK, .timeoutG, .timeoutH, .timeoutI,
    .timeoutJ, .killTransaction]

theorem incoming_spec (msg : SipMessage) :
    evtSetTypeIncomingSipmessage msg ∈ rcvTypes ∧
      (evtSetTypeIncomingSipmessage msg).Describes msg :=
  of_kind (P := fun type => type ∈ rcvTypes ∧ type.Describes msg) msg (⟨by decide, ·⟩)
    (⟨by decide, ·⟩) (⟨by decide, ·⟩) (⟨by decide, ·, ·⟩) (⟨by decide, ·, ·⟩) (⟨by decide, ·, ·⟩)

theorem outgoing_spec (msg : SipMessage) :
    evtSetTypeOutgoingSipmessage msg ∈ sndTypes ∧
      (evtSetTypeOutgoingSipmessage msg).Describes msg :=
  of_kind (P := fun type => type ∈ sndTypes ∧ type.Describes msg) msg (⟨by decide, ·⟩)
    (⟨by decide, ·⟩) (⟨by decide, ·⟩) (⟨by decide, ·, ·⟩) (⟨by decide, ·, ·⟩) (⟨by decide, ·, ·⟩)

/-- The events that are put in the queue, where what has come in is `received`. -/
inductive Queued (received : SipMessage → Prop) : Event → Prop
  | outgoing (msg : SipMessage) : Queued received (.outgoing msg)
  | incoming (msg : SipMessage) (h : received msg) : Queued received (.incoming msg)
  | timer (type : EventType) (h : type ∈ timerTypes) : Queued received (osipEventNew type)

theorem Queued.mono {received received' : SipMessage → Prop} {evt : Event}
    (h : Queued received evt) (hle : ∀ m, received m → received' m) : Queued received' evt := by
  cases h with
  | outgoing msg => exact .outgoing msg
  | incoming msg h => exact .incoming msg (hle msg h)
  | timer type h => exact .timer type h

theorem queued_needTimerEvent {received : SipMessage → Prop} {timer : Timer} {condState : Bool}
    {now : Int} {type : EventType} {evt : Event} (htype : type ∈ timerTypes)
    (h : needTimerEvent timer condState now type = some evt) : Queued received evt := by
  rw [needTimerEvent] at h
  split at h
  · obtain ⟨start, -, h⟩ := Option.bind_eq_some_iff.1 h
    split at h
    · exact Option.some.inj h ▸ .timer type htype
    · exact absurd h (Option.some_ne_none _).symm
  · exact absurd h (Option.some_ne_none _).symm

/-- What the timers put in the queue. -/
theorem queued_osipTimersExecute {received : SipMessage → Prop} {now : Int} {tr : Transaction}
    {evt : Event} (h : osipTimersExecute now tr = some evt) : Queued received evt := by
  rw [osipTimersExecute] at h
  cases hctx : tr.ctxType with
  | ict =>
    rw [hctx] at h
    dsimp only at h
    split at h
    · exact absurd h (Option.some_ne_none _).symm
    · rcases Option.or_eq_some_iff.1 h with h | ⟨-, h⟩
      · rcases Option.or_eq_some_iff.1 h with h | ⟨-, h⟩
        · exact queued_needTimerEvent (by decide) h
        · exact queued_needTimerEvent (by decide) h
      · exact queued_needTimerEvent (by decide) h
  | ist =>
    rw [hctx] at h
    rcases Option.or_eq_some_iff.1 h with h | ⟨-, h⟩
    · rcases Option.or_eq_some_iff.1 h with h | ⟨-, h⟩
      · exact queued_needTimerEvent (by decide) h
      · exact queued_needTimerEvent (by decide) h
    · exact queued_needTimerEvent (by decide) h
  | nict =>
    rw [hctx] at h
    rcases Option.or_eq_some_iff.1 h with h | ⟨-, h⟩
    · rcases Option.or_eq_some_iff.1 h with h | ⟨-, h⟩
      · exact queued_needTimerEvent (by decide) h
      · exact queued_needTimerEvent (by decide) h
    · exact queued_needTimerEvent (by decide) h
  | nist =>
    rw [hctx] at h
    exact queued_needTimerEvent (by decide) h

theorem disjoint_types : ∀ type, (type ∈ rcvTypes → type ∉ sndTypes ∧ type ∉ timerTypes) ∧
    (type ∈ sndTypes → type ∉ timerTypes) := by
  intro type
  cases type <;> decide

variable {received : SipMessage → Prop} {evt : Event}

/-- An event that a machine takes for one that came in. -/
theorem Queued.of_rcv (h : Queued received evt) (htype : evt.type ∈ rcvTypes) :
    ∃ msg, received msg ∧ evt = .incoming msg ∧ evt.type.Describes msg := by
  cases h with
  | outgoing msg => exact absurd (outgoing_spec msg).1 ((disjoint_types _).1 htype).1
  | incoming msg h => exact ⟨msg, h, rfl, (incoming_spec msg).2⟩
  | timer type h => exact absurd h ((disjoint_types _).1 htype).2

/-- An event that a machine takes for one that is to go out. -/
theorem Queued.of_snd (h : Queued received evt) (htype : evt.type ∈ sndTypes) :
    ∃ msg, evt = .outgoing msg ∧ evt.type.Describes msg := by
  cases h with
  | outgoing msg => exact ⟨msg, rfl, (outgoing_spec msg).2⟩
  | incoming msg h => exact absurd htype ((disjoint_types _).1 (incoming_spec msg).1).1
  | timer type h => exact absurd h ((disjoint_types _).2 htype)

/-! ## What a client does -/

/-- How far a client is. -/
inductive ClientPhase
  | idle
  | waiting
  | completed
  | ended
  deriving DecidableEq

def State.clientPhase : State → ClientPhase
  | .ictPreCalling | .nictPreTrying => .idle
  | .ictCalling | .ictProceeding | .nictTrying | .nictProceeding => .waiting
  | .ictCompleted | .nictCompleted => .completed
  | _ => .ended

/-- All that an event does to a client. -/
inductive ClientMove (received : SipMessage → Prop) (tr : Transaction) (r : Result) : Prop
  /-- It sends something again, ends, or does nothing. -/
  | quiet (hphase : r.1.state.clientPhase = tr.state.clientPhase ∨ r.1.state.clientPhase = .ended)
      (horig : r.1.origRequest = tr.origRequest) (hnews : happenings r.2 = [])
      (hsent : ∀ m ∈ sent r.2, (tr.state.clientPhase = .waiting ∧ tr.origRequest = some m) ∨
        (tr.state.clientPhase = .completed ∧ tr.ack = some m))
  | asks (q : SipMessage) (hidle : tr.state.clientPhase = .idle)
      (hphase : r.1.state.clientPhase = .waiting) (horig : r.1.origRequest = some q)
      (hnews : happenings r.2 = [.ask q]) (hsent : sent r.2 = [q]) (hack : q.isAck = false)
  /-- It passes a response on, and acknowledges it if that is what it takes. -/
  | tells (p : SipMessage) (hreceived : received p) (hwaiting : tr.state.clientPhase = .waiting)
      (horig : r.1.origRequest = tr.origRequest) (hnews : happenings r.2 = [.tell p])
      (hphase : (¬ Final p ∧ r.1.state.clientPhase = .waiting ∧ sent r.2 = []) ∨
        (Final p ∧ (r.1.state.clientPhase = .completed ∨ r.1.state.clientPhase = .ended) ∧
          ∀ m ∈ sent r.2, m.isAck = true))
  | givesUp (hphase : r.1.state.clientPhase = .ended) (hnews : happenings r.2 = [.giveUp])
      (hsent : sent r.2 = [])

section Client

variable {tr : Transaction} (env : Env)

/-! ### Clients of an INVITE -/

theorem clientMove_ictSndInvite (hevt : Queued received evt) (htype : evt.type = .sndReqInvite)
    (hstate : tr.state = .ictPreCalling) : ClientMove received tr (ictSndInvite env evt tr) := by
  obtain ⟨q, rfl, hq⟩ := hevt.of_snd (by rw [htype]; decide)
  rw [htype] at hq
  rw [ictSndInvite]
  split
  · next hsend =>
    exact .asks q (by rw [hstate]; rfl) rfl rfl rfl (by rw [sent_after, sent_ok hsend]; rfl) hq
  · next hsend => exact .givesUp rfl rfl (by rw [sent_after, sent_fail hsend]; rfl)

theorem clientMove_osipIctTimeoutAEvent (evt : Event) (hstate : tr.state = .ictCalling) :
    ClientMove received tr (osipIctTimeoutAEvent env evt tr) := by
  rw [osipIctTimeoutAEvent]
  split
  · next hsend =>
    refine .quiet (.inl rfl) rfl rfl fun m hm => Or.inl ⟨by rw [hstate]; rfl, ?_⟩
    rw [sent_after, sent_ok hsend] at hm
    exact Option.mem_toList.1 ((List.mem_append.1 hm).resolve_right List.not_mem_nil)
  · next hsend => exact .givesUp rfl rfl (by rw [sent_after, sent_fail hsend]; rfl)

theorem clientMove_ictRcv1xx (hevt : Queued received evt) (htype : evt.type = .rcvStatus1xx)
    (hwaiting : tr.state.clientPhase = .waiting) :
    ClientMove received tr (ictRcv1xx env evt tr) := by
  obtain ⟨p, hp, rfl, hdesc⟩ := hevt.of_rcv (by rw [htype]; decide)
  rw [htype] at hdesc
  exact .tells p hp hwaiting rfl rfl (.inl ⟨hdesc.2, rfl, rfl⟩)

theorem clientMove_ictRcv2xx (hevt : Queued received evt) (htype : evt.type = .rcvStatus2xx)
    (hwaiting : tr.state.clientPhase = .waiting) :
    ClientMove received tr (ictRcv2xx env evt tr) := by
  obtain ⟨p, hp, rfl, hdesc⟩ := hevt.of_rcv (by rw [htype]; decide)
  rw [htype] at hdesc
  exact .tells p hp hwaiting rfl rfl (.inr ⟨hdesc.2, .inr rfl, List.forall_mem_nil _⟩)

theorem isAck_of_ictCreateAck {response : Option SipMessage} {ack : SipMessage}
    (h : ictCreateAck tr response = some ack) : ack.isAck = true := by
  simp only [ictCreateAck, Option.bind_eq_bind, Option.bind_eq_some_iff, Option.pure_def,
    Option.some.injEq] at h
  obtain ⟨_, _, _, _, _, _, _, _, _, _, _, _, _, _, rfl⟩ := h
  simp [SipMessage.isAck, SipMessage.isMethod, SipMessage.isRequest]

/-- The callback for a final response tells of it. -/
theorem happening_callbackOf_ict (p : SipMessage) :
    (callbackOf .ictStatus3xxReceived .ictStatus4xxReceived .ictStatus5xxReceived
      .ictStatus6xxReceived (some p)).happening (some p) = some (.tell p) := by
  rw [callbackOf]
  repeat' split
  all_goals rfl

theorem clientMove_ictRcv3456xx (hevt : Queued received evt) (htype : evt.type = .rcvStatus3456xx)
    (hwaiting : tr.state.clientPhase = .waiting) :
    ClientMove received tr (ictRcv3456xx env evt tr) := by
  obtain ⟨p, hp, rfl, hdesc⟩ := hevt.of_rcv (by rw [htype]; decide)
  rw [htype] at hdesc
  have hstate : tr.state ≠ .ictCompleted := by
    rintro h
    rw [h] at hwaiting
    exact absurd hwaiting (by decide)
  simp only [ictRcv3456xx]
  rw [if_pos hstate]
  split
  · exact .quiet (.inr rfl) rfl rfl (List.forall_mem_nil _)
  · next ack hack =>
    split
    · next hsend => exact .givesUp rfl rfl (by rw [sent_after, sent_fail hsend]; rfl)
    · next hsend =>
      refine .tells p hp hwaiting rfl ?_ (.inr ⟨hdesc.2, .inl rfl, fun m hm => ?_⟩)
      · rw [happenings_after]
        simp only [happenings, List.filterMap_cons, Output.happening, Event.incoming]
        rw [happening_callbackOf_ict]
        rfl
      · rw [sent_after, sent_ok (not_not.1 hsend)] at hm
        obtain rfl := List.mem_singleton.1 ((List.mem_append.1 hm).resolve_right List.not_mem_nil)
        exact isAck_of_ictCreateAck hack

theorem clientMove_ictRetransmitAck (evt : Event) (hstate : tr.state = .ictCompleted) :
    ClientMove received tr (ictRetransmitAck env evt tr) := by
  rw [ictRetransmitAck]
  split
  · next hsend =>
    refine .quiet (.inl (by rw [hstate]; rfl)) rfl rfl fun m hm => Or.inr ⟨by rw [hstate]; rfl, ?_⟩
    rw [sent_after, sent_message, sent_ok hsend] at hm
    exact Option.mem_toList.1 ((List.mem_append.1 hm).resolve_right List.not_mem_nil)
  · next hsend => exact .givesUp rfl rfl (by rw [sent_after, sent_message, sent_fail hsend]; rfl)

theorem clientMove_ictFsm {t : Transition} (hevt : Queued received evt) (ht : t ∈ ictFsm)
    (htype : t.type = evt.type) (hstate : t.state = tr.state) :
    ClientMove received tr (t.method env evt tr) := by
  simp only [ictFsm, List.mem_cons, List.not_mem_nil, or_false] at ht
  rcases ht with rfl | rfl | rfl | rfl | rfl | rfl | rfl | rfl | rfl | rfl | rfl
  · exact clientMove_ictSndInvite env hevt htype.symm hstate.symm
  · exact clientMove_osipIctTimeoutAEvent env evt hstate.symm
  · exact .givesUp rfl rfl rfl
  · exact clientMove_ictRcv1xx env hevt htype.symm (hstate ▸ rfl)
  · exact clientMove_ictRcv2xx env hevt htype.symm (hstate ▸ rfl)
  · exact clientMove_ictRcv3456xx env hevt htype.symm (hstate ▸ rfl)
  · exact clientMove_ictRcv1xx env hevt htype.symm (hstate ▸ rfl)
  · exact clientMove_ictRcv2xx env hevt htype.symm (hstate ▸ rfl)
  · exact clientMove_ictRcv3456xx env hevt htype.symm (hstate ▸ rfl)
  · exact clientMove_ictRetransmitAck env evt hstate.symm
  · exact .quiet (.inr rfl) rfl rfl (List.forall_mem_nil _)

/-! ### Clients of another request -/

theorem happening_nictSentCallbacks (q : SipMessage) :
    (nictSentCallbacks.of (some q)).happening (some q) = some (.ask q) := by
  rw [RequestCallbacks.of]
  repeat' split
  all_goals rfl

theorem clientMove_nictSndRequest (hevt : Queued received evt) (htype : evt.type = .sndRequest)
    (hstate : tr.state = .nictPreTrying) : ClientMove received tr (nictSndRequest env evt tr) := by
  obtain ⟨q, rfl, hq⟩ := hevt.of_snd (by rw [htype]; decide)
  rw [htype] at hq
  rw [nictSndRequest]
  split
  · next hsend =>
    refine .asks q (by rw [hstate]; rfl) rfl rfl ?_ (by rw [sent_after, sent_ok hsend]; rfl) hq
    rw [happenings_after]
    simp only [happenings, List.filterMap_cons, Output.happening, Event.outgoing]
    rw [happening_nictSentCallbacks]
    rfl
  · next hsend => exact .givesUp rfl rfl (by rw [sent_after, sent_fail hsend]; rfl)

theorem clientMove_osipNictTimeoutEEvent (evt : Event) (hwaiting : tr.state.clientPhase = .waiting) :
    ClientMove received tr (osipNictTimeoutEEvent env evt tr) := by
  rw [osipNictTimeoutEEvent]
  by_cases hsend : env.sendResult = 0
  · rw [if_neg (not_not.2 hsend)]
    refine .quiet (.inl rfl) rfl rfl fun m hm => Or.inl ⟨hwaiting, ?_⟩
    rw [sent_after, sent_ok hsend] at hm
    exact Option.mem_toList.1 ((List.mem_append.1 hm).resolve_right List.not_mem_nil)
  · rw [if_pos hsend]
    exact .givesUp rfl rfl (by rw [sent_after, sent_fail hsend]; rfl)

theorem clientMove_nictRcv1xx (hevt : Queued received evt) (htype : evt.type = .rcvStatus1xx)
    (hwaiting : tr.state.clientPhase = .waiting) :
    ClientMove received tr (nictRcv1xx env evt tr) := by
  obtain ⟨p, hp, rfl, hdesc⟩ := hevt.of_rcv (by rw [htype]; decide)
  rw [htype] at hdesc
  exact .tells p hp hwaiting rfl rfl (.inl ⟨hdesc.2, rfl, rfl⟩)

theorem clientMove_nictRcv23456xx (hevt : Queued received evt)
    (htype : evt.type = .rcvStatus2xx ∨ evt.type = .rcvStatus3456xx)
    (hwaiting : tr.state.clientPhase = .waiting) :
    ClientMove received tr (nictRcv23456xx env evt tr) := by
  obtain ⟨p, hp, rfl, hdesc⟩ := hevt.of_rcv (by rcases htype with h | h <;> rw [h] <;> decide)
  have hfinal : Final p := by
    rcases htype with h | h <;> rw [h] at hdesc <;> exact hdesc.2
  refine .tells p hp hwaiting rfl ?_ (.inr ⟨hfinal, .inl rfl, List.forall_mem_nil _⟩)
  simp only [nictRcv23456xx, callbackOf]
  repeat' split
  all_goals rfl

theorem clientMove_nictFsm {t : Transition} (hevt : Queued received evt) (ht : t ∈ nictFsm)
    (htype : t.type = evt.type) (hstate : t.state = tr.state) :
    ClientMove received tr (t.method env evt tr) := by
  simp only [nictFsm, List.mem_cons, List.not_mem_nil, or_false] at ht
  rcases ht with rfl | rfl | rfl | rfl | rfl | rfl | rfl | rfl | rfl | rfl | rfl | rfl
  · exact clientMove_nictSndRequest env hevt htype.symm hstate.symm
  · exact .givesUp rfl rfl rfl
  · exact clientMove_osipNictTimeoutEEvent env evt (hstate ▸ rfl)
  · exact clientMove_nictRcv1xx env hevt htype.symm (hstate ▸ rfl)
  · exact clientMove_nictRcv23456xx env hevt (.inl htype.symm) (hstate ▸ rfl)
  · exact clientMove_nictRcv23456xx env hevt (.inr htype.symm) (hstate ▸ rfl)
  · exact .givesUp rfl rfl rfl
  · exact clientMove_osipNictTimeoutEEvent env evt (hstate ▸ rfl)
  · exact clientMove_nictRcv1xx env hevt htype.symm (hstate ▸ rfl)
  · exact clientMove_nictRcv23456xx env hevt (.inl htype.symm) (hstate ▸ rfl)
  · exact clientMove_nictRcv23456xx env hevt (.inr htype.symm) (hstate ▸ rfl)
  · exact .quiet (.inr rfl) rfl rfl (List.forall_mem_nil _)

/-- The acknowledgement a client keeps is one. -/
theorem ack_ictRcv3456xx {ack : SipMessage}
    (hack : (ictRcv3456xx env evt tr).1.ack = some ack) :
    tr.ack = some ack ∨ ack.isAck = true := by
  simp only [ictRcv3456xx] at hack
  split at hack
  · split at hack
    · have hnone : (none : Option SipMessage) = some ack := hack
      exact absurd hnone (Option.some_ne_none ack).symm
    · next made hmade =>
      have hkept : some made = some ack := by
        rw [← hack]
        split <;> rfl
      exact Or.inr (isAck_of_ictCreateAck (hmade.trans hkept))
  · exact Or.inl hack

theorem ack_of_mem {t : Transition} (ht : t ∈ ictFsm ∨ t ∈ nictFsm) {ack : SipMessage}
    (hack : (t.method env evt tr).1.ack = some ack) : tr.ack = some ack ∨ ack.isAck = true := by
  by_cases hrcv : t.method = ictRcv3456xx
  · rw [hrcv] at hack
    exact ack_ictRcv3456xx env hack
  · have hkeeps : (t.method env evt tr).1.ack = tr.ack := by
      simp only [ictFsm, nictFsm, List.mem_cons, List.not_mem_nil, or_false] at ht
      rcases ht with (rfl | rfl | rfl | rfl | rfl | rfl | rfl | rfl | rfl | rfl | rfl) |
        (rfl | rfl | rfl | rfl | rfl | rfl | rfl | rfl | rfl | rfl | rfl | rfl)
      all_goals first
        | exact absurd rfl hrcv
        | simp only [ictSndInvite, osipIctTimeoutAEvent, osipIctTimeoutBEvent, ictRcv1xx, ictRcv2xx,
            ictRetransmitAck, osipIctTimeoutDEvent, nictSndRequest, osipNictTimeoutFEvent,
            osipNictTimeoutEEvent, nictRcv1xx, nictRcv23456xx, osipNictTimeoutKEvent]
          (repeat' split) <;> rfl
    exact Or.inl (hkeeps ▸ hack)

end Client

/-! ## What a server does -/

/-- How far a server is. -/
inductive ServerPhase
  | fresh
  | opened
  | answered
  | closed
  deriving DecidableEq

def State.serverPhase : State → ServerPhase
  | .istPreProceeding | .nistPreTrying => .fresh
  | .istProceeding | .nistTrying | .nistProceeding => .opened
  | .istCompleted | .istConfirmed | .nistCompleted => .answered
  | _ => .closed

/-- All that an event does to a server. -/
inductive ServerMove (received : SipMessage → Prop) (tr : Transaction) (r : Result) : Prop
  /-- It sends its response again, ends, or does nothing. -/
  | quiet (hphase : r.1.state.serverPhase = .closed ∨
        r.1.state.serverPhase = tr.state.serverPhase ∧ r.1.lastResponse = tr.lastResponse)
      (hnews : happenings r.2 = [])
      (hsent : ∀ m ∈ sent r.2, tr.state.serverPhase ≠ .closed ∧ tr.lastResponse = some m)
  | announces (q : SipMessage) (hreceived : received q) (hack : q.isAck = false)
      (hfresh : tr.state.serverPhase = .fresh) (hphase : r.1.state.serverPhase = .opened)
      (hlast : r.1.lastResponse = tr.lastResponse) (hnews : happenings r.2 = [.announce q])
      (hsent : sent r.2 = [])
  | gives (p : SipMessage) (hresponse : p.isRequest = false)
      (hopened : tr.state.serverPhase = .opened) (hlast : r.1.lastResponse = some p)
      (hphase : (¬ Final p ∧ r.1.state.serverPhase = .opened) ∨
        (Final p ∧ (r.1.state.serverPhase = .answered ∨ r.1.state.serverPhase = .closed)))
      (hnews : happenings r.2 = [.give p]) (hsent : sent r.2 = [p])
  /-- It is asked again before it has answered, and sends what it has got. -/
  | givesAgain (p : SipMessage) (hlast : tr.lastResponse = some p) (hprov : ¬ Final p)
      (hphase : tr.state.serverPhase ≠ .closed) (hkeeps : r.1 = tr)
      (hnews : happenings r.2 = [.give p]) (hsent : sent r.2 = [p])
  | confirms (a : SipMessage) (hreceived : received a) (hack : a.isAck = true)
      (hanswered : tr.state.serverPhase = .answered) (hphase : r.1.state.serverPhase = .answered)
      (hlast : r.1.lastResponse = tr.lastResponse) (hnews : happenings r.2 = [.confirm])
      (hsent : sent r.2 = [])

section Server

variable {tr : Transaction} (env : Env)

/-- A response that goes out, or does not. -/
theorem sndXxx_spec (msg : SipMessage) :
    happenings (sndXxx env (some msg)).1 = [] ∧
      (((sndXxx env (some msg)).2 = 0 ∧ sent (sndXxx env (some msg)).1 = [msg]) ∨
        ((sndXxx env (some msg)).2 ≠ 0 ∧ sent (sndXxx env (some msg)).1 = [])) := by
  rw [sndXxx]
  split
  · exact ⟨rfl, Or.inr ⟨by decide, rfl⟩⟩
  · refine ⟨rfl, ?_⟩
    by_cases hsend : env.sendResult = 0
    · exact Or.inl ⟨hsend, sent_ok hsend _ _⟩
    · exact Or.inr ⟨hsend, sent_fail hsend _ _⟩

theorem serverMove_error {type : FsmType} {terminated : State} {outs : List Output} (err : Int)
    (tr' : Transaction) (htype : type = .ist ∨ type = .nist)
    (hclosed : terminated.serverPhase = .closed) (hnews : happenings outs = [])
    (hsent : sent outs = []) :
    ServerMove received tr (.after outs (handleTransportError type terminated tr' err)) := by
  refine .quiet (.inl hclosed) ?_ ?_
  · rw [happenings_after, hnews]
    rcases htype with rfl | rfl <;> rfl
  · rw [sent_after, hsent]
    exact List.forall_mem_nil _

/-- What a server that is asked again says of its response. -/
theorem happening_again {cb1 cb2 cb3456 : MessageCallback}
    (hcb1 : ∀ p, cb1.happening (some p) = some (.give p))
    (hcb2 : ∀ p, cb2.happening (some p) = none) (hcb3456 : ∀ p, cb3456.happening (some p) = none)
    (p : SipMessage) :
    happenings [.message
        (if (some p).any (·.isStatus 1) then cb1
          else if (some p).any (·.isStatus 2) then cb2
          else cb3456) (some p)] =
      if p.isStatus 1 then [.give p] else [] := by
  rw [Option.any_some, Option.any_some]
  split
  · simp [happenings, Output.happening, hcb1]
  · split
    · simp [happenings, Output.happening, hcb2]
    · simp [happenings, Output.happening, hcb3456]

/-- A server that is asked again. -/
theorem serverMove_retransmit {again cb1 cb2 cb3456 : MessageCallback} {type : FsmType}
    {terminated : State} {orig : Option SipMessage} (htype : type = .ist ∨ type = .nist)
    (hclosed : terminated.serverPhase = .closed) (hphase : tr.state.serverPhase ≠ .closed)
    (hagain : again.happening orig = none) (hcb1 : ∀ p, cb1.happening (some p) = some (.give p))
    (hcb2 : ∀ p, cb2.happening (some p) = none)
    (hcb3456 : ∀ p, cb3456.happening (some p) = none) :
    ServerMove received tr (.after [.message again orig]
      (retransmitResponse cb1 cb2 cb3456 (handleTransportError type terminated) env tr)) := by
  have hsilent : happenings [.message again orig] = [] := by
    simp [happenings, Output.happening, hagain]
  rw [retransmitResponse]
  cases hlast : tr.lastResponse with
  | none =>
    refine .quiet (.inr ⟨rfl, rfl⟩) ?_ (List.forall_mem_nil _)
    rw [happenings_after, hsilent]
    rfl
  | some p =>
    obtain ⟨hquiet, ⟨hok, hsent⟩ | ⟨hfail, hsent⟩⟩ := sndXxx_spec env p
    · have hnews := happening_again hcb1 hcb2 hcb3456 p
      simp only [Option.isSome_some, if_true]
      rw [if_neg (not_not.2 hok)]
      by_cases hprov : p.isStatus 1 = true
      · rw [if_pos hprov] at hnews
        refine .givesAgain p hlast (fun hfinal => ?_) hphase rfl ?_ ?_
        · exact Bool.noConfusion (hprov.symm.trans hfinal.2)
        · rw [happenings_after, happenings_after, hsilent, hquiet, hnews]
          rfl
        · rw [sent_after, sent_after, hsent]
          rfl
      · rw [if_neg hprov] at hnews
        refine .quiet (.inr ⟨rfl, rfl⟩) ?_ fun m hm => ?_
        · rw [happenings_after, happenings_after, hsilent, hquiet, hnews]
          rfl
        · rw [sent_after, sent_after, hsent] at hm
          have hmem : m ∈ [p] := by simpa using hm
          exact ⟨hphase, by rw [hlast, List.mem_singleton.1 hmem]⟩
    · simp only [Option.isSome_some, if_true]
      rw [if_pos hfail]
      refine .quiet (.inl hclosed) ?_ ?_
      · rw [happenings_after, happenings_after, hsilent, hquiet]
        rcases htype with rfl | rfl <;> rfl
      · rw [sent_after, sent_after, hsent]
        exact List.forall_mem_nil _

/-! ### Servers of an INVITE -/

theorem serverMove_istRcvInvite (hevt : Queued received evt) (htype : evt.type = .rcvReqInvite)
    (hphase : tr.state.serverPhase ≠ .closed) :
    ServerMove received tr (istRcvInvite env evt tr) := by
  obtain ⟨q, hq, rfl, hdesc⟩ := hevt.of_rcv (by rw [htype]; decide)
  rw [htype] at hdesc
  rw [istRcvInvite]
  split
  · next hfresh => exact .announces q hq hdesc (by rw [hfresh]; rfl) rfl rfl rfl rfl
  · exact serverMove_retransmit env (.inl rfl) rfl hphase rfl (fun _ => rfl) (fun _ => rfl)
      fun _ => rfl

theorem serverMove_osipIstTimeoutGEvent (evt : Event) (hphase : tr.state.serverPhase ≠ .closed) :
    ServerMove received tr (osipIstTimeoutGEvent env evt tr) := by
  rw [osipIstTimeoutGEvent]
  cases hlast : tr.lastResponse with
  | none => exact serverMove_error (-1) _ (.inl rfl) rfl rfl rfl
  | some p =>
    obtain ⟨hquiet, ⟨hok, hsent⟩ | ⟨hfail, hsent⟩⟩ := sndXxx_spec env p
    · dsimp only
      rw [if_neg (not_not.2 hok)]
      refine .quiet (.inr ⟨rfl, hlast.symm⟩) ?_ fun m hm => ?_
      · rw [happenings_after, hquiet]
        rfl
      · rw [sent_after, hsent] at hm
        have hmem : m ∈ [p] := by simpa using hm
        exact ⟨hphase, by rw [hlast, List.mem_singleton.1 hmem]⟩
    · dsimp only
      rw [if_pos hfail]
      exact serverMove_error _ _ (.inl rfl) rfl hquiet hsent

/-- A response is given, if it goes out. -/
theorem serverMove_gives {type : FsmType} {terminated : State} {p : SipMessage} {tr' : Transaction}
    {r : Result} (htype : type = .ist ∨ type = .nist) (hclosed : terminated.serverPhase = .closed)
    (hresponse : p.isRequest = false) (hopened : tr.state.serverPhase = .opened)
    (hlast : r.1.lastResponse = some p)
    (hphase : (¬ Final p ∧ r.1.state.serverPhase = .opened) ∨
      (Final p ∧ (r.1.state.serverPhase = .answered ∨ r.1.state.serverPhase = .closed)))
    (hnews : happenings r.2 = [.give p]) (hsent : sent r.2 = []) :
    ServerMove received tr (.after (sndXxx env (some p)).1
      (if (sndXxx env (some p)).2 ≠ 0 then
        handleTransportError type terminated tr' (sndXxx env (some p)).2
      else r)) := by
  obtain ⟨hquiet, ⟨hok, hout⟩ | ⟨hfail, hout⟩⟩ := sndXxx_spec env p
  · rw [if_neg (not_not.2 hok)]
    refine .gives p hresponse hopened hlast hphase ?_ ?_
    · rw [happenings_after, hquiet, hnews]
      rfl
    · rw [sent_after, hout, hsent]
      rfl
  · rw [if_pos hfail]
    exact serverMove_error _ _ htype hclosed hquiet hout

/-- The callback for a final response says that it was given. -/
theorem happening_callbackOf {cb3 cb4 cb5 cb6 : MessageCallback} {p : SipMessage} {l : Happening}
    (hcb3 : cb3.happening (some p) = some l) (hcb4 : cb4.happening (some p) = some l)
    (hcb5 : cb5.happening (some p) = some l) (hcb6 : cb6.happening (some p) = some l) :
    (callbackOf cb3 cb4 cb5 cb6 (some p)).happening (some p) = some l := by
  rw [callbackOf]
  repeat' split
  all_goals assumption

theorem serverMove_istSnd1xx (hevt : Queued received evt) (htype : evt.type = .sndStatus1xx)
    (hstate : tr.state = .istProceeding) : ServerMove received tr (istSnd1xx env evt tr) := by
  obtain ⟨p, rfl, hdesc⟩ := hevt.of_snd (by rw [htype]; decide)
  rw [htype] at hdesc
  have hopened : tr.state.serverPhase = .opened := by
    rw [hstate]
    rfl
  exact serverMove_gives env (.inl rfl) rfl hdesc.1 hopened rfl (.inl ⟨hdesc.2, hopened⟩) rfl rfl

theorem serverMove_istSnd2xx (hevt : Queued received evt) (htype : evt.type = .sndStatus2xx)
    (hstate : tr.state = .istProceeding) : ServerMove received tr (istSnd2xx env evt tr) := by
  obtain ⟨p, rfl, hdesc⟩ := hevt.of_snd (by rw [htype]; decide)
  rw [htype] at hdesc
  exact serverMove_gives env (.inl rfl) rfl hdesc.1 (by rw [hstate]; rfl) rfl
    (.inr ⟨hdesc.2, .inr rfl⟩) rfl rfl

theorem serverMove_istSnd3456xx (hevt : Queued received evt) (htype : evt.type = .sndStatus3456xx)
    (hstate : tr.state = .istProceeding) : ServerMove received tr (istSnd3456xx env evt tr) := by
  obtain ⟨p, rfl, hdesc⟩ := hevt.of_snd (by rw [htype]; decide)
  rw [htype] at hdesc
  refine serverMove_gives env (.inl rfl) rfl hdesc.1 (by rw [hstate]; rfl) rfl
    (.inr ⟨hdesc.2, .inl rfl⟩) ?_ rfl
  dsimp only [happenings, Transaction.setState, Event.outgoing]
  rw [List.filterMap_cons, Output.happening, happening_callbackOf rfl rfl rfl rfl]
  rfl

theorem serverMove_istRcvAck (hevt : Queued received evt) (htype : evt.type = .rcvReqAck)
    (hstate : tr.state = .istCompleted ∨ tr.state = .istConfirmed) :
    ServerMove received tr (istRcvAck env evt tr) := by
  obtain ⟨a, ha, rfl, hack⟩ := hevt.of_rcv (by rw [htype]; decide)
  rw [htype] at hack
  rw [istRcvAck]
  rcases hstate with hstate | hstate
  · refine .confirms a ha hack (by rw [hstate]; rfl) rfl rfl ?_ rfl
    dsimp only
    rw [if_pos hstate]
    rfl
  · refine .quiet (.inr ⟨by rw [hstate]; rfl, rfl⟩) ?_ (List.forall_mem_nil _)
    dsimp only
    rw [if_neg (by rw [hstate]; decide)]
    rfl

theorem serverMove_istFsm {t : Transition} (hevt : Queued received evt) (ht : t ∈ istFsm)
    (htype : t.type = evt.type) (hstate : t.state = tr.state) :
    ServerMove received tr (t.method env evt tr) := by
  simp only [istFsm, List.mem_cons, List.not_mem_nil, or_false] at ht
  rcases ht with rfl | rfl | rfl | rfl | rfl | rfl | rfl | rfl | rfl | rfl | rfl
  · exact serverMove_istRcvInvite env hevt htype.symm (by rw [← hstate]; decide)
  · exact serverMove_istRcvInvite env hevt htype.symm (by rw [← hstate]; decide)
  · exact serverMove_istRcvInvite env hevt htype.symm (by rw [← hstate]; decide)
  · exact serverMove_osipIstTimeoutGEvent env evt (by rw [← hstate]; decide)
  · exact .quiet (.inl rfl) rfl (List.forall_mem_nil _)
  · exact serverMove_istSnd1xx env hevt htype.symm hstate.symm
  · exact serverMove_istSnd2xx env hevt htype.symm hstate.symm
  · exact serverMove_istSnd3456xx env hevt htype.symm hstate.symm
  · exact serverMove_istRcvAck env hevt htype.symm (.inl hstate.symm)
  · exact serverMove_istRcvAck env hevt htype.symm (.inr hstate.symm)
  · exact .quiet (.inl rfl) rfl (List.forall_mem_nil _)

/-! ### Servers of another request -/

theorem happening_nistReceivedCallbacks (q : SipMessage) :
    (nistReceivedCallbacks.of (some q)).happening (some q) = some (.announce q) := by
  rw [RequestCallbacks.of]
  repeat' split
  all_goals rfl

theorem serverMove_nistRcvRequest (hevt : Queued received evt) (htype : evt.type = .rcvRequest)
    (hphase : tr.state.serverPhase ≠ .closed) :
    ServerMove received tr (nistRcvRequest env evt tr) := by
  obtain ⟨q, hq, rfl, hdesc⟩ := hevt.of_rcv (by rw [htype]; decide)
  rw [htype] at hdesc
  rw [nistRcvRequest]
  split
  · next hfresh =>
    refine .announces q hq hdesc (by rw [hfresh]; rfl) rfl rfl ?_ rfl
    dsimp only [happenings, Transaction.setState, Event.incoming]
    rw [List.filterMap_cons, Output.happening, happening_nistReceivedCallbacks]
    rfl
  · exact serverMove_retransmit env (.inr rfl) rfl hphase rfl (fun _ => rfl) (fun _ => rfl)
      fun _ => rfl

theorem serverMove_nistSnd1xx (hevt : Queued received evt) (htype : evt.type = .sndStatus1xx)
    (hopened : tr.state.serverPhase = .opened) :
    ServerMove received tr (nistSnd1xx env evt tr) := by
  obtain ⟨p, rfl, hdesc⟩ := hevt.of_snd (by rw [htype]; decide)
  rw [htype] at hdesc
  exact serverMove_gives env (.inr rfl) rfl hdesc.1 hopened rfl (.inl ⟨hdesc.2, rfl⟩) rfl rfl

theorem serverMove_nistSnd23456xx (hevt : Queued received evt)
    (htype : evt.type = .sndStatus2xx ∨ evt.type = .sndStatus3456xx)
    (hopened : tr.state.serverPhase = .opened) :
    ServerMove received tr (nistSnd23456xx env evt tr) := by
  obtain ⟨p, rfl, hdesc⟩ := hevt.of_snd (by rcases htype with h | h <;> rw [h] <;> decide)
  have hfinal : p.isRequest = false ∧ Final p := by
    rcases htype with h | h <;> rw [h] at hdesc <;> exact hdesc
  refine serverMove_gives env (.inr rfl) rfl hfinal.1 hopened rfl
    (.inr ⟨hfinal.2, .inl rfl⟩) ?_ rfl
  dsimp only [happenings, Transaction.setState]
  split
  · rfl
  · dsimp only [Event.outgoing]
    rw [List.filterMap_cons, Output.happening, happening_callbackOf rfl rfl rfl rfl]
    rfl

theorem serverMove_nistFsm {t : Transition} (hevt : Queued received evt) (ht : t ∈ nistFsm)
    (htype : t.type = evt.type) (hstate : t.state = tr.state) :
    ServerMove received tr (t.method env evt tr) := by
  simp only [nistFsm, List.mem_cons, List.not_mem_nil, or_false] at ht
  rcases ht with rfl | rfl | rfl | rfl | rfl | rfl | rfl | rfl | rfl | rfl
  · exact serverMove_nistRcvRequest env hevt htype.symm (by rw [← hstate]; decide)
  · exact serverMove_nistSnd1xx env hevt htype.symm (hstate ▸ rfl)
  · exact serverMove_nistSnd23456xx env hevt (.inl htype.symm) (hstate ▸ rfl)
  · exact serverMove_nistSnd23456xx env hevt (.inr htype.symm) (hstate ▸ rfl)
  · exact serverMove_nistSnd1xx env hevt htype.symm (hstate ▸ rfl)
  · exact serverMove_nistSnd23456xx env hevt (.inl htype.symm) (hstate ▸ rfl)
  · exact serverMove_nistSnd23456xx env hevt (.inr htype.symm) (hstate ▸ rfl)
  · exact serverMove_nistRcvRequest env hevt htype.symm (by rw [← hstate]; decide)
  · exact .quiet (.inl rfl) rfl (List.forall_mem_nil _)
  · exact serverMove_nistRcvRequest env hevt htype.symm (by rw [← hstate]; decide)

end Server

/-! ## What an event does -/

section Execute

variable {tr : Transaction} (env : Env)

/-- **All that an event does to a client.** -/
theorem clientMove_osipTransactionExecute (hevt : Queued received evt)
    (htype : tr.ctxType = .ict ∨ tr.ctxType = .nict) :
    ClientMove received tr (osipTransactionExecute env tr evt) := by
  rcases osipTransactionExecute_cases env tr evt with heq | ⟨t, hmem, ht, hstate, heq⟩
  · rw [heq]
    exact .quiet (.inl rfl) rfl rfl (List.forall_mem_nil _)
  · rw [heq]
    rcases htype with htype | htype <;> rw [htype] at hmem
    · exact clientMove_ictFsm env hevt hmem ht hstate
    · exact clientMove_nictFsm env hevt hmem ht hstate

/-- **All that an event does to a server.** -/
theorem serverMove_osipTransactionExecute (hevt : Queued received evt)
    (htype : tr.ctxType = .ist ∨ tr.ctxType = .nist) :
    ServerMove received tr (osipTransactionExecute env tr evt) := by
  rcases osipTransactionExecute_cases env tr evt with heq | ⟨t, hmem, ht, hstate, heq⟩
  · rw [heq]
    exact .quiet (.inr ⟨rfl, rfl⟩) rfl (List.forall_mem_nil _)
  · rw [heq]
    rcases htype with htype | htype <;> rw [htype] at hmem
    · exact serverMove_istFsm env hevt hmem ht hstate
    · exact serverMove_nistFsm env hevt hmem ht hstate

theorem ack_osipTransactionExecute (htype : tr.ctxType = .ict ∨ tr.ctxType = .nict)
    {ack : SipMessage} (hack : (osipTransactionExecute env tr evt).1.ack = some ack) :
    tr.ack = some ack ∨ ack.isAck = true := by
  rcases osipTransactionExecute_cases env tr evt with heq | ⟨t, hmem, -, -, heq⟩
  · rw [heq] at hack
    exact Or.inl hack
  · rw [heq] at hack
    rcases htype with htype | htype <;> rw [htype] at hmem
    · exact ack_of_mem env (.inl hmem) hack
    · exact ack_of_mem env (.inr hmem) hack

end Execute

/-! ## What is done on one side -/

/-- What is put in the queue, and what is left when the first event is taken out. -/
theorem queued_of_local {received : SipMessage → Prop} {tr : Transaction}
    (h : ∀ evt ∈ tr.transactionff, Queued received evt) (l : Local) :
    ∀ evt ∈ (l.step tr).1.transactionff, Queued received evt := by
  have hadd : ∀ evt, Queued received evt →
      ∀ evt' ∈ (tr.addEvent evt).transactionff, Queued received evt' := fun evt hevt evt' hmem =>
    (List.mem_append.1 hmem).elim (h evt') fun hmem => List.mem_singleton.1 hmem ▸ hevt
  cases l with
  | send sip => exact hadd _ (.outgoing sip)
  | kill => exact hadd _ (.timer _ (by decide))
  | timers now =>
    rw [Local.step]
    cases hevt : osipTimersExecute now tr with
    | none => exact h
    | some evt => exact hadd _ (queued_osipTimersExecute hevt)
  | execute env =>
    rw [Local.step]
    cases hqueue : tr.transactionff with
    | nil => exact h
    | cons evt rest =>
      dsimp only
      rw [(framed_osipTransactionExecute env evt).transactionff]
      exact fun evt' hmem => h evt' (hqueue ▸ List.mem_cons_of_mem _ hmem)

/-- What keeps what is known, is said and is sent keeps it for all a transaction does on its own
side. -/
theorem of_execute {P : Result → Prop} {tr : Transaction} {received : SipMessage → Prop}
    (hqueue : ∀ evt ∈ tr.transactionff, Queued received evt)
    (hkeeps : ∀ queue, P ({ tr with transactionff := queue }, []))
    (hexecute : ∀ env queue evt, Queued received evt →
      P (osipTransactionExecute env { tr with transactionff := queue } evt)) (l : Local) :
    P (l.step tr) := by
  cases l with
  | send sip => exact hkeeps _
  | kill => exact hkeeps _
  | timers now =>
    rw [Local.step]
    cases osipTimersExecute now tr with
    | none => exact hkeeps tr.transactionff
    | some evt => exact hkeeps _
  | execute env =>
    rw [Local.step]
    cases hcons : tr.transactionff with
    | nil => exact hkeeps tr.transactionff
    | cons evt rest => exact hexecute env rest evt (hqueue evt (hcons ▸ List.mem_cons_self))

end Osip
end Furikup
