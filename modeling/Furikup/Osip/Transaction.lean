import Furikup.Osip.Message

/-!
# Transactions

The four state machines of `libosip2`: a client and a server for INVITE, and a client and a server
for every other request.  Each is a table of transitions with a method in each entry, and a
transaction executes the events in its queue with the table of its type.

* `Transaction` — the variables of one, with its queue and its timers.
* `ictFsm`, `istFsm`, `nictFsm`, `nistFsm` — the tables.
* `osipTransactionExecute` — what an event does.
* `osipTimersExecute` — what the timers put in the queue.
* `osipTransactionInit` — a new one.
* `Input` and `step` — everything that happens to a transaction.

A method is a function of the transaction and of what it is told from outside, and gives the
transaction afterwards and the list of what it did: what it sent and what it called back.
-/

set_option autoImplicit false

namespace Furikup
namespace Osip

open CText

/-! ## The variables -/

/-- `state_t` -/
inductive State
  | ictPreCalling
  | ictCalling
  | ictProceeding
  | ictCompleted
  | ictTerminated
  | istPreProceeding
  | istProceeding
  | istCompleted
  | istConfirmed
  | istTerminated
  | nictPreTrying
  | nictTrying
  | nictProceeding
  | nictCompleted
  | nictTerminated
  | nistPreTrying
  | nistTrying
  | nistProceeding
  | nistCompleted
  | nistTerminated
  deriving DecidableEq

/-- `osip_fsm_type_t` -/
inductive FsmType
  | ict
  | ist
  | nict
  | nist
  deriving DecidableEq

/-- Times are in microseconds, lengths in milliseconds. -/
structure Timer where
  /-- Is -1 where the timer is not used. -/
  length : Int
  /-- When it goes off; not started where `tv_sec` is -1. -/
  start : Option Int
  deriving DecidableEq

def defaultT1 : Int := 500

def defaultT4 : Int := 5000

/-- `add_gettimeofday` -/
def addGettimeofday (atv ms : Int) : Int :=
  if ms ≥ 1000000 then (atv / 1000000 + ms / 1000) * 1000000 else atv + ms * 1000

/-- `osip_gettimeofday` and `add_gettimeofday` -/
def Timer.restart (now : Int) (t : Timer) : Timer :=
  { t with start := some (addGettimeofday now t.length) }

/-- What a timer is set to when it has gone off for good. -/
def Timer.off : Timer :=
  ⟨-1, none⟩

structure IctContext where
  timerA : Timer
  timerB : Timer
  timerD : Timer
  destination : Destination
  deriving DecidableEq

structure IstContext where
  timerG : Timer
  timerH : Timer
  timerI : Timer
  deriving DecidableEq

structure NictContext where
  timerE : Timer
  timerF : Timer
  timerK : Timer
  destination : Destination
  deriving DecidableEq

structure NistContext where
  timerJ : Timer
  deriving DecidableEq

/-- `osip_transaction_t`.  It has the four contexts, of which the one of its type is used. -/
structure Transaction where
  transactionff : List Event
  topvia : Via
  fromHeader : From
  toHeader : From
  callid : CallId
  cseq : CSeq
  state : State
  ctxType : FsmType
  origRequest : Option SipMessage
  lastResponse : Option SipMessage
  ack : Option SipMessage
  ictContext : IctContext
  istContext : IstContext
  nictContext : NictContext
  nistContext : NistContext
  deriving DecidableEq

/-! ## The world outside -/

/-- `osip_message_callback_type_t` -/
inductive MessageCallback
  | ictInviteSent
  | ictInviteSentAgain
  | ictAckSent
  | ictAckSentAgain
  | ictStatus1xxReceived
  | ictStatus2xxReceived
  | ictStatus3xxReceived
  | ictStatus4xxReceived
  | ictStatus5xxReceived
  | ictStatus6xxReceived
  | ictStatus3456xxReceivedAgain
  | istInviteReceived
  | istInviteReceivedAgain
  | istAckReceived
  | istAckReceivedAgain
  | istStatus1xxSent
  | istStatus2xxSent
  | istStatus2xxSentAgain
  | istStatus3xxSent
  | istStatus4xxSent
  | istStatus5xxSent
  | istStatus6xxSent
  | istStatus3456xxSentAgain
  | nictRegisterSent
  | nictByeSent
  | nictOptionsSent
  | nictInfoSent
  | nictCancelSent
  | nictNotifySent
  | nictSubscribeSent
  | nictUnknownRequestSent
  | nictRequestSentAgain
  | nictStatus1xxReceived
  | nictStatus2xxReceived
  | nictStatus3xxReceived
  | nictStatus4xxReceived
  | nictStatus5xxReceived
  | nictStatus6xxReceived
  | nistRegisterReceived
  | nistByeReceived
  | nistOptionsReceived
  | nistInfoReceived
  | nistCancelReceived
  | nistNotifyReceived
  | nistSubscribeReceived
  | nistUnknownRequestReceived
  | nistRequestReceivedAgain
  | nistStatus1xxSent
  | nistStatus2xxSent
  | nistStatus2xxSentAgain
  | nistStatus3xxSent
  | nistStatus4xxSent
  | nistStatus5xxSent
  | nistStatus6xxSent
  | nistStatus3456xxSentAgain
  | ictStatusTimeout
  | nictStatusTimeout
  deriving DecidableEq

/-- What a transaction does to the world outside. -/
inductive Output
  /-- `cb_send_message`, and what it returned: 0 if the message was sent. -/
  | sendMessage (msg : Option SipMessage) (destination : Destination) (result : Int)
  | message (type : MessageCallback) (msg : Option SipMessage)
  | transportError (type : FsmType) (err : Int)
  | killTransaction (type : FsmType)
  deriving DecidableEq

/-- What a method is told from outside. -/
structure Env where
  /-- `osip_gettimeofday` -/
  now : Int
  /-- What `cb_send_message` returns if it is called. -/
  sendResult : Int

/-- What a method makes of a transaction, and what it does on the way. -/
abbrev Result := Transaction × List Output

/-- Do something first. -/
def Result.after (outs : List Output) (r : Result) : Result :=
  (r.1, outs ++ r.2)

abbrev Method := Env → Event → Transaction → Result

/-- `__osip_transaction_set_state` -/
def Transaction.setState (tr : Transaction) (state : State) : Transaction :=
  { tr with state }

/-- The end of a transaction that could not send. -/
def handleTransportError (type : FsmType) (terminated : State) (tr : Transaction) (err : Int) :
    Result :=
  (tr.setState terminated, [.transportError type err, .killTransaction type])

/-- The end of a transaction whose work is done. -/
def terminate (type : FsmType) (terminated : State) (tr : Transaction) : Result :=
  (tr.setState terminated, [.killTransaction type])

/-- The callback for a final response that is no success. -/
def callbackOf (cb3 cb4 cb5 cb6 : MessageCallback) (msg : Option SipMessage) : MessageCallback :=
  if msg.any (·.isStatus 3) then cb3
  else if msg.any (·.isStatus 4) then cb4
  else if msg.any (·.isStatus 5) then cb5
  else cb6

/-- Where a response goes. -/
def responseDestination (via : Via) : Destination :=
  let maddr := paramGetByname via.viaParams (lit "maddr")
  let received := paramGetByname via.viaParams (lit "received")
  let rport := (paramGetByname via.viaParams (lit "rport")).bind Param.gvalue
  let host :=
    match maddr, received with
    | some maddr, _ => maddr.gvalue
    | none, some received => received.gvalue
    | none, none => some via.host
  ⟨host, rport.getD (via.port.getD (lit "5060"))⟩

/-- `__osip_transaction_snd_xxx`: what it does, and what it returns. -/
def sndXxx (env : Env) (msg : Option SipMessage) : List Output × Int :=
  match msg.bind fun m => m.vias.head? with
  | none => ([], -1)
  | some via => ([.sendMessage msg (responseDestination via) env.sendResult], env.sendResult)

/-! ## Client transactions of an INVITE -/

def ictHandleTransportError : Transaction → Int → Result :=
  handleTransportError .ict .ictTerminated

def ictSndInvite : Method := fun env evt ict =>
  let ict := { ict with origRequest := evt.sip }
  .after [.sendMessage evt.sip ict.ictContext.destination env.sendResult] <|
    if env.sendResult = 0 then
      (ict.setState .ictCalling, [.message .ictInviteSent ict.origRequest])
    else ictHandleTransportError ict env.sendResult

def osipIctTimeoutAEvent : Method := fun env _ ict =>
  let timerA := { ict.ictContext.timerA with length := ict.ictContext.timerA.length * 2 }
  let ict := { ict with ictContext := { ict.ictContext with timerA := timerA.restart env.now } }
  .after [.sendMessage ict.origRequest ict.ictContext.destination env.sendResult] <|
    if env.sendResult = 0 then (ict, [.message .ictInviteSentAgain ict.origRequest])
    else ictHandleTransportError ict env.sendResult

def osipIctTimeoutBEvent : Method := fun _ evt ict =>
  let ict := { ict with ictContext := { ict.ictContext with timerB := .off } }
  .after [.message .ictStatusTimeout evt.sip] (terminate .ict .ictTerminated ict)

def ictRcv1xx : Method := fun _ evt ict =>
  let ict := { ict with lastResponse := evt.sip }
  (ict.setState .ictProceeding, [.message .ictStatus1xxReceived evt.sip])

def ictRcv2xx : Method := fun _ evt ict =>
  let ict := { ict with lastResponse := evt.sip }
  .after [.message .ictStatus2xxReceived evt.sip] (terminate .ict .ictTerminated ict)

/-- `ict_create_ack`.  What it clones without a check is there in an INVITE that was sent. -/
def ictCreateAck (ict : Transaction) (response : Option SipMessage) : Option SipMessage := do
  let response ← response
  let invite ← ict.origRequest
  let fromHeader ← response.fromHeader
  let toHeader ← response.toHeader
  let callId ← response.callId
  let cseq ← response.cseq
  let via ← invite.vias.head?
  pure
    { statusCode := 0
      sipMethod := lit "ACK"
      sipVersion := invite.sipVersion
      reqUri := invite.reqUri
      vias := [via]
      routes := invite.routes
      fromHeader := some fromHeader
      toHeader := some toHeader
      callId := some callId
      cseq := some { cseq with method := lit "ACK" } }

/-- The destination, which is set again if it has got lost. -/
def IctContext.forAck (ctx : IctContext) (ack : SipMessage) : IctContext :=
  { ctx with
    destination :=
      if ctx.destination.host.isNone then destinationOf ack.routes ack.reqUri
      else ctx.destination }

/-- The end of `ict_rcv_3456xx`, with timer D. -/
def ictComplete (env : Env) (ict : Transaction) : Transaction :=
  { ict with
    ictContext := { ict.ictContext with timerD := ict.ictContext.timerD.restart env.now }
    state := .ictCompleted }

def ictRcv3456xx : Method := fun env evt ict =>
  let ict := { ict with lastResponse := evt.sip }
  if ict.state ≠ .ictCompleted then
    match ictCreateAck ict evt.sip with
    | none => terminate .ict .ictTerminated { ict with ack := none }
    | some ack =>
      let ict := { ict with ack := some ack, ictContext := ict.ictContext.forAck ack }
      .after [.sendMessage ict.ack ict.ictContext.destination env.sendResult] <|
        if env.sendResult ≠ 0 then ictHandleTransportError ict env.sendResult
        else
          (ictComplete env ict,
            [.message (callbackOf .ictStatus3xxReceived .ictStatus4xxReceived
                .ictStatus5xxReceived .ictStatus6xxReceived evt.sip) evt.sip,
              .message .ictAckSent evt.sip])
  else (ictComplete env ict, [])

def osipIctTimeoutDEvent : Method := fun _ _ ict =>
  let ict := { ict with ictContext := { ict.ictContext with timerD := .off } }
  terminate .ict .ictTerminated ict

def ictRetransmitAck : Method := fun env evt ict =>
  .after [.message .ictStatus3456xxReceivedAgain evt.sip,
      .sendMessage ict.ack ict.ictContext.destination env.sendResult] <|
    if env.sendResult = 0 then
      (ict.setState .ictCompleted, [.message .ictAckSentAgain ict.ack])
    else ictHandleTransportError ict env.sendResult

/-! ## Server transactions of an INVITE -/

def istHandleTransportError : Transaction → Int → Result :=
  handleTransportError .ist .istTerminated

/-- The last response once more, for a server transaction that has been asked again. -/
def retransmitResponse (cb1 cb2 cb3456 : MessageCallback)
    (transportError : Transaction → Int → Result) (env : Env) (tr : Transaction) : Result :=
  if tr.lastResponse.isSome then
    let snd := sndXxx env tr.lastResponse
    .after snd.1 <|
      if snd.2 ≠ 0 then transportError tr snd.2
      else
        (tr,
          [.message
            (if tr.lastResponse.any (·.isStatus 1) then cb1
              else if tr.lastResponse.any (·.isStatus 2) then cb2
              else cb3456) tr.lastResponse])
  else (tr, [])

def istRcvInvite : Method := fun env evt ist =>
  if ist.state = .istPreProceeding then
    let ist := { ist with origRequest := evt.sip }
    (ist.setState .istProceeding, [.message .istInviteReceived evt.sip])
  else
    .after [.message .istInviteReceivedAgain ist.origRequest] <|
      retransmitResponse .istStatus1xxSent .istStatus2xxSentAgain .istStatus3456xxSentAgain
        istHandleTransportError env ist

def osipIstTimeoutGEvent : Method := fun env _ ist =>
  let length := min (ist.istContext.timerG.length * 2) 4000
  let timerG := { ist.istContext.timerG with length }
  let ist := { ist with istContext := { ist.istContext with timerG := timerG.restart env.now } }
  let snd := sndXxx env ist.lastResponse
  .after snd.1 <|
    if snd.2 ≠ 0 then istHandleTransportError ist snd.2
    else (ist, [.message .istStatus3456xxSentAgain ist.lastResponse])

def osipIstTimeoutHEvent : Method := fun _ _ ist =>
  let ist := { ist with istContext := { ist.istContext with timerH := .off } }
  terminate .ist .istTerminated ist

def osipIstTimeoutIEvent : Method := fun _ _ ist =>
  let ist := { ist with istContext := { ist.istContext with timerI := .off } }
  terminate .ist .istTerminated ist

def istSnd1xx : Method := fun env evt ist =>
  let ist := { ist with lastResponse := evt.sip }
  let snd := sndXxx env evt.sip
  .after snd.1 <|
    if snd.2 ≠ 0 then istHandleTransportError ist snd.2
    else (ist, [.message .istStatus1xxSent ist.lastResponse])

def istSnd2xx : Method := fun env evt ist =>
  let ist := { ist with lastResponse := evt.sip }
  let snd := sndXxx env evt.sip
  .after snd.1 <|
    if snd.2 ≠ 0 then istHandleTransportError ist snd.2
    else
      .after [.message .istStatus2xxSent ist.lastResponse] (terminate .ist .istTerminated ist)

def istSnd3456xx : Method := fun env evt ist =>
  let ist := { ist with lastResponse := evt.sip }
  let snd := sndXxx env evt.sip
  .after snd.1 <|
    if snd.2 ≠ 0 then istHandleTransportError ist snd.2
    else
      let timerG :=
        if ist.istContext.timerG.length ≠ -1 then ist.istContext.timerG.restart env.now
        else ist.istContext.timerG
      let timerH := ist.istContext.timerH.restart env.now
      let ist := { ist with istContext := { ist.istContext with timerG, timerH } }
      (ist.setState .istCompleted,
        [.message (callbackOf .istStatus3xxSent .istStatus4xxSent .istStatus5xxSent
          .istStatus6xxSent ist.lastResponse) ist.lastResponse])

def istRcvAck : Method := fun env evt ist =>
  let ist := { ist with ack := evt.sip }
  let callback :=
    if ist.state = .istCompleted then MessageCallback.istAckReceived else .istAckReceivedAgain
  let timerI := ist.istContext.timerI.restart env.now
  let ist := { ist with istContext := { ist.istContext with timerI } }
  (ist.setState .istConfirmed, [.message callback ist.ack])

/-! ## Client transactions of another request -/

def nictHandleTransportError : Transaction → Int → Result :=
  handleTransportError .nict .nictTerminated

/-- The callbacks there are for a request. -/
structure RequestCallbacks where
  register : MessageCallback
  bye : MessageCallback
  options : MessageCallback
  info : MessageCallback
  cancel : MessageCallback
  notify : MessageCallback
  subscribe : MessageCallback
  unknown : MessageCallback

def RequestCallbacks.of (cbs : RequestCallbacks) (msg : Option SipMessage) : MessageCallback :=
  if msg.any (·.isMethod "REGISTER") then cbs.register
  else if msg.any (·.isMethod "BYE") then cbs.bye
  else if msg.any (·.isMethod "OPTIONS") then cbs.options
  else if msg.any (·.isMethod "INFO") then cbs.info
  else if msg.any (·.isMethod "CANCEL") then cbs.cancel
  else if msg.any (·.isMethod "NOTIFY") then cbs.notify
  else if msg.any (·.isMethod "SUBSCRIBE") then cbs.subscribe
  else cbs.unknown

def nictSentCallbacks : RequestCallbacks where
  register := .nictRegisterSent
  bye := .nictByeSent
  options := .nictOptionsSent
  info := .nictInfoSent
  cancel := .nictCancelSent
  notify := .nictNotifySent
  subscribe := .nictSubscribeSent
  unknown := .nictUnknownRequestSent

def nictSndRequest : Method := fun env evt nict =>
  let nict := { nict with origRequest := evt.sip }
  .after [.sendMessage evt.sip nict.nictContext.destination env.sendResult] <|
    if env.sendResult = 0 then
      let timerE :=
        if nict.nictContext.timerE.length > 0 then nict.nictContext.timerE.restart env.now
        else nict.nictContext.timerE
      let nict := { nict with nictContext := { nict.nictContext with timerE } }
      (nict.setState .nictTrying, [.message (nictSentCallbacks.of evt.sip) nict.origRequest])
    else nictHandleTransportError nict env.sendResult

def osipNictTimeoutEEvent : Method := fun env _ nict =>
  let length :=
    if nict.state = .nictTrying then min (nict.nictContext.timerE.length * 2) 4000 else 4000
  let timerE := { nict.nictContext.timerE with length }
  let nict := { nict with nictContext := { nict.nictContext with timerE := timerE.restart env.now } }
  .after [.sendMessage nict.origRequest nict.nictContext.destination env.sendResult] <|
    if env.sendResult ≠ 0 then nictHandleTransportError nict env.sendResult
    else (nict, [.message .nictRequestSentAgain nict.origRequest])

def osipNictTimeoutFEvent : Method := fun _ evt nict =>
  let nict := { nict with nictContext := { nict.nictContext with timerF := .off } }
  .after [.message .nictStatusTimeout evt.sip] (terminate .nict .nictTerminated nict)

def osipNictTimeoutKEvent : Method := fun _ _ nict =>
  let nict := { nict with nictContext := { nict.nictContext with timerK := .off } }
  terminate .nict .nictTerminated nict

def nictRcv1xx : Method := fun _ evt nict =>
  let nict := { nict with lastResponse := evt.sip }
  (nict.setState .nictProceeding, [.message .nictStatus1xxReceived evt.sip])

def nictRcv23456xx : Method := fun env evt nict =>
  let nict := { nict with lastResponse := evt.sip }
  let callback :=
    if evt.type = .rcvStatus2xx then MessageCallback.nictStatus2xxReceived
    else callbackOf .nictStatus3xxReceived .nictStatus4xxReceived .nictStatus5xxReceived
      .nictStatus6xxReceived nict.lastResponse
  let timerK :=
    if nict.state ≠ .nictCompleted then nict.nictContext.timerK.restart env.now
    else nict.nictContext.timerK
  let nict := { nict with nictContext := { nict.nictContext with timerK } }
  (nict.setState .nictCompleted, [.message callback nict.lastResponse])

/-! ## Server transactions of another request -/

def nistHandleTransportError : Transaction → Int → Result :=
  handleTransportError .nist .nistTerminated

def nistReceivedCallbacks : RequestCallbacks where
  register := .nistRegisterReceived
  bye := .nistByeReceived
  options := .nistOptionsReceived
  info := .nistInfoReceived
  cancel := .nistCancelReceived
  notify := .nistNotifyReceived
  subscribe := .nistSubscribeReceived
  unknown := .nistUnknownRequestReceived

def nistRcvRequest : Method := fun env evt nist =>
  if nist.state = .nistPreTrying then
    let nist := { nist with origRequest := evt.sip }
    (nist.setState .nistTrying, [.message (nistReceivedCallbacks.of evt.sip) nist.origRequest])
  else
    .after [.message .nistRequestReceivedAgain nist.origRequest] <|
      retransmitResponse .nistStatus1xxSent .nistStatus2xxSentAgain .nistStatus3456xxSentAgain
        nistHandleTransportError env nist

def nistSnd1xx : Method := fun env evt nist =>
  let nist := { nist with lastResponse := evt.sip }
  let snd := sndXxx env nist.lastResponse
  .after snd.1 <|
    if snd.2 ≠ 0 then nistHandleTransportError nist snd.2
    else (nist.setState .nistProceeding, [.message .nistStatus1xxSent nist.lastResponse])

def nistSnd23456xx : Method := fun env evt nist =>
  let nist := { nist with lastResponse := evt.sip }
  let snd := sndXxx env nist.lastResponse
  .after snd.1 <|
    if snd.2 ≠ 0 then nistHandleTransportError nist snd.2
    else
      let callback :=
        if evt.type = .sndStatus2xx then MessageCallback.nistStatus2xxSent
        else callbackOf .nistStatus3xxSent .nistStatus4xxSent .nistStatus5xxSent
          .nistStatus6xxSent nist.lastResponse
      let timerJ :=
        if nist.state ≠ .nistCompleted then nist.nistContext.timerJ.restart env.now
        else nist.nistContext.timerJ
      let nist := { nist with nistContext := { nist.nistContext with timerJ } }
      (nist.setState .nistCompleted, [.message callback nist.lastResponse])

def osipNistTimeoutJEvent : Method := fun _ _ nist =>
  let nist := { nist with nistContext := { nist.nistContext with timerJ := .off } }
  terminate .nist .nistTerminated nist

/-! ## Tables -/

/-- `transition_t` -/
structure Transition where
  state : State
  type : EventType
  method : Method

def ictFsm : List Transition :=
  [⟨.ictPreCalling, .sndReqInvite, ictSndInvite⟩,
    ⟨.ictCalling, .timeoutA, osipIctTimeoutAEvent⟩,
    ⟨.ictCalling, .timeoutB, osipIctTimeoutBEvent⟩,
    ⟨.ictCalling, .rcvStatus1xx, ictRcv1xx⟩,
    ⟨.ictCalling, .rcvStatus2xx, ictRcv2xx⟩,
    ⟨.ictCalling, .rcvStatus3456xx, ictRcv3456xx⟩,
    ⟨.ictProceeding, .rcvStatus1xx, ictRcv1xx⟩,
    ⟨.ictProceeding, .rcvStatus2xx, ictRcv2xx⟩,
    ⟨.ictProceeding, .rcvStatus3456xx, ictRcv3456xx⟩,
    ⟨.ictCompleted, .rcvStatus3456xx, ictRetransmitAck⟩,
    ⟨.ictCompleted, .timeoutD, osipIctTimeoutDEvent⟩]

def istFsm : List Transition :=
  [⟨.istPreProceeding, .rcvReqInvite, istRcvInvite⟩,
    ⟨.istProceeding, .rcvReqInvite, istRcvInvite⟩,
    ⟨.istCompleted, .rcvReqInvite, istRcvInvite⟩,
    ⟨.istCompleted, .timeoutG, osipIstTimeoutGEvent⟩,
    ⟨.istCompleted, .timeoutH, osipIstTimeoutHEvent⟩,
    ⟨.istProceeding, .sndStatus1xx, istSnd1xx⟩,
    ⟨.istProceeding, .sndStatus2xx, istSnd2xx⟩,
    ⟨.istProceeding, .sndStatus3456xx, istSnd3456xx⟩,
    ⟨.istCompleted, .rcvReqAck, istRcvAck⟩,
    ⟨.istConfirmed, .rcvReqAck, istRcvAck⟩,
    ⟨.istConfirmed, .timeoutI, osipIstTimeoutIEvent⟩]

def nictFsm : List Transition :=
  [⟨.nictPreTrying, .sndRequest, nictSndRequest⟩,
    ⟨.nictTrying, .timeoutF, osipNictTimeoutFEvent⟩,
    ⟨.nictTrying, .timeoutE, osipNictTimeoutEEvent⟩,
    ⟨.nictTrying, .rcvStatus1xx, nictRcv1xx⟩,
    ⟨.nictTrying, .rcvStatus2xx, nictRcv23456xx⟩,
    ⟨.nictTrying, .rcvStatus3456xx, nictRcv23456xx⟩,
    ⟨.nictProceeding, .timeoutF, osipNictTimeoutFEvent⟩,
    ⟨.nictProceeding, .timeoutE, osipNictTimeoutEEvent⟩,
    ⟨.nictProceeding, .rcvStatus1xx, nictRcv1xx⟩,
    ⟨.nictProceeding, .rcvStatus2xx, nictRcv23456xx⟩,
    ⟨.nictProceeding, .rcvStatus3456xx, nictRcv23456xx⟩,
    ⟨.nictCompleted, .timeoutK, osipNictTimeoutKEvent⟩]

def nistFsm : List Transition :=
  [⟨.nistPreTrying, .rcvRequest, nistRcvRequest⟩,
    ⟨.nistTrying, .sndStatus1xx, nistSnd1xx⟩,
    ⟨.nistTrying, .sndStatus2xx, nistSnd23456xx⟩,
    ⟨.nistTrying, .sndStatus3456xx, nistSnd23456xx⟩,
    ⟨.nistProceeding, .sndStatus1xx, nistSnd1xx⟩,
    ⟨.nistProceeding, .sndStatus2xx, nistSnd23456xx⟩,
    ⟨.nistProceeding, .sndStatus3456xx, nistSnd23456xx⟩,
    ⟨.nistProceeding, .rcvRequest, nistRcvRequest⟩,
    ⟨.nistCompleted, .timeoutJ, osipNistTimeoutJEvent⟩,
    ⟨.nistCompleted, .rcvRequest, nistRcvRequest⟩]

def FsmType.statemachine : FsmType → List Transition
  | .ict => ictFsm
  | .ist => istFsm
  | .nict => nictFsm
  | .nist => nistFsm

/-- `fsm_findmethod` -/
def fsmFindmethod (type : EventType) (state : State) (statemachine : List Transition) :
    Option Transition :=
  statemachine.find? fun t => t.type = type ∧ t.state = state

/-- `fsm_callmethod`; `none` is -1. -/
def fsmCallmethod (env : Env) (statemachine : List Transition) (evt : Event) (tr : Transaction) :
    Option Result :=
  (fsmFindmethod evt.type tr.state statemachine).map fun t => t.method env evt tr

/-- `osip_transaction_execute`.  An event the table has no entry for is thrown away. -/
def osipTransactionExecute (env : Env) (tr : Transaction) (evt : Event) : Result :=
  if evt.type = .killTransaction then (tr, [])
  else (fsmCallmethod env tr.ctxType.statemachine evt tr).getD (tr, [])

/-! ## Timers -/

/-- `__osip_transaction_need_timer_x_event` -/
def needTimerEvent (timer : Timer) (condState : Bool) (now : Int) (type : EventType) :
    Option Event :=
  if condState then
    timer.start.bind fun start => if now > start then some (osipEventNew type) else none
  else none

/-- What `osip_timers_ict_execute` and its siblings put in the queue of a transaction.  Only the
first of them looks whether there is something in it. -/
def osipTimersExecute (now : Int) (tr : Transaction) : Option Event :=
  match tr.ctxType with
  | .ict =>
    if 1 ≤ tr.transactionff.length then none
    else
      ((needTimerEvent tr.ictContext.timerB (tr.state = .ictCalling) now .timeoutB).or
        (needTimerEvent tr.ictContext.timerA (tr.state = .ictCalling) now .timeoutA)).or
        (needTimerEvent tr.ictContext.timerD (tr.state = .ictCompleted) now .timeoutD)
  | .ist =>
    ((needTimerEvent tr.istContext.timerI (tr.state = .istConfirmed) now .timeoutI).or
      (needTimerEvent tr.istContext.timerH (tr.state = .istCompleted) now .timeoutH)).or
      (needTimerEvent tr.istContext.timerG (tr.state = .istCompleted) now .timeoutG)
  | .nict =>
    let trying : Bool := tr.state = .nictProceeding ∨ tr.state = .nictTrying
    ((needTimerEvent tr.nictContext.timerK (tr.state = .nictCompleted) now .timeoutK).or
      (needTimerEvent tr.nictContext.timerF trying now .timeoutF)).or
      (needTimerEvent tr.nictContext.timerE trying now .timeoutE)
  | .nist => needTimerEvent tr.nistContext.timerJ (tr.state = .nistCompleted) now .timeoutJ

/-! ## Creation -/

/-- The transport is one for which the timers of a lossy one are not used. -/
def isReliable (request : SipMessage) : Option Bool :=
  request.vias.head?.map fun via =>
    osipStrcasecmp via.protocol (lit "TCP") || osipStrcasecmp via.protocol (lit "TLS") ||
      osipStrcasecmp via.protocol (lit "SCTP")

/-- `__osip_ict_init` -/
def osipIctInit (now : Int) (invite : SipMessage) : Option IctContext :=
  (isReliable invite).map fun reliable =>
    { timerA :=
        if reliable then .off else Timer.restart now ⟨defaultT1, none⟩
      timerB := Timer.restart now ⟨64 * defaultT1, none⟩
      timerD := ⟨if reliable then 0 else max (64 * defaultT1) 32000, none⟩
      destination := destinationOf invite.routes invite.reqUri }

/-- `__osip_ist_init` -/
def osipIstInit (invite : SipMessage) : Option IstContext :=
  (isReliable invite).map fun reliable =>
    { timerG := ⟨if reliable then -1 else defaultT1, none⟩
      timerH := ⟨64 * defaultT1, none⟩
      timerI := ⟨if reliable then 0 else defaultT4, none⟩ }

/-- `__osip_nict_init` -/
def osipNictInit (now : Int) (request : SipMessage) : Option NictContext :=
  (isReliable request).map fun reliable =>
    { timerE := ⟨if reliable then -1 else defaultT1, none⟩
      timerF := Timer.restart now ⟨64 * defaultT1, none⟩
      timerK := ⟨if reliable then 0 else defaultT4, none⟩
      destination := destinationOf request.routes request.reqUri }

/-- `__osip_nist_init` -/
def osipNistInit (request : SipMessage) : Option NistContext :=
  (isReliable request).map fun reliable =>
    { timerJ := ⟨if reliable then 0 else 64 * defaultT1, none⟩ }

/-- The context of another type. -/
def IctContext.null : IctContext :=
  ⟨.off, .off, .off, ⟨none, []⟩⟩

def IstContext.null : IstContext :=
  ⟨.off, .off, .off⟩

def NictContext.null : NictContext :=
  ⟨.off, .off, .off, ⟨none, []⟩⟩

def NistContext.null : NistContext :=
  ⟨.off⟩

/-- The state a transaction starts in. -/
def FsmType.initial : FsmType → State
  | .ict => .ictPreCalling
  | .ist => .istPreProceeding
  | .nict => .nictPreTrying
  | .nist => .nistPreTrying

/-- `osip_transaction_init` -/
def osipTransactionInit (now : Int) (ctxType : FsmType) (request : SipMessage) :
    Option Transaction := do
  let callid ← request.callId
  let topvia ← request.vias.head?
  let fromHeader ← request.fromHeader
  let toHeader ← request.toHeader
  let cseq ← request.cseq
  let tr : Transaction :=
    { transactionff := [], topvia, fromHeader, toHeader, callid, cseq, state := ctxType.initial,
      ctxType, origRequest := none, lastResponse := none, ack := none, ictContext := .null,
      istContext := .null, nictContext := .null, nistContext := .null }
  match ctxType with
  | .ict => (osipIctInit now request).map fun ictContext => { tr with ictContext }
  | .ist => (osipIstInit request).map fun istContext => { tr with istContext }
  | .nict => (osipNictInit now request).map fun nictContext => { tr with nictContext }
  | .nist => (osipNistInit request).map fun nistContext => { tr with nistContext }

/-- What is known of a new transaction. -/
structure Fresh (type : FsmType) (tr : Transaction) : Prop where
  ctxType : tr.ctxType = type
  state : tr.state = type.initial
  transactionff : tr.transactionff = []
  origRequest : tr.origRequest = none
  lastResponse : tr.lastResponse = none
  ack : tr.ack = none

theorem fresh_of_init {now : Int} {ctxType : FsmType} {request : SipMessage} {tr : Transaction}
    (h : osipTransactionInit now ctxType request = some tr) : Fresh ctxType tr := by
  simp only [osipTransactionInit, Option.bind_eq_bind, Option.bind_eq_some_iff] at h
  obtain ⟨callid, -, topvia, -, fromHeader, -, toHeader, -, cseq, -, h⟩ := h
  cases ctxType <;>
  · obtain ⟨ctx, -, rfl⟩ := Option.map_eq_some_iff.1 h
    constructor <;> rfl

/-! ## Everything that happens to a transaction -/

/-- What is done to a transaction on its own side. -/
inductive Local
  /-- The user of the stack has a message sent. -/
  | send (sip : SipMessage)
  /-- The user of the stack ends it. -/
  | kill
  /-- The loop looks at the timers. -/
  | timers (now : Int)
  /-- The loop executes the next event. -/
  | execute (env : Env)

/-- `osip_transaction_add_event` -/
def Transaction.addEvent (tr : Transaction) (evt : Event) : Transaction :=
  { tr with transactionff := tr.transactionff ++ [evt] }

def Local.step (tr : Transaction) : Local → Result
  | .send sip => (tr.addEvent (.outgoing sip), [])
  | .kill => (tr.addEvent (osipEventNew .killTransaction), [])
  | .timers now => ((osipTimersExecute now tr).elim tr tr.addEvent, [])
  | .execute env =>
    match tr.transactionff with
    | [] => (tr, [])
    | evt :: rest => osipTransactionExecute env { tr with transactionff := rest } evt

inductive Input
  | here (l : Local)
  /-- A message has come in that belongs to the transaction. -/
  | receive (sip : SipMessage)

def step (tr : Transaction) : Input → Result
  | .here l => l.step tr
  | .receive sip => (tr.addEvent (.incoming sip), [])

end Osip
end Furikup
