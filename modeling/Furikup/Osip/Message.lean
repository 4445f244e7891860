import Furikup.Sdp

/-!
# SIP messages, as the transactions read them

A message is what `osip_message_parse` has made of a datagram.  Headers are pointers, so they are
optional, but what a parsed header always has is a text.

* `SipMessage` — the headers that the transactions read or copy.
* `EventType`, `evtSetTypeIncomingSipmessage`, `evtSetTypeOutgoingSipmessage` — what becomes of a
  message as an event of a transaction.
* `destinationOf` — where a request goes.
* `Final` — the responses that end a transaction.
-/

set_option autoImplicit false

namespace Furikup
namespace Osip

open CText

/-! ## Headers -/

/-- `osip_generic_param_t` -/
structure Param where
  gname : Text
  gvalue : Option Text
  deriving DecidableEq

/-- `osip_uri_param_get_byname` -/
def paramGetByname (params : List Param) (pname : Text) : Option Param :=
  params.find? fun p => osipStrcasecmp p.gname pname

/-- `osip_uri_t` -/
structure Uri where
  host : Option Text
  port : Option Text
  urlParams : List Param
  deriving DecidableEq

/-- `osip_via_t` -/
structure Via where
  version : Text
  protocol : Text
  host : Text
  port : Option Text
  comment : Option Text
  viaParams : List Param
  deriving DecidableEq

/-- `osip_from_t`, which `osip_to_t` and `osip_route_t` are as well. -/
structure From where
  displayname : Option Text
  url : Option Uri
  genParams : List Param
  deriving DecidableEq

/-- `osip_call_id_t` -/
structure CallId where
  number : Text
  host : Option Text
  deriving DecidableEq

/-- `osip_cseq_t` -/
structure CSeq where
  method : Text
  number : Text
  deriving DecidableEq

/-- `osip_message_t` -/
structure SipMessage where
  statusCode : Int
  sipMethod : Text
  sipVersion : Option Text
  reqUri : Option Uri
  vias : List Via
  routes : List From
  fromHeader : Option From
  toHeader : Option From
  callId : Option CallId
  cseq : Option CSeq
  deriving DecidableEq

namespace SipMessage

def isRequest (msg : SipMessage) : Bool :=
  msg.statusCode = 0

/-- `MSG_IS_INVITE` and its siblings. -/
def isMethod (name : String) (msg : SipMessage) : Bool :=
  msg.isRequest && msg.sipMethod == lit name

/-- `MSG_IS_STATUS_1XX` and its siblings. -/
def isStatus (hundreds : Int) (msg : SipMessage) : Bool :=
  100 * hundreds ≤ msg.statusCode ∧ msg.statusCode < 100 * (hundreds + 1)

end SipMessage

/-! ## Events -/

/-- `type_t` -/
inductive EventType
  | timeoutA
  | timeoutB
  | timeoutD
  | timeoutE
  | timeoutF
  | timeoutK
  | timeoutG
  | timeoutH
  | timeoutI
  | timeoutJ
  | rcvReqInvite
  | rcvReqAck
  | rcvRequest
  | rcvStatus1xx
  | rcvStatus2xx
  | rcvStatus3456xx
  | sndReqInvite
  | sndReqAck
  | sndRequest
  | sndStatus1xx
  | sndStatus2xx
  | sndStatus3456xx
  | killTransaction
  | unknownEvt
  deriving DecidableEq

def evtSetTypeIncomingSipmessage (sip : SipMessage) : EventType :=
  if sip.isRequest then
    if sip.isMethod "INVITE" then .rcvReqInvite
    else if sip.isMethod "ACK" then .rcvReqAck
    else .rcvRequest
  else if sip.isStatus 1 then .rcvStatus1xx
  else if sip.isStatus 2 then .rcvStatus2xx
  else .rcvStatus3456xx

def evtSetTypeOutgoingSipmessage (sip : SipMessage) : EventType :=
  if sip.isRequest then
    if sip.isMethod "INVITE" then .sndReqInvite
    else if sip.isMethod "ACK" then .sndReqAck
    else .sndRequest
  else if sip.isStatus 1 then .sndStatus1xx
  else if sip.isStatus 2 then .sndStatus2xx
  else .sndStatus3456xx

/-- `osip_event_t` -/
structure Event where
  type : EventType
  sip : Option SipMessage
  deriving DecidableEq

/-- The event `osip_parse` makes of a message from the network. -/
def Event.incoming (sip : SipMessage) : Event :=
  ⟨evtSetTypeIncomingSipmessage sip, some sip⟩

/-- `osip_new_outgoing_sipmessage` -/
def Event.outgoing (sip : SipMessage) : Event :=
  ⟨evtSetTypeOutgoingSipmessage sip, some sip⟩

/-- `__osip_event_new` -/
def osipEventNew (type : EventType) : Event :=
  ⟨type, none⟩

/-! ## Destinations -/

/-- A host, and a port as it is written in the message. -/
structure Destination where
  host : Option Text
  port : Text
  deriving DecidableEq

/-- Where a request goes: to its first route if that is a loose one, and else to its own address,
unless that names another host. -/
def destinationOf (routes : List From) (reqUri : Option Uri) : Destination :=
  let route := (routes.head?.bind From.url).filter fun url =>
    (paramGetByname url.urlParams (lit "lr")).isSome
  match route with
  | some url => ⟨url.host, url.port.getD (lit "5060")⟩
  | none =>
    let maddr := reqUri.bind fun url =>
      (paramGetByname url.urlParams (lit "maddr")).bind Param.gvalue
    ⟨maddr.or (reqUri.bind Uri.host), (reqUri.bind Uri.port).getD (lit "5060")⟩

/-! ## Responses -/

/-- A response that ends a transaction, which every response does that is not provisional. -/
def Final (msg : SipMessage) : Prop :=
  msg.isRequest = false ∧ msg.isStatus 1 = false

instance (msg : SipMessage) : Decidable (Final msg) :=
  inferInstanceAs (Decidable (_ ∧ _))

end Osip
end Furikup
