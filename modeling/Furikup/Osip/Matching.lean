import Furikup.Osip.Moves

/-!
# Which transaction a request belongs to

A request that comes in is compared with the server transactions there are.  A client that is
compliant marks its branches with a cookie, and then a few values decide; for the others there is
an older way that compares nearly everything.

* `matchingRequest` — the comparison.
* `Key` — what it comes to for compliant clients, by `matchingRequest_iff`: requests with the same
  key belong to the same transaction, and an acknowledgement has the key of its INVITE.
* `matchingRequest_ack` — **the acknowledgement that a client makes belongs to the transaction of its
  own INVITE and to no other**.
-/

set_option autoImplicit false

namespace Furikup
namespace Osip

open CText

/-! ## Comparing headers -/

/-- `osip_via_to_str` -/
def osipViaToStr (via : Via) : Text :=
  lit "SIP/" ++ via.version ++ lit "/" ++ via.protocol ++ lit " " ++
    (if ':' ∈ via.host then lit "[" ++ via.host ++ lit "]" else via.host) ++
    via.port.elim [] (lit ":" ++ ·) ++
    via.viaParams.flatMap (fun p => lit ";" ++ p.gname ++ p.gvalue.elim [] (lit "=" ++ ·)) ++
    via.comment.elim [] fun comment => lit " (" ++ comment ++ lit ")"

def osipViaMatch (via1 via2 : Via) : Bool :=
  osipViaToStr via1 == osipViaToStr via2

def osipCallIdMatch (callid1 : CallId) (callid2 : Option CallId) : Bool :=
  callid2.any fun callid2 => callid1.number == callid2.number && callid1.host == callid2.host

/-- `osip_from_tag_match`, which `osip_to_tag_match` is as well. -/
def osipFromTagMatch (from1 from2 : From) : Bool :=
  match paramGetByname from1.genParams (lit "tag"), paramGetByname from2.genParams (lit "tag") with
  | none, none => true
  | some tag1, some tag2 =>
    match tag1.gvalue, tag2.gvalue with
    | some value1, some value2 => value1 == value2
    | _, _ => false
  | _, _ => false

def osipCseqMatch (cseq1 cseq2 : CSeq) : Bool :=
  cseq1.number == cseq2.number &&
    if cseq2.method = lit "INVITE" ∨ cseq2.method = lit "ACK" then
      cseq1.method = lit "INVITE" ∨ cseq1.method = lit "ACK"
    else cseq1.method = cseq2.method

/-! ## Comparing a request with a transaction -/

def magicCookie : Text :=
  lit "z9hG4bK"

def samePort : Option Text → Option Text → Bool
  | some origport, some port => origport == port
  | none, some port => port == lit "5060"
  | some origport, none => origport == lit "5060"
  | none, none => true

/-- The comparison for compliant clients, once the branches have been looked at. -/
def matchingSentBy (tr : Transaction) (cseq : CSeq) (topvia : Via) : Bool :=
  tr.topvia.host == topvia.host && samePort tr.topvia.port topvia.port &&
    (tr.cseq.method = lit "INVITE" ∧ cseq.method = lit "ACK" ∨ tr.cseq.method = cseq.method : Bool)

/-- The comparison for the others.  A request without To or From is not parsed. -/
def matchingOld (tr : Transaction) (request : SipMessage) (cseq : CSeq) (topvia : Via) : Bool :=
  match request.toHeader, request.fromHeader with
  | some toHeader, some fromHeader =>
    osipCallIdMatch tr.callid request.callId &&
      (if request.isAck ∧ (paramGetByname tr.toHeader.genParams (lit "tag")).isNone ∧
          (paramGetByname toHeader.genParams (lit "tag")).isSome then true
        else osipFromTagMatch tr.toHeader toHeader) &&
      osipFromTagMatch tr.fromHeader fromHeader && osipCseqMatch tr.cseq cseq &&
      osipViaMatch tr.topvia topvia
  | _, _ => false

/-- `__osip_transaction_matching_request_osip_to_xist_17_2_3` -/
def matchingRequest (tr : Transaction) (request : SipMessage) : Bool :=
  if tr.ctxType ≠ .ist ∧ tr.ctxType ≠ .nist then false
  else
    match request.cseq, request.vias.head? with
    | some cseq, some topvia =>
      match paramGetByname tr.topvia.viaParams (lit "branch"),
        paramGetByname topvia.viaParams (lit "branch") with
      | none, none => matchingOld tr request cseq topvia
      | some bOrigrequest, some bRequest =>
        match bOrigrequest.gvalue, bRequest.gvalue with
        | some origbranch, some branch =>
          if origbranch.length ≠ branch.length then false
          else if origbranch.take 7 = magicCookie ∧ branch.take 7 = magicCookie then
            origbranch == branch && matchingSentBy tr cseq topvia
          else matchingOld tr request cseq topvia
        | _, _ => false
      | _, _ => false
    | _, _ => false

/-! ## Keys -/

/-- What a compliant client tells its requests apart by. -/
structure Key where
  branch : Option Text
  host : Text
  port : Text
  method : Text
  deriving DecidableEq

def Via.branch (via : Via) : Option Text :=
  (paramGetByname via.viaParams (lit "branch")).bind Param.gvalue

def keyOf (via : Via) (cseq : CSeq) : Key where
  branch := via.branch
  host := via.host
  port := via.port.getD (lit "5060")
  method := if cseq.method = lit "ACK" then lit "INVITE" else cseq.method

def Transaction.key (tr : Transaction) : Key :=
  keyOf tr.topvia tr.cseq

/-- The branch has the cookie. -/
def Via.Marked (via : Via) : Prop :=
  ∃ branch, via.branch = some branch ∧ branch.take 7 = magicCookie

/-- The request comes from a compliant client. -/
structure Compliant (request : SipMessage) (via : Via) (cseq : CSeq) : Prop where
  topvia : request.vias.head? = some via
  method : cseq.method = request.sipMethod
  marked : via.Marked
  header : request.cseq = some cseq

/-- A server transaction for a request of a compliant client. -/
structure Transaction.Serving (tr : Transaction) : Prop where
  ctxType : tr.ctxType = .ist ∨ tr.ctxType = .nist
  method : tr.cseq.method ≠ lit "ACK"
  marked : tr.topvia.Marked

theorem samePort_iff (port1 port2 : Option Text) :
    samePort port1 port2 = true ↔ port1.getD (lit "5060") = port2.getD (lit "5060") := by
  cases port1 with
  | none =>
    cases port2 with
    | none => exact ⟨fun _ => rfl, fun _ => rfl⟩
    | some port => exact beq_iff_eq.trans eq_comm
  | some origport =>
    cases port2 with
    | none => exact beq_iff_eq
    | some port => exact beq_iff_eq

theorem ack_ne_invite : lit "ACK" ≠ lit "INVITE" := by
  simp [lit]

/-- An acknowledgement counts as an INVITE. -/
theorem sameMethod_iff {method method' : Text} (h : method ≠ lit "ACK") :
    (method = lit "INVITE" ∧ method' = lit "ACK" ∨ method = method') ↔
      (if method = lit "ACK" then lit "INVITE" else method) =
        (if method' = lit "ACK" then lit "INVITE" else method') := by
  rw [if_neg h]
  split
  · next hack =>
    subst hack
    simp [h]
  · next hack => simp [hack]

theorem param_of_branch {via : Via} {branch : Text} (h : via.branch = some branch) :
    ∃ b, paramGetByname via.viaParams (lit "branch") = some b ∧ b.gvalue = some branch :=
  Option.bind_eq_some_iff.1 h

/-- **Whether a request of a compliant client belongs to a transaction is a matter of the keys.** -/
theorem matchingRequest_iff {tr : Transaction} {request : SipMessage} {via : Via} {cseq : CSeq}
    (htr : tr.Serving) (hvias : request.vias.head? = some via) (hcseq : request.cseq = some cseq)
    (hmarked : via.Marked) : matchingRequest tr request = true ↔ tr.key = keyOf via cseq := by
  obtain ⟨origbranch, horig, horigmark⟩ := htr.marked
  obtain ⟨branch, hbranch, hmark⟩ := hmarked
  obtain ⟨b, hb, hvalue⟩ := param_of_branch horig
  obtain ⟨b', hb', hvalue'⟩ := param_of_branch hbranch
  have hserver : ¬ (tr.ctxType ≠ .ist ∧ tr.ctxType ≠ .nist) := fun ⟨hist, hnist⟩ =>
    htr.ctxType.elim hist hnist
  have hkeys : tr.key = keyOf via cseq ↔ origbranch = branch ∧ tr.topvia.host = via.host ∧
      tr.topvia.port.getD (lit "5060") = via.port.getD (lit "5060") ∧
      (tr.cseq.method = lit "INVITE" ∧ cseq.method = lit "ACK" ∨ tr.cseq.method = cseq.method) := by
    rw [Transaction.key, keyOf, keyOf, Key.mk.injEq, horig, hbranch, Option.some.injEq,
      sameMethod_iff htr.method]
  rw [hkeys, matchingRequest, if_neg hserver, hvias, hcseq]
  simp only [hb, hb', hvalue, hvalue']
  split
  · next hlength =>
    exact ⟨fun h => absurd h Bool.false_ne_true, fun h => absurd (congrArg List.length h.1) hlength⟩
  · rw [if_pos ⟨horigmark, hmark⟩, matchingSentBy, Bool.and_eq_true, Bool.and_eq_true,
      Bool.and_eq_true, samePort_iff, beq_iff_eq, beq_iff_eq, decide_eq_true_iff, and_assoc]

theorem serving_of_init {now : Int} {type : FsmType} {request : SipMessage} {tr : Transaction}
    {via : Via} {cseq : CSeq} (htr : osipTransactionInit now type request = some tr)
    (htype : type = .ist ∨ type = .nist) (hc : Compliant request via cseq)
    (hreq : request.isRequest = true) (hack : request.isAck = false) :
    tr.Serving ∧ tr.topvia = via ∧ tr.cseq = cseq := by
  have hhead : tr.topvia = via ∧ tr.cseq = cseq := by
    simp only [osipTransactionInit, Option.bind_eq_bind, Option.bind_eq_some_iff] at htr
    obtain ⟨callid, -, topvia, hvia, fromHeader, -, toHeader, -, cseq', hcseq, htr⟩ := htr
    obtain rfl := Option.some.inj (hvia.symm.trans hc.topvia)
    obtain rfl := Option.some.inj (hcseq.symm.trans hc.header)
    cases type <;>
    · obtain ⟨ctx, -, rfl⟩ := Option.map_eq_some_iff.1 htr
      exact ⟨rfl, rfl⟩
  have hmethod : cseq.method ≠ lit "ACK" := by
    intro h
    rw [hc.method] at h
    simp [SipMessage.isAck, SipMessage.isMethod, hreq, h] at hack
  have hctx := (fresh_of_init htr).ctxType
  exact ⟨⟨by rwa [hctx], by rwa [hhead.2], by rw [hhead.1]; exact hc.marked⟩, hhead⟩

/-- What an acknowledgement takes from its INVITE. -/
theorem ictCreateAck_spec {ict : Transaction} {response : Option SipMessage} {ack : SipMessage}
    (h : ictCreateAck ict response = some ack) :
    ∃ invite via cseq, ict.origRequest = some invite ∧ invite.vias.head? = some via ∧
      ack.vias.head? = some via ∧ ack.cseq = some cseq ∧ cseq.method = lit "ACK" := by
  simp only [ictCreateAck, Option.bind_eq_bind, Option.bind_eq_some_iff, Option.pure_def,
    Option.some.injEq] at h
  obtain ⟨p, -, invite, hinvite, from_, -, to_, -, callId, -, cseq, -, via, hvia, rfl⟩ := h
  exact ⟨invite, via, _, hinvite, hvia, rfl, rfl, rfl⟩

/-- **The acknowledgement of a client belongs to the transaction that its INVITE has created**, and
of all others to those that the INVITE belongs to. -/
theorem matchingRequest_ack {ict : Transaction} {invite ack : SipMessage}
    {response : Option SipMessage} {via : Via} {cseq : CSeq}
    (horig : ict.origRequest = some invite) (hack : ictCreateAck ict response = some ack)
    (hinvite : invite.isMethod "INVITE" = true) (hc : Compliant invite via cseq) :
    (∀ now tr, osipTransactionInit now .ist invite = some tr → matchingRequest tr ack = true) ∧
      ∀ now type request tr, osipTransactionInit now type request = some tr →
        (type = .ist ∨ type = .nist) → request.isRequest = true → request.isAck = false →
        (∃ via' cseq', Compliant request via' cseq') →
        matchingRequest tr ack = matchingRequest tr invite := by
  obtain ⟨q, topvia, ackCseq, hq, hvia, hackvia, hackcseq, hmethod⟩ := ictCreateAck_spec hack
  obtain rfl := Option.some.inj (hq.symm.trans horig)
  obtain rfl := Option.some.inj (hvia.symm.trans hc.topvia)
  have hsame : keyOf topvia ackCseq = keyOf topvia cseq := by
    have hinvite' : cseq.method = lit "INVITE" := by
      simp only [SipMessage.isMethod, Bool.and_eq_true, beq_iff_eq] at hinvite
      rw [hc.method, hinvite.2]
    rw [keyOf, keyOf, hmethod, if_pos rfl, if_neg (hinvite' ▸ ack_ne_invite.symm), hinvite']
  have hreq : q.isRequest = true := by
    rw [SipMessage.isMethod, Bool.and_eq_true] at hinvite
    exact hinvite.1
  refine ⟨fun now tr htr => ?_, fun now type request tr htr htype hreq' hnack hc' => ?_⟩
  · obtain ⟨hserving, rfl, rfl⟩ :=
      serving_of_init htr (.inl rfl) hc hreq (isAck_of_isInvite hinvite)
    exact (matchingRequest_iff hserving hackvia hackcseq hc.marked).2 hsame.symm
  · obtain ⟨via', cseq', hc'⟩ := hc'
    obtain ⟨hserving, -⟩ := serving_of_init htr htype hc' hreq' hnack
    have hiff := matchingRequest_iff hserving hc.topvia hc.header hc.marked
    have hiff' := matchingRequest_iff hserving hackvia hackcseq hc.marked
    rw [hsame] at hiff'
    exact Bool.eq_iff_iff.2 (hiff'.trans hiff.symm)

theorem compliant_someInvite : ∃ via cseq, Compliant someInvite via cseq :=
  ⟨_, _, rfl, rfl, ⟨lit "z9hG4bK1", by decide +kernel, by decide +kernel⟩, rfl⟩

theorem matchingRequest_ack_busy :
    ∃ ack, ictCreateAck { someClient with origRequest := some someInvite }
        (some (someResponse 486)) = some ack ∧ matchingRequest someServer ack = true := by
  obtain ⟨via, cseq, hc⟩ := compliant_someInvite
  have hack : ictCreateAck { someClient with origRequest := some someInvite }
      (some (someResponse 486)) = some _ := rfl
  exact ⟨_, hack, (matchingRequest_ack rfl hack (by decide +kernel) hc).1 0 someServer rfl⟩

end Osip
end Furikup
