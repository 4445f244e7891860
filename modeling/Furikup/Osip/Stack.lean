import Furikup.Osip.Matching

/-!
# All the server transactions of a stack

A request that comes in is handed to the transaction it belongs to, and where there is none a new
one is created for it.

* `Stack.step` — a request comes in, a transaction goes on, a transaction is removed.
* `StackInv` — no two transactions have the same key, and what has been announced has a transaction
  that knows it.
* `announced_once` — **in every run, a request is not announced a second time before its transaction
  is removed**, however often it comes in and whatever comes in between.
-/

set_option autoImplicit false

namespace Furikup
namespace Osip

open CText

/-- The transactions of `osip_ist_transactions` and of `osip_nist_transactions`, which are told apart
by their types. -/
abbrev Stack := List Transaction

inductive StackInput
  /-- A request comes in. -/
  | receive (now : Int) (request : SipMessage)
  /-- A transaction does something. -/
  | transaction (i : Nat) (l : Local)
  /-- `osip_remove_transaction` -/
  | remove (i : Nat)

inductive StackEvent
  | announced (key : Key)
  | removed (key : Key)
  deriving DecidableEq

/-! ## Steps -/

/-- The list `__osip_find_transaction` looks through. -/
def transactionsFor (cseq : CSeq) : FsmType :=
  if cseq.method = lit "INVITE" ∨ cseq.method = lit "ACK" then .ist else .nist

/-- `__osip_find_transaction` -/
def findTransaction (ts : Stack) (request : SipMessage) : Option Nat :=
  request.cseq.bind fun cseq =>
    ts.findIdx? fun tr => tr.ctxType = transactionsFor cseq ∧ matchingRequest tr request

/-- The beginning of `eXosip_process_newrequest`. -/
def processNewrequest (now : Int) (ts : Stack) (request : SipMessage) : Stack :=
  let ctxType :=
    if request.isMethod "INVITE" then some FsmType.ist
    else if request.isAck then none
    else some .nist
  match ctxType.bind fun ctxType => osipTransactionInit now ctxType request with
  | none => ts
  | some tr => ts ++ [tr.addEvent (.incoming request)]

def requestKey (request : SipMessage) : Option Key := do
  let via ← request.vias.head?
  let cseq ← request.cseq
  pure (keyOf via cseq)

/-- What the user of the stack is told of a request. -/
def announcements (said : List Happening) : List StackEvent :=
  said.filterMap fun l =>
    match l with
    | .announce request => (requestKey request).map .announced
    | _ => none

def Stack.step (ts : Stack) : StackInput → Stack × List StackEvent
  | .receive now request =>
    match findTransaction ts request with
    | some i => (ts.modify i fun tr => tr.addEvent (.incoming request), [])
    | none => (processNewrequest now ts request, [])
  | .transaction i l =>
    match ts[i]? with
    | none => (ts, [])
    | some tr => (ts.set i (l.step tr).1, announcements (happenings (l.step tr).2))
  | .remove i =>
    match ts[i]? with
    | none => (ts, [])
    | some tr => (ts.eraseIdx i, [.removed tr.key])

theorem processNewrequest_spec (ts : Stack) {request : SipMessage} {via : Via} {cseq : CSeq}
    (hc : Compliant request via cseq) (hreq : request.isRequest = true) (now : Int) :
    processNewrequest now ts request = ts ∨ ∃ tr, request.isAck = false ∧
      osipTransactionInit now (transactionsFor cseq) request = some tr ∧
      processNewrequest now ts request = ts ++ [tr.addEvent (.incoming request)] := by
  have hmethod : ∀ name, request.isMethod name = true ↔ cseq.method = lit name := fun name => by
    rw [SipMessage.isMethod, hreq, hc.method, Bool.true_and, beq_iff_eq]
  have hcreate : ∀ type, type = transactionsFor cseq → request.isAck = false →
      (match osipTransactionInit now type request with
        | none => ts
        | some tr => ts ++ [tr.addEvent (.incoming request)]) = ts ∨
      ∃ tr, request.isAck = false ∧
        osipTransactionInit now (transactionsFor cseq) request = some tr ∧
        (match osipTransactionInit now type request with
          | none => ts
          | some tr => ts ++ [tr.addEvent (.incoming request)]) =
            ts ++ [tr.addEvent (.incoming request)] := by
    rintro type rfl hnack
    cases htr : osipTransactionInit now (transactionsFor cseq) request with
    | none => exact Or.inl rfl
    | some tr => exact Or.inr ⟨tr, hnack, rfl, rfl⟩
  rw [processNewrequest]
  by_cases hinvite : request.isMethod "INVITE" = true
  · rw [if_pos hinvite]
    refine hcreate .ist ?_ (isAck_of_isInvite hinvite)
    rw [transactionsFor, if_pos (.inl ((hmethod _).1 hinvite))]
  · rw [if_neg hinvite]
    by_cases hack : request.isAck = true
    · rw [if_pos hack]
      exact Or.inl rfl
    · rw [if_neg hack]
      refine hcreate .nist ?_ (Bool.eq_false_iff.2 hack)
      rw [transactionsFor, if_neg]
      exact fun h => h.elim (fun h => hinvite ((hmethod _).2 h)) fun h => hack ((hmethod _).2 h)

/-! ## What has been announced -/

/-- A request with the key has been announced, and its transaction has not been removed since. -/
def Live (past : List StackEvent) (key : Key) : Prop :=
  ∃ front rest, past = front ++ .announced key :: rest ∧ .removed key ∉ rest

/-- What may happen. -/
def StackEvent.May (past : List StackEvent) : StackEvent → Prop
  | .announced key => ¬ Live past key
  | .removed _ => True

variable {past : List StackEvent} {key : Key}

theorem Live.of_announced {key' : Key} (h : Live (past ++ [.announced key']) key) :
    Live past key ∨ key = key' := by
  obtain ⟨front, rest, heq, hrest⟩ := h
  rcases List.eq_nil_or_concat rest with rfl | ⟨rest, last, rfl⟩
  · obtain ⟨-, hlast⟩ := List.append_inj' heq rfl
    exact Or.inr (StackEvent.announced.inj (List.cons.inj hlast).1).symm
  · rw [List.concat_eq_append, ← List.cons_append, ← List.append_assoc] at heq
    obtain ⟨hpast, -⟩ := List.append_inj' heq rfl
    refine Or.inl ⟨front, rest, hpast, fun hmem => hrest ?_⟩
    rw [List.concat_eq_append]
    exact List.mem_append_left _ hmem

theorem Live.of_removed {key' : Key} (h : Live (past ++ [.removed key']) key) :
    Live past key ∧ key ≠ key' := by
  obtain ⟨front, rest, heq, hrest⟩ := h
  rcases List.eq_nil_or_concat rest with rfl | ⟨rest, last, rfl⟩
  · obtain ⟨-, hlast⟩ := List.append_inj' heq rfl
    exact StackEvent.noConfusion (List.cons.inj hlast).1
  · rw [List.concat_eq_append, ← List.cons_append, ← List.append_assoc] at heq
    obtain ⟨hpast, hlast⟩ := List.append_inj' heq rfl
    obtain rfl := (List.cons.inj hlast).1
    rw [List.concat_eq_append] at hrest
    refine ⟨⟨front, rest, hpast, fun hmem => hrest (List.mem_append_left _ hmem)⟩, ?_⟩
    rintro rfl
    exact hrest (List.mem_append_right _ List.mem_cons_self)

/-! ## Invariants -/

/-- A transaction of the stack, whose queue holds nothing of another request. -/
structure Transaction.Good (tr : Transaction) : Prop extends tr.Serving where
  typed : tr.ctxType = .ist ↔ tr.cseq.method = lit "INVITE"
  queued : ∀ evt ∈ tr.transactionff, Queued (requestKey · = some tr.key) evt

structure StackInv (ts : Stack) (past : List StackEvent) : Prop where
  good : ∀ tr ∈ ts, tr.Good
  distinct : (ts.map Transaction.key).Nodup
  live : ∀ key, Live past key → ∃ tr ∈ ts, tr.key = key ∧ tr.state.serverPhase ≠ .fresh

/-! ### One transaction -/

/-- What a transaction of the stack does on its own. -/
structure Went (tr : Transaction) (r : Result) : Prop where
  ctxType : r.1.ctxType = tr.ctxType
  topvia : r.1.topvia = tr.topvia
  cseq : r.1.cseq = tr.cseq
  phase : tr.state.serverPhase ≠ .fresh → r.1.state.serverPhase ≠ .fresh
  told : announcements (happenings r.2) = [] ∨
    announcements (happenings r.2) = [.announced tr.key] ∧ tr.state.serverPhase = .fresh ∧
      r.1.state.serverPhase ≠ .fresh

variable {tr : Transaction}

theorem Transaction.Good.execute (h : tr.Good) {evt : Event} (env : Env) (queue : List Event)
    (hevt : Queued (requestKey · = some tr.key) evt) :
    Went tr (osipTransactionExecute env { tr with transactionff := queue } evt) := by
  have hframe : Framed { tr with transactionff := queue }
      (osipTransactionExecute env { tr with transactionff := queue } evt).1 :=
    framed_osipTransactionExecute env evt
  have hmove : ServerMove (requestKey · = some tr.key) { tr with transactionff := queue }
      (osipTransactionExecute env { tr with transactionff := queue } evt) :=
    serverMove_osipTransactionExecute env hevt h.ctxType
  refine ⟨hframe.ctxType, hframe.topvia, hframe.cseq, ?_, ?_⟩
  · intro hne
    cases hmove with
    | quiet hphase =>
      rcases hphase with hphase | ⟨hphase, -⟩
      · rw [hphase]
        decide
      · rwa [hphase]
    | announces q hreceived hack hfresh => exact absurd hfresh hne
    | gives p hresponse hopened hlast hphase =>
      rcases hphase with ⟨-, hphase⟩ | ⟨-, hphase | hphase⟩ <;> rw [hphase] <;> decide
    | givesAgain p hlast hprov hphase hkeeps =>
      rwa [hkeeps]
    | confirms a hreceived hack hanswered hphase =>
      rw [hphase]
      decide
  · cases hmove with
    | quiet hphase hnews => exact Or.inl (by rw [hnews]; rfl)
    | announces q hreceived hack hfresh hphase hlast hnews =>
      refine Or.inr ⟨?_, hfresh, by rw [hphase]; decide⟩
      rw [hnews, announcements, List.filterMap_cons]
      dsimp only
      rw [hreceived]
      rfl
    | gives p hresponse hopened hlast hphase hnews => exact Or.inl (by rw [hnews]; rfl)
    | givesAgain p hlast hprov hphase hkeeps hnews => exact Or.inl (by rw [hnews]; rfl)
    | confirms a hreceived hack hanswered hphase hlast hnews => exact Or.inl (by rw [hnews]; rfl)

theorem Transaction.Good.local (h : tr.Good) (l : Local) :
    Went tr (l.step tr) ∧ (l.step tr).1.Good := by
  have hwent : Went tr (l.step tr) :=
    of_execute (P := Went tr) h.queued (fun _ => ⟨rfl, rfl, rfl, id, .inl rfl⟩)
      (fun env queue evt hevt => h.execute env queue hevt) l
  have hkey : (l.step tr).1.key = tr.key := by
    rw [Transaction.key, Transaction.key, hwent.topvia, hwent.cseq]
  refine ⟨hwent, ⟨by rw [hwent.ctxType]; exact h.ctxType, by rw [hwent.cseq]; exact h.method,
    by rw [hwent.topvia]; exact h.marked⟩, by rw [hwent.ctxType, hwent.cseq]; exact h.typed, ?_⟩
  rw [hkey]
  exact queued_of_local h.queued l

theorem Transaction.Good.addEvent (h : tr.Good) {request : SipMessage}
    (hkey : requestKey request = some tr.key) : (tr.addEvent (.incoming request)).Good := by
  have hrequest : Queued (requestKey · = some tr.key) (.incoming request) := .incoming request hkey
  exact ⟨⟨h.ctxType, h.method, h.marked⟩, h.typed, fun evt hevt => (List.mem_append.1 hevt).elim (h.queued evt)
    fun hmem => List.mem_singleton.1 hmem ▸ hrequest⟩

/-! ### All of them -/

namespace StackInv

variable {ts : Stack}

theorem eq_of_key (h : StackInv ts past) {tr' : Transaction} (htr : tr ∈ ts) (htr' : tr' ∈ ts)
    (hkey : tr.key = tr'.key) : tr = tr' :=
  List.inj_on_of_nodup_map h.distinct htr htr' hkey

/-- A transaction is replaced by what has become of it. -/
theorem set (h : StackInv ts past) {i : Nat} {tr' : Transaction} (htr : ts[i]? = some tr)
    (hgood : tr'.Good) (hkey : tr'.key = tr.key)
    (hphase : tr.state.serverPhase ≠ .fresh → tr'.state.serverPhase ≠ .fresh) :
    StackInv (ts.set i tr') past := by
  obtain ⟨hi, htr⟩ := List.getElem?_eq_some_iff.1 htr
  have hmap : (ts.set i tr').map Transaction.key = ts.map Transaction.key := by
    rw [List.map_set, hkey, ← htr, ← List.map_set, List.set_getElem_self]
  refine ⟨fun tr0 hmem => ?_, by rw [hmap]; exact h.distinct, fun key hlive => ?_⟩
  · rcases List.mem_or_eq_of_mem_set hmem with hmem | rfl
    · exact h.good tr0 hmem
    · exact hgood
  · obtain ⟨tr0, hmem, hkey0, hphase0⟩ := h.live key hlive
    obtain ⟨j, hj, rfl⟩ := List.getElem_of_mem hmem
    by_cases hij : i = j
    · subst hij
      exact ⟨tr', List.mem_set hi tr', hkey.trans (htr ▸ hkey0), hphase (htr ▸ hphase0)⟩
    · refine ⟨ts[j], List.mem_iff_getElem.2 ⟨j, by rwa [List.length_set], ?_⟩, hkey0, hphase0⟩
      exact List.getElem_set_ne hij _

theorem transaction (h : StackInv ts past) {i : Nat} (htr : ts[i]? = some tr) (l : Local)
    (hpast : Legal StackEvent.May past) :
    Legal StackEvent.May (past ++ announcements (happenings (l.step tr).2)) ∧
      StackInv (ts.set i (l.step tr).1) (past ++ announcements (happenings (l.step tr).2)) := by
  have hmem := List.mem_of_getElem? htr
  obtain ⟨hwent, hgood⟩ := (h.good tr hmem).local l
  have hkey : (l.step tr).1.key = tr.key := by
    rw [Transaction.key, Transaction.key, hwent.topvia, hwent.cseq]
  have hset := h.set htr hgood hkey hwent.phase
  rcases hwent.told with hsilent | ⟨htold, hfresh, hphase⟩
  · rw [hsilent, List.append_nil]
    exact ⟨hpast, hset⟩
  · rw [htold]
    refine ⟨hpast.snoc fun hlive => ?_, hset.good, hset.distinct, fun key hlive => ?_⟩
    · obtain ⟨tr0, hmem0, hkey0, hphase0⟩ := h.live _ hlive
      obtain rfl := h.eq_of_key hmem0 hmem hkey0
      exact hphase0 hfresh
    · rcases hlive.of_announced with hlive | rfl
      · exact hset.live key hlive
      · obtain ⟨hi, -⟩ := List.getElem?_eq_some_iff.1 htr
        exact ⟨_, List.mem_set hi _, hkey, hphase⟩

theorem remove (h : StackInv ts past) {i : Nat} (htr : ts[i]? = some tr)
    (hpast : Legal StackEvent.May past) :
    Legal StackEvent.May (past ++ [.removed tr.key]) ∧
      StackInv (ts.eraseIdx i) (past ++ [.removed tr.key]) := by
  refine ⟨hpast.snoc trivial, fun tr0 hmem => h.good tr0 (List.mem_of_mem_eraseIdx hmem), ?_,
    fun key hlive => ?_⟩
  · rw [← List.eraseIdx_map]
    exact h.distinct.eraseIdx i
  · obtain ⟨hlive, hne⟩ := hlive.of_removed
    obtain ⟨tr0, hmem, hkey, hphase⟩ := h.live key hlive
    obtain ⟨j, hj⟩ := List.getElem?_of_mem hmem
    refine ⟨tr0, List.mem_eraseIdx_iff_getElem?.2 ⟨j, ?_, hj⟩, hkey, hphase⟩
    rintro rfl
    obtain rfl := Option.some.inj (hj.symm.trans htr)
    exact hne hkey.symm

/-- A transaction is created for a request that belongs to none. -/
theorem create (h : StackInv ts past) {request : SipMessage} {via : Via} {cseq : CSeq} {now : Int}
    (hc : Compliant request via cseq) (hreq : request.isRequest = true)
    (hnack : request.isAck = false) (hnone : findTransaction ts request = none)
    (htr : osipTransactionInit now (transactionsFor cseq) request = some tr) :
    StackInv (ts ++ [tr.addEvent (.incoming request)]) past := by
  have hserver : transactionsFor cseq = .ist ∨ transactionsFor cseq = .nist := by
    rw [transactionsFor]
    split
    · exact Or.inl rfl
    · exact Or.inr rfl
  obtain ⟨hserving, rfl, rfl⟩ := serving_of_init htr hserver hc hreq hnack
  have hfresh := fresh_of_init htr
  have htyped : ∀ tr0 : Transaction, tr0.Serving → tr0.cseq.method = tr.cseq.method →
      (tr0.ctxType = .ist ↔ tr0.cseq.method = lit "INVITE") →
      tr0.ctxType = transactionsFor tr.cseq := by
    intro tr0 hserving0 hmethod htyped0
    rw [hmethod] at htyped0
    rw [transactionsFor]
    split
    · next hcase => exact htyped0.2 (hcase.resolve_right hserving.method)
    · next hcase =>
      exact hserving0.ctxType.resolve_left fun hist => hcase (.inl (htyped0.1 hist))
  have hgood : tr.Good := by
    refine ⟨hserving, ?_, ?_⟩
    · rw [hfresh.ctxType, transactionsFor]
      split
      · next hcase => exact ⟨fun _ => hcase.resolve_right hserving.method, fun _ => rfl⟩
      · next hcase =>
        exact ⟨fun hist => absurd hist (by decide), fun hinvite => absurd (.inl hinvite) hcase⟩
    · rw [hfresh.transactionff]
      exact List.forall_mem_nil _
  have hkey : requestKey request = some tr.key := by
    rw [requestKey, hc.topvia, hc.header]
    rfl
  refine ⟨fun tr0 hmem => ?_, ?_, fun key hlive => ?_⟩
  · rcases List.mem_append.1 hmem with hmem | hmem
    · exact h.good tr0 hmem
    · exact List.mem_singleton.1 hmem ▸ hgood.addEvent hkey
  · rw [List.map_append, List.nodup_append]
    refine ⟨h.distinct, List.nodup_singleton _, fun key0 hmem0 key1 hmem1 heq => ?_⟩
    obtain ⟨tr0, hmem, rfl⟩ := List.mem_map.1 hmem0
    have hsame : tr0.key = tr.key := heq.trans (List.mem_singleton.1 hmem1)
    have hgood0 := h.good tr0 hmem
    have hmatch := (matchingRequest_iff hgood0.toServing hc.topvia hc.header hc.marked).2 hsame
    have hmethod : tr0.cseq.method = tr.cseq.method := by
      have hclass := congrArg Key.method hsame
      dsimp only [Transaction.key, keyOf] at hclass
      rwa [if_neg hgood0.method, if_neg hserving.method] at hclass
    rw [findTransaction, hc.header, Option.bind_some, List.findIdx?_eq_none_iff] at hnone
    exact of_decide_eq_false (hnone tr0 hmem)
      ⟨htyped tr0 hgood0.toServing hmethod hgood0.typed, hmatch⟩
  · obtain ⟨tr0, hmem, hrest⟩ := h.live key hlive
    exact ⟨tr0, List.mem_append_left _ hmem, hrest⟩

theorem receive (h : StackInv ts past) {request : SipMessage} {via : Via} {cseq : CSeq}
    (hc : Compliant request via cseq) (hreq : request.isRequest = true) (now : Int) :
    StackInv (Stack.step ts (.receive now request)).1 past := by
  have hkey : requestKey request = some (keyOf via cseq) := by
    rw [requestKey, hc.topvia, hc.header]
    rfl
  rw [Stack.step]
  cases hfind : findTransaction ts request with
  | some i =>
    rw [findTransaction, hc.header, Option.bind_some, List.findIdx?_eq_some_iff_getElem] at hfind
    obtain ⟨hi, hmatch, -⟩ := hfind
    obtain ⟨-, hmatch⟩ := of_decide_eq_true hmatch
    have hgood := h.good ts[i] (List.getElem_mem hi)
    have hkeys := (matchingRequest_iff hgood.toServing hc.topvia hc.header hc.marked).1 hmatch
    dsimp only
    rw [List.modify_eq_set_getElem?, List.getElem?_eq_getElem hi]
    exact h.set (List.getElem?_eq_getElem hi) (hgood.addEvent (hkey.trans (congrArg some hkeys.symm)))
      rfl id
  | none =>
    rcases processNewrequest_spec ts hc hreq now with heq | ⟨tr, hnack, htr, heq⟩
    · dsimp only
      rw [heq]
      exact h
    · dsimp only
      rw [heq]
      exact h.create hc hreq hnack hfind htr

theorem step (h : StackInv ts past) (hpast : Legal StackEvent.May past) (i : StackInput)
    (hi : ∀ now request, i = .receive now request →
      request.isRequest = true ∧ ∃ via cseq, Compliant request via cseq) :
    Legal StackEvent.May (past ++ (ts.step i).2) ∧ StackInv (ts.step i).1 (past ++ (ts.step i).2) := by
  cases i with
  | receive now request =>
    obtain ⟨hreq, via, cseq, hc⟩ := hi now request rfl
    have hsilent : (ts.step (.receive now request)).2 = [] := by
      rw [Stack.step]
      cases findTransaction ts request <;> rfl
    rw [hsilent, List.append_nil]
    exact ⟨hpast, h.receive hc hreq now⟩
  | transaction i l =>
    rw [Stack.step]
    cases htr : ts[i]? with
    | none =>
      rw [List.append_nil]
      exact ⟨hpast, h⟩
    | some tr => exact h.transaction htr l hpast
  | remove i =>
    rw [Stack.step]
    cases htr : ts[i]? with
    | none =>
      rw [List.append_nil]
      exact ⟨hpast, h⟩
    | some tr => exact h.remove htr hpast

theorem run {is : List StackInput} (h : StackInv ts past) (hpast : Legal StackEvent.May past)
    (his : ∀ now request, .receive now request ∈ is →
      request.isRequest = true ∧ ∃ via cseq, Compliant request via cseq) :
    Legal StackEvent.May (past ++ (Transducer.run Stack.step is ts).2) := by
  induction is generalizing ts past with
  | nil =>
    rw [Transducer.run_nil, List.append_nil]
    exact hpast
  | cons i is ih =>
    obtain ⟨hpast', h'⟩ := h.step hpast i fun now request heq =>
      his now request (heq ▸ List.mem_cons_self)
    rw [Transducer.run, ← List.append_assoc]
    exact ih h' hpast' fun now request hmem => his now request (List.mem_cons_of_mem _ hmem)

theorem nil : StackInv [] [] where
  good := List.forall_mem_nil _
  distinct := List.nodup_nil
  live key := by
    rintro ⟨front, rest, heq, -⟩
    simp at heq

end StackInv

/-- **A request is announced once**: where it is announced a second time, its transaction has been
removed in between. -/
theorem announced_once {is : List StackInput}
    (his : ∀ now request, .receive now request ∈ is →
      request.isRequest = true ∧ ∃ via cseq, Compliant request via cseq)
    (front mid rest : List StackEvent) (key : Key)
    (htrace : (Transducer.run Stack.step is []).2 =
      front ++ .announced key :: mid ++ .announced key :: rest) :
    .removed key ∈ mid := by
  have hlegal := StackInv.nil.run .nil his
  rw [List.nil_append, htrace] at hlegal
  by_contra hkept
  exact hlegal.may ⟨front, mid, rfl, hkept⟩

/-- The INVITE comes in twice, and once more when its transaction is gone. -/
def lateRun : List StackInput :=
  let go : Local := .execute ⟨0, 0⟩
  [.receive 0 someInvite, .receive 0 someInvite, .transaction 0 go, .transaction 0 go, .remove 0,
    .receive 0 someInvite, .transaction 0 go]

theorem announced_once_late :
    (Transducer.run Stack.step lateRun []).2 =
        [.announced someServer.key, .removed someServer.key, .announced someServer.key] ∧
      .removed someServer.key ∈ [StackEvent.removed someServer.key] := by
  have htrace : (Transducer.run Stack.step lateRun []).2 =
      [.announced someServer.key, .removed someServer.key, .announced someServer.key] := by
    decide +kernel
  refine ⟨htrace, announced_once (fun now request hmem => ?_) [] _ [] someServer.key htrace⟩
  have hinvite : request = someInvite := by
    simp only [lateRun, List.mem_cons, StackInput.receive.injEq, reduceCtorEq, false_or,
      List.not_mem_nil, or_false] at hmem
    rcases hmem with h | h | h <;> exact h.2
  rw [hinvite]
  exact ⟨by decide +kernel, compliant_someInvite⟩

end Osip
end Furikup
