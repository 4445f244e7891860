import Furikup.Osip.Transaction
import Furikup.Lib.Exchange

/-!
# The end of a transaction

A transaction ends by one callback, after which the user of the stack may free it.

* `Proper` — what a method may do: go on in a state of its own machine, or end with the callback as
  the last thing.
* `proper_ictFsm`, `proper_istFsm`, `proper_nictFsm`, `proper_nistFsm` — every entry of a table does
  one of the two.
* `osipTransactionExecute_of_isTerminated` — a transaction that has ended does nothing.
* `killed_once` — **in every run, whatever is done to the transaction in whatever order, it is
  reported ended exactly if it has ended, once, and nothing is sent or called back after that**; a
  transport error is reported right before, if at all.
-/

set_option autoImplicit false

namespace Furikup
namespace Osip

open CText

/-! ## States -/

/-- The machine a state belongs to. -/
def State.fsmType : State → FsmType
  | .ictPreCalling | .ictCalling | .ictProceeding | .ictCompleted | .ictTerminated => .ict
  | .istPreProceeding | .istProceeding | .istCompleted | .istConfirmed | .istTerminated => .ist
  | .nictPreTrying | .nictTrying | .nictProceeding | .nictCompleted | .nictTerminated => .nict
  | .nistPreTrying | .nistTrying | .nistProceeding | .nistCompleted | .nistTerminated => .nist

def State.isTerminated : State → Bool
  | .ictTerminated | .istTerminated | .nictTerminated | .nistTerminated => true
  | _ => false

/-- Every entry of a table is for a state of its machine that is not the last one. -/
theorem state_of_mem_statemachine (type : FsmType) :
    ∀ t ∈ type.statemachine, t.state.fsmType = type ∧ t.state.isTerminated = false := by
  cases type <;> simp [FsmType.statemachine, ictFsm, istFsm, nictFsm, nistFsm, State.fsmType,
    State.isTerminated]

theorem mem_of_fsmFindmethod {type : EventType} {state : State} {machine : List Transition}
    {t : Transition} (h : fsmFindmethod type state machine = some t) :
    t ∈ machine ∧ t.type = type ∧ t.state = state :=
  ⟨List.mem_of_find?_eq_some h, by simpa using List.find?_some h⟩

/-- **What an event does**: nothing, or what an entry of the table says. -/
theorem osipTransactionExecute_cases (env : Env) (tr : Transaction) (evt : Event) :
    osipTransactionExecute env tr evt = (tr, []) ∨
      ∃ t ∈ tr.ctxType.statemachine, t.type = evt.type ∧ t.state = tr.state ∧
        osipTransactionExecute env tr evt = t.method env evt tr := by
  rw [osipTransactionExecute]
  split
  · exact Or.inl rfl
  · rw [fsmCallmethod]
    cases hfind : fsmFindmethod evt.type tr.state tr.ctxType.statemachine with
    | none => exact Or.inl rfl
    | some t =>
      obtain ⟨hmem, htype, hstate⟩ := mem_of_fsmFindmethod hfind
      exact Or.inr ⟨t, hmem, htype, hstate, rfl⟩

theorem osipTransactionExecute_of_isTerminated {tr : Transaction}
    (h : tr.state.isTerminated = true) (env : Env) (evt : Event) :
    osipTransactionExecute env tr evt = (tr, []) := by
  rcases osipTransactionExecute_cases env tr evt with heq | ⟨t, hmem, -, hstate, -⟩
  · exact heq
  · have hlast := (state_of_mem_statemachine _ t hmem).2
    rw [hstate, h] at hlast
    exact absurd hlast (by decide)

/-! ## Methods -/

/-- It is neither of the two callbacks at the end. -/
def Output.Quiet : Output → Prop
  | .sendMessage _ _ _ | .message _ _ => True
  | .transportError _ _ | .killTransaction _ => False

/-- What a transaction says when it ends. -/
def Farewell (type : FsmType) (outs : List Output) : Prop :=
  outs = [.killTransaction type] ∨ ∃ err, outs = [.transportError type err, .killTransaction type]

/-- A method goes on in a state of its machine, or ends the transaction. -/
inductive Proper (type : FsmType) (r : Result) : Prop
  | goesOn (hstate : r.1.state.fsmType = type) (halive : r.1.state.isTerminated = false)
      (hquiet : ∀ out ∈ r.2, out.Quiet)
  | ends (hstate : r.1.state.fsmType = type) (hended : r.1.state.isTerminated = true)
      (hlast : ∃ front last, r.2 = front ++ last ∧ (∀ out ∈ front, out.Quiet) ∧ Farewell type last)

variable {type : FsmType} {tr : Transaction} (env : Env) (evt : Event)

theorem Proper.after {outs : List Output} {r : Result} (h : Proper type r)
    (houts : ∀ out ∈ outs, out.Quiet) : Proper type (.after outs r) := by
  cases h with
  | goesOn hstate halive hquiet =>
    exact .goesOn hstate halive fun out hout =>
      (List.mem_append.1 hout).elim (houts out) (hquiet out)
  | ends hstate hended hlast =>
    obtain ⟨front, last, heq, hfront, hfarewell⟩ := hlast
    refine .ends hstate hended ⟨outs ++ front, last, ?_, ?_, hfarewell⟩
    · rw [Result.after, heq, List.append_assoc]
    · exact fun out hout => (List.mem_append.1 hout).elim (houts out) (hfront out)

theorem proper_terminate {terminated : State} (htype : terminated.fsmType = type)
    (hended : terminated.isTerminated = true) : Proper type (terminate type terminated tr) :=
  .ends htype hended ⟨[], _, rfl, by simp, .inl rfl⟩

theorem proper_handleTransportError {terminated : State} (htype : terminated.fsmType = type)
    (hended : terminated.isTerminated = true) (err : Int) :
    Proper type (handleTransportError type terminated tr err) :=
  .ends htype hended ⟨[], _, rfl, by simp, .inr ⟨err, rfl⟩⟩

theorem quiet_sndXxx (msg : Option SipMessage) :
    ∀ out ∈ (sndXxx env msg).1, out.Quiet := by
  rw [sndXxx]
  split <;> simp [Output.Quiet]

theorem proper_retransmitResponse {cb1 cb2 cb3456 : MessageCallback}
    {transportError : Transaction → Int → Result}
    (hstate : tr.state.fsmType = type) (halive : tr.state.isTerminated = false)
    (herror : ∀ err, Proper type (transportError tr err)) :
    Proper type (retransmitResponse cb1 cb2 cb3456 transportError env tr) := by
  rw [retransmitResponse]
  split
  · refine Proper.after ?_ (quiet_sndXxx env _)
    split
    · exact herror _
    · exact .goesOn hstate halive (by simp [Output.Quiet])
  · exact .goesOn hstate halive (by simp)

/-! ### Clients of an INVITE -/

theorem proper_ictTerminate : Proper .ict (terminate .ict .ictTerminated tr) :=
  proper_terminate (by rfl) (by rfl)

theorem proper_ictHandleTransportError (err : Int) :
    Proper .ict (ictHandleTransportError tr err) := by
  rw [ictHandleTransportError]
  exact proper_handleTransportError (by rfl) (by rfl) err

theorem proper_ictSndInvite : Proper .ict (ictSndInvite env evt tr) := by
  rw [ictSndInvite]
  refine Proper.after ?_ (by simp [Output.Quiet])
  split
  · exact .goesOn rfl rfl (by simp [Output.Quiet])
  · exact proper_ictHandleTransportError _

theorem proper_osipIctTimeoutAEvent (hstate : tr.state = .ictCalling) :
    Proper .ict (osipIctTimeoutAEvent env evt tr) := by
  rw [osipIctTimeoutAEvent]
  refine Proper.after ?_ (by simp [Output.Quiet])
  split
  · exact .goesOn (by rw [hstate]; rfl) (by rw [hstate]; rfl) (by simp [Output.Quiet])
  · exact proper_ictHandleTransportError _

theorem proper_ictRcv1xx : Proper .ict (ictRcv1xx env evt tr) :=
  .goesOn rfl rfl (by simp [ictRcv1xx, Output.Quiet])

theorem proper_ictRcv2xx : Proper .ict (ictRcv2xx env evt tr) :=
  (proper_ictTerminate).after (by simp [Output.Quiet])

theorem proper_ictRcv3456xx : Proper .ict (ictRcv3456xx env evt tr) := by
  simp only [ictRcv3456xx]
  split
  · split
    · exact proper_ictTerminate
    · refine Proper.after ?_ (by simp [Output.Quiet])
      split
      · exact proper_ictHandleTransportError _
      · exact .goesOn rfl rfl (by simp [Output.Quiet])
  · exact .goesOn rfl rfl (by simp)

theorem proper_ictRetransmitAck : Proper .ict (ictRetransmitAck env evt tr) := by
  rw [ictRetransmitAck]
  refine Proper.after ?_ (by simp [Output.Quiet])
  split
  · exact .goesOn rfl rfl (by simp [Output.Quiet])
  · exact proper_ictHandleTransportError _

theorem proper_ictFsm {t : Transition} (ht : t ∈ ictFsm) (hstate : t.state = tr.state) :
    Proper .ict (t.method env evt tr) := by
  simp only [ictFsm, List.mem_cons, List.not_mem_nil, or_false] at ht
  rcases ht with rfl | rfl | rfl | rfl | rfl | rfl | rfl | rfl | rfl | rfl | rfl
  · exact proper_ictSndInvite env evt
  · exact proper_osipIctTimeoutAEvent env evt hstate.symm
  · exact (proper_ictTerminate).after (by simp [Output.Quiet])
  · exact proper_ictRcv1xx env evt
  · exact proper_ictRcv2xx env evt
  · exact proper_ictRcv3456xx env evt
  · exact proper_ictRcv1xx env evt
  · exact proper_ictRcv2xx env evt
  · exact proper_ictRcv3456xx env evt
  · exact proper_ictRetransmitAck env evt
  · exact proper_ictTerminate

/-! ### Servers of an INVITE -/

theorem proper_istTerminate : Proper .ist (terminate .ist .istTerminated tr) :=
  proper_terminate (by rfl) (by rfl)

theorem proper_istHandleTransportError (err : Int) :
    Proper .ist (istHandleTransportError tr err) := by
  rw [istHandleTransportError]
  exact proper_handleTransportError (by rfl) (by rfl) err

theorem proper_istRcvInvite (htype : tr.state.fsmType = .ist)
    (halive : tr.state.isTerminated = false) : Proper .ist (istRcvInvite env evt tr) := by
  rw [istRcvInvite]
  split
  · exact .goesOn rfl rfl (by simp [Output.Quiet])
  · refine Proper.after ?_ (by simp [Output.Quiet])
    exact proper_retransmitResponse env htype halive proper_istHandleTransportError

theorem proper_osipIstTimeoutGEvent (hstate : tr.state = .istCompleted) :
    Proper .ist (osipIstTimeoutGEvent env evt tr) := by
  rw [osipIstTimeoutGEvent]
  refine Proper.after ?_ (quiet_sndXxx env _)
  split
  · exact proper_istHandleTransportError _
  · exact .goesOn (by rw [hstate]; rfl) (by rw [hstate]; rfl) (by simp [Output.Quiet])

theorem proper_istSnd1xx (hstate : tr.state = .istProceeding) :
    Proper .ist (istSnd1xx env evt tr) := by
  rw [istSnd1xx]
  refine Proper.after ?_ (quiet_sndXxx env _)
  split
  · exact proper_istHandleTransportError _
  · exact .goesOn (by rw [hstate]; rfl) (by rw [hstate]; rfl) (by simp [Output.Quiet])

theorem proper_istSnd2xx : Proper .ist (istSnd2xx env evt tr) := by
  rw [istSnd2xx]
  refine Proper.after ?_ (quiet_sndXxx env _)
  split
  · exact proper_istHandleTransportError _
  · exact (proper_istTerminate).after (by simp [Output.Quiet])

theorem proper_istSnd3456xx : Proper .ist (istSnd3456xx env evt tr) := by
  rw [istSnd3456xx]
  refine Proper.after ?_ (quiet_sndXxx env _)
  split
  · exact proper_istHandleTransportError _
  · exact .goesOn rfl rfl (by simp [Output.Quiet])

theorem proper_istRcvAck : Proper .ist (istRcvAck env evt tr) :=
  .goesOn rfl rfl (by simp [istRcvAck, Output.Quiet])

theorem proper_istFsm {t : Transition} (ht : t ∈ istFsm) (hstate : t.state = tr.state) :
    Proper .ist (t.method env evt tr) := by
  simp only [istFsm, List.mem_cons, List.not_mem_nil, or_false] at ht
  rcases ht with rfl | rfl | rfl | rfl | rfl | rfl | rfl | rfl | rfl | rfl | rfl
  · exact proper_istRcvInvite env evt (hstate ▸ rfl) (hstate ▸ rfl)
  · exact proper_istRcvInvite env evt (hstate ▸ rfl) (hstate ▸ rfl)
  · exact proper_istRcvInvite env evt (hstate ▸ rfl) (hstate ▸ rfl)
  · exact proper_osipIstTimeoutGEvent env evt hstate.symm
  · exact proper_istTerminate
  · exact proper_istSnd1xx env evt hstate.symm
  · exact proper_istSnd2xx env evt
  · exact proper_istSnd3456xx env evt
  · exact proper_istRcvAck env evt
  · exact proper_istRcvAck env evt
  · exact proper_istTerminate

/-! ### Clients of another request -/

theorem proper_nictTerminate : Proper .nict (terminate .nict .nictTerminated tr) :=
  proper_terminate (by rfl) (by rfl)

theorem proper_nictHandleTransportError (err : Int) :
    Proper .nict (nictHandleTransportError tr err) := by
  rw [nictHandleTransportError]
  exact proper_handleTransportError (by rfl) (by rfl) err

theorem proper_nictSndRequest : Proper .nict (nictSndRequest env evt tr) := by
  rw [nictSndRequest]
  refine Proper.after ?_ (by simp [Output.Quiet])
  split
  · exact .goesOn rfl rfl (by simp [Output.Quiet])
  · exact proper_nictHandleTransportError _

theorem proper_osipNictTimeoutEEvent (htype : tr.state.fsmType = .nict)
    (halive : tr.state.isTerminated = false) : Proper .nict (osipNictTimeoutEEvent env evt tr) := by
  rw [osipNictTimeoutEEvent]
  refine Proper.after ?_ (by simp [Output.Quiet])
  split
  · exact proper_nictHandleTransportError _
  · exact .goesOn htype halive (by simp [Output.Quiet])

theorem proper_osipNictTimeoutFEvent : Proper .nict (osipNictTimeoutFEvent env evt tr) :=
  (proper_nictTerminate).after (by simp [Output.Quiet])

theorem proper_nictRcv1xx : Proper .nict (nictRcv1xx env evt tr) :=
  .goesOn rfl rfl (by simp [nictRcv1xx, Output.Quiet])

theorem proper_nictRcv23456xx : Proper .nict (nictRcv23456xx env evt tr) :=
  .goesOn rfl rfl (by simp [nictRcv23456xx, Output.Quiet])

theorem proper_nictFsm {t : Transition} (ht : t ∈ nictFsm) (hstate : t.state = tr.state) :
    Proper .nict (t.method env evt tr) := by
  simp only [nictFsm, List.mem_cons, List.not_mem_nil, or_false] at ht
  rcases ht with rfl | rfl | rfl | rfl | rfl | rfl | rfl | rfl | rfl | rfl | rfl | rfl
  · exact proper_nictSndRequest env evt
  · exact proper_osipNictTimeoutFEvent env evt
  · exact proper_osipNictTimeoutEEvent env evt (hstate ▸ rfl) (hstate ▸ rfl)
  · exact proper_nictRcv1xx env evt
  · exact proper_nictRcv23456xx env evt
  · exact proper_nictRcv23456xx env evt
  · exact proper_osipNictTimeoutFEvent env evt
  · exact proper_osipNictTimeoutEEvent env evt (hstate ▸ rfl) (hstate ▸ rfl)
  · exact proper_nictRcv1xx env evt
  · exact proper_nictRcv23456xx env evt
  · exact proper_nictRcv23456xx env evt
  · exact proper_nictTerminate

/-! ### Servers of another request -/

theorem proper_nistTerminate : Proper .nist (terminate .nist .nistTerminated tr) :=
  proper_terminate (by rfl) (by rfl)

theorem proper_nistHandleTransportError (err : Int) :
    Proper .nist (nistHandleTransportError tr err) := by
  rw [nistHandleTransportError]
  exact proper_handleTransportError (by rfl) (by rfl) err

theorem proper_nistRcvRequest (htype : tr.state.fsmType = .nist)
    (halive : tr.state.isTerminated = false) : Proper .nist (nistRcvRequest env evt tr) := by
  rw [nistRcvRequest]
  split
  · exact .goesOn rfl rfl (by simp [Output.Quiet])
  · refine Proper.after ?_ (by simp [Output.Quiet])
    exact proper_retransmitResponse env htype halive proper_nistHandleTransportError

theorem proper_nistSnd1xx : Proper .nist (nistSnd1xx env evt tr) := by
  rw [nistSnd1xx]
  refine Proper.after ?_ (quiet_sndXxx env _)
  split
  · exact proper_nistHandleTransportError _
  · exact .goesOn rfl rfl (by simp [Output.Quiet])

theorem proper_nistSnd23456xx : Proper .nist (nistSnd23456xx env evt tr) := by
  rw [nistSnd23456xx]
  refine Proper.after ?_ (quiet_sndXxx env _)
  split
  · exact proper_nistHandleTransportError _
  · exact .goesOn rfl rfl (by simp [Output.Quiet])

theorem proper_nistFsm {t : Transition} (ht : t ∈ nistFsm) (hstate : t.state = tr.state) :
    Proper .nist (t.method env evt tr) := by
  simp only [nistFsm, List.mem_cons, List.not_mem_nil, or_false] at ht
  rcases ht with rfl | rfl | rfl | rfl | rfl | rfl | rfl | rfl | rfl | rfl
  · exact proper_nistRcvRequest env evt (hstate ▸ rfl) (hstate ▸ rfl)
  · exact proper_nistSnd1xx env evt
  · exact proper_nistSnd23456xx env evt
  · exact proper_nistSnd23456xx env evt
  · exact proper_nistSnd1xx env evt
  · exact proper_nistSnd23456xx env evt
  · exact proper_nistSnd23456xx env evt
  · exact proper_nistRcvRequest env evt (hstate ▸ rfl) (hstate ▸ rfl)
  · exact proper_nistTerminate
  · exact proper_nistRcvRequest env evt (hstate ▸ rfl) (hstate ▸ rfl)

/-! ## Runs -/

/-- What a method leaves alone. -/
structure Framed (tr tr' : Transaction) : Prop where
  ctxType : tr'.ctxType = tr.ctxType
  transactionff : tr'.transactionff = tr.transactionff
  topvia : tr'.topvia = tr.topvia
  cseq : tr'.cseq = tr.cseq

theorem framed_of_mem {t : Transition} (ht : t ∈ type.statemachine) :
    Framed tr (t.method env evt tr).1 := by
  cases type <;>
    simp only [FsmType.statemachine, ictFsm, istFsm, nictFsm, nistFsm, List.mem_cons,
      List.not_mem_nil, or_false] at ht
  · rcases ht with rfl | rfl | rfl | rfl | rfl | rfl | rfl | rfl | rfl | rfl | rfl
    all_goals
      simp only [ictSndInvite, osipIctTimeoutAEvent, osipIctTimeoutBEvent, ictRcv1xx, ictRcv2xx,
        ictRcv3456xx, ictRetransmitAck, osipIctTimeoutDEvent]
      (repeat' split) <;> exact ⟨rfl, rfl, rfl, rfl⟩
  · rcases ht with rfl | rfl | rfl | rfl | rfl | rfl | rfl | rfl | rfl | rfl | rfl
    all_goals
      simp only [istRcvInvite, osipIstTimeoutGEvent, osipIstTimeoutHEvent, istSnd1xx, istSnd2xx,
        istSnd3456xx, istRcvAck, osipIstTimeoutIEvent, retransmitResponse]
      (repeat' split) <;> exact ⟨rfl, rfl, rfl, rfl⟩
  · rcases ht with rfl | rfl | rfl | rfl | rfl | rfl | rfl | rfl | rfl | rfl | rfl | rfl
    all_goals
      simp only [nictSndRequest, osipNictTimeoutFEvent, osipNictTimeoutEEvent, nictRcv1xx,
        nictRcv23456xx, osipNictTimeoutKEvent]
      (repeat' split) <;> exact ⟨rfl, rfl, rfl, rfl⟩
  · rcases ht with rfl | rfl | rfl | rfl | rfl | rfl | rfl | rfl | rfl | rfl
    all_goals
      simp only [nistRcvRequest, nistSnd1xx, nistSnd23456xx, osipNistTimeoutJEvent,
        retransmitResponse]
      (repeat' split) <;> exact ⟨rfl, rfl, rfl, rfl⟩

theorem framed_osipTransactionExecute : Framed tr (osipTransactionExecute env tr evt).1 := by
  rcases osipTransactionExecute_cases env tr evt with heq | ⟨t, hmem, -, -, heq⟩
  · rw [heq]
    exact ⟨rfl, rfl, rfl, rfl⟩
  · rw [heq]
    exact framed_of_mem env evt hmem

theorem proper_osipTransactionExecute (hstate : tr.state.fsmType = tr.ctxType)
    (halive : tr.state.isTerminated = false) :
    Proper tr.ctxType (osipTransactionExecute env tr evt) := by
  rcases osipTransactionExecute_cases env tr evt with heq | ⟨t, hmem, -, ht, heq⟩
  · rw [heq]
    exact .goesOn hstate halive (by simp)
  · rw [heq]
    cases hctx : tr.ctxType with
    | ict => exact proper_ictFsm env evt (by rwa [hctx] at hmem) ht
    | ist => exact proper_istFsm env evt (by rwa [hctx] at hmem) ht
    | nict => exact proper_nictFsm env evt (by rwa [hctx] at hmem) ht
    | nist => exact proper_nistFsm env evt (by rwa [hctx] at hmem) ht

/-- The transaction is in a state of its machine, and has said what goes with it. -/
structure LifetimeInv (type : FsmType) (tr : Transaction) (said : List Output) : Prop where
  ctxType : tr.ctxType = type
  state : tr.state.fsmType = type
  alive : tr.state.isTerminated = false → ∀ out ∈ said, out.Quiet
  ended : tr.state.isTerminated = true →
    ∃ front last, said = front ++ last ∧ (∀ out ∈ front, out.Quiet) ∧ Farewell type last

namespace LifetimeInv

variable {said : List Output}

/-- The queue is not a part of it. -/
theorem of_state {tr' : Transaction} (h : LifetimeInv type tr said)
    (hctx : tr'.ctxType = tr.ctxType) (hstate : tr'.state = tr.state) :
    LifetimeInv type tr' (said ++ []) where
  ctxType := hctx.trans h.ctxType
  state := hstate ▸ h.state
  alive := by
    rw [hstate, List.append_nil]
    exact h.alive
  ended := by
    rw [hstate, List.append_nil]
    exact h.ended

theorem execute (h : LifetimeInv type tr said) :
    LifetimeInv type (osipTransactionExecute env tr evt).1
      (said ++ (osipTransactionExecute env tr evt).2) := by
  cases hend : tr.state.isTerminated with
  | true =>
    rw [osipTransactionExecute_of_isTerminated hend]
    exact h.of_state rfl rfl
  | false =>
    have hsaid := h.alive hend
    have hctx := (framed_osipTransactionExecute env evt).ctxType.trans h.ctxType
    have hproper := proper_osipTransactionExecute env evt (h.state.trans h.ctxType.symm) hend
    rw [h.ctxType] at hproper
    cases hproper with
    | goesOn hstate halive hquiet =>
      refine ⟨hctx, hstate, fun _ out hout => ?_, fun hended => ?_⟩
      · exact (List.mem_append.1 hout).elim (hsaid out) (hquiet out)
      · exact absurd (halive.symm.trans hended) Bool.false_ne_true
    | ends hstate hended hlast =>
      obtain ⟨front, last, heq, hfront, hfarewell⟩ := hlast
      refine ⟨hctx, hstate, fun halive => ?_, fun _ => ⟨said ++ front, last, ?_, ?_, hfarewell⟩⟩
      · exact absurd (halive.symm.trans hended) Bool.false_ne_true
      · rw [heq, List.append_assoc]
      · exact fun out hout => (List.mem_append.1 hout).elim (hsaid out) (hfront out)

theorem step (h : LifetimeInv type tr said) (i : Input) :
    LifetimeInv type (Osip.step tr i).1 (said ++ (Osip.step tr i).2) := by
  cases i with
  | receive sip => exact h.of_state rfl rfl
  | here l =>
    cases l with
    | send sip => exact h.of_state rfl rfl
    | kill => exact h.of_state rfl rfl
    | timers now =>
      rw [Osip.step, Local.step]
      cases osipTimersExecute now tr with
      | none => exact h.of_state rfl rfl
      | some evt => exact h.of_state rfl rfl
    | execute env =>
      rw [Osip.step, Local.step]
      cases hqueue : tr.transactionff with
      | nil => exact h.of_state rfl rfl
      | cons evt rest =>
        have hrest : LifetimeInv type { tr with transactionff := rest } said :=
          ⟨h.ctxType, h.state, h.alive, h.ended⟩
        exact hrest.execute env evt

end LifetimeInv

theorem lifetimeInv_of_fresh (h : Fresh type tr) : LifetimeInv type tr [] where
  ctxType := h.ctxType
  state := by
    rw [h.state]
    cases type <;> rfl
  alive _ := by simp
  ended hended := by
    rw [h.state] at hended
    cases type <;> exact absurd hended (by decide)

/-- What is not quiet is in the farewell. -/
theorem split_farewell {front last front' rest : List Output} {out : Output}
    (hfront : ∀ o ∈ front, o.Quiet) (hout : ¬ out.Quiet) (h : front ++ last = front' ++ out :: rest) :
    ∃ mid, front' = front ++ mid ∧ last = mid ++ out :: rest := by
  rcases List.append_eq_append_iff.1 h with ⟨mid, hfront', hlast⟩ | ⟨mid, rfl, hrest⟩
  · exact ⟨mid, hfront', hlast⟩
  · cases mid with
    | nil => exact ⟨[], by simp, hrest.symm⟩
    | cons o mid =>
      obtain ⟨rfl, -⟩ := List.cons.inj hrest
      exact absurd (hfront _ (List.mem_append_right _ List.mem_cons_self)) hout

theorem Farewell.split {last mid rest : List Output} {out : Output} (h : Farewell type last)
    (hlast : last = mid ++ out :: rest) :
    (out = .killTransaction type ∧ rest = [] ∧ ∀ type', .killTransaction type' ∉ mid) ∨
      ∃ err, out = .transportError type err ∧ rest = [.killTransaction type] ∧ mid = [] := by
  subst hlast
  rcases h with h | ⟨err, h⟩
  · rcases mid with _ | ⟨o, mid⟩
    · obtain ⟨rfl, rfl⟩ := List.cons.inj h
      exact Or.inl ⟨rfl, rfl, by simp⟩
    · simp at h
  · rcases mid with _ | ⟨o, mid⟩
    · obtain ⟨rfl, rfl⟩ := List.cons.inj h
      exact Or.inr ⟨err, rfl, rfl, rfl⟩
    · obtain ⟨rfl, htail⟩ := List.cons.inj h
      rcases mid with _ | ⟨o, mid⟩
      · obtain ⟨rfl, rfl⟩ := List.cons.inj htail
        exact Or.inl ⟨rfl, rfl, by simp⟩
      · simp at htail

/-- Where something is said that is not quiet, the transaction has ended. -/
theorem LifetimeInv.split {said front rest : List Output} {out : Output}
    (h : LifetimeInv type tr said) (hout : ¬ out.Quiet) (hsaid : said = front ++ out :: rest) :
    (out = .killTransaction type ∧ rest = [] ∧ ∀ type', .killTransaction type' ∉ front) ∨
      ∃ err, out = .transportError type err ∧ rest = [.killTransaction type] := by
  cases hend : tr.state.isTerminated with
  | false =>
    have hmem : out ∈ said := hsaid ▸ List.mem_append_right front List.mem_cons_self
    exact absurd (h.alive hend out hmem) hout
  | true =>
    obtain ⟨quiet, last, heq, hquiet, hfarewell⟩ := h.ended hend
    obtain ⟨mid, hfront, hlast⟩ := split_farewell hquiet hout (heq.symm.trans hsaid)
    rcases hfarewell.split hlast with ⟨hkill, hrest, hmid⟩ | ⟨err, herr, hrest, -⟩
    · refine Or.inl ⟨hkill, hrest, fun type' hmem => ?_⟩
      rw [hfront] at hmem
      exact (List.mem_append.1 hmem).elim (hquiet _) (hmid type')
    · exact Or.inr ⟨err, herr, hrest⟩

/-- **A transaction is reported ended exactly if it has ended, once, and says nothing after
that.**  A transport error is what it says right before, if at all. -/
theorem killed_once {now : Int} {request : SipMessage}
    (htr : osipTransactionInit now type request = some tr) (is : List Input) :
    let r := Transducer.run step is tr
    (r.1.state.isTerminated = true ↔ .killTransaction type ∈ r.2) ∧
      (∀ front type' rest, r.2 = front ++ .killTransaction type' :: rest →
        type' = type ∧ rest = [] ∧ ∀ type'', .killTransaction type'' ∉ front) ∧
      ∀ front type' err rest, r.2 = front ++ .transportError type' err :: rest →
        type' = type ∧ rest = [.killTransaction type] := by
  have hinv : LifetimeInv type (Transducer.run step is tr).1 (Transducer.run step is tr).2 :=
    Transducer.run_invariant (LifetimeInv type) (fun _ i _ h => h.step i)
      (lifetimeInv_of_fresh (fresh_of_init htr))
  refine ⟨⟨fun hend => ?_, fun hmem => ?_⟩, fun front type' rest heq => ?_,
    fun front type' err rest heq => ?_⟩
  · obtain ⟨front, last, heq, -, hfarewell⟩ := hinv.ended hend
    rw [heq]
    rcases hfarewell with rfl | ⟨err, rfl⟩ <;> simp
  · by_contra halive
    exact hinv.alive (Bool.eq_false_iff.2 halive) _ hmem
  · rcases hinv.split id heq with ⟨hkill, hrest, hfront⟩ | ⟨err, herr, -⟩
    · exact ⟨Output.killTransaction.inj hkill, hrest, hfront⟩
    · exact Output.noConfusion herr
  · rcases hinv.split id heq with ⟨hkill, -⟩ | ⟨err', herr, hrest⟩
    · exact Output.noConfusion hkill
    · exact ⟨(Output.transportError.inj herr).1, hrest⟩

def someInvite : SipMessage where
  statusCode := 0
  sipMethod := lit "INVITE"
  sipVersion := some (lit "SIP/2.0")
  reqUri := some ⟨some (lit "iptel.org"), none, []⟩
  vias := [⟨lit "2.0", lit "UDP", lit "10.0.0.2", some (lit "5060"), none,
    [⟨lit "branch", some (lit "z9hG4bK1")⟩]⟩]
  routes := []
  fromHeader := some ⟨none, some ⟨some (lit "iptel.org"), none, []⟩, [⟨lit "tag", some (lit "1")⟩]⟩
  toHeader := some ⟨none, some ⟨some (lit "iptel.org"), none, []⟩, []⟩
  callId := some ⟨lit "1", some (lit "10.0.0.2")⟩
  cseq := some ⟨lit "INVITE", lit "20"⟩

def someClient : Transaction :=
  (osipTransactionInit 0 .ict someInvite).get rfl

def someServer : Transaction :=
  (osipTransactionInit 0 .ist someInvite).get rfl

def someResponse (statusCode : Int) : SipMessage :=
  { someInvite with statusCode, sipMethod := [], reqUri := none }

/-- An INVITE that cannot be sent. -/
theorem killed_once_unsent :
    osipTransactionInit 0 .ict someInvite = some someClient ∧
      let r := Transducer.run step [.here (.send someInvite), .here (.execute ⟨0, -1⟩)] someClient
      (.killTransaction .ict ∈ r.2 ∧
        (r.1.state.isTerminated = true ↔ .killTransaction .ict ∈ r.2)) ∧
      ∀ front type' err rest, r.2 = front ++ .transportError type' err :: rest →
        type' = .ict ∧ rest = [.killTransaction .ict] :=
  have hinit : osipTransactionInit 0 .ict someInvite = some someClient := rfl
  ⟨hinit, ⟨by decide +kernel, (killed_once hinit _).1⟩, (killed_once hinit _).2.2⟩

end Osip
end Furikup
