import Furikup.Osip.Moves

/-!
# How often an INVITE is sent

Over a transport that may lose it, an INVITE is sent again by timer A, whose length doubles each
time, until timer B ends the transaction.

* `attempts` — how often a client has tried to send its INVITE.
* `Scheduled` — where timer A stands after so many attempts.
* `CallInv` — what holds as long as the clock does not go back.
* `attempts_le_seven` — **in every run, whatever else is done to the transaction, there are at most
  seven**.
-/

set_option autoImplicit false

namespace Furikup
namespace Osip

/-- The clock is read. -/
def Input.now : Input → Option Int
  | .here (.timers now) => some now
  | .here (.execute env) => some env.now
  | .here (.send _) | .here .kill | .receive _ => none

/-- What a client sends that is no acknowledgement. -/
def Output.isAttempt : Output → Bool
  | .sendMessage msg _ _ => msg.any fun m => !m.isAck
  | .message _ _ | .transportError _ _ | .killTransaction _ => false

def attempts (outs : List Output) : Nat :=
  outs.countP Output.isAttempt

@[simp] theorem attempts_after (outs : List Output) (r : Result) :
    attempts (r.after outs).2 = attempts outs + attempts r.2 :=
  List.countP_append

theorem attempts_append (past more : List Output) :
    attempts (past ++ more) = attempts past + attempts more :=
  List.countP_append

/-! ## Timer A -/

section Schedule

variable (t0 : Int)

/-- After `k` times, timer A has doubled `k` times, and what it has waited for adds up.  Over a
reliable transport it is not used. -/
def Scheduled (k : Nat) (timerA : Timer) : Prop :=
  timerA.start = none ∨
    timerA.length = 500 * 2 ^ k ∧
      ∃ start, timerA.start = some start ∧ t0 + 500000 * (2 ^ (k + 1) - 1) ≤ start

variable {t0}

theorem Scheduled.init (reliable : Bool) :
    Scheduled t0 0 (if reliable then .off else Timer.restart t0 ⟨defaultT1, none⟩) := by
  cases reliable with
  | true => exact Or.inl rfl
  | false =>
    refine Or.inr ⟨rfl, _, rfl, ?_⟩
    norm_num [addGettimeofday, defaultT1]

/-- A timer that goes off before timer B has not doubled often. -/
theorem Scheduled.lt_six {k : Nat} {timerA : Timer} {start : Int} (h : Scheduled t0 k timerA)
    (hstart : timerA.start = some start) (hlt : start < t0 + 32000000) : k < 6 := by
  rcases h with hnone | ⟨-, start', hstart', hle⟩
  · exact absurd (hnone.symm.trans hstart) (Option.some_ne_none _).symm
  · obtain rfl := Option.some.inj (hstart.symm.trans hstart')
    by_contra hk
    have hpow : (2 : Int) ^ 7 ≤ 2 ^ (k + 1) := pow_le_pow_right₀ (by decide) (by omega)
    omega

/-- Timer A when it has gone off once more. -/
theorem Scheduled.restart {k : Nat} {timerA : Timer} {start now : Int} (h : Scheduled t0 k timerA)
    (hstart : timerA.start = some start) (hk : k < 6) (hlt : start < now) :
    Scheduled t0 (k + 1) (Timer.restart now { timerA with length := timerA.length * 2 }) := by
  rcases h with hnone | ⟨hlength, start', hstart', hle⟩
  · exact absurd (hnone.symm.trans hstart) (Option.some_ne_none _).symm
  · obtain rfl := Option.some.inj (hstart.symm.trans hstart')
    have hnext : timerA.length * 2 = 500 * 2 ^ (k + 1) := by
      rw [hlength, pow_succ]
      ring
    have hsmall : (2 : Int) ^ (k + 1) ≤ 2 ^ 6 := pow_le_pow_right₀ (by decide) (by omega)
    refine Or.inr ⟨hnext, _, rfl, ?_⟩
    dsimp only
    rw [hnext, addGettimeofday, if_neg (by omega), pow_succ 2 (k + 1)]
    omega

end Schedule

/-! ## What a client does to its timers -/

theorem attempts_send_of_isAck {ack : Option SipMessage} (h : ∀ a, ack = some a → a.isAck = true)
    (d : Destination) (result : Int) : attempts [.sendMessage ack d result] = 0 := by
  cases ack with
  | none => rfl
  | some a => simp [attempts, Output.isAttempt, h a rfl]

theorem attempts_send_le (msg : Option SipMessage) (d : Destination) (result : Int) :
    attempts [.sendMessage msg d result] ≤ 1 :=
  List.countP_le_length

section Methods

variable {tr : Transaction} (env : Env) (evt : Event)

theorem attempts_ictSndInvite : attempts (ictSndInvite env evt tr).2 ≤ 1 := by
  rw [ictSndInvite]
  split
  · rw [attempts_after]
    exact attempts_send_le _ _ _
  · rw [attempts_after]
    exact attempts_send_le _ _ _

theorem attempts_osipIctTimeoutAEvent : attempts (osipIctTimeoutAEvent env evt tr).2 ≤ 1 := by
  rw [osipIctTimeoutAEvent]
  split
  · rw [attempts_after]
    exact attempts_send_le _ _ _
  · rw [attempts_after]
    exact attempts_send_le _ _ _

/-- What a client does to its timers once it has got an answer, or has ended. -/
structure Settled (r : Result) : Prop where
  silent : attempts r.2 = 0
  state : r.1.state = .ictProceeding ∨ r.1.state = .ictCompleted ∨ r.1.state = .ictTerminated

theorem settled_ictRcv3456xx : Settled (ictRcv3456xx env evt tr) := by
  simp only [ictRcv3456xx]
  split
  · split
    · exact ⟨rfl, .inr (.inr rfl)⟩
    · next ack hack =>
      have hzero : attempts [.sendMessage (some ack)
          (tr.ictContext.forAck ack).destination env.sendResult] = 0 := by
        refine attempts_send_of_isAck (fun a ha => ?_) _ _
        exact Option.some.inj ha ▸ isAck_of_ictCreateAck hack
      split
      · exact ⟨by rw [attempts_after, hzero]; rfl, .inr (.inr rfl)⟩
      · exact ⟨by rw [attempts_after, hzero]; rfl, .inr (.inl rfl)⟩
  · exact ⟨rfl, .inr (.inl rfl)⟩

theorem settled_ictRetransmitAck (hack : ∀ a, tr.ack = some a → a.isAck = true) :
    Settled (ictRetransmitAck env evt tr) := by
  have hzero : attempts [.message .ictStatus3456xxReceivedAgain evt.sip,
      .sendMessage tr.ack tr.ictContext.destination env.sendResult] = 0 := by
    have hsend := attempts_send_of_isAck hack tr.ictContext.destination env.sendResult
    exact hsend
  rw [ictRetransmitAck]
  split
  · exact ⟨by rw [attempts_after, hzero]; rfl, .inr (.inl rfl)⟩
  · exact ⟨by rw [attempts_after, hzero]; rfl, .inr (.inr rfl)⟩

/-- All but two entries of the table do not send the INVITE. -/
theorem settled_of_mem {t : Transition} (ht : t ∈ ictFsm)
    (hack : ∀ a, tr.ack = some a → a.isAck = true) :
    (t.state = .ictPreCalling ∧ t.type = .sndReqInvite ∧ t.method = ictSndInvite) ∨
      (t.state = .ictCalling ∧ t.type = .timeoutA ∧ t.method = osipIctTimeoutAEvent) ∨
      Settled (t.method env evt tr) := by
  simp only [ictFsm, List.mem_cons, List.not_mem_nil, or_false] at ht
  rcases ht with rfl | rfl | rfl | rfl | rfl | rfl | rfl | rfl | rfl | rfl | rfl
  · exact Or.inl ⟨rfl, rfl, rfl⟩
  · exact Or.inr (.inl ⟨rfl, rfl, rfl⟩)
  · exact Or.inr (.inr ⟨rfl, .inr (.inr rfl)⟩)
  · exact Or.inr (.inr ⟨rfl, .inl rfl⟩)
  · exact Or.inr (.inr ⟨rfl, .inr (.inr rfl)⟩)
  · exact Or.inr (.inr (settled_ictRcv3456xx env evt))
  · exact Or.inr (.inr ⟨rfl, .inl rfl⟩)
  · exact Or.inr (.inr ⟨rfl, .inr (.inr rfl)⟩)
  · exact Or.inr (.inr (settled_ictRcv3456xx env evt))
  · exact Or.inr (.inr (settled_ictRetransmitAck env evt hack))
  · exact Or.inr (.inr ⟨rfl, .inr (.inr rfl)⟩)

end Methods

/-! ## Runs -/

/-- What holds of a client at time `c`, if it was created at `t0`. -/
structure CallInv (t0 c : Int) (tr : Transaction) (past : List Output) : Prop where
  ctxType : tr.ctxType = .ict
  ack : ∀ a, tr.ack = some a → a.isAck = true
  unsent : tr.state = .ictPreCalling → attempts past = 0 ∧
    tr.ictContext.timerB.start = some (t0 + 32000000) ∧ Scheduled t0 0 tr.ictContext.timerA
  calling : tr.state = .ictCalling → tr.ictContext.timerB.start = some (t0 + 32000000) ∧
    ∃ k ≤ 6, attempts past ≤ k + 1 ∧ Scheduled t0 k tr.ictContext.timerA
  bound : attempts past ≤ 7
  /-- Timer A has gone off for the event at the front of the queue. -/
  front : ∀ evt ∈ tr.transactionff.head?, evt.type = .timeoutA → tr.state = .ictCalling ∧
    ∃ start, tr.ictContext.timerA.start = some start ∧ start < c ∧ start < t0 + 32000000
  back : ∀ evt ∈ tr.transactionff.tail, evt.type ≠ .timeoutA

namespace CallInv

variable {t0 c : Int} {tr : Transaction} {past : List Output}

theorem later {c' : Int} (h : CallInv t0 c tr past) (hc : c ≤ c') : CallInv t0 c' tr past :=
  { h with
    front := fun evt hevt htype => by
      obtain ⟨hstate, start, hstart, hlt, hB⟩ := h.front evt hevt htype
      exact ⟨hstate, start, hstart, by omega, hB⟩ }

/-- Something else is put in the queue. -/
theorem addEvent (h : CallInv t0 c tr past) {evt : Event} (hevt : evt.type ≠ .timeoutA) :
    CallInv t0 c (tr.addEvent evt) past :=
  { h with
    front := fun evt' hmem htype => by
      rw [Transaction.addEvent] at hmem
      cases hqueue : tr.transactionff with
      | nil =>
        rw [hqueue] at hmem
        exact absurd (Option.mem_some.1 hmem ▸ htype) hevt
      | cons first rest =>
        rw [hqueue] at hmem
        exact h.front evt' (by rwa [hqueue]) htype
    back := fun evt' hmem => by
      rw [Transaction.addEvent] at hmem
      have hback := h.back evt'
      cases hqueue : tr.transactionff with
      | nil =>
        rw [hqueue] at hmem
        exact absurd hmem List.not_mem_nil
      | cons first rest =>
        rw [hqueue] at hmem hback
        rcases List.mem_append.1 hmem with hmem | hmem
        · exact hback hmem
        · exact List.mem_singleton.1 hmem ▸ hevt }

/-- Timer A goes off. -/
theorem timeoutA (h : CallInv t0 c tr past) {start : Int} (hempty : tr.transactionff = [])
    (hstate : tr.state = .ictCalling) (hstart : tr.ictContext.timerA.start = some start)
    (hc : start < c) (hB : start < t0 + 32000000) :
    CallInv t0 c (tr.addEvent (osipEventNew .timeoutA)) past :=
  { h with
    front := fun evt hmem htype => ⟨hstate, start, hstart, hc, hB⟩
    back := fun evt hmem => by
      rw [Transaction.addEvent, hempty] at hmem
      exact absurd hmem List.not_mem_nil }

theorem init {request : SipMessage} (htr : osipTransactionInit t0 .ict request = some tr) :
    CallInv t0 t0 tr [] := by
  have hfresh := fresh_of_init htr
  have hctx : ∃ reliable : Bool, tr.ictContext.timerA =
      (if reliable then .off else Timer.restart t0 ⟨defaultT1, none⟩) ∧
      tr.ictContext.timerB.start = some (t0 + 32000000) := by
    simp only [osipTransactionInit, osipIctInit, Option.bind_eq_bind, Option.bind_eq_some_iff,
      Option.map_map] at htr
    obtain ⟨callid, -, topvia, -, fromHeader, -, toHeader, -, cseq, -, htr⟩ := htr
    obtain ⟨reliable, -, rfl⟩ := Option.map_eq_some_iff.1 htr
    exact ⟨reliable, rfl, rfl⟩
  obtain ⟨reliable, hA, hB⟩ := hctx
  refine ⟨hfresh.ctxType, fun a ha => ?_, fun _ => ⟨rfl, hB, hA ▸ Scheduled.init reliable⟩,
    fun hcalling => ?_, Nat.zero_le 7, fun evt hevt => ?_, fun evt hevt => ?_⟩
  · exact absurd (ha.symm.trans hfresh.ack) (Option.some_ne_none a)
  · exact absurd (hfresh.state.symm.trans hcalling) (by decide)
  · rw [hfresh.transactionff] at hevt
    exact absurd hevt (Option.not_mem_none evt)
  · rw [hfresh.transactionff] at hevt
    exact absurd hevt List.not_mem_nil

theorem needTimerEvent_eq_some {timer : Timer} {condState : Bool} {now : Int} {type : EventType}
    {evt : Event} (h : needTimerEvent timer condState now type = some evt) :
    condState = true ∧ evt = osipEventNew type ∧ ∃ start, timer.start = some start ∧ start < now := by
  rw [needTimerEvent] at h
  split at h
  · next hcond =>
    obtain ⟨start, hstart, h⟩ := Option.bind_eq_some_iff.1 h
    split at h
    · next hlt => exact ⟨hcond, (Option.some.inj h).symm, start, hstart, hlt⟩
    · exact absurd h (Option.some_ne_none _).symm
  · exact absurd h (Option.some_ne_none _).symm

theorem timers (h : CallInv t0 c tr past) {now : Int} (hnow : c ≤ now) :
    CallInv t0 now (Local.step tr (.timers now)).1 past := by
  have hlater := h.later hnow
  rw [Local.step]
  cases hevt : osipTimersExecute now tr with
  | none => exact hlater
  | some evt =>
    rw [osipTimersExecute, h.ctxType] at hevt
    dsimp only at hevt
    split at hevt
    · exact absurd hevt (Option.some_ne_none _).symm
    · next hqueue =>
      have hempty : tr.transactionff = [] := by
        rw [← List.length_eq_zero_iff]
        omega
      rcases Option.or_eq_some_iff.1 hevt with hevt | ⟨-, hevt⟩
      · rcases Option.or_eq_some_iff.1 hevt with hevt | ⟨hnotB, hevt⟩
        · obtain ⟨-, rfl, -⟩ := needTimerEvent_eq_some hevt
          exact hlater.addEvent (by decide)
        · obtain ⟨hstate, rfl, start, hstart, hlt⟩ := needTimerEvent_eq_some hevt
          have hcalling : tr.state = .ictCalling := of_decide_eq_true hstate
          have hB := (h.calling hcalling).1
          -- timer B has not gone off yet
          have hearly : now ≤ t0 + 32000000 := by
            rw [needTimerEvent, if_pos hstate, hB, Option.bind_some] at hnotB
            by_contra hlate
            rw [if_pos (by omega)] at hnotB
            exact Option.some_ne_none _ hnotB
          exact hlater.timeoutA hempty hcalling hstart hlt (by omega)
      · obtain ⟨-, rfl, -⟩ := needTimerEvent_eq_some hevt
        exact hlater.addEvent (by decide)

/-- The client has got an answer, or has ended. -/
theorem settled (h : CallInv t0 c tr past) {r : Result} (hr : Settled r)
    (hctx : r.1.ctxType = tr.ctxType) (hack : ∀ a, r.1.ack = some a → a.isAck = true)
    (hqueue : ∀ evt ∈ r.1.transactionff, evt.type ≠ .timeoutA) : CallInv t0 c r.1 (past ++ r.2) where
  ctxType := hctx.trans h.ctxType
  ack := hack
  unsent hstate := by
    rcases hr.state with heq | heq | heq <;> exact absurd (heq.symm.trans hstate) (by decide)
  calling hstate := by
    rcases hr.state with heq | heq | heq <;> exact absurd (heq.symm.trans hstate) (by decide)
  bound := by
    rw [attempts_append, hr.silent]
    exact h.bound
  front evt hevt htype := absurd htype (hqueue evt (List.mem_of_mem_head? hevt))
  back evt hevt := hqueue evt (List.mem_of_mem_tail hevt)

/-- The client tries to send its INVITE. -/
theorem attempt (h : CallInv t0 c tr past) {r : Result} {k : Nat} (hctx : r.1.ctxType = tr.ctxType)
    (hack : r.1.ack = tr.ack) (hqueue : ∀ evt ∈ r.1.transactionff, evt.type ≠ .timeoutA)
    (hk : k ≤ 6) (hcount : attempts past + attempts r.2 ≤ k + 1)
    (hstate : r.1.state = .ictTerminated ∨ r.1.state = .ictCalling ∧
      r.1.ictContext.timerB.start = some (t0 + 32000000) ∧ Scheduled t0 k r.1.ictContext.timerA) :
    CallInv t0 c r.1 (past ++ r.2) where
  ctxType := hctx.trans h.ctxType
  ack := hack ▸ h.ack
  unsent hr := by
    rcases hstate with heq | ⟨heq, -⟩ <;> exact absurd (heq.symm.trans hr) (by decide)
  calling hr := by
    rcases hstate with heq | ⟨-, hB, hA⟩
    · exact absurd (heq.symm.trans hr) (by decide)
    · exact ⟨hB, k, hk, by rwa [attempts_append], hA⟩
  bound := by
    rw [attempts_append]
    omega
  front evt hevt htype := absurd htype (hqueue evt (List.mem_of_mem_head? hevt))
  back evt hevt := hqueue evt (List.mem_of_mem_tail hevt)

theorem sndInvite (h : CallInv t0 c tr past) (hstate : tr.state = .ictPreCalling)
    (hqueue : ∀ evt ∈ tr.transactionff, evt.type ≠ .timeoutA) (env : Env) (evt : Event) :
    CallInv t0 c (ictSndInvite env evt tr).1 (past ++ (ictSndInvite env evt tr).2) := by
  obtain ⟨hzero, hB, hA⟩ := h.unsent hstate
  have hcount : attempts past + attempts (ictSndInvite env evt tr).2 ≤ 0 + 1 := by
    rw [hzero, Nat.add_le_add_iff_left]
    exact attempts_ictSndInvite env evt
  rw [ictSndInvite] at hcount ⊢
  by_cases hsend : env.sendResult = 0
  · rw [if_pos hsend] at hcount ⊢
    exact h.attempt rfl rfl hqueue (by decide) hcount (.inr ⟨rfl, hB, hA⟩)
  · rw [if_neg hsend] at hcount ⊢
    exact h.attempt rfl rfl hqueue (by decide) hcount (.inl rfl)

theorem sndAgain (h : CallInv t0 c tr past) (hstate : tr.state = .ictCalling)
    (hqueue : ∀ evt ∈ tr.transactionff, evt.type ≠ .timeoutA) {start : Int}
    (hstart : tr.ictContext.timerA.start = some start) (hc : start < c)
    (hlt : start < t0 + 32000000) (env : Env) (hnow : c ≤ env.now) (evt : Event) :
    CallInv t0 c (osipIctTimeoutAEvent env evt tr).1
      (past ++ (osipIctTimeoutAEvent env evt tr).2) := by
  obtain ⟨hB, k, -, hk, hA⟩ := h.calling hstate
  have hsix := hA.lt_six hstart hlt
  have hcount : attempts past + attempts (osipIctTimeoutAEvent env evt tr).2 ≤ k + 1 + 1 :=
    Nat.add_le_add hk (attempts_osipIctTimeoutAEvent env evt)
  rw [osipIctTimeoutAEvent] at hcount ⊢
  by_cases hsend : env.sendResult = 0
  · rw [if_pos hsend] at hcount ⊢
    exact h.attempt rfl rfl hqueue hsix hcount
      (.inr ⟨hstate, hB, hA.restart hstart hsix (by omega)⟩)
  · rw [if_neg hsend] at hcount ⊢
    exact h.attempt rfl rfl hqueue hsix hcount (.inl rfl)

/-- The first event is taken out of the queue. -/
theorem pop (h : CallInv t0 c tr past) {evt : Event} {rest : List Event}
    (hqueue : tr.transactionff = evt :: rest) :
    (∀ evt' ∈ rest, evt'.type ≠ .timeoutA) ∧ CallInv t0 c { tr with transactionff := rest } past := by
  have hback : ∀ evt' ∈ rest, evt'.type ≠ .timeoutA := fun evt' hmem =>
    h.back evt' (by rwa [hqueue])
  exact ⟨hback, { h with
    front := fun evt' hmem htype => absurd htype (hback evt' (List.mem_of_mem_head? hmem))
    back := fun evt' hmem => hback evt' (List.mem_of_mem_tail hmem) }⟩

theorem execute (h : CallInv t0 c tr past) (env : Env) (hnow : c ≤ env.now) :
    CallInv t0 env.now (Local.step tr (.execute env)).1
      (past ++ (Local.step tr (.execute env)).2) := by
  refine CallInv.later ?_ hnow
  rw [Local.step]
  cases hcons : tr.transactionff with
  | nil =>
    rw [List.append_nil]
    exact h
  | cons evt rest =>
    obtain ⟨hrest, hpop⟩ := h.pop hcons
    dsimp only
    rcases osipTransactionExecute_cases env { tr with transactionff := rest } evt with
      heq | ⟨t, hmem, htype, hstate, heq⟩
    · rw [heq, List.append_nil]
      exact hpop
    · rw [heq]
      have hict : t ∈ ictFsm := by
        have hmachine : t ∈ tr.ctxType.statemachine := hmem
        rwa [h.ctxType] at hmachine
      rcases settled_of_mem env evt hict hpop.ack with
        ⟨hpre, -, hmethod⟩ | ⟨hcalling, hA, hmethod⟩ | hsettled
      · rw [hmethod]
        exact hpop.sndInvite (hstate.symm.trans hpre) hrest env evt
      · obtain ⟨-, start, hstart, hc, hlt⟩ := h.front evt (by rw [hcons]; rfl) (htype.symm.trans hA)
        rw [hmethod]
        exact hpop.sndAgain (hstate.symm.trans hcalling) hrest hstart hc hlt env hnow evt
      · have hframe : Framed { tr with transactionff := rest }
            (t.method env evt { tr with transactionff := rest }).1 := framed_of_mem env evt hmem
        refine hpop.settled hsettled hframe.ctxType (fun a ha => ?_) (hframe.transactionff ▸ hrest)
        exact (ack_of_mem env (.inl hict) ha).elim (h.ack a) id

theorem step (h : CallInv t0 c tr past) (i : Input)
    (hi : ∀ now ∈ i.now, c ≤ now) :
    CallInv t0 (i.now.getD c) (Osip.step tr i).1 (past ++ (Osip.step tr i).2) := by
  cases i with
  | receive sip =>
    rw [Osip.step, List.append_nil]
    refine h.addEvent fun htype => ?_
    have hrcv := (incoming_spec sip).1
    rw [show evtSetTypeIncomingSipmessage sip = .timeoutA from htype] at hrcv
    exact absurd hrcv (by decide)
  | here l =>
    cases l with
    | send sip =>
      rw [Osip.step, Local.step, List.append_nil]
      refine h.addEvent fun htype => ?_
      have hsnd := (outgoing_spec sip).1
      rw [show evtSetTypeOutgoingSipmessage sip = .timeoutA from htype] at hsnd
      exact absurd hsnd (by decide)
    | kill =>
      rw [Osip.step, Local.step, List.append_nil]
      exact h.addEvent (by decide)
    | timers now =>
      have hsilent : (Local.step tr (.timers now)).2 = [] := rfl
      rw [Osip.step, hsilent, List.append_nil]
      exact h.timers (hi now rfl)
    | execute env => exact h.execute env (hi env.now rfl)

theorem run {is : List Input} (h : CallInv t0 c tr past)
    (hclock : (c :: is.filterMap Input.now).Pairwise (· ≤ ·)) :
    attempts (past ++ (Transducer.run Osip.step is tr).2) ≤ 7 := by
  induction is generalizing c tr past with
  | nil =>
    rw [Transducer.run_nil, List.append_nil]
    exact h.bound
  | cons i is ih =>
    rw [Transducer.run, ← List.append_assoc]
    cases hnow : i.now with
    | none =>
      rw [List.filterMap_cons_none hnow] at hclock
      have hnext := h.step i (by simp [hnow])
      rw [hnow] at hnext
      exact ih hnext hclock
    | some now =>
      rw [List.filterMap_cons_some hnow] at hclock
      obtain ⟨hle, hrest⟩ := List.pairwise_cons.1 hclock
      have hnext := h.step i (by
        intro now' hnow'
        rw [hnow] at hnow'
        exact Option.some.inj hnow' ▸ hle now List.mem_cons_self)
      rw [hnow] at hnext
      exact ih hnext hrest

end CallInv

/-- **An INVITE is sent at most seven times**, whatever else happens to the transaction, as long as
the clock does not go back. -/
theorem attempts_le_seven {t0 : Int} {request : SipMessage} {tr : Transaction}
    (htr : osipTransactionInit t0 .ict request = some tr) (is : List Input)
    (hclock : (t0 :: is.filterMap Input.now).Pairwise (· ≤ ·)) :
    attempts (Transducer.run step is tr).2 ≤ 7 :=
  (CallInv.init htr).run hclock

/-- The loop looks as soon as timer A goes off, and nobody answers. -/
def deafRun : List Input :=
  .here (.send someInvite) :: .here (.execute ⟨0, 0⟩) ::
    [500001, 1500002, 3500003, 7500004, 15500005, 31500006, 63500007].flatMap fun now =>
      [.here (.timers now), .here (.execute ⟨now, 0⟩)]

theorem attempts_le_seven_deaf :
    attempts (Transducer.run step deafRun someClient).2 = 7 ∧
      attempts (Transducer.run step deafRun someClient).2 ≤ 7 :=
  ⟨by decide +kernel, attempts_le_seven (show osipTransactionInit 0 .ict someInvite = _ from rfl)
    deafRun (by decide +kernel)⟩

end Osip
end Furikup
