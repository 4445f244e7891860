import Furikup.Osip.Moves

/-!
# A client and a server

A request and its responses go between a client transaction and a server transaction, over a
network that loses, repeats and reorders: whatever has been sent may come in at any time, any number
of times, or never.

* `Pair` and `Pair.step` — the two of them and the network.
* `PairInv` — what the two know and what is on the way, in terms of what has happened.
* `legal_pair` — **whatever happens in whatever order, what the users are told is an exchange**, and
  `orderly_pair` says what that comes to.
-/

set_option autoImplicit false

namespace Furikup
namespace Osip

open Exchange

/-- The two transactions, and what each has sent to the other. -/
structure Pair where
  client : Transaction
  server : Transaction
  toServer : List SipMessage
  toClient : List SipMessage

inductive PairInput
  | client (l : Local)
  | server (l : Local)
  /-- A message that was sent at some time comes in at the server. -/
  | toServer (n : Nat)
  | toClient (n : Nat)

def Pair.step (s : Pair) : PairInput → Pair × List Happening
  | .client l =>
    let r := l.step s.client
    ({ s with client := r.1, toServer := s.toServer ++ sent r.2 }, happenings r.2)
  | .server l =>
    let r := l.step s.server
    ({ s with server := r.1, toClient := s.toClient ++ sent r.2 }, happenings r.2)
  | .toServer n =>
    ({ s with server := s.toServer[n]?.elim s.server fun m => s.server.addEvent (.incoming m) }, [])
  | .toClient n =>
    ({ s with client := s.toClient[n]?.elim s.client fun m => s.client.addEvent (.incoming m) }, [])

/-! ## Invariants -/

/-- What a client knows. -/
structure ClientInv (tr : Transaction) (past : List Happening) : Prop where
  ctxType : tr.ctxType = .ict ∨ tr.ctxType = .nict
  idle : tr.state.clientPhase = .idle → ∀ q, .ask q ∉ past
  going : tr.state.clientPhase = .idle ∨ tr.state.clientPhase = .waiting →
    .giveUp ∉ past ∧ ∀ p, Final p → .tell p ∉ past
  waiting : tr.state.clientPhase = .waiting →
    ∃ q, tr.origRequest = some q ∧ .ask q ∈ past ∧ q.isAck = false
  completed : tr.state.clientPhase = .completed → ∃ p, Final p ∧ .tell p ∈ past
  ack : ∀ a, tr.ack = some a → a.isAck = true

/-- What a server knows. -/
structure ServerInv (tr : Transaction) (past : List Happening) : Prop where
  ctxType : tr.ctxType = .ist ∨ tr.ctxType = .nist
  fresh : tr.state.serverPhase = .fresh → ∀ q, .announce q ∉ past
  opened : tr.state.serverPhase = .opened → ∃ q, .announce q ∈ past
  going : tr.state.serverPhase = .fresh ∨ tr.state.serverPhase = .opened →
    ∀ p, Final p → .give p ∉ past
  last : tr.state.serverPhase ≠ .closed → ∀ p, tr.lastResponse = some p →
    .give p ∈ past ∧ (tr.state.serverPhase = .answered → Final p)

/-- What may be on the way to a server: the request, and what acknowledges a final response. -/
def Asked (past : List Happening) (m : SipMessage) : Prop :=
  (.ask m ∈ past ∧ m.isAck = false) ∨ (m.isAck = true ∧ ∃ p, Final p ∧ .tell p ∈ past)

/-- What may be on the way to a client: what the server has given. -/
def Given (past : List Happening) (m : SipMessage) : Prop :=
  .give m ∈ past

structure PairInv (s : Pair) (past : List Happening) : Prop where
  client : ClientInv s.client past
  server : ServerInv s.server past
  toServer : ∀ m ∈ s.toServer, Asked past m
  toClient : ∀ m ∈ s.toClient, Given past m
  clientQueue : ∀ evt ∈ s.client.transactionff, Queued (Given past) evt
  serverQueue : ∀ evt ∈ s.server.transactionff, Queued (Asked past) evt

/-! ### More happens -/

variable {past more : List Happening}

theorem Asked.mono {m : SipMessage} (h : Asked past m) : Asked (past ++ more) m :=
  h.imp (fun h => ⟨List.mem_append_left _ h.1, h.2⟩)
    fun ⟨hack, p, hp, hmem⟩ => ⟨hack, p, hp, List.mem_append_left _ hmem⟩

theorem Given.mono {m : SipMessage} (h : Given past m) : Given (past ++ more) m :=
  List.mem_append_left _ h

/-- The client does not know what happens to the server. -/
theorem ClientInv.mono {tr : Transaction} (h : ClientInv tr past)
    (hmore : ∀ l ∈ more, l.OfServer) : ClientInv tr (past ++ more) where
  ctxType := h.ctxType
  idle hidle q hmem := (List.mem_append.1 hmem).elim (h.idle hidle q) (hmore _)
  going hgoing :=
    ⟨fun hmem => (List.mem_append.1 hmem).elim (h.going hgoing).1 (hmore _),
      fun p hp hmem => (List.mem_append.1 hmem).elim ((h.going hgoing).2 p hp) (hmore _)⟩
  waiting hwaiting := by
    obtain ⟨q, horig, hask, hack⟩ := h.waiting hwaiting
    exact ⟨q, horig, List.mem_append_left _ hask, hack⟩
  completed hcompleted := by
    obtain ⟨p, hp, htell⟩ := h.completed hcompleted
    exact ⟨p, hp, List.mem_append_left _ htell⟩
  ack := h.ack

/-- The server does not know what happens to the client. -/
theorem ServerInv.mono {tr : Transaction} (h : ServerInv tr past)
    (hmore : ∀ l ∈ more, ¬ l.OfServer) : ServerInv tr (past ++ more) where
  ctxType := h.ctxType
  fresh hfresh q hmem :=
    (List.mem_append.1 hmem).elim (h.fresh hfresh q) fun hmem => hmore _ hmem trivial
  opened hopened := by
    obtain ⟨q, hq⟩ := h.opened hopened
    exact ⟨q, List.mem_append_left _ hq⟩
  going hgoing p hp hmem :=
    (List.mem_append.1 hmem).elim (h.going hgoing p hp) fun hmem => hmore _ hmem trivial
  last hphase p hp :=
    ⟨List.mem_append_left _ (h.last hphase p hp).1, (h.last hphase p hp).2⟩

/-! ## Steps -/

/-- What a client makes of an event: it only says what it may, knows what it has to know, and sends
what it may. -/
theorem ClientInv.execute {tr : Transaction} {evt : Event} (h : ClientInv tr past)
    (hevt : Queued (Given past) evt) (hpast : Legal (May Final) past) (env : Env) :
    let r := osipTransactionExecute env tr evt
    Legal (May Final) (past ++ happenings r.2) ∧ ClientInv r.1 (past ++ happenings r.2) ∧
      (∀ l ∈ happenings r.2, ¬ l.OfServer) ∧
      ∀ m ∈ sent r.2, Asked (past ++ happenings r.2) m := by
  intro r
  have hctx : r.1.ctxType = .ict ∨ r.1.ctxType = .nict := by
    rw [(framed_osipTransactionExecute env evt).ctxType]
    exact h.ctxType
  have hack : ∀ a, r.1.ack = some a → a.isAck = true := fun a ha =>
    (ack_osipTransactionExecute env h.ctxType ha).elim (h.ack a) id
  cases clientMove_osipTransactionExecute env hevt h.ctxType with
  | quiet hphase horig hnews hsent =>
    rw [hnews, List.append_nil]
    have hkeeps : ∀ phase, r.1.state.clientPhase = phase → phase ≠ .ended →
        tr.state.clientPhase = phase := fun phase hr hne =>
      hphase.elim (fun heq => heq ▸ hr) fun hended => absurd (hr.symm.trans hended) hne
    refine ⟨hpast, ⟨hctx, ?_, ?_, ?_, ?_, hack⟩, List.forall_mem_nil _, fun m hm => ?_⟩
    · exact fun hidle => h.idle (hkeeps _ hidle (by decide))
    · exact fun hgoing => h.going
        (hgoing.imp (hkeeps _ · (by decide)) (hkeeps _ · (by decide)))
    · intro hwaiting
      rw [horig]
      exact h.waiting (hkeeps _ hwaiting (by decide))
    · exact fun hcompleted => h.completed (hkeeps _ hcompleted (by decide))
    · rcases hsent m hm with ⟨hwaiting, hm⟩ | ⟨hcompleted, hm⟩
      · obtain ⟨q, horig, hask, hq⟩ := h.waiting hwaiting
        obtain rfl := Option.some.inj (hm.symm.trans horig)
        exact Or.inl ⟨hask, hq⟩
      · exact Or.inr ⟨h.ack m hm, h.completed hcompleted⟩
  | asks q hidle hphase horig hnews hsent hq =>
    rw [hnews, hsent]
    obtain ⟨hgiveUp, htell⟩ := h.going (.inl hidle)
    refine ⟨hpast.snoc (h.idle hidle), ⟨hctx, ?_, ?_, ?_, ?_, hack⟩, by simp [Event.OfServer], ?_⟩
    · exact fun hr => absurd (hr.symm.trans hphase) (by decide)
    · exact fun _ => ⟨by simpa using hgiveUp, fun p hp => by simpa using htell p hp⟩
    · exact fun _ => ⟨q, horig, by simp, hq⟩
    · exact fun hr => absurd (hr.symm.trans hphase) (by decide)
    · rintro m hm
      rw [List.mem_singleton.1 hm]
      exact Or.inl ⟨by simp, hq⟩
  | tells p hreceived hwaiting horig hnews hphase =>
    rw [hnews]
    obtain ⟨hgiveUp, htell⟩ := h.going (.inr hwaiting)
    refine ⟨hpast.snoc ⟨hreceived, hgiveUp, htell⟩, ?_, by simp [Event.OfServer], ?_⟩
    · rcases hphase with ⟨hprov, hphase, -⟩ | ⟨hfinal, hphase, -⟩
      · refine ⟨hctx, ?_, ?_, ?_, ?_, hack⟩
        · exact fun hr => absurd (hr.symm.trans hphase) (by decide)
        · refine fun _ => ⟨by simpa using hgiveUp, fun p' hp' hmem => ?_⟩
          rcases List.mem_append.1 hmem with hmem | hmem
          · exact htell p' hp' hmem
          · obtain rfl := Event.tell.inj (List.mem_singleton.1 hmem)
            exact hprov hp'
        · intro _
          obtain ⟨q, hq, hask, hnack⟩ := h.waiting hwaiting
          exact ⟨q, horig.trans hq, List.mem_append_left _ hask, hnack⟩
        · exact fun hr => absurd (hr.symm.trans hphase) (by decide)
      · have hdone : ∀ phase, r.1.state.clientPhase = phase → phase = .completed ∨ phase = .ended :=
          fun phase hr => hr ▸ hphase
        refine ⟨hctx, ?_, ?_, ?_, ?_, hack⟩
        · exact fun hr => absurd (hdone _ hr) (by decide)
        · exact fun hr => hr.elim (fun hr => absurd (hdone _ hr) (by decide))
            fun hr => absurd (hdone _ hr) (by decide)
        · exact fun hr => absurd (hdone _ hr) (by decide)
        · exact fun _ => ⟨p, hfinal, by simp⟩
    · intro m hm
      rcases hphase with ⟨-, -, hsent⟩ | ⟨hfinal, -, hsent⟩
      · rw [hsent] at hm
        exact absurd hm List.not_mem_nil
      · exact Or.inr ⟨hsent m hm, p, hfinal, by simp⟩
  | givesUp hphase hnews hsent =>
    rw [hnews, hsent]
    have hended : ∀ phase, r.1.state.clientPhase = phase → phase = .ended := fun phase hr =>
      hr.symm.trans hphase
    refine ⟨hpast.snoc trivial, ⟨hctx, ?_, ?_, ?_, ?_, hack⟩, by simp [Event.OfServer],
      List.forall_mem_nil _⟩
    · exact fun hr => absurd (hended _ hr) (by decide)
    · exact fun hr => hr.elim (fun hr => absurd (hended _ hr) (by decide))
        fun hr => absurd (hended _ hr) (by decide)
    · exact fun hr => absurd (hended _ hr) (by decide)
    · exact fun hr => absurd (hended _ hr) (by decide)

theorem ServerInv.execute {tr : Transaction} {evt : Event} (h : ServerInv tr past)
    (hevt : Queued (Asked past) evt) (hpast : Legal (May Final) past) (env : Env) :
    let r := osipTransactionExecute env tr evt
    Legal (May Final) (past ++ happenings r.2) ∧ ServerInv r.1 (past ++ happenings r.2) ∧
      (∀ l ∈ happenings r.2, l.OfServer) ∧
      ∀ m ∈ sent r.2, Given (past ++ happenings r.2) m := by
  intro r
  have hctx : r.1.ctxType = .ist ∨ r.1.ctxType = .nist := by
    rw [(framed_osipTransactionExecute env evt).ctxType]
    exact h.ctxType
  cases serverMove_osipTransactionExecute env hevt h.ctxType with
  | quiet hphase hnews hsent =>
    rw [hnews, List.append_nil]
    have hkeeps : ∀ phase, r.1.state.serverPhase = phase → phase ≠ .closed →
        tr.state.serverPhase = phase ∧ r.1.lastResponse = tr.lastResponse := fun phase hr hne =>
      hphase.elim (fun hclosed => absurd (hr.symm.trans hclosed) hne)
        fun heq => ⟨heq.1 ▸ hr, heq.2⟩
    refine ⟨hpast, ⟨hctx, ?_, ?_, ?_, ?_⟩, List.forall_mem_nil _, fun m hm => ?_⟩
    · exact fun hfresh => h.fresh (hkeeps _ hfresh (by decide)).1
    · exact fun hopened => h.opened (hkeeps _ hopened (by decide)).1
    · exact fun hgoing => h.going
        (hgoing.imp (hkeeps _ · (by decide) |>.1) (hkeeps _ · (by decide) |>.1))
    · intro hne
      obtain ⟨heq, hlast⟩ := hkeeps _ rfl hne
      rw [hlast, ← heq]
      exact h.last (heq ▸ hne)
    · obtain ⟨hne, hlast⟩ := hsent m hm
      exact (h.last hne m hlast).1
  | announces q hreceived hq hfresh hphase hlast hnews hsent =>
    rw [hnews, hsent]
    have hask : .ask q ∈ past := hreceived.elim And.left fun hack =>
      absurd (hack.1.symm.trans hq) (by decide)
    refine ⟨hpast.snoc ⟨hask, h.fresh hfresh⟩, ⟨hctx, ?_, ?_, ?_, ?_⟩, by simp [Event.OfServer],
      List.forall_mem_nil _⟩
    · exact fun hr => absurd (hr.symm.trans hphase) (by decide)
    · exact fun _ => ⟨q, by simp⟩
    · exact fun _ p hp => by simpa using h.going (.inl hfresh) p hp
    · intro _ p hp
      rw [hlast] at hp
      refine ⟨?_, fun hr => absurd (hr.symm.trans hphase) (by decide)⟩
      exact List.mem_append_left _ (h.last (by rw [hfresh]; decide) p hp).1
  | gives p hresponse hopened hlast hphase hnews hsent =>
    rw [hnews, hsent]
    refine ⟨hpast.snoc ⟨h.opened hopened, h.going (.inr hopened)⟩, ⟨hctx, ?_, ?_, ?_, ?_⟩,
      by simp [Event.OfServer], ?_⟩
    · intro hr
      rcases hphase with ⟨-, hphase⟩ | ⟨-, hphase | hphase⟩ <;>
        exact absurd (hr.symm.trans hphase) (by decide)
    · intro _
      obtain ⟨q, hq⟩ := h.opened hopened
      exact ⟨q, List.mem_append_left _ hq⟩
    · intro hr p' hp' hmem
      rcases hphase with ⟨hprov, -⟩ | ⟨-, hphase | hphase⟩
      · rcases List.mem_append.1 hmem with hmem | hmem
        · exact h.going (.inr hopened) p' hp' hmem
        · obtain rfl := Event.give.inj (List.mem_singleton.1 hmem)
          exact hprov hp'
      · rw [hphase] at hr
        exact absurd hr (by decide)
      · rw [hphase] at hr
        exact absurd hr (by decide)
    · intro _ p' hp'
      obtain rfl := Option.some.inj (hlast.symm.trans hp')
      refine ⟨by simp, fun hr => ?_⟩
      rcases hphase with ⟨-, hphase⟩ | ⟨hfinal, -⟩
      · exact absurd (hr.symm.trans hphase) (by decide)
      · exact hfinal
    · intro m hm
      rw [List.mem_singleton.1 hm]
      exact List.mem_append_right _ List.mem_cons_self
  | givesAgain p hlast hprov hphase hkeeps hnews hsent =>
    rw [hnews, hsent]
    obtain ⟨hgive, hanswered⟩ := h.last hphase p hlast
    have hgoing : tr.state.serverPhase = .fresh ∨ tr.state.serverPhase = .opened := by
      cases hcase : tr.state.serverPhase with
      | fresh => exact Or.inl rfl
      | opened => exact Or.inr rfl
      | answered => exact absurd (hanswered hcase) hprov
      | closed => exact absurd hcase hphase
    refine ⟨hpast.snoc ⟨exists_announce_of_give hpast hgive, h.going hgoing⟩, ?_,
      by simp [Event.OfServer], ?_⟩
    · rw [hkeeps]
      refine ⟨h.ctxType, ?_, ?_, ?_, ?_⟩
      · exact fun hr q => by simpa using h.fresh hr q
      · intro hr
        obtain ⟨q, hq⟩ := h.opened hr
        exact ⟨q, List.mem_append_left _ hq⟩
      · intro hr p' hp' hmem
        rcases List.mem_append.1 hmem with hmem | hmem
        · exact h.going hr p' hp' hmem
        · obtain rfl := Event.give.inj (List.mem_singleton.1 hmem)
          exact hprov hp'
      · exact fun hne p' hp' => ⟨List.mem_append_left _ (h.last hne p' hp').1, (h.last hne p' hp').2⟩
    · intro m hm
      rw [List.mem_singleton.1 hm]
      exact List.mem_append_right _ List.mem_cons_self
  | confirms a hreceived hack hanswered hphase hlast hnews hsent =>
    rw [hnews, hsent]
    have htold : ∃ p, Final p ∧ .tell p ∈ past := hreceived.elim
      (fun hask => absurd (hask.2.symm.trans hack) (by decide)) And.right
    refine ⟨hpast.snoc htold, ⟨hctx, ?_, ?_, ?_, ?_⟩, by simp [Event.OfServer],
      List.forall_mem_nil _⟩
    · exact fun hr => absurd (hr.symm.trans hphase) (by decide)
    · exact fun hr => absurd (hr.symm.trans hphase) (by decide)
    · exact fun hr => hr.elim (fun hr => absurd (hr.symm.trans hphase) (by decide))
        fun hr => absurd (hr.symm.trans hphase) (by decide)
    · intro _ p hp
      rw [hlast] at hp
      obtain ⟨hgive, hfinal⟩ := h.last (by rw [hanswered]; decide) p hp
      exact ⟨List.mem_append_left _ hgive, fun _ => hfinal hanswered⟩

/-! ## Runs -/

/-- What a client knows does not depend on its queue. -/
theorem ClientInv.of_queue {tr : Transaction} (h : ClientInv tr past) (queue : List Event) :
    ClientInv { tr with transactionff := queue } past :=
  ⟨h.ctxType, h.idle, h.going, h.waiting, h.completed, h.ack⟩

theorem ServerInv.of_queue {tr : Transaction} (h : ServerInv tr past) (queue : List Event) :
    ServerInv { tr with transactionff := queue } past :=
  ⟨h.ctxType, h.fresh, h.opened, h.going, h.last⟩

theorem ClientInv.local {tr : Transaction} (h : ClientInv tr past)
    (hqueue : ∀ evt ∈ tr.transactionff, Queued (Given past) evt) (hpast : Legal (May Final) past)
    (l : Local) :
    Legal (May Final) (past ++ happenings (l.step tr).2) ∧
      ClientInv (l.step tr).1 (past ++ happenings (l.step tr).2) ∧
      (∀ l' ∈ happenings (l.step tr).2, ¬ l'.OfServer) ∧
      ∀ m ∈ sent (l.step tr).2, Asked (past ++ happenings (l.step tr).2) m := by
  refine of_execute (P := fun r => Legal (May Final) (past ++ happenings r.2) ∧
    ClientInv r.1 (past ++ happenings r.2) ∧ (∀ l' ∈ happenings r.2, ¬ l'.OfServer) ∧
    ∀ m ∈ sent r.2, Asked (past ++ happenings r.2) m) hqueue (fun queue => ?_)
    (fun env queue evt hevt => (h.of_queue queue).execute hevt hpast env) l
  rw [show happenings [] = [] from rfl, List.append_nil]
  exact ⟨hpast, h.of_queue queue, List.forall_mem_nil _, List.forall_mem_nil _⟩

theorem ServerInv.local {tr : Transaction} (h : ServerInv tr past)
    (hqueue : ∀ evt ∈ tr.transactionff, Queued (Asked past) evt) (hpast : Legal (May Final) past)
    (l : Local) :
    Legal (May Final) (past ++ happenings (l.step tr).2) ∧
      ServerInv (l.step tr).1 (past ++ happenings (l.step tr).2) ∧
      (∀ l' ∈ happenings (l.step tr).2, l'.OfServer) ∧
      ∀ m ∈ sent (l.step tr).2, Given (past ++ happenings (l.step tr).2) m := by
  refine of_execute (P := fun r => Legal (May Final) (past ++ happenings r.2) ∧
    ServerInv r.1 (past ++ happenings r.2) ∧ (∀ l' ∈ happenings r.2, l'.OfServer) ∧
    ∀ m ∈ sent r.2, Given (past ++ happenings r.2) m) hqueue (fun queue => ?_)
    (fun env queue evt hevt => (h.of_queue queue).execute hevt hpast env) l
  rw [show happenings [] = [] from rfl, List.append_nil]
  exact ⟨hpast, h.of_queue queue, List.forall_mem_nil _, List.forall_mem_nil _⟩

/-- A message that was sent comes in. -/
theorem queued_of_delivery {received : SipMessage → Prop} {tr : Transaction}
    {messages : List SipMessage} (h : ∀ evt ∈ tr.transactionff, Queued received evt)
    (hmessages : ∀ m ∈ messages, received m) (n : Nat) :
    ∀ evt ∈ (messages[n]?.elim tr fun m => tr.addEvent (.incoming m)).transactionff,
      Queued received evt := by
  cases hm : messages[n]? with
  | none => exact h
  | some m =>
    exact fun evt hmem => (List.mem_append.1 hmem).elim (h evt) fun hmem =>
      List.mem_singleton.1 hmem ▸ .incoming m (hmessages m (List.mem_of_getElem? hm))

theorem PairInv.step {s : Pair} (h : PairInv s past) (hpast : Legal (May Final) past)
    (i : PairInput) :
    Legal (May Final) (past ++ (s.step i).2) ∧ PairInv (s.step i).1 (past ++ (s.step i).2) := by
  cases i with
  | client l =>
    obtain ⟨hlegal, hclient, hnews, hsent⟩ := h.client.local h.clientQueue hpast l
    refine ⟨hlegal, hclient, h.server.mono hnews, fun m hm => ?_, fun m hm => (h.toClient m hm).mono,
      fun evt hevt => ?_, fun evt hevt => (h.serverQueue evt hevt).mono fun _ => Asked.mono⟩
    · exact (List.mem_append.1 hm).elim (fun hm => (h.toServer m hm).mono) (hsent m)
    · exact (queued_of_local h.clientQueue l evt hevt).mono fun _ => Given.mono
  | server l =>
    obtain ⟨hlegal, hserver, hnews, hsent⟩ := h.server.local h.serverQueue hpast l
    refine ⟨hlegal, h.client.mono hnews, hserver, fun m hm => (h.toServer m hm).mono, fun m hm => ?_,
      fun evt hevt => (h.clientQueue evt hevt).mono fun _ => Given.mono, fun evt hevt => ?_⟩
    · exact (List.mem_append.1 hm).elim (fun hm => (h.toClient m hm).mono) (hsent m)
    · exact (queued_of_local h.serverQueue l evt hevt).mono fun _ => Asked.mono
  | toServer n =>
    dsimp only [Pair.step]
    rw [List.append_nil]
    refine ⟨hpast, h.client, ?_, h.toServer, h.toClient, h.clientQueue,
      queued_of_delivery h.serverQueue h.toServer n⟩
    cases s.toServer[n]? with
    | none => exact h.server
    | some m => exact h.server.of_queue _
  | toClient n =>
    dsimp only [Pair.step]
    rw [List.append_nil]
    refine ⟨hpast, ?_, h.server, h.toServer, h.toClient,
      queued_of_delivery h.clientQueue h.toClient n, h.serverQueue⟩
    cases s.toClient[n]? with
    | none => exact h.client
    | some m => exact h.client.of_queue _

/-- A client and a server that have just been created. -/
structure Unused (s : Pair) : Prop where
  client : Fresh .ict s.client ∨ Fresh .nict s.client
  server : Fresh .ist s.server ∨ Fresh .nist s.server
  toServer : s.toServer = []
  toClient : s.toClient = []

theorem clientInv_of_fresh {tr : Transaction} (h : Fresh .ict tr ∨ Fresh .nict tr) :
    ClientInv tr [] := by
  have hidle : tr.state.clientPhase = .idle := by
    rcases h with h | h <;> rw [h.state] <;> rfl
  have hack : tr.ack = none := h.elim Fresh.ack Fresh.ack
  refine ⟨h.imp Fresh.ctxType Fresh.ctxType, fun _ _ => List.not_mem_nil,
    fun _ => ⟨List.not_mem_nil, fun _ _ => List.not_mem_nil⟩, ?_, ?_, ?_⟩
  · exact fun hr => absurd (hr.symm.trans hidle) (by decide)
  · exact fun hr => absurd (hr.symm.trans hidle) (by decide)
  · exact fun a ha => absurd (ha.symm.trans hack) (Option.some_ne_none a)

theorem serverInv_of_fresh {tr : Transaction} (h : Fresh .ist tr ∨ Fresh .nist tr) :
    ServerInv tr [] := by
  have hfresh : tr.state.serverPhase = .fresh := by
    rcases h with h | h <;> rw [h.state] <;> rfl
  have hlast : tr.lastResponse = none := h.elim Fresh.lastResponse Fresh.lastResponse
  refine ⟨h.imp Fresh.ctxType Fresh.ctxType, fun _ _ => List.not_mem_nil, ?_,
    fun _ _ _ => List.not_mem_nil, ?_⟩
  · exact fun hr => absurd (hr.symm.trans hfresh) (by decide)
  · exact fun _ p hp => absurd (hp.symm.trans hlast) (Option.some_ne_none p)

theorem Unused.pairInv {s : Pair} (h : Unused s) : PairInv s [] where
  client := clientInv_of_fresh h.client
  server := serverInv_of_fresh h.server
  toServer := h.toServer ▸ List.forall_mem_nil _
  toClient := h.toClient ▸ List.forall_mem_nil _
  clientQueue := by
    rw [h.client.elim Fresh.transactionff Fresh.transactionff]
    exact List.forall_mem_nil _
  serverQueue := by
    rw [h.server.elim Fresh.transactionff Fresh.transactionff]
    exact List.forall_mem_nil _

/-- **What the users of the stack are told is an exchange.** -/
theorem legal_pair {s : Pair} (h : Unused s) (is : List PairInput) :
    Legal (May Final) (Transducer.run Pair.step is s).2 :=
  (Legal.of_simulation (R := PairInv) (fun _ i _ hinv hpast => hinv.step hpast i) h.pairInv .nil).1

/-- **Whatever is lost, repeated or reordered**, the server is told of the request once and as it
was asked, the client hears what the server has given and nothing after something final, and the two
agree on what that was. -/
theorem orderly_pair {s : Pair} (h : Unused s) (is : List PairInput) :
    Orderly Final (Transducer.run Pair.step is s).2 :=
  orderly_of_legal (legal_pair h is)

/-- The INVITE comes in twice, the responses the wrong way round, and the callee is busy. -/
def busyRun : List PairInput :=
  let go : Local := .execute ⟨0, 0⟩
  [.client (.send someInvite), .client go, .client (.timers 600000), .client go,
    .toServer 1, .toServer 0, .server go, .server go,
    .server (.send (someResponse 180)), .server go, .server (.send (someResponse 486)), .server go,
    .toClient 1, .toClient 0, .client go, .client go, .toServer 2, .server go]

theorem orderly_pair_busy :
    (Transducer.run Pair.step busyRun ⟨someClient, someServer, [], []⟩).2 =
        [.ask someInvite, .announce someInvite, .give (someResponse 180), .give (someResponse 486),
          .tell (someResponse 486), .confirm] ∧
      Orderly Final (Transducer.run Pair.step busyRun ⟨someClient, someServer, [], []⟩).2 := by
  refine ⟨by decide +kernel, orderly_pair ⟨.inl ?_, .inl ?_, rfl, rfl⟩ busyRun⟩
  · exact fresh_of_init (show osipTransactionInit 0 .ict someInvite = _ from rfl)
  · exact fresh_of_init (show osipTransactionInit 0 .ist someInvite = _ from rfl)

end Osip
end Furikup
