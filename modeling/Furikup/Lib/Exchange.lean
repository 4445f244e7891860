import Mathlib

/-!
# Requests and responses

Two parties have something to do with one request: one asks, the other is told of it and answers.
What either of them does or hears of is an event, and a history is the list of the events so far.

* `Transducer.run` — a machine that says what it does, and `Transducer.run_induction`.
* `Legal` — the histories in which each event was allowed when it happened, for any rule of what is
  allowed.  `Legal.of_simulation` is how a machine is shown to have no others.
* `Exchange.May` — the rule: what is heard has been said, and what is final is said and heard once.
* `Exchange.Orderly` and `Exchange.orderly_of_legal` — **what the two parties make of it**: the
  request is announced once and as it was asked, what is heard is what was given, nothing is heard
  after something final, and both agree on what that was.
-/

set_option autoImplicit false

universe u v w

/-! ## Machines that say what they do -/

namespace Transducer

variable {σ : Type v} {ι : Type w} {L : Type u}

/-- Take the inputs one after the other, and write down what each step says. -/
def run (step : σ → ι → σ × List L) : List ι → σ → σ × List L
  | [], s => (s, [])
  | i :: is, s => ((run step is (step s i).1).1, (step s i).2 ++ (run step is (step s i).1).2)

variable {step : σ → ι → σ × List L}

@[simp] theorem run_nil (s : σ) : run step [] s = (s, []) := rfl

@[simp] theorem run_cons (i : ι) (is : List ι) (s : σ) :
    run step (i :: is) s =
      ((run step is (step s i).1).1, (step s i).2 ++ (run step is (step s i).1).2) := rfl

/-- **What every step keeps, every run keeps**, where the property may speak of the inputs there
have been and of what has been said. -/
theorem run_induction (Inv : List ι → σ → List L → Prop) {is : List ι}
    (hstep : ∀ before, ∀ i ∈ is, ∀ s past, Inv before s past →
      Inv (before ++ [i]) (step s i).1 (past ++ (step s i).2))
    {before : List ι} {s : σ} {past : List L} (hs : Inv before s past) :
    Inv (before ++ is) (run step is s).1 (past ++ (run step is s).2) := by
  induction is generalizing before s past with
  | nil => rwa [run_nil, List.append_nil, List.append_nil]
  | cons i is ih =>
    have hnext := hstep before i List.mem_cons_self s past hs
    have hrest := ih (fun before j hj => hstep before j (List.mem_cons_of_mem _ hj)) hnext
    rwa [List.append_assoc, List.append_assoc] at hrest

theorem run_invariant (Inv : σ → List L → Prop)
    (hstep : ∀ s i past, Inv s past → Inv (step s i).1 (past ++ (step s i).2)) {is : List ι}
    {s : σ} {past : List L} (hs : Inv s past) :
    Inv (run step is s).1 (past ++ (run step is s).2) :=
  @run_induction σ ι L step (fun _ => Inv) is (fun _ i _ s past => hstep s i past) [] s past hs

end Transducer

/-! ## Histories -/

section Legal

variable {L : Type u}

/-- The histories in which each event was allowed after those before it. -/
inductive Legal (May : List L → L → Prop) : List L → Prop
  | nil : Legal May []
  | snoc {past : List L} {l : L} : Legal May past → May past l → Legal May (past ++ [l])

namespace Legal

variable {May : List L → L → Prop}

theorem init {past : List L} {l : L} (h : Legal May (past ++ [l])) :
    Legal May past ∧ May past l := by
  generalize heq : past ++ [l] = all at h
  cases h with
  | nil => simp at heq
  | snoc hpast hmay =>
    obtain ⟨rfl, hl⟩ := List.append_inj' heq rfl
    obtain rfl := List.cons.inj hl |>.1
    exact ⟨hpast, hmay⟩

/-- What has happened was allowed. -/
theorem may {front rest : List L} {l : L} (h : Legal May (front ++ l :: rest)) : May front l := by
  induction rest using List.reverseRecOn with
  | nil => exact h.init.2
  | append_singleton rest last ih =>
    rw [← List.cons_append, ← List.append_assoc] at h
    exact ih h.init.1

/-- **A machine whose steps keep a relation between its state and the history, and only make events
that the relation allows, has legal histories only.** -/
theorem of_simulation {σ : Type v} {ι : Type w} {step : σ → ι → σ × List L}
    {R : σ → List L → Prop}
    (hstep : ∀ s i past, R s past → Legal May past →
      Legal May (past ++ (step s i).2) ∧ R (step s i).1 (past ++ (step s i).2))
    {is : List ι} {s : σ} {past : List L} (hR : R s past) (hpast : Legal May past) :
    Legal May (past ++ (Transducer.run step is s).2) ∧
      R (Transducer.run step is s).1 (past ++ (Transducer.run step is s).2) :=
  Transducer.run_invariant (fun s past => Legal May past ∧ R s past)
    (fun s i past h => hstep s i past h.2 h.1) ⟨hpast, hR⟩

end Legal

end Legal

/-! ## The exchange -/

namespace Exchange

variable {Q : Type u} {P : Type v}

/-- What happens between the two parties about one request. -/
inductive Event (Q : Type u) (P : Type v)
  /-- The client asks. -/
  | ask (q : Q)
  /-- The server is told of a request. -/
  | announce (q : Q)
  /-- The server gives a response. -/
  | give (p : P)
  /-- The client is told of a response. -/
  | tell (p : P)
  /-- The client is told that no more will come. -/
  | giveUp
  /-- The server is told that its final response has got there. -/
  | confirm
  deriving DecidableEq

/-- It happens on the server's side. -/
def Event.OfServer : Event Q P → Prop
  | .announce _ | .give _ | .confirm => True
  | .ask _ | .tell _ | .giveUp => False

/-- What may happen after a history. -/
def May (Final : P → Prop) (past : List (Event Q P)) : Event Q P → Prop
  | .ask _ => ∀ q, .ask q ∉ past
  | .announce q => .ask q ∈ past ∧ ∀ q', .announce q' ∉ past
  | .give _ => (∃ q, .announce q ∈ past) ∧ ∀ p, Final p → .give p ∉ past
  | .tell p => .give p ∈ past ∧ .giveUp ∉ past ∧ ∀ p', Final p' → .tell p' ∉ past
  | .giveUp => True
  | .confirm => ∃ p, Final p ∧ .tell p ∈ past

/-- What holds of the events of one request. -/
structure Orderly (Final : P → Prop) (trace : List (Event Q P)) : Prop where
  /-- The server is told of what the client has asked before. -/
  announced : ∀ front q rest, trace = front ++ .announce q :: rest → .ask q ∈ front
  /-- It is told once. -/
  once : ∀ front q rest, trace = front ++ .announce q :: rest →
    ∀ q', .announce q' ∉ front ∧ .announce q' ∉ rest
  /-- The server answers what it has been told of. -/
  answered : ∀ front p rest, trace = front ++ .give p :: rest → ∃ q, .announce q ∈ front
  /-- Nothing is given after a final response. -/
  givenLast : ∀ front p rest, trace = front ++ .give p :: rest → Final p →
    ∀ p', .give p' ∉ rest
  /-- The client is told of what the server has given before. -/
  told : ∀ front p rest, trace = front ++ .tell p :: rest → .give p ∈ front
  /-- It is told of nothing after a final response. -/
  toldLast : ∀ front p rest, trace = front ++ .tell p :: rest → Final p → ∀ p', .tell p' ∉ rest
  /-- It is told of nothing once it has been told that nothing will come. -/
  givenUp : ∀ front rest, trace = front ++ .giveUp :: rest → ∀ p, .tell p ∉ rest
  /-- Both know the same final response. -/
  agree : ∀ p p', .tell p ∈ trace → Final p → .give p' ∈ trace → Final p' → p = p'
  /-- What the server knows to have got there has got there. -/
  confirmed : ∀ front rest, trace = front ++ .confirm :: rest → ∃ p, Final p ∧ .tell p ∈ front

variable {Final : P → Prop} {trace : List (Event Q P)}

/-- Of two events one happens first. -/
theorem split_of_mem {L : Type u} (front : List L) (l : L) {rest : List L} {k : L}
    (hk : k ∈ rest) :
    ∃ mid end_, front ++ l :: rest = (front ++ l :: mid) ++ k :: end_ := by
  obtain ⟨mid, end_, rfl⟩ := List.append_of_mem hk
  exact ⟨mid, end_, by rw [List.append_assoc, List.cons_append]⟩

/-- What a later event was not allowed after has not happened before it. -/
theorem not_mem_rest {l k : Event Q P} {front rest : List (Event Q P)}
    (h : Legal (May Final) (front ++ l :: rest)) (hmay : ∀ past, l ∈ past → ¬ May Final past k) :
    k ∉ rest := by
  intro hk
  obtain ⟨mid, end_, heq⟩ := split_of_mem front l hk
  rw [heq] at h
  exact hmay _ (List.mem_append_right front List.mem_cons_self) h.may

theorem eq_of_give {p p' : P} (h : Legal (May Final) trace) (hp : Final p) (hp' : Final p')
    (hgive : .give p ∈ trace) (hgive' : .give p' ∈ trace) : p = p' := by
  obtain ⟨front, rest, rfl⟩ := List.append_of_mem hgive
  have hrest : .give p' ∉ rest := not_mem_rest h fun past hpast hmay => hmay.2 p hp hpast
  rcases List.mem_append.1 hgive' with hfront | hcons
  · exact absurd hfront (h.may.2 p' hp')
  · rcases List.mem_cons.1 hcons with heq | hmem
    · exact (Event.give.inj heq).symm
    · exact absurd hmem hrest

theorem exists_announce_of_give {p : P} (h : Legal (May Final) trace) (hgive : .give p ∈ trace) :
    ∃ q, .announce q ∈ trace := by
  obtain ⟨front, rest, rfl⟩ := List.append_of_mem hgive
  obtain ⟨q, hq⟩ := h.may.1
  exact ⟨q, List.mem_append_left _ hq⟩

/-- **A legal history is an orderly one.** -/
theorem orderly_of_legal (h : Legal (May Final) trace) : Orderly Final trace where
  announced := by
    rintro front q rest rfl
    exact h.may.1
  once := by
    rintro front q rest rfl q'
    exact ⟨h.may.2 q', not_mem_rest h fun past hpast hmay => hmay.2 q hpast⟩
  answered := by
    rintro front p rest rfl
    exact h.may.1
  givenLast := by
    rintro front p rest rfl hp p'
    exact not_mem_rest h fun past hpast hmay => hmay.2 p hp hpast
  told := by
    rintro front p rest rfl
    exact h.may.1
  toldLast := by
    rintro front p rest rfl hp p'
    exact not_mem_rest h fun past hpast hmay => hmay.2.2 p hp hpast
  givenUp := by
    rintro front rest rfl p
    exact not_mem_rest h fun past hpast hmay => hmay.2.1 hpast
  agree := by
    intro p p' htell hp hgive hp'
    obtain ⟨front, rest, rfl⟩ := List.append_of_mem htell
    exact eq_of_give h hp hp' (List.mem_append_left _ h.may.1) hgive
  confirmed := by
    rintro front rest rfl
    exact h.may

end Exchange
