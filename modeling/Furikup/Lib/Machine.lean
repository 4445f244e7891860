import Mathlib

/-!
# Runs of a machine

A machine is a step function `step : ι → σ → Except ε σ`: an input either takes the state to the
next one or faults.  A fault is the end of the run, there is no state after it, so a statement
about a machine is a statement about the runs that got somewhere: `Machine.run step is s = .ok s'`.

Three rules turn facts about one step into facts about a run.

* `Machine.run_invariant` is the plain one: what every step keeps, every run keeps.
* `Machine.always_of_along` is for a law that only holds of some runs.  `Machine.Along` says that
  every step a run takes meets a condition on the input and on the state before it, `Machine.Always`
  that every state the run passes through has a property, and the rule leads from the first to the
  second.
* `Machine.always_iff_along` is the exact form: if a step that breaks the condition breaks the
  property as well, the runs on which the property holds throughout are exactly those whose steps
  all meet the condition.

`Machine.throughout_iff_forall` is the exact form for laws that also forbid faults: the machine
takes all its inputs and keeps the property if and only if each input meets a condition of its own.

`Machine.Attempted` is for laws about what a step does on its way, which a step that faults may
break as well.

`Machine.along_congr` exchanges a condition for one that agrees with it where the run goes.
`Machine.record` puts a variable beside the state that remembers what the machine forgets.
`Machine.countAlong` counts the steps of a run that answer a description, for laws that compare what
was asked of a machine with what it did, and `Machine.okAnd` decides what a run on given inputs
comes to.
-/

set_option autoImplicit false

namespace Machine

universe u v w

variable {σ : Type u} {ι : Type v} {ε : Type w}

/-- Take the inputs one after the other, and stop at the first fault. -/
def run (step : ι → σ → Except ε σ) : List ι → σ → Except ε σ
  | [], s => .ok s
  | i :: is, s =>
    match step i s with
    | .ok s' => run step is s'
    | .error e => .error e

variable {step : ι → σ → Except ε σ}

@[simp] theorem run_nil (s : σ) : run step [] s = .ok s := rfl

theorem run_cons_ok {i : ι} {is : List ι} {s t : σ} :
    run step (i :: is) s = .ok t ↔ ∃ s', step i s = .ok s' ∧ run step is s' = .ok t := by
  rw [run]
  cases h : step i s with
  | ok s' => simp
  | error e => simp

theorem run_append_ok {is js : List ι} {s t : σ} :
    run step (is ++ js) s = .ok t ↔ ∃ s', run step is s = .ok s' ∧ run step js s' = .ok t := by
  induction is generalizing s with
  | nil => simp
  | cons i is ih =>
    simp only [List.cons_append, run_cons_ok, ih]
    constructor
    · rintro ⟨a, ha, b, hb, ht⟩
      exact ⟨b, ⟨a, ha, hb⟩, ht⟩
    · rintro ⟨b, ⟨a, ha, hb⟩, ht⟩
      exact ⟨a, ha, b, hb, ht⟩

/-- **What every step keeps, every run keeps.** -/
theorem run_invariant (Inv : σ → Prop)
    (hstep : ∀ i s s', Inv s → step i s = .ok s' → Inv s') {is : List ι} {s t : σ} (hs : Inv s)
    (h : run step is s = .ok t) : Inv t := by
  induction is generalizing s with
  | nil => rw [run_nil, Except.ok.injEq] at h; exact h ▸ hs
  | cons i is ih =>
    obtain ⟨s', hi, ht⟩ := run_cons_ok.1 h
    exact ih (hstep i s s' hs hi) ht

/-! ## Laws that hold of some runs -/

/-- Every step the run takes meets `C`, a condition on the state before it and on its input. -/
def Along (step : ι → σ → Except ε σ) (C : σ → ι → Prop) : List ι → σ → Prop
  | [], _ => True
  | i :: is, s =>
    match step i s with
    | .ok s' => C s i ∧ Along step C is s'
    | .error _ => True

/-- Every state the run passes through has `P`, the first one included. -/
def Always (step : ι → σ → Except ε σ) (P : σ → Prop) : List ι → σ → Prop
  | [], s => P s
  | i :: is, s =>
    P s ∧
      match step i s with
      | .ok s' => Always step P is s'
      | .error _ => True

instance decidableAlong (step : ι → σ → Except ε σ) (C : σ → ι → Prop)
    [∀ s i, Decidable (C s i)] : ∀ is s, Decidable (Along step C is s)
  | [], _ => inferInstanceAs (Decidable True)
  | i :: is, s =>
    have : ∀ s', Decidable (Along step C is s') := decidableAlong step C is
    match h : step i s with
    | .ok s' => decidable_of_iff (C s i ∧ Along step C is s') (by rw [Along, h])
    | .error _ => isTrue (by rw [Along, h]; trivial)

theorem along_cons {C : σ → ι → Prop} {i : ι} {is : List ι} {s : σ} :
    Along step C (i :: is) s ↔ ∀ s', step i s = .ok s' → C s i ∧ Along step C is s' := by
  rw [Along]
  cases step i s with
  | ok s' => simp
  | error e => simp

theorem always_cons {P : σ → Prop} {i : ι} {is : List ι} {s : σ} :
    Always step P (i :: is) s ↔ P s ∧ ∀ s', step i s = .ok s' → Always step P is s' := by
  rw [Always]
  cases step i s with
  | ok s' => simp
  | error e => simp

theorem Always.head {P : σ → Prop} {is : List ι} {s : σ} (h : Always step P is s) : P s := by
  cases is with
  | nil => exact h
  | cons i is => exact (always_cons.1 h).1

/-- `Always` in terms of runs: every run of a prefix of the inputs ends in a state that has `P`. -/
theorem always_iff_run {P : σ → Prop} {is : List ι} {s : σ} :
    Always step P is s ↔ ∀ js, js <+: is → ∀ t, run step js s = .ok t → P t := by
  induction is generalizing s with
  | nil =>
    simp only [Always, List.prefix_nil]
    refine ⟨?_, fun h => h [] rfl s rfl⟩
    rintro h js rfl t ht
    rw [run_nil, Except.ok.injEq] at ht
    exact ht ▸ h
  | cons i is ih =>
    simp only [always_cons, ih]
    refine ⟨?_, fun h => ⟨h [] List.nil_prefix s rfl, fun s' hs' js hjs t ht => ?_⟩⟩
    · rintro ⟨hs, h⟩ js hjs t ht
      cases js with
      | nil =>
        rw [run_nil, Except.ok.injEq] at ht
        exact ht ▸ hs
      | cons j js =>
        obtain ⟨rfl, hpre⟩ := List.cons_prefix_cons.1 hjs
        obtain ⟨s', hs', ht'⟩ := run_cons_ok.1 ht
        exact h s' hs' js hpre t ht'
    · exact h (i :: js) (List.cons_prefix_cons.2 ⟨rfl, hjs⟩) t (run_cons_ok.2 ⟨s', hs', ht⟩)

theorem Always.mono {P Q : σ → Prop} (hPQ : ∀ s, P s → Q s) {is : List ι} {s : σ}
    (h : Always step P is s) : Always step Q is s := by
  induction is generalizing s with
  | nil => exact hPQ s h
  | cons i is ih =>
    obtain ⟨hs, hrest⟩ := always_cons.1 h
    exact always_cons.2 ⟨hPQ s hs, fun s' hs' => ih (hrest s' hs')⟩

/-- **What the steps that meet `C` keep, holds all along a run whose steps all meet `C`.**  The
inputs may be known to satisfy an assumption `A`. -/
theorem always_of_along {A : ι → Prop} {C : σ → ι → Prop} {Inv : σ → Prop}
    (hstep : ∀ i s s', A i → Inv s → C s i → step i s = .ok s' → Inv s') {is : List ι} {s : σ}
    (his : ∀ i ∈ is, A i) (hs : Inv s) (h : Along step C is s) : Always step Inv is s := by
  induction is generalizing s with
  | nil => exact hs
  | cons i is ih =>
    refine always_cons.2 ⟨hs, fun s' hs' => ?_⟩
    obtain ⟨hC, hrest⟩ := along_cons.1 h s' hs'
    have hkeep := hstep i s s' (his i List.mem_cons_self) hs hC hs'
    exact ih (fun j hj => his j (List.mem_cons_of_mem i hj)) hkeep hrest

/-- Two conditions that agree on every step out of a state with `Inv` hold along the same runs, if
the steps that meet them keep `Inv`. -/
theorem along_congr {C D : σ → ι → Prop} (Inv : σ → Prop)
    (hkeep : ∀ i s s', Inv s → C s i → step i s = .ok s' → Inv s')
    (hcongr : ∀ i s s', Inv s → step i s = .ok s' → (C s i ↔ D s i)) {is : List ι} {s : σ}
    (hs : Inv s) : Along step C is s ↔ Along step D is s := by
  induction is generalizing s with
  | nil => exact Iff.rfl
  | cons i is ih =>
    simp only [along_cons]
    refine forall_congr' fun s' => ?_
    constructor
    · intro h hs'
      obtain ⟨hC, hrest⟩ := h hs'
      exact ⟨(hcongr i s s' hs hs').1 hC, (ih (hkeep i s s' hs hC hs')).1 hrest⟩
    · intro h hs'
      obtain ⟨hD, hrest⟩ := h hs'
      have hC : C s i := (hcongr i s s' hs hs').2 hD
      exact ⟨hC, (ih (hkeep i s s' hs hC hs')).2 hrest⟩

/-- **The exact form.**  `Inv` is what carries the induction; it gives the property `P`, and a
step that breaks `C` breaks `P`.  Then `P` holds all along a run exactly when every step of the
run meets `C`. -/
theorem always_iff_along {A : ι → Prop} {C : σ → ι → Prop} {Inv P : σ → Prop}
    (hP : ∀ s, Inv s → P s)
    (hkeep : ∀ i s s', A i → Inv s → C s i → step i s = .ok s' → Inv s')
    (hbreak : ∀ i s s', Inv s → step i s = .ok s' → P s' → C s i) {is : List ι} {s : σ}
    (his : ∀ i ∈ is, A i) (hs : Inv s) : Always step P is s ↔ Along step C is s := by
  refine ⟨fun h => ?_, fun h => (always_of_along hkeep his hs h).mono hP⟩
  induction is generalizing s with
  | nil => trivial
  | cons i is ih =>
    refine along_cons.2 fun s' hs' => ?_
    have hrest : Always step P is s' := (always_cons.1 h).2 s' hs'
    have hC : C s i := hbreak i s s' hs hs' hrest.head
    have hInv : Inv s' := hkeep i s s' (his i List.mem_cons_self) hs hC hs'
    exact ⟨hC, ih (fun j hj => his j (List.mem_cons_of_mem i hj)) hInv hrest⟩

/-! ## Runs without a fault -/

/-- The machine takes the inputs without a fault, and every state it passes through has `P`. -/
def Throughout (step : ι → σ → Except ε σ) (P : σ → Prop) (is : List ι) (s : σ) : Prop :=
  ∀ js, js <+: is → ∃ t, run step js s = .ok t ∧ P t

theorem throughout_cons {P : σ → Prop} {i : ι} {is : List ι} {s : σ} :
    Throughout step P (i :: is) s ↔ P s ∧ ∃ s', step i s = .ok s' ∧ Throughout step P is s' := by
  constructor
  · intro h
    obtain ⟨t, ht, hs⟩ := h [] List.nil_prefix
    rw [run_nil, Except.ok.injEq] at ht
    obtain ⟨t', ht', -⟩ := h [i] ((List.prefix_cons_inj i).2 List.nil_prefix)
    obtain ⟨s', hs', -⟩ := run_cons_ok.1 ht'
    refine ⟨ht ▸ hs, s', hs', fun js hjs => ?_⟩
    obtain ⟨u, hu, hP⟩ := h (i :: js) ((List.prefix_cons_inj i).2 hjs)
    obtain ⟨s'', hs'', hu'⟩ := run_cons_ok.1 hu
    rw [hs', Except.ok.injEq] at hs''
    exact ⟨u, hs'' ▸ hu', hP⟩
  · rintro ⟨hs, s', hs', h⟩ js hjs
    cases js with
    | nil => exact ⟨s, rfl, hs⟩
    | cons j js =>
      obtain ⟨rfl, hpre⟩ := List.cons_prefix_cons.1 hjs
      obtain ⟨t, ht, hP⟩ := h js hpre
      exact ⟨t, run_cons_ok.2 ⟨s', hs', ht⟩, hP⟩

/-- **The exact form for laws that forbid faults.**  `Inv` carries the induction and gives `P`; an
input that meets `A` is taken and keeps it, and one that does not faults or breaks `P`. -/
theorem throughout_iff_forall {A : ι → Prop} {Inv P : σ → Prop} (hP : ∀ s, Inv s → P s)
    (hkeep : ∀ i s, Inv s → A i → ∃ s', step i s = .ok s' ∧ Inv s')
    (hbreak : ∀ i s s', Inv s → step i s = .ok s' → P s' → A i) {is : List ι} {s : σ}
    (hs : Inv s) : Throughout step P is s ↔ ∀ i ∈ is, A i := by
  induction is generalizing s with
  | nil =>
    refine iff_of_true (fun js hjs => ?_) fun i hi => absurd hi List.not_mem_nil
    rw [List.prefix_nil.1 hjs]
    exact ⟨s, rfl, hP s hs⟩
  | cons i is ih =>
    rw [throughout_cons, List.forall_mem_cons]
    constructor
    · rintro ⟨-, s', hs', h⟩
      obtain ⟨t, ht, hPs'⟩ := h [] List.nil_prefix
      rw [run_nil, Except.ok.injEq] at ht
      have hA := hbreak i s s' hs hs' (ht ▸ hPs')
      obtain ⟨s'', hs'', hInv⟩ := hkeep i s hs hA
      rw [hs', Except.ok.injEq] at hs''
      exact ⟨hA, (ih (hs'' ▸ hInv)).1 h⟩
    · rintro ⟨hA, h⟩
      obtain ⟨s', hs', hInv⟩ := hkeep i s hs hA
      exact ⟨hP s hs, s', hs', (ih hInv).2 h⟩

/-! ## Steps that may fault -/

/-- Every step the run comes to meets `C`, also one that faults. -/
def Attempted (step : ι → σ → Except ε σ) (C : σ → ι → Prop) (is : List ι) (s : σ) : Prop :=
  ∀ front i rest, is = front ++ i :: rest → ∀ t, run step front s = .ok t → C t i

theorem attempted_nil {C : σ → ι → Prop} {s : σ} : Attempted step C [] s := by
  intro front i rest h
  simp at h

theorem attempted_cons {C : σ → ι → Prop} {i : ι} {is : List ι} {s : σ} :
    Attempted step C (i :: is) s ↔ C s i ∧ ∀ s', step i s = .ok s' → Attempted step C is s' := by
  constructor
  · intro h
    refine ⟨h [] i is rfl s rfl, fun s' hs' front j rest heq t ht => ?_⟩
    exact h (i :: front) j rest (by rw [heq, List.cons_append]) t (run_cons_ok.2 ⟨s', hs', ht⟩)
  · rintro ⟨hi, h⟩ front j rest heq t ht
    cases front with
    | nil =>
      rw [List.nil_append, List.cons.injEq] at heq
      rw [run_nil, Except.ok.injEq] at ht
      exact heq.1 ▸ ht ▸ hi
    | cons k front =>
      rw [List.cons_append, List.cons.injEq] at heq
      obtain ⟨s', hs', ht⟩ := run_cons_ok.1 ht
      exact h s' (heq.1 ▸ hs') front j rest heq.2 t ht

/-- Two conditions that agree in every state with an invariant are met by the same runs. -/
theorem attempted_congr {C D : σ → ι → Prop} (Inv : σ → Prop)
    (hkeep : ∀ i s s', Inv s → step i s = .ok s' → Inv s')
    (hcongr : ∀ i s, Inv s → (C s i ↔ D s i)) {is : List ι} {s : σ} (hs : Inv s) :
    Attempted step C is s ↔ Attempted step D is s := by
  induction is generalizing s with
  | nil => exact iff_of_true attempted_nil attempted_nil
  | cons i is ih =>
    rw [attempted_cons, attempted_cons, hcongr i s hs]
    exact and_congr_right fun _ => forall_congr' fun s' => forall_congr' fun hs' =>
      ih (hkeep i s s' hs hs')

/-! ## History variables -/

section Record

variable {γ : Type u} {f : σ → ι → γ → γ}

/-- The machine with a variable beside its state in which `f` records the steps that were taken, and
which no step reads. -/
def record (step : ι → σ → Except ε σ) (f : σ → ι → γ → γ) (i : ι) (s : σ × γ) :
    Except ε (σ × γ) :=
  (step i s.1).map fun s' => (s', f s.1 i s.2)

theorem record_ok {i : ι} {s t : σ × γ} :
    record step f i s = .ok t ↔ step i s.1 = .ok t.1 ∧ t.2 = f s.1 i s.2 := by
  rw [record]
  cases h : step i s.1 with
  | ok s' =>
    rw [Except.map, Except.ok.injEq, Except.ok.injEq]
    constructor
    · rintro rfl
      exact ⟨rfl, rfl⟩
    · rintro ⟨rfl, ht⟩
      exact Prod.ext rfl ht.symm
  | error e => simp [Except.map]

/-- **The variable changes nothing**: the machine with it has the runs of the machine. -/
theorem run_record {is : List ι} {s : σ × γ} {t : σ} :
    (∃ g, run (record step f) is s = .ok (t, g)) ↔ run step is s.1 = .ok t := by
  induction is generalizing s with
  | nil =>
    simp only [run_nil, Except.ok.injEq]
    exact ⟨fun h => h.elim fun g hg => congrArg Prod.fst hg, fun h => ⟨s.2, Prod.ext h rfl⟩⟩
  | cons i is ih =>
    simp only [run_cons_ok, record_ok]
    constructor
    · rintro ⟨g, s', ⟨hstep, -⟩, hrun⟩
      exact ⟨s'.1, hstep, ih.1 ⟨g, hrun⟩⟩
    · rintro ⟨s', hstep, hrun⟩
      obtain ⟨g, hrun⟩ := (ih (s := (s', f s.1 i s.2))).2 hrun
      exact ⟨g, (s', f s.1 i s.2), ⟨hstep, rfl⟩, hrun⟩

end Record

/-! ## Counting the steps of a run -/

/-- How many steps of the run answer the description `p` of an input and the state before it. -/
def countAlong (step : ι → σ → Except ε σ) (p : σ → ι → Bool) : List ι → σ → Nat
  | [], _ => 0
  | i :: is, s =>
    match step i s with
    | .ok s' => (if p s i then 1 else 0) + countAlong step p is s'
    | .error _ => 0

/-- **A measure that each step raises by one exactly when it answers `p`** ends a run at its start
value plus the number of such steps. -/
theorem run_measure {p : σ → ι → Bool} {μ : σ → Nat}
    (hstep : ∀ i s s', step i s = .ok s' → μ s' = μ s + if p s i then 1 else 0) {is : List ι}
    {s t : σ} (h : run step is s = .ok t) : μ t = μ s + countAlong step p is s := by
  induction is generalizing s with
  | nil =>
    rw [run_nil, Except.ok.injEq] at h
    rw [h, countAlong, Nat.add_zero]
  | cons i is ih =>
    obtain ⟨s', hs', ht⟩ := run_cons_ok.1 h
    rw [countAlong, hs', ih ht, hstep i s s' hs', Nat.add_assoc]

/-! ## Runs on fixed inputs -/

/-- The result is a value that passes the test `p`, which decides what a run on given inputs comes
to. -/
def okAnd {α : Type u} (r : Except ε α) (p : α → Bool) : Bool :=
  match r with
  | .ok a => p a
  | .error _ => false

theorem exists_of_okAnd {α : Type u} {r : Except ε α} {p : α → Bool} (h : okAnd r p = true) :
    ∃ a, r = .ok a ∧ p a = true := by
  cases r with
  | ok a => exact ⟨a, rfl, h⟩
  | error e => exact absurd h Bool.false_ne_true

end Machine
