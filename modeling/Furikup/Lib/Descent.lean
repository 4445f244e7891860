import Mathlib

/-!
# Parsers that go from field to field

A parser keeps a state and a rest of the text.  For each kind of field there is a function that reads
one of them or leaves the text as it is, and the parser calls these functions in the order of the
grammar: some once, some in a loop, some more than once with others in between.  It may be done
before it has called all of them, if the text is at its end.

* `Field`, `Outcome` — what one function comes to, and a parser that has called some.
* `once`, `must`, `many`, `rounds` — how a function is called.
* `Outcome.Sat` — **what every field keeps, the parser keeps**: `once_sat`, `must_sat`, `many_sat`,
  `rounds_sat`.
* `next_once`, `next_many` — **what has been printed is read**.
-/

set_option autoImplicit false

universe u v w

namespace Descent

/-! ## Fields and outcomes -/

/-- What a function makes of the text at which it is called. -/
inductive Field (σ : Type u) (γ : Type v)
  /-- It is one of its fields, and it is wrong. -/
  | bad
  /-- It is something else. -/
  | other
  | read (s : σ) (rest : List γ)

inductive Outcome (σ : Type u) (γ : Type v)
  | failed
  | done (s : σ)
  | more (s : σ) (rest : List γ)

variable {σ : Type u} {γ : Type v} {α : Type w}

/-- Go on if there is more. -/
def Outcome.next (o : Outcome σ γ) (k : σ → List γ → Outcome σ γ) : Outcome σ γ :=
  match o with
  | .failed => .failed
  | .done s => .done s
  | .more s t => k s t

/-- The state at the end. -/
def Outcome.result : Outcome σ γ → Option σ
  | .failed => none
  | .done s => some s
  | .more s _ => some s

/-- The parser is done if the text is at its end. -/
def check (ended : List γ → Bool) (s : σ) (t : List γ) : Outcome σ γ :=
  if ended t then .done s else .more s t

/-- Read a field, if there is one. -/
def once (ended : List γ → Bool) (f : σ → List γ → Field σ γ) (s : σ) (t : List γ) : Outcome σ γ :=
  match f s t with
  | .bad => .failed
  | .other => check ended s t
  | .read s t => check ended s t

/-- Read a field that has to be there. -/
def must (ended : List γ → Bool) (f : σ → List γ → Field σ γ) (s : σ) (t : List γ) : Outcome σ γ :=
  match f s t with
  | .bad => .failed
  | .other => .failed
  | .read s t => check ended s t

/-- Read fields of one kind, at most `n` of them. -/
def loop (ended : List γ → Bool) (f : σ → List γ → Field σ γ) : Nat → σ → List γ → Outcome σ γ
  | 0, s, t => .more s t
  | n + 1, s, t =>
    match f s t with
    | .bad => .failed
    | .other => check ended s t
    | .read s t => (check ended s t).next (loop ended f n)

/-- Read as many fields of one kind as there are. -/
def many (ended : List γ → Bool) (f : σ → List γ → Field σ γ) (s : σ) (t : List γ) : Outcome σ γ :=
  loop ended f (t.length + 1) s t

/-- Read a field and what comes behind it, at most `n` times; what comes behind it is looked for even
if the field is not there. -/
def rounds (ended : List γ → Bool) (head : σ → List γ → Field σ γ)
    (body : σ → List γ → Outcome σ γ) : Nat → σ → List γ → Outcome σ γ
  | 0, s, t => .more s t
  | n + 1, s, t =>
    match head s t with
    | .bad => .failed
    | .other => (check ended s t).next body
    | .read s t => ((check ended s t).next body).next (rounds ended head body n)

variable {ended : List γ → Bool} {f head : σ → List γ → Field σ γ}
  {body : σ → List γ → Outcome σ γ} {s s' : σ} {t t' : List γ}

@[simp] theorem next_more (k : σ → List γ → Outcome σ γ) : (Outcome.more s t).next k = k s t := rfl

@[simp] theorem next_done (k : σ → List γ → Outcome σ γ) :
    (Outcome.done s : Outcome σ γ).next k = .done s := rfl

@[simp] theorem next_failed (k : σ → List γ → Outcome σ γ) :
    (Outcome.failed : Outcome σ γ).next k = .failed := rfl

theorem next_assoc (o : Outcome σ γ) (k k' : σ → List γ → Outcome σ γ) :
    (o.next k).next k' = o.next fun s t => (k s t).next k' := by
  cases o with
  | failed => rfl
  | done s => rfl
  | more s t => rfl

/-- What a parser comes to with one more call. -/
theorem Outcome.step {o c c' : Outcome σ γ} {k : σ → List γ → Outcome σ γ} (ho : o = c)
    (hk : c.next k = c') : o.next k = c' := by
  rw [ho, hk]

/-! ## A bound that is not reached -/

/-- What is read gets shorter. -/
def Shrinks (f : σ → List γ → Field σ γ) : Prop :=
  ∀ s t s' t', f s t = .read s' t' → t'.length < t.length

/-- **The bound of a loop does not matter**, so that it is the loop without one. -/
theorem loop_fuel (hf : Shrinks f) {n m : Nat} (hn : t.length < n) (hm : t.length < m) :
    loop ended f n s t = loop ended f m s t := by
  induction n generalizing m s t with
  | zero => omega
  | succ n ih =>
    cases m with
    | zero => omega
    | succ m =>
      rw [loop, loop]
      cases hfield : f s t with
      | bad => rfl
      | other => rfl
      | read s' t' =>
        have hlt := hf s t s' t' hfield
        dsimp only
        rw [check]
        split
        · rfl
        · exact ih (by omega) (by omega)

/-! ## What is kept -/

/-- The state is as it should be, if the parser is done and if it goes on. -/
def Outcome.Sat (D M : σ → Prop) : Outcome σ γ → Prop
  | .failed => True
  | .done s => D s
  | .more s _ => M s

variable {D M M' : σ → Prop}

/-- What is true of the state is still true when a field has been read. -/
def Keeps (M : σ → Prop) (f : σ → List γ → Field σ γ) : Prop :=
  ∀ s t s' t', M s → f s t = .read s' t' → M s'

theorem Outcome.Sat.next {o : Outcome σ γ} {k : σ → List γ → Outcome σ γ} (ho : o.Sat D M)
    (hk : ∀ s t, M s → (k s t).Sat D M') : (o.next k).Sat D M' := by
  cases o with
  | failed => exact ho
  | done s => exact ho
  | more s t => exact hk s t ho

theorem Outcome.Sat.result {o : Outcome σ γ} (ho : o.Sat D D) (h : o.result = some s) : D s := by
  cases o with
  | failed => cases h
  | done s' => exact Option.some.inj h ▸ ho
  | more s' t => exact Option.some.inj h ▸ ho

/-- The state is good to end with, where the parser may be at its end. -/
theorem check_sat (hM : M s) (hD : ended t = true → D s) : (check ended s t).Sat D M := by
  rw [check]
  split
  · next hend => exact hD hend
  · exact hM

theorem once_sat (hf : Keeps M f) (hD : ∀ s t, M s → ended t = true → D s) (hM : M s) :
    (once ended f s t).Sat D M := by
  rw [once]
  cases hfield : f s t with
  | bad => trivial
  | other => exact check_sat hM (hD s t hM)
  | read s' t' =>
    have hM' := hf s t s' t' hM hfield
    exact check_sat hM' (hD s' t' hM')

/-- A field that has to be there makes something true. -/
theorem must_sat (hf : ∀ s t s' t', M s → f s t = .read s' t' → M' s')
    (hD : ∀ s t, M' s → ended t = true → D s) (hM : M s) : (must ended f s t).Sat D M' := by
  rw [must]
  cases hfield : f s t with
  | bad => trivial
  | other => trivial
  | read s' t' =>
    have hM' := hf s t s' t' hM hfield
    exact check_sat hM' (hD s' t' hM')

theorem loop_sat (hf : Keeps M f) (hD : ∀ s t, M s → ended t = true → D s) (n : Nat) (hM : M s) :
    (loop ended f n s t).Sat D M := by
  induction n generalizing s t with
  | zero => exact hM
  | succ n ih =>
    rw [loop]
    cases hfield : f s t with
    | bad => trivial
    | other => exact check_sat hM (hD s t hM)
    | read s' t' =>
      have hM' := hf s t s' t' hM hfield
      exact Outcome.Sat.next (check_sat hM' (hD s' t' hM')) fun s t => ih

theorem many_sat (hf : Keeps M f) (hD : ∀ s t, M s → ended t = true → D s) (hM : M s) :
    (many ended f s t).Sat D M :=
  loop_sat hf hD _ hM

theorem rounds_sat (hhead : Keeps M head) (hbody : ∀ s t, M s → (body s t).Sat D M)
    (hD : ∀ s t, M s → ended t = true → D s) (n : Nat) (hM : M s) :
    (rounds ended head body n s t).Sat D M := by
  induction n generalizing s t with
  | zero => exact hM
  | succ n ih =>
    rw [rounds]
    cases hfield : head s t with
    | bad => trivial
    | other => exact Outcome.Sat.next (check_sat hM (hD s t hM)) hbody
    | read s' t' =>
      have hM' := hhead s t s' t' hM hfield
      have hround := Outcome.Sat.next (check_sat hM' (hD s' t' hM')) hbody
      exact hround.next fun s t => ih

/-! ## What has been printed -/

section Printed

variable {pr : α → List γ} {rest : List γ}

theorem loop_flatMap (state : List α → σ) {xs : List α} (l : List α) {n : Nat}
    (hn : xs.length < n)
    (hread : ∀ x ∈ xs, ∀ l t, f (state l) (pr x ++ t) = .read (state (l ++ [x])) t)
    (hgo : ∀ x ∈ xs, ∀ t, ended (pr x ++ t) = false)
    (hother : ended rest = false → ∀ l, f (state l) rest = .other)
    (hstart : xs = [] → ended rest = false) :
    loop ended f n (state l) (xs.flatMap pr ++ rest) = check ended (state (l ++ xs)) rest := by
  induction xs generalizing l n with
  | nil =>
    cases n with
    | zero => omega
    | succ n =>
      rw [loop, List.flatMap_nil, List.nil_append, hother (hstart rfl), List.append_nil]
  | cons x xs ih =>
    cases n with
    | zero => omega
    | succ n =>
      rw [List.length_cons] at hn
      rw [loop, List.flatMap_cons, List.append_assoc, hread x List.mem_cons_self]
      dsimp only
      cases xs with
      | nil =>
        rw [List.flatMap_nil, List.nil_append]
        cases hend : ended rest with
        | true => rw [check, if_pos hend, next_done]
        | false =>
          have hlast := ih (n := n) (l ++ [x]) (by omega) (fun y hy => (List.not_mem_nil hy).elim)
            (fun y hy => (List.not_mem_nil hy).elim) fun _ => hend
          rw [List.flatMap_nil, List.nil_append, List.append_nil] at hlast
          rw [check, if_neg (Bool.eq_false_iff.1 hend), next_more, hlast, check,
            if_neg (Bool.eq_false_iff.1 hend)]
      | cons y ys =>
        have hgo' : ended ((y :: ys).flatMap pr ++ rest) = false := by
          rw [List.flatMap_cons, List.append_assoc]
          exact hgo y (List.mem_cons_of_mem _ List.mem_cons_self) _
        have hrest := ih (n := n) (l ++ [x]) (by omega)
          (fun z hz => hread z (List.mem_cons_of_mem _ hz))
          (fun z hz => hgo z (List.mem_cons_of_mem _ hz)) fun h => absurd h (List.cons_ne_nil _ _)
        rw [check, if_neg (Bool.eq_false_iff.1 hgo'), next_more, hrest, List.append_assoc,
          List.singleton_append]

theorem length_le_flatMap (hpr : ∀ x, pr x ≠ []) (xs : List α) :
    xs.length ≤ (xs.flatMap pr).length := by
  induction xs with
  | nil => exact Nat.zero_le _
  | cons x xs ih =>
    have hx := List.length_pos_iff.2 (hpr x)
    rw [List.flatMap_cons, List.length_append, List.length_cons]
    omega

/-- **Fields that have been printed one behind the other are read.**  The state is told by what has
been read so far. -/
theorem many_flatMap (state : List α → σ) {xs : List α} (hpr : ∀ x, pr x ≠ [])
    (hread : ∀ x ∈ xs, ∀ l t, f (state l) (pr x ++ t) = .read (state (l ++ [x])) t)
    (hgo : ∀ x ∈ xs, ∀ t, ended (pr x ++ t) = false)
    (hother : ended rest = false → ∀ l, f (state l) rest = .other)
    (hstart : xs = [] → ended rest = false) :
    many ended f (state []) (xs.flatMap pr ++ rest) = check ended (state xs) rest := by
  have hlength := length_le_flatMap hpr xs
  refine loop_flatMap state [] ?_ hread hgo hother hstart
  rw [List.length_append]
  omega

/-- A parser that has got so far reads the fields that come next. -/
theorem next_many (state : List α → σ) {xs : List α} (hpr : ∀ x, pr x ≠ [])
    (hread : ∀ x ∈ xs, ∀ l t, f (state l) (pr x ++ t) = .read (state (l ++ [x])) t)
    (hgo : ∀ x ∈ xs, ∀ t, ended (pr x ++ t) = false)
    (hother : ended rest = false → ∀ l, f (state l) rest = .other) :
    (check ended (state []) (xs.flatMap pr ++ rest)).next (many ended f) =
      check ended (state xs) rest := by
  cases hend : ended (xs.flatMap pr ++ rest) with
  | true =>
    cases xs with
    | nil =>
      rw [List.flatMap_nil, List.nil_append] at hend ⊢
      rw [check, if_pos hend, next_done]
    | cons x xs =>
      rw [List.flatMap_cons, List.append_assoc, hgo x List.mem_cons_self] at hend
      cases hend
  | false =>
    rw [check, if_neg (Bool.eq_false_iff.1 hend), next_more]
    refine many_flatMap state hpr hread hgo hother fun hnil => ?_
    rwa [hnil, List.flatMap_nil, List.nil_append] at hend

/-- A field that is not there leaves everything as it is. -/
theorem next_once_other (hother : ended rest = false → f s rest = .other) :
    (check ended s rest).next (once ended f) = check ended s rest := by
  cases hend : ended rest with
  | true => rw [check, if_pos hend, next_done]
  | false =>
    rw [check, if_neg (Bool.eq_false_iff.1 hend), next_more, once, hother hend, check,
      if_neg (Bool.eq_false_iff.1 hend)]

theorem next_many_other (hother : ended rest = false → f s rest = .other) :
    (check ended s rest).next (many ended f) = check ended s rest := by
  cases hend : ended rest with
  | true => rw [check, if_pos hend, next_done]
  | false =>
    rw [check, if_neg (Bool.eq_false_iff.1 hend), next_more, many, loop, hother hend, check,
      if_neg (Bool.eq_false_iff.1 hend)]

theorem next_once (state : Option α → σ) {x : Option α}
    (hread : ∀ y, x = some y → ∀ t, f (state none) (pr y ++ t) = .read (state x) t)
    (hgo : ∀ y, x = some y → ∀ t, ended (pr y ++ t) = false)
    (hother : ended rest = false → f (state none) rest = .other) :
    (check ended (state none) (x.toList.flatMap pr ++ rest)).next (once ended f) =
      check ended (state x) rest := by
  cases x with
  | none => exact next_once_other hother
  | some y =>
    have hgo' := hgo y rfl rest
    rw [Option.toList_some, List.flatMap_cons, List.flatMap_nil, List.append_nil, check,
      if_neg (Bool.eq_false_iff.1 hgo'), next_more, once, hread y rfl]

end Printed

end Descent
