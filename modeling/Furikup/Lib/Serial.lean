import Mathlib

/-!
# Numbers that wrap around, and a queue in their order

Packets are numbered with so many bits, and after the last number comes the first again.  Of two
numbers the newer one is the one that is less than half way ahead, which is an order only among
numbers that are close together.

* `Serial.newer`, `Serial.newer_iff` — the comparison, and that it is an order in a window.
* `Serial.insertBack` — how an element is put into a queue by looking from its end.
* `Serial.Newest` — a queue of bounded length that holds the newest of all that has come.
  `Newest.insertBack` keeps it, and by `Newest.eq` **what it holds depends on neither the order nor
  the number of times in which the elements came**.
-/

set_option autoImplicit false

universe u

namespace Serial

/-! ## Numbers -/

section Numbers

variable {n : Nat}

/-- The first number is the second, or less than half way ahead of it. -/
def newer (a b : BitVec (n + 1)) : Bool :=
  (a - b).toNat < 2 ^ n

/-- The number `k` places after a base. -/
def at_ (base : BitVec (n + 1)) (k : Nat) : BitVec (n + 1) :=
  base + BitVec.ofNat (n + 1) k

variable {base : BitVec (n + 1)} {j k : Nat}

theorem at_at (base : BitVec (n + 1)) (j k : Nat) : at_ (at_ base j) k = at_ base (j + k) := by
  rw [at_, at_, at_, BitVec.add_assoc, ← BitVec.ofNat_add]

theorem at_sub_at (hjk : k ≤ j) : at_ base j - at_ base k = BitVec.ofNat (n + 1) (j - k) := by
  have hj : at_ base j = at_ base k + BitVec.ofNat (n + 1) (j - k) := by
    rw [← at_, at_at, Nat.add_sub_cancel' hjk]
  rw [hj, BitVec.add_comm, BitVec.add_sub_cancel]

theorem toNat_ofNat (h : k ≤ 2 ^ n) : (BitVec.ofNat (n + 1) k).toNat = k := by
  rw [BitVec.toNat_ofNat, Nat.mod_eq_of_lt]
  have hpos := Nat.two_pow_pos n
  omega

/-- **In a window, the newer number is the one that comes later.** -/
theorem newer_iff (hj : j < 2 ^ n) (hk : k < 2 ^ n) :
    newer (at_ base j) (at_ base k) = true ↔ k ≤ j := by
  rw [newer, decide_eq_true_iff]
  rcases Nat.lt_or_ge j k with hlt | hle
  · have hsub : at_ base j - at_ base k = -BitVec.ofNat (n + 1) (k - j) := by
      rw [← at_sub_at hlt.le, neg_sub]
    have hdiff := toNat_ofNat (n := n) (k := k - j) (by omega)
    have hpow : 2 ^ (n + 1) = 2 * 2 ^ n := by ring
    rw [hsub, BitVec.toNat_neg, hdiff, Nat.mod_eq_of_lt (by omega)]
    omega
  · rw [at_sub_at hle, toNat_ofNat (by omega)]
    omega

theorem at_inj (hj : j < 2 ^ n) (hk : k < 2 ^ n) : at_ base j = at_ base k ↔ j = k := by
  refine ⟨fun h => ?_, fun h => h ▸ rfl⟩
  have hofNat := congrArg BitVec.toNat (add_left_cancel h)
  rwa [toNat_ofNat hj.le, toNat_ofNat hk.le] at hofNat

end Numbers

/-! ## Queues -/

section Queues

variable {α : Type u}

/-- Put an element behind the first one, from the end, that it is newer than; unless it is there. -/
def insertBack (same newer : α → α → Bool) (x : α) : List α → List α
  | [] => [x]
  | y :: older =>
    if same x y then y :: older
    else if newer x y then x :: y :: older
    else y :: insertBack same newer x older

variable {same newer : α → α → Bool} {key : α → Nat} {x : α} {q : List α}

/-- The comparisons with an element are those of keys. -/
structure Keyed (same newer : α → α → Bool) (key : α → Nat) (x y : α) : Prop where
  same : same x y = true ↔ key x = key y
  newer : newer x y = true ↔ key y ≤ key x

/-- The newest is the first. -/
def Sorted (key : α → Nat) (q : List α) : Prop :=
  q.Pairwise fun x y => key y < key x

theorem mem_insertBack (hkeyed : ∀ y ∈ q, Keyed same newer key x y) (hq : Sorted key q) (y : α) :
    y ∈ insertBack same newer x q ↔ y ∈ q ∨ (y = x ∧ ∀ z ∈ q, key z ≠ key x) := by
  induction q with
  | nil => simp [insertBack]
  | cons z older ih =>
    obtain ⟨hz, hq⟩ := List.pairwise_cons.1 hq
    obtain ⟨hsame, hnewer⟩ := hkeyed z List.mem_cons_self
    rw [insertBack]
    split
    · next heq =>
      have hkey := hsame.1 heq
      refine ⟨Or.inl, fun h => h.resolve_right fun hx => ?_⟩
      exact hx.2 z List.mem_cons_self hkey.symm
    · next hne =>
      have hkey : key x ≠ key z := fun h => hne (hsame.2 h)
      split
      · next hnew =>
        have hle := hnewer.1 hnew
        have hall : ∀ w ∈ z :: older, key w ≠ key x := fun w hw => by
          rcases List.mem_cons.1 hw with rfl | hw
          · exact hkey.symm
          · have := hz w hw
            omega
        rw [List.mem_cons, or_comm]
        exact or_congr_right ⟨fun h => ⟨h, hall⟩, And.left⟩
      · rw [List.mem_cons, ih (fun w hw => hkeyed w (List.mem_cons_of_mem _ hw)) hq, List.mem_cons,
          or_assoc, List.forall_mem_cons]
        exact or_congr_right (or_congr_right
          ⟨fun h => ⟨h.1, hkey.symm, h.2⟩, fun h => ⟨h.1, h.2.2⟩⟩)

theorem sorted_insertBack (hkeyed : ∀ y ∈ q, Keyed same newer key x y) (hq : Sorted key q) :
    Sorted key (insertBack same newer x q) := by
  induction q with
  | nil => exact List.pairwise_singleton _ _
  | cons z older ih =>
    obtain ⟨hz, holder⟩ := List.pairwise_cons.1 hq
    obtain ⟨hsame, hnewer⟩ := hkeyed z List.mem_cons_self
    have hkeyed' := fun w hw => hkeyed w (List.mem_cons_of_mem _ hw)
    rw [insertBack]
    split
    · exact hq
    · next hne =>
      have hkey : key x ≠ key z := fun h => hne (hsame.2 h)
      split
      · next hnew =>
        have hle := hnewer.1 hnew
        refine List.pairwise_cons.2 ⟨fun w hw => ?_, hq⟩
        rcases List.mem_cons.1 hw with rfl | hw
        · omega
        · have := hz w hw
          omega
      · next hold =>
        have hlt : ¬ key z ≤ key x := fun h => hold (hnewer.2 h)
        refine List.pairwise_cons.2 ⟨fun w hw => ?_, ih hkeyed' holder⟩
        rcases (mem_insertBack hkeyed' holder w).1 hw with hw | ⟨rfl, -⟩
        · exact hz w hw
        · omega

theorem length_insertBack_le : (insertBack same newer x q).length ≤ q.length + 1 := by
  induction q with
  | nil => exact Nat.le_refl 1
  | cons z older ih =>
    rw [insertBack]
    split
    · exact Nat.le_succ _
    · split
      · exact Nat.le_refl _
      · exact Nat.succ_le_succ ih

theorem le_length_insertBack : q.length ≤ (insertBack same newer x q).length := by
  induction q with
  | nil => exact Nat.zero_le _
  | cons z older ih =>
    rw [insertBack]
    split
    · exact Nat.le_refl _
    · split
      · exact Nat.le_succ _
      · exact Nat.succ_le_succ ih

theorem nodup_of_sorted (hq : Sorted key q) : q.Nodup :=
  hq.imp fun hlt heq => absurd (heq ▸ hlt) (Nat.lt_irrefl _)

/-- **The newest of all that has come**, as many as there is room for. -/
structure Newest (key : α → Nat) (cap : Nat) (come : α → Prop) (q : List α) : Prop where
  sorted : Sorted key q
  mem : ∀ x ∈ q, come x
  length : q.length ≤ cap
  /-- What has come and is not there is older than all that is. -/
  rest : ∀ y, come y → (∃ x ∈ q, key x = key y) ∨ q.length = cap ∧ ∀ x ∈ q, key y < key x

namespace Newest

variable {cap : Nat} {come : α → Prop}

theorem nil : Newest key cap (fun _ => False) [] :=
  ⟨.nil, List.forall_mem_nil _, Nat.zero_le cap, fun _ h => h.elim⟩

theorem insertBack (h : Newest key cap come q) (hkeyed : ∀ y ∈ q, Keyed same newer key x y) :
    Newest key cap (fun y => come y ∨ y = x) ((Serial.insertBack same newer x q).take cap) := by
  have hmem := mem_insertBack hkeyed h.sorted
  have hsorted := sorted_insertBack hkeyed h.sorted
  have hsplit := List.take_append_drop cap (Serial.insertBack same newer x q)
  -- what is left out is older than what stays
  have hdrop : ∀ y ∈ (Serial.insertBack same newer x q).take cap,
      ∀ z ∈ (Serial.insertBack same newer x q).drop cap, key z < key y := by
    have happend := hsorted
    rw [← hsplit, Sorted, List.pairwise_append] at happend
    exact happend.2.2
  have hkept : ∀ z ∈ Serial.insertBack same newer x q,
      (∃ y ∈ (Serial.insertBack same newer x q).take cap, key y = key z) ∨
        ((Serial.insertBack same newer x q).take cap).length = cap ∧
          ∀ y ∈ (Serial.insertBack same newer x q).take cap, key z < key y := by
    intro z hz
    rw [← hsplit, List.mem_append] at hz
    rcases hz with hz | hz
    · exact Or.inl ⟨z, hz, rfl⟩
    · refine Or.inr ⟨?_, fun y hy => hdrop y hy z hz⟩
      have hlength := List.length_pos_of_mem hz
      rw [List.length_drop] at hlength
      rw [List.length_take]
      omega
  refine ⟨hsorted.sublist (List.take_sublist _ _), fun y hy => ?_, ?_, fun y hy => ?_⟩
  · exact ((hmem y).1 (List.mem_of_mem_take hy)).imp (h.mem y) And.left
  · rw [List.length_take]
    omega
  · rcases hy with hy | rfl
    · rcases h.rest y hy with ⟨z, hz, hkey⟩ | ⟨hfull, hold⟩
      · have := hkept z ((hmem z).2 (.inl hz))
        rwa [hkey] at this
      · have hlength : q.length ≤ (Serial.insertBack same newer x q).length :=
          le_length_insertBack
        refine Or.inr ⟨by rw [List.length_take]; omega, fun w hw => ?_⟩
        rcases (hmem w).1 (List.mem_of_mem_take hw) with hwq | ⟨rfl, hne⟩
        · exact hold w hwq
        · by_contra hlate
          -- then all of the queue is before the new element, which is left without room
          have hsub : w :: q ⊆ (Serial.insertBack same newer w q).take cap := by
            intro z hz
            rcases List.mem_cons.1 hz with rfl | hz
            · exact hw
            · have hzmem := (hmem z).2 (.inl hz)
              rw [← hsplit, List.mem_append] at hzmem
              refine hzmem.resolve_right fun hzdrop => ?_
              have := hdrop w hw z hzdrop
              have := hold z hz
              omega
          have hnodup : (w :: q).Nodup :=
            List.nodup_cons.2 ⟨fun hwq => hne w hwq rfl, nodup_of_sorted h.sorted⟩
          have hle := (hnodup.subperm hsub).length_le
          rw [List.length_cons, List.length_take] at hle
          omega
    · by_cases hold : ∃ z ∈ q, key z = key y
      · obtain ⟨z, hz, hkey⟩ := hold
        have := hkept z ((hmem z).2 (.inl hz))
        rwa [hkey] at this
      · exact hkept y ((hmem y).2 (.inr ⟨rfl, fun z hz hkey => hold ⟨z, hz, hkey⟩⟩))

theorem congr {come' : α → Prop} (h : Newest key cap come q) (hiff : ∀ x, come x ↔ come' x) :
    Newest key cap come' q :=
  ⟨h.sorted, fun x hx => (hiff x).1 (h.mem x hx), h.length, fun y hy => h.rest y ((hiff y).2 hy)⟩

/-- What one queue holds, another one for the same elements holds as well. -/
theorem subset {q' : List α} (h : Newest key cap come q) (h' : Newest key cap come q')
    (hinj : ∀ x y, come x → come y → key x = key y → x = y) : q ⊆ q' := by
  intro x hx
  rcases h'.rest x (h.mem x hx) with ⟨y, hy, hkey⟩ | ⟨hfull, hold⟩
  · exact hinj y x (h'.mem y hy) (h.mem x hx) hkey ▸ hy
  · -- everything in the other queue is newer, and so is in this one, together with `x`
    have hsub : x :: q' ⊆ q := by
      intro y hy
      rcases List.mem_cons.1 hy with rfl | hy
      · exact hx
      · rcases h.rest y (h'.mem y hy) with ⟨z, hz, hkey⟩ | ⟨-, hold'⟩
        · exact hinj z y (h.mem z hz) (h'.mem y hy) hkey ▸ hz
        · exact absurd (hold' x hx) (Nat.lt_asymm (hold y hy))
    have hnodup : (x :: q').Nodup :=
      List.nodup_cons.2 ⟨fun hxq => absurd (hold x hxq) (Nat.lt_irrefl _), nodup_of_sorted h'.sorted⟩
    have hle := (hnodup.subperm hsub).length_le
    have := h.length
    rw [List.length_cons] at hle
    omega

/-- **Two queues for the same elements are the same.** -/
theorem eq {q' : List α} (h : Newest key cap come q) (h' : Newest key cap come q')
    (hinj : ∀ x y, come x → come y → key x = key y → x = y) : q = q' := by
  have hperm : q.Perm q' :=
    (List.perm_ext_iff_of_nodup (nodup_of_sorted h.sorted) (nodup_of_sorted h'.sorted)).2 fun x =>
      ⟨fun hx => h.subset h' hinj hx, fun hx => h'.subset h hinj hx⟩
  exact hperm.eq_of_pairwise (fun x y _ _ hxy hyx => absurd hxy (Nat.lt_asymm hyx)) h.sorted h'.sorted

end Newest

end Queues

end Serial
