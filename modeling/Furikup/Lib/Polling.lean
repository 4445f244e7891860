import Furikup.Lib.Machine

/-!
# Threads that poll a flag

A machine owns a flag and starts threads that work as long as they find it set.  Setting it starts
one more thread, clearing it is all that is done to end one, so a thread that looks at the wrong
time is missed.

* `Program` — what such a thread does, an atomic step at a time.
* `Owner` — a machine that in one step sets the flag, clears it or does neither.
* `Crew`, `crewStep` — the owner and its threads, in any order of turns.  A thread remembers whether
  the flag was cleared since it was started.
* `Crew.Sound` — at most one thread is in its loop, and none has acted after the flag was cleared.
  `Crew.Safe` asks for that in whatever order the threads go on.
* `safe_iff_along` — **a crew is safe throughout a run** exactly when no thread is started before
  the others are through, and the flag is not cleared while one of them is about to act.
-/

set_option autoImplicit false

namespace Polling

open Machine

/-! ## Threads and their owner -/

/-- What a thread does. -/
structure Program (π α : Type) where
  start : π
  /-- One step, on what the flag reads and on what the rest of the world returns. -/
  next : Bool → α → π → π
  /-- It has left its loop. -/
  done : π → Bool
  /-- It acts with its next step, whatever the flag reads then. -/
  acting : π → Bool
  next_done : ∀ flag a pc, done pc = true → next flag a pc = pc
  start_loops : done start = false
  acting_loops : ∀ pc, acting pc = true → done pc = false
  /-- It has seen the flag before it acts. -/
  flag_of_acting : ∀ flag a pc, acting (next flag a pc) = true → flag = true

structure Thread (π : Type) where
  pc : π
  /-- The flag was cleared since the thread was started. -/
  cleared : Bool := false
  deriving DecidableEq, Repr

/-- The flag is read: a thread that finds it cleared remembers that. -/
def Thread.hear {π : Type} (flag : Bool) (t : Thread π) : Thread π :=
  { t with cleared := t.cleared || !flag }

/-- What one step does to the flag and to the number of threads that were started. -/
inductive OneCall (mute flag : Bool) (n : Nat) (flag' : Bool) (n' : Nat) : Prop
  | nothing (hflag : flag' = flag) (hn : n' = n)
  | start (hmute : mute = false) (hflag : flag' = true) (hn : n' = n + 1)
  /-- The flag is set, but no thread can be started. -/
  | mute (hmute : mute = true) (hflag : flag' = true) (hn : n' = n)
  | stop (hflag : flag' = false) (hn : n' = n)

/-- A machine that owns a flag and the threads that poll it. -/
structure Owner {σ ι ε : Type} (step : ι → σ → Except ε σ) where
  flag : σ → Bool
  /-- How many threads were started. -/
  started : σ → Nat
  /-- No thread can be started. -/
  mute : σ → Bool
  mute_step : ∀ i s s', step i s = .ok s' → mute s' = mute s
  one_call : ∀ i s s', step i s = .ok s' →
    OneCall (mute s) (flag s) (started s) (flag s') (started s')

structure Crew (σ π : Type) where
  owner : σ
  threads : List (Thread π) := []
  /-- The threads that acted, as they were then, latest first. -/
  acts : List (Thread π) := []
  deriving DecidableEq, Repr

/-- One slot of a schedule: whose turn it is. -/
inductive Slot (ι α : Type)
  | owner (i : ι)
  | thread (k : Nat) (a : α)
  deriving DecidableEq, Repr

section Crew

variable {σ ι ε π α : Type} {step : ι → σ → Except ε σ} (prog : Program π α) (own : Owner step)

/-- The owner has come to the state `o`. -/
def Crew.follow (o : σ) (s : Crew σ π) : Crew σ π where
  owner := o
  threads := s.threads.map (Thread.hear (own.flag o)) ++
    List.replicate (own.started o - own.started s.owner) { pc := prog.start }
  acts := s.acts

/-- One step of the thread at position `k`, if there is one. -/
def Crew.tick (k : Nat) (a : α) (s : Crew σ π) : Crew σ π :=
  match s.threads[k]? with
  | some t =>
    { s with
      threads := s.threads.set k { t with pc := prog.next (own.flag s.owner) a t.pc }
      acts := if prog.acting t.pc then t :: s.acts else s.acts }
  | none => s

def crewStep : Slot ι α → Crew σ π → Except ε (Crew σ π)
  | .owner i, s => (step i s.owner).map fun o => s.follow prog own o
  | .thread k a, s => .ok (s.tick prog own k a)

/-- The threads go on while the owner rests. -/
def Crew.goOn (ticks : List (Nat × α)) (s : Crew σ π) : Crew σ π :=
  ticks.foldl (fun s tick => s.tick prog own tick.1 tick.2) s

/-! ## What is asked of them -/

/-- At most one thread is in its loop, and none acted after the flag was cleared. -/
structure Crew.Sound (s : Crew σ π) : Prop where
  one : s.threads.countP (fun t => !prog.done t.pc) ≤ 1
  acts : ∀ t ∈ s.acts, t.cleared = false

/-- Sound however the threads go on. -/
def Crew.Safe (s : Crew σ π) : Prop :=
  ∀ ticks, (s.goOn prog own ticks).Sound prog

/-- A thread is only started when the others are through, and the flag is only cleared when none is
about to act. -/
def Orderly (s : Crew σ π) : Slot ι α → Prop
  | .owner i => ∀ o, step i s.owner = .ok o →
    (own.started o ≠ own.started s.owner → ∀ t ∈ s.threads, prog.done t.pc = true) ∧
    (own.flag o = false → ∀ t ∈ s.threads, prog.acting t.pc = false)
  | .thread _ _ => True

/-! ## The invariant -/

structure CrewInv (s : Crew σ π) : Prop where
  one : s.threads.countP (fun t => !prog.done t.pc) ≤ 1
  acts : ∀ t ∈ s.acts, t.cleared = false
  /-- While the flag is set, a thread that is left has not seen it cleared. -/
  fresh : own.flag s.owner = true → ∀ t ∈ s.threads, prog.done t.pc = false → t.cleared = false
  /-- While it is not, no thread is about to act. -/
  quiet : own.flag s.owner = false → ∀ t ∈ s.threads, prog.acting t.pc = false
  mute : own.mute s.owner = true → s.threads = []

variable {prog own}

theorem crewInv_start (o : σ) : CrewInv prog own { owner := o } where
  one := Nat.zero_le 1
  acts := by simp
  fresh := by simp
  quiet := by simp
  mute _ := rfl

/-- A thread that is in its loop after its step was in it before. -/
theorem done_of_next {flag : Bool} {a : α} {pc : π} (h : prog.done (prog.next flag a pc) = false) :
    prog.done pc = false := by
  cases hpc : prog.done pc with
  | false => rfl
  | true =>
    rw [prog.next_done flag a pc hpc] at h
    exact absurd (hpc.symm.trans h) (by decide)

/-- A replacement that does not bring in what is counted. -/
theorem countP_set_le {τ : Type} {p : τ → Bool} {l : List τ} {k : Nat} {t t' : τ}
    (hk : l[k]? = some t) (hp : p t' = true → p t = true) :
    (l.set k t').countP p ≤ l.countP p := by
  obtain ⟨hlt, rfl⟩ := List.getElem?_eq_some_iff.1 hk
  rw [List.countP_set hlt]
  cases ht' : p t' with
  | false => simp
  | true =>
    have hpos : 0 < l.countP p := List.countP_pos_iff.2 ⟨_, List.getElem_mem hlt, hp ht'⟩
    simp only [hp ht', if_true]
    omega

theorem CrewInv.tick {s : Crew σ π} (hs : CrewInv prog own s) (k : Nat) (a : α) :
    CrewInv prog own (s.tick prog own k a) := by
  rw [Crew.tick]
  cases hk : s.threads[k]? with
  | none => exact hs
  | some t =>
    have ht : t ∈ s.threads := List.mem_of_getElem? hk
    refine ⟨?_, ?_, ?_, ?_, ?_⟩
    · refine (countP_set_le hk ?_).trans hs.one
      simp only [Bool.not_eq_true']
      exact done_of_next
    · intro u hu
      -- If it acts, the flag is set and it has not seen it cleared.
      cases hacting : prog.acting t.pc with
      | false =>
        simp only [hacting, Bool.false_eq_true, if_false] at hu
        exact hs.acts u hu
      | true =>
        simp only [hacting, if_true, List.mem_cons] at hu
        rcases hu with rfl | hu
        · have hflag : own.flag s.owner = true := by
            by_contra hflag
            have hquiet := hs.quiet (Bool.eq_false_of_not_eq_true hflag) u ht
            exact absurd (hacting.symm.trans hquiet) (by decide)
          exact hs.fresh hflag u ht (prog.acting_loops _ hacting)
        · exact hs.acts u hu
    · intro hflag u hu hdone
      rcases List.mem_or_eq_of_mem_set hu with hu | rfl
      · exact hs.fresh hflag u hu hdone
      · exact hs.fresh hflag t ht (done_of_next hdone)
    · intro hflag u hu
      rcases List.mem_or_eq_of_mem_set hu with hu | rfl
      · exact hs.quiet hflag u hu
      · apply Bool.eq_false_of_not_eq_true
        intro hacting
        have hset : own.flag s.owner = true := prog.flag_of_acting _ _ _ hacting
        exact absurd (hset.symm.trans hflag) (by decide)
    · intro hmute
      rw [hs.mute hmute] at ht
      exact absurd ht List.not_mem_nil

/-- Hearing of the flag leaves the threads where they are. -/
theorem countP_map_hear (flag : Bool) (threads : List (Thread π)) :
    (threads.map (Thread.hear flag)).countP (fun t => !prog.done t.pc) =
      threads.countP fun t => !prog.done t.pc := by
  rw [List.countP_map]
  rfl

theorem threads_follow {o : σ} {s : Crew σ π} (h : own.started o = own.started s.owner) :
    (s.follow prog own o).threads = s.threads.map (Thread.hear (own.flag o)) := by
  rw [Crew.follow, h, Nat.sub_self, List.replicate_zero, List.append_nil]

theorem threads_follow_start {o : σ} {s : Crew σ π}
    (h : own.started o = own.started s.owner + 1) :
    (s.follow prog own o).threads =
      s.threads.map (Thread.hear (own.flag o)) ++ [{ pc := prog.start }] := by
  rw [Crew.follow, h, Nat.add_sub_cancel_left, List.replicate_one]

/-- A step of the owner after which the flag is cleared, or is what it was. -/
theorem CrewInv.follow_hear {o : σ} {s : Crew σ π} (hs : CrewInv prog own s)
    (hstarted : own.started o = own.started s.owner) (hmute : own.mute o = own.mute s.owner)
    (hset : own.flag o = true → own.flag s.owner = true)
    (hclear : own.flag o = false → ∀ t ∈ s.threads, prog.acting t.pc = false) :
    CrewInv prog own (s.follow prog own o) := by
  have hthreads : (s.follow prog own o).threads = s.threads.map (Thread.hear (own.flag o)) :=
    threads_follow hstarted
  refine ⟨?_, hs.acts, ?_, ?_, ?_⟩
  · rw [hthreads, countP_map_hear]
    exact hs.one
  · intro hflag t ht hdone
    rw [hthreads] at ht
    obtain ⟨u, hu, rfl⟩ := List.mem_map.1 ht
    have hflag' : own.flag o = true := hflag
    simp only [Thread.hear, hflag', Bool.not_true, Bool.or_false]
    exact hs.fresh (hset hflag) u hu hdone
  · intro hflag t ht
    rw [hthreads] at ht
    obtain ⟨u, hu, rfl⟩ := List.mem_map.1 ht
    exact hclear hflag u hu
  · intro ho
    rw [hthreads, hs.mute (hmute.symm.trans ho), List.map_nil]

/-- A step of the owner that starts a thread when the others are through. -/
theorem CrewInv.follow_start {o : σ} {s : Crew σ π} (hs : CrewInv prog own s)
    (hstarted : own.started o = own.started s.owner + 1) (hflag : own.flag o = true)
    (hmute : own.mute o = false) (hover : ∀ t ∈ s.threads, prog.done t.pc = true) :
    CrewInv prog own (s.follow prog own o) := by
  have hthreads : (s.follow prog own o).threads =
      s.threads.map (Thread.hear (own.flag o)) ++ [{ pc := prog.start }] :=
    threads_follow_start hstarted
  refine ⟨?_, hs.acts, ?_, ?_, ?_⟩
  · have hnone : s.threads.countP (fun t => !prog.done t.pc) = 0 := by
      rw [List.countP_eq_zero]
      intro t ht
      simp [hover t ht]
    rw [hthreads, List.countP_append, countP_map_hear, hnone, Nat.zero_add]
    exact List.countP_le_length
  · intro _ t ht hdone
    rw [hthreads, List.mem_append, List.mem_singleton] at ht
    rcases ht with ht | rfl
    · obtain ⟨u, hu, rfl⟩ := List.mem_map.1 ht
      exact absurd ((hover u hu).symm.trans hdone) (by decide)
    · rfl
  · intro hcleared
    exact absurd (hflag.symm.trans hcleared) (by decide)
  · intro ho
    exact absurd (hmute.symm.trans ho) (by decide)

/-- A step of the owner that is in order. -/
theorem CrewInv.follow {i : ι} {o : σ} {s : Crew σ π} (hs : CrewInv prog own s)
    (hstep : step i s.owner = .ok o) (horderly : Orderly prog own s (.owner i : Slot ι α)) :
    CrewInv prog own (s.follow prog own o) := by
  obtain ⟨hstart, hclear⟩ := horderly o hstep
  have hmute := own.mute_step i s.owner o hstep
  cases own.one_call i s.owner o hstep with
  | nothing hflag hn => exact hs.follow_hear hn hmute hflag.symm.trans hclear
  | start hsound hflag hn =>
    exact hs.follow_start hn hflag (hmute.trans hsound) (hstart (by omega))
  | mute hsilent hflag hn =>
    -- There is no thread that could hear it.
    have hnil := hs.mute hsilent
    refine ⟨?_, hs.acts, ?_, ?_, ?_⟩
    · simp [threads_follow hn, hnil]
    · simp [threads_follow hn, hnil]
    · simp [threads_follow hn, hnil]
    · simp [threads_follow hn, hnil]
  | stop hflag hn =>
    refine hs.follow_hear hn hmute ?_ hclear
    intro hset
    exact absurd (hset.symm.trans hflag) (by decide)

theorem CrewInv.sound {s : Crew σ π} (hs : CrewInv prog own s) : s.Sound prog :=
  ⟨hs.one, hs.acts⟩

/-- The threads keep a crew that is in order sound. -/
theorem CrewInv.safe {s : Crew σ π} (hs : CrewInv prog own s) : s.Safe prog own := by
  intro ticks
  have hgoOn : CrewInv prog own (s.goOn prog own ticks) := by
    induction ticks generalizing s with
    | nil => exact hs
    | cons tick ticks ih => exact ih (hs.tick tick.1 tick.2)
  exact hgoOn.sound

/-! ## When it is kept -/

/-- A thread that is started beside another one makes two. -/
theorem over_of_sound {o : σ} {s : Crew σ π}
    (hstarted : own.started o = own.started s.owner + 1)
    (hsound : (s.follow prog own o).Sound prog) : ∀ t ∈ s.threads, prog.done t.pc = true := by
  have hone := hsound.one
  rw [threads_follow_start hstarted, List.countP_append, countP_map_hear] at hone
  have hnew : [({ pc := prog.start } : Thread π)].countP (fun t => !prog.done t.pc) = 1 := by
    simp [prog.start_loops]
  have hnone : s.threads.countP (fun t => !prog.done t.pc) = 0 := by omega
  rw [List.countP_eq_zero] at hnone
  intro t ht
  simpa using hnone t ht

/-- A thread that is about to act when the flag is cleared still acts. -/
theorem quiet_of_safe [Inhabited α] {o : σ} {s : Crew σ π} (hflag : own.flag o = false)
    (hstarted : own.started o = own.started s.owner)
    (hsafe : (s.follow prog own o).Safe prog own) : ∀ t ∈ s.threads, prog.acting t.pc = false := by
  intro t ht
  apply Bool.eq_false_of_not_eq_true
  intro hacting
  obtain ⟨k, hk⟩ := List.getElem?_of_mem ht
  have hget : (s.follow prog own o).threads[k]? = some (t.hear false) := by
    rw [threads_follow hstarted, List.getElem?_map, hk, hflag, Option.map_some]
  have hacts := (hsafe [(k, default)]).acts (t.hear false) (by
    rw [Crew.goOn, List.foldl_cons, List.foldl_nil, Crew.tick, hget]
    have hact : prog.acting (t.hear false).pc = true := hacting
    simp [hact])
  rw [Thread.hear] at hacts
  simp at hacts

theorem started_of_cleared {mute flag flag' : Bool} {n n' : Nat}
    (h : OneCall mute flag n flag' n') (hflag : flag' = false) : n' = n := by
  cases h with
  | nothing _ hn => exact hn
  | start _ hset => exact absurd (hset.symm.trans hflag) (by decide)
  | mute _ _ hn => exact hn
  | stop _ hn => exact hn

theorem started_of_ne {mute flag flag' : Bool} {n n' : Nat} (h : OneCall mute flag n flag' n')
    (hne : n' ≠ n) : n' = n + 1 := by
  cases h with
  | nothing _ hn => exact absurd hn hne
  | start _ _ hn => exact hn
  | mute _ _ hn => exact absurd hn hne
  | stop _ hn => exact absurd hn hne

theorem crewInv_step {slot : Slot ι α} {s s' : Crew σ π} (hs : CrewInv prog own s)
    (horderly : Orderly prog own s slot) (h : crewStep prog own slot s = .ok s') :
    CrewInv prog own s' := by
  cases slot with
  | owner i =>
    rw [crewStep] at h
    cases hstep : step i s.owner with
    | error e =>
      rw [hstep] at h
      cases h
    | ok o =>
      rw [hstep] at h
      obtain rfl := Except.ok.inj h
      exact hs.follow hstep horderly
  | thread k a =>
    obtain rfl := Except.ok.inj h
    exact hs.tick k a

theorem orderly_of_safe [Inhabited α] {slot : Slot ι α} {s s' : Crew σ π}
    (h : crewStep prog own slot s = .ok s') (hsafe : s'.Safe prog own) :
    Orderly prog own s slot := by
  cases slot with
  | owner i =>
    intro o hstep
    rw [crewStep, hstep] at h
    obtain rfl := Except.ok.inj h
    have hcall := own.one_call i s.owner o hstep
    constructor
    · intro hne
      exact over_of_sound (started_of_ne hcall hne) (hsafe [])
    · intro hflag
      exact quiet_of_safe hflag (started_of_cleared hcall hflag) hsafe
  | thread k a => trivial

/-- **Safe exactly when orderly**, in every run of a crew that starts without threads. -/
theorem safe_iff_along [Inhabited α] (o : σ) (slots : List (Slot ι α)) :
    Always (crewStep prog own) (Crew.Safe prog own) slots { owner := o } ↔
      Along (crewStep prog own) (Orderly prog own) slots { owner := o } :=
  always_iff_along (A := fun _ => True) (fun _ hs => hs.safe)
    (fun _ _ _ _ hs horderly h => crewInv_step hs horderly h)
    (fun _ _ _ _ h hsafe => orderly_of_safe h hsafe) (fun _ _ => trivial) (crewInv_start o)

end Crew

end Polling
