import Furikup.Rtp.Packet
import Furikup.Lib.Serial

/-!
# The queue of packets that have come in

Packets are queued by their sequence numbers, which wrap around after 65535, and taken out by their
timestamps, which wrap around as well.

* `rtpPutq`, `splitAndQueue` — how a packet gets into the queue, and what falls out of it.
* `rtpGetq`, `rtpGetqPermissive` — what is taken out for a timestamp.
* `queue_independent_of_order` — **what is in the queue depends on neither the order in which the
  packets have come in nor on how often**, as long as they are of one half of the sequence numbers.
-/

set_option autoImplicit false

namespace Furikup
namespace Rtp

open Serial

/-- The first packet is the oldest. -/
abbrev Queue := List Packet

/-- `RTP_SEQ_IS_GREATER` -/
def rtpSeqIsGreater (seq1 seq2 : BitVec 16) : Bool :=
  newer (n := 15) seq1 seq2

/-- `RTP_TIMESTAMP_IS_NEWER_THAN` -/
def rtpTimestampIsNewerThan (ts1 ts2 : BitVec 32) : Bool :=
  newer (n := 31) ts1 ts2

/-- `RTP_TIMESTAMP_IS_STRICTLY_NEWER_THAN` -/
def rtpTimestampIsStrictlyNewerThan (ts1 ts2 : BitVec 32) : Bool :=
  rtpTimestampIsNewerThan ts1 ts2 && ts1 != ts2

def sameSeq (p q : Packet) : Bool :=
  p.header.seqNumber == q.header.seqNumber

def greaterSeq (p q : Packet) : Bool :=
  rtpSeqIsGreater p.header.seqNumber q.header.seqNumber

/-- `rtp_putq`, which looks from the end for the packet to put the new one behind. -/
def rtpPutq (q : Queue) (mp : Packet) : Queue :=
  (insertBack sameSeq greaterSeq mp q.reverse).reverse

/-- The loop at the end of `split_and_queue`: the packets that fall out, and those that stay. -/
def discardOldest (maxrqsz : Nat) : Queue → List Packet × Queue
  | [] => ([], [])
  | p :: rest =>
    if maxrqsz < (p :: rest).length then
      let r := discardOldest maxrqsz rest
      (p :: r.1, r.2)
    else ([], p :: rest)

/-- `split_and_queue`: the packets it discards, and the queue.  A packet without data is not
queued. -/
def splitAndQueue (maxrqsz : Nat) (q : Queue) (mp : Packet) : List Packet × Queue :=
  if mp.payload = [] then ([mp], q) else discardOldest maxrqsz (rtpPutq q mp)

/-- The loop of `rtp_getq`: the packets it rejects, the one it returns, and the queue. -/
def rtpGetqLoop (timestamp : BitVec 32) :
    Option Packet → Queue → List Packet × Option Packet × Queue
  | ret, [] => ([], ret, [])
  | ret, tmp :: rest =>
    if rtpTimestampIsNewerThan timestamp tmp.header.timestamp then
      match ret with
      | none => rtpGetqLoop timestamp (some tmp) rest
      | some old =>
        if tmp.header.timestamp = old.header.timestamp then ([], some old, tmp :: rest)
        else
          let r := rtpGetqLoop timestamp (some tmp) rest
          (old :: r.1, r.2)
    else ([], ret, tmp :: rest)

/-- `rtp_getq` -/
def rtpGetq (timestamp : BitVec 32) (q : Queue) : List Packet × Option Packet × Queue :=
  rtpGetqLoop timestamp none q

/-- `rtp_getq_permissive`, which rejects nothing. -/
def rtpGetqPermissive (timestamp : BitVec 32) (q : Queue) : List Packet × Option Packet × Queue :=
  match q with
  | [] => ([], none, [])
  | tmp :: rest =>
    if rtpTimestampIsNewerThan timestamp tmp.header.timestamp then ([], some tmp, rest)
    else ([], none, tmp :: rest)

/-! ## What is taken out -/

theorem rtpGetqLoop_append (timestamp : BitVec 32) (ret : Option Packet) (q : Queue) :
    (rtpGetqLoop timestamp ret q).1 ++ (rtpGetqLoop timestamp ret q).2.1.toList ++
      (rtpGetqLoop timestamp ret q).2.2 = ret.toList ++ q := by
  induction q generalizing ret with
  | nil => simp [rtpGetqLoop]
  | cons tmp rest ih =>
    rw [rtpGetqLoop.eq_def]
    dsimp only
    split
    · cases ret with
      | none => exact ih (some tmp)
      | some old =>
        dsimp only
        split
        · simp
        · have hrest := ih (some tmp)
          simpa using hrest
    · simp

/-- **Nothing is lost**: what was in the queue is rejected, returned or still there, in this
order. -/
theorem rtpGetq_append (timestamp : BitVec 32) (q : Queue) :
    (rtpGetq timestamp q).1 ++ (rtpGetq timestamp q).2.1.toList ++ (rtpGetq timestamp q).2.2 = q := by
  rw [rtpGetq, rtpGetqLoop_append]
  rfl

theorem rtpGetqPermissive_append (timestamp : BitVec 32) (q : Queue) :
    (rtpGetqPermissive timestamp q).1 ++ (rtpGetqPermissive timestamp q).2.1.toList ++
      (rtpGetqPermissive timestamp q).2.2 = q := by
  rw [rtpGetqPermissive.eq_def]
  cases q with
  | nil => rfl
  | cons tmp rest =>
    dsimp only
    split <;> rfl

/-! ## What gets in -/

theorem discardOldest_append (maxrqsz : Nat) (q : Queue) :
    (discardOldest maxrqsz q).1 ++ (discardOldest maxrqsz q).2 = q := by
  induction q with
  | nil => rfl
  | cons p rest ih =>
    rw [discardOldest]
    split
    · exact congrArg (p :: ·) ih
    · rfl

theorem reverse_discardOldest (maxrqsz : Nat) (q : Queue) :
    (discardOldest maxrqsz q).2.reverse = q.reverse.take maxrqsz := by
  induction q with
  | nil => simp [discardOldest]
  | cons p rest ih =>
    rw [discardOldest]
    split
    · next hlong =>
      rw [List.length_cons] at hlong
      rw [ih, List.reverse_cons, List.take_append_of_le_length]
      rw [List.length_reverse]
      omega
    · next hshort =>
      rw [List.take_of_length_le]
      rw [List.length_reverse]
      omega

section Window

/-- How far behind the base the sequence number of a packet is. -/
def place (base : BitVec 16) (p : Packet) : Nat :=
  (p.header.seqNumber - base).toNat

/-- The packet is of the half of the sequence numbers that begins with the base. -/
def InWindow (base : BitVec 16) (p : Packet) : Prop :=
  place base p < 32768

instance (base : BitVec 16) (p : Packet) : Decidable (InWindow base p) :=
  inferInstanceAs (Decidable (_ < _))

variable {base : BitVec 16}

theorem seqNumber_eq (base : BitVec 16) (p : Packet) :
    p.header.seqNumber = at_ (n := 15) base (place base p) := by
  rw [at_, place, BitVec.ofNat_toNat, BitVec.setWidth_eq, add_sub_cancel]

/-- **In a window, sequence numbers are compared as the places are.** -/
theorem keyed_place {p q : Packet} (hp : InWindow base p) (hq : InWindow base q) :
    Keyed sameSeq greaterSeq (place base) p q where
  same := by
    rw [sameSeq, beq_iff_eq, seqNumber_eq base p, seqNumber_eq base q]
    exact at_inj hp hq
  newer := by
    rw [greaterSeq, rtpSeqIsGreater, seqNumber_eq base p, seqNumber_eq base q]
    exact newer_iff hp hq

/-- What becomes of the queue and of a packet that comes in. -/
theorem splitAndQueue_spec (maxrqsz : Nat) {q : Queue} {mp : Packet} (hmp : InWindow base mp)
    (hq : ∀ p ∈ q, InWindow base p) (hsorted : Sorted (place base) q.reverse) :
    Sorted (place base) (splitAndQueue maxrqsz q mp).2.reverse ∧
      (∀ p, p ∈ (splitAndQueue maxrqsz q mp).1 ∨ p ∈ (splitAndQueue maxrqsz q mp).2 →
        p ∈ q ∨ p = mp) ∧
      (∀ p ∈ q, p ∈ (splitAndQueue maxrqsz q mp).1 ∨ p ∈ (splitAndQueue maxrqsz q mp).2) ∧
      (mp ∈ (splitAndQueue maxrqsz q mp).1 ∨ mp ∈ (splitAndQueue maxrqsz q mp).2 ∨
        ∃ p ∈ q, place base p = place base mp) := by
  rw [splitAndQueue]
  split
  · exact ⟨hsorted, fun p hp => hp.symm.imp_right List.eq_of_mem_singleton, fun p hp => Or.inr hp,
      Or.inl List.mem_cons_self⟩
  · have hkeyed : ∀ p ∈ q.reverse, Keyed sameSeq greaterSeq (place base) mp p := fun p hp =>
      keyed_place hmp (hq p (List.mem_reverse.1 hp))
    have hmem : ∀ p, p ∈ rtpPutq q mp ↔ p ∈ q ∨ (p = mp ∧ ∀ z ∈ q, place base z ≠ place base mp) := by
      intro p
      rw [rtpPutq, List.mem_reverse, mem_insertBack hkeyed hsorted]
      simp only [List.mem_reverse]
    have hparts := discardOldest_append maxrqsz (rtpPutq q mp)
    have hpart : ∀ p, p ∈ rtpPutq q mp ↔ p ∈ (discardOldest maxrqsz (rtpPutq q mp)).1 ∨
        p ∈ (discardOldest maxrqsz (rtpPutq q mp)).2 := fun p => by
      rw [← List.mem_append, hparts]
    refine ⟨?_, fun p hp => ?_, fun p hp => ?_, ?_⟩
    · rw [reverse_discardOldest, rtpPutq, List.reverse_reverse]
      exact (sorted_insertBack hkeyed hsorted).sublist (List.take_sublist _ _)
    · exact ((hmem p).1 ((hpart p).2 hp)).imp_right And.left
    · exact (hpart p).1 ((hmem p).2 (.inl hp))
    · by_cases hold : ∃ p ∈ q, place base p = place base mp
      · exact Or.inr (.inr hold)
      · have hnew := (hpart mp).1 ((hmem mp).2 (.inr ⟨rfl, fun z hz h => hold ⟨z, hz, h⟩⟩))
        exact hnew.imp_right Or.inl

/-- The queue holds the newest of the packets with data that have come in. -/
def Holds (base : BitVec 16) (maxrqsz : Nat) (come : Packet → Prop) (q : Queue) : Prop :=
  Newest (place base) maxrqsz (fun p => come p ∧ p.payload ≠ []) q.reverse

/-- A packet comes in. -/
theorem Holds.splitAndQueue {maxrqsz : Nat} {come : Packet → Prop} {q : Queue} {mp : Packet}
    (h : Holds base maxrqsz come q) (hmp : InWindow base mp) (hcome : ∀ p, come p → InWindow base p) :
    Holds base maxrqsz (fun p => come p ∨ p = mp) (Rtp.splitAndQueue maxrqsz q mp).2 := by
  rw [Rtp.splitAndQueue]
  split
  · next hempty =>
    refine h.congr fun p => ⟨fun hp => ⟨.inl hp.1, hp.2⟩, fun hp => ⟨?_, hp.2⟩⟩
    refine hp.1.resolve_right ?_
    rintro rfl
    exact hp.2 hempty
  · next hdata =>
    rw [Holds, reverse_discardOldest, rtpPutq, List.reverse_reverse]
    have hinsert := h.insertBack fun p hp => keyed_place hmp (hcome p (h.mem p hp).1)
    refine hinsert.congr fun p => ?_
    constructor
    · rintro (hp | rfl)
      · exact ⟨.inl hp.1, hp.2⟩
      · exact ⟨.inr rfl, hdata⟩
    · rintro ⟨hp | rfl, hp'⟩
      · exact Or.inl ⟨hp, hp'⟩
      · exact Or.inr rfl

theorem holds_foldl {maxrqsz : Nat} {come : Packet → Prop} {q : Queue} {ps : List Packet}
    (h : Holds base maxrqsz come q) (hcome : ∀ p, come p → InWindow base p)
    (hps : ∀ p ∈ ps, InWindow base p) :
    Holds base maxrqsz (fun p => come p ∨ p ∈ ps)
      (ps.foldl (fun q mp => (Rtp.splitAndQueue maxrqsz q mp).2) q) := by
  induction ps generalizing q come with
  | nil => exact h.congr fun p => by simp
  | cons mp ps ih =>
    have hmp := hps mp List.mem_cons_self
    have hnext := ih (h.splitAndQueue hmp hcome)
      (fun p hp => hp.elim (hcome p) fun heq => heq ▸ hmp)
      fun p hp => hps p (List.mem_cons_of_mem _ hp)
    exact hnext.congr fun p => by simp [or_assoc]

/-- **The queue puts packets in order**: two networks that deliver the same packets, in whatever
order and however often, leave the same queue. -/
theorem queue_independent_of_order (maxrqsz : Nat) {ps qs : List Packet}
    (hps : ∀ p ∈ ps, InWindow base p) (hmem : ∀ p, p ∈ ps ↔ p ∈ qs)
    (hinj : ∀ p ∈ ps, ∀ q ∈ ps, p.header.seqNumber = q.header.seqNumber → p = q) :
    ps.foldl (fun q mp => (splitAndQueue maxrqsz q mp).2) [] =
      qs.foldl (fun q mp => (splitAndQueue maxrqsz q mp).2) [] := by
  have hnil : Holds base maxrqsz (fun _ => False) [] := Newest.nil.congr fun p => by simp
  have hp := holds_foldl hnil (fun _ h => h.elim) hps
  have hq := holds_foldl hnil (fun _ h => h.elim) fun p hp => hps p ((hmem p).2 hp)
  have hq' : Holds base maxrqsz (fun p => False ∨ p ∈ ps)
      (qs.foldl (fun q mp => (splitAndQueue maxrqsz q mp).2) []) :=
    hq.congr fun p => by simp [hmem p]
  refine List.reverse_injective (hp.eq hq' fun p q hp hq hplace => ?_)
  refine hinj p (hp.1.resolve_left id) q (hq.1.resolve_left id) ?_
  rw [seqNumber_eq base p, seqNumber_eq base q, hplace]

/-- A packet of silence. -/
def silence (seqNumber : BitVec 16) : Packet where
  header := ⟨2, 0, 0, 0, 0, 0, seqNumber, 0, 1, []⟩
  payload := [255]

theorem queue_independent_of_order_wrap :
    ([silence 65535, silence 0, silence 1].foldl (fun q mp => (splitAndQueue 2 q mp).2) [] =
        [silence 0, silence 1]) ∧
      [silence 65535, silence 0, silence 1].foldl (fun q mp => (splitAndQueue 2 q mp).2) [] =
        [silence 1, silence 65535, silence 1, silence 0].foldl
          (fun q mp => (splitAndQueue 2 q mp).2) [] := by
  refine ⟨by decide, @queue_independent_of_order 65535 2 _ _ ?_ ?_ ?_⟩
  · simp only [List.forall_mem_cons]
    exact ⟨by decide, by decide, by decide, List.forall_mem_nil _⟩
  · intro p
    simp only [List.mem_cons, List.not_mem_nil, or_false]
    tauto
  · simp only [List.forall_mem_cons]
    decide

end Window

end Rtp
end Furikup
