import Furikup.Rtp.Queue
import Furikup.Lib.Exchange

/-!
# From one end of a call to the other

The sender numbers its packets and stamps them with the number of their first sample.  The receiver
queues what comes in, and hands out what is due for the timestamp it is asked for; it never goes back
behind what it has handed out.

* `rtpSessionSendWithTs`, `rtpAudioSend` — the messages that are made of the frames of a call.
* `rtpSessionRtpParse`, `rtpSessionRecvmWithTs` — what a receiver makes of a message, and what it
  hands out.
* `Stream` — the packets of one sender, of which `SessionInv` says where they are.
* `frames_in_order` — **over a network that loses, repeats and reorders, the frames come out in the
  order in which they went in**.
* `frames_accounted` — **every packet that has come in is handed out, queued, or counted as lost**.
-/

set_option autoImplicit false

namespace Furikup
namespace Rtp

open Serial

/-! ## Sending -/

/-- The part of an `RtpSession` that is used for sending. -/
structure RtpSender where
  sndSeq : BitVec 16
  sndPt : BitVec 7
  sndSsrc : BitVec 32
  telephoneEventsPt : Option (BitVec 7)

/-- `rtp_session_send_with_ts`: the packet that is created and sent. -/
def rtpSessionSendWithTs (session : RtpSender) (payload : List Octet) (userts : BitVec 32) :
    RtpSender × Packet :=
  let telephone : Bool := session.telephoneEventsPt = some session.sndPt
  let sndSeq := session.sndSeq + 1
  ({ session with sndSeq },
    { header :=
        { version := 2
          padbit := 0
          extbit := 0
          cc := 0
          markbit := 0
          paytype := session.sndPt
          seqNumber := if telephone then sndSeq else session.sndSeq
          timestamp := userts
          ssrc := session.sndSsrc
          csrc := [] }
      payload })

/-- The packets of `rtpAudioSend`, with 160 samples in a frame. -/
def rtpAudioSend (session : RtpSender) (ts : BitVec 32) : List (List Octet) → List Packet
  | [] => []
  | frame :: frames =>
    let r := rtpSessionSendWithTs session frame ts
    r.2 :: rtpAudioSend r.1 (ts + 160) frames

/-! ## Receiving -/

/-- `rtp_stats_t` -/
structure RtpStats where
  packetRecv : Nat
  bad : Nat
  discarded : Nat
  outoftime : Nat
  unavaillable : Nat

/-- The part of an `RtpSession` that is used for receiving. -/
structure RtpSession where
  rq : Queue
  tevRq : Queue
  maxRqSize : Nat
  rcvSsrc : BitVec 32
  telephoneEventsPt : Option (BitVec 7)
  recvSync : Bool
  firstPacketDelivered : Bool
  rcvLastTs : BitVec 32
  rcvDiffTs : BitVec 32
  hwrcvDiffTs : BitVec 32
  tsJump : BitVec 32
  permissive : Bool
  jittCompTs : BitVec 32
  stats : RtpStats

inductive Output
  /-- `rtp_session_recvm_with_ts` returns the packet. -/
  | delivered (p : Packet)
  /-- The packet is freed. -/
  | dropped (p : Packet)
  deriving DecidableEq

/-- `rtp_session_reset`, which is what is connected to a change of the source, and what it frees. -/
def rtpSessionReset (session : RtpSession) : RtpSession × List Output :=
  ({ session with
      rq := []
      recvSync := true
      firstPacketDelivered := false
      rcvLastTs := 0
      rcvDiffTs := 0
      stats := ⟨0, 0, 0, 0, 0⟩ },
    session.rq.map .dropped)

/-- The source of a packet is looked at. -/
def checkSsrc (session : RtpSession) (ssrc : BitVec 32) : RtpSession × List Output :=
  if session.rcvSsrc ≠ 0 ∧ session.rcvSsrc ≠ ssrc then
    rtpSessionReset { session with rcvSsrc := ssrc }
  else ({ session with rcvSsrc := ssrc }, [])

/-- `split_and_queue`, on the queue of packets. -/
def queuePacket (session : RtpSession) (p : Packet) : RtpSession × List Output :=
  let r := splitAndQueue session.maxRqSize session.rq p
  ({ session with
      rq := r.2
      stats := { session.stats with discarded := session.stats.discarded + r.1.length } },
    r.1.map .dropped)

/-- The end of `rtp_session_rtp_parse`.  `slide` and `safeDelay` are what the control of the jitter
makes of the packet. -/
def acceptPacket (slide safeDelay : BitVec 32) (session : RtpSession) (p : Packet) :
    RtpSession × List Output :=
  if session.telephoneEventsPt = some p.header.paytype then
    let r := splitAndQueue session.maxRqSize session.tevRq p
    ({ session with
        tevRq := r.2
        stats := { session.stats with discarded := session.stats.discarded + r.1.length } },
      r.1.map .dropped)
  else if session.firstPacketDelivered then
    let session := { session with rcvDiffTs := session.hwrcvDiffTs + slide - safeDelay }
    -- a jump ahead is only reported
    if rtpTimestampIsNewerThan p.header.timestamp (session.rcvLastTs + session.tsJump) then
      queuePacket session p
    else if rtpTimestampIsStrictlyNewerThan session.rcvLastTs p.header.timestamp then
      ({ session with stats := { session.stats with outoftime := session.stats.outoftime + 1 } },
        [.dropped p])
    else queuePacket session p
  else queuePacket session p

/-- `rtp_session_rtp_parse` -/
def rtpSessionRtpParse (slide safeDelay : BitVec 32) (session : RtpSession) (msg : List Octet) :
    RtpSession × List Output :=
  match rtpParse msg with
  | .tooSmall =>
    ({ session with stats := { session.stats with bad := session.stats.bad + 1 } }, [])
  | .foreign _ => (session, [])
  | .tooShort =>
    ({ session with
        stats :=
          { session.stats with
            packetRecv := session.stats.packetRecv + 1
            bad := session.stats.bad + 1 } }, [])
  | .packet p =>
    let session :=
      { session with
        stats := { session.stats with packetRecv := session.stats.packetRecv + 1 } }
    let r := checkSsrc session p.header.ssrc
    let r' := acceptPacket slide safeDelay r.1 p
    (r'.1, r.2 ++ r'.2)

/-- The first packet of a session sets its clock. -/
def recvSyncWith (session : RtpSession) (userTs : BitVec 32) (rtp : RtpHeader) : RtpSession :=
  let hwrcvDiffTs := rtp.timestamp - userTs
  { session with
    hwrcvDiffTs
    rcvDiffTs := hwrcvDiffTs - session.jittCompTs
    rcvSsrc := rtp.ssrc
    recvSync := false }

/-- A packet is taken out of the queue. -/
def getFromQueue (session : RtpSession) (ts : BitVec 32) : List Packet × Option Packet × Queue :=
  if session.permissive ∨ session.jittCompTs = 0 then rtpGetqPermissive ts session.rq
  else rtpGetq ts session.rq

/-- The end of `rtp_session_recvm_with_ts`, with the packet that is taken. -/
def takePacket (session : RtpSession) (userTs : BitVec 32) : RtpSession × List Output :=
  let r := getFromQueue session (userTs + session.rcvDiffTs)
  let stats := { session.stats with outoftime := session.stats.outoftime + r.1.length }
  match r.2.1 with
  | some mp =>
    ({ session with
        rq := r.2.2
        stats
        rcvLastTs := mp.header.timestamp
        firstPacketDelivered := true }, r.1.map .dropped ++ [.delivered mp])
  | none =>
    ({ session with
        rq := r.2.2
        stats := { stats with unavaillable := stats.unavaillable + 1 } }, r.1.map .dropped)

/-- `rtp_session_recvm_with_ts`, when the messages there are have been parsed. -/
def rtpSessionRecvmWithTs (session : RtpSession) (userTs : BitVec 32) : RtpSession × List Output :=
  let session := { session with tevRq := session.tevRq.tail }
  if session.recvSync then
    match session.rq with
    | [] =>
      let unavaillable := session.stats.unavaillable + 1
      ({ session with stats := { session.stats with unavaillable } }, [])
    | first :: _ => takePacket (recvSyncWith session userTs first.header) userTs
  else takePacket session userTs

inductive SessionInput
  /-- A message comes in. -/
  | message (slide safeDelay : BitVec 32) (msg : List Octet)
  /-- The user asks for what is due. -/
  | recv (userTs : BitVec 32)

def RtpSession.step (session : RtpSession) : SessionInput → RtpSession × List Output
  | .message slide safeDelay msg => rtpSessionRtpParse slide safeDelay session msg
  | .recv userTs => rtpSessionRecvmWithTs session userTs

/-! ## Streams -/

/-- The packets of one sender, of which there are not more than the comparisons can tell apart. -/
structure Stream where
  count : Nat
  packet : Nat → Packet
  seq0 : BitVec 16
  ts0 : BitVec 32
  clock : Nat → Nat
  ssrc : BitVec 32
  paytype : BitVec 7
  count_le : count ≤ 32768
  clock_lt : ∀ k < count, clock k < 2 ^ 30
  clock_mono : StrictMono clock
  seqNumber : ∀ k < count, (packet k).header.seqNumber = at_ (n := 15) seq0 k
  timestamp : ∀ k < count, (packet k).header.timestamp = at_ (n := 31) ts0 (clock k)
  source : ∀ k < count, (packet k).header.ssrc = ssrc
  type : ∀ k < count, (packet k).header.paytype = paytype
  version : ∀ k < count, (packet k).header.version = 2
  csrc : ∀ k < count, (packet k).header.csrc.length = (packet k).header.cc.toNat

namespace Stream

variable (st : Stream)

/-- The packet is one of the stream. -/
def Has (p : Packet) : Prop :=
  ∃ k < st.count, p = st.packet k

/-- Which packet of the stream it is. -/
def index (p : Packet) : Nat :=
  place st.seq0 p

variable {st}

theorem index_packet {k : Nat} (hk : k < st.count) : st.index (st.packet k) = k := by
  have hlt : k < 2 ^ 15 := hk.trans_le st.count_le
  rw [index, place, st.seqNumber k hk, at_, add_sub_cancel_left, toNat_ofNat hlt.le]

theorem Has.eq {p : Packet} (h : st.Has p) : p = st.packet (st.index p) ∧ st.index p < st.count := by
  obtain ⟨k, hk, rfl⟩ := h
  rw [index_packet hk]
  exact ⟨rfl, hk⟩

theorem Has.inWindow {p : Packet} (h : st.Has p) : InWindow st.seq0 p :=
  h.eq.2.trans_le st.count_le

theorem Has.inj {p q : Packet} (hp : st.Has p) (hq : st.Has q) (h : st.index p = st.index q) :
    p = q := by
  rw [hp.eq.1, h, ← hq.eq.1]

theorem Has.rtpParse {p : Packet} (h : st.Has p) : Rtp.rtpParse p.wire = .packet p := by
  obtain ⟨k, hk, rfl⟩ := h
  exact rtpParse_wire (st.version k hk) (st.csrc k hk)

/-- **Timestamps are compared as the packets are numbered.** -/
theorem strictlyNewer_iff {m k : Nat} (hm : m < st.count) (hk : k < st.count) :
    rtpTimestampIsStrictlyNewerThan (at_ (n := 31) st.ts0 (st.clock m))
      (st.packet k).header.timestamp = true ↔ k < m := by
  have hm' : st.clock m < 2 ^ 31 := (st.clock_lt m hm).trans (by decide)
  have hk' : st.clock k < 2 ^ 31 := (st.clock_lt k hk).trans (by decide)
  rw [st.timestamp k hk, rtpTimestampIsStrictlyNewerThan, rtpTimestampIsNewerThan, Bool.and_eq_true,
    newer_iff hm' hk', bne_iff_ne, ne_eq, at_inj hm' hk', ← st.clock_mono.lt_iff_lt]
  omega

/-- A packet that is older than the last one is not taken for a jump ahead. -/
theorem not_jump {m k : Nat} (hm : m < st.count) (hk : k < st.count) (hlt : k < m)
    {jump : BitVec 32} (hjump : jump.toNat ≤ 2 ^ 30) :
    rtpTimestampIsNewerThan (st.packet k).header.timestamp
      (at_ (n := 31) st.ts0 (st.clock m) + jump) = false := by
  have hclock := st.clock_mono hlt
  have hm' := st.clock_lt m hm
  have hsum : at_ (n := 31) st.ts0 (st.clock m) + jump =
      at_ (n := 31) st.ts0 (st.clock m + jump.toNat) := by
    rw [← at_at]
    conv_rhs => rw [at_, BitVec.ofNat_toNat, BitVec.setWidth_eq]
  rw [st.timestamp k hk, rtpTimestampIsNewerThan, hsum, Bool.eq_false_iff, ne_eq,
    newer_iff (by omega) (by omega)]
  omega

end Stream

/-! ## What a session makes of a stream -/

/-- The packets that have been handed out. -/
def deliveries (log : List Output) : List Packet :=
  log.filterMap fun
    | .delivered p => some p
    | .dropped _ => none

/-- The packets that have been freed. -/
def drops (log : List Output) : List Packet :=
  log.filterMap fun
    | .delivered _ => none
    | .dropped p => some p

theorem deliveries_append_dropped (log : List Output) (ps : List Packet) :
    deliveries (log ++ ps.map .dropped) = deliveries log := by
  simp [deliveries, List.filterMap_map]

theorem drops_append_dropped (log : List Output) (ps : List Packet) :
    drops (log ++ ps.map .dropped) = drops log ++ ps := by
  simp [drops, List.filterMap_map]

theorem deliveries_append_delivered (log : List Output) (p : Packet) :
    deliveries (log ++ [.delivered p]) = deliveries log ++ [p] := by
  simp [deliveries]

theorem drops_append_delivered (log : List Output) (p : Packet) :
    drops (log ++ [.delivered p]) = drops log := by
  simp [drops]

theorem mem_deliveries {log : List Output} {p : Packet} :
    p ∈ deliveries log ↔ .delivered p ∈ log := by
  rw [deliveries, List.mem_filterMap]
  refine ⟨?_, fun h => ⟨_, h, rfl⟩⟩
  rintro ⟨output, hmem, heq⟩
  cases output with
  | delivered q => cases heq; exact hmem
  | dropped q => cases heq

theorem mem_drops {log : List Output} {p : Packet} : p ∈ drops log ↔ .dropped p ∈ log := by
  rw [drops, List.mem_filterMap]
  refine ⟨?_, fun h => ⟨_, h, rfl⟩⟩
  rintro ⟨output, hmem, heq⟩
  cases output with
  | delivered q => cases heq
  | dropped q => cases heq; exact hmem

/-- The packet has come in. -/
def Came (before : List SessionInput) (p : Packet) : Prop :=
  ∃ slide safeDelay, SessionInput.message slide safeDelay p.wire ∈ before

/-- The session can tell the packets of the stream from telephone events and from jumps. -/
structure RtpSession.Takes (session : RtpSession) (st : Stream) : Prop where
  jump : session.tsJump.toNat ≤ 2 ^ 30
  telephone : session.telephoneEventsPt ≠ some st.paytype
  source : session.rcvSsrc = 0 ∨ session.rcvSsrc = st.ssrc

/-- Nothing that has been handed out is after the packet `m`, and nothing that is in the queue is
before it. -/
structure Reached (st : Stream) (session : RtpSession) (log : List Output) (m : Nat) : Prop where
  handed : ∀ p ∈ deliveries log, st.index p ≤ m
  queued : ∀ p ∈ session.rq, m ≤ st.index p
  clock : if session.firstPacketDelivered then
      m < st.count ∧ session.rcvLastTs = at_ (n := 31) st.ts0 (st.clock m)
    else m = 0

/-- Where the packets of a stream are. -/
structure SessionInv (st : Stream) (before : List SessionInput) (session : RtpSession)
    (log : List Output) : Prop where
  takes : session.Takes st
  stream : ∀ p, p ∈ session.rq ∨ p ∈ deliveries log ∨ p ∈ drops log → st.Has p ∧ Came before p
  sorted : Sorted st.index session.rq.reverse
  ordered : (deliveries log).Pairwise fun p q => st.index p ≤ st.index q
  reached : ∃ m, Reached st session log m
  covered : ∀ p, st.Has p → Came before p → p ∈ session.rq ∨ p ∈ deliveries log ∨ p ∈ drops log
  lost : (drops log).length = session.stats.discarded + session.stats.outoftime

section Steps

variable {st : Stream} {before : List SessionInput} {session : RtpSession} {log : List Output}
  {slide safeDelay : BitVec 32} {p q : Packet}

theorem came_snoc_message (hp : st.Has p) (hq : st.Has q) :
    Came (before ++ [.message slide safeDelay p.wire]) q ↔ Came before q ∨ q = p := by
  simp only [Came, List.mem_append, List.mem_singleton, exists_or, SessionInput.message.injEq]
  refine or_congr_right ⟨?_, ?_⟩
  · rintro ⟨-, -, -, -, hwire⟩
    have hparse := hq.rtpParse
    rw [hwire, hp.rtpParse] at hparse
    exact (Parsed.packet.inj hparse).symm
  · rintro rfl
    exact ⟨slide, safeDelay, rfl, rfl, rfl⟩

theorem came_snoc_recv {userTs : BitVec 32} : Came (before ++ [.recv userTs]) q ↔ Came before q := by
  simp [Came]

/-- A packet that is not before what has been handed out is queued. -/
theorem SessionInv.queuePacket {m : Nat} (h : SessionInv st before session log)
    (hm : Reached st session log m) (hp : st.Has p) (hle : m ≤ st.index p) :
    SessionInv st (before ++ [.message slide safeDelay p.wire]) (queuePacket session p).1
      (log ++ (queuePacket session p).2) := by
  have hwindow : ∀ q ∈ session.rq, InWindow st.seq0 q := fun q hq =>
    (h.stream q (.inl hq)).1.inWindow
  obtain ⟨hsorted, hsub, hkept, hnew⟩ :=
    splitAndQueue_spec session.maxRqSize hp.inWindow hwindow h.sorted
  have hcame : ∀ q, st.Has q → Came before q →
      Came (before ++ [.message slide safeDelay p.wire]) q := fun q hq hc =>
    (came_snoc_message hp hq).2 (.inl hc)
  have hlast : Came (before ++ [.message slide safeDelay p.wire]) p :=
    (came_snoc_message hp hp).2 (.inr rfl)
  have hdeliveries := deliveries_append_dropped log (splitAndQueue session.maxRqSize session.rq p).1
  have hdrops := drops_append_dropped log (splitAndQueue session.maxRqSize session.rq p).1
  rw [Rtp.queuePacket]
  refine ⟨⟨h.takes.jump, h.takes.telephone, h.takes.source⟩, fun q hq => ?_, hsorted, ?_,
    ⟨m, ?_, fun q hq => ?_, hm.clock⟩, fun q hq hc => ?_, ?_⟩
  · rw [hdeliveries, hdrops, List.mem_append] at hq
    have hcases : (q ∈ session.rq ∨ q ∈ deliveries log ∨ q ∈ drops log) ∨ q = p := by
      have := hsub q
      tauto
    rcases hcases with hq | rfl
    · obtain ⟨hhas, hc⟩ := h.stream q hq
      exact ⟨hhas, hcame q hhas hc⟩
    · exact ⟨hp, hlast⟩
  · rw [hdeliveries]
    exact h.ordered
  · rw [hdeliveries]
    exact hm.handed
  · rcases hsub q (.inr hq) with hq | rfl
    · exact hm.queued q hq
    · exact hle
  · rw [hdeliveries, hdrops, List.mem_append]
    rcases (came_snoc_message hp hq).1 hc with hc | rfl
    · have hold := h.covered q hq hc
      have hstays := hkept q
      tauto
    · rcases hnew with hout | hin | ⟨r, hr, hplace⟩
      · exact Or.inr (.inr (.inr hout))
      · exact Or.inl hin
      · obtain rfl : r = q := (h.stream r (.inl hr)).1.inj hq hplace
        have hstays := hkept r hr
        tauto
  · rw [hdrops, List.length_append, h.lost]
    dsimp only
    omega

/-- A packet that is before what has been handed out is dropped. -/
theorem SessionInv.dropPacket (h : SessionInv st before session log) (hp : st.Has p) :
    SessionInv st (before ++ [.message slide safeDelay p.wire])
      { session with stats := { session.stats with outoftime := session.stats.outoftime + 1 } }
      (log ++ [.dropped p]) := by
  obtain ⟨m, hm⟩ := h.reached
  have hdeliveries := deliveries_append_dropped log [p]
  have hdrops := drops_append_dropped log [p]
  rw [List.map_singleton] at hdeliveries hdrops
  refine ⟨⟨h.takes.jump, h.takes.telephone, h.takes.source⟩, fun q hq => ?_, h.sorted, ?_,
    ⟨m, ?_, hm.queued, hm.clock⟩, fun q hq hc => ?_, ?_⟩
  · rw [hdeliveries, hdrops, List.mem_append, List.mem_singleton, ← or_assoc, ← or_assoc,
      or_assoc (a := q ∈ session.rq)] at hq
    rcases hq with hq | rfl
    · obtain ⟨hhas, hc⟩ := h.stream q hq
      exact ⟨hhas, (came_snoc_message hp hhas).2 (.inl hc)⟩
    · exact ⟨hp, (came_snoc_message hp hp).2 (.inr rfl)⟩
  · rw [hdeliveries]
    exact h.ordered
  · rw [hdeliveries]
    exact hm.handed
  · rw [hdeliveries, hdrops, List.mem_append, List.mem_singleton]
    rcases (came_snoc_message hp hq).1 hc with hc | rfl
    · have hold := h.covered q hq hc
      tauto
    · exact Or.inr (.inr (.inr rfl))
  · rw [hdrops, List.length_append, h.lost, List.length_singleton]
    dsimp only
    omega

theorem SessionInv.acceptPacket (h : SessionInv st before session log) (hp : st.Has p) :
    SessionInv st (before ++ [.message slide safeDelay p.wire])
      (acceptPacket slide safeDelay session p).1
      (log ++ (acceptPacket slide safeDelay session p).2) := by
  obtain ⟨m, hm⟩ := h.reached
  have htype : session.telephoneEventsPt ≠ some p.header.paytype := by
    obtain ⟨k, hk, rfl⟩ := hp
    rw [st.type k hk]
    exact h.takes.telephone
  rw [Rtp.acceptPacket, if_neg htype]
  have hclock := hm.clock
  split
  · next hfirst =>
    rw [if_pos hfirst] at hclock
    obtain ⟨hlt, hlastTs⟩ := hclock
    have h' : SessionInv st before
        { session with rcvDiffTs := session.hwrcvDiffTs + slide - safeDelay } log :=
      ⟨⟨h.takes.jump, h.takes.telephone, h.takes.source⟩, h.stream, h.sorted, h.ordered,
        ⟨m, hm.handed, hm.queued, hm.clock⟩, h.covered, h.lost⟩
    have hm' : Reached st
        { session with rcvDiffTs := session.hwrcvDiffTs + slide - safeDelay } log m :=
      ⟨hm.handed, hm.queued, hm.clock⟩
    have hindex := hp.eq
    dsimp only
    split
    · next hjump =>
      refine h'.queuePacket hm' hp (Nat.le_of_not_lt fun hbefore => ?_)
      rw [hindex.1, hlastTs, st.not_jump hlt hindex.2 hbefore h.takes.jump] at hjump
      cases hjump
    · split
      · exact h'.dropPacket hp
      · next hlate =>
        refine h'.queuePacket hm' hp (Nat.le_of_not_lt fun hbefore => hlate ?_)
        rw [hindex.1, hlastTs]
        exact (st.strictlyNewer_iff hlt hindex.2).2 hbefore
  · next hfirst =>
    rw [if_neg hfirst] at hclock
    exact h.queuePacket hm hp (hclock ▸ Nat.zero_le _)

theorem SessionInv.message (h : SessionInv st before session log) (hp : st.Has p) :
    SessionInv st (before ++ [.message slide safeDelay p.wire])
      (rtpSessionRtpParse slide safeDelay session p.wire).1
      (log ++ (rtpSessionRtpParse slide safeDelay session p.wire).2) := by
  have hsource : p.header.ssrc = st.ssrc := by
    obtain ⟨k, hk, rfl⟩ := hp
    exact st.source k hk
  have hsame : ¬ (session.rcvSsrc ≠ 0 ∧ session.rcvSsrc ≠ p.header.ssrc) := by
    rw [hsource]
    rcases h.takes.source with h0 | h0
    · exact fun hne => hne.1 h0
    · exact fun hne => hne.2 h0
  obtain ⟨m, hm⟩ := h.reached
  rw [rtpSessionRtpParse, hp.rtpParse]
  dsimp only
  rw [checkSsrc, if_neg hsame, List.nil_append]
  refine SessionInv.acceptPacket ?_ hp
  exact ⟨⟨h.takes.jump, h.takes.telephone, .inr hsource⟩, h.stream, h.sorted, h.ordered,
    ⟨m, hm.handed, hm.queued, hm.clock⟩, h.covered, h.lost⟩

theorem getFromQueue_append (session : RtpSession) (ts : BitVec 32) :
    (getFromQueue session ts).1 ++ (getFromQueue session ts).2.1.toList ++
      (getFromQueue session ts).2.2 = session.rq := by
  rw [getFromQueue]
  split
  · exact rtpGetqPermissive_append ts session.rq
  · exact rtpGetq_append ts session.rq

/-- What is taken out of the queue is after all that has been handed out, and before what stays. -/
theorem SessionInv.takePacket {userTs : BitVec 32} (h : SessionInv st before session log) :
    SessionInv st (before ++ [.recv userTs]) (takePacket session userTs).1
      (log ++ (takePacket session userTs).2) := by
  obtain ⟨m, hm⟩ := h.reached
  have hqueue := getFromQueue_append session (userTs + session.rcvDiffTs)
  rw [Rtp.takePacket]
  generalize getFromQueue session (userTs + session.rcvDiffTs) = r at hqueue ⊢
  obtain ⟨rejected, ret, rest⟩ := r
  dsimp only at hqueue ⊢
  have hdeliveries := deliveries_append_dropped log rejected
  have hdrops := drops_append_dropped log rejected
  have hsorted := h.sorted
  rw [← hqueue, Sorted, List.pairwise_reverse] at hsorted
  obtain ⟨hfront, hrest, hcross⟩ := List.pairwise_append.1 hsorted
  have hmem : ∀ q, q ∈ session.rq ↔ q ∈ rejected ∨ q ∈ ret.toList ∨ q ∈ rest := fun q => by
    rw [← hqueue, List.mem_append, List.mem_append, or_assoc]
  cases ret with
  | none =>
    refine ⟨⟨h.takes.jump, h.takes.telephone, h.takes.source⟩, fun q hq => ?_,
      List.pairwise_reverse.2 hrest, ?_, ⟨m, ?_, fun q hq => ?_, hm.clock⟩, fun q hq hc => ?_, ?_⟩
    · rw [hdeliveries, hdrops, List.mem_append] at hq
      rw [came_snoc_recv]
      refine h.stream q ?_
      have := hmem q
      tauto
    · rw [hdeliveries]
      exact h.ordered
    · rw [hdeliveries]
      exact hm.handed
    · exact hm.queued q ((hmem q).2 (.inr (.inr hq)))
    · rw [hdeliveries, hdrops, List.mem_append]
      rw [came_snoc_recv] at hc
      have hold := h.covered q hq hc
      rw [hmem q] at hold
      simp only [Option.toList_none, List.not_mem_nil, false_or] at hold
      tauto
    · rw [hdrops, List.length_append, h.lost]
      dsimp only
      omega
  | some mp =>
    have hmp : mp ∈ session.rq := (hmem mp).2 (.inr (.inl (List.mem_singleton.2 rfl)))
    have hhas := (h.stream mp (.inl hmp)).1
    have hdeliveries' := deliveries_append_delivered (log ++ rejected.map .dropped) mp
    have hdrops' := drops_append_delivered (log ++ rejected.map .dropped) mp
    rw [List.append_assoc, hdeliveries] at hdeliveries'
    rw [List.append_assoc, hdrops] at hdrops'
    refine ⟨⟨h.takes.jump, h.takes.telephone, h.takes.source⟩, fun q hq => ?_,
      List.pairwise_reverse.2 hrest, ?_, ⟨st.index mp, fun q hq => ?_, fun q hq => ?_, ?_⟩,
      fun q hq hc => ?_, ?_⟩
    · rw [hdeliveries', hdrops', List.mem_append, List.mem_append] at hq
      rw [came_snoc_recv]
      refine h.stream q ?_
      have := hmem q
      simp only [Option.toList_some] at this
      tauto
    · rw [hdeliveries', List.pairwise_append]
      refine ⟨h.ordered, List.pairwise_singleton _ _, fun q hq r hr => ?_⟩
      obtain rfl := List.mem_singleton.1 hr
      exact (hm.handed q hq).trans (hm.queued r hmp)
    · rw [hdeliveries', List.mem_append, List.mem_singleton] at hq
      rcases hq with hq | rfl
      · exact (hm.handed q hq).trans (hm.queued mp hmp)
      · exact Nat.le_refl _
    · exact (hcross mp (List.mem_append_right _ (List.mem_singleton.2 rfl)) q hq).le
    · rw [if_pos rfl]
      obtain ⟨heq, hlt⟩ := hhas.eq
      refine ⟨hlt, ?_⟩
      dsimp only
      rw [← st.timestamp _ hlt, ← heq]
    · rw [hdeliveries', hdrops', List.mem_append, List.mem_append]
      rw [came_snoc_recv] at hc
      have hold := h.covered q hq hc
      rw [hmem q] at hold
      simp only [Option.toList_some] at hold
      tauto
    · rw [hdrops', List.length_append, h.lost]
      dsimp only
      omega

theorem SessionInv.recv {userTs : BitVec 32} (h : SessionInv st before session log) :
    SessionInv st (before ++ [.recv userTs]) (rtpSessionRecvmWithTs session userTs).1
      (log ++ (rtpSessionRecvmWithTs session userTs).2) := by
  obtain ⟨m, hm⟩ := h.reached
  rw [rtpSessionRecvmWithTs]
  dsimp only
  split
  · split
    · rw [List.append_nil]
      exact ⟨⟨h.takes.jump, h.takes.telephone, h.takes.source⟩,
        fun q hq => ⟨(h.stream q hq).1, came_snoc_recv.2 (h.stream q hq).2⟩, h.sorted, h.ordered,
        ⟨m, hm.handed, hm.queued, hm.clock⟩, fun q hq hc => h.covered q hq (came_snoc_recv.1 hc),
        h.lost⟩
    · next first rest hqueue =>
      have hfirst : st.Has first := (h.stream first (.inl (hqueue ▸ List.mem_cons_self))).1
      have hsource : first.header.ssrc = st.ssrc := by
        obtain ⟨k, hk, rfl⟩ := hfirst
        exact st.source k hk
      refine SessionInv.takePacket ?_
      exact ⟨⟨h.takes.jump, h.takes.telephone, .inr hsource⟩, h.stream, h.sorted, h.ordered,
        ⟨m, hm.handed, hm.queued, hm.clock⟩, h.covered, h.lost⟩
  · refine SessionInv.takePacket ?_
    exact ⟨⟨h.takes.jump, h.takes.telephone, h.takes.source⟩, h.stream, h.sorted, h.ordered,
      ⟨m, hm.handed, hm.queued, hm.clock⟩, h.covered, h.lost⟩

/-- **Where the packets of a stream are, whatever the network and the user do.** -/
theorem sessionInv_run {inputs : List SessionInput} (htakes : session.Takes st)
    (hrq : session.rq = []) (hfirst : session.firstPacketDelivered = false)
    (hstats : session.stats = ⟨0, 0, 0, 0, 0⟩)
    (hcame : ∀ slide safeDelay msg, .message slide safeDelay msg ∈ inputs →
      ∃ p, st.Has p ∧ msg = p.wire) :
    SessionInv st inputs (Transducer.run RtpSession.step inputs session).1
      (Transducer.run RtpSession.step inputs session).2 := by
  have hinit : SessionInv st [] session [] := by
    refine ⟨htakes, ?_, ?_, List.Pairwise.nil, ⟨0, ?_, ?_, ?_⟩, ?_, ?_⟩
    · rintro p (hp | hp | hp)
      · rw [hrq] at hp
        cases hp
      · cases hp
      · cases hp
    · rw [hrq]
      exact List.Pairwise.nil
    · exact fun p hp => (List.not_mem_nil hp).elim
    · exact fun p hp => Nat.zero_le _
    · rw [hfirst]
      exact rfl
    · rintro p - ⟨slide, safeDelay, hmem⟩
      cases hmem
    · rw [hstats]
      rfl
  refine Transducer.run_induction (SessionInv st) (fun before i hi s log h => ?_) hinit
  cases i with
  | recv userTs => exact h.recv
  | message slide safeDelay msg =>
    obtain ⟨p, hp, rfl⟩ := hcame slide safeDelay msg hi
    exact h.message hp

end Steps

/-! ## The frames of a call -/

/-- The packet that is made of a frame, the `k`-th one that is sent. -/
def audioPacket (session : RtpSender) (ts : BitVec 32) (k : Nat) (frame : List Octet) : Packet :=
  (rtpSessionSendWithTs { session with sndSeq := at_ (n := 15) session.sndSeq k } frame
    (at_ (n := 31) ts (160 * k))).2

theorem audioPacket_succ {session : RtpSender}
    (htelephone : session.telephoneEventsPt ≠ some session.sndPt) (ts : BitVec 32) (k : Nat)
    (frame : List Octet) :
    audioPacket { session with sndSeq := session.sndSeq + 1 } (ts + 160) k frame =
      audioPacket session ts (k + 1) frame := by
  have hseq : at_ (n := 15) (session.sndSeq + 1) k = at_ (n := 15) session.sndSeq (k + 1) := by
    rw [Nat.add_comm k 1, ← at_at]
    rfl
  have hts : at_ (n := 31) (ts + 160) (160 * k) = at_ (n := 31) ts (160 * (k + 1)) := by
    rw [Nat.mul_succ, Nat.add_comm (160 * k) 160, ← at_at]
    rfl
  simp only [audioPacket, rtpSessionSendWithTs, htelephone, hseq, hts, decide_false,
    Bool.false_eq_true, if_false]

theorem getElem?_rtpAudioSend {session : RtpSender}
    (htelephone : session.telephoneEventsPt ≠ some session.sndPt) (ts : BitVec 32)
    (frames : List (List Octet)) (k : Nat) :
    (rtpAudioSend session ts frames)[k]? = frames[k]?.map (audioPacket session ts k) := by
  induction frames generalizing session ts k with
  | nil => rfl
  | cons frame frames ih =>
    rw [rtpAudioSend]
    cases k with
    | zero => simp [audioPacket, at_, rtpSessionSendWithTs]
    | succ k =>
      rw [List.getElem?_cons_succ, List.getElem?_cons_succ, rtpSessionSendWithTs]
      dsimp only
      have hrest := @ih { session with sndSeq := session.sndSeq + 1 } htelephone (ts + 160) k
      rw [funext (audioPacket_succ htelephone ts k)] at hrest
      exact hrest

/-- The packets of the frames of a call. -/
def audioStream (session : RtpSender) (ts : BitVec 32) (frames : List (List Octet))
    (hcount : frames.length ≤ 32768) (htelephone : session.telephoneEventsPt ≠ some session.sndPt) :
    Stream where
  count := frames.length
  packet k := audioPacket session ts k (frames.getD k [])
  seq0 := session.sndSeq
  ts0 := ts
  clock k := 160 * k
  ssrc := session.sndSsrc
  paytype := session.sndPt
  count_le := hcount
  clock_lt k hk := by omega
  clock_mono := fun j k hjk => by
    dsimp only
    omega
  seqNumber k _ := by simp [audioPacket, rtpSessionSendWithTs, htelephone]
  timestamp k _ := rfl
  source k _ := rfl
  type k _ := rfl
  version k _ := rfl
  csrc k _ := rfl

section Call

variable {sender : RtpSender} {ts : BitVec 32} {frames : List (List Octet)} {session : RtpSession}
  {inputs : List SessionInput}

theorem has_audioStream (hcount : frames.length ≤ 32768)
    (htelephone : sender.telephoneEventsPt ≠ some sender.sndPt) (p : Packet) :
    (audioStream sender ts frames hcount htelephone).Has p ↔ p ∈ rtpAudioSend sender ts frames := by
  rw [List.mem_iff_getElem?]
  constructor
  · rintro ⟨k, hk, rfl⟩
    have hk' : k < frames.length := hk
    refine ⟨k, ?_⟩
    rw [getElem?_rtpAudioSend htelephone, List.getElem?_eq_getElem hk', Option.map_some]
    exact congrArg (fun frame => some (audioPacket sender ts k frame))
      (List.getD_eq_getElem _ _ hk').symm
  · rintro ⟨k, hk⟩
    rw [getElem?_rtpAudioSend htelephone] at hk
    obtain ⟨frame, hframe, rfl⟩ := Option.map_eq_some_iff.1 hk
    refine ⟨k, (List.getElem?_eq_some_iff.1 hframe).1, ?_⟩
    exact congrArg (audioPacket sender ts k) (by rw [List.getD_eq_getElem?_getD, hframe]; rfl)

/-- A session that has been made and not been used. -/
structure RtpSession.Fresh (session : RtpSession) : Prop where
  rq : session.rq = []
  firstPacketDelivered : session.firstPacketDelivered = false
  rcvSsrc : session.rcvSsrc = 0
  stats : session.stats = ⟨0, 0, 0, 0, 0⟩

theorem sessionInv_audioStream (hcount : frames.length ≤ 32768)
    (htelephone : sender.telephoneEventsPt ≠ some sender.sndPt) (hfresh : session.Fresh)
    (hjump : session.tsJump.toNat ≤ 2 ^ 30) (htype : session.telephoneEventsPt ≠ some sender.sndPt)
    (hcame : ∀ slide safeDelay msg, .message slide safeDelay msg ∈ inputs →
      ∃ p ∈ rtpAudioSend sender ts frames, msg = p.wire) :
    SessionInv (audioStream sender ts frames hcount htelephone) inputs
      (Transducer.run RtpSession.step inputs session).1
      (Transducer.run RtpSession.step inputs session).2 := by
  refine sessionInv_run ⟨hjump, htype, .inl hfresh.rcvSsrc⟩ hfresh.rq hfresh.firstPacketDelivered
    hfresh.stats fun slide safeDelay msg hmem => ?_
  obtain ⟨p, hp, hmsg⟩ := hcame slide safeDelay msg hmem
  exact ⟨p, (has_audioStream hcount htelephone p).2 hp, hmsg⟩

/-- **The frames of a call come out in the order in which they went in**, though the network may
lose, repeat and reorder its packets, and the user may ask for any timestamps at any time. -/
theorem frames_in_order (hcount : frames.length ≤ 32768)
    (htelephone : sender.telephoneEventsPt ≠ some sender.sndPt) (hfresh : session.Fresh)
    (hjump : session.tsJump.toNat ≤ 2 ^ 30) (htype : session.telephoneEventsPt ≠ some sender.sndPt)
    (hcame : ∀ slide safeDelay msg, .message slide safeDelay msg ∈ inputs →
      ∃ p ∈ rtpAudioSend sender ts frames, msg = p.wire) :
    ∃ ks : List Nat, ks.Pairwise (· ≤ ·) ∧
      List.Forall₂ (fun k p => frames[k]? = some p.payload) ks
        (deliveries (Transducer.run RtpSession.step inputs session).2) := by
  have hinv := sessionInv_audioStream hcount htelephone hfresh hjump htype hcame
  refine ⟨_, List.pairwise_map.2 hinv.ordered, ?_⟩
  rw [List.forall₂_map_left_iff, List.forall₂_same]
  intro p hp
  obtain ⟨heq, hlt⟩ := (hinv.stream p (.inr (.inl hp))).1.eq
  have hlt' : (audioStream sender ts frames hcount htelephone).index p < frames.length := hlt
  rw [List.getElem?_eq_getElem hlt', ← List.getD_eq_getElem _ [] hlt']
  exact congrArg (fun q : Packet => some q.payload) heq.symm

/-- Three frames, of which the second one overtakes the first, which comes once more when it is too
late. -/
def threeFrames : List (List Octet) :=
  [[1], [2], [3]]

def threeFramesSender : RtpSender :=
  ⟨65535, 0, 7, none⟩

def threeFramesSession : RtpSession where
  rq := []
  tevRq := []
  maxRqSize := 100
  rcvSsrc := 0
  telephoneEventsPt := none
  recvSync := true
  firstPacketDelivered := false
  rcvLastTs := 0
  rcvDiffTs := 0
  hwrcvDiffTs := 0
  tsJump := 40000
  permissive := false
  jittCompTs := 160
  stats := ⟨0, 0, 0, 0, 0⟩

def threeFramesInputs : List SessionInput :=
  let came (k : Nat) (frame : List Octet) : SessionInput :=
    .message 0 0 (audioPacket threeFramesSender 0 k frame).wire
  [came 1 [2], came 0 [1], .recv 0, .recv 160, .recv 320, came 0 [1], came 2 [3]]

theorem threeFrames_came : ∀ slide safeDelay msg,
    SessionInput.message slide safeDelay msg ∈ threeFramesInputs →
      ∃ p ∈ rtpAudioSend threeFramesSender 0 threeFrames, msg = p.wire := by
  intro slide safeDelay msg hmem
  simp only [threeFramesInputs, List.mem_cons, SessionInput.message.injEq, reduceCtorEq,
    List.not_mem_nil, false_or, or_false] at hmem
  have hsent : ∀ p, p ∈ [audioPacket threeFramesSender 0 0 [1], audioPacket threeFramesSender 0 1 [2],
      audioPacket threeFramesSender 0 2 [3]] → p ∈ rtpAudioSend threeFramesSender 0 threeFrames := by
    decide
  rcases hmem with ⟨-, -, rfl⟩ | ⟨-, -, rfl⟩ | ⟨-, -, rfl⟩ | ⟨-, -, rfl⟩
  · exact ⟨_, hsent _ (by decide), rfl⟩
  · exact ⟨_, hsent _ (by decide), rfl⟩
  · exact ⟨_, hsent _ (by decide), rfl⟩
  · exact ⟨_, hsent _ (by decide), rfl⟩

theorem frames_in_order_overtaken :
    (deliveries (Transducer.run RtpSession.step threeFramesInputs threeFramesSession).2).map
        Packet.payload = [[1], [2]] ∧
      ∃ ks : List Nat, ks.Pairwise (· ≤ ·) ∧
        List.Forall₂ (fun k p => threeFrames[k]? = some p.payload) ks
          (deliveries (Transducer.run RtpSession.step threeFramesInputs threeFramesSession).2) :=
  ⟨by decide +kernel, @frames_in_order threeFramesSender 0 _ _ _ (by decide) (by decide)
    ⟨rfl, rfl, rfl, rfl⟩ (by decide) (by decide) threeFrames_came⟩

/-- **Every packet that has come in is in the queue, has been handed out, or has been dropped**,
nothing else is or has been, and the session has counted what it dropped. -/
theorem frames_accounted (hcount : frames.length ≤ 32768)
    (htelephone : sender.telephoneEventsPt ≠ some sender.sndPt) (hfresh : session.Fresh)
    (hjump : session.tsJump.toNat ≤ 2 ^ 30) (htype : session.telephoneEventsPt ≠ some sender.sndPt)
    (hcame : ∀ slide safeDelay msg, .message slide safeDelay msg ∈ inputs →
      ∃ p ∈ rtpAudioSend sender ts frames, msg = p.wire) :
    (∀ p, p ∈ (Transducer.run RtpSession.step inputs session).1.rq ∨
        .delivered p ∈ (Transducer.run RtpSession.step inputs session).2 ∨
        .dropped p ∈ (Transducer.run RtpSession.step inputs session).2 ↔
      p ∈ rtpAudioSend sender ts frames ∧ Came inputs p) ∧
    (drops (Transducer.run RtpSession.step inputs session).2).length =
      (Transducer.run RtpSession.step inputs session).1.stats.discarded +
        (Transducer.run RtpSession.step inputs session).1.stats.outoftime := by
  have hinv := sessionInv_audioStream hcount htelephone hfresh hjump htype hcame
  refine ⟨fun p => ?_, hinv.lost⟩
  rw [← mem_deliveries, ← mem_drops, ← has_audioStream hcount htelephone]
  exact ⟨hinv.stream p, fun h => hinv.covered p h.1 h.2⟩

theorem frames_accounted_late :
    (Transducer.run RtpSession.step threeFramesInputs threeFramesSession).1.stats.outoftime = 1 ∧
      (∀ p, p ∈ (Transducer.run RtpSession.step threeFramesInputs threeFramesSession).1.rq ∨
          .delivered p ∈ (Transducer.run RtpSession.step threeFramesInputs threeFramesSession).2 ∨
          .dropped p ∈ (Transducer.run RtpSession.step threeFramesInputs threeFramesSession).2 ↔
        p ∈ rtpAudioSend threeFramesSender 0 threeFrames ∧ Came threeFramesInputs p) ∧
      (drops (Transducer.run RtpSession.step threeFramesInputs threeFramesSession).2).length =
        (Transducer.run RtpSession.step threeFramesInputs threeFramesSession).1.stats.discarded +
          (Transducer.run RtpSession.step threeFramesInputs threeFramesSession).1.stats.outoftime :=
  ⟨by decide +kernel, frames_accounted (by decide) (by decide) ⟨rfl, rfl, rfl, rfl⟩ (by decide)
    (by decide) threeFrames_came⟩

end Call

end Rtp
end Furikup
