import Mathlib

/-!
# RTP packets

A packet on the wire is a header of twelve octets, a list of contributing sources, and a payload.

* `RtpHeader.wire` — what `rtp_session_rtp_send` makes of a header.
* `rtpParse` — what `rtp_session_rtp_parse` makes of a message before it looks at the session.
* `rtpParse_iff` — **a message is taken for a packet exactly if it is one on the wire**, so that
  what has been sent is read back as it was, and what is accepted is well formed.
-/

set_option autoImplicit false

namespace Furikup
namespace Rtp

abbrev Octet := BitVec 8

/-- `rtp_header_t`, with the sources that are there. -/
structure RtpHeader where
  version : BitVec 2
  padbit : BitVec 1
  extbit : BitVec 1
  cc : BitVec 4
  markbit : BitVec 1
  paytype : BitVec 7
  seqNumber : BitVec 16
  timestamp : BitVec 32
  ssrc : BitVec 32
  csrc : List (BitVec 32)
  deriving DecidableEq

/-- A packet in a queue: its header, and its data in the block behind it. -/
structure Packet where
  header : RtpHeader
  payload : List Octet
  deriving DecidableEq

/-! ## Octets -/

def htons (x : BitVec 16) : List Octet :=
  [x.extractLsb' 8 8, x.extractLsb' 0 8]

def htonl (x : BitVec 32) : List Octet :=
  [x.extractLsb' 24 8, x.extractLsb' 16 8, x.extractLsb' 8 8, x.extractLsb' 0 8]

def ntohs (a b : Octet) : BitVec 16 :=
  a ++ b

def ntohl (a b c d : Octet) : BitVec 32 :=
  a ++ b ++ c ++ d

theorem ntohs_htons (x : BitVec 16) : ntohs (x.extractLsb' 8 8) (x.extractLsb' 0 8) = x := by
  ext i hi
  grind [ntohs]

theorem ntohl_htonl (x : BitVec 32) :
    ntohl (x.extractLsb' 24 8) (x.extractLsb' 16 8) (x.extractLsb' 8 8) (x.extractLsb' 0 8) = x := by
  ext i hi
  grind [ntohl]

theorem htons_ntohs (a b : Octet) : htons (ntohs a b) = [a, b] := by
  rw [htons, ntohs, BitVec.extractLsb'_append_eq_left, BitVec.extractLsb'_append_eq_right]

theorem htonl_ntohl (a b c d : Octet) : htonl (ntohl a b c d) = [a, b, c, d] := by
  have hb : (ntohl a b c d).extractLsb' 16 8 = b := by grind [ntohl]
  have hc : (ntohl a b c d).extractLsb' 8 8 = c := by grind [ntohl]
  have ha : (ntohl a b c d).extractLsb' 24 8 = a := by grind [ntohl]
  have hd : (ntohl a b c d).extractLsb' 0 8 = d := by grind [ntohl]
  rw [htonl, ha, hb, hc, hd]

/-! ## The first two octets -/

def RtpHeader.octet0 (rtp : RtpHeader) : Octet :=
  rtp.version ++ rtp.padbit ++ rtp.extbit ++ rtp.cc

def RtpHeader.octet1 (rtp : RtpHeader) : Octet :=
  rtp.markbit ++ rtp.paytype

theorem octet0_of_extract (b : Octet) :
    (b.extractLsb' 6 2 ++ b.extractLsb' 5 1 ++ b.extractLsb' 4 1 ++ b.extractLsb' 0 4 : BitVec 8) =
      b := by
  ext i hi
  grind

theorem octet1_of_extract (b : Octet) : (b.extractLsb' 7 1 ++ b.extractLsb' 0 7 : BitVec 8) = b := by
  ext i hi
  grind

theorem extract_octet0 (rtp : RtpHeader) :
    rtp.octet0.extractLsb' 6 2 = rtp.version ∧ rtp.octet0.extractLsb' 5 1 = rtp.padbit ∧
      rtp.octet0.extractLsb' 4 1 = rtp.extbit ∧ rtp.octet0.extractLsb' 0 4 = rtp.cc := by
  refine ⟨?_, ?_, ?_, ?_⟩ <;> grind [RtpHeader.octet0]

theorem extract_octet1 (rtp : RtpHeader) :
    rtp.octet1.extractLsb' 7 1 = rtp.markbit ∧ rtp.octet1.extractLsb' 0 7 = rtp.paytype := by
  refine ⟨?_, ?_⟩ <;> grind [RtpHeader.octet1]

/-! ## On the wire -/

/-- The header as `rtp_session_rtp_send` puts it into network order. -/
def RtpHeader.wire (rtp : RtpHeader) : List Octet :=
  [rtp.octet0, rtp.octet1] ++ htons rtp.seqNumber ++ htonl rtp.timestamp ++ htonl rtp.ssrc ++
    rtp.csrc.flatMap htonl

def Packet.wire (p : Packet) : List Octet :=
  p.header.wire ++ p.payload

/-- The sources behind the header, and what is behind them. -/
def parseCsrc : Nat → List Octet → List (BitVec 32) × List Octet
  | n + 1, a :: b :: c :: d :: rest =>
    let csrcs := parseCsrc n rest
    (ntohl a b c d :: csrcs.1, csrcs.2)
  | _, rest => ([], rest)

/-- What a message is taken for. -/
inductive Parsed
  /-- It has no room for a header. -/
  | tooSmall
  /-- It has no room for the sources the header says there are. -/
  | tooShort
  /-- It has another version; a packet of STUN says its own length. -/
  | foreign (stun : Bool)
  | packet (p : Packet)
  deriving DecidableEq

/-- The part of `rtp_session_rtp_parse` that does not depend on the session. -/
def rtpParse : List Octet → Parsed
  | b0 :: b1 :: s1 :: s0 :: t3 :: t2 :: t1 :: t0 :: x3 :: x2 :: x1 :: x0 :: rest =>
    let version := b0.extractLsb' 6 2
    let cc := b0.extractLsb' 0 4
    if version ≠ 2 then .foreign ((ntohs s1 s0).toNat + 20 = rest.length + 12)
    else if cc.toNat * 4 > rest.length then .tooShort
    else
      let csrc := parseCsrc cc.toNat rest
      .packet
        { header :=
            { version
              padbit := b0.extractLsb' 5 1
              extbit := b0.extractLsb' 4 1
              cc
              markbit := b1.extractLsb' 7 1
              paytype := b1.extractLsb' 0 7
              seqNumber := ntohs s1 s0
              timestamp := ntohl t3 t2 t1 t0
              ssrc := ntohl x3 x2 x1 x0
              csrc := csrc.1 }
          payload := csrc.2 }
  | _ => .tooSmall

/-! ## There and back -/

theorem parseCsrc_spec (n : Nat) (rest : List Octet) (h : n * 4 ≤ rest.length) :
    (parseCsrc n rest).1.length = n ∧
      (parseCsrc n rest).1.flatMap htonl ++ (parseCsrc n rest).2 = rest := by
  induction n generalizing rest with
  | zero => exact ⟨rfl, rfl⟩
  | succ n ih =>
    match rest with
    | a :: b :: c :: d :: rest =>
      obtain ⟨hlength, heq⟩ := ih rest (by simp only [List.length_cons] at h; omega)
      rw [parseCsrc]
      refine ⟨congrArg Nat.succ hlength, ?_⟩
      rw [List.flatMap_cons, htonl_ntohl, List.append_assoc, heq]
      rfl
    | [] | [_] | [_, _] | [_, _, _] => simp at h <;> omega

theorem parseCsrc_flatMap (csrc : List (BitVec 32)) (payload : List Octet) :
    parseCsrc csrc.length (csrc.flatMap htonl ++ payload) = (csrc, payload) := by
  induction csrc with
  | nil =>
    cases payload <;> rfl
  | cons x csrc ih =>
    rw [List.flatMap_cons, List.append_assoc, List.length_cons, htonl, List.cons_append,
      List.cons_append, List.cons_append, List.cons_append, List.nil_append, parseCsrc, ih,
      ntohl_htonl]

theorem length_flatMap_htonl (csrc : List (BitVec 32)) :
    (csrc.flatMap htonl).length = csrc.length * 4 := by
  induction csrc with
  | nil => rfl
  | cons x csrc ih =>
    rw [List.flatMap_cons, List.length_append, ih, List.length_cons]
    simp only [htonl, List.length_cons, List.length_nil]
    omega

theorem rtpParse_wire {p : Packet} (hversion : p.header.version = 2)
    (hcc : p.header.csrc.length = p.header.cc.toNat) : rtpParse p.wire = .packet p := by
  obtain ⟨hv, hpad, hext, hc⟩ := extract_octet0 p.header
  obtain ⟨hmark, hpay⟩ := extract_octet1 p.header
  rw [Packet.wire, RtpHeader.wire, htons, htonl, htonl]
  simp only [List.cons_append, List.nil_append, rtpParse, hv, hpad, hext, hc, hmark, hpay]
  rw [if_neg (not_not.2 hversion), if_neg, ← hcc, parseCsrc_flatMap, ntohs_htons, ntohl_htonl,
    ntohl_htonl]
  rw [List.length_append, length_flatMap_htonl]
  omega

theorem wire_of_rtpParse {msg : List Octet} {p : Packet} (h : rtpParse msg = .packet p) :
    p.header.version = 2 ∧ p.header.csrc.length = p.header.cc.toNat ∧ msg = p.wire := by
  rw [rtpParse.eq_def] at h
  split at h
  · next b0 b1 s1 s0 t3 t2 t1 t0 x3 x2 x1 x0 rest =>
    dsimp only at h
    split at h
    · cases h
    · next hversion =>
      split at h
      · cases h
      · next hlong =>
        obtain rfl := Parsed.packet.inj h
        obtain ⟨hlength, heq⟩ := parseCsrc_spec _ rest (Nat.le_of_not_lt hlong)
        refine ⟨not_not.1 hversion, hlength, ?_⟩
        rw [Packet.wire, RtpHeader.wire]
        dsimp only
        rw [htons_ntohs, htonl_ntohl, htonl_ntohl, List.append_assoc, heq, RtpHeader.octet0,
          RtpHeader.octet1, octet0_of_extract, octet1_of_extract]
        rfl
  · cases h

/-- **The messages that are taken for a packet are those that are one on the wire.** -/
theorem rtpParse_iff (msg : List Octet) (p : Packet) :
    rtpParse msg = .packet p ↔
      p.header.version = 2 ∧ p.header.csrc.length = p.header.cc.toNat ∧ msg = p.wire := by
  refine ⟨wire_of_rtpParse, ?_⟩
  rintro ⟨hversion, hcc, rfl⟩
  exact rtpParse_wire hversion hcc

end Rtp
end Furikup
