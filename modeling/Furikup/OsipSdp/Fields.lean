import Furikup.Lib.CText

/-!
# The values of the lines of a session description

Each line of a description is a letter and a value, and for most letters the value has parts.  Here
are the parts, how the SIP library takes a value apart, and how it puts one together.

* `osipSetNextToken`, `lastToken` — a part up to a separator, and the last part of a line.
* `Connection`, `Bandwidth`, `TimeDescr`, `Key`, `Attribute`, `Media` — the records, each with its
  `value`.
* `parseConnection`, `parseMedia`, … — how they are read.
* `parseConnection_iff`, `parsePair_iff`, `parseOptional_iff`, `parseMedia_value`,
  `sound_of_parseMedia` — **which records are read, and from what**.
-/

set_option autoImplicit false

namespace Furikup
namespace OsipSdp

open CText

/-! ## Tokens -/

/-- `__osip_set_next_token` on the rest of a line, for a separator in the line: the token, and what
is behind the separator.  The end of the line comes before any separator behind it. -/
def osipSetNextToken (endSeparator : Char) (buf : Text) : Option (Text × Text) :=
  match buf.dropWhile (· ≠ endSeparator) with
  | [] => none
  | _ :: next =>
    let token := buf.takeWhile (· ≠ endSeparator)
    if token = [] then none else some (token, next)

/-- `__osip_set_next_token` for a carriage return, and if there is none for a newline: what is left
of the line. -/
def lastToken (buf : Text) : Option Text :=
  if buf = [] then none else some buf

theorem takeWhile_append_cons {sep : Char} {token : Text} (hsep : sep ∉ token) (next : Text) :
    (token ++ sep :: next).takeWhile (· ≠ sep) = token := by
  have hall : ∀ c ∈ token, decide (c ≠ sep) = true := fun c hc =>
    decide_eq_true fun h => hsep (h ▸ hc)
  rw [List.takeWhile_append_of_pos hall, List.takeWhile_cons_of_neg (by simp), List.append_nil]

theorem osipSetNextToken_eq_some {sep : Char} {buf token next : Text} :
    osipSetNextToken sep buf = some (token, next) ↔
      token ≠ [] ∧ sep ∉ token ∧ buf = token ++ sep :: next := by
  have hsplit : buf.takeWhile (· ≠ sep) ++ buf.dropWhile (· ≠ sep) = buf :=
    List.takeWhile_append_dropWhile
  constructor
  · intro h
    rw [osipSetNextToken] at h
    split at h
    · cases h
    · next c rest hdrop =>
      dsimp only at h
      split at h
      · cases h
      · next hne =>
        obtain ⟨rfl, rfl⟩ := Prod.mk.inj (Option.some.inj h)
        have hc : c = sep := by
          have hhead := List.head?_dropWhile_not (fun x => decide (x ≠ sep)) buf
          rw [hdrop] at hhead
          simpa using hhead
        refine ⟨hne, fun hmem => ?_, ?_⟩
        · have hsep := List.mem_takeWhile_imp hmem
          simp at hsep
        · rw [hc] at hdrop
          rw [← hdrop, hsplit]
  · rintro ⟨hne, hmem, rfl⟩
    have hall : ∀ c ∈ token, decide (c ≠ sep) = true := fun c hc =>
      decide_eq_true fun h => hmem (h ▸ hc)
    have hdrop : (token ++ sep :: next).dropWhile (· ≠ sep) = sep :: next := by
      rw [List.dropWhile_append_of_pos hall, List.dropWhile_cons_of_neg (by simp)]
    rw [osipSetNextToken, hdrop]
    dsimp only
    rw [takeWhile_append_cons hmem, if_neg hne]

theorem osipSetNextToken_append {sep : Char} {token : Text} (hne : token ≠ []) (hsep : sep ∉ token)
    (next : Text) : osipSetNextToken sep (token ++ sep :: next) = some (token, next) :=
  osipSetNextToken_eq_some.2 ⟨hne, hsep, rfl⟩

theorem osipSetNextToken_of_notMem {sep : Char} {buf : Text} (h : sep ∉ buf) :
    osipSetNextToken sep buf = none := by
  rw [Option.eq_none_iff_forall_not_mem]
  rintro ⟨token, next⟩ hmem
  obtain ⟨-, -, rfl⟩ := osipSetNextToken_eq_some.1 hmem
  exact h (List.mem_append_right _ List.mem_cons_self)

theorem lastToken_eq_some {buf token : Text} : lastToken buf = some token ↔ buf ≠ [] ∧ buf = token := by
  rw [lastToken]
  split
  · next h => simp [h]
  · next h => simp [h]

/-! ## Pairs -/

/-- Two parts with a separator between them. -/
def parsePair (sep : Char) (buf : Text) : Option (Text × Text) := do
  let first ← osipSetNextToken sep buf
  let second ← lastToken first.2
  pure (first.1, second)

/-- A part, and perhaps a second one behind a colon. -/
def parseOptional (buf : Text) : Option (Text × Option Text) :=
  if ':' ∈ buf then (parsePair ':' buf).map fun parts => (parts.1, some parts.2)
  else (lastToken buf).map fun part => (part, none)

/-- A part that need not be there, with its separator. -/
def optionalPart (sep : Char) : Option Text → Text
  | none => []
  | some part => sep :: part

theorem parsePair_iff {sep : Char} {buf a b : Text} :
    parsePair sep buf = some (a, b) ↔ a ≠ [] ∧ sep ∉ a ∧ b ≠ [] ∧ buf = a ++ sep :: b := by
  simp only [parsePair, Option.bind_eq_bind, Option.pure_def, Option.bind_eq_some_iff, Prod.exists,
    osipSetNextToken_eq_some, lastToken_eq_some, Option.some.injEq, Prod.mk.injEq]
  constructor
  · rintro ⟨_, next, ⟨ha, hsep, hbuf⟩, _, ⟨hb, rfl⟩, rfl, rfl⟩
    exact ⟨ha, hsep, hb, hbuf⟩
  · rintro ⟨ha, hsep, hb, hbuf⟩
    exact ⟨a, b, ⟨ha, hsep, hbuf⟩, b, ⟨hb, rfl⟩, rfl, rfl⟩

theorem parseOptional_iff {buf a : Text} {b : Option Text} :
    parseOptional buf = some (a, b) ↔
      a ≠ [] ∧ ':' ∉ a ∧ b ≠ some [] ∧ buf = a ++ optionalPart ':' b := by
  rw [parseOptional]
  split
  · next hcolon =>
    simp only [Option.map_eq_some_iff, Prod.exists, parsePair_iff, Prod.mk.injEq]
    constructor
    · rintro ⟨_, c, ⟨ha, hnot, hc, hbuf⟩, rfl, rfl⟩
      exact ⟨ha, hnot, fun h => hc (Option.some.inj h), hbuf⟩
    · rintro ⟨ha, hnot, hb, hbuf⟩
      cases b with
      | none =>
        rw [optionalPart, List.append_nil] at hbuf
        exact absurd (hbuf ▸ hcolon) hnot
      | some c => exact ⟨a, c, ⟨ha, hnot, fun h => hb (h ▸ rfl), hbuf⟩, rfl, rfl⟩
  · next hcolon =>
    simp only [Option.map_eq_some_iff, lastToken_eq_some, Prod.mk.injEq]
    constructor
    · rintro ⟨_, ⟨hne, rfl⟩, rfl, rfl⟩
      refine ⟨hne, hcolon, nofun, ?_⟩
      rw [optionalPart, List.append_nil]
    · rintro ⟨ha, hnot, hb, hbuf⟩
      cases b with
      | none =>
        rw [optionalPart, List.append_nil] at hbuf
        exact ⟨a, ⟨hbuf ▸ ha, hbuf⟩, rfl, rfl⟩
      | some c =>
        rw [hbuf, optionalPart] at hcolon
        exact absurd (List.mem_append_right _ List.mem_cons_self) hcolon

/-- `sdp_bandwidth_t` -/
structure Bandwidth where
  bBwtype : Text
  bBandwidth : Text
  deriving DecidableEq

/-- The time of `sdp_time_descr_t`, with its repeats. -/
structure TimeDescr where
  tStartTime : Text
  tStopTime : Text
  rRepeats : List Text
  deriving DecidableEq

/-- `sdp_key_t` -/
structure Key where
  kKeytype : Text
  kKeydata : Option Text
  deriving DecidableEq

/-- `sdp_attribute_t` -/
structure Attribute where
  aAttField : Text
  aAttValue : Option Text
  deriving DecidableEq

def Bandwidth.value (b : Bandwidth) : Text :=
  b.bBwtype ++ ':' :: b.bBandwidth

def TimeDescr.value (td : TimeDescr) : Text :=
  td.tStartTime ++ ' ' :: td.tStopTime

def Key.value (key : Key) : Text :=
  key.kKeytype ++ optionalPart ':' key.kKeydata

def Attribute.value (a : Attribute) : Text :=
  a.aAttField ++ optionalPart ':' a.aAttValue

def parseBandwidth (buf : Text) : Option Bandwidth :=
  (parsePair ':' buf).map fun parts => ⟨parts.1, parts.2⟩

def parseTimeDescr (buf : Text) : Option TimeDescr :=
  (parsePair ' ' buf).map fun parts => ⟨parts.1, parts.2, []⟩

def parseKey (buf : Text) : Option Key :=
  (parseOptional buf).map fun parts => ⟨parts.1, parts.2⟩

def parseAttribute (buf : Text) : Option Attribute :=
  (parseOptional buf).map fun parts => ⟨parts.1, parts.2⟩

/-! ## Connections -/

/-- `sdp_connection_t` -/
structure Connection where
  cNettype : Text
  cAddrtype : Text
  cAddr : Text
  cAddrMulticastTtl : Option Text
  cAddrMulticastInt : Option Text
  deriving DecidableEq

def Connection.value (conn : Connection) : Text :=
  conn.cNettype ++ ' ' :: (conn.cAddrtype ++ ' ' :: (conn.cAddr ++
    (optionalPart '/' conn.cAddrMulticastTtl ++ optionalPart '/' conn.cAddrMulticastInt)))

/-- The address of a `c=` line, with what a multicast address has behind it. -/
def parseAddr (buf : Text) : Option (Text × Option Text × Option Text) :=
  if '/' ∈ buf then do
    let addr ← osipSetNextToken '/' buf
    if '/' ∈ addr.2 then do
      let ttl ← osipSetNextToken '/' addr.2
      let int ← lastToken ttl.2
      pure (addr.1, some ttl.1, some int)
    else do
      let ttl ← lastToken addr.2
      pure (addr.1, some ttl, none)
  else (lastToken buf).map fun addr => (addr, none, none)

def parseConnection (buf : Text) : Option Connection := do
  let nettype ← osipSetNextToken ' ' buf
  let addrtype ← osipSetNextToken ' ' nettype.2
  let addr ← parseAddr addrtype.2
  pure
    { cNettype := nettype.1
      cAddrtype := addrtype.1
      cAddr := addr.1
      cAddrMulticastTtl := addr.2.1
      cAddrMulticastInt := addr.2.2 }

/-- The second and the third part of an address are there in this order, and a slash is only in the
third. -/
def MulticastSound (ttl int : Option Text) : Prop :=
  match ttl with
  | none => int = none
  | some ttl => ttl ≠ [] ∧ '/' ∉ ttl ∧ int ≠ some []

theorem parseAddr_iff {buf addr : Text} {ttl int : Option Text} :
    parseAddr buf = some (addr, ttl, int) ↔
      addr ≠ [] ∧ '/' ∉ addr ∧ MulticastSound ttl int ∧
        buf = addr ++ (optionalPart '/' ttl ++ optionalPart '/' int) := by
  rw [parseAddr]
  split
  · next hslash =>
    simp only [Option.bind_eq_bind, Option.pure_def, Option.bind_eq_some_iff, Prod.exists,
      osipSetNextToken_eq_some]
    constructor
    · rintro ⟨a, rest, ⟨ha, hnot, rfl⟩, hrest⟩
      split at hrest
      · simp only [Option.bind_eq_some_iff, Prod.exists, osipSetNextToken_eq_some,
          lastToken_eq_some, Option.some.injEq, Prod.mk.injEq] at hrest
        obtain ⟨t, i, ⟨ht, htnot, rfl⟩, i', ⟨hi, rfl⟩, rfl, rfl, rfl⟩ := hrest
        exact ⟨ha, hnot, ⟨ht, htnot, fun h => hi (Option.some.inj h)⟩, rfl⟩
      · next hno =>
        simp only [Option.bind_eq_some_iff, lastToken_eq_some, Option.some.injEq,
          Prod.mk.injEq] at hrest
        obtain ⟨t, ⟨ht, rfl⟩, rfl, rfl, rfl⟩ := hrest
        refine ⟨ha, hnot, ⟨ht, hno, nofun⟩, ?_⟩
        rw [optionalPart, optionalPart, List.append_nil]
    · rintro ⟨ha, hnot, hsound, rfl⟩
      cases ttl with
      | none =>
        obtain rfl : int = none := hsound
        rw [optionalPart, List.nil_append, List.append_nil] at hslash
        exact absurd hslash hnot
      | some t =>
        obtain ⟨ht, htnot, hint⟩ := hsound
        refine ⟨addr, t ++ optionalPart '/' int, ⟨ha, hnot, rfl⟩, ?_⟩
        cases int with
        | none =>
          rw [optionalPart, List.append_nil, if_neg htnot]
          simp [lastToken, ht]
        | some i =>
          have hi : i ≠ [] := fun h => hint (h ▸ rfl)
          rw [optionalPart, if_pos (List.mem_append_right _ List.mem_cons_self),
            osipSetNextToken_append ht htnot]
          simp [lastToken, hi]
  · next hslash =>
    simp only [Option.map_eq_some_iff, lastToken_eq_some, Prod.mk.injEq]
    constructor
    · rintro ⟨_, ⟨hne, rfl⟩, rfl, rfl, rfl⟩
      refine ⟨hne, hslash, rfl, ?_⟩
      rw [optionalPart, List.append_nil, List.append_nil]
    · rintro ⟨ha, hnot, hsound, rfl⟩
      cases ttl with
      | none =>
        obtain rfl : int = none := hsound
        rw [optionalPart, List.append_nil, List.append_nil]
        exact ⟨addr, ⟨ha, rfl⟩, rfl, rfl, rfl⟩
      | some t =>
        rw [optionalPart, List.cons_append] at hslash
        exact absurd (List.mem_append_right _ List.mem_cons_self) hslash

structure Connection.Sound (conn : Connection) : Prop where
  nettype : conn.cNettype ≠ [] ∧ ' ' ∉ conn.cNettype
  addrtype : conn.cAddrtype ≠ [] ∧ ' ' ∉ conn.cAddrtype
  addr : conn.cAddr ≠ [] ∧ '/' ∉ conn.cAddr
  multicast : MulticastSound conn.cAddrMulticastTtl conn.cAddrMulticastInt

/-- **A connection is read from its value only**, and from that if its parts are sound. -/
theorem parseConnection_iff {buf : Text} {conn : Connection} :
    parseConnection buf = some conn ↔ conn.Sound ∧ buf = conn.value := by
  simp only [parseConnection, Option.bind_eq_bind, Option.pure_def, Option.bind_eq_some_iff,
    Prod.exists, osipSetNextToken_eq_some, parseAddr_iff, Option.some.injEq]
  constructor
  · rintro ⟨n, _, ⟨hn, hnot, rfl⟩, t, _, ⟨ht, htnot, rfl⟩, a, ttl, int, ⟨ha, hanot, hm, rfl⟩, rfl⟩
    exact ⟨⟨⟨hn, hnot⟩, ⟨ht, htnot⟩, ⟨ha, hanot⟩, hm⟩, rfl⟩
  · rintro ⟨h, rfl⟩
    exact ⟨_, _, ⟨h.nettype.1, h.nettype.2, rfl⟩, _, _, ⟨h.addrtype.1, h.addrtype.2, rfl⟩, _, _, _,
      ⟨h.addr.1, h.addr.2, h.multicast, rfl⟩, rfl⟩

/-! ## Media -/

/-- `sdp_media_t` -/
structure Media where
  mMedia : Text
  mPort : Text
  mNumberOfPort : Option Text
  mProto : Text
  mPayloads : List Text
  iInfo : Option Text
  cConnections : List Connection
  bBandwidths : List Bandwidth
  aAttributes : List Attribute
  kKey : Option Key
  deriving DecidableEq

/-- The payloads are printed with a space in front of each. -/
def Media.value (media : Media) : Text :=
  media.mMedia ++ ' ' :: (media.mPort ++ (optionalPart '/' media.mNumberOfPort ++
    ' ' :: (media.mProto ++ spaced media.mPayloads)))

/-- The port of an `m=` line, with the number of ports if there is a slash before the next space. -/
def parsePort (buf : Text) : Option (Text × Option Text × Text) :=
  if '/' ∈ buf.takeWhile (· ≠ ' ') then do
    let port ← osipSetNextToken '/' buf
    let number ← osipSetNextToken ' ' port.2
    pure (port.1, some number.1, number.2)
  else (osipSetNextToken ' ' buf).map fun port => (port.1, none, port.2)

/-- The protocol.  A few stacks have no space behind it if there are no payloads. -/
def parseProto (buf : Text) : Option (Text × Text) :=
  match osipSetNextToken ' ' buf with
  | some proto => some proto
  | none => (lastToken buf).map fun proto => (proto, [])

/-- The payloads, of which there are not more than characters.  A space in front of the last one is
part of it, and what is behind the last space may be empty. -/
def parsePayloads : Nat → Text → Option (List Text)
  | 0, _ => some []
  | n + 1, buf =>
    if ' ' ∈ buf.tail then do
      let str ← osipSetNextToken ' ' buf
      let payloads ← parsePayloads n str.2
      pure (str.1 :: payloads)
    else if buf = [] then some []
    else some [buf]

/-- The value of an `m=` line, with nothing under it. -/
def parseMedia (buf : Text) : Option Media := do
  let media ← osipSetNextToken ' ' buf
  let port ← parsePort media.2
  let proto ← parseProto port.2.2
  let payloads ← parsePayloads proto.2.length proto.2
  pure
    { mMedia := media.1
      mPort := port.1
      mNumberOfPort := port.2.1
      mProto := proto.1
      mPayloads := payloads
      iInfo := none
      cConnections := []
      bBandwidths := []
      aAttributes := []
      kKey := none }

theorem parsePort_iff {buf port rest : Text} {number : Option Text} :
    parsePort buf = some (port, number, rest) ↔
      (port ≠ [] ∧ '/' ∉ port ∧ ' ' ∉ port) ∧ (number ≠ some [] ∧ ∀ n ∈ number, ' ' ∉ n) ∧
        buf = port ++ (optionalPart '/' number ++ ' ' :: rest) := by
  rw [parsePort]
  split
  · next hslash =>
    simp only [Option.bind_eq_bind, Option.pure_def, Option.bind_eq_some_iff, Prod.exists,
      osipSetNextToken_eq_some, Option.some.injEq, Prod.mk.injEq]
    constructor
    · rintro ⟨p, _, ⟨hp, hnot, rfl⟩, n, _, ⟨hn, hnnot, rfl⟩, rfl, rfl, rfl⟩
      refine ⟨⟨hp, hnot, fun hmem => ?_⟩, ⟨fun h => hn (Option.some.inj h), ?_⟩, rfl⟩
      · -- then the space is before the slash
        obtain ⟨a, b, rfl, ha⟩ := List.eq_append_cons_of_mem hmem
        rw [List.append_assoc, List.cons_append, takeWhile_append_cons ha] at hslash
        exact hnot (List.mem_append_left _ hslash)
      · rintro m hm
        obtain rfl := Option.some.inj hm
        exact hnnot
    · rintro ⟨⟨hp, hnot, hspace⟩, ⟨hn, hnnot⟩, rfl⟩
      cases number with
      | none =>
        rw [optionalPart, List.nil_append, takeWhile_append_cons hspace] at hslash
        exact absurd hslash hnot
      | some n =>
        exact ⟨port, _, ⟨hp, hnot, rfl⟩, n, rest, ⟨fun h => hn (h ▸ rfl), hnnot n rfl, rfl⟩, rfl, rfl,
          rfl⟩
  · next hslash =>
    simp only [Option.map_eq_some_iff, Prod.exists, osipSetNextToken_eq_some, Prod.mk.injEq]
    constructor
    · rintro ⟨p, _, ⟨hp, hspace, rfl⟩, rfl, rfl, rfl⟩
      rw [takeWhile_append_cons hspace] at hslash
      exact ⟨⟨hp, hslash, hspace⟩, ⟨nofun, nofun⟩, rfl⟩
    · rintro ⟨⟨hp, hnot, hspace⟩, ⟨hn, hnnot⟩, rfl⟩
      cases number with
      | none => exact ⟨port, rest, ⟨hp, hspace, rfl⟩, rfl, rfl, rfl⟩
      | some n =>
        refine absurd ?_ hslash
        have hall : ∀ c ∈ port, decide (c ≠ ' ') = true := fun c hc =>
          decide_eq_true fun h => hspace (h ▸ hc)
        rw [List.takeWhile_append_of_pos hall, optionalPart, List.cons_append,
          List.takeWhile_cons_of_pos (by decide)]
        exact List.mem_append_right _ List.mem_cons_self

/-- Only the last payload may begin with a space, and none has one behind its first character. -/
def PayloadsSound : List Text → Prop
  | [] => True
  | [payload] => payload ≠ [] ∧ ' ' ∉ payload.tail
  | payload :: payloads => (payload ≠ [] ∧ ' ' ∉ payload) ∧ PayloadsSound payloads

theorem payloadsSound_cons {payload : Text} {payloads : List Text}
    (hpayload : payload ≠ [] ∧ ' ' ∉ payload) (h : PayloadsSound payloads) :
    PayloadsSound (payload :: payloads) := by
  cases payloads with
  | nil => exact ⟨hpayload.1, fun hmem => hpayload.2 (List.mem_of_mem_tail hmem)⟩
  | cons next payloads => exact ⟨hpayload, h⟩

theorem sound_of_parsePayloads {n : Nat} {buf : Text} {payloads : List Text}
    (h : parsePayloads n buf = some payloads) :
    PayloadsSound payloads ∧ spaced payloads <+: ' ' :: buf := by
  induction n generalizing buf payloads with
  | zero =>
    obtain rfl := Option.some.inj h
    exact ⟨trivial, List.nil_prefix⟩
  | succ n ih =>
    rw [parsePayloads] at h
    split at h
    · simp only [Option.bind_eq_bind, Option.pure_def, Option.bind_eq_some_iff, Prod.exists,
        osipSetNextToken_eq_some, Option.some.injEq] at h
      obtain ⟨str, next, ⟨hne, hnot, rfl⟩, rest, hrest, rfl⟩ := h
      obtain ⟨hsound, hprefix⟩ := ih hrest
      refine ⟨payloadsSound_cons ⟨hne, hnot⟩ hsound, ?_⟩
      rw [spaced_cons, List.cons_prefix_cons]
      exact ⟨rfl, List.prefix_append_right_inj str |>.2 hprefix⟩
    · next hspace =>
      split at h
      · obtain rfl := Option.some.inj h
        exact ⟨trivial, List.nil_prefix⟩
      · next hne =>
        obtain rfl := Option.some.inj h
        refine ⟨⟨hne, hspace⟩, ?_⟩
        rw [spaced_cons, spaced_nil, List.append_nil]

theorem parsePayloads_spaced {n : Nat} {payload : Text} {payloads : List Text}
    (h : PayloadsSound (payload :: payloads)) (hn : payloads.length < n) :
    parsePayloads n (payload ++ spaced payloads) = some (payload :: payloads) := by
  induction payloads generalizing payload n with
  | nil =>
    cases n with
    | zero => omega
    | succ n => rw [spaced_nil, List.append_nil, parsePayloads, if_neg h.2, if_neg h.1]
  | cons next payloads ih =>
    cases n with
    | zero => omega
    | succ n =>
      obtain ⟨⟨hne, hnot⟩, hrest⟩ := h
      have htail : ' ' ∈ (payload ++ spaced (next :: payloads)).tail := by
        rw [List.tail_append_of_ne_nil hne, spaced_cons]
        exact List.mem_append_right _ List.mem_cons_self
      rw [parsePayloads, if_pos htail, spaced_cons, osipSetNextToken_append hne hnot]
      simp only [Option.bind_eq_bind, Option.bind_some]
      rw [ih hrest (Nat.lt_of_succ_lt_succ hn)]
      rfl

/-- The parts of an `m=` line. -/
structure Media.LineSound (m : Media) : Prop where
  media : m.mMedia ≠ [] ∧ ' ' ∉ m.mMedia
  port : m.mPort ≠ [] ∧ '/' ∉ m.mPort ∧ ' ' ∉ m.mPort
  number : m.mNumberOfPort ≠ some [] ∧ ∀ n ∈ m.mNumberOfPort, ' ' ∉ n
  proto : m.mProto ≠ []
  /-- A space in the protocol is its first character, and there are no payloads. -/
  noPayloads : ' ' ∈ m.mProto → m.mProto.head? = some ' ' ∧ m.mPayloads = []
  payloads : PayloadsSound m.mPayloads

/-- A media line with nothing under it. -/
def Media.line (m : Media) : Media :=
  { m with iInfo := none, cConnections := [], bBandwidths := [], aAttributes := [], kKey := none }

theorem osipSetNextToken_of_head {sep : Char} {buf : Text} (h : buf.head? = some sep) :
    osipSetNextToken sep buf = none := by
  rw [Option.eq_none_iff_forall_not_mem]
  rintro ⟨token, next⟩ hmem
  obtain ⟨hne, hnot, rfl⟩ := osipSetNextToken_eq_some.1 hmem
  cases token with
  | nil => exact hne rfl
  | cons c token =>
    obtain rfl := Option.some.inj h
    exact hnot List.mem_cons_self

theorem head?_of_osipSetNextToken {sep : Char} {buf : Text} (h : osipSetNextToken sep buf = none)
    (hmem : sep ∈ buf) : buf.head? = some sep := by
  obtain ⟨token, next, rfl, hnot⟩ := List.eq_append_cons_of_mem hmem
  cases token with
  | nil => rfl
  | cons c token =>
    rw [osipSetNextToken_append (List.cons_ne_nil _ _) hnot] at h
    cases h

theorem parseProto_spaced {proto : Text} {payloads : List Text} (hne : proto ≠ [])
    (hspace : ' ' ∈ proto → proto.head? = some ' ' ∧ payloads = []) :
    parseProto (proto ++ spaced payloads) = some (proto, (spaced payloads).tail) := by
  rw [parseProto]
  cases payloads with
  | nil =>
    have hnone : osipSetNextToken ' ' proto = none := by
      by_cases hmem : ' ' ∈ proto
      · exact osipSetNextToken_of_head (hspace hmem).1
      · exact osipSetNextToken_of_notMem hmem
    rw [spaced_nil, List.append_nil, hnone]
    simp [lastToken, hne]
  | cons payload payloads =>
    have hnot : ' ' ∉ proto := fun hmem => List.cons_ne_nil _ _ (hspace hmem).2
    rw [spaced_cons, osipSetNextToken_append hne hnot]
    rfl

theorem length_le_spaced (ws : List Text) : ws.length ≤ (spaced ws).length := by
  induction ws with
  | nil => exact Nat.zero_le _
  | cons w ws ih =>
    rw [spaced_cons, List.length_cons, List.length_cons, List.length_append]
    omega

/-- **A media line is read from its value.** -/
theorem parseMedia_value {m : Media} (h : m.LineSound) : parseMedia m.value = some m.line := by
  have hport (rest : Text) :
      parsePort (m.mPort ++ (optionalPart '/' m.mNumberOfPort ++ ' ' :: rest)) =
        some (m.mPort, m.mNumberOfPort, rest) := parsePort_iff.2 ⟨h.port, h.number, rfl⟩
  have hpayloads : parsePayloads (spaced m.mPayloads).tail.length (spaced m.mPayloads).tail =
      some m.mPayloads := by
    have hsound := h.payloads
    cases hps : m.mPayloads with
    | nil => rfl
    | cons payload payloads =>
      rw [hps] at hsound
      have hne : payload ≠ [] := by
        cases payloads with
        | nil => exact hsound.1
        | cons next payloads => exact hsound.1.1
      have hlength := length_le_spaced payloads
      rw [spaced_cons, List.tail_cons]
      refine parsePayloads_spaced hsound ?_
      have hpos := List.length_pos_iff.2 hne
      rw [List.length_append]
      omega
  rw [parseMedia, Media.value, osipSetNextToken_append h.media.1 h.media.2]
  simp only [Option.bind_eq_bind, Option.bind_some]
  rw [hport]
  simp only [Option.bind_some]
  rw [parseProto_spaced h.proto h.noPayloads]
  simp only [Option.bind_some]
  rw [hpayloads]
  rfl

/-- What is read from a value is sound, and all that it is printed as was there. -/
theorem sound_of_parseMedia {buf : Text} {m : Media} (h : parseMedia buf = some m) :
    m.LineSound ∧ m.value <+: buf ∧ m.line = m := by
  simp only [parseMedia, Option.bind_eq_bind, Option.pure_def, Option.bind_eq_some_iff,
    Prod.exists, osipSetNextToken_eq_some, parsePort_iff, Option.some.injEq] at h
  obtain ⟨media, _, ⟨hmedia, hmnot, rfl⟩, port, number, _, ⟨hport, hnumber, rfl⟩, proto, rest, hproto,
    payloads, hpayloads, rfl⟩ := h
  obtain ⟨hsound, hprefix⟩ := sound_of_parsePayloads hpayloads
  rw [parseProto] at hproto
  split at hproto
  · next p htoken =>
    obtain rfl := Option.some.inj hproto
    obtain ⟨hne, hnot, rfl⟩ := osipSetNextToken_eq_some.1 htoken
    refine ⟨⟨⟨hmedia, hmnot⟩, ⟨hport.1, hport.2.1, hport.2.2⟩, hnumber, hne,
      fun hmem => absurd hmem hnot, hsound⟩, ?_, rfl⟩
    rw [Media.value]
    simpa only [List.prefix_append_right_inj, List.cons_prefix_cons, true_and] using hprefix
  · next hnone =>
    simp only [Option.map_eq_some_iff, lastToken_eq_some, Prod.mk.injEq] at hproto
    obtain ⟨_, ⟨hne, rfl⟩, rfl, rfl⟩ := hproto
    obtain rfl : payloads = [] := (Option.some.inj hpayloads).symm
    refine ⟨⟨⟨hmedia, hmnot⟩, ⟨hport.1, hport.2.1, hport.2.2⟩, hnumber, hne,
      fun hmem => ⟨head?_of_osipSetNextToken hnone hmem, rfl⟩, trivial⟩, ?_, rfl⟩
    rw [Media.value, spaced_nil, List.append_nil]

end OsipSdp
end Furikup
