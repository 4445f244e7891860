import Furikup.OsipSdp.Fields
import Furikup.Lib.Descent

/-!
# Session descriptions of the SIP library

A description is a list of lines in a fixed order.  The parser looks for the letter in front of the
next equals sign, calls the function of each letter in turn, and is done as soon as it is at an empty
line or at the end of the text; the printer writes the lines in the same order.

* `Message` — `sdp_message_t`.
* `readLine`, `sdpMessageParseV`, …, `sdpMessageParse` — the parser.
* `Message.text`, `sdpMessageToStr`, `sdpMessageClone` — the printer, and copying by printing and
  parsing.
* `Message.Sound`, `reached_of_sdpMessageParse` — **what has been accepted is well formed**.
-/

set_option autoImplicit false

namespace Furikup
namespace OsipSdp

open CText Descent

/-! ## Descriptions -/

/-- The parts of the `o=` line, which are set together. -/
structure Origin where
  oUsername : Text
  oSessId : Text
  oSessVersion : Text
  oNettype : Text
  oAddrtype : Text
  oAddr : Text
  deriving DecidableEq

/-- `sdp_message_t` -/
structure Message where
  vVersion : Option Text
  oOrigin : Option Origin
  sName : Option Text
  iInfo : Option Text
  uUri : Option Text
  eEmails : List Text
  pPhones : List Text
  cConnection : Option Connection
  bBandwidths : List Bandwidth
  tDescrs : List TimeDescr
  zAdjustments : Option Text
  kKey : Option Key
  aAttributes : List Attribute
  mMedias : List Media
  deriving DecidableEq

/-- `sdp_message_init` -/
def sdpMessageInit : Message where
  vVersion := none
  oOrigin := none
  sName := none
  iInfo := none
  uUri := none
  eEmails := []
  pPhones := []
  cConnection := none
  bBandwidths := []
  tDescrs := []
  zAdjustments := none
  kKey := none
  aAttributes := []
  mMedias := []

def Origin.value (o : Origin) : Text :=
  o.oUsername ++ ' ' :: (o.oSessId ++ ' ' :: (o.oSessVersion ++ ' ' :: (o.oNettype ++ ' ' ::
    (o.oAddrtype ++ ' ' :: o.oAddr))))

def parseOrigin (buf : Text) : Option Origin := do
  let username ← osipSetNextToken ' ' buf
  let sessId ← osipSetNextToken ' ' username.2
  let sessVersion ← osipSetNextToken ' ' sessId.2
  let nettype ← osipSetNextToken ' ' sessVersion.2
  let addrtype ← osipSetNextToken ' ' nettype.2
  let addr ← lastToken addrtype.2
  pure
    { oUsername := username.1
      oSessId := sessId.1
      oSessVersion := sessVersion.1
      oNettype := nettype.1
      oAddrtype := addrtype.1
      oAddr := addr }

/-! ## Lines -/

/-- A line ends with a carriage return, a newline, or both. -/
def isEol (c : Char) : Bool :=
  c == '\r' || c == '\n'

/-- How each of the functions begins: the next equals sign is looked for, wherever it is, and the
letter in front of it decides whether the line is for the function.  In front of an equals sign at
the start of the text there is the end of the last line. -/
def readLine (letter : Char) (buf : Text) : Field Text Char :=
  match buf.dropWhile (· ≠ '=') with
  | [] => .bad
  | _ :: value =>
    if (buf.takeWhile (· ≠ '=')).getLast? ≠ some letter then .other
    else
      match value.dropWhile fun c => !isEol c with
      | [] => .bad
      | _ :: next =>
        let value := value.takeWhile fun c => !isEol c
        if value = [] then .bad
        else .read value (if next.head? = some '\n' then next.tail else next)

/-- A function for the lines with a letter. -/
def parseField (letter : Char) (add : Text → Message → Option Message) (sdp : Message)
    (buf : Text) : Field Message Char :=
  match readLine letter buf with
  | .bad => .bad
  | .other => .other
  | .read value next =>
    match add value sdp with
    | none => .bad
    | some sdp => .read sdp next

/-- A line is about the last media line, and if there is none about the session. -/
def addUnder (session : Message → Message) (media : Media → Media) (sdp : Message) : Message :=
  if sdp.mMedias = [] then session sdp
  else { sdp with mMedias := sdp.mMedias.modifyLast media }

def sdpMessageParseV : Message → Text → Field Message Char :=
  parseField 'v' fun value sdp => some { sdp with vVersion := some value }

def sdpMessageParseO : Message → Text → Field Message Char :=
  parseField 'o' fun value sdp => (parseOrigin value).map fun o => { sdp with oOrigin := some o }

def sdpMessageParseS : Message → Text → Field Message Char :=
  parseField 's' fun value sdp => some { sdp with sName := some value }

def sdpMessageParseI : Message → Text → Field Message Char :=
  parseField 'i' fun value sdp =>
    some (addUnder (fun sdp => { sdp with iInfo := some value })
      (fun m => { m with iInfo := some value }) sdp)

def sdpMessageParseU : Message → Text → Field Message Char :=
  parseField 'u' fun value sdp => some { sdp with uUri := some value }

def sdpMessageParseE : Message → Text → Field Message Char :=
  parseField 'e' fun value sdp => some { sdp with eEmails := sdp.eEmails ++ [value] }

def sdpMessageParseP : Message → Text → Field Message Char :=
  parseField 'p' fun value sdp => some { sdp with pPhones := sdp.pPhones ++ [value] }

def sdpMessageParseC : Message → Text → Field Message Char :=
  parseField 'c' fun value sdp => (parseConnection value).map fun conn =>
    addUnder (fun sdp => { sdp with cConnection := some conn })
      (fun m => { m with cConnections := m.cConnections ++ [conn] }) sdp

def sdpMessageParseB : Message → Text → Field Message Char :=
  parseField 'b' fun value sdp => (parseBandwidth value).map fun b =>
    addUnder (fun sdp => { sdp with bBandwidths := sdp.bBandwidths ++ [b] })
      (fun m => { m with bBandwidths := m.bBandwidths ++ [b] }) sdp

def sdpMessageParseT : Message → Text → Field Message Char :=
  parseField 't' fun value sdp => (parseTimeDescr value).map fun td =>
    { sdp with tDescrs := sdp.tDescrs ++ [td] }

/-- A repeat is about the last time, and cannot come without one. -/
def sdpMessageParseR : Message → Text → Field Message Char :=
  parseField 'r' fun value sdp =>
    if sdp.tDescrs = [] then none
    else some
      { sdp with
        tDescrs := sdp.tDescrs.modifyLast fun td => { td with rRepeats := td.rRepeats ++ [value] } }

def sdpMessageParseZ : Message → Text → Field Message Char :=
  parseField 'z' fun value sdp => some { sdp with zAdjustments := some value }

def sdpMessageParseK : Message → Text → Field Message Char :=
  parseField 'k' fun value sdp => (parseKey value).map fun key =>
    addUnder (fun sdp => { sdp with kKey := some key }) (fun m => { m with kKey := some key }) sdp

def sdpMessageParseA : Message → Text → Field Message Char :=
  parseField 'a' fun value sdp => (parseAttribute value).map fun a =>
    addUnder (fun sdp => { sdp with aAttributes := sdp.aAttributes ++ [a] })
      (fun m => { m with aAttributes := m.aAttributes ++ [a] }) sdp

def sdpMessageParseM : Message → Text → Field Message Char :=
  parseField 'm' fun value sdp => (parseMedia value).map fun m =>
    { sdp with mMedias := sdp.mMedias ++ [m] }

/-! ## The parser -/

/-- The text is at its end or at an empty line. -/
def isEnd : Text → Bool
  | [] => true
  | c :: _ => isEol c

/-- There is no look at the end of the text before the first time has been read. -/
def never (_ : Text) : Bool :=
  false

/-- The repeats of a time, and the next time, as long as there is one. -/
def moreTimes : Nat → Message → Text → Outcome Message Char
  | 0, sdp, buf => .more sdp buf
  | n + 1, sdp, buf =>
    (many isEnd sdpMessageParseR sdp buf).next fun sdp buf =>
      match sdpMessageParseT sdp buf with
      | .bad => .failed
      | .other => check isEnd sdp buf
      | .read sdp buf => (check isEnd sdp buf).next (moreTimes n)

/-- What may come under a media line. -/
def underMedia (sdp : Message) (buf : Text) : Outcome Message Char :=
  once isEnd sdpMessageParseI sdp buf
    |>.next (many isEnd sdpMessageParseC)
    |>.next (many isEnd sdpMessageParseB)
    |>.next (once isEnd sdpMessageParseK)
    |>.next (many isEnd sdpMessageParseA)

/-- `sdp_message_parse`.  Some phones place the name in front of the origin. -/
def sdpMessageParse (buf : Text) : Option Message :=
  must never sdpMessageParseV sdpMessageInit buf
    |>.next (once never sdpMessageParseS)
    |>.next (must never sdpMessageParseO)
    |>.next (once never sdpMessageParseS)
    |>.next (once never sdpMessageParseI)
    |>.next (once never sdpMessageParseU)
    |>.next (many never sdpMessageParseE)
    |>.next (many never sdpMessageParseP)
    |>.next (once never sdpMessageParseC)
    |>.next (many never sdpMessageParseB)
    |>.next (must isEnd sdpMessageParseT)
    |>.next (many isEnd sdpMessageParseR)
    |>.next (once isEnd sdpMessageParseT)
    |>.next (fun sdp buf => moreTimes (buf.length + 1) sdp buf)
    |>.next (once isEnd sdpMessageParseZ)
    |>.next (once isEnd sdpMessageParseK)
    |>.next (many isEnd sdpMessageParseA)
    |>.next (fun sdp buf => rounds isEnd sdpMessageParseM underMedia (buf.length + 1) sdp buf)
    |>.result

/-! ## The printer -/

def printLine (letter : Char) (value : Text) : Text :=
  letter :: '=' :: (value ++ crlf)

def Connection.text (conn : Connection) : Text :=
  printLine 'c' conn.value

def Bandwidth.text (b : Bandwidth) : Text :=
  printLine 'b' b.value

def TimeDescr.text (td : TimeDescr) : Text :=
  printLine 't' td.value ++ td.rRepeats.flatMap (printLine 'r')

def Key.text (key : Key) : Text :=
  printLine 'k' key.value

def Attribute.text (a : Attribute) : Text :=
  printLine 'a' a.value

def Media.text (m : Media) : Text :=
  printLine 'm' m.value ++ (m.iInfo.toList.flatMap (printLine 'i') ++
    (m.cConnections.flatMap Connection.text ++ (m.bBandwidths.flatMap Bandwidth.text ++
      (m.kKey.toList.flatMap Key.text ++ m.aAttributes.flatMap Attribute.text))))

/-- The lines behind the origin. -/
def Message.rest (sdp : Message) : Text :=
  sdp.sName.toList.flatMap (printLine 's') ++
    (sdp.iInfo.toList.flatMap (printLine 'i') ++
      (sdp.uUri.toList.flatMap (printLine 'u') ++
        (sdp.eEmails.flatMap (printLine 'e') ++
          (sdp.pPhones.flatMap (printLine 'p') ++
            (sdp.cConnection.toList.flatMap Connection.text ++
              (sdp.bBandwidths.flatMap Bandwidth.text ++
                (sdp.tDescrs.flatMap TimeDescr.text ++
                  (sdp.zAdjustments.toList.flatMap (printLine 'z') ++
                    (sdp.kKey.toList.flatMap Key.text ++
                      (sdp.aAttributes.flatMap Attribute.text ++
                        sdp.mMedias.flatMap Media.text))))))))))

def Message.text (sdp : Message) : Text :=
  sdp.vVersion.toList.flatMap (printLine 'v') ++
    (sdp.oOrigin.toList.flatMap (fun o => printLine 'o' o.value) ++ sdp.rest)

def bodyMessageMaxSize : Nat := 4000

/-- `sdp_message_to_str`, which prints into a block of `BODY_MESSAGE_MAX_SIZE` bytes.  Where this is
too small, `__osip_sdp_append_string` writes the last terminator behind it, or gets another block
and does not tell its caller. -/
def sdpMessageToStr (sdp : Message) : C (Option Text) :=
  if sdp.vVersion.isSome && sdp.oOrigin.isSome then do
    let string ← sprintf bodyMessageMaxSize sdp.text
    pure (some string.text)
  else pure none

/-- `sdp_message_clone` -/
def sdpMessageClone (sdp : Message) : C (Option Message) := do
  let body ← sdpMessageToStr sdp
  pure (body.bind sdpMessageParse)

/-! ## What has been accepted -/

/-- The value of a line is not empty and in the line. -/
structure Value (value : Text) : Prop where
  ne_nil : value ≠ []
  oneLine : ∀ c ∈ value, isEol c = false

theorem Value.of_prefix {value part : Text} (h : Value value) (hpart : part <+: value)
    (hne : part ≠ []) : Value part :=
  ⟨hne, fun c hc => h.oneLine c (hpart.subset hc)⟩

structure Origin.Sound (o : Origin) : Prop where
  username : o.oUsername ≠ [] ∧ ' ' ∉ o.oUsername
  sessId : o.oSessId ≠ [] ∧ ' ' ∉ o.oSessId
  sessVersion : o.oSessVersion ≠ [] ∧ ' ' ∉ o.oSessVersion
  nettype : o.oNettype ≠ [] ∧ ' ' ∉ o.oNettype
  addrtype : o.oAddrtype ≠ [] ∧ ' ' ∉ o.oAddrtype
  addr : o.oAddr ≠ []

structure Bandwidth.Sound (b : Bandwidth) : Prop where
  bwtype : b.bBwtype ≠ [] ∧ ':' ∉ b.bBwtype
  bandwidth : b.bBandwidth ≠ []

structure TimeDescr.Sound (td : TimeDescr) : Prop where
  start : td.tStartTime ≠ [] ∧ ' ' ∉ td.tStartTime
  stop : td.tStopTime ≠ []
  value : Value td.value
  repeats : ∀ r ∈ td.rRepeats, Value r

structure Key.Sound (key : Key) : Prop where
  keytype : key.kKeytype ≠ [] ∧ ':' ∉ key.kKeytype
  keydata : key.kKeydata ≠ some []

structure Attribute.Sound (a : Attribute) : Prop where
  field : a.aAttField ≠ [] ∧ ':' ∉ a.aAttField
  value : a.aAttValue ≠ some []

/-- What may come under a media line as well as in the session. -/
structure UnderSound (info : Option Text) (conns : List Connection) (bandwidths : List Bandwidth)
    (key : Option Key) (attributes : List Attribute) : Prop where
  info : ∀ i ∈ info, Value i
  conns : ∀ conn ∈ conns, conn.Sound ∧ Value conn.value
  bandwidths : ∀ b ∈ bandwidths, b.Sound ∧ Value b.value
  key : ∀ k ∈ key, k.Sound ∧ Value k.value
  attributes : ∀ a ∈ attributes, a.Sound ∧ Value a.value

structure Media.Sound (m : Media) : Prop where
  line : m.LineSound
  value : Value m.value
  under : UnderSound m.iInfo m.cConnections m.bBandwidths m.kKey m.aAttributes

/-- The lines there are are well formed. -/
structure Message.Sound (sdp : Message) : Prop where
  version : ∀ v ∈ sdp.vVersion, Value v
  origin : ∀ o ∈ sdp.oOrigin, o.Sound ∧ Value o.value
  name : ∀ s ∈ sdp.sName, Value s
  uri : ∀ u ∈ sdp.uUri, Value u
  emails : ∀ e ∈ sdp.eEmails, Value e
  phones : ∀ p ∈ sdp.pPhones, Value p
  times : ∀ td ∈ sdp.tDescrs, td.Sound
  adjustments : ∀ z ∈ sdp.zAdjustments, Value z
  under : UnderSound sdp.iInfo sdp.cConnection.toList sdp.bBandwidths sdp.kKey sdp.aAttributes
  medias : ∀ m ∈ sdp.mMedias, m.Sound

theorem parseOrigin_iff {buf : Text} {o : Origin} :
    parseOrigin buf = some o ↔ o.Sound ∧ buf = o.value := by
  simp only [parseOrigin, Option.bind_eq_bind, Option.pure_def, Option.bind_eq_some_iff,
    Prod.exists, osipSetNextToken_eq_some, lastToken_eq_some, Option.some.injEq]
  constructor
  · rintro ⟨_, _, ⟨h1, h1', rfl⟩, _, _, ⟨h2, h2', rfl⟩, _, _, ⟨h3, h3', rfl⟩, _, _, ⟨h4, h4', rfl⟩,
      _, _, ⟨h5, h5', rfl⟩, _, ⟨h6, rfl⟩, rfl⟩
    exact ⟨⟨⟨h1, h1'⟩, ⟨h2, h2'⟩, ⟨h3, h3'⟩, ⟨h4, h4'⟩, ⟨h5, h5'⟩, h6⟩, rfl⟩
  · rintro ⟨h, rfl⟩
    exact ⟨_, _, ⟨h.username.1, h.username.2, rfl⟩, _, _, ⟨h.sessId.1, h.sessId.2, rfl⟩, _, _,
      ⟨h.sessVersion.1, h.sessVersion.2, rfl⟩, _, _, ⟨h.nettype.1, h.nettype.2, rfl⟩, _, _,
      ⟨h.addrtype.1, h.addrtype.2, rfl⟩, _, ⟨h.addr, rfl⟩, rfl⟩

theorem parseBandwidth_iff {buf : Text} {b : Bandwidth} :
    parseBandwidth buf = some b ↔ b.Sound ∧ buf = b.value := by
  simp only [parseBandwidth, Option.map_eq_some_iff, Prod.exists, parsePair_iff]
  constructor
  · rintro ⟨_, _, ⟨ha, hnot, hb, rfl⟩, rfl⟩
    exact ⟨⟨⟨ha, hnot⟩, hb⟩, rfl⟩
  · rintro ⟨h, rfl⟩
    exact ⟨_, _, ⟨h.bwtype.1, h.bwtype.2, h.bandwidth, rfl⟩, rfl⟩

theorem parseKey_iff {buf : Text} {key : Key} :
    parseKey buf = some key ↔ key.Sound ∧ buf = key.value := by
  simp only [parseKey, Option.map_eq_some_iff, Prod.exists, parseOptional_iff]
  constructor
  · rintro ⟨_, _, ⟨ha, hnot, hb, rfl⟩, rfl⟩
    exact ⟨⟨⟨ha, hnot⟩, hb⟩, rfl⟩
  · rintro ⟨h, rfl⟩
    exact ⟨_, _, ⟨h.keytype.1, h.keytype.2, h.keydata, rfl⟩, rfl⟩

theorem parseAttribute_iff {buf : Text} {a : Attribute} :
    parseAttribute buf = some a ↔ a.Sound ∧ buf = a.value := by
  simp only [parseAttribute, Option.map_eq_some_iff, Prod.exists, parseOptional_iff]
  constructor
  · rintro ⟨_, _, ⟨ha, hnot, hb, rfl⟩, rfl⟩
    exact ⟨⟨⟨ha, hnot⟩, hb⟩, rfl⟩
  · rintro ⟨h, rfl⟩
    exact ⟨_, _, ⟨h.field.1, h.field.2, h.value, rfl⟩, rfl⟩

theorem value_of_readLine {letter : Char} {buf value next : Text}
    (h : readLine letter buf = .read value next) : Value value := by
  rw [readLine] at h
  split at h
  · cases h
  · split at h
    · cases h
    · split at h
      · cases h
      · dsimp only at h
        split at h
        · cases h
        · next hne =>
          injection h with hvalue
          subst hvalue
          refine ⟨hne, fun c hc => ?_⟩
          simpa using List.mem_takeWhile_imp hc

theorem exists_of_parseField {letter : Char} {add : Text → Message → Option Message}
    {sdp sdp' : Message} {buf buf' : Text} (h : parseField letter add sdp buf = .read sdp' buf') :
    ∃ value, Value value ∧ add value sdp = some sdp' := by
  rw [parseField] at h
  split at h
  · cases h
  · cases h
  · next value next hline =>
    split at h
    · cases h
    · next hsome =>
      injection h with hsdp
      subst hsdp
      exact ⟨value, value_of_readLine hline, hsome⟩

/-- What each value keeps, the function for its line keeps. -/
theorem keeps_parseField {M : Message → Prop} {letter : Char} {add : Text → Message → Option Message}
    (hadd : ∀ value sdp sdp', Value value → M sdp → add value sdp = some sdp' → M sdp') :
    Keeps M (parseField letter add) := by
  intro sdp buf sdp' buf' hM h
  obtain ⟨value, hvalue, hsome⟩ := exists_of_parseField h
  exact hadd value sdp sdp' hvalue hM hsome

theorem Media.Sound.setUnder {m : Media} (h : m.Sound) {info : Option Text} {conns : List Connection}
    {bandwidths : List Bandwidth} {key : Option Key} {attributes : List Attribute}
    (hunder : UnderSound info conns bandwidths key attributes) :
    Media.Sound
      { m with
        iInfo := info
        cConnections := conns
        bBandwidths := bandwidths
        kKey := key
        aAttributes := attributes } :=
  ⟨⟨h.line.media, h.line.port, h.line.number, h.line.proto, h.line.noPayloads, h.line.payloads⟩,
    h.value, hunder⟩

theorem Message.Sound.setUnder {sdp : Message} (h : sdp.Sound) {info : Option Text}
    {conn : Option Connection} {bandwidths : List Bandwidth} {key : Option Key}
    {attributes : List Attribute}
    (hunder : UnderSound info conn.toList bandwidths key attributes) :
    Message.Sound
      { sdp with
        iInfo := info
        cConnection := conn
        bBandwidths := bandwidths
        kKey := key
        aAttributes := attributes } :=
  ⟨h.version, h.origin, h.name, h.uri, h.emails, h.phones, h.times, h.adjustments, hunder, h.medias⟩

theorem forall_mem_modifyLast {α : Type} {P : α → Prop} {f : α → α} {l : List α}
    (hl : ∀ x ∈ l, P x) (hf : ∀ x, P x → P (f x)) : ∀ x ∈ l.modifyLast f, P x := by
  induction l using List.reverseRecOn with
  | nil => exact hl
  | append_singleton l x =>
    rw [List.modifyLast_concat]
    obtain ⟨hl, hx⟩ := List.forall_mem_append.1 hl
    refine List.forall_mem_append.2 ⟨hl, ?_⟩
    rw [List.forall_mem_singleton] at hx ⊢
    exact hf x hx

/-- The lines are well formed, and some of those that have to be there are there. -/
structure Reached (version origin times : Prop) (sdp : Message) : Prop where
  sound : sdp.Sound
  version : version → sdp.vVersion.isSome = true
  origin : origin → sdp.oOrigin.isSome = true
  times : times → sdp.tDescrs ≠ []

/-- What one value makes of the lines that may come under a media line. -/
theorem Reached.addUnder {version origin times : Prop} {sdp : Message}
    (h : Reached version origin times sdp) {session : Message → Message} {media : Media → Media}
    (hsession : Reached version origin times (session sdp)) (hmedia : ∀ m, m.Sound → (media m).Sound) :
    Reached version origin times (addUnder session media sdp) := by
  rw [OsipSdp.addUnder]
  split
  · exact hsession
  · exact ⟨{ h.sound with medias := forall_mem_modifyLast h.sound.medias hmedia }, h.version, h.origin,
      h.times⟩

section Keeps

variable {version origin times : Prop} {α : Type} {P : α → Prop}

theorem forall_mem_snoc {l : List α} (hl : ∀ x ∈ l, P x) {y : α} (hy : P y) :
    ∀ x ∈ l ++ [y], P x :=
  List.forall_mem_append.2 ⟨hl, List.forall_mem_singleton.2 hy⟩

theorem forall_mem_some {y : α} (hy : P y) : ∀ x ∈ some y, P x :=
  fun _ hx => Option.some.inj hx ▸ hy

theorem keeps_parseS : Keeps (Reached version origin times) sdpMessageParseS := by
  refine keeps_parseField fun value sdp sdp' hvalue h hadd => ?_
  obtain rfl := Option.some.inj hadd
  exact ⟨{ h.sound with name := forall_mem_some hvalue }, h.version, h.origin, h.times⟩

theorem keeps_parseI : Keeps (Reached version origin times) sdpMessageParseI := by
  refine keeps_parseField fun value sdp sdp' hvalue h hadd => ?_
  obtain rfl := Option.some.inj hadd
  refine h.addUnder ⟨?_, h.version, h.origin, h.times⟩ fun m hm => ?_
  · exact h.sound.setUnder { h.sound.under with info := forall_mem_some hvalue }
  · exact hm.setUnder { hm.under with info := forall_mem_some hvalue }

theorem keeps_parseU : Keeps (Reached version origin times) sdpMessageParseU := by
  refine keeps_parseField fun value sdp sdp' hvalue h hadd => ?_
  obtain rfl := Option.some.inj hadd
  exact ⟨{ h.sound with uri := forall_mem_some hvalue }, h.version, h.origin, h.times⟩

theorem keeps_parseE : Keeps (Reached version origin times) sdpMessageParseE := by
  refine keeps_parseField fun value sdp sdp' hvalue h hadd => ?_
  obtain rfl := Option.some.inj hadd
  exact ⟨{ h.sound with emails := forall_mem_snoc h.sound.emails hvalue }, h.version, h.origin,
    h.times⟩

theorem keeps_parseP : Keeps (Reached version origin times) sdpMessageParseP := by
  refine keeps_parseField fun value sdp sdp' hvalue h hadd => ?_
  obtain rfl := Option.some.inj hadd
  exact ⟨{ h.sound with phones := forall_mem_snoc h.sound.phones hvalue }, h.version, h.origin,
    h.times⟩

theorem keeps_parseC : Keeps (Reached version origin times) sdpMessageParseC := by
  refine keeps_parseField fun value sdp sdp' hvalue h hadd => ?_
  obtain ⟨conn, hconn, rfl⟩ := Option.map_eq_some_iff.1 hadd
  obtain ⟨hsound, rfl⟩ := parseConnection_iff.1 hconn
  refine h.addUnder ⟨?_, h.version, h.origin, h.times⟩ fun m hm => ?_
  · exact h.sound.setUnder
      { h.sound.under with conns := List.forall_mem_singleton.2 ⟨hsound, hvalue⟩ }
  · exact hm.setUnder
      { hm.under with conns := forall_mem_snoc hm.under.conns ⟨hsound, hvalue⟩ }

theorem keeps_parseB : Keeps (Reached version origin times) sdpMessageParseB := by
  refine keeps_parseField fun value sdp sdp' hvalue h hadd => ?_
  obtain ⟨b, hb, rfl⟩ := Option.map_eq_some_iff.1 hadd
  obtain ⟨hsound, rfl⟩ := parseBandwidth_iff.1 hb
  refine h.addUnder ⟨?_, h.version, h.origin, h.times⟩ fun m hm => ?_
  · exact h.sound.setUnder
      { h.sound.under with bandwidths := forall_mem_snoc h.sound.under.bandwidths ⟨hsound, hvalue⟩ }
  · exact hm.setUnder
      { hm.under with bandwidths := forall_mem_snoc hm.under.bandwidths ⟨hsound, hvalue⟩ }

theorem keeps_parseK : Keeps (Reached version origin times) sdpMessageParseK := by
  refine keeps_parseField fun value sdp sdp' hvalue h hadd => ?_
  obtain ⟨key, hkey, rfl⟩ := Option.map_eq_some_iff.1 hadd
  obtain ⟨hsound, rfl⟩ := parseKey_iff.1 hkey
  refine h.addUnder ⟨?_, h.version, h.origin, h.times⟩ fun m hm => ?_
  · exact h.sound.setUnder { h.sound.under with key := forall_mem_some ⟨hsound, hvalue⟩ }
  · exact hm.setUnder { hm.under with key := forall_mem_some ⟨hsound, hvalue⟩ }

theorem keeps_parseA : Keeps (Reached version origin times) sdpMessageParseA := by
  refine keeps_parseField fun value sdp sdp' hvalue h hadd => ?_
  obtain ⟨a, ha, rfl⟩ := Option.map_eq_some_iff.1 hadd
  obtain ⟨hsound, rfl⟩ := parseAttribute_iff.1 ha
  refine h.addUnder ⟨?_, h.version, h.origin, h.times⟩ fun m hm => ?_
  · exact h.sound.setUnder
      { h.sound.under with attributes := forall_mem_snoc h.sound.under.attributes ⟨hsound, hvalue⟩ }
  · exact hm.setUnder
      { hm.under with attributes := forall_mem_snoc hm.under.attributes ⟨hsound, hvalue⟩ }

theorem keeps_parseZ : Keeps (Reached version origin times) sdpMessageParseZ := by
  refine keeps_parseField fun value sdp sdp' hvalue h hadd => ?_
  obtain rfl := Option.some.inj hadd
  exact ⟨{ h.sound with adjustments := forall_mem_some hvalue }, h.version, h.origin, h.times⟩

theorem modifyLast_ne_nil {f : α → α} {l : List α} (hl : l ≠ []) : l.modifyLast f ≠ [] := by
  rw [← List.dropLast_concat_getLast hl, List.modifyLast_concat]
  exact List.concat_ne_nil _ _

theorem keeps_parseR : Keeps (Reached version origin times) sdpMessageParseR := by
  refine keeps_parseField fun value sdp sdp' hvalue h hadd => ?_
  split at hadd
  · cases hadd
  · next hne =>
    obtain rfl := Option.some.inj hadd
    refine ⟨{ h.sound with times := ?_ }, h.version, h.origin, fun _ => modifyLast_ne_nil hne⟩
    refine forall_mem_modifyLast h.sound.times fun td htd => ?_
    exact { htd with repeats := forall_mem_snoc htd.repeats hvalue }

theorem keeps_parseM : Keeps (Reached version origin times) sdpMessageParseM := by
  refine keeps_parseField fun value sdp sdp' hvalue h hadd => ?_
  obtain ⟨m, hm, rfl⟩ := Option.map_eq_some_iff.1 hadd
  obtain ⟨hline, hprefix, hempty⟩ := sound_of_parseMedia hm
  refine ⟨{ h.sound with medias := forall_mem_snoc h.sound.medias ⟨hline, ?_, ?_⟩ }, h.version,
    h.origin, h.times⟩
  · refine hvalue.of_prefix hprefix fun h0 => hline.media.1 ?_
    exact (List.append_eq_nil_iff.1 h0).1
  · rw [← hempty]
    exact ⟨nofun, nofun, nofun, nofun, nofun⟩

theorem reached_of_parseV {sdp sdp' : Message} {buf buf' : Text}
    (h : Reached version origin times sdp) (hread : sdpMessageParseV sdp buf = .read sdp' buf') :
    Reached True origin times sdp' := by
  obtain ⟨value, hvalue, hadd⟩ := exists_of_parseField hread
  obtain rfl := Option.some.inj hadd
  exact ⟨{ h.sound with version := forall_mem_some hvalue }, fun _ => rfl, h.origin, h.times⟩

theorem reached_of_parseO {sdp sdp' : Message} {buf buf' : Text}
    (h : Reached version origin times sdp) (hread : sdpMessageParseO sdp buf = .read sdp' buf') :
    Reached version True times sdp' := by
  obtain ⟨value, hvalue, hadd⟩ := exists_of_parseField hread
  obtain ⟨o, ho, rfl⟩ := Option.map_eq_some_iff.1 hadd
  obtain ⟨hsound, rfl⟩ := parseOrigin_iff.1 ho
  exact ⟨{ h.sound with origin := forall_mem_some ⟨hsound, hvalue⟩ }, h.version, fun _ => rfl,
    h.times⟩

theorem reached_of_parseT {sdp sdp' : Message} {buf buf' : Text}
    (h : Reached version origin times sdp) (hread : sdpMessageParseT sdp buf = .read sdp' buf') :
    Reached version origin True sdp' := by
  obtain ⟨value, hvalue, hadd⟩ := exists_of_parseField hread
  obtain ⟨td, htd, rfl⟩ := Option.map_eq_some_iff.1 hadd
  obtain ⟨⟨first, second⟩, hpair, rfl⟩ := Option.map_eq_some_iff.1 htd
  obtain ⟨hfirst, hnot, hsecond, rfl⟩ := parsePair_iff.1 hpair
  refine ⟨{ h.sound with times := ?_ }, h.version, h.origin, fun _ => List.concat_ne_nil _ _⟩
  exact forall_mem_snoc h.sound.times ⟨⟨hfirst, hnot⟩, hsecond, hvalue, List.forall_mem_nil _⟩

theorem sat_moreTimes (n : Nat) {sdp : Message} {buf : Text}
    (h : Reached version origin True sdp) :
    (moreTimes n sdp buf).Sat (Reached version origin True) (Reached version origin True) := by
  induction n generalizing sdp buf with
  | zero => exact h
  | succ n ih =>
    rw [moreTimes]
    refine (many_sat keeps_parseR (fun _ _ hM _ => hM) h).next fun sdp buf h => ?_
    cases hfield : sdpMessageParseT sdp buf with
    | bad => trivial
    | other => exact check_sat h fun _ => h
    | read sdp' buf' =>
      have h' := reached_of_parseT h hfield
      exact (check_sat h' fun _ => h').next fun sdp buf => ih

theorem sat_underMedia {sdp : Message} {buf : Text} (h : Reached version origin times sdp) :
    (underMedia sdp buf).Sat (Reached version origin times) (Reached version origin times) := by
  have hD : ∀ sdp (buf : Text), Reached version origin times sdp → isEnd buf = true →
      Reached version origin times sdp := fun _ _ h _ => h
  rw [underMedia]
  refine Outcome.Sat.next ?_ fun _ _ => many_sat keeps_parseA hD
  refine Outcome.Sat.next ?_ fun _ _ => once_sat keeps_parseK hD
  refine Outcome.Sat.next ?_ fun _ _ => many_sat keeps_parseB hD
  exact Outcome.Sat.next (once_sat keeps_parseI hD h) fun _ _ => many_sat keeps_parseC hD

end Keeps

/-- **A description that has been accepted is well formed**, and has a version, an origin and a
time. -/
theorem reached_of_sdpMessageParse {buf : Text} {sdp : Message} (h : sdpMessageParse buf = some sdp) :
    Reached True True True sdp := by
  have hinit : Reached False False False sdpMessageInit :=
    ⟨⟨nofun, nofun, nofun, nofun, nofun, nofun, nofun, nofun, ⟨nofun, nofun, nofun, nofun, nofun⟩,
      nofun⟩, nofun, nofun, nofun⟩
  -- before the first time, the parser is not done
  have hnever {M : Message → Prop} (sdp : Message) (buf : Text) (_ : M sdp)
      (hend : never buf = true) : Reached True True True sdp := absurd hend Bool.false_ne_true
  have hD : ∀ sdp (buf : Text), Reached True True True sdp → isEnd buf = true →
      Reached True True True sdp := fun _ _ h _ => h
  refine Outcome.Sat.result ?_ h
  refine Outcome.Sat.next ?_ fun _ buf => rounds_sat keeps_parseM (fun _ _ => sat_underMedia) hD _
  refine Outcome.Sat.next ?_ fun _ _ => many_sat keeps_parseA hD
  refine Outcome.Sat.next ?_ fun _ _ => once_sat keeps_parseK hD
  refine Outcome.Sat.next ?_ fun _ _ => once_sat keeps_parseZ hD
  refine Outcome.Sat.next ?_ fun _ _ => sat_moreTimes _
  refine Outcome.Sat.next ?_ fun _ _ => once_sat (fun _ _ _ _ => reached_of_parseT) hD
  refine Outcome.Sat.next ?_ fun _ _ => many_sat keeps_parseR hD
  refine Outcome.Sat.next ?_ fun _ _ =>
    must_sat (fun _ _ _ _ => @reached_of_parseT True True False _ _ _ _) hD
  refine Outcome.Sat.next ?_ fun _ _ => many_sat (@keeps_parseB True True False) hnever
  refine Outcome.Sat.next ?_ fun _ _ => once_sat (@keeps_parseC True True False) hnever
  refine Outcome.Sat.next ?_ fun _ _ => many_sat (@keeps_parseP True True False) hnever
  refine Outcome.Sat.next ?_ fun _ _ => many_sat (@keeps_parseE True True False) hnever
  refine Outcome.Sat.next ?_ fun _ _ => once_sat (@keeps_parseU True True False) hnever
  refine Outcome.Sat.next ?_ fun _ _ => once_sat (@keeps_parseI True True False) hnever
  refine Outcome.Sat.next ?_ fun _ _ => once_sat (@keeps_parseS True True False) hnever
  refine Outcome.Sat.next ?_ fun _ _ =>
    must_sat (fun _ _ _ _ => @reached_of_parseO True False False _ _ _ _) hnever
  refine Outcome.Sat.next ?_ fun _ _ => once_sat (@keeps_parseS True False False) hnever
  exact must_sat (fun _ _ _ _ => reached_of_parseV) hnever hinit

end OsipSdp
end Furikup
