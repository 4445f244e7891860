import Furikup.ConfigFile

/-!
# The order of the options

Each option belongs to variables of its own, with one exception: `stunserver` turns NAT traversal
on and `disablenat=yes` turns it off, so that of the two the later one wins.

* `OptionName` — the options there are, and `handleOption_eq`, the handler by name.
* `valuesOf` — the values an option was given.  `vars_of_handleAll` says that a variable depends on
  nothing else than the values of the option it belongs to.
* `OptionFile` — a file of option lines that are each read in one go.
* `sameVars_iff` — when two such files with the same lines in different orders leave the same
  configuration.
-/

set_option autoImplicit false

namespace Furikup

open CText CFile

/-! ## Options by name -/

inductive OptionName
  | server
  | username
  | password
  | disablenat
  | stunserver
  | stunport
  | input
  | logfile
  | test
  deriving DecidableEq, Repr

namespace OptionName

def text : OptionName → Text
  | server => lit "server"
  | username => lit "username"
  | password => lit "password"
  | disablenat => lit "disablenat"
  | stunserver => lit "stunserver"
  | stunport => lit "stunport"
  | input => lit "input"
  | logfile => lit "logfile"
  | test => lit "test"

/-- In the order of `handleOption`. -/
def all : List OptionName :=
  [server, username, password, disablenat, stunserver, stunport, input, logfile, test]

theorem mem_all (k : OptionName) : k ∈ all := by
  cases k <;> decide

theorem text_inj {k m : OptionName} (h : k.text.map Char.toLower = m.text.map Char.toLower) :
    k = m := by
  cases k <;> cases m <;> first | rfl | simp [text, lit] at h

end OptionName

/-- The option a key names, in any case. -/
def optionName (key : Text) : Option OptionName :=
  OptionName.all.find? fun k => strcasecmp key k.text

theorem strcasecmp_iff {s t : Text} :
    strcasecmp s t = true ↔ s.map Char.toLower = t.map Char.toLower := by
  simp [strcasecmp]

theorem optionName_eq_some_iff {key : Text} {k : OptionName} :
    optionName key = some k ↔ strcasecmp key k.text = true := by
  have hsome : ∀ m, optionName key = some m → strcasecmp key m.text = true := fun m hm => by
    have hfound := List.find?_some hm
    exact hfound
  refine ⟨hsome k, fun h => ?_⟩
  cases hfind : optionName key with
  | none =>
    rw [optionName] at hfind
    exact absurd h (List.find?_eq_none.1 hfind k k.mem_all)
  | some m =>
    have hm := strcasecmp_iff.1 (hsome m hfind)
    exact congrArg some (OptionName.text_inj (hm.symm.trans (strcasecmp_iff.1 h)))

/-- What `handleOption` does with an option it knows. -/
def handleNamed (k : OptionName) (value : Text) (s : Settings) : C Settings :=
  match k with
  | .server => pure (s.mapVars (·.setServer value))
  | .username =>
    let s := if value = lit "1234567" then
        { s with errors := s.errors ++
          [lit "you haven't set up your sipcfg.ini - see the readme.txt"] }
      else s
    pure (s.mapVars (·.setUser value))
  | .password => pure (s.mapVars (·.setPassword value))
  | .disablenat =>
    pure (if strcasecmp value (lit "yes") then s.mapVars (·.setNatTraversal false) else s)
  | .stunserver => pure (s.mapVars (·.setStunServer value))
  | .stunport => pure (s.mapVars (·.setStunPort (atoi value)))
  | .input => pure (s.mapVars (handleInput value))
  | .logfile => do
    let vars ← s.vars.setLogfile value
    pure { s with vars }
  | .test => pure (s.mapVars (·.setTestMode true))

theorem handleOption_eq (option value : Text) (s : Settings) :
    handleOption option value s =
      match optionName option with
      | none => pure s
      | some k => handleNamed k value s := by
  simp only [handleOption, optionName, OptionName.all, List.find?, OptionName.text]
  -- The conditions are asked in the same order on both sides.
  cases strcasecmp option (lit "server")
  case true => rfl
  cases strcasecmp option (lit "username")
  case true => rfl
  cases strcasecmp option (lit "password")
  case true => rfl
  cases strcasecmp option (lit "disablenat")
  case true => rfl
  cases strcasecmp option (lit "stunserver")
  case true => rfl
  cases strcasecmp option (lit "stunport")
  case true => rfl
  cases strcasecmp option (lit "input")
  case true => rfl
  cases strcasecmp option (lit "logfile")
  case true => rfl
  cases strcasecmp option (lit "test")
  case true => rfl
  rfl

/-! ## What an option does to a variable -/

/-- The variables behind an option, apart from the log file. -/
def writeNamed (k : OptionName) (value : Text) (v : ConfigVars) : ConfigVars :=
  match k with
  | .server => v.setServer value
  | .username => v.setUser value
  | .password => v.setPassword value
  | .disablenat => { v with configNat := !strcasecmp value (lit "yes") && v.configNat }
  | .stunserver => v.setStunServer value
  | .stunport => v.setStunPort (atoi value)
  | .input =>
    let usbcam := strcasecmp value (lit "usbcam")
    let usbmic := strcasecmp value (lit "usbmic")
    let headset := strcasecmp value (lit "headset")
    let file := strcasecmp value (lit "file")
    { v with
      useVideo := usbcam || v.useVideo
      useUsb := usbcam || usbmic || v.useUsb
      useHeadset := (!usbcam && !usbmic && headset) || v.useHeadset
      useInputFile := (!usbcam && !usbmic && !headset && file) || v.useInputFile }
  | .logfile => v
  | .test => v.setTestMode true

theorem handleInput_eq (value : Text) (v : ConfigVars) :
    handleInput value v = writeNamed .input value v := by
  rw [handleInput, writeNamed]
  cases strcasecmp value (lit "usbcam")
  case true => rfl
  cases strcasecmp value (lit "usbmic")
  case true => rfl
  cases strcasecmp value (lit "headset")
  case true => rfl
  cases strcasecmp value (lit "file")
  case true => rfl
  rfl

/-- An option writes its variables; only the log file can be too long for that. -/
theorem handleNamed_cases {k : OptionName} {value : Text} {s s' : Settings}
    (h : handleNamed k value s = .ok s') :
    ∃ b : Buf 128, s'.vars = { writeNamed k value s.vars with logFile := b } ∧
      b.text = if k = .logfile then value else s.vars.logFile.text := by
  cases k with
  | server | password | stunserver | stunport | test =>
    exact ⟨s.vars.logFile, by rw [pure_eq_ok.1 h]; rfl, rfl⟩
  | username =>
    refine ⟨s.vars.logFile, ?_, rfl⟩
    rw [pure_eq_ok.1 h]
    split
    · rfl
    · rfl
  | disablenat =>
    refine ⟨s.vars.logFile, ?_, rfl⟩
    rw [pure_eq_ok.1 h, writeNamed]
    cases strcasecmp value (lit "yes") with
    | true => rfl
    | false => rfl
  | input =>
    refine ⟨s.vars.logFile, ?_, rfl⟩
    rw [pure_eq_ok.1 h, Settings.mapVars, handleInput_eq]
    rfl
  | logfile =>
    simp only [handleNamed, ConfigVars.setLogfile, bind_eq_ok, pure_eq_ok] at h
    obtain ⟨vars, ⟨b, hb, rfl⟩, rfl⟩ := h
    exact ⟨b, rfl, sprintf_eq_ok.1 hb⟩

theorem exists_handleNamed_iff {k : OptionName} {value : Text} {s : Settings} :
    (∃ s', handleNamed k value s = .ok s') ↔ (k = .logfile → value.length < 128) := by
  cases k with
  | logfile =>
    simp only [handleNamed, ConfigVars.setLogfile, bind_eq_ok, pure_eq_ok, forall_const]
    rw [← exists_sprintf_iff]
    constructor
    · rintro ⟨_, _, ⟨b, hb, -⟩, -⟩
      exact ⟨b, hb⟩
    · rintro ⟨b, hb⟩
      exact ⟨_, _, ⟨b, hb, rfl⟩, rfl⟩
  | server | username | password | disablenat | stunserver | stunport | input | test =>
    exact iff_of_true ⟨_, rfl⟩ OptionName.noConfusion

/-! ## What a variable depends on -/

/-- The options that are known, by name. -/
def named (cs : List (Text × Text)) : List (OptionName × Text) :=
  cs.filterMap fun c => (optionName c.1).map (·, c.2)

theorem named_cons_none {c : Text × Text} (h : optionName c.1 = none) (cs : List (Text × Text)) :
    named (c :: cs) = named cs := by
  rw [named, List.filterMap_cons_none (by rw [h]; rfl), named]

theorem named_cons_some {c : Text × Text} {k : OptionName} (h : optionName c.1 = some k)
    (cs : List (Text × Text)) : named (c :: cs) = (k, c.2) :: named cs := by
  rw [named, List.filterMap_cons_some (by rw [h]; rfl), named]

/-- `G` is what each option does to a part `π` of the configuration. -/
def Follows {β : Type} (π : ConfigVars → β) (G : OptionName → Text → β → β) : Prop :=
  ∀ (k : OptionName) (value : Text) (s s' : Settings), handleNamed k value s = .ok s' →
    π s'.vars = G k value (π s.vars)

theorem handleAll_cons {c : Text × Text} {cs : List (Text × Text)} {s s' : Settings} :
    handleAll handleOption (c :: cs) s = .ok s' ↔
      ∃ s₁, handleOption c.1 c.2 s = .ok s₁ ∧ handleAll handleOption cs s₁ = .ok s' := by
  simp only [handleAll, List.foldlM_cons, bind_eq_ok]

theorem Follows.eq_foldl {β : Type} {π : ConfigVars → β} {G : OptionName → Text → β → β}
    (hπ : Follows π G) {cs : List (Text × Text)} {s s' : Settings}
    (h : handleAll handleOption cs s = .ok s') :
    π s'.vars = (named cs).foldl (fun b c => G c.1 c.2 b) (π s.vars) := by
  induction cs generalizing s with
  | nil => rw [show s' = s from pure_eq_ok.1 h, named, List.filterMap_nil, List.foldl_nil]
  | cons c cs ih =>
    obtain ⟨s₁, h₁, h⟩ := handleAll_cons.1 h
    rw [handleOption_eq] at h₁
    rw [ih h]
    cases hname : optionName c.1 with
    | none =>
      rw [hname] at h₁
      rw [show s₁ = s from pure_eq_ok.1 h₁, named_cons_none hname]
    | some k =>
      rw [hname] at h₁
      rw [hπ k c.2 s s₁ h₁, named_cons_some hname, List.foldl_cons]

/-- All options go through if and only if no log file name is too long. -/
theorem exists_handleAll_iff {cs : List (Text × Text)} {s : Settings} :
    (∃ s', handleAll handleOption cs s = .ok s') ↔
      ∀ value, (.logfile, value) ∈ named cs → value.length < 128 := by
  induction cs generalizing s with
  | nil => exact iff_of_true ⟨s, rfl⟩ fun value h => absurd h List.not_mem_nil
  | cons c cs ih =>
    simp only [handleAll_cons, handleOption_eq]
    cases hname : optionName c.1 with
    | none =>
      simp only [pure_eq_ok, exists_eq_left, named_cons_none hname]
      exact ih
    | some k =>
      simp only [named_cons_some hname, List.mem_cons, Prod.mk.injEq]
      constructor
      · rintro ⟨s', s₁, h₁, h⟩ value (⟨rfl, rfl⟩ | hmem)
        · exact exists_handleNamed_iff.1 ⟨s₁, h₁⟩ rfl
        · exact ih.1 ⟨s', h⟩ value hmem
      · intro h
        have hroom : k = .logfile → c.2.length < 128 := fun hk => h c.2 (Or.inl ⟨hk.symm, rfl⟩)
        obtain ⟨s₁, h₁⟩ := (exists_handleNamed_iff (s := s)).2 hroom
        obtain ⟨s', h'⟩ := (ih (s := s₁)).2 fun value hmem => h value (Or.inr hmem)
        exact ⟨s', s₁, h₁, h'⟩

/-! ## Options that are given once -/

section Once

variable {K V β : Type} [DecidableEq K]

/-- A change that only one key makes. -/
def only (k : K) (F : V → β → β) (m : K) (v : V) (b : β) : β :=
  if m = k then F v b else b

theorem foldl_only_of_notMem {k : K} {F : V → β → β} {cs : List (K × V)} (h : ∀ v, (k, v) ∉ cs)
    (b : β) : cs.foldl (fun b c => only k F c.1 c.2 b) b = b := by
  induction cs generalizing b with
  | nil => rfl
  | cons c cs ih =>
    have hc : c.1 ≠ k := by
      rintro rfl
      exact h c.2 List.mem_cons_self
    rw [List.foldl_cons, only, if_neg hc, ih fun v hv => h v (List.mem_cons_of_mem c hv)]

theorem foldl_only_of_mem {k : K} {v : V} {F : V → β → β} {cs : List (K × V)}
    (hcs : (cs.map Prod.fst).Nodup) (h : (k, v) ∈ cs) (b : β) :
    cs.foldl (fun b c => only k F c.1 c.2 b) b = F v b := by
  induction cs generalizing b with
  | nil => exact absurd h List.not_mem_nil
  | cons c cs ih =>
    rw [List.map_cons, List.nodup_cons] at hcs
    rw [List.foldl_cons, only]
    rcases List.mem_cons.1 h with rfl | hmem
    · rw [if_pos rfl]
      exact foldl_only_of_notMem (fun w hw => hcs.1 (List.mem_map.2 ⟨_, hw, rfl⟩)) _
    · have hc : c.1 ≠ k := by
        rintro rfl
        exact hcs.1 (List.mem_map.2 ⟨_, hmem, rfl⟩)
      rw [if_neg hc, ih hcs.2 hmem]

/-- What the first list has, the second has too, except that it may lack keys with the value
`v₀`. -/
def AgreesUpTo (v₀ : V) (cs ds : List (K × V)) : Prop :=
  ∀ k v, (k, v) ∈ cs → (k, v) ∈ ds ∨ v = v₀ ∧ ∀ w, (k, w) ∉ ds

/-- A change that makes nothing of `v₀` does not see where keys with that value are missing. -/
theorem foldl_only_congr {v₀ : V} {cs ds : List (K × V)} (hcs : (cs.map Prod.fst).Nodup)
    (hds : (ds.map Prod.fst).Nodup) (h : AgreesUpTo v₀ cs ds) (h' : AgreesUpTo v₀ ds cs) {k : K}
    {F : V → β → β} {b : β} (hF : F v₀ b = b) :
    cs.foldl (fun b c => only k F c.1 c.2 b) b = ds.foldl (fun b c => only k F c.1 c.2 b) b := by
  by_cases hk : ∃ v, (k, v) ∈ cs
  · obtain ⟨v, hv⟩ := hk
    rw [foldl_only_of_mem hcs hv]
    rcases h k v hv with hd | ⟨rfl, hd⟩
    · rw [foldl_only_of_mem hds hd]
    · rw [foldl_only_of_notMem hd, hF]
  · push Not at hk
    rw [foldl_only_of_notMem hk]
    by_cases hd : ∃ v, (k, v) ∈ ds
    · obtain ⟨v, hv⟩ := hd
      rcases h' k v hv with hc | ⟨rfl, -⟩
      · exact absurd hc (hk v)
      · rw [foldl_only_of_mem hds hv, hF]
    · push Not at hd
      rw [foldl_only_of_notMem hd]

end Once

/-! ### The variables, each with its option -/

/-- `writeNamed` says what is done to everything but the log file. -/
theorem follows_of_writeNamed {β : Type} {π : ConfigVars → β} {G : OptionName → Text → β → β}
    (h : ∀ k value v b, π { writeNamed k value v with logFile := b } = G k value (π v)) :
    Follows π G := by
  intro k value s s' hs
  obtain ⟨b, hb, -⟩ := handleNamed_cases hs
  rw [hb, h]

theorem follows_server :
    Follows (·.configServer) (only .server fun value _ => strncpy 128 value) :=
  follows_of_writeNamed fun k _ _ _ => by cases k <;> rfl

theorem follows_user :
    Follows (·.configUser) (only .username fun value _ => strncpy 128 value) :=
  follows_of_writeNamed fun k _ _ _ => by cases k <;> rfl

theorem follows_password :
    Follows (·.configPassword) (only .password fun value _ => strncpy 64 value) :=
  follows_of_writeNamed fun k _ _ _ => by cases k <;> rfl

theorem follows_stunServer :
    Follows (·.configStunServer) (only .stunserver fun value _ => strncpy 128 value) :=
  follows_of_writeNamed fun k _ _ _ => by cases k <;> rfl

theorem follows_stunPort :
    Follows (·.configStunPort) (only .stunport fun value _ => atoi value) :=
  follows_of_writeNamed fun k _ _ _ => by cases k <;> rfl

theorem follows_testMode : Follows (·.useTestMode) (only .test fun _ _ => true) :=
  follows_of_writeNamed fun k _ _ _ => by cases k <;> rfl

theorem follows_logFile : Follows (·.logFile.text) (only .logfile fun value _ => value) := by
  intro k value s s' hs
  obtain ⟨b, hb, htext⟩ := handleNamed_cases hs
  rw [hb]
  exact htext

/-- The two options that touch NAT traversal. -/
def natStep (k : OptionName) (value : Text) (nat : Bool) : Bool :=
  match k with
  | .stunserver => true
  | .disablenat => !strcasecmp value (lit "yes") && nat
  | _ => nat

theorem follows_nat : Follows (·.configNat) natStep :=
  follows_of_writeNamed fun k _ _ _ => by cases k <;> rfl

/-- The flags that `input` sets. -/
structure InputFlags where
  useVideo : Bool
  useUsb : Bool
  useHeadset : Bool
  useInputFile : Bool

def ConfigVars.inputFlags (v : ConfigVars) : InputFlags :=
  ⟨v.useVideo, v.useUsb, v.useHeadset, v.useInputFile⟩

def InputFlags.set (value : Text) (f : InputFlags) : InputFlags :=
  let usbcam := strcasecmp value (lit "usbcam")
  let usbmic := strcasecmp value (lit "usbmic")
  let headset := strcasecmp value (lit "headset")
  let file := strcasecmp value (lit "file")
  ⟨usbcam || f.useVideo, usbcam || usbmic || f.useUsb,
    (!usbcam && !usbmic && headset) || f.useHeadset,
    (!usbcam && !usbmic && !headset && file) || f.useInputFile⟩

theorem follows_input : Follows (·.inputFlags) (only .input InputFlags.set) :=
  follows_of_writeNamed fun k _ _ _ => by cases k <;> rfl

/-- An empty value is none of the sources. -/
theorem InputFlags.set_nil (f : InputFlags) : InputFlags.set [] f = f := by
  simp [InputFlags.set, strcasecmp, lit]

/-! ## Option lines that are read in one go -/

/-- The value the handler is given: the first token behind the key. -/
def OptionLine.given (o : OptionLine) : Text :=
  match strtok '=' o.value with
  | none => []
  | some (token, _) => stripSpaces token

/-- There is nothing behind the key that a second call of `strtok` could find.  Such a line stops
the parser. -/
def OptionLine.Dropped (o : OptionLine) (e : Ending) : Prop :=
  e = .missing ∧ ∀ c ∈ o.value, c = '='

instance (o : OptionLine) (e : Ending) : Decidable (o.Dropped e) :=
  inferInstanceAs (Decidable (_ ∧ _))

theorem OptionLine.given_of_dropped {o : OptionLine} {e : Ending} (h : o.Dropped e) :
    o.given = [] := by
  rw [OptionLine.given, strtok_eq_none_iff.2 h.2]

theorem OptionLine.readOption_text {o : OptionLine} (hkey : '\x00' ∉ o.key) (e : Ending) :
    readOption ((ConfigLine.option o).text e) =
      if o.Dropped e then .stop (-3) else .call o.key o.given := by
  rw [o.readOption_eq e hkey, OptionLine.given]
  cases hval : strtok '=' o.value with
  | none =>
    have hall := strtok_eq_none_iff.1 hval
    rw [strtok_append_of_none hval]
    cases e with
    | missing => exact (if_pos ⟨rfl, hall⟩).symm
    | lf | crlf => exact (if_neg fun h => Ending.noConfusion h.1).symm
  | some r =>
    obtain ⟨token, rest⟩ := r
    have hnone : ¬ o.Dropped e := fun h => by
      rw [strtok_eq_none_iff.2 h.2] at hval
      exact absurd hval (Option.some_ne_none _).symm
    have hcr : '\r' ∉ token := fun h => o.value_plain.2.1 (mem_of_mem_strtok hval h)
    have hlf : '\n' ∉ token := fun h => o.value_plain.2.2 (mem_of_mem_strtok hval h)
    rw [if_neg hnone]
    rcases strtok_append_of_some hval (equals_notMem_ending e) with h | h
    · simp only [h, stripEnd_of_notMem hcr hlf]
    · simp only [h, stripEnd_append_ending hcr hlf]

/-- A file of option lines, each short enough for one read and each with a name of its own. -/
structure OptionFile where
  lines : List (OptionLine × Ending)
  terminated : Terminated lines
  key_plain : ∀ l ∈ lines, '\x00' ∉ l.1.key
  fits : ∀ l ∈ lines, ((ConfigLine.option l.1).text l.2).length ≤ 511
  distinct : (lines.map fun l => l.1.key.map Char.toLower).Nodup

namespace OptionFile

variable (f : OptionFile)

def config : ConfigText where
  lines := f.lines.map fun l => (.option l.1, l.2)
  terminated := f.terminated.map _

theorem reads_text :
    reads 511 f.config.text = f.lines.map fun l => (ConfigLine.option l.1).text l.2 := by
  rw [f.config.reads_text, config, List.flatMap_map, List.map_eq_flatMap]
  exact List.flatMap_congr fun l hl => pieces_of_length_le (l.1.text_ne l.2) (f.fits l hl)

end OptionFile

/-- What a line hands over. -/
def handed (l : OptionLine × Ending) : Option (Text × Text) :=
  if l.1.Dropped l.2 then none else some (l.1.key, l.1.given)

theorem handed_of_dropped {l : OptionLine × Ending} (h : l.1.Dropped l.2) : handed l = none :=
  if_pos h

theorem handed_of_not {l : OptionLine × Ending} (h : ¬ l.1.Dropped l.2) :
    handed l = some (l.1.key, l.1.given) :=
  if_neg h

/-- Only the last line of a file can be without a value, and the parser stops there anyway. -/
theorem parseReads_lines {σ : Type} (handle : Text → Text → σ → C σ)
    {ls : List (OptionLine × Ending)} (hls : Terminated ls)
    (hkey : ∀ l ∈ ls, '\x00' ∉ l.1.key) :
    ∃ code, ∀ s, parseReads handle (ls.map fun l => (ConfigLine.option l.1).text l.2) s =
      handleAll handle (ls.filterMap handed) s >>= fun s => pure (code, s) := by
  induction ls with
  | nil => exact ⟨0, fun s => rfl⟩
  | cons l ls ih =>
    obtain ⟨code, hcode⟩ := ih hls.tail fun m hm => hkey m (List.mem_cons_of_mem l hm)
    have hread := OptionLine.readOption_text (hkey l List.mem_cons_self) l.2
    by_cases hdrop : l.1.Dropped l.2
    · have hnil : ls = [] := by
        by_contra hne
        exact hls.head hne hdrop.1
      rw [if_pos hdrop] at hread
      refine ⟨-3, fun s => ?_⟩
      rw [List.map_cons, parseReads, hread, List.filterMap_cons_none (handed_of_dropped hdrop),
        hnil]
      rfl
    · rw [if_neg hdrop] at hread
      refine ⟨code, fun s => ?_⟩
      rw [List.map_cons, parseReads, hread, List.filterMap_cons_some (handed_of_not hdrop)]
      simp only [handleAll, List.foldlM_cons, bind_assoc]
      exact bind_congr fun s' => hcode s'

namespace OptionFile

variable (f : OptionFile)

/-- The options the handler is called with. -/
def calls : List (Text × Text) :=
  f.lines.filterMap handed

/-- The configuration the file leaves, from the one the program starts with. -/
def vars : C ConfigVars :=
  (parseConfigFile (some f.config.text) {}).map fun r => r.2.vars

theorem vars_eq : f.vars = (handleAll handleOption f.calls {}).map Settings.vars := by
  obtain ⟨code, hcode⟩ := parseReads_lines handleOption f.terminated f.key_plain
  rw [vars, parseConfigFile, parseConfigFileWith, f.reads_text, hcode, calls]
  cases handleAll handleOption (f.lines.filterMap handed) {} with
  | error e => rfl
  | ok s => rfl

end OptionFile

/-! ### Which known options a file hands over -/

/-- The line is about an option, in any case. -/
def OptionLine.Names (o : OptionLine) (k : OptionName) : Prop :=
  strcasecmp o.key k.text = true

theorem OptionLine.names_iff {o : OptionLine} {k : OptionName} :
    o.Names k ↔ optionName o.key = some k :=
  optionName_eq_some_iff.symm

namespace OptionFile

variable (f : OptionFile)

theorem mem_named_calls {k : OptionName} {value : Text} :
    (k, value) ∈ named f.calls ↔
      ∃ l ∈ f.lines, l.1.Names k ∧ l.1.given = value ∧ ¬ l.1.Dropped l.2 := by
  simp only [named, calls, List.mem_filterMap, OptionLine.names_iff]
  constructor
  · rintro ⟨c, ⟨l, hl, hc⟩, hk⟩
    by_cases hdrop : l.1.Dropped l.2
    · rw [handed_of_dropped hdrop] at hc
      exact absurd hc (Option.some_ne_none c).symm
    · rw [handed_of_not hdrop, Option.some.injEq] at hc
      obtain ⟨m, hm, heq⟩ := Option.map_eq_some_iff.1 hk
      rw [Prod.mk.injEq] at heq
      rw [← hc] at hm heq
      exact ⟨l, hl, heq.1 ▸ hm, heq.2, hdrop⟩
  · rintro ⟨l, hl, hk, rfl, hdrop⟩
    exact ⟨_, ⟨l, hl, handed_of_not hdrop⟩, by rw [hk]; rfl⟩

/-- Two lines about one option are one line. -/
theorem eq_of_names {l m : OptionLine × Ending} (hl : l ∈ f.lines) (hm : m ∈ f.lines)
    {k : OptionName} (hlk : l.1.Names k) (hmk : m.1.Names k) : l = m :=
  List.inj_on_of_nodup_map f.distinct hl hm
    ((strcasecmp_iff.1 hlk).trans (strcasecmp_iff.1 hmk).symm)

theorem nodup_named_calls : ((named f.calls).map Prod.fst).Nodup := by
  have hdist : f.lines.Pairwise fun l m =>
      l.1.key.map Char.toLower ≠ m.1.key.map Char.toLower :=
    List.pairwise_map.1 f.distinct
  rw [List.Nodup, List.pairwise_map, named, List.pairwise_filterMap, calls, List.pairwise_filterMap]
  refine hdist.imp fun {l m} hne c hc c' hc' d hd d' hd' heq => hne ?_
  have hkey : ∀ {l : OptionLine × Ending} {c : Text × Text} {d : OptionName × Text},
      handed l = some c → (optionName c.1).map (·, c.2) = some d → l.1.Names d.1 := by
    intro l c d hc hd
    rw [handed, ite_eq_iff] at hc
    obtain ⟨-, h⟩ | ⟨-, h⟩ := hc
    · exact absurd h (Option.some_ne_none c).symm
    · rw [Option.some.injEq] at h
      obtain ⟨k, hk, rfl⟩ := Option.map_eq_some_iff.1 hd
      rw [← h] at hk
      exact OptionLine.names_iff.2 hk
  have hl := strcasecmp_iff.1 (hkey hc hd)
  have hm := strcasecmp_iff.1 (hkey hc' hd')
  rw [hl, hm, heq]

/-- A file with the same lines hands over the same options, unless one of the files ends in a line
without a value. -/
theorem agreesUpTo {f g : OptionFile} (h : (f.lines.map Prod.fst).Perm (g.lines.map Prod.fst)) :
    AgreesUpTo [] (named f.calls) (named g.calls) := by
  intro k value hmem
  obtain ⟨l, hl, hk, rfl, -⟩ := f.mem_named_calls.1 hmem
  obtain ⟨m, hm, hml⟩ := List.mem_map.1 (h.subset (List.mem_map.2 ⟨l, hl, rfl⟩))
  by_cases hdrop : m.1.Dropped m.2
  · refine Or.inr ⟨hml ▸ OptionLine.given_of_dropped hdrop, fun w hw => ?_⟩
    obtain ⟨m', hm', hk', -, hdrop'⟩ := g.mem_named_calls.1 hw
    rw [g.eq_of_names hm' hm hk' (hml ▸ hk)] at hdrop'
    exact hdrop' hdrop
  · exact Or.inl (g.mem_named_calls.2 ⟨m, hm, hml ▸ hk, by rw [hml], hdrop⟩)

end OptionFile

/-! ### NAT traversal -/

/-- The line gives a STUN server. -/
def TurnsOn (l : OptionLine × Ending) : Prop :=
  l.1.Names .stunserver ∧ ¬ l.1.Dropped l.2

/-- The line is `disablenat=yes`. -/
def TurnsOff (l : OptionLine × Ending) : Prop :=
  l.1.Names .disablenat ∧ strcasecmp l.1.given (lit "yes") = true

/-- A STUN server is given and NAT traversal not disabled behind that. -/
def NatOn (ls : List (OptionLine × Ending)) : Prop :=
  ∃ front l back, ls = front ++ l :: back ∧ TurnsOn l ∧ ∀ m ∈ back, ¬ TurnsOff m

theorem natOn_cons {l : OptionLine × Ending} {ls : List (OptionLine × Ending)} :
    NatOn (l :: ls) ↔ (TurnsOn l ∧ ∀ m ∈ ls, ¬ TurnsOff m) ∨ NatOn ls := by
  constructor
  · rintro ⟨front, m, back, heq, hon, hoff⟩
    cases front with
    | nil =>
      rw [List.nil_append, List.cons.injEq] at heq
      exact Or.inl ⟨heq.1 ▸ hon, heq.2 ▸ hoff⟩
    | cons k front =>
      rw [List.cons_append, List.cons.injEq] at heq
      exact Or.inr ⟨front, m, back, heq.2, hon, hoff⟩
  · rintro (⟨hon, hoff⟩ | ⟨front, m, back, heq, hon, hoff⟩)
    · exact ⟨[], l, ls, rfl, hon, hoff⟩
    · exact ⟨l :: front, m, back, by rw [heq, List.cons_append], hon, hoff⟩

/-- What one line makes of NAT traversal. -/
theorem natStep_line (l : OptionLine × Ending) (ls : List (OptionLine × Ending)) (nat : Bool) :
    ∃ nat', (named ((l :: ls).filterMap handed)).foldl (fun b c => natStep c.1 c.2 b) nat =
        (named (ls.filterMap handed)).foldl (fun b c => natStep c.1 c.2 b) nat' ∧
      (nat' = true ↔ TurnsOn l ∨ (nat = true ∧ ¬ TurnsOff l)) := by
  have hother : ∀ {k m : OptionName}, optionName l.1.key = some k → k ≠ m → ¬ l.1.Names m :=
    fun hk hne hm => hne (Option.some.inj (hk.symm.trans (OptionLine.names_iff.1 hm)))
  by_cases hdrop : l.1.Dropped l.2
  · have hoff : ¬ TurnsOff l := fun h => by
      have := h.2
      rw [OptionLine.given_of_dropped hdrop] at this
      simp [strcasecmp, lit] at this
    refine ⟨nat, by rw [List.filterMap_cons_none (handed_of_dropped hdrop)], ?_⟩
    simp [TurnsOn, hdrop, hoff]
  rw [List.filterMap_cons_some (handed_of_not hdrop)]
  cases hname : optionName l.1.key with
  | none =>
    have hnot : ∀ k, ¬ l.1.Names k := fun k hk => by
      rw [OptionLine.names_iff, hname] at hk
      exact absurd hk (Option.some_ne_none k).symm
    refine ⟨nat, by rw [named_cons_none hname], ?_⟩
    simp [TurnsOn, TurnsOff, hnot]
  | some k =>
    refine ⟨natStep k l.1.given nat, by rw [named_cons_some hname, List.foldl_cons], ?_⟩
    have hname' := OptionLine.names_iff.2 hname
    cases k with
    | stunserver => simp [natStep, TurnsOn, hname', hdrop]
    | disablenat =>
      simp [natStep, TurnsOn, TurnsOff, hname', hother hname (m := .stunserver), and_comm]
    | server | username | password | stunport | input | logfile | test =>
      simp [natStep, TurnsOn, TurnsOff, hother hname]

theorem foldl_natStep_iff (ls : List (OptionLine × Ending)) (nat : Bool) :
    (named (ls.filterMap handed)).foldl (fun b c => natStep c.1 c.2 b) nat = true ↔
      NatOn ls ∨ (nat = true ∧ ∀ m ∈ ls, ¬ TurnsOff m) := by
  induction ls generalizing nat with
  | nil => simp [named, NatOn]
  | cons l ls ih =>
    obtain ⟨nat', heq, hnat'⟩ := natStep_line l ls nat
    rw [heq, ih, natOn_cons, hnat', List.forall_mem_cons]
    tauto

/-! ## Two orders of the same lines -/

/-- Both files leave the same configuration, and no array is written over on the way. -/
def SameVars (f g : OptionFile) : Prop :=
  ∃ v, f.vars = .ok v ∧ g.vars = .ok v

/-- The file ends in a line about the option that has no value. -/
def OptionFile.Drops (f : OptionFile) (k : OptionName) : Prop :=
  ∃ l ∈ f.lines, l.1.Names k ∧ l.1.Dropped l.2

/-- What it takes for the order of the lines not to matter. -/
structure OrderIrrelevant (f g : OptionFile) : Prop where
  /-- The name of the log file fits its array. -/
  logfile : ∀ l ∈ f.lines, l.1.Names .logfile → l.1.given.length < 128
  /-- The STUN server and `disablenat=yes` are in the same order. -/
  nat : NatOn f.lines ↔ NatOn g.lines
  /-- No value of these two is missing in one of the files only. -/
  stunport : f.Drops .stunport ↔ g.Drops .stunport
  test : f.Drops .test ↔ g.Drops .test

theorem OptionFile.notMem_of_drops {f : OptionFile} {k : OptionName} (h : f.Drops k)
    (value : Text) : (k, value) ∉ named f.calls := by
  obtain ⟨l, hl, hk, hdrop⟩ := h
  intro hmem
  obtain ⟨m, hm, hmk, -, hnot⟩ := f.mem_named_calls.1 hmem
  rw [f.eq_of_names hm hl hmk hk] at hnot
  exact hnot hdrop

section Perm

variable {f g : OptionFile} (h : (f.lines.map Prod.fst).Perm (g.lines.map Prod.fst))

include h

theorem OptionFile.exists_line {l : OptionLine × Ending} (hl : l ∈ f.lines) :
    ∃ m ∈ g.lines, m.1 = l.1 :=
  List.mem_map.1 (h.subset (List.mem_map.2 ⟨l, hl, rfl⟩))

/-- Unless the second file lacks the value, it hands over what the first does. -/
theorem OptionFile.mem_of_not_drops {k : OptionName} {value : Text} (hk : ¬ g.Drops k)
    (hmem : (k, value) ∈ named f.calls) : (k, value) ∈ named g.calls := by
  obtain ⟨l, hl, hlk, rfl, -⟩ := f.mem_named_calls.1 hmem
  obtain ⟨m, hm, hml⟩ := OptionFile.exists_line h hl
  rw [← hml] at hlk
  exact g.mem_named_calls.2 ⟨m, hm, hlk, by rw [hml], fun hdrop => hk ⟨m, hm, hlk, hdrop⟩⟩

/-- If the value is missing in both files or in none, the variable gets the same. -/
theorem foldl_only_of_drops_iff {β : Type} {k : OptionName} (hk : f.Drops k ↔ g.Drops k)
    (F : Text → β → β) (b : β) :
    (named f.calls).foldl (fun b c => only k F c.1 c.2 b) b =
      (named g.calls).foldl (fun b c => only k F c.1 c.2 b) b := by
  by_cases hdrop : f.Drops k
  · rw [foldl_only_of_notMem (OptionFile.notMem_of_drops hdrop),
      foldl_only_of_notMem (OptionFile.notMem_of_drops (hk.1 hdrop))]
  by_cases hmem : ∃ value, (k, value) ∈ named f.calls
  · obtain ⟨value, hvalue⟩ := hmem
    rw [foldl_only_of_mem f.nodup_named_calls hvalue,
      foldl_only_of_mem g.nodup_named_calls
        (OptionFile.mem_of_not_drops h (fun hg => hdrop (hk.2 hg)) hvalue)]
  · push Not at hmem
    rw [foldl_only_of_notMem hmem, foldl_only_of_notMem fun value hvalue =>
      hmem value (OptionFile.mem_of_not_drops h.symm hdrop hvalue)]

/-- A variable that an empty value changes shows whether the value is missing. -/
theorem OptionFile.drops_of_eq {β : Type} {k : OptionName} {F : Text → β → β} {b : β}
    (hF : F [] b ≠ b)
    (heq : (named f.calls).foldl (fun b c => only k F c.1 c.2 b) b =
      (named g.calls).foldl (fun b c => only k F c.1 c.2 b) b)
    (hk : f.Drops k) : g.Drops k := by
  rw [foldl_only_of_notMem (OptionFile.notMem_of_drops hk)] at heq
  obtain ⟨l, hl, hlk, hdrop⟩ := hk
  obtain ⟨m, hm, hml⟩ := OptionFile.exists_line h hl
  rw [← hml] at hlk
  by_contra hg
  have hgiven : m.1.given = [] := by rw [hml, OptionLine.given_of_dropped hdrop]
  have hmem : (k, []) ∈ named g.calls :=
    g.mem_named_calls.2 ⟨m, hm, hlk, hgiven, fun hd => hg ⟨m, hm, hlk, hd⟩⟩
  rw [foldl_only_of_mem g.nodup_named_calls hmem] at heq
  exact hF heq.symm

end Perm

theorem OptionFile.vars_eq_ok {f : OptionFile} {v : ConfigVars} :
    f.vars = .ok v ↔ ∃ s, handleAll handleOption f.calls {} = .ok s ∧ s.vars = v := by
  rw [f.vars_eq]
  cases handleAll handleOption f.calls {} with
  | error e => simp [Except.map]
  | ok s => simp [Except.map]

/-- The file is read without a fault if and only if the name of the log file fits. -/
theorem OptionFile.exists_vars_iff {f : OptionFile} :
    (∃ s, handleAll handleOption f.calls {} = .ok s) ↔
      ∀ l ∈ f.lines, l.1.Names .logfile → l.1.given.length < 128 := by
  rw [exists_handleAll_iff]
  constructor
  · intro h l hl hk
    by_cases hdrop : l.1.Dropped l.2
    · rw [OptionLine.given_of_dropped hdrop]
      decide
    · exact h l.1.given (f.mem_named_calls.2 ⟨l, hl, hk, rfl, hdrop⟩)
  · intro h value hmem
    obtain ⟨l, hl, hk, rfl, -⟩ := f.mem_named_calls.1 hmem
    exact h l hl hk

theorem OptionFile.nat_iff {f : OptionFile} {s : Settings}
    (h : handleAll handleOption f.calls {} = .ok s) :
    s.vars.configNat = true ↔ NatOn f.lines := by
  rw [follows_nat.eq_foldl h, OptionFile.calls, foldl_natStep_iff]
  simp

/-- The configuration is its variables. -/
theorem ConfigVars.eq_of_fields {v w : ConfigVars} (hserver : v.configServer = w.configServer)
    (huser : v.configUser = w.configUser) (hpassword : v.configPassword = w.configPassword)
    (hstun : v.configStunServer = w.configStunServer) (hlog : v.logFile.text = w.logFile.text)
    (hport : v.configStunPort = w.configStunPort) (hnat : v.configNat = w.configNat)
    (hinput : v.inputFlags = w.inputFlags) (htest : v.useTestMode = w.useTestMode) : v = w := by
  obtain ⟨_, _, _, _, ⟨_, _⟩, _, _, _, _, _, _, _⟩ := v
  obtain ⟨_, _, _, _, ⟨_, _⟩, _, _, _, _, _, _, _⟩ := w
  simp only [ConfigVars.inputFlags, InputFlags.mk.injEq] at *
  simp [*]

/-- **Two orders of the same lines leave the same configuration if and only if nothing depends on
the order.** -/
theorem sameVars_iff {f g : OptionFile} (h : (f.lines.map Prod.fst).Perm (g.lines.map Prod.fst)) :
    SameVars f g ↔ OrderIrrelevant f g := by
  constructor
  · rintro ⟨v, hf, hg⟩
    obtain ⟨s, hs, rfl⟩ := OptionFile.vars_eq_ok.1 hf
    obtain ⟨t, ht, hts⟩ := OptionFile.vars_eq_ok.1 hg
    have hport := (follows_stunPort.eq_foldl hs).symm.trans
      ((congrArg (·.configStunPort) hts.symm).trans (follows_stunPort.eq_foldl ht))
    have htest := (follows_testMode.eq_foldl hs).symm.trans
      ((congrArg (·.useTestMode) hts.symm).trans (follows_testMode.eq_foldl ht))
    have hatoi : atoi [] ≠ 3478 := by decide
    exact
      { logfile := OptionFile.exists_vars_iff.1 ⟨s, hs⟩
        nat := by rw [← OptionFile.nat_iff hs, ← OptionFile.nat_iff ht, hts]
        stunport := ⟨OptionFile.drops_of_eq h hatoi hport,
          OptionFile.drops_of_eq h.symm hatoi hport.symm⟩
        test := ⟨OptionFile.drops_of_eq h (by decide) htest,
          OptionFile.drops_of_eq h.symm (by decide) htest.symm⟩ }
  · intro hirr
    obtain ⟨s, hs⟩ := OptionFile.exists_vars_iff.2 hirr.logfile
    have hlog : ∀ m ∈ g.lines, m.1.Names .logfile → m.1.given.length < 128 := fun m hm hk => by
      obtain ⟨l, hl, hlm⟩ := OptionFile.exists_line h.symm hm
      rw [← hlm] at hk ⊢
      exact hirr.logfile l hl hk
    obtain ⟨t, ht⟩ := OptionFile.exists_vars_iff.2 hlog
    refine ⟨s.vars, OptionFile.vars_eq_ok.2 ⟨s, hs, rfl⟩, OptionFile.vars_eq_ok.2 ⟨t, ht, ?_⟩⟩
    have hagree := OptionFile.agreesUpTo h
    have hagree' := OptionFile.agreesUpTo h.symm
    -- The value that may be missing changes nothing where it is not.
    have hsame : ∀ {β : Type} {π : ConfigVars → β} {k : OptionName} {F : Text → β → β},
        Follows π (only k F) → F [] (π {}) = π {} → π t.vars = π s.vars := by
      intro β π k F hπ hF
      rw [hπ.eq_foldl hs, hπ.eq_foldl ht]
      exact foldl_only_congr g.nodup_named_calls f.nodup_named_calls hagree' hagree hF
    have hboth : ∀ {β : Type} {π : ConfigVars → β} {k : OptionName} {F : Text → β → β},
        Follows π (only k F) → (f.Drops k ↔ g.Drops k) → π t.vars = π s.vars := by
      intro β π k F hπ hk
      rw [hπ.eq_foldl hs, hπ.eq_foldl ht]
      exact (foldl_only_of_drops_iff h hk F _).symm
    refine ConfigVars.eq_of_fields (hsame follows_server rfl) (hsame follows_user rfl)
      (hsame follows_password rfl) (hsame follows_stunServer rfl) (hsame follows_logFile rfl)
      (hboth follows_stunPort hirr.stunport) ?_ (hsame follows_input (InputFlags.set_nil _))
      (hboth follows_testMode hirr.test)
    rw [Bool.eq_iff_iff, OptionFile.nat_iff hs, OptionFile.nat_iff ht, hirr.nat]

/-! ### Two lines that do not commute -/

/-- The line `stunserver=x`. -/
def stunLine : OptionLine where
  key := ['s', 't', 'u', 'n', 's', 'e', 'r', 'v', 'e', 'r']
  value := ['x']
  key_ne := by decide
  key_head := by decide
  key_plain := by decide
  value_plain := by decide

/-- The line `disablenat=yes`. -/
def natLine : OptionLine where
  key := ['d', 'i', 's', 'a', 'b', 'l', 'e', 'n', 'a', 't']
  value := ['y', 'e', 's']
  key_ne := by decide
  key_head := by decide
  key_plain := by decide
  value_plain := by decide

def stunFirst : OptionFile where
  lines := [(stunLine, .lf), (natLine, .lf)]
  terminated := by simp [Terminated]
  key_plain := by decide
  fits := by decide
  distinct := by decide

def natFirst : OptionFile where
  lines := [(natLine, .lf), (stunLine, .lf)]
  terminated := by simp [Terminated]
  key_plain := by decide
  fits := by decide
  distinct := by decide

theorem perm_stunFirst : (stunFirst.lines.map Prod.fst).Perm (natFirst.lines.map Prod.fst) :=
  List.Perm.swap natLine stunLine []

theorem turnsOn_stunLine : TurnsOn (stunLine, .lf) := by
  simp [TurnsOn, OptionLine.Names, OptionLine.Dropped, strcasecmp, OptionName.text, lit, stunLine]

theorem turnsOff_natLine : TurnsOff (natLine, .lf) := by
  have hgiven : natLine.given = ['y', 'e', 's'] := by decide
  refine ⟨by simp [OptionLine.Names, strcasecmp, OptionName.text, lit, natLine], ?_⟩
  simp only [hgiven]
  simp [strcasecmp, lit]

/-- The two orders of the two lines leave NAT traversal on and off. -/
theorem not_sameVars :
    (stunFirst.lines.map Prod.fst).Perm (natFirst.lines.map Prod.fst) ∧
      ¬ SameVars stunFirst natFirst := by
  refine ⟨perm_stunFirst, ?_⟩
  rintro ⟨v, hf, hg⟩
  obtain ⟨s, hs, rfl⟩ := OptionFile.vars_eq_ok.1 hf
  obtain ⟨t, ht, hts⟩ := OptionFile.vars_eq_ok.1 hg
  have hon : NatOn natFirst.lines :=
    ⟨[_], (stunLine, .lf), [], rfl, turnsOn_stunLine, by simp⟩
  rw [← OptionFile.nat_iff ht, hts, OptionFile.nat_iff hs, stunFirst, natOn_cons, natOn_cons] at hon
  rcases hon with ⟨-, hoff⟩ | ⟨hon, -⟩ | ⟨front, l, back, heq, -⟩
  · exact hoff _ List.mem_cons_self turnsOff_natLine
  · exact absurd hon.1 (by simp [OptionLine.Names, strcasecmp, OptionName.text, lit, natLine])
  · simp at heq

theorem sameVars_iff_stunFirst :
    SameVars stunFirst natFirst ↔ OrderIrrelevant stunFirst natFirst :=
  sameVars_iff perm_stunFirst

end Furikup
