import Furikup.Codec
import Furikup.Lib.CFile

/-!
# The configuration file

`config.c` keeps the configuration in a handful of globals with a setter each, and
`config_file.c` reads `sipcfg.ini` and calls the setters.

* `ConfigVars` — the globals, and the setters under their names.
* `handleOption` — one option of the file, given to the setter it names.
* `parseConfigFile` — the loop over the file.  It is stated for any handler of options, so that
  which calls it makes can be spoken of apart from what the calls do.
* `ConfigLine` — a line as the file format has it: a comment, or `key=value`.
* `callsExactly_iff` — the file is read as its option lines say exactly if no line is too long for
  one read, no value has an `=` in it or is all spaces, and no empty value ends the file.
-/

set_option autoImplicit false

namespace Furikup

open CText CFile

/-! ## The configuration -/

/-- The globals of `config.c`. -/
structure ConfigVars where
  configServer : Field 128 := Field.zero 128
  configUser : Field 128 := Field.zero 128
  configPassword : Field 64 := Field.zero 64
  configStunServer : Field 128 := Field.zero 128
  logFile : Buf 128 := Buf.zero
  configStunPort : Int := 3478
  configNat : Bool := false
  useVideo : Bool := false
  useUsb : Bool := false
  useHeadset : Bool := false
  useTestMode : Bool := false
  useInputFile : Bool := false

namespace ConfigVars

variable (v : ConfigVars)

def setServer (server : Text) : ConfigVars := { v with configServer := strncpy 128 server }

def setUser (user : Text) : ConfigVars := { v with configUser := strncpy 128 user }

def setPassword (password : Text) : ConfigVars := { v with configPassword := strncpy 64 password }

def setNatTraversal (natted : Bool) : ConfigVars := { v with configNat := natted }

/-- Giving a STUN server turns NAT traversal on. -/
def setStunServer (server : Text) : ConfigVars :=
  { v with configStunServer := strncpy 128 server, configNat := true }

def setStunPort (port : Int) : ConfigVars := { v with configStunPort := port }

def setUseVideo (video : Bool) : ConfigVars := { v with useVideo := video }

def setUsb (usb : Bool) : ConfigVars := { v with useUsb := usb }

def setHeadset (headset : Bool) : ConfigVars := { v with useHeadset := headset }

def setInputfile (file : Bool) : ConfigVars := { v with useInputFile := file }

def setTestMode (mode : Bool) : ConfigVars := { v with useTestMode := mode }

/-- The one setter that copies without a limit. -/
def setLogfile (file : Text) : C ConfigVars := do
  let logFile ← sprintf 128 file
  pure { v with logFile }

end ConfigVars

/-- `strcasecmp` of two strings gives 0. -/
def strcasecmp (s t : Text) : Bool :=
  s.map Char.toLower == t.map Char.toLower

/-- The configuration and the texts that went to `ErrorMessage`. -/
structure Settings where
  vars : ConfigVars := {}
  errors : List Text := []

def Settings.mapVars (s : Settings) (f : ConfigVars → ConfigVars) : Settings :=
  { s with vars := f s.vars }

/-- The sound and picture sources `input` can name. -/
def handleInput (value : Text) (v : ConfigVars) : ConfigVars :=
  if strcasecmp value (lit "usbcam") then (v.setUsb true).setUseVideo true
  else if strcasecmp value (lit "usbmic") then v.setUsb true
  else if strcasecmp value (lit "headset") then v.setHeadset true
  else if strcasecmp value (lit "file") then v.setInputfile true
  else v

def handleOption (option value : Text) (s : Settings) : C Settings :=
  if strcasecmp option (lit "server") then pure (s.mapVars (·.setServer value))
  else if strcasecmp option (lit "username") then
    let s := if value = lit "1234567" then
        { s with errors := s.errors ++
          [lit "you haven't set up your sipcfg.ini - see the readme.txt"] }
      else s
    pure (s.mapVars (·.setUser value))
  else if strcasecmp option (lit "password") then pure (s.mapVars (·.setPassword value))
  else if strcasecmp option (lit "disablenat") then
    pure (if strcasecmp value (lit "yes") then s.mapVars (·.setNatTraversal false) else s)
  else if strcasecmp option (lit "stunserver") then pure (s.mapVars (·.setStunServer value))
  else if strcasecmp option (lit "stunport") then pure (s.mapVars (·.setStunPort (atoi value)))
  else if strcasecmp option (lit "input") then pure (s.mapVars (handleInput value))
  else if strcasecmp option (lit "logfile") then do
    let vars ← s.vars.setLogfile value
    pure { s with vars }
  else if strcasecmp option (lit "test") then pure (s.mapVars (·.setTestMode true))
  else pure s

/-! ## The parser -/

/-- The loop `for (; i != 0; i--)` that strips trailing spaces. -/
def stripSpacesFrom (value : Text) : Nat → Text
  | 0 => value
  | i + 1 => if value[i + 1]? = some ' ' then stripSpacesFrom (value.take (i + 1)) i else value

/-- Strip off trailing spaces, from `strlen(value) - 1` down. -/
def stripSpaces (value : Text) : Text :=
  match value with
  -- Here `i` is −1, and the byte in front of the token is the NUL or the `=` that ended the key.
  | [] => []
  | c :: t => stripSpacesFrom (c :: t) t.length

/-- What the body of the loop does with a line it has read. -/
inductive ReadOption
  | skip
  | stop (code : Int)
  | call (option value : Text)
  deriving DecidableEq, Repr

def readOption (buffer : Text) : ReadOption :=
  let line := cstr buffer
  if line.head? = some '#' then .skip
  else
    match strtok '=' line with
    | none => .stop (-2)
    | some (option, rest) =>
      match strtok '=' rest with
      | none => .stop (-3)
      | some (value, _) => .call option (stripSpaces (stripEnd value))

section Parser

variable {σ : Type} (handle : Text → Text → σ → C σ)

def parseReads : List Text → σ → C (Int × σ)
  | [], s => pure (0, s)
  | buffer :: rest, s =>
    match readOption buffer with
    | .skip => parseReads rest s
    | .stop code => pure (code, s)
    | .call option value => do
      let s ← handle option value s
      parseReads rest s

/-- The parser with `handleOption` left open; `none` is a file that does not open. -/
def parseConfigFileWith (file : Option Text) (s : σ) : C (Int × σ) :=
  match file with
  | none => pure (-1, s)
  | some text => parseReads handle (reads 511 text) s

end Parser

def parseConfigFile : Option Text → Settings → C (Int × Settings) :=
  parseConfigFileWith handleOption

/-! ## What a read comes to -/

theorem stripSpacesFrom_cons (c : Char) (t : Text) :
    stripSpacesFrom (c :: t) t.length = c :: t.rdropWhile (· == ' ') := by
  induction t using List.reverseRecOn with
  | nil => rfl
  | append_singleton t d ih =>
    rw [List.length_append, List.length_singleton, stripSpacesFrom, List.getElem?_cons_succ,
      List.getElem?_append_right le_rfl, Nat.sub_self, List.getElem?_cons_zero, List.take_succ_cons,
      List.take_left, ih, List.rdropWhile_concat]
    by_cases hd : d = ' '
    · rw [if_pos (congrArg some hd), if_pos (by simpa using hd)]
    · rw [if_neg (by simpa using hd), if_neg (by simpa using hd)]

theorem stripSpaces_cons (c : Char) (t : Text) :
    stripSpaces (c :: t) = c :: t.rdropWhile (· == ' ') :=
  stripSpacesFrom_cons c t

/-- The loop never looks at the first character, so it is right unless it should strip that. -/
theorem stripSpaces_eq_iff {value : Text} :
    stripSpaces value = value.rdropWhile (· == ' ') ↔ (value ≠ [] → ∃ c ∈ value, c ≠ ' ') := by
  cases value with
  | nil => simp [stripSpaces]
  | cons c t =>
    rw [stripSpaces_cons]
    refine ⟨fun h _ => ?_, fun h => ?_⟩
    · by_contra hall
      push Not at hall
      have hnil : (c :: t).rdropWhile (· == ' ') = [] :=
        List.rdropWhile_eq_nil_iff.2 fun d hd => by simpa using hall d hd
      rw [hnil] at h
      exact List.cons_ne_nil _ _ h
    · obtain ⟨d, hd, hne⟩ := h (List.cons_ne_nil c t)
      exact (rdropWhile_cons ⟨d, hd, by simpa using hne⟩).symm

theorem length_stripSpaces_le (value : Text) : (stripSpaces value).length ≤ value.length := by
  cases value with
  | nil => exact le_rfl
  | cons c t =>
    rw [stripSpaces_cons, List.length_cons, List.length_cons]
    exact Nat.succ_le_succ (List.rdropWhile_prefix _ t).length_le

theorem mem_of_mem_stripSpaces {value : Text} {c : Char} (h : c ∈ stripSpaces value) :
    c ∈ value := by
  cases value with
  | nil => exact h
  | cons d t =>
    rw [stripSpaces_cons] at h
    rcases List.mem_cons.1 h with rfl | h
    · exact List.mem_cons_self
    · exact List.mem_cons_of_mem d ((List.rdropWhile_prefix _ t).subset h)

theorem readOption_eq_skip_iff {buffer : Text} :
    readOption buffer = .skip ↔ buffer.head? = some '#' := by
  have hhead : (cstr buffer).head? = some '#' ↔ buffer.head? = some '#' := by
    cases buffer with
    | nil => rfl
    | cons c t =>
      by_cases hc : c = '\x00'
      · simp [cstr, cutAt, hc]
      · simp [cstr, cutAt, hc]
  rw [← hhead, readOption]
  split
  · next h => exact iff_of_true rfl h
  · next h =>
    refine iff_of_false ?_ h
    split
    · exact ReadOption.noConfusion
    · split
      · exact ReadOption.noConfusion
      · exact ReadOption.noConfusion

/-- What an option was read from: its name is the first token, and its value was cut from the
second. -/
theorem readOption_eq_call {buffer option value : Text}
    (h : readOption buffer = .call option value) :
    ∃ rest tok left, strtok '=' (cstr buffer) = some (option, rest) ∧
      strtok '=' rest = some (tok, left) ∧ value = stripSpaces (stripEnd tok) := by
  rw [readOption] at h
  split at h
  · exact absurd h ReadOption.noConfusion
  · split at h
    · exact absurd h ReadOption.noConfusion
    · next opt rest hopt =>
      split at h
      · exact absurd h ReadOption.noConfusion
      · next tok left htok =>
        rw [ReadOption.call.injEq] at h
        exact ⟨rest, tok, left, h.1 ▸ hopt, htok, h.2.symm⟩

theorem readOption_stop_ne_zero {buffer : Text} {code : Int} (h : readOption buffer = .stop code) :
    code ≠ 0 := by
  rw [readOption] at h
  split at h
  · exact absurd h ReadOption.noConfusion
  · split at h
    · rw [ReadOption.stop.injEq] at h
      omega
    · split at h
      · rw [ReadOption.stop.injEq] at h
        omega
      · exact absurd h ReadOption.noConfusion

/-- The name, the `=` and the value of an option all come out of the one read. -/
theorem length_readOption_le {buffer option value : Text}
    (h : readOption buffer = .call option value) :
    option.length + 1 + value.length ≤ buffer.length := by
  obtain ⟨rest, tok, left, hopt, htok, rfl⟩ := readOption_eq_call h
  have h1 := (length_strtok_le hopt).2 (ne_nil_of_strtok htok)
  have h2 := (length_strtok_le htok).1
  have h3 := length_stripSpaces_le (stripEnd tok)
  have h4 := length_stripEnd_le tok
  have h5 : (cstr buffer).length ≤ buffer.length := length_cutAt_le _ _
  omega

theorem notMem_of_readOption {buffer option value : Text}
    (h : readOption buffer = .call option value) : '=' ∉ value := by
  obtain ⟨rest, tok, left, -, htok, rfl⟩ := readOption_eq_call h
  exact fun hmem => notMem_of_strtok htok (mem_of_mem_stripEnd (mem_of_mem_stripSpaces hmem))

/-! ## Which calls the parser makes -/

/-- The options a sequence of reads hands over, unless one of the reads stops the parser. -/
def callsOf : List Text → Option (List (Text × Text))
  | [] => some []
  | buffer :: rest =>
    match readOption buffer with
    | .skip => callsOf rest
    | .stop _ => none
    | .call option value => (callsOf rest).map ((option, value) :: ·)

theorem callsOf_append (rs rs' : List Text) :
    callsOf (rs ++ rs') = (callsOf rs).bind fun cs => (callsOf rs').map (cs ++ ·) := by
  induction rs with
  | nil => simp [callsOf]
  | cons buffer rs ih =>
    rw [List.cons_append, callsOf, callsOf]
    cases readOption buffer with
    | skip => exact ih
    | stop code => rfl
    | call option value =>
      simp only [ih]
      cases callsOf rs with
      | none => rfl
      | some cs => simp [Function.comp_def]

/-- Hand a sequence of options over, one after the other. -/
def handleAll {σ : Type} (handle : Text → Text → σ → C σ) (cs : List (Text × Text)) (s : σ) : C σ :=
  cs.foldlM (fun s c => handle c.1 c.2 s) s

/-- Where no read stops it the parser returns 0, whatever the handler does. -/
theorem parseReads_of_callsOf {σ : Type} (handle : Text → Text → σ → C σ) {rs : List Text}
    {cs : List (Text × Text)} (h : callsOf rs = some cs) (s : σ) :
    parseReads handle rs s = handleAll handle cs s >>= fun s => pure (0, s) := by
  induction rs generalizing cs s with
  | nil =>
    rw [callsOf, Option.some.injEq] at h
    rw [← h]
    rfl
  | cons buffer rs ih =>
    rw [callsOf] at h
    rw [parseReads]
    cases hread : readOption buffer with
    | skip =>
      rw [hread] at h
      exact ih h s
    | stop code =>
      rw [hread] at h
      simp at h
    | call option value =>
      rw [hread] at h
      obtain ⟨cs', hcs', rfl⟩ := Option.map_eq_some_iff.1 h
      simp only [handleAll, List.foldlM_cons, bind_assoc]
      exact bind_congr fun s' => ih hcs' s'

/-- A handler that only writes down what it is called with. -/
def record (option value : Text) (cs : List (Text × Text)) : C (List (Text × Text)) :=
  pure (cs ++ [(option, value)])

theorem handleAll_record (cs ds : List (Text × Text)) :
    handleAll record cs ds = pure (ds ++ cs) := by
  induction cs generalizing ds with
  | nil => simp [handleAll]
  | cons c cs ih =>
    have hrec := ih (ds ++ [c])
    rw [handleAll] at hrec ⊢
    simpa [record] using hrec

/-- That the parser returned 0 shows that no read stopped it. -/
theorem callsOf_of_parseReads {rs : List Text} {ds es : List (Text × Text)}
    (h : parseReads record rs ds = .ok (0, es)) : ∃ cs, callsOf rs = some cs ∧ es = ds ++ cs := by
  induction rs generalizing ds with
  | nil =>
    rw [parseReads, pure_eq_ok, Prod.mk.injEq] at h
    exact ⟨[], rfl, by rw [List.append_nil, h.2]⟩
  | cons buffer rs ih =>
    rw [parseReads] at h
    rw [callsOf]
    cases hread : readOption buffer with
    | skip =>
      rw [hread] at h
      exact ih h
    | stop code =>
      rw [hread] at h
      simp only [pure_eq_ok, Prod.mk.injEq] at h
      exact absurd h.1.symm (readOption_stop_ne_zero hread)
    | call option value =>
      rw [hread] at h
      simp only [record, pure_bind] at h
      obtain ⟨cs, hcs, rfl⟩ := ih h
      exact ⟨(option, value) :: cs, by simp [hcs], by simp⟩

/-- The calls are those of the reads, for every handler, if and only if they are for one that
writes them down. -/
theorem parseReads_eq_iff {rs : List Text} {cs : List (Text × Text)} :
    (∀ (σ : Type) (handle : Text → Text → σ → C σ) (s : σ),
      parseReads handle rs s = handleAll handle cs s >>= fun s => pure (0, s)) ↔
    callsOf rs = some cs := by
  refine ⟨fun h => ?_, fun h σ handle s => parseReads_of_callsOf handle h s⟩
  have hrec := h (List (Text × Text)) record []
  rw [handleAll_record, pure_bind, List.nil_append] at hrec
  obtain ⟨cs', hcs', rfl⟩ := callsOf_of_parseReads hrec
  exact hcs'

/-- Nothing is called for reads that are all skipped, and only for those. -/
theorem callsOf_eq_nil_iff {rs : List Text} :
    callsOf rs = some [] ↔ ∀ r ∈ rs, r.head? = some '#' := by
  induction rs with
  | nil => simp [callsOf]
  | cons buffer rs ih =>
    rw [callsOf, List.forall_mem_cons, ← readOption_eq_skip_iff, ← ih]
    cases readOption buffer with
    | skip => simp
    | stop code => simp
    | call option value => simp

section Lines

variable {α : Type} {read : α → List Text} {opts : α → List (Text × Text)}

/-- The calls of all lines are those of one line after the other. -/
theorem callsOf_flatMap_eq_some_iff {ls : List α} {cs : List (Text × Text)} :
    callsOf (ls.flatMap read) = some cs ↔
      (∀ l ∈ ls, (callsOf (read l)).isSome) ∧
        cs = ls.flatMap fun l => (callsOf (read l)).getD [] := by
  induction ls generalizing cs with
  | nil =>
    rw [List.flatMap_nil, List.flatMap_nil, callsOf, Option.some.injEq]
    exact ⟨fun h => ⟨fun l hl => absurd hl List.not_mem_nil, h.symm⟩, fun h => h.2.symm⟩
  | cons l ls ih =>
    rw [List.flatMap_cons, List.flatMap_cons, callsOf_append, List.forall_mem_cons]
    cases hl : callsOf (read l) with
    | none => simp
    | some cs₁ =>
      simp only [Option.bind_some, Option.map_eq_some_iff, ih, Option.isSome_some, true_and,
        Option.getD_some]
      constructor
      · rintro ⟨cs₂, ⟨hall, rfl⟩, rfl⟩
        exact ⟨hall, rfl⟩
      · rintro ⟨hall, rfl⟩
        exact ⟨_, ⟨hall, rfl⟩, rfl⟩

/-- If no line makes fewer calls than it should, then the calls are right all in all only if they
are right line by line. -/
theorem callsOf_flatMap_iff {ls : List α}
    (hle : ∀ l ∈ ls, ∀ cs, callsOf (read l) = some cs → (opts l).length ≤ cs.length) :
    callsOf (ls.flatMap read) = some (ls.flatMap opts) ↔
      ∀ l ∈ ls, callsOf (read l) = some (opts l) := by
  rw [callsOf_flatMap_eq_some_iff]
  constructor
  · rintro ⟨hall, heq⟩ l hl
    have hlen : ∀ m ∈ ls, (opts m).length ≤ ((callsOf (read m)).getD []).length := by
      intro m hm
      obtain ⟨cs, hcs⟩ := Option.isSome_iff_exists.1 (hall m hm)
      rw [hcs]
      exact hle m hm cs hcs
    obtain ⟨cs, hcs⟩ := Option.isSome_iff_exists.1 (hall l hl)
    have hline := (flatMap_eq_iff hlen).1 heq.symm l hl
    rw [hcs, Option.getD_some] at hline
    rw [hcs, hline]
  · intro h
    refine ⟨fun l hl => by rw [h l hl]; rfl, List.flatMap_congr fun l hl => ?_⟩
    rw [h l hl, Option.getD_some]

end Lines

/-! ## The format of the file -/

/-- An option line, without its line end. -/
structure OptionLine where
  key : Text
  value : Text
  key_ne : key ≠ []
  /-- It is not a comment. -/
  key_head : key.head? ≠ some '#'
  key_plain : '=' ∉ key ∧ '\n' ∉ key
  value_plain : '\x00' ∉ value ∧ '\r' ∉ value ∧ '\n' ∉ value

inductive ConfigLine
  | comment (body : Text) (plain : '\n' ∉ body)
  | option (o : OptionLine)

namespace ConfigLine

def content : ConfigLine → Text
  | comment body _ => '#' :: body
  | option o => o.key ++ '=' :: o.value

/-- The options a line stands for, with the trailing spaces of the value stripped. -/
def options : ConfigLine → List (Text × Text)
  | comment _ _ => []
  | option o => [(o.key, o.value.rdropWhile (· == ' '))]

theorem newline_notMem_content (l : ConfigLine) : '\n' ∉ l.content := by
  cases l with
  | comment body plain => simpa [content] using plain
  | option o => simp [content, o.key_plain.2, o.value_plain.2.2]

/-- The line as it stands in the file. -/
def text (l : ConfigLine) (e : Ending) : Text :=
  lineText (l.content, e)

end ConfigLine

/-- A configuration file. -/
structure ConfigText where
  lines : List (ConfigLine × Ending)
  terminated : Terminated lines

namespace ConfigText

def text (f : ConfigText) : Text :=
  f.lines.flatMap fun l => l.1.text l.2

def options (f : ConfigText) : List (Text × Text) :=
  f.lines.flatMap fun l => l.1.options

/-- The parser reads the lines of the file, each in pieces of 511 characters. -/
theorem reads_text (f : ConfigText) :
    reads 511 f.text = f.lines.flatMap fun l => pieces 511 (l.1.text l.2) :=
  reads_lines ConfigLine.content (by omega) f.terminated fun l _ => l.1.newline_notMem_content

end ConfigText

/-! ## Line by line -/

/-- The parser gets an option line right: it fits in one read, `strtok` does not cut into it, and
the loop that strips spaces can strip all there are. -/
structure OptionLine.Readable (o : OptionLine) (e : Ending) : Prop where
  length : ((ConfigLine.option o).text e).length ≤ 511
  key : '\x00' ∉ o.key
  value : '=' ∉ o.value
  empty : o.value = [] → e ≠ .missing
  spaces : o.value ≠ [] → ∃ c ∈ o.value, c ≠ ' '

/-- The parser gets a line right.  A comment that is too long for one read is a comment again
where it continues only if there is a `#` there. -/
def ConfigLine.Readable (l : ConfigLine) (e : Ending) : Prop :=
  match l with
  | .comment _ _ => ∀ i, 511 ∣ i → i < (l.text e).length → (l.text e)[i]? = some '#'
  | .option o => o.Readable e

section OptionLine

variable (o : OptionLine) (e : Ending)

theorem OptionLine.text_eq :
    (ConfigLine.option o).text e = o.key ++ '=' :: (o.value ++ e.text) := by
  simp [ConfigLine.text, ConfigLine.content, lineText]

theorem OptionLine.text_ne : (ConfigLine.option o).text e ≠ [] := by
  simp [o.text_eq]

theorem equals_notMem_ending : '=' ∉ e.text :=
  notMem_ending (by decide) (by decide) e

theorem OptionLine.head?_text (t : Text) : (o.key ++ t).head? ≠ some '#' := by
  rw [List.head?_append_of_ne_nil _ o.key_ne]
  exact o.key_head

/-- `strtok` is given the line, takes the key off it and is called again with the rest. -/
theorem OptionLine.readOption_eq (hkey : '\x00' ∉ o.key) :
    readOption ((ConfigLine.option o).text e) =
      match strtok '=' (o.value ++ e.text) with
      | none => .stop (-3)
      | some (value, _) => .call o.key (stripSpaces (stripEnd value)) := by
  have hnul : cstr ((ConfigLine.option o).text e) = (ConfigLine.option o).text e := by
    refine cutAt_of_notMem ?_
    simp [o.text_eq, hkey, o.value_plain.1, nul_notMem_ending]
  rw [readOption, hnul, o.text_eq, if_neg (o.head?_text _),
    strtok_append_cons o.key_ne o.key_plain.1]

/-- A NUL in the key ends the line before there is a value. -/
theorem OptionLine.notMem_key_of_readOption {option value : Text}
    (h : readOption ((ConfigLine.option o).text e) = .call option value) : '\x00' ∉ o.key := by
  intro hkey
  obtain ⟨rest, tok, left, hopt, htok, -⟩ := readOption_eq_call h
  have hcut : cstr ((ConfigLine.option o).text e) = cutAt '\x00' o.key := by
    rw [o.text_eq, cstr, cutAt_append_of_mem hkey]
  have hne := ne_nil_of_strtok hopt
  rw [hcut] at hopt hne
  rw [strtok_of_notMem hne fun hmem => o.key_plain.1 (mem_of_mem_cutAt hmem), Option.some.injEq,
    Prod.mk.injEq] at hopt
  exact ne_nil_of_strtok htok hopt.2.symm

/-- An option line is read as its key and value, where it is all there. -/
theorem OptionLine.readOption_iff :
    readOption ((ConfigLine.option o).text e) = .call o.key (o.value.rdropWhile (· == ' ')) ↔
      '\x00' ∉ o.key ∧ '=' ∉ o.value ∧ (o.value = [] → e ≠ .missing) ∧
        (o.value ≠ [] → ∃ c ∈ o.value, c ≠ ' ') := by
  by_cases hkey : '\x00' ∈ o.key
  · exact iff_of_false (fun h => o.notMem_key_of_readOption e h hkey) fun h => h.1 hkey
  by_cases hval : '=' ∈ o.value
  · refine iff_of_false (fun h => ?_) fun h => h.2.1 hval
    exact notMem_of_readOption h (mem_rdropWhile_of_mem hval (by decide))
  have htok : '=' ∉ o.value ++ e.text := by simp [hval, equals_notMem_ending]
  rw [o.readOption_eq e hkey]
  by_cases hnil : o.value ++ e.text = []
  · obtain ⟨hv, he⟩ := List.append_eq_nil_iff.1 hnil
    rw [hnil]
    exact iff_of_false ReadOption.noConfusion fun h => h.2.2.1 hv (Ending.text_eq_nil_iff.1 he)
  · rw [strtok_of_notMem hnil htok]
    simp only [stripEnd_append_ending o.value_plain.2.1 o.value_plain.2.2, ReadOption.call.injEq,
      true_and, stripSpaces_eq_iff]
    refine ⟨fun h => ⟨hkey, hval, fun hv he => ?_, h⟩, fun h => h.2.2.2⟩
    exact hnil (by rw [hv, he]; rfl)

/-- Where a line is cut off behind 511 characters, a value that is to continue with a comment
lacks at least the `#`. -/
theorem OptionLine.length_of_readOption {value : Text}
    (h : readOption (((ConfigLine.option o).text e).take 511) = .call o.key value)
    (hvalue : value = o.value.rdropWhile (· == ' '))
    (hrest : ∀ r ∈ pieces 511 (((ConfigLine.option o).text e).drop 511), r.head? = some '#') :
    ((ConfigLine.option o).text e).length ≤ 511 := by
  by_contra hlong
  have hlen := length_readOption_le h
  rw [List.length_take, min_eq_left (by omega)] at hlen
  have hhash : ((ConfigLine.option o).text e)[511]? = some '#' := by
    have := (forall_pieces_head_iff (by omega)).1 hrest 0 (dvd_zero _)
      (by rw [List.length_drop]; omega)
    rwa [List.getElem?_drop, Nat.add_zero] at this
  rw [o.text_eq, List.getElem?_append_right (by omega),
    show 511 - o.key.length = 511 - o.key.length - 1 + 1 by omega, List.getElem?_cons_succ] at hhash
  have hin : 511 - o.key.length - 1 < o.value.length := by
    by_contra hout
    rw [List.getElem?_append_right (by omega)] at hhash
    exact notMem_ending (by decide) (by decide) e (List.mem_of_getElem? hhash)
  rw [List.getElem?_append_left hin] at hhash
  have hlt := lt_length_rdropWhile hhash (p := (· == ' ')) (by decide)
  rw [← hvalue] at hlt
  omega

/-- The first piece of an option line is never taken for a comment. -/
theorem OptionLine.callsOf_pieces {cs : List (Text × Text)}
    (h : callsOf (pieces 511 ((ConfigLine.option o).text e)) = some cs) :
    ∃ option value cs', readOption (((ConfigLine.option o).text e).take 511) = .call option value ∧
      callsOf (pieces 511 (((ConfigLine.option o).text e).drop 511)) = some cs' ∧
      cs = (option, value) :: cs' := by
  rw [pieces_of_ne_nil (by omega) (o.text_ne e), callsOf] at h
  cases hread : readOption (((ConfigLine.option o).text e).take 511) with
  | skip =>
    rw [readOption_eq_skip_iff, List.head?_take, if_neg (by omega), o.text_eq] at hread
    exact absurd hread (o.head?_text _)
  | stop code =>
    rw [hread] at h
    simp at h
  | call option value =>
    rw [hread] at h
    obtain ⟨cs', hcs', rfl⟩ := Option.map_eq_some_iff.1 h
    exact ⟨option, value, cs', rfl, hcs', rfl⟩

theorem OptionLine.callsOf_iff :
    callsOf (pieces 511 ((ConfigLine.option o).text e)) =
      some [(o.key, o.value.rdropWhile (· == ' '))] ↔ o.Readable e := by
  refine ⟨fun h => ?_, fun h => ?_⟩
  · obtain ⟨option, value, cs', hread, hrest, heq⟩ := o.callsOf_pieces e h
    rw [List.cons.injEq, Prod.mk.injEq] at heq
    obtain ⟨⟨rfl, rfl⟩, rfl⟩ := heq
    have hlen := o.length_of_readOption e hread rfl (callsOf_eq_nil_iff.1 hrest)
    rw [List.take_of_length_le hlen] at hread
    obtain ⟨hkey, hvalue, hempty, hspaces⟩ := (o.readOption_iff e).1 hread
    exact ⟨hlen, hkey, hvalue, hempty, hspaces⟩
  · have hread := (o.readOption_iff e).2 ⟨h.key, h.value, h.empty, h.spaces⟩
    rw [pieces_of_length_le (o.text_ne e) h.length, callsOf, hread]
    rfl

end OptionLine

theorem ConfigLine.callsOf_iff (l : ConfigLine) (e : Ending) :
    callsOf (pieces 511 (l.text e)) = some l.options ↔ l.Readable e := by
  cases l with
  | comment body plain =>
    exact callsOf_eq_nil_iff.trans (forall_pieces_head_iff (by omega))
  | option o => exact o.callsOf_iff e

theorem ConfigLine.length_options_le (l : ConfigLine) (e : Ending) {cs : List (Text × Text)}
    (h : callsOf (pieces 511 (l.text e)) = some cs) : l.options.length ≤ cs.length := by
  cases l with
  | comment body plain => exact Nat.zero_le _
  | option o =>
    obtain ⟨option, value, cs', -, -, rfl⟩ := o.callsOf_pieces e h
    exact Nat.succ_le_succ (Nat.zero_le _)

/-! ## The whole file -/

/-- The parser returns 0 and hands over the options of the file, each once and in order, and
nothing else. -/
def CallsExactly (f : ConfigText) : Prop :=
  ∀ (σ : Type) (handle : Text → Text → σ → C σ) (s : σ),
    parseConfigFileWith handle (some f.text) s =
      handleAll handle f.options s >>= fun s => pure (0, s)

theorem callsExactly_iff_callsOf (f : ConfigText) :
    CallsExactly f ↔
      callsOf (f.lines.flatMap fun l => pieces 511 (l.1.text l.2)) = some f.options := by
  rw [← f.reads_text]
  exact parseReads_eq_iff

/-- **The file is read as it says if and only if each of its lines is readable.** -/
theorem callsExactly_iff (f : ConfigText) :
    CallsExactly f ↔ ∀ l ∈ f.lines, l.1.Readable l.2 := by
  have hle : ∀ l ∈ f.lines, ∀ cs, callsOf (pieces 511 (l.1.text l.2)) = some cs →
      l.1.options.length ≤ cs.length :=
    fun l _ cs h => l.1.length_options_le l.2 h
  rw [callsExactly_iff_callsOf, ConfigText.options, callsOf_flatMap_iff hle]
  exact forall₂_congr fun l _ => l.1.callsOf_iff l.2

/-- The line `password=a=b`. -/
def passwordLine : OptionLine where
  key := ['p', 'a', 's', 's', 'w', 'o', 'r', 'd']
  value := ['a', '=', 'b']
  key_ne := by decide
  key_head := by decide
  key_plain := by decide
  value_plain := by decide

/-- A file of that one line. -/
def passwordFile : ConfigText where
  lines := [(.option passwordLine, .lf)]
  terminated := by simp [Terminated]

/-- A password with an `=` in it is cut off there. -/
theorem not_callsExactly_password : ¬ CallsExactly passwordFile := by
  intro h
  have hcalls := (callsExactly_iff_callsOf passwordFile).1 h
  rw [passwordFile, List.flatMap_singleton] at hcalls
  have hread : passwordLine.Readable .lf := (passwordLine.callsOf_iff .lf).1 hcalls
  exact absurd hread.value (by decide)

end Furikup
