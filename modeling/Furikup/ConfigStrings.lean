import Furikup.ConfigOrder
import Furikup.Lib.Machine
import Furikup.Presence

/-!
# The strings of the configuration

Each string the configuration file sets is copied into an array, and from there into others: the
user's address is put together from two of them and copied by `update_presence`, which fills a
few arrays of its own.

* `OptionName.room` — the array behind an option.  `staysTerminated_iff` says when all arrays hold
  a terminated string after every call.
* `getUserUri`, `getServerUri` and `presenceArrays` — the copies that are made.
* `stringsStay_iff` — when no step of the way writes over its array: no value fills its array, user
  and server together leave room for the rest of the address, and the presence is one of those
  `update_presence` has room for, of which there is one.
-/

set_option autoImplicit false

namespace Furikup

open CText CFile

/-! ## The arrays behind the options -/

/-- The size of the array an option's value is copied into. -/
def OptionName.room : OptionName → Option Nat
  | .server => some 128
  | .username => some 128
  | .password => some 64
  | .stunserver => some 128
  | .logfile => some 128
  | .disablenat => none
  | .stunport => none
  | .input => none
  | .test => none

/-- The arrays that are filled with `strncpy` all hold a terminated string. -/
structure ConfigVars.Ends (v : ConfigVars) : Prop where
  server : v.configServer.Ends
  user : v.configUser.Ends
  password : v.configPassword.Ends
  stunServer : v.configStunServer.Ends

/-- A value leaves room for the terminator. -/
def Fits (c : Text × Text) : Prop :=
  ∀ k, optionName c.1 = some k → ∀ size ∈ k.room, c.2.length < size

theorem ends_initial : (Settings.vars {}).Ends where
  server := by decide
  user := by decide
  password := by decide
  stunServer := by decide

/-- A setter leaves the arrays terminated if it writes a terminated one. -/
theorem handleNamed_ends_iff {k : OptionName} {value : Text} {s : Settings} :
    (∃ s', handleNamed k value s = .ok s' ∧ s'.vars.Ends) ↔
      (k = .logfile → value.length < 128) ∧ (writeNamed k value s.vars).Ends := by
  have hwrite : ∀ s', handleNamed k value s = .ok s' →
      (s'.vars.Ends ↔ (writeNamed k value s.vars).Ends) := fun s' hs' => by
    obtain ⟨b, hb, -⟩ := handleNamed_cases hs'
    rw [hb]
    exact ⟨fun h => ⟨h.1, h.2, h.3, h.4⟩, fun h => ⟨h.1, h.2, h.3, h.4⟩⟩
  rw [← exists_handleNamed_iff (s := s)]
  constructor
  · rintro ⟨s', h, he⟩
    exact ⟨⟨s', h⟩, (hwrite s' h).1 he⟩
  · rintro ⟨⟨s', h⟩, he⟩
    exact ⟨s', h, (hwrite s' h).2 he⟩

/-- Of terminated arrays one is written, with a terminator if there is room for it. -/
theorem writeNamed_ends_iff {k : OptionName} {value : Text} {v : ConfigVars} (hv : v.Ends) :
    (k = .logfile → value.length < 128) ∧ (writeNamed k value v).Ends ↔
      ∀ size ∈ k.room, value.length < size := by
  have hends : ∀ {cap : Nat} {t : Text}, (strncpy cap t).Ends ↔ t.length < cap := ends_strncpy_iff
  cases k with
  | server =>
    simp only [OptionName.room, Option.mem_some_iff, forall_eq']
    exact ⟨fun h => hends.1 h.2.server, fun h =>
      ⟨OptionName.noConfusion, hends.2 h, hv.user, hv.password, hv.stunServer⟩⟩
  | username =>
    simp only [OptionName.room, Option.mem_some_iff, forall_eq']
    exact ⟨fun h => hends.1 h.2.user, fun h =>
      ⟨OptionName.noConfusion, hv.server, hends.2 h, hv.password, hv.stunServer⟩⟩
  | password =>
    simp only [OptionName.room, Option.mem_some_iff, forall_eq']
    exact ⟨fun h => hends.1 h.2.password, fun h =>
      ⟨OptionName.noConfusion, hv.server, hv.user, hends.2 h, hv.stunServer⟩⟩
  | stunserver =>
    simp only [OptionName.room, Option.mem_some_iff, forall_eq']
    exact ⟨fun h => hends.1 h.2.stunServer, fun h =>
      ⟨OptionName.noConfusion, hv.server, hv.user, hv.password, hends.2 h⟩⟩
  | logfile =>
    simp only [OptionName.room, Option.mem_some_iff, forall_eq']
    exact ⟨fun h => h.1 trivial, fun h => ⟨fun _ => h, hv⟩⟩
  | disablenat | stunport | input | test =>
    exact iff_of_true ⟨OptionName.noConfusion, hv.server, hv.user, hv.password, hv.stunServer⟩
      (by simp [OptionName.room])

/-- One call of `handleOption`. -/
def optionStep (c : Text × Text) (s : Settings) : C Settings :=
  handleOption c.1 c.2 s

theorem exists_optionStep_ends_iff {c : Text × Text} {s : Settings} (hs : s.vars.Ends) :
    (∃ s', optionStep c s = .ok s' ∧ s'.vars.Ends) ↔ Fits c := by
  rw [Fits, optionStep, handleOption_eq]
  cases optionName c.1 with
  | none => exact iff_of_true ⟨s, rfl, hs⟩ fun k hk => absurd hk (Option.some_ne_none k).symm
  | some k =>
    simp only [Option.some.injEq, forall_eq']
    exact handleNamed_ends_iff.trans (writeNamed_ends_iff hs)

theorem run_optionStep (cs : List (Text × Text)) (s : Settings) :
    Machine.run optionStep cs s = handleAll handleOption cs s := by
  induction cs generalizing s with
  | nil => rfl
  | cons c cs ih =>
    rw [Machine.run, handleAll, List.foldlM_cons, optionStep]
    cases handleOption c.1 c.2 s with
    | ok s' => exact ih s'
    | error e => rfl

/-- After every call that a sequence of options makes, all arrays hold terminated strings, and
nothing has been written behind them. -/
def StaysTerminated (cs : List (Text × Text)) (s : Settings) : Prop :=
  Machine.Throughout optionStep (fun s => s.vars.Ends) cs s

/-- **The arrays stay terminated if and only if every value leaves room for the terminator.** -/
theorem staysTerminated_iff {cs : List (Text × Text)} {s : Settings} (hs : s.vars.Ends) :
    StaysTerminated cs s ↔ ∀ c ∈ cs, Fits c := by
  refine Machine.throughout_iff_forall (fun s h => h) (fun c s hs hc => ?_)
    (fun c s s' hs h he => ?_) hs
  · exact (exists_optionStep_ends_iff hs).2 hc
  · exact (exists_optionStep_ends_iff hs).1 ⟨s', h, he⟩

/-! ## The copies that are made of them -/

namespace ConfigVars

variable (v : ConfigVars)

/-- `config_get_user_uri` prints into its `user_uri`. -/
def getUserUri : C (Buf 512) := do
  let user ← v.configUser.str
  let server ← v.configServer.str
  sprintf 512 (userUri user server)

/-- `config_get_server_uri` prints into its `server_uri`. -/
def getServerUri : C (Buf 256) := do
  let server ← v.configServer.str
  sprintf 256 (lit "sip:" ++ server.text)

end ConfigVars

/-- The arrays of `update_presence`, where they have been written. -/
structure PresenceArrays where
  origin : Buf 255
  state : Buf 25
  activity : Option (Buf 25) := none
  note : Option (Buf 25) := none

/-- What `update_presence` writes into its arrays. -/
def presenceArrays (v : ConfigVars) (status : Int) : C PresenceArrays := do
  let uri ← v.getUserUri
  let origin ← sprintf 255 uri.text
  let state ← sprintf 25 (lit "open")
  match Presence.ofCode status with
  | some .offline => do
    let state ← sprintf 25 (stateText .offline)
    let activity ← sprintf 25 (activityText .offline)
    pure { origin, state, activity := some activity }
  | some .online => do
    let note ← sprintf 25 (noteText .online)
    pure { origin, state, note := some note }
  | some .busy => do
    let activity ← sprintf 25 (activityText .busy)
    let note ← sprintf 25 (noteText .busy)
    pure { origin, state, activity := some activity, note := some note }
  | some .away => do
    let activity ← sprintf 25 (activityText .away)
    let note ← sprintf 25 (noteText .away)
    pure { origin, state, activity := some activity, note := some note }
  | some .onPhone => do
    let activity ← sprintf 25 (activityText .onPhone)
    let note ← sprintf 25 (noteText .onPhone)
    pure { origin, state, activity := some activity, note := some note }
  | none => pure { origin, state }

theorem userUri_length (user server : Buf 128) :
    (userUri user server).length = user.text.length + server.text.length + 5 := by
  have hsip : (lit "sip:").length = 4 := by simp [lit]
  have hat : (lit "@").length = 1 := by simp [lit]
  simp only [userUri, List.length_append]
  omega

/-- The element alone is more than its array takes. -/
theorem le_length_activities (activity : Text) : 25 ≤ (activities activity).length := by
  have hopen : (lit "<es:activities>\n  <es:activity>").length = 31 := by simp [lit]
  simp only [activities, List.length_append]
  omega

theorem sprintf_activities (activity : Text) :
    sprintf 25 (activities activity) = .error .overflow :=
  sprintf_of_le (le_length_activities activity)

/-- There is room for one state, and for the codes that are none. -/
def PresenceFits (status : Int) : Prop :=
  Presence.ofCode status = none ∨ Presence.ofCode status = some .online

/-- The copies made of the configuration, and of the presence for it, all fit. -/
def CopiesFit (v : ConfigVars) (status : Int) : Prop :=
  (∃ uri, v.getUserUri = .ok uri) ∧ (∃ uri, v.getServerUri = .ok uri) ∧
    ∃ arrays, presenceArrays v status = .ok arrays

/-- Of terminated strings the two addresses always fit. -/
theorem ConfigVars.Ends.getUserUri {v : ConfigVars} (h : v.Ends) :
    ∃ uri, v.getUserUri = .ok uri ∧
      uri.text.length = v.configUser.text.length + v.configServer.text.length + 5 := by
  have huser : v.configUser.str = .ok ⟨v.configUser.text, h.user⟩ := sprintf_of_lt h.user
  have hserver : v.configServer.str = .ok ⟨v.configServer.text, h.server⟩ := sprintf_of_lt h.server
  have hlen : (userUri ⟨v.configUser.text, h.user⟩ ⟨v.configServer.text, h.server⟩).length =
      v.configUser.text.length + v.configServer.text.length + 5 := userUri_length _ _
  have h1 : v.configUser.text.length < 128 := h.user
  have h2 : v.configServer.text.length < 128 := h.server
  rw [ConfigVars.getUserUri, huser, hserver, ok_bind, ok_bind, sprintf_of_lt (by omega)]
  exact ⟨_, rfl, hlen⟩

theorem ConfigVars.Ends.getServerUri {v : ConfigVars} (h : v.Ends) :
    ∃ uri, v.getServerUri = .ok uri := by
  have hserver : v.configServer.str = .ok ⟨v.configServer.text, h.server⟩ := sprintf_of_lt h.server
  have hsip : (lit "sip:").length = 4 := by simp [lit]
  have hlen : v.configServer.text.length < 128 := h.server
  rw [ConfigVars.getServerUri, hserver, ok_bind]
  refine exists_sprintf_iff.2 ?_
  simp only [List.length_append]
  omega

/-- The presence goes into the arrays if and only if it is one that has room. -/
theorem exists_presenceArrays_iff {v : ConfigVars} {status : Int} {uri : Buf 512}
    (huri : v.getUserUri = .ok uri) :
    (∃ arrays, presenceArrays v status = .ok arrays) ↔
      uri.text.length < 255 ∧ PresenceFits status := by
  rw [presenceArrays, huri, ok_bind, PresenceFits]
  by_cases hlen : uri.text.length < 255
  · have hstate : (lit "open").length < 25 := by simp [lit]
    rw [sprintf_of_lt hlen, ok_bind, sprintf_of_lt hstate, ok_bind, and_iff_right hlen]
    cases Presence.ofCode status with
    | none => exact iff_of_true ⟨_, rfl⟩ (Or.inl rfl)
    | some p =>
      have hclosed : (stateText .offline).length < 25 := by simp [stateText, lit]
      cases p with
      | online =>
        have hnote : (noteText .online).length < 25 := by simp [noteText, lit]
        simp only [sprintf_of_lt hnote, ok_bind]
        exact iff_of_true ⟨_, rfl⟩ (Or.inr trivial)
      | offline => simp [sprintf_of_lt hclosed, activityText, sprintf_activities]
      | busy | away | onPhone => simp [activityText, sprintf_activities]
  · rw [sprintf_of_le (by omega), error_bind]
    simp [hlen]

/-- Of the copies only the one of the user's address, and the presence, can be too long. -/
theorem ConfigVars.Ends.copiesFit_iff {v : ConfigVars} (h : v.Ends) (status : Int) :
    CopiesFit v status ↔
      v.configUser.text.length + v.configServer.text.length ≤ 249 ∧ PresenceFits status := by
  obtain ⟨uri, huri, hlen⟩ := h.getUserUri
  rw [CopiesFit, exists_presenceArrays_iff huri, and_iff_right ⟨uri, huri⟩,
    and_iff_right h.getServerUri, hlen]
  refine and_congr_left' ?_
  omega

/-! ## A run of the parser and what follows it -/

/-- The value of the last call about an option, empty if there was none. -/
def lastValue (k : OptionName) (cs : List (Text × Text)) : Text :=
  (cs.reverse.find? fun c => strcasecmp c.1 k.text).elim [] Prod.snd

theorem lastValue_append (k : OptionName) (cs : List (Text × Text)) (c : Text × Text) :
    lastValue k (cs ++ [c]) = if strcasecmp c.1 k.text then c.2 else lastValue k cs := by
  rw [lastValue, List.reverse_append, List.reverse_singleton, List.singleton_append,
    List.find?_cons]
  split
  · next h => rw [if_pos h]; rfl
  · next h => rw [if_neg (by simpa using h), lastValue]

/-- A string that an option is copied into is its last value, cut to the array. -/
theorem foldl_only_eq_lastValue {cap : Nat} (k : OptionName) (cs : List (Text × Text)) :
    (named cs).foldl (fun b c => only k (fun value _ => strncpy cap value) c.1 c.2 b)
      (strncpy cap []) = strncpy cap (lastValue k cs) := by
  induction cs using List.reverseRecOn with
  | nil => rfl
  | append_singleton cs c ih =>
    rw [lastValue_append, named, List.filterMap_append, List.foldl_append, ← named, ih]
    cases hname : optionName c.1 with
    | none =>
      have hk : ¬ strcasecmp c.1 k.text = true := fun h => by
        rw [← optionName_eq_some_iff, hname] at h
        exact absurd h (Option.some_ne_none k).symm
      simp [hname, hk]
    | some m =>
      by_cases hm : m = k
      · have hk : strcasecmp c.1 k.text = true := optionName_eq_some_iff.1 (hm ▸ hname)
        simp [hname, hk, only, hm]
      · have hk : ¬ strcasecmp c.1 k.text = true := fun h => by
          rw [← optionName_eq_some_iff, hname, Option.some.injEq] at h
          exact hm h
        simp [hname, hk, only, hm]

/-- Nothing is written over on the way from the option calls of the parser to the arrays of
`update_presence`. -/
def StringsStay (cs : List (Text × Text)) (status : Int) : Prop :=
  StaysTerminated cs {} ∧ ∃ s, handleAll handleOption cs {} = .ok s ∧ CopiesFit s.vars status

theorem fits_iff {c : Text × Text} :
    Fits c ↔ ∀ k, strcasecmp c.1 (OptionName.text k) = true → ∀ size ∈ k.room,
      c.2.length < size := by
  simp only [Fits, optionName_eq_some_iff]

/-- The two parts of the user's address after a sequence of calls. -/
theorem address_of_handleAll {cs : List (Text × Text)} {s : Settings}
    (h : handleAll handleOption cs {} = .ok s) (hends : s.vars.Ends) :
    s.vars.configUser.text = lastValue .username cs ∧
      s.vars.configServer.text = lastValue .server cs := by
  have huser : s.vars.configUser = strncpy 128 (lastValue .username cs) :=
    (follows_user.eq_foldl h).trans (foldl_only_eq_lastValue .username cs)
  have hserver : s.vars.configServer = strncpy 128 (lastValue .server cs) :=
    (follows_server.eq_foldl h).trans (foldl_only_eq_lastValue .server cs)
  rw [huser, hserver]
  exact ⟨text_strncpy_of_lt (ends_strncpy_iff.1 (huser ▸ hends.user)),
    text_strncpy_of_lt (ends_strncpy_iff.1 (hserver ▸ hends.server))⟩

/-- **The strings stay in their arrays if and only if the values leave room in theirs, user and
server together in the copy of the address, and the presence has room.** -/
theorem stringsStay_iff (cs : List (Text × Text)) (status : Int) :
    StringsStay cs status ↔
      (∀ c ∈ cs, ∀ k, strcasecmp c.1 (OptionName.text k) = true → ∀ size ∈ k.room,
        c.2.length < size) ∧
      (lastValue .username cs).length + (lastValue .server cs).length ≤ 249 ∧
      PresenceFits status := by
  simp only [← fits_iff]
  rw [← staysTerminated_iff ends_initial, StringsStay]
  refine and_congr_right fun hstays => ?_
  obtain ⟨s, hs, hends⟩ := hstays cs (List.prefix_refl cs)
  rw [run_optionStep] at hs
  obtain ⟨huser, hserver⟩ := address_of_handleAll hs hends
  rw [← huser, ← hserver, ← hends.copiesFit_iff status]
  refine ⟨?_, fun h => ⟨s, hs, h⟩⟩
  rintro ⟨s', hs', h⟩
  rw [hs, Except.ok.injEq] at hs'
  rwa [hs']

/-- A server name of 128 characters fills its array, and no terminator is written. -/
theorem not_stringsStay :
    ¬ StringsStay [(lit "server", List.replicate 128 'a')] 1 := by
  rintro ⟨hstays, -⟩
  have hfits := (staysTerminated_iff ends_initial).1 hstays _ List.mem_cons_self
  have hlt := fits_iff.1 hfits .server (by simp [strcasecmp, OptionName.text]) 128 rfl
  simp at hlt

end Furikup
