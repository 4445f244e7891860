import Furikup.Addressbook
import Furikup.KeyPress

/-!
# Names and addresses between the user interface and the engine

A contact's strings have fields of 128, and a caller's display name is as long as the caller made
it.  The user interface copies both into arrays of 100, and the engine puts a scheme in front of an
address in an array of 128.

* `dial` — the cross on a contact: the copy into `gCallee` and the command for the engine.
* `HandedOver` — everything arrives as it was sent.
* `handedOver_iff` — when it does.
-/

set_option autoImplicit false

namespace Furikup

open CText

/-- What the main loop does for the cross on a contact: `strcpy` into `gCallee`, and the event for
the engine. -/
def dial (con : Contact) : C (Buf 100 × Option GuiEvent) := do
  let gCallee ← sprintf 100 con.nickname.text
  pure (gCallee, mainEvent 2 .cross con.sipuri.text)

/-- The URI has one of the schemes the engine knows. -/
def HasScheme (uri : Text) : Prop :=
  (lit "sip:").isPrefixOf uri = true ∨ (lit "tel:").isPrefixOf uri = true

instance (uri : Text) : Decidable (HasScheme uri) :=
  inferInstanceAs (Decidable (_ ∨ _))

/-- The address a contact is to be called under. -/
def calledAddress (uri : Text) : Text :=
  if HasScheme uri then uri else lit "sip:" ++ uri

/-- The contact and the caller arrive on the other side as they are, and no copy on the way is too
long for its array. -/
structure HandedOver (con : Contact) (displayname : Option Text) : Prop where
  gCallee : ∃ gCallee, dial con = .ok (gCallee, some (.newCall con.sipuri.text)) ∧
    gCallee.text = con.nickname.text
  gCaller : ∀ gui cid index, ∃ gui',
    callbackEventHandler (.incomingCall cid displayname index) gui = .ok gui' ∧
      gui'.gCaller.text = displayname.getD (lit "Unknown")
  address : callAddress con.sipuri.text = .ok (calledAddress con.sipuri.text)
  call : ∀ cfg lib e, guiSwitch cfg lib (.newCall con.sipuri.text) e =
    makeCall cfg lib (calledAddress con.sipuri.text) e >>= fun e => pure (e, true)

theorem callAddress_iff {uri : Text} :
    callAddress uri = .ok (calledAddress uri) ↔ HasScheme uri ∨ uri.length ≤ 123 := by
  have hsip : (lit "sip:").length = 4 := by simp [lit]
  have hcond : ((lit "sip:").isPrefixOf uri || (lit "tel:").isPrefixOf uri) = true ↔
      HasScheme uri := Bool.or_eq_true_iff
  rw [callAddress, calledAddress]
  by_cases hscheme : HasScheme uri
  · rw [if_pos (hcond.2 hscheme), if_pos hscheme]
    exact iff_of_true rfl (Or.inl hscheme)
  · rw [if_neg fun h => hscheme (hcond.1 h), if_neg hscheme, or_iff_right hscheme]
    by_cases hlen : (lit "sip:" ++ uri).length < 128
    · rw [sprintf_of_lt hlen, ok_bind]
      rw [List.length_append] at hlen
      exact iff_of_true rfl (by omega)
    · rw [sprintf_of_le (Nat.le_of_not_lt hlen), error_bind]
      rw [List.length_append] at hlen
      exact iff_of_false (by simp) (by omega)

theorem dial_iff {con : Contact} :
    (∃ gCallee, dial con = .ok (gCallee, some (.newCall con.sipuri.text)) ∧
      gCallee.text = con.nickname.text) ↔ con.nickname.text.length ≤ 99 := by
  rw [← Nat.lt_succ_iff, ← exists_sprintf_iff]
  simp only [dial, bind_eq_ok, pure_eq_ok, Prod.mk.injEq]
  constructor
  · rintro ⟨_, ⟨gCallee, h, -⟩, -⟩
    exact ⟨gCallee, h⟩
  · rintro ⟨gCallee, h⟩
    exact ⟨gCallee, ⟨gCallee, h, rfl, rfl⟩, sprintf_eq_ok.1 h⟩

theorem incomingCall_iff {displayname : Option Text} :
    (∀ gui cid index, ∃ gui',
      callbackEventHandler (.incomingCall cid displayname index) gui = .ok gui' ∧
        gui'.gCaller.text = displayname.getD (lit "Unknown")) ↔
      ∀ name ∈ displayname, name.length ≤ 99 := by
  have hunknown : (lit "Unknown").length < 100 := by simp [lit]
  have hfits : (∃ b, sprintf 100 (displayname.getD (lit "Unknown")) = .ok b) ↔
      ∀ name ∈ displayname, name.length ≤ 99 := by
    rw [exists_sprintf_iff]
    cases displayname with
    | none => simpa using hunknown
    | some name => simp [Nat.lt_succ_iff]
  rw [← hfits]
  simp only [callbackEventHandler, bind_eq_ok, pure_eq_ok]
  constructor
  · intro h
    obtain ⟨gui', ⟨b, hb, -⟩, -⟩ := h {} 0 0
    exact ⟨b, hb⟩
  · rintro ⟨b, hb⟩ gui cid index
    exact ⟨_, ⟨b, hb, rfl⟩, sprintf_eq_ok.1 hb⟩

/-- The engine calls the address the prefix was put in front of. -/
theorem guiSwitch_newCall {uri address : Text} (h : callAddress uri = .ok address) (cfg : Config)
    (lib : Lib) (e : Engine) :
    guiSwitch cfg lib (.newCall uri) e =
      makeCall cfg lib address e >>= fun e => pure (e, true) := by
  rw [guiSwitch, h, ok_bind]

/-- **Everything arrives if and only if the names fit the arrays of the user interface and the
prefix fits in front of the URI.** -/
theorem handedOver_iff (con : Contact) (displayname : Option Text) :
    HandedOver con displayname ↔
      con.nickname.text.length ≤ 99 ∧ (∀ name ∈ displayname, name.length ≤ 99) ∧
        (HasScheme con.sipuri.text ∨ con.sipuri.text.length ≤ 123) := by
  constructor
  · intro h
    exact ⟨dial_iff.1 h.gCallee, incomingCall_iff.1 h.gCaller, callAddress_iff.1 h.address⟩
  · rintro ⟨hnick, hname, huri⟩
    exact ⟨dial_iff.2 hnick, incomingCall_iff.2 hname, callAddress_iff.2 huri,
      guiSwitch_newCall (callAddress_iff.2 huri)⟩

/-- A nickname of 100 characters fits its field, but not `gCallee`. -/
theorem not_handedOver :
    ¬ HandedOver { nickname := ⟨List.replicate 100 'a', by decide⟩, sipuri := ⟨['u'], by decide⟩ }
      none := by
  intro h
  have hlen := dial_iff.1 h.gCallee
  rw [List.length_replicate] at hlen
  omega

end Furikup
