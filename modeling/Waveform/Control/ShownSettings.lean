import Waveform.Control.SavedKeys
import Waveform.Control.SavedOrders

/-!
# What an account's settings say

The settings tables answer four questions about an account: its preferences as they are shown, the
voice of a request, the provider order of a request and its provider keys. Three of them write the
account's `@` row when there is none.

- `preferences_eq`, `resolveVoice_eq`, `providerOrder_eq`: they depend on what the row that is read
  has saved.
- `SameAnswers`: two settings that answer alike, for every account.
-/

set_option autoImplicit false

namespace Waveform.Control

open Waveform.Domain
open Waveform.Store (accountScope)

/-- The answer to a settings request. -/
structure ShownPreferences where
  voiceProfile : String
  ttsOrder : List String
  sttOrder : List String
  defaults : ProviderDefaults

namespace Settings

/-- `preferences`, for a caller that may see them. -/
def preferencesOf (settings : Settings) (actor : ActorId) (now : Nat) :
    Settings × ShownPreferences :=
  let ensured := settings.ensurePreferences actor now
  let row := ensured.accountRow actor
  (ensured,
    { voiceProfile := (row.bind PreferenceRow.voiceProfile).getD settings.defaults.voiceProfile
      ttsOrder := (row.bind PreferenceRow.ttsOrder).getD settings.defaults.ttsOrder
      sttOrder := (row.bind PreferenceRow.sttOrder).getD settings.defaults.sttOrder
      defaults := settings.defaults })

/-- `resolve` of the voices: nothing is a voice that the catalog does not have. -/
def resolveVoice (settings : Settings) (actor : ActorId) (requested : Option String) (now : Nat) :
    Settings × Option String :=
  let ensured := settings.ensurePreferences actor now
  let saved := (ensured.accountRow actor).bind PreferenceRow.voiceProfile
  let id := (requested.or saved).getD settings.defaults.voiceProfile
  (ensured, if settings.voices.contains id then some id else none)

/-- What a row has saved: the voice and both orders. -/
def saved (row : PreferenceRow) : Option String × Option (List String) × Option (List String) :=
  (row.voiceProfile, row.ttsOrder, row.sttOrder)

/-- What the row of an account that is read has saved. -/
def readPreferences (settings : Settings) (actor : ActorId) :
    Option (Option String × Option (List String) × Option (List String)) :=
  (settings.accountRow actor <|> settings.legacyRow actor).map saved

variable {settings : Settings} {actor : ActorId}

/-- The `@` row once it is there: the one that was, or a new one. -/
theorem accountRow_ensurePreferences (now : Nat) :
    (∃ row, settings.accountRow actor = some row ∧
      (settings.ensurePreferences actor now).accountRow actor = some row) ∨
      (settings.accountRow actor = none ∧
        ∃ row, (settings.ensurePreferences actor now).accountRow actor = some row ∧
        row.voiceProfile = some (((settings.legacyRow actor).bind PreferenceRow.voiceProfile).getD
          settings.defaults.voiceProfile) ∧
        row.ttsOrder = (settings.legacyRow actor).bind PreferenceRow.ttsOrder ∧
        row.sttOrder = (settings.legacyRow actor).bind PreferenceRow.sttOrder) := by
  unfold ensurePreferences
  cases hrow : settings.accountRow actor with
  | some row => exact .inl ⟨row, rfl, hrow⟩
  | none =>
      refine .inr ⟨rfl, ?_⟩
      unfold accountRow
      exact ⟨_, List.find?_cons_of_pos (by simp), rfl, rfl, rfl⟩

/-- The voice that the row which is read has saved. -/
theorem voice_ensurePreferences (now : Nat) :
    (((settings.ensurePreferences actor now).accountRow actor).bind PreferenceRow.voiceProfile).getD
        settings.defaults.voiceProfile =
      ((settings.readPreferences actor).bind Prod.fst).getD settings.defaults.voiceProfile := by
  unfold readPreferences
  rcases @accountRow_ensurePreferences settings actor now with ⟨row, hbefore, hafter⟩ |
    ⟨hnone, row, hafter, hvoice, _⟩
  · rw [hbefore, hafter]
    rfl
  · rw [hnone, hafter, Option.bind_some, hvoice]
    cases settings.legacyRow actor with
    | none => rfl
    | some legacy => rfl

/-- **What is shown** is what the row that is read has saved, with the defaults for the rest. -/
theorem preferences_eq (now : Nat) :
    (settings.preferencesOf actor now).2 =
      { voiceProfile :=
        ((settings.readPreferences actor).bind Prod.fst).getD settings.defaults.voiceProfile
        ttsOrder := ((settings.readPreferences actor).bind fun saved => saved.2.1).getD
          settings.defaults.ttsOrder
        sttOrder := ((settings.readPreferences actor).bind fun saved => saved.2.2).getD
          settings.defaults.sttOrder
        defaults := settings.defaults } := by
  unfold preferencesOf
  dsimp only
  rw [voice_ensurePreferences]
  unfold readPreferences
  rcases @accountRow_ensurePreferences settings actor now with
    ⟨row, hbefore, hafter⟩ | ⟨hnone, row, hafter, _, htts, hstt⟩
  · rw [hbefore, hafter]
    rfl
  · rw [hnone, hafter, Option.bind_some, Option.bind_some, htts, hstt]
    cases settings.legacyRow actor with
    | none => rfl
    | some legacy => rfl

/-- **The voice of a request** is the requested one, else the one that the row which is read has
saved. -/
theorem resolveVoice_eq (requested : Option String) (now : Nat) :
    (settings.resolveVoice actor requested now).2 =
      let id := requested.getD (((settings.readPreferences actor).bind Prod.fst).getD
        settings.defaults.voiceProfile)
      if settings.voices.contains id then some id else none := by
  unfold resolveVoice
  dsimp only
  cases requested with
  | some id => rfl
  | none =>
      rw [Option.none_or, voice_ensurePreferences]
      rfl

/-- The order of a request comes from the row that is read. -/
theorem storedOrder_eq (operation : SpeechOperation) :
    settings.storedOrder actor operation =
      ((settings.readPreferences actor).bind fun saved =>
        match operation with
        | .tts => saved.2.1
        | .stt => saved.2.2).getD (settings.defaultOrder operation) := by
  unfold storedOrder readPreferences
  cases settings.accountRow actor <|> settings.legacyRow actor with
  | none => rfl
  | some row => cases operation <;> rfl

/-! ## Settings that answer alike -/

/-- Every answer about every account is the same; a provider key is opened with the same vault. -/
structure SameAnswers (vault : Option Vault) (settings settings' : Settings) : Prop where
  preferences : ∀ actor now now', (settings'.preferencesOf actor now').2 =
    (settings.preferencesOf actor now).2
  voice : ∀ actor requested now now',
    (settings'.resolveVoice actor requested now').2 = (settings.resolveVoice actor requested now).2
  orders : ∀ actor operation, settings'.providerOrder actor operation =
    settings.providerOrder actor operation
  keys : ∀ actor, settings'.loadProviderKeys vault actor = settings.loadProviderKeys vault actor

variable {vault : Option Vault} {settings' settings'' : Settings}

/-- What the answers depend on. -/
theorem SameAnswers.of_read (hdefaults : settings'.defaults = settings.defaults)
    (hvoices : settings'.voices = settings.voices)
    (hread : ∀ actor, settings'.readPreferences actor = settings.readPreferences actor)
    (hnames : ∀ actor, savedNames settings' actor = savedNames settings actor)
    (hkeys : ∀ actor name, loadedKey vault settings' actor name = loadedKey vault settings
      actor name) :
    SameAnswers vault settings settings' where
  preferences := by
    intro actor now now'
    rw [preferences_eq, preferences_eq, hread, hdefaults]
  voice := by
    intro actor requested now now'
    rw [resolveVoice_eq, resolveVoice_eq, hread, hdefaults, hvoices]
  orders := by
    intro actor operation
    have hstored : settings'.storedOrder actor operation = settings.storedOrder actor
        operation := by
      rw [storedOrder_eq, storedOrder_eq, hread]
      unfold defaultOrder
      rw [hdefaults]
    have hproviders : ∀ settings : Settings, settings.providerOrder actor operation =
        ((settings.storedOrder actor operation).mapM ProviderName.ofStr?).bind fun parsed =>
          (Domain.resolveOrder parsed (chain operation)).bind fun order =>
            if order.length = parsed.length then some order else none := fun _ => rfl
    rw [hproviders, hproviders, hstored]
  keys := by
    intro actor
    rw [loadProviderKeys_eq, loadProviderKeys_eq, hnames]
    exact congrArg (fun load => List.mapM load _) (funext (hkeys actor))

theorem SameAnswers.refl (vault : Option Vault) (settings : Settings) :
    SameAnswers vault settings settings :=
  .of_read rfl rfl (fun _ => rfl) (fun _ => rfl) fun _ _ => rfl

theorem SameAnswers.trans (h : SameAnswers vault settings settings')
    (h' : SameAnswers vault settings' settings'') :
    SameAnswers vault settings settings'' where
  preferences := fun actor now now' =>
    (h'.preferences actor now now').trans (h.preferences actor now now)
  voice := fun actor requested now now' => (h'.voice actor requested now now').trans
    (h.voice actor requested now now)
  orders := fun actor operation => (h'.orders actor operation).trans (h.orders actor operation)
  keys := fun actor => (h'.keys actor).trans (h.keys actor)

end Settings

end Waveform.Control
