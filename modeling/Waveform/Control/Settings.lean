import Mathlib.Data.List.Dedup
import Mathlib.Data.List.MinMax
import Waveform.Domain.Auth
import Waveform.Domain.Voice
import Waveform.Store.Schema

/-!
# Account settings

The provider orders, default voice and provider keys an account has saved, and the database defaults
they fall back to. Rows written since accounts exist carry the org sentinel `@`; rows from before,
one for each former org, are still read until the account's `@` row exists.
-/

set_option autoImplicit false

namespace Waveform.Control

open Waveform.Domain
open Waveform.Store (accountScope)

/-! ## Tables -/

/-- The production row of `waveform_provider_defaults`. The `jsonb` orders are lists of names. -/
structure ProviderDefaults where
  ttsOrder : List String
  sttOrder : List String
  voiceProfile : String

/-- A production row of `waveform_account_preferences`. -/
structure PreferenceRow where
  orgId : String
  actorId : ActorId
  ttsOrder : Option (List String)
  sttOrder : Option (List String)
  voiceProfile : Option String
  updatedAt : Nat
  deriving DecidableEq

/-- What a saved provider key is sealed for: `account/{storage_key}/{provider}`, or the row it was
written in before accounts. -/
inductive KeyContext where
  | account (storageKey : ActorId) (provider : String)
  | legacy (org : String) (storageKey : ActorId) (provider : String)
  deriving DecidableEq

/-- A production row of `waveform_provider_keys`. -/
structure ProviderKeyRow where
  orgId : String
  actorId : ActorId
  provider : String
  secretCipher : Cipher KeyContext
  updatedAt : Nat

/-- The settings tables, and the ids of the voice catalog. -/
structure Settings where
  defaults : ProviderDefaults
  voices : List String
  preferences : List PreferenceRow
  providerKeys : List ProviderKeyRow

/-- Why a settings request is refused, by the code of its error. -/
inductive ControlError where
  | invalidProviderOrder
  | invalidVoiceProfile
  | invalidProvider
  | invalidApiKey
  deriving DecidableEq

/-! ## Preferences -/

/-- `resolve_order` of the settings, over provider names as text. -/
def resolveOrder (requested base : List String) : Except ControlError (List String) :=
  match completeOrder requested base with
  | some order => .ok order
  | none => .error .invalidProviderOrder

namespace Settings

/-- The account's `@` row. -/
def accountRow (settings : Settings) (actor : ActorId) : Option PreferenceRow :=
  settings.preferences.find? fun row => row.actorId == actor && row.orgId == accountScope

/-- The account's newest row from before accounts: `ORDER BY updated_at DESC LIMIT 1`. -/
def legacyRow (settings : Settings) (actor : ActorId) : Option PreferenceRow :=
  (settings.preferences.filter fun row =>
    row.actorId == actor && row.orgId != accountScope).argmax PreferenceRow.updatedAt

/-- `ensure_preferences`: `ON CONFLICT DO NOTHING` keeps an `@` row that is there. -/
def ensurePreferences (settings : Settings) (actor : ActorId) (now : Nat) : Settings :=
  match settings.accountRow actor with
  | some _ => settings
  | none =>
      let legacy := settings.legacyRow actor
      let row : PreferenceRow :=
        { orgId := accountScope
          actorId := actor
          ttsOrder := legacy.bind PreferenceRow.ttsOrder
          sttOrder := legacy.bind PreferenceRow.sttOrder
          voiceProfile := some ((legacy.bind PreferenceRow.voiceProfile).getD
            settings.defaults.voiceProfile)
          updatedAt := now }
      { settings with preferences := row :: settings.preferences }

/-- The body of a preferences update. -/
structure Preferences where
  voiceProfile : Option String
  ttsOrder : Option (List String)
  sttOrder : Option (List String)

/-- The SET clause of the update. -/
def updatedRow (row : PreferenceRow) (voiceProfile : Option String)
    (tts stt : Option (List String)) (now : Nat) : PreferenceRow :=
  { row with
    voiceProfile := voiceProfile <|> row.voiceProfile
    ttsOrder := tts <|> row.ttsOrder
    sttOrder := stt <|> row.sttOrder
    updatedAt := now }

/-- The UPDATE of the account's `@` row. -/
def writePreferences (settings : Settings) (actor : ActorId) (voiceProfile : Option String)
    (tts stt : Option (List String)) (now : Nat) : Settings :=
  { settings with preferences := settings.preferences.map fun row =>
      if row.actorId = actor ∧ row.orgId = accountScope then
        updatedRow row voiceProfile tts stt now
      else row }

/-- The order of a body, completed against the default: absent when the body has none. -/
def completedOrder (requested : Option (List String)) (base : List String) :
    Except ControlError (Option (List String)) :=
  match requested with
  | none => .ok none
  | some order => (resolveOrder order base).map some

/-- `update_preferences`, for a caller that may change them. -/
def updatePreferences (settings : Settings) (actor : ActorId) (body : Preferences) (now : Nat) :
    Except ControlError Settings := do
  if body.voiceProfile.any fun id => !(validProfileId id && settings.voices.contains id) then
    .error .invalidVoiceProfile
  else
    let tts ← completedOrder body.ttsOrder settings.defaults.ttsOrder
    let stt ← completedOrder body.sttOrder settings.defaults.sttOrder
    .ok ((settings.ensurePreferences actor now).writePreferences actor body.voiceProfile tts stt
      now)

/-! ## The provider order of an account -/

/-- The default order of an operation. -/
def defaultOrder (settings : Settings) : SpeechOperation → List String
  | .tts => settings.defaults.ttsOrder
  | .stt => settings.defaults.sttOrder

/-- The order a row has saved for an operation. -/
def savedOrder (row : PreferenceRow) : SpeechOperation → Option (List String)
  | .tts => row.ttsOrder
  | .stt => row.sttOrder

/-- The chain of an operation. -/
def chain : SpeechOperation → List ProviderName
  | .tts => ttsProviderChain
  | .stt => sttProviderChain

/-- `provider_order`: the `@` row, else the newest row from before, else the default; nothing when
what is stored is not the whole chain in some order. -/
def providerOrder (settings : Settings) (actor : ActorId) (operation : SpeechOperation) :
    Option (List ProviderName) := do
  let row := settings.accountRow actor <|> settings.legacyRow actor
  let stored := ((row.bind fun row => savedOrder row operation)).getD
    (settings.defaultOrder operation)
  let parsed ← stored.mapM ProviderName.ofStr?
  let order ← Domain.resolveOrder parsed (chain operation)
  if order.length = parsed.length then some order else none

theorem chain_nodup (operation : SpeechOperation) : (chain operation).Nodup := by
  cases operation <;> decide

/-- The order of an account is the whole chain in some order. -/
theorem providerOrder_perm {settings : Settings} {actor : ActorId} {operation : SpeechOperation}
    {order : List ProviderName} (h : settings.providerOrder actor operation = some order) :
    order.Perm (chain operation) := by
  simp only [providerOrder, Option.bind_eq_bind, Option.bind_eq_some_iff] at h
  obtain ⟨parsed, _, completed, hcompleted, h⟩ := h
  obtain ⟨hsub, hnodup, rfl⟩ := (completeOrder_eq_some (chain_nodup operation)).mp hcompleted
  split at h
  · cases h
    exact append_remaining_perm (chain_nodup operation) hsub hnodup
  · cases h

/-! ## Provider keys -/

/-- `validate_provider`. -/
def validProvider (provider : String) : Bool := (ProviderName.ofStr? provider).isSome

/-- What `put_provider_key` accepts as a key. -/
def validApiKey (apiKey : String) : Bool :=
  !apiKey.isEmpty && decide (apiKey.utf8ByteSize ≤ 16384) &&
    apiKey.toList.all fun c => decide (33 ≤ c.toNat) && decide (c.toNat ≤ 126)

/-- `put_provider_key`: the `@` row is written, and every other row of the provider goes. -/
def putProviderKey (vault : Vault) (settings : Settings) (actor : ActorId)
    (provider apiKey : String) (now : Nat) : Except ControlError Settings :=
  if !validProvider provider then .error .invalidProvider
  else if !validApiKey apiKey then .error .invalidApiKey
  else
    let row : ProviderKeyRow :=
      { orgId := accountScope
        actorId := actor
        provider := provider
        secretCipher := vault.sealSecret apiKey (.account actor provider)
        updatedAt := now }
    .ok { settings with providerKeys := row :: settings.providerKeys.filter fun row =>
      !(row.actorId == actor && row.provider == provider) }

/-- The row of a provider that is read: the account's `@` row, else its newest row from before. -/
def savedKeyRow (settings : Settings) (actor : ActorId) (provider : String) :
    Option ProviderKeyRow :=
  let rows := settings.providerKeys.filter fun row =>
    row.actorId == actor && row.provider == provider
  (rows.find? fun row => row.orgId == accountScope) <|>
    (rows.filter fun row => row.orgId != accountScope).argmax ProviderKeyRow.updatedAt

/-- `load`: one key for each provider, or nothing when one cannot be read. -/
def loadProviderKeys (vault : Option Vault) (settings : Settings) (actor : ActorId) :
    Option (List (ProviderName × String)) :=
  let providers := (settings.providerKeys.filter fun row => row.actorId == actor).map
    ProviderKeyRow.provider
  providers.dedup.mapM fun name => do
    let row ← settings.savedKeyRow actor name
    let provider ← ProviderName.ofStr? name
    let context : KeyContext :=
      if row.orgId = accountScope then .account actor name else .legacy row.orgId actor name
    let key ← (← vault).openSecret context row.secretCipher
    return (provider, key)

end Settings

end Waveform.Control
