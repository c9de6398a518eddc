import Waveform.Control.Settings
import Waveform.Library.Outcome

/-!
# Saved provider keys

One row is read for each provider that an account has a key for: its `@` row, else the newest row
from before accounts. Every row that is read has to open, or no key is.

- `readRow_of_savedKeyRow`: the row that is read.
- `lookup_of_load`, `load_eq_none_iff`: what loading the keys gives, and when it fails.
-/

set_option autoImplicit false

namespace Waveform.Control

open Waveform.Domain
open Waveform.Store (accountScope)

namespace Settings

/-- The row that is read for a provider. -/
structure ReadRow (settings : Settings) (actor : ActorId) (name : String) (row : ProviderKeyRow) :
    Prop where
  mem : row ∈ settings.providerKeys
  owner : row.actorId = actor
  provider : row.provider = name
  /-- An `@` row goes first. -/
  account : ∀ other ∈ settings.providerKeys, other.actorId = actor → other.provider = name →
    other.orgId = accountScope → row.orgId = accountScope
  newest : row.orgId ≠ accountScope → ∀ other ∈ settings.providerKeys, other.actorId = actor →
    other.provider = name →
    other.updatedAt ≤ row.updatedAt

/-- What a row was sealed for. -/
def rowContext (actor : ActorId) (name : String) (row : ProviderKeyRow) : KeyContext :=
  if row.orgId = accountScope then .account actor name else .legacy row.orgId actor name

/-- The key in a row, if it opens. -/
def openRow (vault : Option Vault) (actor : ActorId) (name : String) (row : ProviderKeyRow) :
    Option String :=
  vault.bind fun vault => vault.openSecret (rowContext actor name row) row.secretCipher

variable {settings : Settings} {actor : ActorId} {name : String}

/-- No row is read only where there is none. -/
theorem savedKeyRow_eq_none_iff :
    settings.savedKeyRow actor name = none ↔ ∀ row ∈ settings.providerKeys, row.actorId = actor →
      row.provider ≠ name := by
  unfold savedKeyRow
  rw [Option.orElse_eq_none_iff]
  simp only [List.find?_eq_none, List.argmax_eq_none, List.mem_filter, List.filter_eq_nil_iff,
    Bool.and_eq_true,
    beq_iff_eq, bne_iff_ne, ne_eq, not_not]
  constructor
  · rintro ⟨haccount, hlegacy⟩ row hrow howner hname
    exact haccount row ⟨hrow, howner, hname⟩ (hlegacy row ⟨hrow, howner, hname⟩)
  · intro h
    refine ⟨fun row hrow => absurd hrow.2.2 (h row hrow.1 hrow.2.1), fun row hrow => ?_⟩
    exact absurd hrow.2.2 (h row hrow.1 hrow.2.1)

theorem readRow_of_savedKeyRow {row : ProviderKeyRow}
    (h : settings.savedKeyRow actor name = some row) :
    ReadRow settings actor name row := by
  unfold savedKeyRow at h
  rcases Option.orElse_some_cases h with haccount | ⟨hnone, hlegacy⟩
  · obtain ⟨hmem, hrow⟩ := List.mem_filter.mp (List.mem_of_find?_eq_some haccount)
    have hfound : (row.orgId == accountScope) = true :=
      @List.find?_some _ (fun row : ProviderKeyRow => row.orgId == accountScope) row _ haccount
    have hscope : row.orgId = accountScope := beq_iff_eq.mp hfound
    simp only [Bool.and_eq_true, beq_iff_eq] at hrow
    exact ⟨hmem, hrow.1, hrow.2, fun _ _ _ _ _ => hscope, fun hne => absurd hscope hne⟩
  · obtain ⟨hmem, hscope⟩ := List.mem_filter.mp (List.argmax_mem hlegacy)
    obtain ⟨hkeys, hrow⟩ := List.mem_filter.mp hmem
    simp only [Bool.and_eq_true, beq_iff_eq] at hrow
    -- no row of the provider is an `@` row
    have hlegacyRow : ∀ other ∈ settings.providerKeys, other.actorId = actor →
      other.provider = name →
        other.orgId ≠ accountScope := by
      intro other hother howner hname hother'
      refine List.find?_eq_none.mp hnone other (List.mem_filter.mpr ⟨hother, ?_⟩)
        (beq_iff_eq.mpr hother')
      rw [howner, hname, beq_self_eq_true, beq_self_eq_true, Bool.and_self]
    refine ⟨hkeys, hrow.1, hrow.2, fun other hother howner hname hscope' => ?_,
      fun _ other hother howner hname => ?_⟩
    · exact absurd hscope' (hlegacyRow other hother howner hname)
    · refine List.le_of_mem_argmax (List.mem_filter.mpr ⟨List.mem_filter.mpr ⟨hother, ?_⟩, ?_⟩)
        hlegacy
      · rw [howner, hname, beq_self_eq_true, beq_self_eq_true, Bool.and_self]
      · exact bne_iff_ne.mpr (hlegacyRow other hother howner hname)

/-- The key that is loaded for a name. -/
def loadedKey (vault : Option Vault) (settings : Settings) (actor : ActorId) (name : String) :
    Option (ProviderName × String) :=
  (settings.savedKeyRow actor name).bind fun row => (ProviderName.ofStr? name).bind fun provider =>
    (openRow vault actor name row).map fun key => (provider, key)

/-- The providers that the account has rows for. -/
def savedNames (settings : Settings) (actor : ActorId) : List String :=
  ((settings.providerKeys.filter fun row => row.actorId == actor).map ProviderKeyRow.provider).dedup

theorem loadProviderKeys_eq (vault : Option Vault) :
    settings.loadProviderKeys vault actor = (savedNames settings actor).mapM
      (loadedKey vault settings actor) := by
  unfold loadProviderKeys savedNames
  refine congrArg (fun load => List.mapM load _) (funext fun name => ?_)
  unfold loadedKey openRow
  cases settings.savedKeyRow actor name with
  | none => rfl
  | some row =>
      cases ProviderName.ofStr? name with
      | none => rfl
      | some provider =>
          cases vault with
          | none => rfl
          | some vault =>
              change (vault.openSecret (rowContext actor name row) row.secretCipher).bind _ =
                (vault.openSecret (rowContext actor name row) row.secretCipher).map _
              cases vault.openSecret (rowContext actor name row) row.secretCipher <;> rfl

theorem mem_savedNames : name ∈ savedNames settings actor ↔
    ∃ row ∈ settings.providerKeys, row.actorId = actor ∧ row.provider = name := by
  unfold savedNames
  simp only [List.mem_dedup, List.mem_map, List.mem_filter, beq_iff_eq]
  constructor
  · rintro ⟨row, ⟨hrow, howner⟩, hname⟩
    exact ⟨row, hrow, howner, hname⟩
  · rintro ⟨row, hrow, howner, hname⟩
    exact ⟨row, ⟨hrow, howner⟩, hname⟩

/-- **Loading fails exactly when a row that is read cannot be used**: its name is no provider's, or
it does not open. -/
theorem load_eq_none_iff {vault : Option Vault} :
    settings.loadProviderKeys vault actor = none ↔
      ∃ name row, settings.savedKeyRow actor name = some row ∧
        (ProviderName.ofStr? name = none ∨ openRow vault actor name row = none) := by
  rw [loadProviderKeys_eq, List.mapM_option_eq_none_iff]
  constructor
  · rintro ⟨name, hname, hnone⟩
    obtain ⟨other, hother, howner, hprovider⟩ := mem_savedNames.mp hname
    cases hrow : settings.savedKeyRow actor name with
    | none => exact absurd hprovider (savedKeyRow_eq_none_iff.mp hrow other hother howner)
    | some row =>
        refine ⟨name, row, hrow, ?_⟩
        unfold loadedKey at hnone
        rw [hrow, Option.bind_some] at hnone
        cases hparsed : ProviderName.ofStr? name with
        | none => exact .inl rfl
        | some provider =>
            rw [hparsed, Option.bind_some, Option.map_eq_none_iff] at hnone
            exact .inr hnone
  · rintro ⟨name, row, hrow, hfails⟩
    have hread := readRow_of_savedKeyRow hrow
    refine ⟨name, mem_savedNames.mpr ⟨row, hread.mem, hread.owner, hread.provider⟩, ?_⟩
    unfold loadedKey
    rw [hrow, Option.bind_some]
    rcases hfails with hparsed | hclosed
    · rw [hparsed, Option.bind_none]
    · rw [hclosed]
      cases ProviderName.ofStr? name <;> rfl

/-- **What is loaded for a provider** is the key in the row that is read for it. -/
theorem lookup_of_load {vault : Option Vault} {saved : List (ProviderName × String)}
    (h : settings.loadProviderKeys vault actor = some saved) (provider : ProviderName) :
    saved.lookup provider =
      (settings.savedKeyRow actor provider.asStr).bind fun row =>
        openRow vault actor provider.asStr row := by
  rw [loadProviderKeys_eq, List.mapM_option_eq_some_iff] at h
  have hloaded : ∀ {name : String} {key : String}, loadedKey vault settings actor
    name = some (provider, key) →
      (settings.savedKeyRow actor provider.asStr).bind
        (openRow vault actor provider.asStr) = some key := by
    intro name key hkey
    obtain ⟨row, hrow, hkey⟩ := Option.bind_eq_some_iff.mp hkey
    obtain ⟨parsed, hparsed, hkey⟩ := Option.bind_eq_some_iff.mp hkey
    obtain ⟨opened, hopened, hpair⟩ := Option.map_eq_some_iff.mp hkey
    obtain ⟨rfl, rfl⟩ := Prod.mk.inj hpair
    obtain rfl := ProviderName.ofStr?_eq_some.mp hparsed
    rw [hrow, Option.bind_some, hopened]
  cases hlookup : saved.lookup provider with
  | some key =>
      obtain ⟨before, after, rfl, _⟩ := List.lookup_eq_some_iff.mp hlookup
      have hmem : some (provider, key) ∈ (savedNames settings actor).map
          (loadedKey vault settings actor) := by
        rw [h]
        exact List.mem_map_of_mem (List.mem_append_right _ List.mem_cons_self)
      obtain ⟨name, _, hname⟩ := List.mem_map.mp hmem
      exact (hloaded hname).symm
  | none =>
      cases hrow : settings.savedKeyRow actor provider.asStr with
      | none => rfl
      | some row =>
          -- the row's name is among those that were loaded, so its key would be found
          exfalso
          have hread := readRow_of_savedKeyRow hrow
          have hname := mem_savedNames.mpr ⟨row, hread.mem, hread.owner, hread.provider⟩
          have hmem : loadedKey vault settings actor provider.asStr ∈ saved.map some := by
            rw [← h]
            exact List.mem_map_of_mem hname
          obtain ⟨⟨other, key⟩, hpair, hkey⟩ := List.mem_map.mp hmem
          obtain ⟨_, _, hrest⟩ := Option.bind_eq_some_iff.mp hkey.symm
          obtain ⟨parsed, hparsed, hrest⟩ := Option.bind_eq_some_iff.mp hrest
          obtain ⟨_, _, hsame⟩ := Option.map_eq_some_iff.mp hrest
          obtain ⟨rfl, _⟩ := Prod.mk.inj hsame
          rw [ProviderName.ofStr?_asStr] at hparsed
          obtain rfl := Option.some.inj hparsed
          exact absurd (List.lookup_eq_none_iff.mp hlookup _ hpair) (by simp)

end Settings

end Waveform.Control
