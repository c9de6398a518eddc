import Waveform.Control.ShownSettings
import Waveform.Operator.LinkSafety

/-!
# What linking does to settings

A run folds what a principal saved under its former orgs into `@` rows. Before it, the newest of
those rows is read wherever there is no `@` row; afterwards the `@` row is. The two say the same.

- `consolidate_sameAnswers`: one storage key.
- `linkIdentities_settings`: a whole run.
-/

set_option autoImplicit false

namespace Waveform.Operator

open Waveform.Domain
open Waveform.Control (PreferenceRow ProviderKeyRow KeyContext Settings)
open Waveform.Control.Settings
open Waveform.Store (accountScope)
open IdentityDb

variable {settings settings' : Settings} {actor storageKey : ActorId} {name : String}
  {vault : Option Vault} {now : Nat}
  {row : ProviderKeyRow}

/-! ## Preferences -/

theorem legacyRow_actorId {legacy : PreferenceRow} (h : settings.legacyRow actor = some legacy) :
    legacy.actorId = actor := by
  have hshown := (List.mem_filter.mp (List.argmax_mem h)).2
  simp only [Bool.and_eq_true, beq_iff_eq] at hshown
  exact hshown.1

/-- A new `@` row of a storage key says what its newest row from before said. -/
theorem readPreferences_consolidate (settings : Settings) (storageKey actor : ActorId) :
    (consolidatePreferences settings storageKey).1.readPreferences actor =
      settings.readPreferences actor := by
  unfold consolidatePreferences
  split
  · next legacy hnone hlegacy =>
      have howner := legacyRow_actorId hlegacy
      unfold readPreferences
      by_cases hactor : actor = storageKey
      · rw [hactor, hnone, hlegacy]
        unfold accountRow
        rw [List.find?_cons_of_pos (by simp [howner])]
        rfl
      · have hother : legacy.actorId ≠ actor := fun h => hactor (h.symm.trans howner)
        unfold accountRow legacyRow
        rw [List.find?_cons_of_neg (by simp [hother]), List.filter_cons_of_neg (by simp)]
  · rfl

theorem consolidatePreferences_keys (settings : Settings) (storageKey : ActorId) :
    (consolidatePreferences settings storageKey).1.providerKeys = settings.providerKeys ∧
      (consolidatePreferences settings storageKey).1.defaults = settings.defaults ∧
      (consolidatePreferences settings storageKey).1.voices = settings.voices := by
  unfold consolidatePreferences
  split
  · exact ⟨rfl, rfl, rfl⟩
  · exact ⟨rfl, rfl, rfl⟩

/-- **The preferences of a storage key** are consolidated without a change of any answer. -/
theorem consolidatePreferences_sameAnswers (vault : Option Vault) (settings : Settings)
    (storageKey : ActorId) :
    SameAnswers vault settings (consolidatePreferences settings storageKey).1 := by
  obtain ⟨hkeys, hdefaults, hvoices⟩ := consolidatePreferences_keys settings storageKey
  refine .of_read hdefaults hvoices (readPreferences_consolidate settings storageKey)
    (fun actor => ?_) fun actor name => ?_
  · unfold savedNames
    rw [hkeys]
  · unfold loadedKey savedKeyRow
    rw [hkeys]

/-! ## Provider keys -/

/-- The rows that are resealed are those that are read, one for each provider. -/
structure Resealable (settings : Settings) (storageKey : ActorId) (rows : List ProviderKeyRow) :
    Prop where
  read : ∀ row ∈ rows, settings.savedKeyRow storageKey row.provider = some row
  legacy : ∀ row ∈ rows, row.orgId ≠ accountScope
  providers : (rows.map ProviderKeyRow.provider).Nodup

/-- A new row of one provider is not read for another. -/
theorem savedKeyRow_cons (hother : ¬ (row.actorId = actor ∧ row.provider = name)) :
    ({ settings with providerKeys := row :: settings.providerKeys } : Settings).savedKeyRow
      actor name =
      settings.savedKeyRow actor name := by
  unfold savedKeyRow
  dsimp only
  rw [List.filter_cons_of_neg]
  simpa using hother

/-- A new `@` row is read for its provider. -/
theorem savedKeyRow_cons_account (howner : row.actorId = actor) (hname : row.provider = name)
    (hscope : row.orgId = accountScope) :
    ({ settings with providerKeys := row :: settings.providerKeys } : Settings).savedKeyRow actor
      name = some row := by
  unfold savedKeyRow
  dsimp only
  rw [List.filter_cons_of_pos (by simp [howner, hname]), List.find?_cons_of_pos (by simp [hscope])]
  rfl

/-- What was sealed again opens to the same key. -/
theorem openRow_reseal {cipher : Cipher KeyContext} (hlegacy : row.orgId ≠ accountScope)
    (h : reseal vault storageKey row = some cipher) :
    openRow vault storageKey row.provider ⟨accountScope, storageKey, row.provider, cipher, now⟩ =
      openRow vault storageKey row.provider row := by
  unfold reseal at h
  obtain ⟨vault', rfl, h⟩ := Option.bind_eq_some_iff.mp h
  obtain ⟨secret, hopened, rfl⟩ := Option.map_eq_some_iff.mp h
  unfold openRow rowContext
  rw [Option.bind_some, Option.bind_some, if_pos rfl, if_neg hlegacy, hopened]
  exact (@Vault.openSecret_sealSecret KeyContext _ vault' secret (.account storageKey row.provider)
    _).trans (if_pos rfl)

/-- **One key**: the `@` row that is saved is read in place of the row that it was made from. -/
theorem saveResealed_sameAnswers {cipher : Cipher KeyContext}
    (hread : settings.savedKeyRow storageKey row.provider = some row)
    (hlegacy : row.orgId ≠ accountScope) (h : reseal vault storageKey row = some cipher) :
    SameAnswers vault settings (saveResealed storageKey now settings row cipher) := by
  unfold saveResealed
  split
  · exact .refl vault settings
  · have hrow := readRow_of_savedKeyRow hread
    refine .of_read rfl rfl (fun _ => rfl) (fun actor => ?_) fun actor name => ?_
    · -- the provider is one that the storage key has a row for
      unfold savedNames
      by_cases hactor : storageKey = actor
      · rw [List.filter_cons_of_pos (by simp [hactor]), List.map_cons, List.dedup_cons_of_mem]
        refine List.mem_map.mpr ⟨row, List.mem_filter.mpr ⟨hrow.mem, ?_⟩, rfl⟩
        simp [hrow.owner, hactor]
      · rw [List.filter_cons_of_neg (by simp [hactor])]
    · by_cases hsame : storageKey = actor ∧ row.provider = name
      · obtain ⟨rfl, rfl⟩ := hsame
        unfold loadedKey
        rw [savedKeyRow_cons_account rfl rfl rfl, hread, Option.bind_some, Option.bind_some,
          openRow_reseal hlegacy h]
      · unfold loadedKey
        rw [savedKeyRow_cons hsame]

/-- The rows that are left to reseal are still those that are read. -/
theorem Resealable.tail {rows : List ProviderKeyRow} {cipher : Cipher KeyContext}
    (h : Resealable settings storageKey (row :: rows)) :
    Resealable (saveResealed storageKey now settings row cipher) storageKey rows := by
  obtain ⟨hnew, hproviders⟩ := List.nodup_cons.mp h.providers
  refine ⟨fun other hother => ?_,
    fun other hother => h.legacy other (List.mem_cons_of_mem _ hother), hproviders⟩
  have hread := h.read other (List.mem_cons_of_mem _ hother)
  unfold saveResealed
  split
  · exact hread
  · rw [savedKeyRow_cons, hread]
    rintro ⟨_, hsame⟩
    exact hnew (List.mem_map.mpr ⟨other, hother, hsame.symm⟩)

/-- **Every key of a storage key.** -/
theorem resealKeys_sameAnswers {rows : List ProviderKeyRow}
    (h : Resealable settings storageKey rows) :
    SameAnswers vault settings (resealKeys vault storageKey now rows settings).1 := by
  induction rows generalizing settings with
  | nil => exact .refl vault settings
  | cons row rows ih =>
      unfold resealKeys
      split
      · next cipher hcipher =>
          have hone := @saveResealed_sameAnswers settings storageKey vault now row cipher
            (h.read row List.mem_cons_self) (h.legacy row List.mem_cons_self) hcipher
          exact hone.trans (ih h.tail)
      · -- a key that does not open is left
        obtain ⟨_, hproviders⟩ := List.nodup_cons.mp h.providers
        exact ih ⟨fun other hother => h.read other (List.mem_cons_of_mem _ hother),
          fun other hother => h.legacy other (List.mem_cons_of_mem _ hother), hproviders⟩

/-- Without a vault no key is resealed. -/
theorem resealKeys_none (rows : List ProviderKeyRow) (settings : Settings) :
    (resealKeys none storageKey now rows settings).1 = settings := by
  induction rows with
  | nil => rfl
  | cons row rows ih =>
      unfold resealKeys
      exact ih

/-! ## The rows that are resealed -/

/-- The rows of a storage key and a provider, in either order of asking. -/
theorem filter_owned (p : ProviderKeyRow → Bool) (rows : List ProviderKeyRow) :
    ((rows.filter fun row => decide (row.actorId = storageKey)).filter p).filter
      (fun row => decide (row.provider = name)) =
      (rows.filter fun row => row.actorId == storageKey && row.provider == name).filter p := by
  rw [List.filter_filter, List.filter_filter, List.filter_filter]
  refine List.filter_congr fun row _ => ?_
  cases hp : p row with
  | true =>
      rw [Bool.and_true, Bool.true_and, Bool.and_comm]
      rfl
  | false => simp

/-- Each of them is the row that is read for its provider. -/
theorem savedKeyRow_of_mem_legacyKeys (h : row ∈ legacyKeys settings storageKey) :
    settings.savedKeyRow storageKey row.provider = some row ∧ row.orgId ≠ accountScope := by
  unfold legacyKeys at h
  obtain ⟨provider, hprovider, hrow⟩ := List.mem_filterMap.mp h
  have hmem := List.argmax_mem hrow
  obtain ⟨hlegacy, hname⟩ := List.mem_filter.mp hmem
  have hsame : row.provider = provider := of_decide_eq_true hname
  obtain ⟨_, hscope⟩ := List.mem_filter.mp hlegacy
  refine ⟨?_, of_decide_eq_true hscope⟩
  rw [hsame]
  -- the provider has no `@` row, so its newest row from before is read
  have hnone : ((settings.providerKeys.filter fun row => row.actorId == storageKey &&
    row.provider == provider).find?
      fun row => row.orgId == accountScope) = none := by
    refine List.find?_eq_none.mpr fun other hother hat => ?_
    obtain ⟨hkeys, hother⟩ := List.mem_filter.mp hother
    simp only [Bool.and_eq_true, beq_iff_eq] at hother hat
    have hunsaved := (List.mem_filter.mp hprovider).2
    simp only [List.contains_eq_mem, Bool.not_eq_true', decide_eq_false_iff_not] at hunsaved
    refine hunsaved (List.mem_map.mpr ⟨other, ?_, hother.2⟩)
    exact List.mem_filter.mpr ⟨List.mem_filter.mpr ⟨hkeys, decide_eq_true hother.1⟩,
      decide_eq_true hat⟩
  unfold savedKeyRow
  dsimp only
  rw [hnone]
  change List.argmax ProviderKeyRow.updatedAt _ = some row
  have hscopes : (fun row : ProviderKeyRow => row.orgId != accountScope) = fun row =>
      decide (row.orgId ≠ accountScope) := by
    funext row
    rw [Bool.eq_iff_iff, bne_iff_ne, decide_eq_true_iff]
  rw [← filter_owned, hscopes]
  exact hrow

/-- They have different providers. -/
theorem legacyKeys_nodup (settings : Settings) (storageKey : ActorId) :
    ((legacyKeys settings storageKey).map ProviderKeyRow.provider).Nodup := by
  have hgeneral : ∀ (legacy : List ProviderKeyRow) (providers : List String),
      ((providers.filterMap fun provider =>
        (legacy.filter fun row => decide (row.provider = provider)).argmax
          ProviderKeyRow.updatedAt).map
          ProviderKeyRow.provider).Sublist providers := by
    intro legacy providers
    induction providers with
    | nil => exact List.Sublist.slnil
    | cons provider providers ih =>
        rw [List.filterMap_cons]
        cases hrow : (legacy.filter fun row => decide (row.provider = provider)).argmax
          ProviderKeyRow.updatedAt with
        | none => exact ih.cons provider
        | some row =>
            have hsame : row.provider = provider :=
              of_decide_eq_true (List.mem_filter.mp (List.argmax_mem hrow)).2
            rw [List.map_cons, hsame]
            exact ih.cons_cons provider
  exact (hgeneral _ _).nodup ((List.nodup_dedup _).filter _)

theorem legacyKeys_resealable (settings : Settings) (storageKey : ActorId) :
    Resealable settings storageKey (legacyKeys settings storageKey) where
  read := fun _ hrow => (savedKeyRow_of_mem_legacyKeys hrow).1
  legacy := fun _ hrow => (savedKeyRow_of_mem_legacyKeys hrow).2
  providers := legacyKeys_nodup settings storageKey

/-! ## Runs -/

variable {db db' : IdentityDb} {report : LinkReport} {loader : Option Vault}

/-- **One storage key**: no answer changes, where the keys are read with the vault that sealed them
again. -/
theorem consolidate_sameAnswers (hvault : vault = none ∨ loader = vault) (storageKey : ActorId)
    (state : IdentityDb × LinkReport) :
    SameAnswers loader state.1.settings (consolidate vault now storageKey state).1.settings := by
  obtain ⟨db, report⟩ := state
  have hpreferences := consolidatePreferences_sameAnswers loader db.settings storageKey
  refine hpreferences.trans ?_
  rcases hvault with rfl | rfl
  · change SameAnswers loader _ (resealKeys none storageKey now _ _).1
    rw [resealKeys_none]
    exact .refl loader _
  · exact resealKeys_sameAnswers (legacyKeys_resealable _ storageKey)

theorem consolidateAll_sameAnswers (hvault : vault = none ∨ loader = vault) (keys : List ActorId)
    (state : IdentityDb × LinkReport) :
    SameAnswers loader state.1.settings
      (keys.foldl (fun state key => consolidate vault now key state) state).1.settings := by
  induction keys generalizing state with
  | nil => exact .refl loader _
  | cons key keys ih => exact (consolidate_sameAnswers hvault key state).trans (ih _)

/-- The rows of a run leave the settings. -/
theorem settings_of_run {parseUuid : String → Option Uuid} {options : LinkOptions}
    {tr : List (LabelledRun.Transition IdentityDb MappingRow)}
    (hrun : LabelledRun.Run (LinkStep parseUuid now options) db tr db') :
    db'.settings = db.settings := by
  induction hrun with
  | nil db => rfl
  | cons hstep _ ih => exact ih.trans hstep.sameData.settings

/-- **No setting of a storage key changes**: whatever is mapped, with a vault or without one, the
account that holds a key is shown the same preferences, and requests under the key use the same
voices, provider orders and provider keys. An account that is given another key has the settings of
that key. -/
theorem linkIdentities_settings {parseUuid : String → Option Uuid} {options : LinkOptions}
    {text : String}
    {rows : List MappingRow} (h : db.Constraints) (hparsed : parseMapping text = .ok rows)
    (hrun : linkIdentities parseUuid vault now options rows db = some (db', report))
    (hvault : vault = none ∨ loader = vault) : SameAnswers loader db.settings db'.settings := by
  obtain ⟨left, leftReport, hleft, hcases⟩ :=
    @linkIdentities_cases parseUuid vault now options db rows h (accepted_of_run hparsed hrun)
  rw [hrun] at hleft
  obtain ⟨rfl, rfl⟩ := Prod.mk.inj (Option.some.inj hleft)
  rcases hcases with ⟨rfl, _⟩ | ⟨_, _, loop, hdone, hfold⟩
  · exact .refl loader _
  · obtain ⟨tr, htr, _⟩ := hdone.run
    have hall := @consolidateAll_sameAnswers vault now loader hvault (sortedKeys loop.linkedKeys)
      (loop.db, loop.report)
    rw [← hfold] at hall
    rw [← settings_of_run htr]
    exact hall

/-! ## A principal with settings from before accounts -/

/-- The vault of the deployment. -/
def linkVault : Vault := ⟨Vector.replicate 32 7⟩

/-- The tables with a preference and a key that were saved under a former org. -/
def settledDb : IdentityDb :=
  { mistakenDb with
      settings :=
        { defaults := ⟨["gemini", "openai"], ["openai"], "sage"⟩
          voices := ["puck", "sage"]
          preferences := [⟨"acme", mappedKey, some ["openai", "gemini"], none, some "puck", 3⟩]
          providerKeys :=
            [⟨"acme", mappedKey, "gemini",
              linkVault.sealSecret "key" (.legacy "acme" mappedKey "gemini"), 4⟩] } }

theorem settledDb_constraints : settledDb.Constraints :=
  ⟨mistakenDb_constraints.accounts, mistakenDb_constraints.storageKeys,
    mistakenDb_constraints.principals,
    mistakenDb_constraints.cached⟩

theorem settledDb_run : ∃ db' report,
    linkIdentities (fun _ => none) (some linkVault) 10 { relink := true }
      [correction] settledDb = some (db', report) :=
  ⟨_, _, rfl⟩

theorem linkIdentities_settings_sample : ∃ db' report,
    linkIdentities (fun _ => none) (some linkVault) 10 { relink := true }
      [correction] settledDb = some (db', report) ∧
      SameAnswers (some linkVault) settledDb.settings db'.settings := by
  obtain ⟨db', report, hrun⟩ := settledDb_run
  exact ⟨db', report, hrun, linkIdentities_settings settledDb_constraints parseMapping_correction
    hrun (.inr rfl)⟩

end Waveform.Operator
