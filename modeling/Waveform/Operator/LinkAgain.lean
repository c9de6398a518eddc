import Waveform.Operator.LinkSettings

/-!
# Applying a mapping again

A mapping that was applied is applied already: a second run of it finds every row linked and every
setting consolidated.

- `Consolidated`: a storage key with nothing left to fold in. `consolidate_consolidated` makes one,
  `consolidate_of_consolidated` leaves one as it is.
- `linkIdentities_again`: the second run.
-/

set_option autoImplicit false

namespace Waveform.Operator

open Waveform.Domain
open Waveform.Control (PreferenceRow ProviderKeyRow KeyContext Settings)
open Waveform.Control.Settings
open Waveform.Store (accountScope)
open IdentityDb LabelledRun

variable {settings settings' : Settings} {actor storageKey : ActorId}
  {vault : Option Vault} {now : Nat}
  {row : ProviderKeyRow} {db db' : IdentityDb} {report : LinkReport}

/-! ## Consolidated storage keys -/

/-- The rows that are resealed are exactly the read ones that are from before accounts. -/
theorem mem_legacyKeys_iff :
    row ∈ legacyKeys settings storageKey ↔
      settings.savedKeyRow storageKey row.provider = some row ∧ row.orgId ≠ accountScope := by
  refine ⟨savedKeyRow_of_mem_legacyKeys, ?_⟩
  rintro ⟨hread, hlegacy⟩
  have hrow := readRow_of_savedKeyRow hread
  unfold legacyKeys
  refine List.mem_filterMap.mpr ⟨row.provider, ?_, ?_⟩
  · refine List.mem_filter.mpr ⟨List.mem_dedup.mpr (List.mem_map.mpr ⟨row, ?_, rfl⟩), ?_⟩
    · exact List.mem_filter.mpr ⟨List.mem_filter.mpr ⟨hrow.mem, decide_eq_true hrow.owner⟩,
        decide_eq_true hlegacy⟩
    · simp only [List.contains_eq_mem, Bool.not_eq_true', decide_eq_false_iff_not]
      intro hsaved
      -- an `@` row of the provider would be read instead
      obtain ⟨other, hother, hname⟩ := List.mem_map.mp hsaved
      obtain ⟨howned, hscope⟩ := List.mem_filter.mp hother
      obtain ⟨hmem, howner⟩ := List.mem_filter.mp howned
      exact hlegacy (hrow.account other hmem (of_decide_eq_true howner) hname
        (of_decide_eq_true hscope))
  · have hnone : ((settings.providerKeys.filter fun other =>
        other.actorId == storageKey && other.provider == row.provider).find? fun other =>
          other.orgId == accountScope) =
          none := by
      refine List.find?_eq_none.mpr fun other hother hat => ?_
      obtain ⟨hmem, hother⟩ := List.mem_filter.mp hother
      simp only [Bool.and_eq_true, beq_iff_eq] at hother hat
      exact hlegacy (hrow.account other hmem hother.1 hother.2 hat)
    have hscopes : (fun row : ProviderKeyRow => row.orgId != accountScope) =
        fun row => decide (row.orgId ≠ accountScope) := by
      funext row
      rw [Bool.eq_iff_iff, bne_iff_ne, decide_eq_true_iff]
    unfold savedKeyRow at hread
    dsimp only at hread
    rw [hnone] at hread
    change List.argmax ProviderKeyRow.updatedAt _ = some row at hread
    rw [← filter_owned, hscopes] at hread
    exact hread

/-- Nothing is left to fold in: no row of the preferences, no key that opens, no grant. -/
structure Consolidated (vault : Option Vault) (storageKey : ActorId) (db : IdentityDb) : Prop where
  preferences : consolidatePreferences db.settings storageKey = (db.settings, 0)
  keys : ∀ row ∈ legacyKeys db.settings storageKey, reseal vault storageKey row = none
  grants : ∀ grant ∈ db.grants, grant.actorId = storageKey → grant.invalidatedAt ≠ none

/-- Keys that do not open are skipped, all of them. -/
theorem resealKeys_of_closed {rows : List ProviderKeyRow}
    (h : ∀ row ∈ rows, reseal vault storageKey row = none) :
    resealKeys vault storageKey now rows settings = (settings, 0, rows.length) := by
  induction rows with
  | nil => rfl
  | cons row rows ih =>
      unfold resealKeys
      rw [h row List.mem_cons_self, ih fun other hother => h other (List.mem_cons_of_mem _ hother)]
      rfl

/-- **What is consolidated stays as it is**: a second pass only counts the keys that it skips. -/
theorem consolidate_of_consolidated (h : Consolidated vault storageKey db) (report : LinkReport) :
    consolidate vault now storageKey (db, report) =
      (db, { report with
        providerKeysSkipped := report.providerKeysSkipped +
          (legacyKeys db.settings storageKey).length }) := by
  have hretired : ∀ grant ∈ db.grants, retireGrant storageKey now grant = grant := by
    intro grant hgrant
    unfold retireGrant
    exact if_neg fun hopen => h.grants grant hgrant hopen.1 hopen.2
  have hopen : (db.grants.filter fun grant => decide (grant.actorId = storageKey ∧
      grant.invalidatedAt = none)) = [] := by
    refine List.filter_eq_nil_iff.mpr fun grant hgrant hboth => ?_
    obtain ⟨howner, hnone⟩ := of_decide_eq_true hboth
    exact h.grants grant hgrant howner hnone
  unfold consolidate
  dsimp only
  rw [h.preferences]
  dsimp only
  rw [resealKeys_of_closed h.keys, hopen, List.map_congr_left hretired, List.map_id']
  rfl

/-- After the keys were resealed, those that are left do not open. -/
theorem savedKeyRow_resealKeys {rows : List ProviderKeyRow} (hlegacy : row.orgId ≠ accountScope)
    (hread : (resealKeys vault storageKey now rows settings).1.savedKeyRow storageKey
      row.provider = some row) :
    settings.savedKeyRow storageKey row.provider = some row ∧
      ∀ other ∈ rows, other.provider = row.provider → reseal vault storageKey other = none := by
  induction rows generalizing settings with
  | nil => exact ⟨hread, fun other hother => absurd hother List.not_mem_nil⟩
  | cons first rows ih =>
      unfold resealKeys at hread
      split at hread
      · next cipher hcipher =>
          obtain ⟨hread', hrest⟩ := ih hread
          unfold saveResealed at hread'
          split at hread'
          · next hsaved =>
              refine ⟨hread', List.forall_mem_cons.mpr ⟨fun hname => ?_, hrest⟩⟩
              -- the provider has an `@` row, which would be read
              obtain ⟨other, hother, hshown⟩ := List.any_eq_true.mp hsaved
              simp only [Bool.and_eq_true, decide_eq_true_eq] at hshown
              have haccount := (readRow_of_savedKeyRow hread').account other hother hshown.1.1
                (hshown.1.2.trans hname) hshown.2
              exact absurd haccount hlegacy
          · by_cases hname : first.provider = row.provider
            · have hsame := hread'.symm.trans (savedKeyRow_cons_account rfl hname rfl)
              exact absurd (congrArg ProviderKeyRow.orgId (Option.some.inj hsame)) hlegacy
            · have hkept : settings.savedKeyRow storageKey row.provider = some row := by
                rw [← hread', savedKeyRow_cons]
                exact fun h => hname h.2
              exact ⟨hkept, List.forall_mem_cons.mpr ⟨fun h => absurd h hname, hrest⟩⟩
      · next hclosed =>
          obtain ⟨hread', hrest⟩ := ih hread
          exact ⟨hread', List.forall_mem_cons.mpr ⟨fun _ => hclosed, hrest⟩⟩

/-- The keys of other storage keys are left. -/
theorem savedKeyRow_resealKeys_other {rows : List ProviderKeyRow} {name : String}
    (hother : actor ≠ storageKey) :
    (resealKeys vault storageKey now rows settings).1.savedKeyRow actor name =
      settings.savedKeyRow actor name := by
  induction rows generalizing settings with
  | nil => rfl
  | cons first rows ih =>
      unfold resealKeys
      split
      · refine ih.trans ?_
        unfold saveResealed
        split
        · rfl
        · exact savedKeyRow_cons fun h => hother h.1.symm
      · exact ih

/-- Only keys are resealed. -/
theorem resealKeys_preferences (rows : List ProviderKeyRow) (settings : Settings) :
    (resealKeys vault storageKey now rows settings).1.preferences = settings.preferences := by
  induction rows generalizing settings with
  | nil => rfl
  | cons first rows ih =>
      unfold resealKeys
      split
      · refine (ih _).trans ?_
        unfold saveResealed
        split
        · rfl
        · rfl
      · exact ih settings

theorem accountRow_consolidate_other (hother : actor ≠ storageKey) :
    (consolidatePreferences settings storageKey).1.accountRow actor = settings.accountRow actor ∧
      (consolidatePreferences settings storageKey).1.legacyRow actor =
        settings.legacyRow actor := by
  unfold consolidatePreferences
  split
  · next legacy hnone hlegacy =>
      have howner := legacyRow_actorId hlegacy
      unfold accountRow legacyRow
      constructor
      · refine List.find?_cons_of_neg ?_
        rw [howner]
        simpa using fun h => absurd h.symm hother
      · rw [List.filter_cons_of_neg (by simp)]
  · exact ⟨rfl, rfl⟩

/-- A storage key without a row to fold in. -/
theorem consolidatePreferences_eq_self_iff :
    consolidatePreferences settings storageKey = (settings, 0) ↔
      (settings.accountRow storageKey).isSome ∨ settings.legacyRow storageKey = none := by
  unfold consolidatePreferences
  cases haccount : settings.accountRow storageKey with
  | some row => simp
  | none =>
      cases hlegacy : settings.legacyRow storageKey with
      | none => simp
      | some legacy => simp

/-- Only the preferences matter for it. -/
theorem consolidatePreferences_of_same (hsame : settings'.preferences = settings.preferences)
    (h : consolidatePreferences settings storageKey = (settings, 0)) :
    consolidatePreferences settings' storageKey = (settings', 0) := by
  have hrows := consolidatePreferences_eq_self_iff.mp h
  refine consolidatePreferences_eq_self_iff.mpr ?_
  unfold accountRow legacyRow at hrows ⊢
  rwa [hsame]

/-- Once is enough. -/
theorem consolidatePreferences_again (settings : Settings) (storageKey : ActorId) :
    consolidatePreferences (consolidatePreferences settings storageKey).1 storageKey =
      ((consolidatePreferences settings storageKey).1, 0) := by
  refine consolidatePreferences_eq_self_iff.mpr ?_
  cases haccount : settings.accountRow storageKey with
  | some row =>
      have hself := consolidatePreferences_eq_self_iff.mpr (.inl (by rw [haccount]; rfl))
      rw [hself, haccount]
      exact .inl rfl
  | none =>
      cases hlegacy : settings.legacyRow storageKey with
      | none =>
          rw [consolidatePreferences_eq_self_iff.mpr (.inr hlegacy)]
          exact .inr hlegacy
      | some legacy =>
          left
          unfold consolidatePreferences
          rw [haccount, hlegacy]
          unfold accountRow
          rw [List.find?_cons_of_pos (by simp [legacyRow_actorId hlegacy])]
          rfl

/-- **A pass consolidates its storage key.** -/
theorem consolidate_consolidated (vault : Option Vault) (now : Nat) (storageKey : ActorId)
    (state : IdentityDb × LinkReport) :
    Consolidated vault storageKey (consolidate vault now storageKey state).1 := by
  obtain ⟨db, report⟩ := state
  constructor
  · exact consolidatePreferences_of_same (resealKeys_preferences _ _)
      (consolidatePreferences_again db.settings storageKey)
  · intro row hrow
    obtain ⟨hread, hlegacy⟩ := mem_legacyKeys_iff.mp hrow
    obtain ⟨hbefore, hclosed⟩ := savedKeyRow_resealKeys hlegacy hread
    exact hclosed row (mem_legacyKeys_iff.mpr ⟨hbefore, hlegacy⟩) rfl
  · intro grant hgrant howner
    obtain ⟨before, _, rfl⟩ := List.mem_map.mp hgrant
    unfold retireGrant at howner ⊢
    split
    · exact Option.some_ne_none now
    · next hopen =>
        rw [if_neg hopen] at howner
        exact fun hnone => hopen ⟨howner, hnone⟩

/-- **A pass keeps every storage key consolidated.** -/
theorem Consolidated.consolidate {other : ActorId} (h : Consolidated vault storageKey db)
    (report : LinkReport) :
    Consolidated vault storageKey (consolidate vault now other (db, report)).1 := by
  by_cases hsame : storageKey = other
  · rw [← hsame, consolidate_of_consolidated h]
    exact h
  obtain ⟨hkeys, _⟩ := consolidatePreferences_keys db.settings other
  constructor
  · refine consolidatePreferences_of_same (resealKeys_preferences _ _) ?_
    have hrows := @accountRow_consolidate_other db.settings storageKey other hsame
    have hbefore := consolidatePreferences_eq_self_iff.mp h.preferences
    rw [← hrows.1, ← hrows.2] at hbefore
    exact consolidatePreferences_eq_self_iff.mpr hbefore
  · intro row hrow
    obtain ⟨hread, hlegacy⟩ := mem_legacyKeys_iff.mp hrow
    rw [show (Waveform.Operator.consolidate vault now other (db, report)).1.settings =
      (resealKeys vault other now (legacyKeys (consolidatePreferences db.settings other).1 other)
        (consolidatePreferences db.settings other).1).1 from rfl,
        savedKeyRow_resealKeys_other hsame] at hread
    refine h.keys row (mem_legacyKeys_iff.mpr ⟨?_, hlegacy⟩)
    unfold savedKeyRow at hread ⊢
    rwa [hkeys] at hread
  · intro grant hgrant howner
    obtain ⟨before, hbefore, rfl⟩ := List.mem_map.mp hgrant
    unfold retireGrant at howner ⊢
    split
    · exact Option.some_ne_none now
    · next hopen =>
        rw [if_neg hopen] at howner
        exact h.grants before hbefore howner

/-- Every storage key of a run is consolidated at its end. -/
theorem consolidateAll_consolidated (keys : List ActorId) (state : IdentityDb × LinkReport) :
    (∀ key, Consolidated vault key state.1 →
        Consolidated vault key (keys.foldl (fun state key => consolidate vault now key state)
          state).1) ∧
      ∀ key ∈ keys, Consolidated vault key
        (keys.foldl (fun state key => consolidate vault now key state) state).1 := by
  induction keys generalizing state with
  | nil => exact ⟨fun key h => h, fun key hkey => absurd hkey List.not_mem_nil⟩
  | cons first keys ih =>
      obtain ⟨hkeeps, hmakes⟩ := ih (consolidate vault now first state)
      refine ⟨fun key h => hkeeps key (h.consolidate state.2),
        List.forall_mem_cons.mpr ⟨?_, hmakes⟩⟩
      exact hkeeps first (consolidate_consolidated vault now first state)

/-! ## What is known of a principal -/

/-- A storage key has preferences after a pass where it had some before. -/
theorem consolidatePreferences_any (settings : Settings) (storageKey other : ActorId) :
    ((consolidatePreferences settings storageKey).1.preferences.any fun row =>
      decide (row.actorId = other)) =
      settings.preferences.any fun row => decide (row.actorId = other) := by
  unfold consolidatePreferences
  split
  · next legacy hnone hlegacy =>
      have hmem := List.mem_of_mem_filter (List.argmax_mem hlegacy)
      rw [List.any_cons]
      by_cases hother : legacy.actorId = other
      · have hany : (settings.preferences.any fun row => decide (row.actorId = other)) = true :=
          List.any_eq_true.mpr ⟨legacy, hmem, decide_eq_true hother⟩
        rw [hany, Bool.or_true]
      · rw [decide_eq_false hother, Bool.false_or]
  · rfl

theorem resealKeys_any {rows : List ProviderKeyRow} (h : Resealable settings storageKey rows)
    (other : ActorId) :
    ((resealKeys vault storageKey now rows settings).1.providerKeys.any fun row =>
      decide (row.actorId = other)) =
      settings.providerKeys.any fun row => decide (row.actorId = other) := by
  induction rows generalizing settings with
  | nil => rfl
  | cons row rows ih =>
      unfold resealKeys
      split
      · refine (ih h.tail).trans ?_
        unfold saveResealed
        split
        · rfl
        · -- the row that was sealed again is one of the storage key
          have hread := readRow_of_savedKeyRow (h.read row List.mem_cons_self)
          rw [List.any_cons]
          by_cases hother : storageKey = other
          · have hany :
                (settings.providerKeys.any fun row => decide (row.actorId = other)) = true :=
              List.any_eq_true.mpr ⟨row, hread.mem, decide_eq_true (hread.owner.trans hother)⟩
            rw [hany, Bool.or_true]
          · rw [decide_eq_false hother, Bool.false_or]
      · obtain ⟨_, hproviders⟩ := List.nodup_cons.mp h.providers
        exact ih ⟨fun other hother => h.read other (List.mem_cons_of_mem _ hother),
          fun other hother => h.legacy other (List.mem_cons_of_mem _ hother), hproviders⟩

theorem consolidate_kindFromRows (vault : Option Vault) (now : Nat) (storageKey : ActorId)
    (state : IdentityDb × LinkReport) (other : ActorId) (publicId : Option String) :
    (consolidate vault now storageKey state).1.kindFromRows other publicId =
      state.1.kindFromRows other publicId := by
  obtain ⟨db, report⟩ := state
  have hpreferences :
      ((consolidate vault now storageKey (db, report)).1.settings.preferences.any fun row =>
        decide (row.actorId = other)) =
        db.settings.preferences.any fun row => decide (row.actorId = other) := by
    refine Eq.trans ?_ (consolidatePreferences_any db.settings storageKey other)
    exact congrArg (List.any · _) (resealKeys_preferences _ _)
  have hkeys :
      ((consolidate vault now storageKey (db, report)).1.settings.providerKeys.any fun row =>
        decide (row.actorId = other)) =
        db.settings.providerKeys.any fun row => decide (row.actorId = other) := by
    refine (resealKeys_any (legacyKeys_resealable _ storageKey) other).trans ?_
    exact congrArg (List.any · _) (consolidatePreferences_keys db.settings storageKey).1
  unfold IdentityDb.kindFromRows
  rw [hpreferences, hkeys]
  rfl

/-- What is known of a principal is not changed by consolidating. -/
theorem consolidateAll_legacyKey (parseUuid : String → Option Uuid) (keys : List ActorId)
    (state : IdentityDb × LinkReport)
    (principal : String) :
    (keys.foldl (fun state key => consolidate vault now key state) state).1.legacyKey
      parseUuid principal =
      state.1.legacyKey parseUuid principal := by
  induction keys generalizing state with
  | nil => rfl
  | cons first keys ih =>
      refine (ih _).trans ?_
      unfold IdentityDb.legacyKey
      simp only [consolidate_kindFromRows]
      rfl

/-! ## Mappings that are applied -/

variable {parseUuid : String → Option Uuid} {options : LinkOptions} {rows : List MappingRow}

variable (parseUuid vault rows) in
/-- The tables after a mapping was applied. -/
structure Applied (db : IdentityDb) : Prop where
  constraints : db.Constraints
  oneToOne : OneToOne parseUuid db rows
  known : ∀ row ∈ rows, db.legacyKey parseUuid row.principal ≠ .unknownKind
  given : ∀ row ∈ rows, ∀ storageKey, row.storageKey parseUuid db = some storageKey →
    Given row storageKey db
  consolidated : ∀ row ∈ rows, ∀ storageKey, row.storageKey parseUuid db = some storageKey →
    Consolidated vault storageKey db

/-- Equal neighbours are what is left out. -/
theorem mem_destutter {key first : ActorId} {keys : List ActorId} :
    key ∈ keys.destutter' (· ≠ ·) first ↔ key = first ∨ key ∈ keys := by
  induction keys generalizing first with
  | nil => simp
  | cons next keys ih =>
      by_cases hsame : first = next
      · rw [List.destutter'_cons_neg keys (not_not.mpr hsame), ih, List.mem_cons, hsame]
        tauto
      · rw [List.destutter'_cons_pos keys hsame, List.mem_cons, ih, List.mem_cons]

/-- Every key that was linked is consolidated. -/
theorem mem_sortedKeys {keys : List ActorId} : storageKey ∈ sortedKeys keys ↔
    storageKey ∈ keys := by
  have hsorted : storageKey ∈ keys.mergeSort (fun key key' => decide (key.asUuid ≤ key'.asUuid)) ↔
      storageKey ∈ keys :=
    List.mem_mergeSort
  rw [← hsorted]
  unfold sortedKeys
  cases keys.mergeSort (fun key key' => decide (key.asUuid ≤ key'.asUuid)) with
  | nil => rfl
  | cons first keys => rw [List.destutter_cons', mem_destutter, List.mem_cons]

/-- A run that is committed applies its mapping. -/
theorem applied_of_run (h : db.Constraints) (hrows : Accepted rows)
    (hrun : linkIdentities parseUuid vault now options rows db = some (db', report))
    (hconflicts : report.conflicts = []) (hdry : options.dryRun = false) :
    Applied vault parseUuid rows db' := by
  obtain ⟨left, leftReport, hleft, hcases⟩ :=
    @linkIdentities_cases parseUuid vault now options db rows h hrows
  rw [hrun] at hleft
  obtain ⟨rfl, rfl⟩ := Prod.mk.inj (Option.some.inj hleft)
  rcases hcases with ⟨_, hstopped⟩ | ⟨_, _, loop, hdone, hfold⟩
  · rcases hstopped with hsome | hsome
    · exact absurd hconflicts hsome
    · cases hdry.symm.trans hsome
  obtain ⟨tr, htr, hlabels⟩ := hdone.run
  have hmem : ∀ e ∈ tr, e.label ∈ rows := fun e he => hlabels ▸ List.mem_map_of_mem he
  have hsame :=
    (@consolidateAll_same vault now (sortedKeys loop.linkedKeys) (loop.db, loop.report)).1
  have hconsolidated :=
    (@consolidateAll_consolidated vault now (sortedKeys loop.linkedKeys) (loop.db, loop.report)).2
  have hlegacy := @consolidateAll_legacyKey vault now parseUuid (sortedKeys loop.linkedKeys)
    (loop.db, loop.report)
  rw [← hfold] at hsame hconsolidated hlegacy
  have hloop := htr.invariant
    (fun s => s.Constraints ∧
      ∀ principal, s.legacyKey parseUuid principal = db.legacyKey parseUuid principal)
    (fun _ _ _ hs hstep => ⟨hstep.constraints hs.1,
      fun principal => (hstep.legacyKey principal).trans (hs.2 principal)⟩)
    ⟨h, fun _ => rfl⟩
  have hkeys : ∀ row : MappingRow, row.storageKey parseUuid db' = row.storageKey parseUuid db := by
    intro row
    unfold MappingRow.storageKey
    rw [hlegacy, hloop.2]
  refine ⟨hsame.constraints hloop.1, ?_, fun row hrow => ?_, fun row hrow storageKey hmapped => ?_,
    fun row hrow storageKey hmapped => ?_⟩
  · intro first hfirst second hsecond storageKey storageKey'
    rw [hkeys, hkeys]
    exact hdone.oneToOne first hfirst second hsecond storageKey storageKey'
  · rw [← hlabels] at hrow
    obtain ⟨⟨pre, row, post⟩, he, rfl⟩ := List.mem_map.mp hrow
    obtain ⟨hpre, hstep, _⟩ := htr.invariant_mem
      (fun s => ∀ principal, s.legacyKey parseUuid principal = db.legacyKey parseUuid principal)
      (fun _ _ _ hs hstep principal => (hstep.legacyKey principal).trans (hs principal))
      (fun _ => rfl) he
    dsimp only at hpre hstep ⊢
    rw [hlegacy, hloop.2, ← hpre]
    cases hstep with
    | unmatched hnone => simp [hnone]
    | linked hfound => simp [hfound]
  · rw [hkeys] at hmapped
    rw [← hlabels] at hrow
    obtain ⟨e, he, rfl⟩ := List.mem_map.mp hrow
    exact (given_of_run h hrows hdone.oneToOne htr hmem he hmapped).of_same hsame
  · rw [hkeys] at hmapped
    exact hconsolidated storageKey
      (mem_sortedKeys.mpr ((hdone.linkedKeys storageKey).mpr ⟨row, hrow, hmapped⟩))

/-! ## The second run -/

/-- A link that names the account is not marked anew. -/
theorem marked_of_given {row : MappingRow} (h : db.Constraints) (hgiven : Given row storageKey db) :
    db.marked now row.principal row.account storageKey = db := by
  obtain ⟨link, linked, hlink, hlinked, haccount⟩ := hgiven.link
  have hsome : (db.linkOf row.principal).isSome = true := by
    rw [hlink]
    rfl
  have hlinks : Table.update LinkRow.iamPrincipalId row.principal (LinkRow.marked row.account now)
      db.links = db.links := by
    refine Table.update_eq_self fun other hmem hprincipal => ?_
    -- the principal has this one link
    have hone := h.principals.eq_of_mem hmem (Table.mem_of_lookup hlink)
      (hprincipal.trans (Table.column_of_lookup hlink).symm)
    rw [hone]
    unfold LinkRow.marked
    rw [hlinked, Option.filter_some, if_pos (decide_eq_true haccount), Option.some_or, ← hlinked]
  unfold IdentityDb.marked
  rw [if_pos hsome, hlinks]

/-- What the loop of a second run has after some of its rows: the tables it began with, and nothing
new to report. -/
structure SecondLoop (vault : Option Vault) (parseUuid : String → Option Uuid)
    (rows : List MappingRow) (db : IdentityDb)
    (loop : LinkLoop) : Prop where
  same : loop.db = db
  conflicts : loop.report.conflicts = []
  linked : loop.report.linked = 0
  preferences : loop.report.preferencesConsolidated = 0
  keys : loop.report.providerKeysResealed = 0
  grants : loop.report.storageGrantsInvalidated = 0
  sources : ∀ account, ∀ previous ∈ loop.accountSources account,
    ∃ row ∈ rows, row.account = account ∧ row.storageKey parseUuid db = some previous.1
  targets : ∀ storageKey, ∀ previous ∈ loop.keyTargets storageKey,
    ∃ row ∈ rows, row.storageKey parseUuid db = some storageKey ∧ row.account = previous.1
  linkedKeys : ∀ storageKey ∈ loop.linkedKeys, ∃ row ∈ rows, row.storageKey parseUuid
    db = some storageKey

/-- **A turn finds its row linked.** -/
theorem SecondLoop.linkRow {loop : LinkLoop} {row : MappingRow}
    (h : SecondLoop vault parseUuid rows db loop)
    (happlied : Applied vault parseUuid rows db) (hrows : Accepted rows) (hrow : row ∈ rows) :
    ∃ loop', loop.linkRow parseUuid now options row = some loop' ∧
      SecondLoop vault parseUuid rows db loop' := by
  unfold LinkLoop.linkRow
  rw [h.same, storableText_of_storablePrincipal (hrows.storable row hrow), if_neg (by simp)]
  cases hlegacy : db.legacyKey parseUuid row.principal with
  | noData => exact ⟨_, rfl, rfl, h.conflicts, h.linked, h.preferences, h.keys, h.grants, h.sources,
      h.targets, h.linkedKeys⟩
  | unknownKind => exact absurd hlegacy (happlied.known row hrow)
  | found storageKey kind publicId =>
      have hmapped : row.storageKey parseUuid db = some storageKey :=
        MappingRow.storageKey_eq_some_iff.mpr ⟨kind, publicId, hlegacy⟩
      have hgiven := happlied.given row hrow storageKey hmapped
      have hsource : (loop.accountSources row.account).filter
          (fun previous => decide (previous.1 ≠ storageKey)) = none := by
        refine Option.filter_eq_none_iff.mpr fun previous hprevious => ?_
        obtain ⟨other, hother, haccount, hkey⟩ := h.sources row.account previous hprevious
        have hsame :=
          (happlied.oneToOne other hother row hrow previous.1 storageKey hkey hmapped).mp haccount
        simpa using hsame
      have htarget : (loop.keyTargets storageKey).filter
          (fun previous => decide (previous.1 ≠ row.account)) = none := by
        refine Option.filter_eq_none_iff.mpr fun previous hprevious => ?_
        obtain ⟨other, hother, hkey, haccount⟩ := h.targets storageKey previous hprevious
        have hsame :=
          (happlied.oneToOne other hother row hrow storageKey storageKey hkey hmapped).mpr rfl
        simpa using haccount.symm.trans hsame
      -- The account has the key already, and marking it again changes nothing.
      have hone : db.linkOne now options row storageKey kind publicId = some (db, .ok false) := by
        obtain ⟨key, hkey, rfl⟩ := hgiven.key
        obtain ⟨haccount, hholder⟩ := holder_of_keyOf happlied.constraints hkey
        unfold IdentityDb.linkOne
        rw [hholder]
        dsimp only
        rw [if_pos haccount, markLink_eq (hrows.storable row hrow),
          marked_of_given happlied.constraints hgiven]
        rfl
      unfold LinkLoop.linkFound
      dsimp only
      rw [hsource, htarget, h.same, hone]
      refine ⟨_, rfl, rfl, h.conflicts, h.linked, h.preferences, h.keys, h.grants, ?_, ?_, ?_⟩
      · intro account previous hprevious
        change previous ∈ Function.update loop.accountSources row.account
          (some (storageKey, row.line)) account at hprevious
        by_cases hsame : account = row.account
        · rw [hsame, Function.update_self] at hprevious
          obtain rfl := Option.some.inj hprevious
          exact ⟨row, hrow, hsame.symm, hmapped⟩
        · rw [Function.update_of_ne hsame] at hprevious
          exact h.sources account previous hprevious
      · intro key previous hprevious
        change previous ∈ Function.update loop.keyTargets storageKey (some (row.account, row.line))
          key at hprevious
        by_cases hsame : key = storageKey
        · rw [hsame, Function.update_self] at hprevious
          obtain rfl := Option.some.inj hprevious
          exact ⟨row, hrow, hsame ▸ hmapped, rfl⟩
        · rw [Function.update_of_ne hsame] at hprevious
          exact h.targets key previous hprevious
      · intro key hkey
        rcases List.mem_append.mp hkey with hkey | hkey
        · exact h.linkedKeys key hkey
        · rw [List.mem_singleton.mp hkey]
          exact ⟨row, hrow, hmapped⟩

/-- **Every turn finds its row linked.** -/
theorem SecondLoop.run {rest : List MappingRow} {loop : LinkLoop}
    (h : SecondLoop vault parseUuid rows db loop)
    (happlied : Applied vault parseUuid rows db) (hrows : Accepted rows)
    (hrest : ∀ row ∈ rest, row ∈ rows) :
    ∃ loop', rest.foldlM (LinkLoop.linkRow parseUuid now options) loop = some loop' ∧
      SecondLoop vault parseUuid rows db loop' := by
  induction rest generalizing loop with
  | nil => exact ⟨loop, rfl, h⟩
  | cons row rest ih =>
      obtain ⟨next, hnext, hsecond⟩ :=
        @SecondLoop.linkRow vault now db parseUuid options rows loop row h happlied hrows
        (hrest row List.mem_cons_self)
      obtain ⟨last, hlast, hall⟩ :=
        ih hsecond fun other hother => hrest other (List.mem_cons_of_mem _ hother)
      refine ⟨last, ?_, hall⟩
      rw [List.foldlM_cons, hnext]
      exact hlast

/-- A report of a run that found nothing to do. -/
structure NothingNew (report : LinkReport) : Prop where
  conflicts : report.conflicts = []
  linked : report.linked = 0
  preferences : report.preferencesConsolidated = 0
  keys : report.providerKeysResealed = 0
  grants : report.storageGrantsInvalidated = 0

/-- Consolidating what is consolidated leaves the tables, and reports nothing new. -/
theorem consolidateAll_of_consolidated {keys : List ActorId}
    (h : ∀ key ∈ keys, Consolidated vault key db)
    (hreport : NothingNew report) :
    ∃ report', keys.foldl (fun state key => consolidate vault now key state) (db, report) =
      (db, report') ∧
      NothingNew report' := by
  induction keys generalizing report with
  | nil => exact ⟨report, rfl, hreport⟩
  | cons key keys ih =>
      rw [List.foldl_cons, consolidate_of_consolidated (h key List.mem_cons_self)]
      refine ih (fun other hother => h other (List.mem_cons_of_mem _ hother)) ?_
      exact ⟨hreport.conflicts, hreport.linked, hreport.preferences, hreport.keys, hreport.grants⟩

/-- **A mapping that was committed is applied already**: a second run of it, at any time, with any
options and the vault of the first, finds no conflict and nothing to link, consolidate, reseal or
retire, and leaves every table as it is. -/
theorem linkIdentities_again {options' : LinkOptions} {text : String} (h : db.Constraints)
    (hparsed : parseMapping text = .ok rows)
    (hrun : linkIdentities parseUuid vault now options rows db = some (db', report))
    (hcommitted : report.conflicts = [] ∧ options.dryRun = false) (now' : Nat) :
    ∃ report', linkIdentities parseUuid vault now' options' rows db' = some (db', report') ∧
      NothingNew report' := by
  have hrows := accepted_of_run hparsed hrun
  have happlied := applied_of_run h hrows hrun hcommitted.1 hcommitted.2
  have hstart : SecondLoop vault parseUuid rows db' (startLoop db' rows options') := by
    refine ⟨rfl, rfl, rfl, rfl, rfl, rfl, ?_, ?_, ?_⟩
    · intro account previous hprevious
      cases hprevious
    · intro key previous hprevious
      cases hprevious
    · intro key hkey
      exact absurd hkey List.not_mem_nil
  obtain ⟨loop, hloop, hsecond⟩ :=
    @SecondLoop.run vault now' db' parseUuid options' rows rows _ hstart happlied hrows
    fun _ hrow => hrow
  have hkeys : ∀ key ∈ sortedKeys loop.linkedKeys, Consolidated vault key db' := by
    intro key hkey
    obtain ⟨row, hrow, hmapped⟩ := hsecond.linkedKeys key (mem_sortedKeys.mp hkey)
    exact happlied.consolidated row hrow key hmapped
  have hnothing : NothingNew loop.report :=
    ⟨hsecond.conflicts, hsecond.linked, hsecond.preferences, hsecond.keys, hsecond.grants⟩
  obtain ⟨report', hfold, hreport⟩ :=
    @consolidateAll_of_consolidated vault now' db' loop.report _ hkeys hnothing
  refine ⟨report', ?_, hreport⟩
  unfold linkIdentities
  rw [hloop, Option.bind_eq_bind, Option.bind_some, if_neg (not_not.mpr hsecond.conflicts),
    hsecond.same, hfold]
  dsimp only
  split
  · rfl
  · rfl

theorem settledDb_committed : ∃ db' report,
    linkIdentities (fun _ => none) (some linkVault) 10 { relink := true }
      [correction] settledDb = some (db', report) ∧
      report.conflicts = [] := by
  refine ⟨_, _, rfl, ?_⟩
  rw [(consolidateAll_same _ _).2]
  rfl

theorem linkIdentities_again_sample : ∃ db' report report',
    linkIdentities (fun _ => none) (some linkVault) 10 { relink := true }
      [correction] settledDb = some (db', report) ∧
      linkIdentities (fun _ => none) (some linkVault) 20 {} [correction] db' = some (db', report') ∧
      NothingNew report' := by
  obtain ⟨db', report, hrun, hconflicts⟩ := settledDb_committed
  obtain ⟨report', hagain, hnothing⟩ :=
    linkIdentities_again settledDb_constraints parseMapping_correction hrun
    ⟨hconflicts, rfl⟩ 20
  exact ⟨db', report, report', hrun, hagain, hnothing⟩

end Waveform.Operator
