import Waveform.Directory.Fence
import Waveform.Operator.UuidMigration

/-!
# What a migration of uuids keeps

Every account keeps its storage key, its cache row and its fences under its new uuid, and every uuid
that was replaced is left with a deletion.

- `Consistent`: what holds of the tables in every state. `MigrationDb.refusal_eq_none`: what the
  checks leave.
- `rename_account`, `rename_retired`: one migration.
- `migrations_run`: any sequence of them. `migrate_again`: the same export again.
-/

set_option autoImplicit false

namespace Waveform.Operator

open Waveform.Domain
open Waveform.Directory
open LabelledRun

/-! ## The rows of an account -/

namespace MigrationDb

/-- The rows about one account. -/
def account (db : MigrationDb) (uuid : AccountUuid) : Account where
  key := (Table.lookup KeyRow.accountUuid uuid db.keys).map fun key =>
    ⟨key.storageActorId, key.kind⟩
  row := (Table.lookup CachedRow.account uuid db.accounts).map CachedRow.row
  pending := (Table.lookup RecordedRow.account uuid db.pending).map RecordedRow.event

end MigrationDb

/-- An account whose custodian was renamed. -/
def renamedAccount (rows : List Remap) (account : Account) : Account :=
  { account with row := account.row.map (renamedCustodian rows) }

/-- A uuid that was replaced: no key, no cache row, and a deletion. -/
structure Retired (account : Account) : Prop where
  key : account.key = none
  row : account.row = none
  deleted : account.deletedAt.isSome

theorem Retired.refusing {account : Account} (h : Retired account) (instant : Nat) :
    Refusing instant account :=
  .inl h.deleted

/-- What holds of the tables. -/
structure Consistent (db : MigrationDb) : Prop where
  accounts : Table.Unique KeyRow.accountUuid db.keys
  storageKeys : Table.Unique KeyRow.storageActorId db.keys
  cached : Table.Unique CachedRow.account db.accounts
  pending : Table.Unique RecordedRow.account db.pending
  keyed : ∀ cached ∈ db.accounts, ∃ key ∈ db.keys, key.accountUuid = cached.account
  ledger : Renaming.Valid (remapPairs db.ledger)
  retired : ∀ row ∈ db.ledger, Retired (db.account row.old)

/-! ## The checks -/

section Checks

variable {db : MigrationDb} {rows : List Remap} {row : Remap}

/-- Rows that the checks let pass. -/
structure Passes (db : MigrationDb) (rows : List Remap) : Prop where
  /-- What was applied before is the same row, or has nothing to do with it. -/
  applied : ∀ row ∈ rows, ∀ earlier ∈ db.ledger,
    row.old = earlier.old ∨ row.new = earlier.new ∨ row.old = earlier.new ∨ row.new = earlier.old →
    row = earlier
  exported : ∀ uuid ∈ db.references, rfcVariant uuid.asStr.toList = true ∨
    (∃ row ∈ rows, row.old = uuid) ∨
    ∃ earlier ∈ db.ledger, earlier.old = uuid
  kinds : ∀ row ∈ rows, ∀ key ∈ db.keys, key.accountUuid = row.old → key.kind = row.kind
  targets : ∀ row ∈ rows, ∀ key ∈ db.keys, key.accountUuid = row.new → db.applied row = true ∧
    key.kind = row.kind
  lifecycles : ∀ row ∈ rows, ∀ recorded ∈ db.pending, recorded.account = row.new →
    db.applied row = true

/-- **What the checks of a migration leave.** -/
theorem refusal_eq_none_iff : db.refusal rows = none ↔ Passes db rows := by
  unfold MigrationDb.refusal
  constructor
  · intro h
    split at h
    · cases h
    split at h
    · cases h
    split at h
    · cases h
    split at h
    · cases h
    split at h
    · cases h
    next happlied hexported hkinds htargets hlifecycles =>
      refine ⟨fun row hrow earlier hearlier hsome => ?_, fun uuid huuid => ?_,
        fun row hrow key hkey hsame => ?_,
        fun row hrow key hkey hsame => ?_, fun row hrow recorded hrecorded hsame => ?_⟩
      · by_contra hne
        refine happlied (List.any_eq_true.mpr
          ⟨row, hrow, List.any_eq_true.mpr ⟨earlier, hearlier, ?_⟩⟩)
        simp only [Bool.and_eq_true, Bool.or_eq_true, decide_eq_true_eq]
        exact ⟨by tauto, hne⟩
      · by_contra hnone
        simp only [not_or, not_exists, not_and] at hnone
        refine hexported (List.any_eq_true.mpr ⟨uuid, huuid, ?_⟩)
        simp only [Bool.and_eq_true, Bool.not_eq_true', List.any_eq_false, decide_eq_true_eq]
        exact ⟨⟨Bool.not_eq_true _ ▸ hnone.1, hnone.2.1⟩, hnone.2.2⟩
      · by_contra hne
        refine hkinds (List.any_eq_true.mpr ⟨row, hrow, List.any_eq_true.mpr ⟨key, hkey, ?_⟩⟩)
        simp only [Bool.and_eq_true, decide_eq_true_eq]
        exact ⟨hsame, hne⟩
      · by_contra hnot
        refine htargets (List.any_eq_true.mpr ⟨row, hrow, List.any_eq_true.mpr ⟨key, hkey, ?_⟩⟩)
        simp only [Bool.and_eq_true, Bool.or_eq_true, Bool.not_eq_true', decide_eq_true_eq]
        refine ⟨hsame, ?_⟩
        cases happliedRow : db.applied row with
        | false => exact .inl rfl
        | true => exact .inr fun hkind => hnot ⟨happliedRow, hkind⟩
      · by_contra hnot
        refine hlifecycles (List.any_eq_true.mpr
          ⟨row, hrow, List.any_eq_true.mpr ⟨recorded, hrecorded, ?_⟩⟩)
        simp only [Bool.and_eq_true, Bool.not_eq_true', decide_eq_true_eq]
        exact ⟨hsame, Bool.not_eq_true _ ▸ hnot⟩
  · intro h
    rw [if_neg, if_neg, if_neg, if_neg, if_neg]
    · rw [List.any_eq_true]
      rintro ⟨row, hrow, hany⟩
      obtain ⟨recorded, hrecorded, hboth⟩ := List.any_eq_true.mp hany
      simp only [Bool.and_eq_true, Bool.not_eq_true', decide_eq_true_eq] at hboth
      rw [h.lifecycles row hrow recorded hrecorded hboth.1] at hboth
      cases hboth.2
    · rw [List.any_eq_true]
      rintro ⟨row, hrow, hany⟩
      obtain ⟨key, hkey, hboth⟩ := List.any_eq_true.mp hany
      simp only [Bool.and_eq_true, Bool.or_eq_true, Bool.not_eq_true', decide_eq_true_eq] at hboth
      obtain ⟨happlied, hkind⟩ := h.targets row hrow key hkey hboth.1
      rcases hboth.2 with hnot | hne
      · cases happlied.symm.trans hnot
      · exact hne hkind
    · rw [List.any_eq_true]
      rintro ⟨row, hrow, hany⟩
      obtain ⟨key, hkey, hboth⟩ := List.any_eq_true.mp hany
      simp only [Bool.and_eq_true, decide_eq_true_eq] at hboth
      exact hboth.2 (h.kinds row hrow key hkey hboth.1)
    · rw [List.any_eq_true]
      rintro ⟨uuid, huuid, hnone⟩
      simp only [Bool.and_eq_true, Bool.not_eq_true', List.any_eq_false, decide_eq_true_eq] at hnone
      rcases h.exported uuid huuid with hvariant | ⟨row, hrow, hsame⟩ | ⟨earlier, hearlier, hsame⟩
      · cases hvariant.symm.trans hnone.1.1
      · exact hnone.1.2 row hrow hsame
      · exact hnone.2 earlier hearlier hsame
    · rw [List.any_eq_true]
      rintro ⟨row, hrow, hany⟩
      obtain ⟨earlier, hearlier, hboth⟩ := List.any_eq_true.mp hany
      simp only [Bool.and_eq_true, Bool.or_eq_true, decide_eq_true_eq] at hboth
      exact hboth.2 (h.applied row hrow earlier hearlier (by tauto))

end Checks

/-! ## One migration -/

section Fresh

variable {db db' : MigrationDb} {rows : List Remap} {row : Remap} {uuid : AccountUuid} {now : Nat}

theorem not_applied_of_mem_fresh (h : row ∈ db.fresh rows) :
    row ∈ rows ∧ db.applied row = false := by
  obtain ⟨hrow, hnot⟩ := List.mem_filter.mp h
  exact ⟨hrow, by simpa using hnot⟩

/-- The ledger with the rows that are applied now. -/
theorem fresh_valid (h : Consistent db) (hvalid : Renaming.Valid (remapPairs rows))
    (hpasses : Passes db rows) :
    Renaming.Valid (remapPairs (db.ledger ++ db.fresh rows)) := by
  have hledger := h.ledger
  have hsublist : (db.fresh rows).Sublist rows := List.filter_sublist
  have happart : ∀ row ∈ db.fresh rows, ∀ earlier ∈ db.ledger,
      ¬ (row.old = earlier.old ∨ row.new = earlier.new ∨ row.old = earlier.new ∨
        row.new = earlier.old) := by
    intro row hrow earlier hearlier hsome
    obtain ⟨hmem, hnot⟩ := not_applied_of_mem_fresh hrow
    -- the row would be in the ledger
    have hsame := hpasses.applied row hmem earlier hearlier hsome
    have happlied : db.applied row = true :=
      List.any_eq_true.mpr ⟨earlier, hearlier, by simp [hsame]⟩
    cases happlied.symm.trans hnot
  constructor
  · have holds := hledger.olds
    have hrows := hvalid.olds
    rw [remapPairs_fst] at holds hrows ⊢
    rw [List.map_append, List.nodup_append]
    refine ⟨holds, hrows.sublist (hsublist.map _), fun old hold other hother hsame => ?_⟩
    obtain ⟨earlier, hearlier, rfl⟩ := List.mem_map.mp hold
    obtain ⟨row, hrow, rfl⟩ := List.mem_map.mp hother
    exact happart row hrow earlier hearlier (.inl hsame.symm)
  · have hnews := hledger.news
    have hrows := hvalid.news
    rw [remapPairs_snd] at hnews hrows ⊢
    rw [List.map_append, List.nodup_append]
    refine ⟨hnews, hrows.sublist (hsublist.map _), fun new hnew other hother hsame => ?_⟩
    obtain ⟨earlier, hearlier, rfl⟩ := List.mem_map.mp hnew
    obtain ⟨row, hrow, rfl⟩ := List.mem_map.mp hother
    exact happart row hrow earlier hearlier (.inr (.inl hsame.symm))
  · intro pair hpair other hother hsame
    obtain ⟨row, hrow, rfl⟩ := List.mem_map.mp hpair
    obtain ⟨row', hrow', rfl⟩ := List.mem_map.mp hother
    rcases List.mem_append.mp hrow with hrow | hrow
    · rcases List.mem_append.mp hrow' with hrow' | hrow'
      · exact hledger.unchained _ (List.mem_map_of_mem hrow) _ (List.mem_map_of_mem hrow') hsame
      · exact happart row' hrow' row hrow (.inr (.inr (.inr hsame.symm)))
    · rcases List.mem_append.mp hrow' with hrow' | hrow'
      · exact happart row hrow row' hrow' (.inr (.inr (.inl hsame)))
      · have hmem := (not_applied_of_mem_fresh hrow).1
        have hmem' := (not_applied_of_mem_fresh hrow').1
        exact hvalid.unchained _ (List.mem_map_of_mem hmem) _ (List.mem_map_of_mem hmem') hsame

/-- The rows that are applied now, and what is known of their new uuids. -/
structure Renames (db : MigrationDb) (rows : List Remap) : Prop where
  valid : Renaming.Valid (remapPairs rows)
  ledger : Renaming.Valid (remapPairs (db.ledger ++ rows))
  keys : ∀ key ∈ db.keys, key.accountUuid ∉ rows.map Remap.new
  pending : ∀ recorded ∈ db.pending, recorded.account ∉ rows.map Remap.new

theorem Passes.renames (h : Consistent db) (hvalid : Renaming.Valid (remapPairs rows))
    (hpasses : Passes db rows) :
    Renames db (db.fresh rows) := by
  have hledger := fresh_valid h hvalid hpasses
  refine ⟨?_, hledger, fun key hkey hnew => ?_, fun recorded hrecorded hnew => ?_⟩
  · have hsublist : (remapPairs (db.fresh rows)).Sublist (remapPairs rows) :=
      List.filter_sublist.map _
    exact ⟨hvalid.olds.sublist (hsublist.map _), hvalid.news.sublist (hsublist.map _),
      fun pair hpair other hother =>
      hvalid.unchained pair (hsublist.subset hpair) other (hsublist.subset hother)⟩
  · obtain ⟨row, hrow, hsame⟩ := List.mem_map.mp hnew
    obtain ⟨hmem, hnot⟩ := not_applied_of_mem_fresh hrow
    cases (hpasses.targets row hmem key hkey hsame.symm).1.symm.trans hnot
  · obtain ⟨row, hrow, hsame⟩ := List.mem_map.mp hnew
    obtain ⟨hmem, hnot⟩ := not_applied_of_mem_fresh hrow
    cases (hpasses.lifecycles row hmem recorded hrecorded hsame.symm).symm.trans hnot

/-- Uuids that are not new ones stay apart. -/
theorem renamed_inj {other : AccountUuid} (hvalid : Renaming.Valid (remapPairs rows))
    (huuid : uuid ∉ rows.map Remap.new)
    (hother : other ∉ rows.map Remap.new) (hsame : renamed rows uuid = renamed rows other) :
    uuid = other := by
  rw [← remapPairs_snd] at huuid hother
  exact hvalid.apply_inj huuid hother hsame

theorem renamed_not_old (hvalid : Renaming.Valid (remapPairs rows)) (uuid : AccountUuid) :
    renamed rows uuid ∉ rows.map Remap.old := by
  rw [← remapPairs_fst]
  exact hvalid.apply_not_old uuid

/-! ### What is recorded about the old uuids -/

/-- What a deletion records about a uuid that nothing was recorded about. -/
def retirement (now : Nat) : PendingEvent := ⟨now, "account_uuid_migrated", some now⟩

theorem lookup_retire_other {pending : List RecordedRow} (hother : uuid ≠ row.old) :
    Table.lookup RecordedRow.account uuid (MigrationDb.retire now pending row) =
      Table.lookup RecordedRow.account uuid pending := by
  unfold MigrationDb.retire
  split
  · rw [Table.lookup_insert, if_neg fun h => hother h.symm]
  · rw [Table.lookup_update (RecordedRow.retired now) fun _ => rfl, if_neg hother]

theorem lookup_retireAll_other {pending : List RecordedRow} (hother : uuid ∉ rows.map Remap.old) :
    Table.lookup RecordedRow.account uuid (rows.foldl (MigrationDb.retire now) pending) =
      Table.lookup RecordedRow.account uuid pending := by
  induction rows generalizing pending with
  | nil => rfl
  | cons row rows ih =>
      rw [List.map_cons, List.mem_cons, not_or] at hother
      rw [List.foldl_cons, ih hother.2, lookup_retire_other hother.1]

theorem lookup_retireAll {pending : List RecordedRow} (holds : (rows.map Remap.old).Nodup)
    (hrow : row ∈ rows)
    (hnone : ∀ row ∈ rows, Table.lookup RecordedRow.account row.old pending = none) :
    Table.lookup RecordedRow.account row.old (rows.foldl (MigrationDb.retire now) pending) =
      some ⟨row.old, retirement now⟩ := by
  induction rows generalizing pending with
  | nil => exact absurd hrow List.not_mem_nil
  | cons first rows ih =>
      obtain ⟨hfirst, hrest⟩ := List.nodup_cons.mp holds
      rw [List.foldl_cons]
      rcases List.mem_cons.mp hrow with rfl | hrow
      · rw [lookup_retireAll_other hfirst]
        unfold MigrationDb.retire
        rw [hnone row List.mem_cons_self]
        exact (Table.lookup_insert).trans (if_pos rfl)
      · refine ih hrest hrow fun other hother => ?_
        rw [lookup_retire_other]
        · exact hnone other (List.mem_cons_of_mem _ hother)
        · exact fun hsame => hfirst (hsame ▸ List.mem_map_of_mem hother)

theorem unique_retireAll {pending : List RecordedRow}
    (hunique : Table.Unique RecordedRow.account pending) :
    Table.Unique RecordedRow.account (rows.foldl (MigrationDb.retire now) pending) := by
  induction rows generalizing pending with
  | nil => exact hunique
  | cons row rows ih =>
      refine ih ?_
      unfold MigrationDb.retire
      split
      · next hnone => exact hunique.insert hnone
      · exact hunique.update _ fun _ => rfl

/-! ### The rows of an account -/

/-- **Every account keeps its rows under its new uuid**, and names its custodian anew. -/
theorem rename_account (h : Consistent db) (hrenames : Renames db rows) (now : Nat)
    (huuid : uuid ∉ rows.map Remap.new) :
    (db.rename rows now).account (renamed rows uuid) = renamedAccount rows (db.account uuid) := by
  have hvalid := hrenames.valid
  have hkeys : Table.lookup KeyRow.accountUuid (renamed rows uuid) (db.rename rows now).keys =
      (Table.lookup KeyRow.accountUuid uuid db.keys).map fun key =>
        { key with accountUuid := renamed rows key.accountUuid } :=
    Table.lookup_rename (fun _ => rfl) fun key hkey hsame =>
      renamed_inj hvalid (hrenames.keys key hkey) huuid hsame
  have haccounts : Table.lookup CachedRow.account (renamed rows uuid)
    (db.rename rows now).accounts =
      (Table.lookup CachedRow.account uuid db.accounts).map fun cached =>
        ⟨renamed rows cached.account, renamedCustodian rows cached.row⟩ := by
    refine Table.lookup_rename (fun _ => rfl) fun cached hcached hsame => ?_
    obtain ⟨key, hkey, haccount⟩ := h.keyed cached hcached
    exact renamed_inj hvalid (haccount ▸ hrenames.keys key hkey) huuid hsame
  have hpending : Table.lookup RecordedRow.account (renamed rows uuid)
    (db.rename rows now).pending =
      (Table.lookup RecordedRow.account uuid db.pending).map fun recorded =>
        ⟨renamed rows recorded.account, recorded.event⟩ := by
    refine (lookup_retireAll_other (renamed_not_old hvalid uuid)).trans ?_
    exact Table.lookup_rename (fun _ => rfl) fun recorded hrecorded hsame =>
      renamed_inj hvalid (hrenames.pending recorded hrecorded) huuid hsame
  unfold MigrationDb.account renamedAccount
  rw [hkeys, haccounts, hpending]
  simp only [Option.map_map]
  rfl

/-- A table whose accounts were renamed has none of the old uuids. -/
theorem lookup_renamed_old {Row : Type} {column : Row → AccountUuid} {change : Row → Row}
    {table : List Row}
    (hvalid : Renaming.Valid (remapPairs rows))
    (hcolumn : ∀ row, column (change row) = renamed rows (column row))
    (hold : uuid ∈ rows.map Remap.old) : Table.lookup column uuid (table.map change) = none := by
  refine Table.lookup_eq_none_iff.mpr fun changed hchanged hsame => ?_
  obtain ⟨row, _, rfl⟩ := List.mem_map.mp hchanged
  rw [hcolumn] at hsame
  exact renamed_not_old hvalid _ (hsame ▸ hold)

/-- **Every old uuid is left with a deletion** and nothing else. -/
theorem rename_retired (hrenames : Renames db rows) (now : Nat) (hrow : row ∈ rows) :
    (db.rename rows now).account row.old = ⟨none, none, some (retirement now)⟩ := by
  have hold : ∀ row ∈ rows, row.old ∈ rows.map Remap.old := fun row hrow => List.mem_map_of_mem hrow
  have hkeys : Table.lookup KeyRow.accountUuid row.old (db.rename rows now).keys = none :=
    lookup_renamed_old hrenames.valid (fun _ => rfl) (hold row hrow)
  have haccounts : Table.lookup CachedRow.account row.old (db.rename rows now).accounts = none :=
    lookup_renamed_old hrenames.valid (fun _ => rfl) (hold row hrow)
  have hpending : Table.lookup RecordedRow.account row.old (db.rename rows now).pending =
      some ⟨row.old, retirement now⟩ := by
    refine lookup_retireAll ?_ hrow fun row hrow => ?_
    · have holds := hrenames.valid.olds
      rwa [remapPairs_fst] at holds
    · exact lookup_renamed_old hrenames.valid (fun _ => rfl) (hold row hrow)
  unfold MigrationDb.account
  rw [hkeys, haccounts, hpending]
  rfl

/-- **The tables stay consistent.** -/
theorem Consistent.rename (h : Consistent db) (hrenames : Renames db rows) (now : Nat) :
    Consistent (db.rename rows now) where
  accounts := h.accounts.rename _ fun key hkey key' hkey' hsame =>
    renamed_inj hrenames.valid (hrenames.keys key hkey) (hrenames.keys key' hkey') hsame
  storageKeys := h.storageKeys.rename _ fun _ _ _ _ hsame => hsame
  cached := by
    refine h.cached.rename _ fun cached hcached cached' hcached' hsame => ?_
    obtain ⟨key, hkey, haccount⟩ := h.keyed cached hcached
    obtain ⟨key', hkey', haccount'⟩ := h.keyed cached' hcached'
    exact renamed_inj hrenames.valid (haccount ▸ hrenames.keys key hkey)
      (haccount' ▸ hrenames.keys key' hkey') hsame
  pending := unique_retireAll
    (h.pending.rename _ fun recorded hrecorded recorded' hrecorded' hsame =>
    renamed_inj hrenames.valid (hrenames.pending recorded hrecorded)
    (hrenames.pending recorded' hrecorded') hsame)
  keyed := by
    intro cached hcached
    obtain ⟨before, hbefore, rfl⟩ := List.mem_map.mp hcached
    obtain ⟨key, hkey, haccount⟩ := h.keyed before hbefore
    exact ⟨_, List.mem_map_of_mem hkey, congrArg (renamed rows) haccount⟩
  ledger := hrenames.ledger
  retired := by
    intro row hrow
    rcases List.mem_append.mp hrow with hrow | hrow
    · -- an earlier row: its old uuid is not renamed, and is no new one
      have hretired := h.retired row hrow
      have hpairs := hrenames.ledger
      have hnotNew : row.old ∉ rows.map Remap.new := by
        intro hnew
        obtain ⟨later, hlater, hsame⟩ := List.mem_map.mp hnew
        exact hpairs.unchained (row.old, row.new)
          (List.mem_map.mpr ⟨row, List.mem_append_left _ hrow, rfl⟩)
          (later.old, later.new) (List.mem_map.mpr ⟨later, List.mem_append_right _ hlater, rfl⟩)
            hsame.symm
      have hkept : renamed rows row.old = row.old := by
        refine Renaming.apply_of_not_mem ?_
        rw [remapPairs_fst]
        intro hold
        have holds := hpairs.olds
        rw [remapPairs_fst, List.map_append] at holds
        exact (List.nodup_append.mp holds).2.2 row.old (List.mem_map_of_mem hrow) row.old hold rfl
      have haccount := rename_account h hrenames now hnotNew
      rw [hkept] at haccount
      rw [haccount]
      refine ⟨hretired.key, congrArg (Option.map _) hretired.row, ?_⟩
      have hdeleted := hretired.deleted
      unfold renamedAccount Account.deletedAt at *
      dsimp only at *
      rwa [hretired.row] at hdeleted ⊢
    · rw [rename_retired hrenames now hrow]
      exact ⟨rfl, rfl, rfl⟩

end Fresh

/-! ## Any sequence of migrations -/

/-- An export that is applied, or only tried. -/
structure MigrationEvent where
  records : List (List String)
  apply : Bool
  now : Nat

/-- A run of the script: the export is malformed, the checks refuse it, or it is applied or rolled
back. -/
inductive MigrationStep (parses : String → Bool) : MigrationDb → MigrationEvent →
    MigrationDb → Prop where
  | malformed {db : MigrationDb} {event : MigrationEvent} {error : RemapError}
      (h : parseRecords parses event.records = .error error) : MigrationStep parses db event db
  | refused {db : MigrationDb} {event : MigrationEvent} {rows : List Remap}
      {refusal : MigrationRefusal}
      (hparsed : parseRecords parses event.records = .ok rows)
      (h : db.migrate rows event.apply event.now = .error refusal) :
      MigrationStep parses db event db
  | migrated {db db' : MigrationDb} {event : MigrationEvent} {rows : List Remap}
      {report : MigrationReport}
      (hparsed : parseRecords parses event.records = .ok rows)
      (h : db.migrate rows event.apply event.now = .ok (db', report)) :
      MigrationStep parses db event db'

section Runs

variable {parses : String → Bool} {db db' s : MigrationDb} {rows added : List Remap}
  {report : MigrationReport}
  {now : Nat} {uuid : AccountUuid}

/-- **How a migration ends.** -/
theorem migrate_eq_ok_iff {apply : Bool} :
    db.migrate rows apply now = .ok (db', report) ↔
      Passes db rows ∧ db' = (if apply then db.rename (db.fresh rows) now else db) ∧
        report = ⟨apply, rows.length, (db.fresh rows).length, (db.actors (db.fresh rows)).length,
          rows.length - (db.fresh rows).length⟩ := by
  rw [← refusal_eq_none_iff]
  unfold MigrationDb.migrate
  cases db.refusal rows with
  | some refusal => simp
  | none =>
      dsimp only
      rw [Except.ok.injEq, Prod.mk.injEq]
      constructor
      · rintro ⟨rfl, rfl⟩
        exact ⟨rfl, rfl, rfl⟩
      · rintro ⟨_, rfl, rfl⟩
        exact ⟨rfl, rfl⟩

theorem renamedCustodian_nil (row : AccountRow) : renamedCustodian [] row = row := by
  unfold renamedCustodian
  rw [show renamed [] = id from rfl, Option.map_id_fun, id]

theorem renamedAccount_nil (account : Account) : renamedAccount [] account = account := by
  unfold renamedAccount
  rw [show renamedCustodian [] = id from funext renamedCustodian_nil, Option.map_id_fun, id]

/-- A later renaming of custodians is applied to what an earlier one left. -/
theorem renamedAccount_append {later : List Remap}
    (hvalid : Renaming.Valid (remapPairs (added ++ later)))
    (account : Account) :
    renamedAccount (added ++ later) account =
      renamedAccount later (renamedAccount added account) := by
  have hpairs : remapPairs (added ++ later) = remapPairs added ++ remapPairs later :=
    List.map_append
  have hname : renamed (added ++ later) = renamed later ∘ renamed added := by
    funext uuid
    unfold renamed
    rw [hpairs]
    exact (hpairs ▸ hvalid).apply_append uuid
  unfold renamedAccount renamedCustodian
  rw [Option.map_map, hname]
  congr 1
  refine congrArg (fun change => Option.map change account.row) (funext fun row => ?_)
  simp only [Function.comp_apply, Option.map_map]

/-- What a sequence of migrations leaves of the accounts, and what it added to the ledger. -/
structure Follows (db db' : MigrationDb) (added : List Remap) : Prop where
  consistent : Consistent db'
  ledger : db'.ledger = db.ledger ++ added
  accounts : ∀ uuid ∉ added.map Remap.new, db'.account (renamed added uuid) =
    renamedAccount added (db.account uuid)
  unmerged : ∀ row ∈ added, (db.account row.new).key = none

theorem Follows.refl (h : Consistent db) : Follows db db [] where
  consistent := h
  ledger := (List.append_nil _).symm
  accounts := fun uuid _ => (renamedAccount_nil (db.account uuid)).symm
  unmerged := fun _ hrow => absurd hrow List.not_mem_nil

/-- **One migration after others.** -/
theorem Follows.rename (h : Follows db s added) (hrenames : Renames s rows) (now : Nat) :
    Follows db (s.rename rows now) (added ++ rows) := by
  have hledger := hrenames.ledger
  rw [h.ledger, List.append_assoc] at hledger
  have hadded : Renaming.Valid (remapPairs (added ++ rows)) := by
    have hsublist : (remapPairs (added ++ rows)).Sublist
        (remapPairs (db.ledger ++ (added ++ rows))) :=
      (List.sublist_append_right _ _).map _
    exact ⟨hledger.olds.sublist (hsublist.map _), hledger.news.sublist (hsublist.map _),
      fun pair hpair other hother =>
      hledger.unchained pair (hsublist.subset hpair) other (hsublist.subset hother)⟩
  have hpairs : remapPairs (added ++ rows) = remapPairs added ++ remapPairs rows := List.map_append
  have hnews := hadded.news
  rw [remapPairs_snd, List.map_append] at hnews
  refine ⟨h.consistent.rename hrenames now, ?_, fun uuid huuid => ?_, fun row hrow => ?_⟩
  · change s.ledger ++ rows = _
    rw [h.ledger, List.append_assoc]
  · rw [List.map_append, List.mem_append, not_or] at huuid
    -- the uuid so far is none that the rows give out
    have hfar : renamed added uuid ∉ rows.map Remap.new := by
      rcases Renaming.apply_cases (remapPairs added) uuid with hfound | ⟨_, hkept⟩
      · obtain ⟨row, hrow, hpair⟩ := List.mem_map.mp hfound
        intro hnew
        have hmine : renamed added uuid ∈ added.map Remap.new :=
          List.mem_map.mpr ⟨row, hrow, (Prod.mk.inj hpair).2⟩
        exact (List.nodup_append.mp hnews).2.2 _ hmine _ hnew rfl
      · intro hnew
        exact huuid.2 (hkept ▸ hnew)
    have hname : renamed (added ++ rows) uuid = renamed rows (renamed added uuid) := by
      unfold renamed
      rw [hpairs]
      exact (hpairs ▸ hadded).apply_append uuid
    rw [hname, rename_account h.consistent hrenames now hfar, h.accounts uuid huuid.1,
      renamedAccount_append hadded]
  · rcases List.mem_append.mp hrow with hrow | hrow
    · exact h.unmerged row hrow
    · have hnotNew : row.new ∉ added.map Remap.new := fun hmem =>
        (List.nodup_append.mp hnews).2.2 row.new hmem row.new (List.mem_map_of_mem hrow) rfl
      have hkept : renamed added row.new = row.new := by
        refine Renaming.apply_of_not_mem ?_
        rw [remapPairs_fst]
        intro hold
        obtain ⟨earlier, hearlier, hsame⟩ := List.mem_map.mp hold
        exact hadded.unchained (earlier.old, earlier.new)
          (List.mem_map.mpr ⟨earlier, List.mem_append_left _ hearlier, rfl⟩)
          (row.old, row.new) (List.mem_map.mpr ⟨row, List.mem_append_right _ hrow, rfl⟩) hsame
      have haccount := h.accounts row.new hnotNew
      rw [hkept] at haccount
      have hkey : (s.account row.new).key = none := by
        have hnone : Table.lookup KeyRow.accountUuid row.new s.keys = none := by
          refine Table.lookup_eq_none_iff.mpr fun key hkey hsame => hrenames.keys key hkey ?_
          rw [hsame]
          exact List.mem_map_of_mem hrow
        exact Option.map_eq_none_iff.mpr hnone
      exact (congrArg Account.key haccount).symm.trans hkey

theorem Follows.step {event : MigrationEvent} (h : Follows db s added)
    (hstep : MigrationStep parses s event db') :
    ∃ later, Follows db db' (added ++ later) := by
  cases hstep with
  | malformed => exact ⟨[], (List.append_nil added).symm ▸ h⟩
  | refused => exact ⟨[], (List.append_nil added).symm ▸ h⟩
  | migrated hparsed hmigrated =>
      obtain ⟨hpasses, rfl, _⟩ := migrate_eq_ok_iff.mp hmigrated
      split
      · have hrenames := hpasses.renames h.consistent (parseRecords_ok hparsed).1
        exact ⟨_, h.rename hrenames event.now⟩
      · exact ⟨[], (List.append_nil added).symm ▸ h⟩

/-- **Whatever exports are tried and applied, in any order**: what was applied is one renaming of
accounts that merges none and renames none twice; every account keeps its storage key, its cache row
and its fences under its new uuid, with its custodian named anew; and every uuid that was replaced
has no storage key and refuses every token. -/
theorem migrations_run {tr : List (Transition MigrationDb MigrationEvent)} (h : Consistent db)
    (hrun : Run (MigrationStep parses) db tr db') :
    ∃ added, db'.ledger = db.ledger ++ added ∧ Renaming.Valid (remapPairs db'.ledger) ∧
      (∀ uuid ∉ added.map Remap.new, db'.account (renamed added uuid) = renamedAccount added
        (db.account uuid)) ∧
      (∀ row ∈ added, (db.account row.new).key = none) ∧
      ∀ row ∈ db'.ledger, (db'.account row.old).key = none ∧
        ∀ instant, Refusing instant (db'.account row.old) := by
  have hfollows : ∃ added, Follows db db' added := by
    refine hrun.invariant (fun s => ∃ added, Follows db s added) ?_ ⟨[], .refl h⟩
    rintro s event s' ⟨added, hadded⟩ hstep
    obtain ⟨later, hlater⟩ := hadded.step hstep
    exact ⟨_, hlater⟩
  obtain ⟨added, hadded⟩ := hfollows
  refine ⟨added, hadded.ledger, hadded.consistent.ledger, hadded.accounts, hadded.unmerged,
    fun row hrow => ?_⟩
  have hretired := hadded.consistent.retired row hrow
  exact ⟨hretired.key, hretired.refusing⟩

/-! ## The same export again -/

theorem actors_nil (db : MigrationDb) : db.actors [] = [] :=
  List.map_eq_nil_iff.mpr (List.filter_eq_nil_iff.mpr fun _ _ => Bool.false_ne_true)

/-- A renaming of nothing. -/
theorem rename_nil (db : MigrationDb) (now : Nat) : db.rename [] now = db := by
  have hrenamed : renamed [] = id := rfl
  unfold MigrationDb.rename
  simp only [hrenamed, renamedCustodian_nil, actors_nil, List.foldl_nil, List.append_nil,
    Option.map_id_fun]
  simp

/-- Every row of an export that was applied is in the ledger. -/
theorem applied_rename (row : Remap) (hrow : row ∈ rows) :
    (db.rename (db.fresh rows) now).applied row = true := by
  unfold MigrationDb.applied
  rw [List.any_eq_true]
  cases happlied : db.applied row with
  | true =>
      obtain ⟨earlier, hearlier, hsame⟩ := List.any_eq_true.mp happlied
      exact ⟨earlier, List.mem_append_left _ hearlier, hsame⟩
  | false => exact ⟨row, List.mem_append_right
      _ (List.mem_filter.mpr ⟨hrow, by rw [happlied]; rfl⟩), decide_eq_true rfl⟩

/-- The uuids that rows refer to afterwards: renamed ones, and those that were replaced. -/
theorem references_rename {uuid : AccountUuid} (h : uuid ∈ (db.rename rows now).references) :
    (∃ before ∈ db.references, uuid = renamed rows before) ∨ ∃ row ∈ rows, row.old = uuid := by
  have hpending : ∀ (later : List Remap) (pending : List RecordedRow),
    ∀ recorded ∈ later.foldl (MigrationDb.retire now) pending,
      (∃ before ∈ pending, before.account = recorded.account) ∨
      ∃ row ∈ later, row.old = recorded.account := by
    intro later
    induction later with
    | nil => exact fun pending recorded hrecorded => .inl ⟨recorded, hrecorded, rfl⟩
    | cons row later ih =>
        intro pending recorded hrecorded
        rcases ih _ recorded hrecorded with ⟨before, hbefore, hsame⟩ | ⟨other, hother, hsame⟩
        · unfold MigrationDb.retire at hbefore
          split at hbefore
          · rcases Table.mem_insert.mp hbefore with rfl | hbefore
            · exact .inr ⟨row, List.mem_cons_self, hsame⟩
            · exact .inl ⟨before, hbefore, hsame⟩
          · obtain ⟨earlier, hearlier, rfl⟩ := Table.mem_update.mp hbefore
            refine .inl ⟨earlier, hearlier, Eq.trans ?_ hsame⟩
            split
            · rfl
            · rfl
        · exact .inr ⟨other, List.mem_cons_of_mem _ hother, hsame⟩
  unfold MigrationDb.references at h ⊢
  simp only [List.mem_append] at h ⊢
  rcases h with (((hkey | hcustodian) | hlink) | hrecorded) | hevent
  · obtain ⟨key, hmem, rfl⟩ := List.mem_map.mp hkey
    obtain ⟨before, hbefore, rfl⟩ := List.mem_map.mp hmem
    exact .inl ⟨before.accountUuid, .inl (.inl (.inl (.inl (List.mem_map_of_mem hbefore)))), rfl⟩
  · obtain ⟨cached, hcached, hsome⟩ := List.mem_filterMap.mp hcustodian
    obtain ⟨before, hbefore, rfl⟩ := List.mem_map.mp hcached
    obtain ⟨custodian, hbeforeCustodian, rfl⟩ := Option.map_eq_some_iff.mp hsome
    exact .inl ⟨custodian, .inl
      (.inl (.inl (.inr (List.mem_filterMap.mpr ⟨before, hbefore, hbeforeCustodian⟩)))), rfl⟩
  · obtain ⟨link, hmem, hsome⟩ := List.mem_filterMap.mp hlink
    obtain ⟨before, hbefore, rfl⟩ := List.mem_map.mp hmem
    obtain ⟨linked, hlinked, rfl⟩ := Option.map_eq_some_iff.mp hsome
    obtain ⟨earlier, hearlier, rfl⟩ := Option.map_eq_some_iff.mp hlinked
    refine .inl ⟨earlier.accountsUuid,
      .inl (.inl (.inr (List.mem_filterMap.mpr ⟨before, hbefore, ?_⟩))), rfl⟩
    rw [hearlier]
    rfl
  · obtain ⟨recorded, hmem, rfl⟩ := List.mem_map.mp hrecorded
    rcases hpending rows _ recorded hmem with ⟨before, hbefore, hsame⟩ | hold
    · obtain ⟨earlier, hearlier, rfl⟩ := List.mem_map.mp hbefore
      exact .inl ⟨earlier.account, .inl (.inr (List.mem_map_of_mem hearlier)), hsame.symm⟩
    · exact .inr hold
  · obtain ⟨account, haccount, hsome⟩ := List.mem_filterMap.mp hevent
    obtain ⟨before, hbefore, rfl⟩ := List.mem_map.mp haccount
    obtain ⟨account, rfl, rfl⟩ := Option.map_eq_some_iff.mp hsome
    exact .inl ⟨account, .inr (List.mem_filterMap.mpr ⟨some account, hbefore, rfl⟩), rfl⟩

/-- **The checks let an export pass that was applied.** -/
theorem Passes.again (h : Consistent db) (hvalid : Renaming.Valid (remapPairs rows))
    (hcanonical : ∀ row ∈ rows, canonicalV4 row.new.asStr.toList = true)
    (hpasses : Passes db rows) :
    Passes (db.rename (db.fresh rows) now) rows := by
  have hrenames := hpasses.renames h hvalid
  have hconsistent := h.rename hrenames now
  have hfresh : ∀ row ∈ db.fresh rows, row ∈ rows :=
    fun row hrow => (not_applied_of_mem_fresh hrow).1
  have hpair : ∀ row ∈ rows, (row.old, row.new) ∈ remapPairs rows :=
    fun row hrow => List.mem_map_of_mem hrow
  have holds : (rows.map Remap.old).Nodup := remapPairs_fst rows ▸ hvalid.olds
  have hnews : (rows.map Remap.new).Nodup := remapPairs_snd rows ▸ hvalid.news
  -- no row has a key under its old uuid
  have hretired : ∀ row ∈ rows, ∀ key ∈ (db.rename (db.fresh rows) now).keys,
      key.accountUuid ≠ row.old := by
    intro row hrow key hkey hsame
    obtain ⟨earlier, hearlier, hold⟩ := List.any_eq_true.mp (@applied_rename db rows now row hrow)
    have hnone := (hconsistent.retired earlier hearlier).key
    rw [of_decide_eq_true hold] at hnone
    exact Table.lookup_eq_none_iff.mp (Option.map_eq_none_iff.mp hnone) key hkey hsame
  refine ⟨fun row hrow earlier hearlier hsome => ?_, fun uuid huuid => ?_,
    fun row hrow key hkey hsame => ?_,
    fun row hrow key hkey hsame => ⟨applied_rename row hrow, ?_⟩, fun row hrow _ _ _ =>
      applied_rename row hrow⟩
  · rcases List.mem_append.mp hearlier with hearlier | hearlier
    · exact hpasses.applied row hrow earlier hearlier hsome
    · have hmem := hfresh earlier hearlier
      rcases hsome with hsame | hsame | hsame | hsame
      · exact List.inj_on_of_nodup_map holds hrow hmem hsame
      · exact List.inj_on_of_nodup_map hnews hrow hmem hsame
      · exact absurd hsame (hvalid.unchained _ (hpair row hrow) _ (hpair earlier hmem))
      · exact absurd hsame.symm (hvalid.unchained _ (hpair earlier hmem) _ (hpair row hrow))
  · rcases references_rename huuid with ⟨before, hbefore, rfl⟩ | ⟨row, hrow, hsame⟩
    · rcases Renaming.apply_cases (remapPairs (db.fresh rows)) before with hfound | ⟨_, hkept⟩
      · -- a new uuid is canonical
        obtain ⟨row, hrow, hpairOf⟩ := List.mem_map.mp hfound
        left
        have hnew : row.new = renamed (db.fresh rows) before := (Prod.mk.inj hpairOf).2
        rw [← hnew]
        exact (Bool.and_eq_true_iff.mp (hcanonical row (hfresh row hrow))).1
      · have hsame : renamed (db.fresh rows) before = before := hkept
        rw [hsame]
        refine (hpasses.exported before hbefore).imp_right (Or.imp_right ?_)
        rintro ⟨earlier, hearlier, hold⟩
        exact ⟨earlier, List.mem_append_left _ hearlier, hold⟩
    · exact .inr (.inl ⟨row, hfresh row hrow, hsame⟩)
  · exact absurd hsame (hretired row hrow key hkey)
  · obtain ⟨before, hbefore, rfl⟩ := List.mem_map.mp hkey
    rcases Renaming.apply_cases (remapPairs (db.fresh rows)) before.accountUuid with hfound |
      ⟨_, hkept⟩
    · obtain ⟨row', hrow', hpairOf⟩ := List.mem_map.mp hfound
      obtain ⟨hold, hnew⟩ := Prod.mk.inj hpairOf
      have hsameRow : row' = row :=
        List.inj_on_of_nodup_map hnews (hfresh row' hrow') hrow (hnew.trans hsame)
      rw [hsameRow] at hold
      exact hpasses.kinds row hrow before hbefore hold.symm
    · exact (hpasses.targets row hrow before hbefore (hkept.symm.trans hsame)).2

/-- **An export that was applied is applied already**: again, at any time and with or without
`--apply`, it passes every check, renames nothing and leaves every table as it is. -/
theorem migrate_again {records : List (List String)} (h : Consistent db)
    (hparsed : parseRecords parses records = .ok rows)
    (hrun : db.migrate rows true now = .ok (db', report)) (apply' : Bool) (now' : Nat) :
    db'.migrate rows apply' now' = .ok (db', ⟨apply', rows.length, 0, 0, rows.length⟩) := by
  obtain ⟨hpasses, rfl, _⟩ := migrate_eq_ok_iff.mp hrun
  obtain ⟨hvalid, hcanonical⟩ := parseRecords_ok hparsed
  rw [if_pos rfl]
  have hnone : (db.rename (db.fresh rows) now).fresh rows = [] := by
    refine List.filter_eq_nil_iff.mpr fun row hrow => ?_
    rw [applied_rename row hrow]
    exact Bool.false_ne_true
  refine migrate_eq_ok_iff.mpr ⟨hpasses.again h hvalid hcanonical, ?_, ?_⟩
  · rw [hnone, rename_nil]
    split
    · rfl
    · rfl
  · rw [hnone, actors_nil]
    rfl

end Runs

/-! ## A Carbon and its Silicon -/

theorem accountUuidValid_owner :
    accountUuidValid "11111111-1111-4111-8111-111111111111" = true := by decide +kernel

theorem accountUuidValid_child :
    accountUuidValid "22222222-2222-4222-9222-222222222222" = true := by decide +kernel

/-- The rows of the export. -/
def ownerRemap : Remap :=
  ⟨⟨"zQo", accountUuidValid_zQo⟩, ⟨"11111111-1111-4111-8111-111111111111", accountUuidValid_owner⟩,
    .carbon⟩

def childRemap : Remap :=
  ⟨⟨"K1E", accountUuidValid_K1E⟩, ⟨"22222222-2222-4222-9222-222222222222", accountUuidValid_child⟩,
    .silicon⟩

/-- The export as it is read. -/
def exportRecords : List (List String) :=
  [["old_uuid", "new_uuid", "kind"], ["zQo", "11111111-1111-4111-8111-111111111111", "carbon"], [],
    ["K1E", "22222222-2222-4222-9222-222222222222", "silicon"]]

/-- A Silicon and its custodian, before the migration. -/
def ownedDb : MigrationDb where
  keys := [⟨ownerRemap.old, ⟨1, Uuid.one_ne_nil⟩, .carbon, .signIn⟩,
    ⟨childRemap.old, ⟨2, Uuid.two_ne_nil⟩, .silicon, .signIn⟩]
  accounts := [⟨ownerRemap.old, { kind := .carbon }⟩,
    ⟨childRemap.old, { kind := .silicon, custodianUuid := some ownerRemap.old }⟩]
  links := []
  pending := []
  webhookEvents := [none, some ownerRemap.old]
  proofs := []
  ledger := []

theorem parseRecords_export :
    parseRecords (fun _ => true) exportRecords = .ok [ownerRemap, childRemap] := by rfl

theorem ownedDb_consistent : Consistent ownedDb where
  accounts := by decide
  storageKeys := by decide
  cached := by decide
  pending := List.nodup_nil
  keyed := by
    intro cached hcached
    rcases List.mem_cons.mp hcached with rfl | hcached
    · exact ⟨_, List.mem_cons_self, rfl⟩
    · rw [List.mem_singleton.mp hcached]
      exact ⟨_, List.mem_cons_of_mem _ List.mem_cons_self, rfl⟩
  ledger := .nil
  retired := fun _ hrow => absurd hrow List.not_mem_nil

theorem ownedDb_migrate : ∃ db' report, ownedDb.migrate [ownerRemap, childRemap] true 10 =
    .ok (db', report) := by
  have hrefusal : ownedDb.refusal [ownerRemap, childRemap] = none := by decide +kernel
  exact ⟨_, _, migrate_eq_ok_iff.mpr ⟨refusal_eq_none_iff.mp hrefusal, rfl, rfl⟩⟩

theorem migrations_run_sample : ∃ (db' : MigrationDb) (added : List Remap),
    db'.ledger = ownedDb.ledger ++ added ∧ Renaming.Valid (remapPairs db'.ledger) ∧
      (∀ uuid ∉ added.map Remap.new, db'.account (renamed added uuid) = renamedAccount added
        (ownedDb.account uuid)) ∧
      (∀ row ∈ added, (ownedDb.account row.new).key = none) ∧
      ∀ row ∈ db'.ledger, (db'.account row.old).key = none ∧
        ∀ instant, Refusing instant (db'.account row.old) := by
  obtain ⟨db', report, hrun⟩ := ownedDb_migrate
  have hstep : MigrationStep (fun _ => true) ownedDb ⟨exportRecords, true, 10⟩ db' :=
    .migrated parseRecords_export hrun
  exact ⟨db', migrations_run ownedDb_consistent (.single hstep)⟩

theorem migrate_again_sample : ∃ db' report, ownedDb.migrate [ownerRemap, childRemap] true 10 =
    .ok (db', report) ∧
    db'.migrate [ownerRemap, childRemap] false 20 = .ok (db', ⟨false, 2, 0, 0, 2⟩) := by
  obtain ⟨db', report, hrun⟩ := ownedDb_migrate
  exact ⟨db', report, hrun, migrate_again ownedDb_consistent parseRecords_export hrun false 20⟩

end Waveform.Operator
