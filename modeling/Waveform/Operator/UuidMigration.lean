import Waveform.Library.Renaming
import Waveform.Operator.IdentityTables

/-!
# Account uuids that are replaced

Silicon Accounts gave every account a new uuid. The operator applies its export to the database,
offline and in one transaction: accounts are renamed wherever they are named, and keep their private
storage keys. What was applied is kept in a ledger.

The export is read as the records that `csv.reader` makes of it, and `uuid.UUID` is a parameter,
which only decides between two messages. Columns that the migration neither reads nor writes are
left out.

- `parseRecords`: the export. `MigrationDb.migrate`: the transaction.
- `parseRecords_ok`: an accepted export is a valid renaming.
-/

set_option autoImplicit false

namespace Waveform.Operator

open Waveform.Domain
open Waveform.Directory (AccountRow PendingEvent)

/-! ## The export -/

/-- A row of the export, and of `waveform_account_uuid_migrations`. -/
structure Remap where
  old : AccountUuid
  new : AccountUuid
  kind : ActorKind
  deriving DecidableEq

/-- What is wrong with an export. -/
inductive RemapError where
  | header
  | fields (line : Nat)
  | notUuid (line : Nat)
  | notCanonical (line : Nat)
  | oldUuid (line : Nat)
  | kindOrUnchanged (line : Nat)
  | duplicate (line : Nat)
  | emptyOrChained
  deriving DecidableEq

/-- The text of an error. -/
def RemapError.text : RemapError → String
  | .header => "Expected exact header old_uuid,new_uuid,kind"
  | .fields line => s!"Line {line}: expected three fields"
  | .notUuid line => s!"Line {line}: new_uuid is not a UUID"
  | .notCanonical line => s!"Line {line}: new_uuid must be canonical lowercase UUIDv4"
  | .oldUuid line => s!"Line {line}: invalid old_uuid"
  | .kindOrUnchanged line => s!"Line {line}: invalid kind or unchanged UUID"
  | .duplicate line => s!"Line {line}: duplicate source or target; account merging is forbidden"
  | .emptyOrChained => "Mapping must be nonempty and cannot contain cycles or chained remaps"

/-- A hyphenated UUID of the RFC's variant. -/
def rfcVariant (value : List Char) : Bool :=
  hyphenatedUuid value && value[19]?.any fun c => c = '8' || c = '9' || c = 'a' || c = 'b'

/-- A canonical lower-case UUID of version 4. -/
def canonicalV4 (value : List Char) : Bool := rfcVariant value && value[14]? = some '4'

/-- The kind of a row. -/
def remapKind : String → Option ActorKind
  | "carbon" => some .carbon
  | "silicon" => some .silicon
  | _ => none

section Records

variable (parses : String → Bool)

/-- One record of the export. -/
def parseFields (line : Nat) : List String → Except RemapError Remap
  | [old, new, kind] =>
      if !parses new then .error (.notUuid line)
      else
        match (AccountUuid.fromStr? new).filter fun uuid => canonicalV4 uuid.asStr.toList with
        | none => .error (.notCanonical line)
        | some new =>
            match AccountUuid.fromStr? old with
            | none => .error (.oldUuid line)
            | some old =>
                match (remapKind kind).filter fun _ => old ≠ new with
                | none => .error (.kindOrUnchanged line)
                | some kind => .ok ⟨old, new, kind⟩
  | _ => .error (.fields line)

/-- The loop over the records, with the rows so far. -/
def parseRows : Nat → List Remap → List (List String) → Except RemapError (List Remap)
  | _, rows, [] => .ok rows
  | line, rows, fields :: rest =>
      if fields.isEmpty then parseRows (line + 1) rows rest
      else
        match parseFields parses line fields with
        | .error error => .error error
        | .ok row =>
            if (rows.any fun earlier => earlier.old = row.old) || rows.any fun earlier =>
              earlier.new = row.new then
              .error (.duplicate line)
            else parseRows (line + 1) (rows ++ [row]) rest

/-- `parse_mapping`, of the records of a file. -/
def parseRecords (records : List (List String)) : Except RemapError (List Remap) :=
  if records.head? ≠ some ["old_uuid", "new_uuid", "kind"] then .error .header
  else
    match parseRows parses 2 [] records.tail with
    | .error error => .error error
    | .ok rows =>
        if rows.isEmpty || rows.any fun row => (rows.map Remap.new).contains row.old
          then .error .emptyOrChained
        else .ok rows

end Records

/-- The pairs of a list of rows. -/
def remapPairs (rows : List Remap) : List (AccountUuid × AccountUuid) :=
  rows.map fun row => (row.old, row.new)

theorem remapPairs_fst (rows : List Remap) :
    (remapPairs rows).map Prod.fst = rows.map Remap.old := by
  unfold remapPairs
  rw [List.map_map]
  rfl

theorem remapPairs_snd (rows : List Remap) :
    (remapPairs rows).map Prod.snd = rows.map Remap.new := by
  unfold remapPairs
  rw [List.map_map]
  rfl

section Accepted

variable {parses : String → Bool} {rows found : List Remap} {row : Remap}

theorem parseFields_ok {line : Nat} {fields : List String}
    (h : parseFields parses line fields = .ok row) :
    canonicalV4 row.new.asStr.toList = true ∧ row.old ≠ row.new := by
  unfold parseFields at h
  split at h
  · split at h
    · cases h
    · split at h
      · cases h
      · next new hnew =>
          split at h
          · cases h
          · split at h
            · cases h
            · next kind hkind =>
                cases h
                exact ⟨(Option.filter_eq_some_iff.mp hnew).2,
                  of_decide_eq_true (Option.filter_eq_some_iff.mp hkind).2⟩
  · cases h

/-- What the loop keeps of the rows so far. -/
structure Parsed (rows : List Remap) : Prop where
  olds : (rows.map Remap.old).Nodup
  news : (rows.map Remap.new).Nodup
  canonical : ∀ row ∈ rows, canonicalV4 row.new.asStr.toList = true

theorem Parsed.nil : Parsed [] where
  olds := List.nodup_nil
  news := List.nodup_nil
  canonical := fun _ hrow => absurd hrow List.not_mem_nil

/-- A column that takes a value that it does not have. -/
theorem nodup_concat {Column : Type} [DecidableEq Column] {column : Remap → Column}
    (h : (rows.map column).Nodup)
    (hnew : (rows.any fun earlier => decide (column earlier = column row)) = false) :
    ((rows ++ [row]).map column).Nodup := by
  rw [List.map_append, List.map_singleton, List.nodup_append]
  refine ⟨h, List.nodup_singleton _, fun value hvalue other hother => ?_⟩
  obtain ⟨earlier, hearlier, rfl⟩ := List.mem_map.mp hvalue
  rw [List.mem_singleton.mp hother]
  simpa using List.any_eq_false.mp hnew earlier hearlier

theorem parseRows_parsed {line : Nat} {records : List (List String)} (hrows : Parsed rows)
    (h : parseRows parses line rows records = .ok found) : Parsed found := by
  induction records generalizing line rows with
  | nil =>
      obtain rfl := Except.ok.inj h
      exact hrows
  | cons fields rest ih =>
      unfold parseRows at h
      split at h
      · exact ih hrows h
      · split at h
        · cases h
        · next row hrow =>
            split at h
            · cases h
            · next hnew =>
                obtain ⟨hold, hnew⟩ := Bool.or_eq_false_iff.mp (Bool.not_eq_true _ ▸ hnew)
                refine ih ⟨nodup_concat hrows.olds hold, nodup_concat hrows.news hnew,
                  fun other hother => ?_⟩ h
                rcases List.mem_append.mp hother with hother | hother
                · exact hrows.canonical other hother
                · rw [List.mem_singleton.mp hother]
                  exact (parseFields_ok hrow).1

/-- **An accepted export is a valid renaming** to canonical uuids: no account is renamed twice, no
two are merged, and none is renamed to an account that is renamed. -/
theorem parseRecords_ok {records : List (List String)}
    (h : parseRecords parses records = .ok rows) :
    Renaming.Valid (remapPairs rows) ∧ ∀ row ∈ rows, canonicalV4 row.new.asStr.toList = true := by
  unfold parseRecords at h
  split at h
  · cases h
  · split at h
    · cases h
    · next found hfound =>
        split at h
        · cases h
        · next hunchained =>
            obtain rfl := Except.ok.inj h
            have hparsed : Parsed found := parseRows_parsed .nil hfound
            refine ⟨⟨remapPairs_fst found ▸ hparsed.olds, remapPairs_snd found ▸ hparsed.news, ?_⟩,
              hparsed.canonical⟩
            intro pair hpair other hother hsame
            obtain ⟨row, hrow, rfl⟩ := List.mem_map.mp hpair
            obtain ⟨row', hrow', rfl⟩ := List.mem_map.mp hother
            obtain ⟨_, hchained⟩ := Bool.or_eq_false_iff.mp (Bool.not_eq_true _ ▸ hunchained)
            refine List.any_eq_false.mp hchained row hrow ?_
            rw [List.contains_eq_mem, decide_eq_true_iff]
            exact List.mem_map.mpr ⟨row', hrow', hsame.symm⟩

end Accepted

/-! ## The tables -/

/-- The cache row of an account. -/
structure CachedRow where
  account : AccountUuid
  row : AccountRow

/-- What was recorded about an account. -/
structure RecordedRow where
  account : AccountUuid
  event : PendingEvent

/-- What was recorded about a uuid that is replaced. -/
def RecordedRow.retired (now : Nat) (recorded : RecordedRow) : RecordedRow :=
  { recorded with
      event :=
        { revokedBefore := max recorded.event.revokedBefore now
          revokedReason := "account_uuid_migrated"
          deletedAt := recorded.event.deletedAt.or (some now) } }

/-- The tables that name accounts, the proofs of their storage, and the ledger. -/
structure MigrationDb where
  keys : List KeyRow
  accounts : List CachedRow
  links : List LinkRow
  pending : List RecordedRow
  webhookEvents : List (Option AccountUuid)
  proofs : List OwnedProof
  ledger : List Remap

/-- Why a migration is refused. -/
inductive MigrationRefusal where
  | conflictsWithApplied
  | absentFromExport
  | otherKind
  | targetExists
  | targetHasLifecycle
  deriving DecidableEq

/-- The text of a refusal. -/
def MigrationRefusal.text : MigrationRefusal → String
  | .conflictsWithApplied => "Mapping conflicts with an already applied immutable mapping"
  | .absentFromExport => "Existing legacy account reference is absent from the Accounts export"
  | .otherKind => "Mapping kind does not match the existing account"
  | .targetExists => "Target account already exists; refusing data merge"
  | .targetHasLifecycle => "Target already has lifecycle state; refusing merge"

/-- What the transaction reports. -/
structure MigrationReport where
  apply : Bool
  mappingRows : Nat
  newMappings : Nat
  storageKeysPreserved : Nat
  alreadyApplied : Nat
  deriving DecidableEq

/-- The uuid of an account after the rows. -/
def renamed (rows : List Remap) (uuid : AccountUuid) : AccountUuid :=
  Renaming.apply (remapPairs rows) uuid

/-- A cache row that names its custodian anew. -/
def renamedCustodian (rows : List Remap) (row : AccountRow) : AccountRow :=
  { row with custodianUuid := row.custodianUuid.map (renamed rows) }

namespace MigrationDb

variable (db : MigrationDb)

/-- The account uuids that rows refer to. -/
def references : List AccountUuid :=
  db.keys.map KeyRow.accountUuid ++
    db.accounts.filterMap (fun cached => cached.row.custodianUuid) ++
    db.links.filterMap (fun link => link.linked.map Linked.accountsUuid) ++
    db.pending.map RecordedRow.account ++ db.webhookEvents.filterMap id

/-- Whether a row was applied before. -/
def applied (row : Remap) : Bool := db.ledger.any fun earlier => earlier.old = row.old

/-- The rows that were not applied before: `uuid_fresh`. -/
def fresh (rows : List Remap) : List Remap := rows.filter fun row => !db.applied row

/-- The checks of the transaction. -/
def refusal (rows : List Remap) : Option MigrationRefusal :=
  if rows.any fun row => db.ledger.any fun earlier =>
      (row.old = earlier.old || row.new = earlier.new || row.old = earlier.new ||
        row.new = earlier.old) && row ≠ earlier then
    some .conflictsWithApplied
  else if db.references.any fun uuid => !rfcVariant uuid.asStr.toList &&
      !(rows.any fun row => row.old = uuid) &&
      !(db.ledger.any fun earlier => earlier.old = uuid) then
    some .absentFromExport
  else if rows.any fun row => db.keys.any fun key => key.accountUuid = row.old && key.kind ≠
    row.kind then
    some .otherKind
  else if rows.any fun row => db.keys.any fun key =>
      key.accountUuid = row.new && (!db.applied row || key.kind ≠ row.kind) then
    some .targetExists
  else if rows.any fun row => db.pending.any fun recorded => recorded.account = row.new &&
    !db.applied row then
    some .targetHasLifecycle
  else none

/-- The storage keys of the accounts that are renamed: `uuid_actors`. -/
def actors (rows : List Remap) : List ActorId :=
  (db.keys.filter fun key => rows.any fun row => row.old = key.accountUuid).map
    KeyRow.storageActorId

/-- What is recorded about a uuid that is replaced. -/
def retire (now : Nat) (pending : List RecordedRow) (row : Remap) : List RecordedRow :=
  match Table.lookup RecordedRow.account row.old pending with
  | none => Table.insert ⟨row.old, ⟨now, "account_uuid_migrated", some now⟩⟩ pending
  | some _ => Table.update RecordedRow.account row.old (RecordedRow.retired now) pending

/-- The UPDATEs and INSERTs of the transaction, for the rows that were not applied before. -/
def rename (rows : List Remap) (now : Nat) : MigrationDb :=
  { keys := db.keys.map fun key => { key with accountUuid := renamed rows key.accountUuid }
    -- the cache rows follow their keys, and name their custodians anew
    accounts := db.accounts.map fun cached =>
      ⟨renamed rows cached.account, renamedCustodian rows cached.row⟩
    links := db.links.map fun link =>
      { link with linked := link.linked.map fun linked =>
        { linked with accountsUuid := renamed rows linked.accountsUuid } }
    pending := rows.foldl (retire now)
      (db.pending.map fun recorded => ⟨renamed rows recorded.account, recorded.event⟩)
    webhookEvents := db.webhookEvents.map fun account => account.map (renamed rows)
    proofs := db.proofs.map fun proof =>
      if (db.actors rows).contains proof.owner
        then { proof with row := proof.row.invalidate "account_uuid_migrated" now }
      else proof
    ledger := db.ledger ++ rows }

/-- `migration_sql`, as the transaction that it is: the tables after it and its report. -/
def migrate (rows : List Remap) (apply : Bool) (now : Nat) :
    Except MigrationRefusal (MigrationDb × MigrationReport) :=
  match db.refusal rows with
  | some refusal => .error refusal
  | none =>
      let fresh := db.fresh rows
      let report : MigrationReport :=
        { apply := apply
          mappingRows := rows.length
          newMappings := fresh.length
          storageKeysPreserved := (db.actors fresh).length
          alreadyApplied := rows.length - fresh.length }
      .ok (if apply then db.rename fresh now else db, report)

end MigrationDb

end Waveform.Operator
