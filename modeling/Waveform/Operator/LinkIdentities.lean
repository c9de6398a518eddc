import Mathlib.Data.List.Destutter
import Waveform.Operator.Mapping

/-!
# Linking identities

`link-identities` gives each account of a mapping the private storage key that its principal's rows
already use, and folds the settings the principal saved under former orgs into the account's `@`
rows. It is one transaction: a conflict or a dry run rolls all of it back.

`now()` is the start of the transaction. `Uuid::parse_str` is a parameter. Rows that a query may
return in any order are taken in the order of the table.

- `linkOne`, `linkRow`: one row of the mapping.
- `consolidate`: the settings of one storage key.
- `linkIdentities`: the whole run.
-/

set_option autoImplicit false

namespace Waveform.Operator

open Waveform.Domain
open Waveform.Control (PreferenceRow ProviderKeyRow KeyContext Settings)
open Waveform.Directory (AccountRow PendingEvent)
open Waveform.Store (accountScope storableText)

/-- `LinkOptions`. -/
structure LinkOptions where
  dryRun : Bool := false
  merge : Bool := false
  relink : Bool := false

/-- A problem that stops a run. -/
inductive LinkConflict where
  | unknownKind (line : Nat) (name : String)
  | twoIdentities (earlier line : Nat) (account : AccountUuid)
  | twoAccounts (earlier line : Nat)
  | heldByOther (line : Nat) (name : String) (other : AccountUuid)
  | usedSinceLink (line : Nat) (other : AccountUuid)
  | linkedElsewhere (line : Nat) (account : AccountUuid)
  | ownKey (line : Nat) (account : AccountUuid) (name : String)
  | ownData (line : Nat) (account : AccountUuid) (name : String)
  deriving DecidableEq

/-- The text of a conflict. -/
def LinkConflict.text : LinkConflict → String
  | .unknownKind line name =>
      s!"line {line}: Waveform cannot tell whether {name} is a Carbon or a Silicon (its rows hold settings only); map its c:/si: id instead"
  | .twoIdentities earlier line account =>
      s!"lines {earlier} and {line} map different legacy identities to account " ++ account.asStr ++
        "; nothing changed"
  | .twoAccounts earlier line =>
      s!"lines {earlier} and {line} map the same legacy storage key to different accounts; nothing changed"
  | .heldByOther line name other =>
      s!"line {line}: the Waveform data of {name} already belongs to account " ++ other.asStr ++
        "; re-run with --relink to move it (allowed only for links this command made)"
  | .usedSinceLink line other =>
      s!"line {line}: account " ++ other.asStr ++
        " has used its linked data; --relink is only for corrections before use and cannot transfer that activity"
  | .linkedElsewhere line account =>
      s!"line {line}: account " ++ account.asStr ++
        " is already linked to a different legacy identity; --merge cannot combine distinct identities"
  | .ownKey line account name =>
      s!"line {line}: account " ++ account.asStr ++
        s!" already has its own Waveform key (it signed in after the cutover started); re-run with --merge to point it at {name}'s data"
  | .ownData line account name =>
      s!"line {line}: account " ++ account.asStr ++
        s!" already has Waveform data under its new key, so {name}'s data cannot be merged automatically"

/-! ## What is known of a principal -/

/-- What a principal had before accounts. -/
inductive Legacy where
  | found (storageKey : ActorId) (kind : ActorKind) (publicId : Option String)
  | noData
  | unknownKind
  deriving DecidableEq

namespace IdentityDb

/-- `kind_from_rows`: the kind that the rows of a storage key have. -/
def kindFromRows (db : IdentityDb) (storageKey : ActorId) (publicId : Option String) : Legacy :=
  match (db.jobs ++ db.records).find? fun row => row.owner = storageKey with
  | some row => .found storageKey row.kind publicId
  | none =>
      if (db.settings.preferences.any fun row => row.actorId = storageKey) ||
          (db.settings.providerKeys.any fun row => row.actorId = storageKey) ||
            db.bugReports.contains storageKey then
        .unknownKind
      else .noData

/-- A UUID that is not nil. -/
def storageKey? (uuid : Uuid) : Option ActorId :=
  if h : uuid = Uuid.nil then none else some ⟨uuid, h⟩

/-- `legacy_key`. -/
def legacyKey (parseUuid : String → Option Uuid) (db : IdentityDb) (principal : String) : Legacy :=
  match db.linkOf principal with
  | some link =>
      match link.iamPublicId.bind publicIdKind with
      | some kind => .found link.storageActorId kind link.iamPublicId
      | none => db.kindFromRows link.storageActorId link.iamPublicId
  | none =>
      -- accounts imported before public ids kept the principal's UUID as their key
      match (parseUuid principal).bind storageKey? with
      | some storageKey => db.kindFromRows storageKey none
      | none => .noData

/-- `key_has_data`. -/
def keyHasData (db : IdentityDb) (storageKey : ActorId) : Bool :=
  (db.jobs.any fun row => row.owner = storageKey) ||
    (db.settings.preferences.any fun row => row.actorId = storageKey) ||
    (db.settings.providerKeys.any fun row => row.actorId = storageKey) ||
    (db.records.any fun row => row.owner = storageKey) ||
    db.bugReports.contains storageKey ||
    (db.proofs.any fun proof => proof.owner = storageKey) ||
    (db.heldAudio.any fun row => row.owner = storageKey)

/-- `min(linked_at)` of the links of a storage key to an account. -/
def linkedSince (db : IdentityDb) (storageKey : ActorId) (account : AccountUuid) : Option Nat :=
  ((db.links.filter fun link => link.storageActorId = storageKey).filterMap fun link =>
    (link.linked.filter fun linked => linked.accountsUuid = account).map Linked.linkedAt).min?

/-- Whether something of the storage key was written, or of its account announced, after an
instant. -/
def usedAfter (db : IdentityDb) (storageKey : ActorId) (account : AccountUuid) (since : Nat) :
    Bool :=
  (db.jobs.any fun row => row.owner = storageKey && since < row.writtenAt) ||
    (db.settings.preferences.any fun row => row.actorId = storageKey && since < row.updatedAt) ||
    (db.settings.providerKeys.any fun row => row.actorId = storageKey && since < row.updatedAt) ||
    (db.records.any fun row => row.owner = storageKey && since < row.writtenAt) ||
    (db.proofs.any fun proof => proof.owner = storageKey && since < proof.row.updatedAt) ||
    (db.heldAudio.any fun row => row.owner = storageKey && since < row.writtenAt) ||
    ((db.accounts account).any fun row =>
      (row.idChangedAt.any fun changed => since < changed) || row.custodianChangedAt.any
        fun changed => since < changed)

/-- `used_since_link`: nothing is after a link that is not there. -/
def usedSinceLink (db : IdentityDb) (storageKey : ActorId) (account : AccountUuid) : Bool :=
  (db.linkedSince storageKey account).any fun since => db.usedAfter storageKey account since

/-! ## One row of the mapping -/

/-- What an account that loses its key leaves to its next first sighting. -/
def keptEvent (row : AccountRow) (before : Nat) : Option PendingEvent → PendingEvent
  | none => ⟨before, row.revokedReason.getD "account_deleted", row.deletedAt⟩
  | some earlier =>
      { earlier with
          revokedBefore := max earlier.revokedBefore before
          deletedAt := earlier.deletedAt.or row.deletedAt }

/-- The fence of an account is kept as what was recorded before a first sighting. -/
def keepFence (db : IdentityDb) (account : AccountUuid) : IdentityDb :=
  match db.accounts account with
  | none => db
  | some row =>
      match row.revokedBefore.or row.deletedAt with
      | none => db
      | some before =>
          { db with
              pending := Function.update db.pending account
                (some (keptEvent row before (db.pending account))) }

/-- An account gives up the storage key that an earlier run linked it to. -/
def release (db : IdentityDb) (account : AccountUuid) : Option IdentityDb :=
  ((db.keepFence account).deleteAccount account).deleteKey account

/-- The cache row of an account that is linked before it was seen. -/
def linkedRow (kind : ActorKind) (publicId : Option String) : AccountRow :=
  { kind := kind, currentId := publicId.filter fun id => publicIdKind id = some kind }

/-- The second half of `link_one`, where the storage key is free. -/
def claimKey (db : IdentityDb) (now : Nat) (options : LinkOptions) (row : MappingRow)
    (storageKey : ActorId)
    (kind : ActorKind) (publicId : Option String) :
    Option (IdentityDb × Except LinkConflict Bool) :=
  match (db.keyOf row.account).filter fun key => key.storageActorId ≠ storageKey with
  | some fresh =>
      if db.links.any fun link =>
          (link.linked.any fun linked => linked.accountsUuid = row.account) && link.storageActorId ≠
            storageKey then
        some (db, .error (.linkedElsewhere row.line row.account))
      else if !options.merge then some (db, .error (.ownKey row.line row.account row.principal))
      else if db.keyHasData fresh.storageActorId
        then some (db, .error (.ownData row.line row.account row.principal))
      else do
        let pointed ← db.pointKey row.account storageKey
        let marked ← pointed.markLink now row.principal row.account storageKey
        some (marked, .ok true)
  | none => do
      let keyed ← db.insertKey ⟨row.account, storageKey, kind, .linkIdentities⟩
      let cached ← keyed.insertAccount row.account (linkedRow kind publicId)
      let marked ← cached.markLink now row.principal row.account storageKey
      some (marked, .ok true)

/-- `link_one`: linked now, linked already, or a conflict. Nothing is a statement that a constraint
refused. -/
def linkOne (db : IdentityDb) (now : Nat) (options : LinkOptions) (row : MappingRow)
    (storageKey : ActorId)
    (kind : ActorKind) (publicId : Option String) :
    Option (IdentityDb × Except LinkConflict Bool) :=
  match db.holder storageKey with
  | none => db.claimKey now options row storageKey kind publicId
  | some held =>
      if held.accountUuid = row.account then do
        let marked ← db.markLink now row.principal row.account storageKey
        some (marked, .ok false)
      else if !(options.relink && held.source = .linkIdentities) then
        some (db, .error (.heldByOther row.line row.principal held.accountUuid))
      else if db.usedSinceLink storageKey held.accountUuid then
        some (db, .error (.usedSinceLink row.line held.accountUuid))
      else do
        let freed ← db.release held.accountUuid
        freed.claimKey now options row storageKey kind publicId

/-! ## Settings -/

/-- The INSERT of `consolidate` into the preferences: the newest legacy row becomes the `@` row,
unless there is one. -/
def consolidatePreferences (settings : Settings) (storageKey : ActorId) : Settings × Nat :=
  match settings.accountRow storageKey, settings.legacyRow storageKey with
  | none, some legacy =>
      ({ settings with preferences := { legacy with orgId := accountScope } ::
        settings.preferences }, 1)
  | _, _ => (settings, 0)

/-- The newest legacy row of each provider without an `@` row. -/
def legacyKeys (settings : Settings) (storageKey : ActorId) : List ProviderKeyRow :=
  let owned := settings.providerKeys.filter fun row => row.actorId = storageKey
  let legacy := owned.filter fun row => row.orgId ≠ accountScope
  let saved := (owned.filter fun row => row.orgId = accountScope).map ProviderKeyRow.provider
  let providers := (legacy.map ProviderKeyRow.provider).dedup.filter fun provider =>
    !saved.contains provider
  providers.filterMap fun provider =>
    (legacy.filter fun row => row.provider = provider).argmax ProviderKeyRow.updatedAt

/-- A legacy key, sealed again for the `@` row. -/
def reseal (vault : Option Vault) (storageKey : ActorId) (row : ProviderKeyRow) :
    Option (Cipher KeyContext) :=
  vault.bind fun vault =>
    (vault.openSecret (.legacy row.orgId storageKey row.provider) row.secretCipher).map
      fun secret =>
      vault.sealSecret secret (.account storageKey row.provider)

/-- One turn of the loop over legacy keys: `ON CONFLICT DO NOTHING` keeps an `@` row that is
there. -/
def saveResealed (storageKey : ActorId) (now : Nat) (settings : Settings) (row : ProviderKeyRow)
    (cipher : Cipher KeyContext) : Settings :=
  if settings.providerKeys.any fun other =>
      other.actorId = storageKey && other.provider = row.provider && other.orgId = accountScope
        then settings
  else
    { settings with
        providerKeys := ⟨accountScope, storageKey, row.provider, cipher, now⟩ ::
          settings.providerKeys }

/-- The provider keys of `consolidate`: what is saved, and how many keys were resealed and
skipped. -/
def resealKeys (vault : Option Vault) (storageKey : ActorId) (now : Nat) :
    List ProviderKeyRow → Settings → Settings × Nat × Nat
  | [], settings => (settings, 0, 0)
  | row :: rest, settings =>
      match reseal vault storageKey row with
      | some cipher =>
          let (saved, resealed, skipped) :=
            resealKeys vault storageKey now rest (saveResealed storageKey now settings row cipher)
          (saved, resealed + 1, skipped)
      | none =>
          let (saved, resealed, skipped) := resealKeys vault storageKey now rest settings
          (saved, resealed, skipped + 1)

/-- The UPDATE that retires the grants of a storage key. -/
def retireGrant (storageKey : ActorId) (now : Nat) (grant : GrantRow) : GrantRow :=
  if grant.actorId = storageKey ∧ grant.invalidatedAt = none
    then { grant with invalidatedAt := some now } else grant

end IdentityDb

/-! ## Runs -/

/-- `LinkReport`. -/
structure LinkReport where
  dryRun : Bool
  rows : Nat
  linked : Nat := 0
  alreadyLinked : Nat := 0
  unmatched : List String := []
  conflicts : List LinkConflict := []
  preferencesConsolidated : Nat := 0
  providerKeysResealed : Nat := 0
  providerKeysSkipped : Nat := 0
  storageGrantsInvalidated : Nat := 0

/-- `consolidate`. -/
def consolidate (vault : Option Vault) (now : Nat) (storageKey : ActorId)
    (state : IdentityDb × LinkReport) :
    IdentityDb × LinkReport :=
  let (db, report) := state
  let (preferred, consolidated) := IdentityDb.consolidatePreferences db.settings storageKey
  let (saved, resealed, skipped) :=
    IdentityDb.resealKeys vault storageKey now (IdentityDb.legacyKeys preferred storageKey)
      preferred
  let retired := (db.grants.filter fun grant => grant.actorId = storageKey ∧
    grant.invalidatedAt = none).length
  ({ db with settings := saved, grants := db.grants.map (IdentityDb.retireGrant storageKey now) },
    { report with
        preferencesConsolidated := report.preferencesConsolidated + consolidated
        providerKeysResealed := report.providerKeysResealed + resealed
        providerKeysSkipped := report.providerKeysSkipped + skipped
        storageGrantsInvalidated := report.storageGrantsInvalidated + retired })

/-- The loop over the rows: `account_sources` and `key_targets` remember what the rows so far
map. -/
structure LinkLoop where
  db : IdentityDb
  report : LinkReport
  linkedKeys : List ActorId
  accountSources : AccountUuid → Option (ActorId × Nat)
  keyTargets : ActorId → Option (AccountUuid × Nat)

namespace LinkLoop

/-- A row that stops the run: the rows after it are still looked at. -/
def conflict (loop : LinkLoop) (conflict : LinkConflict) : LinkLoop :=
  { loop with report := { loop.report with conflicts := loop.report.conflicts ++ [conflict] } }

/-- What `link_one` answered. -/
def answered (loop : LinkLoop) (storageKey : ActorId)
    (answer : IdentityDb × Except LinkConflict Bool) : LinkLoop :=
  match answer with
  | (db, .error conflict) => ({ loop with db := db } : LinkLoop).conflict conflict
  | (db, .ok true) =>
      { loop with
          db := db
          report := { loop.report with linked := loop.report.linked + 1 }
          linkedKeys := loop.linkedKeys ++ [storageKey] }
  | (db, .ok false) =>
      { loop with
          db := db
          report := { loop.report with alreadyLinked := loop.report.alreadyLinked + 1 }
          linkedKeys := loop.linkedKeys ++ [storageKey] }

/-- A row with a storage key. -/
def linkFound (now : Nat) (options : LinkOptions) (loop : LinkLoop) (row : MappingRow)
    (storageKey : ActorId)
    (kind : ActorKind) (publicId : Option String) : Option LinkLoop :=
  let sources := Function.update loop.accountSources row.account (some (storageKey, row.line))
  match (loop.accountSources row.account).filter fun previous => previous.1 ≠ storageKey with
  | some (_, line) => some (({ loop with accountSources := sources } : LinkLoop).conflict
      (.twoIdentities line row.line row.account))
  | none =>
      let targets := Function.update loop.keyTargets storageKey (some (row.account, row.line))
      let noted : LinkLoop := { loop with accountSources := sources, keyTargets := targets }
      match (loop.keyTargets storageKey).filter fun previous => previous.1 ≠ row.account with
      | some (_, line) => some (noted.conflict (.twoAccounts line row.line))
      | none => (loop.db.linkOne now options row storageKey kind publicId).map
          (noted.answered storageKey)

/-- One turn of the loop of `link_identities`. -/
def linkRow (parseUuid : String → Option Uuid) (now : Nat) (options : LinkOptions) (loop : LinkLoop)
    (row : MappingRow) :
    Option LinkLoop :=
  -- the query of `legacy_key` fails for text that PostgreSQL does not take
  if !storableText row.principal then none
  else
    match loop.db.legacyKey parseUuid row.principal with
    | .noData =>
        let unmatched := loop.report.unmatched ++ [row.principal]
        some { loop with report := { loop.report with unmatched := unmatched } }
    | .unknownKind => some (loop.conflict (.unknownKind row.line row.principal))
    | .found storageKey kind publicId => loop.linkFound now options row storageKey kind publicId

end LinkLoop

/-- The loop before the first row. -/
def startLoop (db : IdentityDb) (rows : List MappingRow) (options : LinkOptions) : LinkLoop where
  db := db
  report := { dryRun := options.dryRun, rows := rows.length }
  linkedKeys := []
  accountSources := fun _ => none
  keyTargets := fun _ => none

/-- The storage keys that are consolidated, in order and each once. -/
def sortedKeys (keys : List ActorId) : List ActorId :=
  (keys.mergeSort fun key key' => decide (key.asUuid ≤ key'.asUuid)).destutter (· ≠ ·)

/-- `link_identities`: the database after the run and its report; nothing when a statement
failed. -/
def linkIdentities (parseUuid : String → Option Uuid) (vault : Option Vault) (now : Nat)
    (options : LinkOptions)
    (rows : List MappingRow) (db : IdentityDb) : Option (IdentityDb × LinkReport) := do
  let loop ← rows.foldlM (LinkLoop.linkRow parseUuid now options) (startLoop db rows options)
  if loop.report.conflicts ≠ [] then some (db, loop.report)
  else
    let (linked, report) := (sortedKeys loop.linkedKeys).foldl
      (fun state key => consolidate vault now key state)
      (loop.db, loop.report)
    if options.dryRun then some (db, report) else some (linked, report)

end Waveform.Operator
