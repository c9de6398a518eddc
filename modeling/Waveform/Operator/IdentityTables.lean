import Waveform.Control.Settings
import Waveform.Directory.Account
import Waveform.Library.Table
import Waveform.Storage.Proofs

/-!
# Identity tables

The tables that say which account owns which private storage key, and those that the operator's
commands read beside them. An account holds one key and a key has one holder: both columns of
`waveform_account_keys` are unique, and the cache row of an account refers to its key.

Each statement that a constraint can refuse is a function to `Option`, and nothing is what a refused
statement leaves of the transaction around it. Columns that no command reads are left out.

- `IdentityDb.Constraints`: what PostgreSQL enforces of the rows.
- `IdentityDb.insertKey`, `pointKey`, `insertAccount`, `deleteKey`, `markLink`: the statements.
-/

set_option autoImplicit false

namespace Waveform.Operator

open Waveform.Domain
open Waveform.Control (Settings)
open Waveform.Directory (AccountRow PendingEvent)
open Waveform.Storage (ProofRow)
open Waveform.Store (storableText)

/-! ## Rows -/

/-- `KeySource`. -/
inductive KeySource where
  | signIn
  | proof
  | lookup
  | linkIdentities
  deriving DecidableEq

/-- A row of `waveform_account_keys`. -/
structure KeyRow where
  accountUuid : AccountUuid
  storageActorId : ActorId
  kind : ActorKind
  source : KeySource
  deriving DecidableEq

/-- A key that is pointed at another storage key. -/
def KeyRow.pointed (storageKey : ActorId) (key : KeyRow) : KeyRow :=
  { key with storageActorId := storageKey, source := .linkIdentities }

/-- The account that a principal was linked to, and when: `accounts_uuid` and `linked_at` are set
together. -/
structure Linked where
  accountsUuid : AccountUuid
  linkedAt : Nat
  deriving DecidableEq

/-- A row of `waveform_identity_links`. -/
structure LinkRow where
  iamPrincipalId : String
  iamPublicId : Option String
  storageActorId : ActorId
  linked : Option Linked
  deriving DecidableEq

/-- A row under a storage key, as far as a command reads it: whose it is and when it was written. -/
structure DatedRow where
  owner : ActorId
  writtenAt : Nat

/-- A job or an idempotency record, which also has the kind of its account. -/
structure KindRow extends DatedRow where
  kind : ActorKind

/-- A row of `waveform_storage_proofs`. -/
structure OwnedProof where
  owner : ActorId
  row : ProofRow

/-- A row of `waveform_storage_grants`. -/
structure GrantRow where
  actorId : ActorId
  invalidatedAt : Option Nat
  deriving DecidableEq

/-- The tables. -/
structure IdentityDb where
  keys : List KeyRow
  accounts : AccountUuid → Option AccountRow
  pending : AccountUuid → Option PendingEvent
  links : List LinkRow
  jobs : List KindRow
  records : List KindRow
  proofs : List OwnedProof
  heldAudio : List DatedRow
  bugReports : List ActorId
  settings : Settings
  grants : List GrantRow

namespace IdentityDb

variable (db : IdentityDb)

/-- The key of an account. -/
def keyOf (account : AccountUuid) : Option KeyRow := Table.lookup KeyRow.accountUuid account db.keys

/-- The row that holds a storage key. -/
def holder (storageKey : ActorId) : Option KeyRow :=
  Table.lookup KeyRow.storageActorId storageKey db.keys

/-- The link of a principal. -/
def linkOf (principal : String) : Option LinkRow :=
  Table.lookup LinkRow.iamPrincipalId principal db.links

/-- What PostgreSQL enforces: the unique columns, and that a cache row has a key. -/
structure Constraints : Prop where
  accounts : Table.Unique KeyRow.accountUuid db.keys
  storageKeys : Table.Unique KeyRow.storageActorId db.keys
  principals : Table.Unique LinkRow.iamPrincipalId db.links
  cached : ∀ account row, db.accounts account = some row → ∃ key, db.keyOf account = some key

variable {db}

theorem keyOf_eq_some_iff (h : db.Constraints) {account : AccountUuid} {key : KeyRow} :
    db.keyOf account = some key ↔ key ∈ db.keys ∧ key.accountUuid = account :=
  Table.lookup_eq_some_iff h.accounts

theorem holder_eq_some_iff (h : db.Constraints) {storageKey : ActorId} {key : KeyRow} :
    db.holder storageKey = some key ↔ key ∈ db.keys ∧ key.storageActorId = storageKey :=
  Table.lookup_eq_some_iff h.storageKeys

/-- **An account and its key name each other.** -/
theorem keyOf_iff_holder (h : db.Constraints) {key : KeyRow} :
    db.keyOf key.accountUuid = some key ↔ db.holder key.storageActorId = some key := by
  rw [keyOf_eq_some_iff h, holder_eq_some_iff h]
  exact ⟨fun hkey => ⟨hkey.1, rfl⟩, fun hkey => ⟨hkey.1, rfl⟩⟩

theorem holder_of_keyOf (h : db.Constraints) {account : AccountUuid} {key : KeyRow}
    (hkey : db.keyOf account = some key) :
    key.accountUuid = account ∧ db.holder key.storageActorId = some key := by
  obtain ⟨hmem, rfl⟩ := (keyOf_eq_some_iff h).mp hkey
  exact ⟨rfl, (holder_eq_some_iff h).mpr ⟨hmem, rfl⟩⟩

theorem keyOf_of_holder (h : db.Constraints) {storageKey : ActorId} {key : KeyRow}
    (hkey : db.holder storageKey = some key) : key.storageActorId = storageKey ∧
    db.keyOf key.accountUuid = some key := by
  obtain ⟨hmem, rfl⟩ := (holder_eq_some_iff h).mp hkey
  exact ⟨rfl, (keyOf_eq_some_iff h).mpr ⟨hmem, rfl⟩⟩

/-! ## Statements -/

variable (db)

/-- An INSERT into `waveform_account_keys`, which leaves a key the account has: the storage key must
be free. -/
def insertKey (key : KeyRow) : Option IdentityDb :=
  if (db.keyOf key.accountUuid).isSome then some db
  else if (db.holder key.storageActorId).isSome then none
  else some { db with keys := Table.insert key db.keys }

/-- The UPDATE that points an account at another storage key: no other account may hold it. -/
def pointKey (account : AccountUuid) (storageKey : ActorId) : Option IdentityDb :=
  if db.keys.any fun key => key.storageActorId = storageKey && key.accountUuid ≠ account then none
  else
    some { db with
      keys := Table.update KeyRow.accountUuid account (KeyRow.pointed storageKey) db.keys }

/-- The DELETE of a key that this command made: no cache row may refer to it. -/
def deleteKey (account : AccountUuid) : Option IdentityDb :=
  if (db.accounts account).isSome then none
  else some { db with keys := db.keys.filter fun key =>
    !(key.accountUuid = account && key.source = .linkIdentities) }

/-- The INSERT into `waveform_accounts`, which leaves a row that is there: it must be storable and
have a key. -/
def insertAccount (account : AccountUuid) (row : AccountRow) : Option IdentityDb :=
  if (db.accounts account).isSome then some db
  else if row.storable && (db.keyOf account).isSome then
    some { db with accounts := Function.update db.accounts account (some row) }
  else none

/-- The DELETE from `waveform_accounts`. -/
def deleteAccount (account : AccountUuid) : IdentityDb :=
  { db with accounts := Function.update db.accounts account none }

end IdentityDb

/-- A link that is marked: an account that it already has keeps its time. -/
def LinkRow.marked (account : AccountUuid) (now : Nat) (link : LinkRow) : LinkRow :=
  { link with linked :=
    (link.linked.filter fun linked => linked.accountsUuid = account).or (some ⟨account, now⟩) }

/-- A principal that `waveform_identity_links` can hold. -/
def storablePrincipal (principal : String) : Bool :=
  storableText principal && decide (1 ≤ principal.length ∧ principal.length ≤ 255)

theorem storableText_of_storablePrincipal {principal : String}
    (h : storablePrincipal principal = true) : storableText principal = true := by
  unfold storablePrincipal at h
  exact (Bool.and_eq_true _ _ ▸ h).1

/-- `mark_link`: a principal that has a link keeps its storage key. -/
def IdentityDb.markLink (db : IdentityDb) (now : Nat) (principal : String) (account : AccountUuid)
    (storageKey : ActorId) : Option IdentityDb :=
  if !storablePrincipal principal then none
  else if (db.linkOf principal).isSome then
    some { db with
      links := Table.update LinkRow.iamPrincipalId principal (LinkRow.marked account now) db.links }
  else
    some { db with
      links := Table.insert ⟨principal, none, storageKey, some ⟨account, now⟩⟩ db.links }

/-! Uuids of the kind that accounts had at first. -/

theorem accountUuidValid_zQo : accountUuidValid "zQo" = true := by decide +kernel

theorem accountUuidValid_K1E : accountUuidValid "K1E" = true := by decide +kernel

end Waveform.Operator
