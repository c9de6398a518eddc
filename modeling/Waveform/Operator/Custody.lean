import Waveform.Operator.LinkSafety

/-!
# Accounts while identities are linked

Accounts sign in, are renamed, signed out and deleted while an operator links identities and
corrects earlier links. Both write the accounts' keys, their cache rows and what is recorded before
a first sighting.

A sighting or a webhook is one transaction that holds the account's lock, and so one step: one that
fails leaves the tables. `link_one` does not take these locks, and another transaction could commit
between two of its statements. The cutover therefore stops the API for a run of the command: the
runs here are between a stop and a start, and one step each.

- `refusing_next`: an event about one account.
- `Custody.linkIdentities`: a run of the command.
- `custody_run`: any order of both.
-/

set_option autoImplicit false

namespace Waveform.Operator

open Waveform.Domain
open Waveform.Directory
open IdentityDb LabelledRun

/-! ## One account -/

section Account

variable {account : Account} {instant : Nat} {row : AccountRow} {recorded : PendingEvent}

/-- The cache row refuses what was issued before an instant. -/
def RowRefuses (instant : Nat) (row : AccountRow) : Prop :=
  row.deletedAt.isSome ∨ ∃ before ∈ row.revokedBefore, instant ≤ before

/-- What was recorded refuses it. -/
def EventRefuses (instant : Nat) (recorded : PendingEvent) : Prop :=
  recorded.deletedAt.isSome ∨ instant ≤ recorded.revokedBefore

/-- What is refused is refused by the row or by what was recorded. -/
theorem refusing_iff (account : Account) :
    Refusing instant account ↔
      (∃ row, account.row = some row ∧ RowRefuses instant row) ∨
        ∃ recorded, account.pending = some recorded ∧ EventRefuses instant recorded := by
  obtain ⟨key, row, pending⟩ := account
  unfold Refusing Account.deletedAt Account.fence RowRefuses EventRefuses
  cases row with
  | none =>
      cases pending with
      | none => simp
      | some recorded => simp
  | some row =>
      cases pending with
      | none => simp
      | some recorded =>
          cases hbefore : row.revokedBefore with
          | none => cases hdeleted : row.deletedAt <;> simp [hbefore, hdeleted]
          | some before =>
              cases hdeleted : row.deletedAt with
              | none =>
                  simp [hbefore, hdeleted]
                  tauto
              | some deleted => simp [hbefore, hdeleted]

theorem RowRefuses.endSignIns (h : RowRefuses instant row) (ended : Nat) (reason : String) :
    RowRefuses instant (row.endSignIns ended reason) := by
  refine h.imp_right ?_
  rintro ⟨before, hbefore, hle⟩
  have hsome : row.revokedBefore = some before := hbefore
  refine ⟨max before ended, ?_, hle.trans (Nat.le_max_left _ _)⟩
  unfold AccountRow.endSignIns
  dsimp only
  rw [hsome]
  rfl

theorem RowRefuses.foldSignOut (h : RowRefuses instant row) (recorded : PendingEvent) :
    RowRefuses instant (row.foldSignOut recorded) := by
  refine h.imp_right ?_
  rintro ⟨before, hbefore, hle⟩
  have hsome : row.revokedBefore = some before := hbefore
  refine ⟨max before recorded.revokedBefore, ?_, hle.trans (Nat.le_max_left _ _)⟩
  unfold AccountRow.foldSignOut
  dsimp only
  rw [hsome]
  rfl

/-- The row takes over what a recorded sign-out refused. -/
theorem rowRefuses_foldSignOut (row : AccountRow) (h : instant ≤ recorded.revokedBefore) :
    RowRefuses instant (row.foldSignOut recorded) := by
  right
  unfold AccountRow.foldSignOut
  dsimp only
  cases row.revokedBefore with
  | none => exact ⟨recorded.revokedBefore, rfl, h⟩
  | some before => exact ⟨max before recorded.revokedBefore, rfl, h.trans (Nat.le_max_right _ _)⟩

/-- A row that is purged refuses everything. -/
theorem rowRefuses_tombstone (row : AccountRow) (deleted : Nat) :
    RowRefuses instant (row.tombstone deleted) := by
  left
  unfold AccountRow.tombstone
  simp

theorem EventRefuses.pendingAfter (h : EventRefuses instant recorded) (occurred : Nat)
    (reason : String) (deleted : Bool) :
    EventRefuses instant (Account.pendingAfter (some recorded) occurred reason deleted) := by
  unfold Account.pendingAfter
  rcases h with hdeleted | hle
  · left
    simp [hdeleted]
  · exact .inr (hle.trans (Nat.le_max_left _ _))

/-- An event that is recorded. -/
theorem refusing_recordPendingEvent (h : Refusing instant account) (occurred : Nat)
    (reason : String) (deleted : Bool) :
    Refusing instant (account.recordPendingEvent occurred reason deleted) := by
  rw [refusing_iff] at h ⊢
  refine h.imp_right ?_
  rintro ⟨recorded, hpending, hrefuses⟩
  refine ⟨_, rfl, ?_⟩
  rw [hpending]
  exact hrefuses.pendingAfter occurred reason deleted

theorem refusing_endSignIns (h : Refusing instant account) (occurred : Nat) (reason : String) :
    Refusing instant (account.endSignIns occurred reason) := by
  unfold Account.endSignIns
  split
  · next key row hkey hrow =>
      rw [refusing_iff] at h ⊢
      refine h.imp_left ?_
      rintro ⟨row', hrow', hrefuses⟩
      obtain rfl := Option.some.inj (hrow.symm.trans hrow')
      exact ⟨_, rfl, hrefuses.endSignIns occurred reason⟩
  · exact refusing_recordPendingEvent h occurred reason false

/-- A key and a cache row are there together. -/
def Together (account : Account) : Prop := account.key.isSome = account.row.isSome

theorem refusing_purgeAccount (htogether : Together account) (h : Refusing instant account)
    (occurred : Nat) :
    Refusing instant (account.purgeAccount occurred) := by
  unfold Account.purgeAccount
  split
  · exact refusing_recordPendingEvent h occurred "account_deleted" true
  · next key hkey =>
      have hsome : account.row.isSome = true := by
        rw [← htogether, hkey]
        rfl
      obtain ⟨row, hrow⟩ := Option.isSome_iff_exists.mp hsome
      refine (refusing_iff _).mpr
        (.inl ⟨row.tombstone occurred, ?_, rowRefuses_tombstone row occurred⟩)
      dsimp only
      rw [hrow]
      rfl

/-- What was recorded is taken over by the row. -/
theorem refusing_foldPendingEvents (htogether : Together account) (hkey : account.key.isSome)
    (h : Refusing instant account) : Refusing instant account.foldPendingEvents := by
  unfold Account.foldPendingEvents
  split
  · exact h
  · next recorded hpending =>
      split
      · exact refusing_purgeAccount htogether h _
      · next hlive =>
          obtain ⟨row, hrow⟩ := Option.isSome_iff_exists.mp (htogether ▸ hkey)
          refine (refusing_iff _).mpr (.inl ⟨row.foldSignOut recorded, ?_, ?_⟩)
          · dsimp only
            rw [hrow]
            rfl
          · rcases (refusing_iff _).mp h with ⟨row', hrow', hrefuses⟩ |
              ⟨recorded', hpending', hrefuses⟩
            · obtain rfl := Option.some.inj (hrow.symm.trans hrow')
              exact hrefuses.foldSignOut recorded
            · obtain rfl := Option.some.inj (hpending.symm.trans hpending')
              rcases hrefuses with hdeleted | hle
              · rw [hlive] at hdeleted
                cases hdeleted
              · exact rowRefuses_foldSignOut row hle

theorem refusing_ensure (h : Refusing instant account) (newKey : ActorId)
    (kind : ActorKind) (idHint : Option String) (asOf : Option Nat) :
    Refusing instant (account.ensure newKey kind idHint asOf) := by
  unfold Account.ensure
  refine refusing_foldPendingEvents rfl rfl ((refusing_iff _).mpr ?_)
  refine ((refusing_iff _).mp h).imp_left ?_
  rintro ⟨row, hrow, hrefuses⟩
  refine ⟨_, rfl, ?_⟩
  unfold RowRefuses at hrefuses ⊢
  rw [Account.ensureRow_deletedAt, Account.ensureRow_revokedBefore, hrow]
  exact hrefuses

/-- An UPDATE of other columns. -/
theorem refusing_updateLive (h : Refusing instant account) (applies : AccountRow → Bool)
    {change : AccountRow → AccountRow}
    (hkeeps : ∀ row, (change row).revokedBefore = row.revokedBefore ∧
      (change row).deletedAt = row.deletedAt) :
    Refusing instant (account.updateLive applies change) := by
  unfold Refusing
  rw [account.updateLive_deletedAt applies fun row => (hkeeps row).2,
    account.updateLive_fence applies fun row => (hkeeps row).1]
  exact h

/-- **What is refused stays refused** after every event about the account. -/
theorem refusing_next (htogether : Together account) (h : Refusing instant account)
    (event : DirectoryEvent) :
    Refusing instant (account.next event) := by
  cases event with
  | ensure newKey kind idHint asOf => exact refusing_ensure h newKey kind idHint asOf
  | signedOut reason occurred =>
      unfold Account.next
      dsimp only
      split
      · exact h
      · exact refusing_endSignIns h occurred _
  | accessRemoved occurred => exact refusing_endSignIns h occurred "access_removed"
  | deleted occurred => exact refusing_purgeAccount htogether h occurred
  | custodianChanged named occurred now =>
      unfold Account.next Account.custodianChanged
      dsimp only
      split
      · exact h
      · exact refusing_updateLive h _ fun row => ⟨rfl, rfl⟩
  | _ => exact refusing_updateLive h _ fun row => ⟨rfl, rfl⟩

/-- The key and the cache row are made together and never taken away by an event. -/
theorem together_next (h : Together account) (event : DirectoryEvent) :
    Together (account.next event) := by
  have hpurge : ∀ {account : Account} (occurred : Nat), Together account →
      Together (account.purgeAccount occurred) := by
    intro account occurred h
    unfold Account.purgeAccount
    split
    · exact h
    · exact h.trans (Option.isSome_map).symm
  have hend : ∀ (occurred : Nat) (reason : String),
      Together (account.endSignIns occurred reason) := by
    intro occurred reason
    unfold Account.endSignIns
    split
    · next key row hkey hrow => exact congrArg Option.isSome hkey
    · exact h
  have hlive : ∀ (applies : AccountRow → Bool) (change : AccountRow → AccountRow),
      Together (account.updateLive applies change) := fun _ _ => h.trans (Option.isSome_map).symm
  cases event with
  | ensure newKey kind idHint asOf =>
      unfold Account.next Account.ensure Account.foldPendingEvents
      dsimp only
      split
      · rfl
      · split
        · exact hpurge _ rfl
        · rfl
  | signedOut reason occurred =>
      unfold Account.next
      dsimp only
      split
      · exact h
      · exact hend occurred _
  | accessRemoved occurred => exact hend occurred _
  | deleted occurred => exact hpurge occurred h
  | custodianChanged named occurred now =>
      unfold Account.next Account.custodianChanged
      dsimp only
      split
      · exact h
      · exact hlive _ _
  | _ => exact hlive _ _

/-- An event leaves a key that is there. -/
theorem key_next {key : AccountKey} (h : account.key = some key) (event : DirectoryEvent) :
    (account.next event).key = some key := by
  have hpurge : ∀ {account : Account} (occurred : Nat), (account.purgeAccount occurred).key =
      account.key := by
    intro account occurred
    unfold Account.purgeAccount
    split
    · rfl
    · rfl
  have hend : ∀ (occurred : Nat) (reason : String), (account.endSignIns occurred reason).key =
      account.key := by
    intro occurred reason
    unfold Account.endSignIns
    split
    · rfl
    · rfl
  cases event with
  | ensure newKey kind idHint asOf =>
      unfold Account.next Account.ensure Account.foldPendingEvents
      dsimp only
      rw [h]
      split
      · rfl
      · split
        · exact hpurge _
        · rfl
  | signedOut reason occurred =>
      unfold Account.next
      dsimp only
      split
      · exact h
      · exact (hend occurred _).trans h
  | accessRemoved occurred => exact (hend occurred _).trans h
  | deleted occurred => exact (hpurge occurred).trans h
  | custodianChanged named occurred now =>
      unfold Account.next Account.custodianChanged
      dsimp only
      split
      · exact h
      · exact h
  | _ => exact h

end Account

/-! ## The tables -/

namespace IdentityDb

/-- The rows about one account. -/
def account (db : IdentityDb) (uuid : AccountUuid) : Account where
  key := (db.keyOf uuid).map fun key => ⟨key.storageActorId, key.kind⟩
  row := db.accounts uuid
  pending := db.pending uuid

/-- The rows of one account, written back. -/
def withRows (db : IdentityDb) (uuid : AccountUuid) (account : Account) : IdentityDb :=
  { db with
      accounts := Function.update db.accounts uuid account.row
      pending := Function.update db.pending uuid account.pending }

/-- The DELETEs of `purge_account`: what is kept under a storage key, and the links to it. -/
def purged (db : IdentityDb) (storageKey : ActorId) : IdentityDb :=
  { db with
      links := db.links.filter fun link => link.storageActorId ≠ storageKey
      jobs := db.jobs.filter fun row => row.owner ≠ storageKey
      records := db.records.filter fun row => row.owner ≠ storageKey
      proofs := db.proofs.filter fun proof => proof.owner ≠ storageKey
      heldAudio := db.heldAudio.filter fun row => row.owner ≠ storageKey
      bugReports := db.bugReports.filter fun owner => owner ≠ storageKey
      settings :=
        { db.settings with
            preferences := db.settings.preferences.filter fun row => row.actorId ≠ storageKey
            providerKeys := db.settings.providerKeys.filter fun row => row.actorId ≠ storageKey } }

/-- Whether the transaction of an event goes through `purge_account`: a deletion, and a sighting of
an account whose deletion was recorded. -/
def purges (account : Account) : DirectoryEvent → Bool
  | .deleted _ => true
  | .ensure _ _ _ _ => account.pending.any fun recorded => recorded.deletedAt.isSome
  | _ => false

/-- The tables after those DELETEs, where the transaction makes them. -/
def purgedIf (db : IdentityDb) (storageKey : ActorId) (purging : Bool) : IdentityDb :=
  if purging then db.purged storageKey else db

/-- The transaction of an event about an account: a new storage key must be free. -/
def directory (db : IdentityDb) (uuid : AccountUuid) (source : KeySource)
    (event : DirectoryEvent) : Option IdentityDb :=
  let after := (db.account uuid).next event
  match after.key with
  | none => some (db.withRows uuid after)
  | some key =>
      (db.insertKey ⟨uuid, key.storageActorId, key.kind, source⟩).map fun keyed =>
        (keyed.purgedIf key.storageActorId (purges (db.account uuid) event)).withRows uuid after

variable {db db' : IdentityDb} {uuid other : AccountUuid} {source : KeySource}
  {event : DirectoryEvent}

/-- A purge leaves the keys, the cache rows and what was recorded. -/
theorem purgedIf_account (db : IdentityDb) (storageKey : ActorId) (purging : Bool)
    (uuid : AccountUuid) : (db.purgedIf storageKey purging).account uuid = db.account uuid := by
  unfold purgedIf
  split
  · rfl
  · rfl

/-- A purge takes rows away, so the constraints still hold. -/
theorem Constraints.purgedIf (h : db.Constraints) (storageKey : ActorId) (purging : Bool) :
    (db.purgedIf storageKey purging).Constraints := by
  unfold IdentityDb.purgedIf
  split
  · exact ⟨h.accounts, h.storageKeys, h.principals.sublist (List.filter_sublist.map _), h.cached⟩
  · exact h

/-- A new key is another row in each unique column. -/
theorem Constraints.insertKey {key : KeyRow} {keyed : IdentityDb} (h : db.Constraints)
    (hkeyed : db.insertKey key = some keyed) : keyed.Constraints := by
  unfold IdentityDb.insertKey at hkeyed
  split at hkeyed
  · obtain rfl := Option.some.inj hkeyed
    exact h
  · next hnokey =>
      split at hkeyed
      · cases hkeyed
      · next hfree =>
          obtain rfl := Option.some.inj hkeyed
          refine ⟨h.accounts.insert ?_, h.storageKeys.insert ?_, h.principals,
            fun uuid row hrow => ?_⟩
          · exact Option.not_isSome_iff_eq_none.mp hnokey
          · exact Option.not_isSome_iff_eq_none.mp hfree
          · obtain ⟨held, hheld⟩ := h.cached uuid row hrow
            unfold IdentityDb.keyOf
            rw [Table.lookup_insert]
            split
            · exact ⟨key, rfl⟩
            · exact ⟨held, hheld⟩

/-- **The tables refine the account**: a transaction changes the rows of its account as the event
does, and of no other. -/
theorem directory_account (h : db.directory uuid source event = some db') :
    db'.account uuid = (db.account uuid).next event ∧
      ∀ other ≠ uuid, db'.account other = db.account other := by
  have hrows : ∀ (keyed : IdentityDb) (after : Account), (keyed.withRows uuid after).account uuid =
      ⟨(keyed.account uuid).key, after.row, after.pending⟩ := by
    intro keyed after
    unfold IdentityDb.account IdentityDb.withRows
    simp only [Function.update_self]
    rfl
  have hother : ∀ (keyed : IdentityDb) (after : Account), ∀ other ≠ uuid,
      (keyed.withRows uuid after).account other = keyed.account other := by
    intro keyed after other hne
    unfold IdentityDb.account IdentityDb.withRows
    simp only [Function.update_of_ne hne]
    rfl
  unfold IdentityDb.directory at h
  dsimp only at h
  split at h
  · next hnone =>
      obtain rfl := Option.some.inj h
      refine ⟨?_, hother db _⟩
      rw [hrows]
      -- no key afterwards, so none before
      have hbefore : (db.account uuid).key = none := by
        cases hkey : (db.account uuid).key with
        | none => rfl
        | some key => cases hnone.symm.trans (key_next hkey event)
      rw [hbefore, ← hnone]
  · next key hkey =>
      obtain ⟨keyed, hkeyed, rfl⟩ := Option.map_eq_some_iff.mp h
      unfold IdentityDb.insertKey at hkeyed
      split at hkeyed
      · next hhas =>
          obtain rfl := Option.some.inj hkeyed
          refine ⟨?_, fun other hne => (hother _ _ other hne).trans (purgedIf_account ..)⟩
          obtain ⟨held, hheld⟩ := Option.isSome_iff_exists.mp hhas
          have hbefore : (db.account uuid).key = some ⟨held.storageActorId, held.kind⟩ := by
            unfold IdentityDb.account
            dsimp only
            rw [hheld]
            rfl
          rw [hrows, purgedIf_account, hbefore, ← key_next hbefore event]
      · split at hkeyed
        · cases hkeyed
        · obtain rfl := Option.some.inj hkeyed
          refine ⟨?_, fun other hne => (hother _ _ other hne).trans ?_⟩
          · rw [hrows, purgedIf_account]
            unfold IdentityDb.account IdentityDb.keyOf
            dsimp only
            rw [Table.lookup_insert, if_pos rfl, Option.map_some, ← hkey]
            rfl
          · rw [purgedIf_account]
            unfold IdentityDb.account IdentityDb.keyOf
            dsimp only
            rw [Table.lookup_insert, if_neg fun hsame => hne hsame.symm]

end IdentityDb

/-- What holds of the tables in every state: the constraints, and that keys and cache rows are there
together. -/
structure Custody (db : IdentityDb) : Prop where
  constraints : db.Constraints
  together : ∀ uuid, Together (db.account uuid)

/-- Custody holds afterwards, and every account still refuses what it refused. -/
structure KeepsCustody (db db' : IdentityDb) : Prop where
  custody : Custody db'
  refusing : ∀ uuid instant, Refusing instant (db.account uuid) →
    Refusing instant (db'.account uuid)

theorem KeepsCustody.refl {db : IdentityDb} (h : Custody db) : KeepsCustody db db :=
  ⟨h, fun _ _ => id⟩

theorem KeepsCustody.trans {db db' db'' : IdentityDb} (h : KeepsCustody db db')
    (h' : KeepsCustody db' db'') :
    KeepsCustody db db'' :=
  ⟨h'.custody, fun uuid instant hrefusing => h'.refusing uuid instant
    (h.refusing uuid instant hrefusing)⟩

section Linking

variable {db db' : IdentityDb} {now : Nat} {options : LinkOptions} {mapping : MappingRow}
  {storageKey : ActorId}
  {kind : ActorKind} {publicId : Option String} {uuid held : AccountUuid} {instant : Nat}

/-- The tables about an account are the same where its key, row and recorded events are. -/
theorem account_congr (hkey : db'.keyOf uuid = db.keyOf uuid)
    (hrow : db'.accounts uuid = db.accounts uuid)
    (hpending : db'.pending uuid = db.pending uuid) : db'.account uuid = db.account uuid := by
  unfold IdentityDb.account
  rw [hkey, hrow, hpending]

theorem together_iff : Together (db.account uuid) ↔
    (db.keyOf uuid).isSome = (db.accounts uuid).isSome := by
  unfold Together IdentityDb.account
  dsimp only
  rw [Option.isSome_map]

/-- An account that gives up its key keeps its fence as what was recorded. -/
theorem keepFence_pending (db : IdentityDb) (held : AccountUuid) :
    (db.keepFence held).pending uuid =
      if uuid = held then
        match (db.accounts held).bind fun row => (row.revokedBefore.or row.deletedAt).map
          (keptEvent row) with
        | none => db.pending held
        | some kept => some (kept (db.pending held))
      else db.pending uuid := by
  unfold IdentityDb.keepFence
  cases hrow : db.accounts held with
  | none =>
      dsimp only [Option.bind_none]
      split
      · next hsame => rw [hsame]
      · rfl
  | some row =>
      dsimp only [Option.bind_some]
      cases hbefore : row.revokedBefore.or row.deletedAt with
      | none =>
          dsimp only [Option.map_none]
          split
          · next hsame => rw [hsame]
          · rfl
      | some before =>
          dsimp only [Option.map_some]
          split
          · next hsame => rw [hsame, Function.update_self]
          · next hne => rw [Function.update_of_ne hne]

/-- What was recorded keeps refusing, with the row's fence or deletion added to it. -/
theorem eventRefuses_keptEvent {row : AccountRow} {recorded : PendingEvent}
    (h : EventRefuses instant recorded)
    (before : Nat) : EventRefuses instant (keptEvent row before (some recorded)) := by
  unfold keptEvent
  rcases h with hdeleted | hle
  · left
    dsimp only
    rw [Option.isSome_or, hdeleted, Bool.true_or]
  · exact .inr (hle.trans (Nat.le_max_left _ _))

/-- What the row refused is refused by what is kept of it. -/
theorem RowRefuses.kept {row : AccountRow} (h : RowRefuses instant row) {before : Nat}
    (hbefore : row.revokedBefore.or row.deletedAt = some before) (pending : Option PendingEvent) :
    EventRefuses instant (keptEvent row before pending) := by
  unfold keptEvent
  rcases h with hdeleted | ⟨revoked, hrevoked, hle⟩
  · left
    cases pending with
    | none => exact hdeleted
    | some earlier =>
        dsimp only
        rw [Option.isSome_or, hdeleted, Bool.or_true]
  · right
    have hsome : row.revokedBefore = some revoked := hrevoked
    rw [hsome, Option.some_or] at hbefore
    obtain rfl := Option.some.inj hbefore
    cases pending with
    | none => exact hle
    | some earlier => exact hle.trans (Nat.le_max_right _ _)

/-- **An account that gives up its key** still refuses what it refused. -/
theorem refusing_released (h : Refusing instant (db.account uuid)) :
    Refusing instant ((db.released held).account uuid) := by
  have hpending : ((db.released held).account uuid).pending = (db.keepFence held).pending uuid :=
    rfl
  have hrow : ((db.released held).account uuid).row = Function.update db.accounts held none uuid :=
    rfl
  rw [refusing_iff] at h ⊢
  rw [hpending, hrow, keepFence_pending]
  by_cases hsame : uuid = held
  · right
    rw [if_pos hsame]
    rw [hsame] at h
    rcases h with ⟨row, hrow, hrefuses⟩ | ⟨recorded, hrecorded, hrefuses⟩
    · have hrowOf : db.accounts held = some row := hrow
      -- a row that refuses something has a fence or a deletion
      have hsome : (row.revokedBefore.or row.deletedAt).isSome = true := by
        rw [Option.isSome_or]
        rcases hrefuses with hdeleted | ⟨before, hbefore, _⟩
        · rw [hdeleted, Bool.or_true]
        · rw [show row.revokedBefore = some before from hbefore]
          rfl
      obtain ⟨before, hbefore⟩ := Option.isSome_iff_exists.mp hsome
      rw [hrowOf, Option.bind_some, hbefore, Option.map_some]
      exact ⟨_, rfl, hrefuses.kept hbefore _⟩
    · have hrecordedOf : db.pending held = some recorded := hrecorded
      rw [hrecordedOf]
      cases hkept : (db.accounts held).bind fun row => (row.revokedBefore.or row.deletedAt).map
        (keptEvent row) with
      | none => exact ⟨recorded, rfl, hrefuses⟩
      | some kept =>
          obtain ⟨row, _, hrow⟩ := Option.bind_eq_some_iff.mp hkept
          obtain ⟨before, _, rfl⟩ := Option.map_eq_some_iff.mp hrow
          exact ⟨_, rfl, eventRefuses_keptEvent hrefuses before⟩
  · rw [if_neg hsame, Function.update_of_ne hsame]
    exact h

theorem Custody.released (h : Custody db) : Custody (db.released held) where
  constraints := h.constraints.released
  together := by
    intro uuid
    rw [together_iff, released_keyOf]
    change _ = (Function.update db.accounts held none uuid).isSome
    by_cases hsame : uuid = held
    · rw [if_pos hsame, hsame, Function.update_self]
      rfl
    · rw [if_neg hsame, Function.update_of_ne hsame]
      exact together_iff.mp (h.together uuid)

theorem Custody.freed (h : Custody db) (hfreed : Freed db options storageKey mapping.account db') :
    KeepsCustody db db' := by
  cases hfreed with
  | free => exact .refl h
  | relinked => exact ⟨h.released, fun _ _ => refusing_released⟩

/-- An account that gets a key refuses what it refused before: it had no cache row, or keeps it. -/
theorem Custody.claimed (h : Custody db) (hfree : db.holder storageKey = none)
    (hclaimed : Claimed db options storageKey kind publicId mapping.account db') :
    KeepsCustody db db' := by
  have hconstraints := hclaimed.constraints h.constraints hfree
  cases hclaimed with
  | new hnone =>
      have huncached : db.accounts mapping.account = none := by
        have htogether := together_iff.mp (h.together mapping.account)
        rw [hnone] at htogether
        exact Option.not_isSome_iff_eq_none.mp (by rw [← htogether]; exact Bool.false_ne_true)
      refine ⟨⟨hconstraints, fun uuid => ?_⟩, fun uuid instant hrefusing => ?_⟩
      · rw [together_iff, keyedFor_keyOf]
        change _ = (Function.update db.accounts mapping.account (some (linkedRow kind publicId))
          uuid).isSome
        by_cases hsame : mapping.account = uuid
        · rw [if_pos hsame, hsame, Function.update_self]
          rfl
        · rw [if_neg hsame, Function.update_of_ne fun h => hsame h.symm]
          exact together_iff.mp (h.together uuid)
      · rw [refusing_iff] at hrefusing ⊢
        refine hrefusing.imp_left ?_
        rintro ⟨row, hrow, hrefuses⟩
        refine ⟨row, ?_, hrefuses⟩
        refine (Function.update_of_ne ?_ _ _).trans hrow
        rintro rfl
        cases huncached.symm.trans hrow
  | merged hfresh =>
      refine ⟨⟨hconstraints, fun uuid => ?_⟩, fun _ _ => id⟩
      rw [together_iff, pointedTo_keyOf]
      have htogether := together_iff.mp (h.together uuid)
      split
      · rw [Option.isSome_map]
        exact htogether
      · exact htogether

theorem Custody.marked (h : Custody db) (principal : String) :
    Custody (db.marked now principal held storageKey) :=
  ⟨h.constraints.marked principal, h.together⟩

/-- **One row of a mapping.** -/
theorem Custody.linkStep {parseUuid : String → Option Uuid} (h : Custody db)
    (hstep : LinkStep parseUuid now options db mapping db') :
    KeepsCustody db db' := by
  cases hstep with
  | unmatched => exact .refl h
  | linked hfound hlinked =>
      cases hlinked with
      | already => exact ⟨h.marked _, fun _ _ => id⟩
      | claimed hfreed hclaimed =>
          have hkeeps := h.freed hfreed
          have hkeeps' := hkeeps.custody.claimed (hfreed.holder h.constraints) hclaimed
          exact (hkeeps.trans hkeeps').trans ⟨hkeeps'.custody.marked _, fun _ _ => id⟩

theorem Custody.of_same (h : Custody db) (hsame : SameIdentities db db') : KeepsCustody db db' := by
  have haccount : ∀ uuid, db'.account uuid = db.account uuid := by
    intro uuid
    unfold IdentityDb.account IdentityDb.keyOf
    rw [hsame.keys, hsame.accounts, hsame.pending]
  refine ⟨⟨hsame.constraints h.constraints, fun uuid => ?_⟩, fun uuid instant hrefusing => ?_⟩
  · rw [haccount]
    exact h.together uuid
  · rw [haccount]
    exact hrefusing

/-- **A run of the command.** -/
theorem Custody.linkIdentities {parseUuid : String → Option Uuid} {vault : Option Vault}
    {rows : List MappingRow}
    {report : LinkReport} (h : Custody db) (hrows : Accepted rows)
    (hrun : linkIdentities parseUuid vault now options rows db = some (db', report)) :
    KeepsCustody db db' := by
  rcases linkIdentities_run h.constraints hrows hrun with ⟨rfl, _⟩ |
    ⟨_, _, _, tr, linked, htr, _, hsame⟩
  · exact .refl h
  · have hlinked : KeepsCustody db linked :=
      htr.invariant (KeepsCustody db) (fun _ _ _ hs hstep => hs.trans (hs.custody.linkStep hstep))
      (.refl h)
    exact hlinked.trans (hlinked.custody.of_same hsame)

end Linking

/-! ## Any order of both -/

/-- The tables, and whether the API is running. -/
structure CustodyHost where
  db : IdentityDb
  serving : Bool

/-- What happens on the host. -/
inductive CustodyEvent where
  | start
  | stop
  | directory (uuid : AccountUuid) (source : KeySource) (event : DirectoryEvent)
  | data
  | forget (stale : AccountUuid → Bool)
  | link (text : String) (vault : Option Vault) (now : Nat) (options : LinkOptions)

/-- The background check forgets what was recorded about an account a week ago. -/
def CustodyEvent.forgets (uuid : AccountUuid) : CustodyEvent → Bool
  | .forget stale => stale uuid
  | _ => false

/-- A step. While the API runs: a transaction about an account that succeeds or fails, anything that
the accounts do with their data, or the DELETE of recorded events that are stale. While it is
stopped: a run of the command with a mapping that is accepted. -/
inductive CustodyStep (parseUuid : String → Option Uuid) :
    CustodyHost → CustodyEvent → CustodyHost → Prop where
  | start {db : IdentityDb} : CustodyStep parseUuid ⟨db, false⟩ .start ⟨db, true⟩
  | stop {db : IdentityDb} : CustodyStep parseUuid ⟨db, true⟩ .stop ⟨db, false⟩
  | directory {db db' : IdentityDb} {uuid : AccountUuid} {source : KeySource}
      {event : DirectoryEvent} (h : db.directory uuid source event = some db') :
      CustodyStep parseUuid ⟨db, true⟩ (.directory uuid source event) ⟨db', true⟩
  | failed {db : IdentityDb} {uuid : AccountUuid} {source : KeySource} {event : DirectoryEvent}
      (h : db.directory uuid source event = none) :
      CustodyStep parseUuid ⟨db, true⟩ (.directory uuid source event) ⟨db, true⟩
  | data {db db' : IdentityDb} (h : SameIdentities db db') :
      CustodyStep parseUuid ⟨db, true⟩ .data ⟨db', true⟩
  | forget {db : IdentityDb} {stale : AccountUuid → Bool} :
      CustodyStep parseUuid ⟨db, true⟩ (.forget stale)
        ⟨{ db with pending := fun uuid => if stale uuid then none else db.pending uuid }, true⟩
  | link {db db' : IdentityDb} {text : String} {rows : List MappingRow} {vault : Option Vault}
      {now : Nat} {options : LinkOptions} {report : LinkReport}
      (hparsed : parseMapping text = .ok rows)
      (h : linkIdentities parseUuid vault now options rows db = some (db', report)) :
      CustodyStep parseUuid ⟨db, false⟩ (.link text vault now options) ⟨db', false⟩

section Runs

variable {parseUuid : String → Option Uuid} {db db' : IdentityDb} {host host' : CustodyHost}
  {event : CustodyEvent} {uuid : AccountUuid} {instant : Nat}

/-- The transaction of an event keeps what holds of the tables. -/
theorem Custody.directory {source : KeySource} {about : AccountUuid} {event : DirectoryEvent}
    (h : Custody db)
    (hrun : db.directory about source event = some db') : Custody db' := by
  obtain ⟨habout, hothers⟩ := directory_account hrun
  have htogether : ∀ uuid, Together (db'.account uuid) := by
    intro uuid
    by_cases hsame : uuid = about
    · rw [hsame, habout]
      exact together_next (h.together about) event
    · rw [hothers uuid hsame]
      exact h.together uuid
  refine ⟨?_, htogether⟩
  have hcached : ∀ uuid row, db'.accounts uuid = some row → ∃ key, db'.keyOf uuid = some key := by
    intro uuid row hrow
    have hboth := together_iff.mp (htogether uuid)
    rw [hrow] at hboth
    exact Option.isSome_iff_exists.mp hboth
  have hrows : ∀ keyed : IdentityDb, keyed.Constraints → ∀ storageKey purging after,
      ((keyed.purgedIf storageKey purging).withRows about after) = db' → db'.Constraints := by
    rintro keyed hkeyed storageKey purging after rfl
    have hpurged := hkeyed.purgedIf storageKey purging
    exact ⟨hpurged.accounts, hpurged.storageKeys, hpurged.principals, hcached⟩
  unfold IdentityDb.directory at hrun
  dsimp only at hrun
  split at hrun
  · obtain rfl := Option.some.inj hrun
    exact ⟨h.constraints.accounts, h.constraints.storageKeys, h.constraints.principals, hcached⟩
  · obtain ⟨keyed, hkeyed, hdb'⟩ := Option.map_eq_some_iff.mp hrun
    exact hrows keyed (h.constraints.insertKey hkeyed) _ _ _ hdb'

/-- **One step**: what an account refused it still refuses, unless what was recorded about it is
forgotten. -/
theorem Custody.step (h : Custody host.db) (hstep : CustodyStep parseUuid host event host') :
    Custody host'.db ∧ ∀ uuid instant, event.forgets uuid = false →
      Refusing instant (host.db.account uuid) → Refusing instant (host'.db.account uuid) := by
  have hkept : KeepsCustody host.db host'.db → Custody host'.db ∧ ∀ uuid instant,
      event.forgets uuid = false → Refusing instant (host.db.account uuid) →
        Refusing instant (host'.db.account uuid) :=
    fun hkeeps => ⟨hkeeps.custody, fun uuid instant _ => hkeeps.refusing uuid instant⟩
  cases hstep with
  | start => exact hkept (.refl h)
  | stop => exact hkept (.refl h)
  | @directory db db' about source event hrun =>
      refine hkept ⟨h.directory hrun, fun uuid instant hrefusing => ?_⟩
      obtain ⟨habout, hothers⟩ := directory_account hrun
      by_cases hsame : uuid = about
      · rw [hsame] at hrefusing ⊢
        rw [habout]
        exact refusing_next (h.together about) hrefusing event
      · rwa [hothers uuid hsame]
  | failed => exact hkept (.refl h)
  | data hsame => exact hkept (h.of_same hsame)
  | @forget db stale =>
      refine ⟨⟨⟨h.constraints.accounts, h.constraints.storageKeys, h.constraints.principals,
        h.constraints.cached⟩, h.together⟩, fun uuid instant hremembered hrefusing => ?_⟩
      have hpending : ¬ stale uuid = true := by
        rw [show stale uuid = false from hremembered]
        exact Bool.false_ne_true
      have hsame := @account_congr db
        { db with pending := fun uuid => if stale uuid then none else db.pending uuid } uuid
        rfl rfl (if_neg hpending)
      rw [hsame]
      exact hrefusing
  | link hparsed hrun => exact hkept (h.linkIdentities (accepted_of_run hparsed hrun) hrun)

/-- **Whatever is linked and corrected between the times that accounts come and go**: the keys and
their accounts stay one to one, and what an account once refused it refuses in every later state,
for as long as nothing that was recorded about it is forgotten: no token from before a sign-out or a
deletion is accepted again. -/
theorem custody_run {tr : List (Transition CustodyHost CustodyEvent)} (h : Custody host.db)
    (hrun : Run (CustodyStep parseUuid) host tr host') :
    (∀ key, host'.db.keyOf key.accountUuid = some key ↔
      host'.db.holder key.storageActorId = some key) ∧
      ∀ uuid instant, (∀ e ∈ tr, e.label.forgets uuid = false) →
        Refusing instant (host.db.account uuid) → ∀ record ∈ (host'.db.account uuid).load,
          ∀ kind issuedAt, (∀ issued ∈ issuedAt, issued < instant) →
            ∃ failure, bearer record kind issuedAt = .error failure := by
  have hcustody : Custody host'.db :=
    hrun.invariant (fun host => Custody host.db) (fun _ _ _ hs hstep => (hs.step hstep).1) h
  refine ⟨fun key => keyOf_iff_holder hcustody.constraints,
    fun uuid instant hremembered hrefusing record hrecord kind issuedAt hissued => ?_⟩
  have hkeeps := (hrun.restrict (fun e => e.label.forgets uuid = false) hremembered).invariant
    (fun host => Custody host.db ∧ Refusing instant (host.db.account uuid))
    (fun _ event _ hs hstep => by
      obtain ⟨hcustody, hkeeps⟩ := hs.1.step hstep.1
      exact ⟨hcustody, hkeeps uuid instant hstep.2 hs.2⟩)
    ⟨h, hrefusing⟩
  exact hkeeps.2.bearer hrecord kind hissued

end Runs

/-! ## An account that was signed out and loses its link -/

/-- The tables after the mistake, where the wrong account was signed out at 7. -/
def signedOutDb : IdentityDb :=
  { mistakenDb with
      accounts := Function.update (fun _ => none) mistakenKey.accountUuid
        (some { kind := .carbon, revokedBefore := some 7, revokedReason := some "signed_out" }) }

theorem signedOutDb_custody : Custody signedOutDb where
  constraints :=
    ⟨mistakenDb_constraints.accounts, mistakenDb_constraints.storageKeys,
      mistakenDb_constraints.principals, by
      intro uuid row hrow
      by_cases hsame : uuid = mistakenKey.accountUuid
      · exact ⟨mistakenKey, by rw [hsame]; rfl⟩
      · cases (Function.update_of_ne hsame _ (fun _ => none)).symm.trans hrow⟩
  together := by
    intro uuid
    rw [together_iff]
    by_cases hsame : uuid = mistakenKey.accountUuid
    · rw [hsame]
      rfl
    · have hkey : signedOutDb.keyOf uuid = none :=
        Table.lookup_cons.trans (if_neg fun h => hsame h.symm)
      have hrow : signedOutDb.accounts uuid = none := Function.update_of_ne hsame _ (fun _ => none)
      rw [hkey, hrow]
      rfl

theorem signedOutDb_run : ∃ db' report,
    linkIdentities (fun _ => none) none 10 { relink := true }
      [correction] signedOutDb = some (db', report) :=
  ⟨_, _, rfl⟩

/-- The account is seen again, under a new storage key. -/
def seenAgain : DirectoryEvent := .ensure ⟨9, by decide⟩ .carbon none none

/-- The link is corrected while the API is stopped, and the account that lost it is seen again. -/
theorem custody_run_sample : ∃ db' db'' host',
    Run (CustodyStep fun _ => none) ⟨signedOutDb, false⟩
        [⟨⟨signedOutDb, false⟩, .link "c:ada,zQo" none 10 { relink := true }, ⟨db', false⟩⟩,
          ⟨⟨db', false⟩, .start, ⟨db', true⟩⟩,
          ⟨⟨db', true⟩, .directory mistakenKey.accountUuid .lookup seenAgain, ⟨db'', true⟩⟩] host' ∧
      (∀ key, host'.db.keyOf key.accountUuid = some key ↔
        host'.db.holder key.storageActorId = some key) ∧
      Refusing 7 (signedOutDb.account mistakenKey.accountUuid) ∧
      ∀ record ∈ (host'.db.account mistakenKey.accountUuid).load,
        ∀ kind issuedAt, (∀ issued ∈ issuedAt, issued < 7) →
          ∃ failure, bearer record kind issuedAt = .error failure := by
  obtain ⟨db', report, hrun⟩ := signedOutDb_run
  have hlink : CustodyStep (fun _ => none) ⟨signedOutDb, false⟩
      (.link "c:ada,zQo" none 10 { relink := true }) ⟨db', false⟩ :=
    .link parseMapping_correction hrun
  obtain ⟨db'', hseen⟩ : ∃ db'', CustodyStep (fun _ => none) ⟨db', true⟩
      (.directory mistakenKey.accountUuid .lookup seenAgain) ⟨db'', true⟩ := by
    cases hseen : db'.directory mistakenKey.accountUuid .lookup seenAgain with
    | none => exact ⟨db', .failed hseen⟩
    | some db'' => exact ⟨db'', .directory hseen⟩
  have hsteps : Run (CustodyStep fun _ => none) ⟨signedOutDb, false⟩ _ ⟨db'', true⟩ :=
    .cons hlink (.cons .start (.single hseen))
  have hrefusing : Refusing 7 (signedOutDb.account mistakenKey.accountUuid) := by
    have hrow : (signedOutDb.account mistakenKey.accountUuid).row = some
        { kind := .carbon, revokedBefore := some 7, revokedReason := some "signed_out" } :=
      Function.update_self mistakenKey.accountUuid _ (fun _ => none)
    exact (refusing_iff _).mpr (.inl ⟨_, hrow, .inr ⟨7, rfl, Nat.le_refl 7⟩⟩)
  obtain ⟨hkeys, hrefused⟩ := custody_run signedOutDb_custody hsteps
  refine ⟨db', db'', _, hsteps, hkeys, hrefusing, hrefused _ 7 (fun e he => ?_) hrefusing⟩
  simp only [List.mem_cons, List.not_mem_nil, or_false] at he
  rcases he with rfl | rfl | rfl
  · rfl
  · rfl
  · rfl

end Waveform.Operator
