import Waveform.Domain.Identity
import Waveform.Library.LabelledRun
import Waveform.Store.Schema

/-!
# The cached account

One account's rows in the directory: its storage key, its cache row, and what was recorded for it
before it was first seen. Every statement that writes to them is one function; transactions that
take the account's lock are one step each, and so is each other UPDATE, which PostgreSQL runs
against the committed row.

Instants count from the earliest `timestamptz`. `GREATEST` over columns that may be NULL is `max` on
options. The public id of the custodian (`custodian_id`), which is only shown, and the columns
`updated_at` and `looked_up_at` are left out; so is the weekly deletion of what was recorded.

PostgreSQL takes no text with U+0000 in it. `AccountRow.storable` says so of the columns here. An
event that is refused for another text that it carries leaves the rows, and is no step.

- `WellFormed`: what holds of the rows in every reachable state.
- `Account.next`, `DirectoryStep`: the steps that webhooks, sightings and lookups are made of.
-/

set_option autoImplicit false

namespace Waveform.Directory

open Waveform.Domain
open Waveform.Store (storableText)

/-! ## The rows -/

/-- A row of `waveform_account_keys`. -/
structure AccountKey where
  storageActorId : ActorId
  kind : ActorKind

/-- A row of `waveform_accounts`. -/
structure AccountRow where
  kind : ActorKind
  currentId : Option String := none
  idChangedAt : Option Nat := none
  displayName : Option String := none
  pfpUrl : Option String := none
  profileVersion : Int := 0
  custodianUuid : Option AccountUuid := none
  custodianChangedAt : Option Nat := none
  custodianCheckedAt : Option Nat := none
  revokedBefore : Option Nat := none
  revokedReason : Option String := none
  deletedAt : Option Nat := none

/-- A row of `waveform_account_pending_events`. -/
structure PendingEvent where
  revokedBefore : Nat
  revokedReason : String
  deletedAt : Option Nat

/-- The rows about one account. -/
structure Account where
  key : Option AccountKey := none
  row : Option AccountRow := none
  pending : Option PendingEvent := none

/-- An account that nothing is known of. -/
def Account.unknown : Account := {}

/-- `NULLIF(value, '')`. -/
def nonEmpty (value : String) : Option String := if value.isEmpty then none else some value

/-- `LOOKUP_SKEW`. -/
def lookupSkew : Nat := 5 * microsPerSecond

/-- Text that a column of bounded length takes. -/
def fitsColumn (least most : Nat) (text : String) : Bool :=
  storableText text && decide (least ≤ text.length ∧ text.length ≤ most)

/-- The CHECK constraints of `waveform_accounts`, and that its texts are free of U+0000. -/
def AccountRow.storable (row : AccountRow) : Bool :=
  row.currentId.all (fitsColumn 3 128) && row.displayName.all (fitsColumn 0 256) &&
    row.pfpUrl.all (fitsColumn 0 2048) &&
    (row.kind = .silicon || row.custodianUuid.isNone)

namespace AccountRow

/-- The row that `purge_account` keeps. -/
def tombstone (row : AccountRow) (deleted : Nat) : AccountRow :=
  { row with
      deletedAt := row.deletedAt.or (some deleted)
      revokedBefore := max row.revokedBefore (some deleted)
      revokedReason := some "account_deleted"
      currentId := none
      displayName := none
      pfpUrl := none
      custodianUuid := none }

/-- Sign-ins made before an instant end. -/
def endSignIns (row : AccountRow) (ended : Nat) (reason : String) : AccountRow :=
  { row with
      revokedBefore := max row.revokedBefore (some ended)
      revokedReason := some reason }

/-- What was recorded before the first sighting, as the revocation marker. -/
def foldSignOut (row : AccountRow) (event : PendingEvent) : AccountRow :=
  { row with
      revokedBefore := max row.revokedBefore (some event.revokedBefore)
      revokedReason :=
        if row.revokedBefore.all fun before => before < event.revokedBefore then
          some event.revokedReason
        else row.revokedReason }

end AccountRow

/-! ## Sign-outs and deletions -/

namespace Account

/-- The row that `record_pending_event` leaves for what was recorded before and a new event. -/
def pendingAfter (pending : Option PendingEvent) (occurred : Nat) (reason : String)
    (deleted : Bool) : PendingEvent :=
  let deletedAt := if deleted then some occurred else none
  match pending with
  | none => ⟨occurred, reason, deletedAt⟩
  | some earlier =>
      { revokedBefore := max earlier.revokedBefore occurred
        revokedReason :=
          if deleted ∨ earlier.revokedBefore ≤ occurred then reason else earlier.revokedReason
        deletedAt := earlier.deletedAt.or deletedAt }

/-- `record_pending_event`. -/
def recordPendingEvent (account : Account) (occurred : Nat) (reason : String) (deleted : Bool) :
    Account :=
  { account with pending := some (pendingAfter account.pending occurred reason deleted) }

/-- `purge_account`, without the account's data. -/
def purgeAccount (account : Account) (occurred : Nat) : Account :=
  match account.key with
  | none => account.recordPendingEvent occurred "account_deleted" true
  | some _ => { account with row := account.row.map (·.tombstone occurred), pending := none }

/-- `fold_pending_events`. -/
def foldPendingEvents (account : Account) : Account :=
  match account.pending with
  | none => account
  | some event =>
      match event.deletedAt with
      | some deleted => account.purgeAccount deleted
      | none => { account with row := account.row.map (·.foldSignOut event), pending := none }

/-- `end_sign_ins`. -/
def endSignIns (account : Account) (occurred : Nat) (reason : String) : Account :=
  match account.key, account.row with
  | some _, some row => { account with row := some (row.endSignIns occurred reason) }
  | _, _ => account.recordPendingEvent occurred reason false

/-! ## Sightings and lookups -/

/-- The INSERT of `ensure`, which fills a missing public id of a row that is there. -/
def ensureRow (kind : ActorKind) (idHint : Option String) (asOf : Option Nat) :
    Option AccountRow → AccountRow
  | none => { kind := kind, currentId := idHint, idChangedAt := asOf }
  | some row =>
      if row.currentId.isNone ∧ row.deletedAt.isNone ∧ idHint.isSome then
        { row with currentId := idHint, idChangedAt := asOf.or row.idChangedAt }
      else row

/-- A public id that the kind of the account may have. -/
def hintFor (kind : ActorKind) (idHint : Option String) : Option String :=
  idHint.filter fun id => publicIdKind id = some kind

/-- `ensure`, up to the read of the record. -/
def ensure (account : Account) (newKey : ActorId) (kind : ActorKind) (idHint : Option String)
    (asOf : Option Nat) : Account :=
  let idHint := hintFor kind idHint
  let asOf := asOf.filter fun _ => idHint.isSome
  let key := account.key.getD ⟨newKey, kind⟩
  let row := ensureRow key.kind idHint asOf account.row
  foldPendingEvents { account with key := some key, row := some row }

/-- An UPDATE of a live row under a condition. A row that a CHECK refuses rolls it back. -/
def updateLive (account : Account) (applies : AccountRow → Bool)
    (change : AccountRow → AccountRow) : Account :=
  { account with
      row := account.row.map fun row =>
        if row.deletedAt.isNone && applies row && (change row).storable then change row else row }

/-- The UPDATE of `adopt_id`. -/
def adoptId (account : Account) (id : String) (asOf : Nat) : Account :=
  account.updateLive
    (fun row => row.currentId ≠ some id && row.idChangedAt.all fun changed => changed < asOf)
    (fun row => { row with currentId := some id, idChangedAt := some asOf })

/-- The custodian as a lookup or a webhook names it. -/
structure NamedAccount where
  uuid : String
  id : String

/-- What Silicon Accounts answers about an account. -/
structure AccountSummary where
  kind : ActorKind
  id : String
  displayName : String
  pfpUrl : String
  custodian : Option NamedAccount

/-- The custodian of a Silicon, when it is a well-formed uuid. -/
def AccountSummary.custodianUuid (summary : AccountSummary) : Option AccountUuid :=
  (summary.custodian.filter fun _ => summary.kind = .silicon).bind fun custodian =>
    AccountUuid.fromStr? custodian.uuid

/-- A change this close to the start of a lookup, or later, wins over its answer. -/
def withinSkew (changed : Option Nat) (started : Nat) : Bool :=
  changed.any fun instant => started ≤ instant + lookupSkew

/-- The row after a lookup that started at `started` and is stored at `now`. -/
def summarized (summary : AccountSummary) (started now : Nat) (row : AccountRow) : AccountRow :=
  let id := nonEmpty summary.id
  let kept := withinSkew row.idChangedAt started
  { row with
      currentId := if kept then row.currentId else id.or row.currentId
      idChangedAt := if kept || id.isNone then row.idChangedAt else some started
      displayName := (nonEmpty summary.displayName).or row.displayName
      pfpUrl := (nonEmpty summary.pfpUrl).or row.pfpUrl
      custodianUuid :=
        if row.kind ≠ .silicon then none
        else if withinSkew row.custodianChangedAt started then row.custodianUuid
        else summary.custodianUuid.or row.custodianUuid
      custodianCheckedAt := if row.kind = .silicon then some now else row.custodianCheckedAt }

/-- The UPDATE of `store_summary`. -/
def updateSummary (account : Account) (summary : AccountSummary) (started now : Nat) : Account :=
  account.updateLive (fun _ => true) (summarized summary started now)

/-! ## Profiles and changes that webhooks announce -/

/-- A profile in an `account.updated` event. -/
structure Profile where
  id : String
  displayName : String
  pfpUrl : String
  version : Int

/-- `account.id_changed`. -/
def idChanged (account : Account) (newId : String) (occurred : Nat) : Account :=
  account.updateLive (fun row => row.idChangedAt.all fun changed => changed ≤ occurred)
    (fun row => { row with currentId := some newId, idChangedAt := some occurred })

/-- `account.updated`, with a profile. -/
def updated (account : Account) (profile : Profile) : Account :=
  account.updateLive (fun row => row.profileVersion < profile.version)
    (fun row =>
      { row with
          displayName := nonEmpty profile.displayName
          pfpUrl := nonEmpty profile.pfpUrl
          currentId := (nonEmpty profile.id).or row.currentId
          profileVersion := profile.version })

/-- The UPDATE of `complete_profile`. -/
def completeProfile (account : Account) (info : Profile) : Account :=
  account.updateLive (fun row => row.profileVersion ≤ info.version)
    (fun row =>
      { row with
          displayName := (nonEmpty info.displayName).or row.displayName
          pfpUrl := (nonEmpty info.pfpUrl).or row.pfpUrl
          profileVersion := max row.profileVersion info.version })

/-- `silicon.custodian_changed`, applied at `now`. -/
def custodianChanged (account : Account) (named : Option NamedAccount) (occurred now : Nat) :
    Account :=
  match named.bind fun custodian => AccountUuid.fromStr? custodian.uuid with
  | none => account
  | some uuid =>
      account.updateLive
        (fun row =>
          row.kind = .silicon && row.custodianChangedAt.all fun changed => changed ≤ occurred)
        (fun row =>
          { row with
              custodianUuid := some uuid
              custodianChangedAt := some occurred
              custodianCheckedAt := some now })

end Account

/-! ## Reading the account -/

/-- One cached account, as it is read. -/
structure AccountRecord where
  storageKey : ActorId
  kind : ActorKind
  currentId : Option String
  displayName : Option String
  pfpUrl : Option String
  custodian : Option AccountUuid
  custodianCheckedAt : Option Nat
  revokedBefore : Option Nat
  revokedReason : Option String
  deletedAt : Option Nat

namespace Account

/-- The fence in force: the later of the row's and the recorded one. -/
def fence (account : Account) : Option Nat :=
  max (account.row.bind (·.revokedBefore)) (account.pending.map (·.revokedBefore))

/-- When the account was deleted, as the row or the recorded deletion says. -/
def deletedAt (account : Account) : Option Nat :=
  (account.row.bind (·.deletedAt)).or (account.pending.bind (·.deletedAt))

/-- `SELECT_RECORD`. -/
def load (account : Account) : Option AccountRecord :=
  account.key.map fun key =>
    { storageKey := key.storageActorId
      kind := key.kind
      currentId := account.row.bind (·.currentId)
      displayName := account.row.bind (·.displayName)
      pfpUrl := account.row.bind (·.pfpUrl)
      custodian := account.row.bind (·.custodianUuid)
      custodianCheckedAt := account.row.bind (·.custodianCheckedAt)
      revokedBefore := account.fence
      revokedReason :=
        match account.pending with
        | some event =>
            if (account.row.bind (·.revokedBefore)).all fun before => before < event.revokedBefore
            then some event.revokedReason else account.row.bind (·.revokedReason)
        | none => account.row.bind (·.revokedReason)
      deletedAt := account.deletedAt }

end Account

/-! ## Steps -/

/-- What changes the rows: the statements of a sighting and a lookup, and the webhooks. A webhook
about the deletion and a lookup that reports it purge in the same way. -/
inductive DirectoryEvent where
  | ensure (newKey : ActorId) (kind : ActorKind) (idHint : Option String) (asOf : Option Nat)
  | adoptId (id : String) (asOf : Nat)
  | updateSummary (summary : Account.AccountSummary) (started now : Nat)
  | completeProfile (info : Account.Profile)
  | idChanged (newId : String) (occurred : Nat)
  | updated (profile : Account.Profile)
  | custodianChanged (named : Option Account.NamedAccount) (occurred now : Nat)
  | signedOut (reason : Option String) (occurred : Nat)
  | accessRemoved (occurred : Nat)
  | deleted (occurred : Nat)

/-- The rows after an event. -/
def Account.next (account : Account) : DirectoryEvent → Account
  | .ensure newKey kind idHint asOf => account.ensure newKey kind idHint asOf
  | .adoptId id asOf => account.adoptId id asOf
  | .updateSummary summary started now => account.updateSummary summary started now
  | .completeProfile info => account.completeProfile info
  | .idChanged newId occurred => account.idChanged newId occurred
  | .updated profile => account.updated profile
  | .custodianChanged named occurred now => account.custodianChanged named occurred now
  | .signedOut reason occurred =>
      -- Waveform ending one sign-in itself leaves the account's other sign-ins.
      if reason = some "app_revoked" then account
      else account.endSignIns occurred (reason.getD "signed_out")
  | .accessRemoved occurred => account.endSignIns occurred "access_removed"
  | .deleted occurred => account.purgeAccount occurred

/-- A step of the directory about the account. -/
inductive DirectoryStep : Account → DirectoryEvent → Account → Prop where
  | next (account : Account) (event : DirectoryEvent) :
      DirectoryStep account event (account.next event)

theorem DirectoryStep.eq_next {account account' : Account} {event : DirectoryEvent}
    (h : DirectoryStep account event account') : account' = account.next event := by
  cases h
  rfl

/-! ## What holds of the rows -/

/-- The cache row of an account whose key is `key`. -/
structure RowFor (key : AccountKey) (row : AccountRow) : Prop where
  kind : row.kind = key.kind
  storable : row.storable = true
  undated : row.deletedAt = none → row.currentId = none → row.idChangedAt = none

/-- A key and a row are made together, and what was recorded before is gone by then. -/
inductive WellFormed : Account → Prop where
  | unseen {pending : Option PendingEvent}
      (h : ∀ event ∈ pending, ∀ deleted ∈ event.deletedAt, deleted ≤ event.revokedBefore) :
      WellFormed ⟨none, none, pending⟩
  | seen {key : AccountKey} {row : AccountRow} (h : RowFor key row) :
      WellFormed ⟨some key, some row, none⟩

theorem WellFormed.unknown : WellFormed .unknown :=
  .unseen (by simp)

namespace Account

/-- The row that an UPDATE of a live row leaves. -/
def updatedRow (applies : AccountRow → Bool) (change : AccountRow → AccountRow)
    (row : AccountRow) : AccountRow :=
  if row.deletedAt.isNone && applies row && (change row).storable then change row else row

/-- An UPDATE of a live row that no CHECK refuses. -/
theorem updatedRow_live {applies : AccountRow → Bool} {change : AccountRow → AccountRow}
    {row : AccountRow} (hlive : row.deletedAt = none) (hstorable : (change row).storable = true) :
    updatedRow applies change row = if applies row then change row else row := by
  simp [updatedRow, hlive, hstorable]

@[simp] theorem updateLive_unseen (pending : Option PendingEvent) (applies : AccountRow → Bool)
    (change : AccountRow → AccountRow) :
    updateLive ⟨none, none, pending⟩ applies change = ⟨none, none, pending⟩ :=
  rfl

@[simp] theorem updateLive_seen (key : AccountKey) (row : AccountRow)
    (applies : AccountRow → Bool) (change : AccountRow → AccountRow) :
    updateLive ⟨some key, some row, none⟩ applies change =
      ⟨some key, some (updatedRow applies change row), none⟩ :=
  rfl

@[simp] theorem custodianChanged_unseen (pending : Option PendingEvent)
    (named : Option NamedAccount) (occurred now : Nat) :
    custodianChanged ⟨none, none, pending⟩ named occurred now = ⟨none, none, pending⟩ := by
  unfold custodianChanged
  split
  · rfl
  · rfl

/-- The row of a first sighting, with what was recorded before it. -/
def foldedRow (row : AccountRow) : Option PendingEvent → AccountRow
  | none => row
  | some event =>
      match event.deletedAt with
      | some deleted => row.tombstone deleted
      | none => row.foldSignOut event

/-- A first sighting makes the key and the row, and what was recorded is folded in. -/
theorem ensure_unseen (pending : Option PendingEvent) (newKey : ActorId) (kind : ActorKind)
    (idHint : Option String) (asOf : Option Nat) :
    ensure ⟨none, none, pending⟩ newKey kind idHint asOf =
      ⟨some ⟨newKey, kind⟩,
        some (foldedRow (ensureRow kind (hintFor kind idHint)
          (asOf.filter fun _ => (hintFor kind idHint).isSome) none) pending), none⟩ := by
  cases pending with
  | none => rfl
  | some event =>
      obtain ⟨revokedBefore, revokedReason, deletedAt⟩ := event
      cases deletedAt with
      | none => rfl
      | some deleted => rfl

/-- A later one fills a missing public id at most. -/
theorem ensure_seen (key : AccountKey) (row : AccountRow) (newKey : ActorId) (kind : ActorKind)
    (idHint : Option String) (asOf : Option Nat) :
    ensure ⟨some key, some row, none⟩ newKey kind idHint asOf =
      ⟨some key, some (ensureRow key.kind (hintFor kind idHint)
        (asOf.filter fun _ => (hintFor kind idHint).isSome) (some row)), none⟩ :=
  rfl

end Account

/-! Each change of a row keeps what holds of the row of a key. -/

namespace RowFor

variable {key : AccountKey} {row : AccountRow}

theorem tombstone (h : RowFor key row) (deleted : Nat) : RowFor key (row.tombstone deleted) where
  kind := h.kind
  storable := by simp [AccountRow.storable, AccountRow.tombstone]
  undated := by
    intro hlive _
    cases hdeleted : row.deletedAt with
    | none => simp [AccountRow.tombstone, hdeleted] at hlive
    | some earlier => simp [AccountRow.tombstone, hdeleted] at hlive

theorem endSignIns (h : RowFor key row) (ended : Nat) (reason : String) :
    RowFor key (row.endSignIns ended reason) where
  kind := h.kind
  storable := h.storable
  undated := h.undated

theorem foldSignOut (h : RowFor key row) (event : PendingEvent) :
    RowFor key (row.foldSignOut event) where
  kind := h.kind
  storable := h.storable
  undated := h.undated

theorem foldedRow (h : RowFor key row) (pending : Option PendingEvent) :
    RowFor key (Account.foldedRow row pending) := by
  unfold Account.foldedRow
  split
  · exact h
  · split
    · exact h.tombstone _
    · exact h.foldSignOut _

/-- An UPDATE that a CHECK refuses leaves the row as it was. -/
theorem updatedRow (h : RowFor key row) (applies : AccountRow → Bool)
    {change : AccountRow → AccountRow} (hkind : (change row).kind = row.kind)
    (hundated : (change row).deletedAt = none → (change row).currentId = none →
      (change row).idChangedAt = none) :
    RowFor key (Account.updatedRow applies change row) := by
  unfold Account.updatedRow
  split
  · rename_i hupdate
    rw [Bool.and_eq_true] at hupdate
    exact ⟨hkind.trans h.kind, hupdate.2, hundated⟩
  · exact h

end RowFor

/-- A well-formed public id can be stored. -/
theorem fitsColumn_of_publicIdKind {id : String} {kind : ActorKind}
    (h : publicIdKind id = some kind) : fitsColumn 3 128 id = true := by
  have hlength := publicIdKind_length h
  have hplain : storableText id = true := by
    unfold storableText
    rw [Bool.not_eq_true', List.contains_eq_mem, decide_eq_false_iff_not]
    intro hmem
    exact absurd (publicIdKind_chars h _ hmem) (by decide)
  unfold fitsColumn
  rw [hplain, Bool.true_and, decide_eq_true_eq]
  omega

/-- Every public id that may be a hint can be stored. -/
theorem hintFor_storable {kind : ActorKind} {idHint : Option String} {id : String}
    (h : id ∈ Account.hintFor kind idHint) : fitsColumn 3 128 id = true := by
  obtain ⟨_, hid⟩ := Option.filter_eq_some_iff.mp h
  exact fitsColumn_of_publicIdKind (of_decide_eq_true hid)

/-- The row of a first sighting. -/
theorem RowFor.first (newKey : ActorId) (kind : ActorKind) (idHint : Option String)
    (asOf : Option Nat) :
    RowFor ⟨newKey, kind⟩ (Account.ensureRow kind (Account.hintFor kind idHint)
      (asOf.filter fun _ => (Account.hintFor kind idHint).isSome) none) where
  kind := rfl
  storable := by
    simp only [AccountRow.storable, Account.ensureRow, Option.all_none, Bool.and_true,
      Option.isNone_none, Bool.or_true, Option.all_eq_true_iff_get]
    simpa using fun h => hintFor_storable (Option.get_mem h)
  undated := by
    intro _ hid
    have hnone : Account.hintFor kind idHint = none := hid
    simp [Account.ensureRow, hnone]

/-- A later sighting only fills a missing public id. -/
theorem RowFor.filled {key : AccountKey} {row : AccountRow} (h : RowFor key row)
    (kind : ActorKind) (idHint : Option String) (asOf : Option Nat) :
    RowFor key (Account.ensureRow key.kind (Account.hintFor kind idHint) asOf (some row)) := by
  unfold Account.ensureRow
  dsimp only
  split
  · rename_i hfill
    obtain ⟨id, hid⟩ := Option.isSome_iff_exists.mp hfill.2.2
    refine ⟨h.kind, ?_, ?_⟩
    · have hfits := hintFor_storable hid
      have hstorable := h.storable
      simp only [AccountRow.storable, Bool.and_eq_true] at hstorable ⊢
      simp [hid, hfits, hstorable]
    · intro _ hnone
      rw [hid] at hnone
      contradiction
  · exact h

namespace WellFormed

variable {account : Account}

/-- A transaction that ends sign-ins, or deletes, before the first sighting. -/
theorem recordPendingEvent {pending : Option PendingEvent}
    (h : ∀ event ∈ pending, ∀ deleted ∈ event.deletedAt, deleted ≤ event.revokedBefore)
    (occurred : Nat) (reason : String) (deleted : Bool) :
    WellFormed (Account.recordPendingEvent ⟨none, none, pending⟩ occurred reason deleted) := by
  refine .unseen ?_
  intro event hevent instant hinstant
  obtain rfl := Option.some.inj hevent
  cases pending with
  | none =>
      obtain ⟨-, rfl⟩ : deleted = true ∧ occurred = instant := by
        simpa [Account.pendingAfter] using hinstant
      exact Nat.le_refl _
  | some earlier =>
      rcases Option.or_eq_some_iff.mp hinstant with hearlier | ⟨-, hnew⟩
      · exact Nat.le_trans (h earlier rfl instant hearlier) (Nat.le_max_left _ _)
      · obtain ⟨-, rfl⟩ : deleted = true ∧ occurred = instant := by simpa using hnew
        exact Nat.le_max_right _ _

/-- The end of the sign-ins of an account. -/
theorem endSignIns (h : WellFormed account) (occurred : Nat) (reason : String) :
    WellFormed (account.endSignIns occurred reason) := by
  cases h with
  | unseen h => exact recordPendingEvent h occurred reason false
  | seen h => exact .seen (h.endSignIns occurred reason)

/-- The deletion of an account. -/
theorem purgeAccount (h : WellFormed account) (occurred : Nat) :
    WellFormed (account.purgeAccount occurred) := by
  cases h with
  | unseen h => exact recordPendingEvent h occurred "account_deleted" true
  | seen h => exact .seen (h.tombstone occurred)

/-- An UPDATE of a live row. -/
theorem updateLive (h : WellFormed account) (applies : AccountRow → Bool)
    {change : AccountRow → AccountRow} (hkind : ∀ row, (change row).kind = row.kind)
    (hundated : ∀ key row, RowFor key row → (change row).deletedAt = none →
      (change row).currentId = none → (change row).idChangedAt = none) :
    WellFormed (account.updateLive applies change) := by
  cases h with
  | unseen h => exact .unseen h
  | seen h => exact .seen (h.updatedRow applies (hkind _) (hundated _ _ h))

theorem ensure (h : WellFormed account) (newKey : ActorId) (kind : ActorKind)
    (idHint : Option String) (asOf : Option Nat) :
    WellFormed (account.ensure newKey kind idHint asOf) := by
  cases h with
  | unseen h =>
      rw [Account.ensure_unseen]
      exact .seen ((RowFor.first newKey kind idHint asOf).foldedRow _)
  | seen h =>
      rw [Account.ensure_seen]
      exact .seen (h.filled kind idHint _)

theorem adoptId (h : WellFormed account) (id : String) (asOf : Nat) :
    WellFormed (account.adoptId id asOf) := by
  apply h.updateLive
  · intro row
    rfl
  · intro key row _ _ hid
    cases hid

/-- A lookup that names an id dates it, and one that names none changes neither. -/
theorem updateSummary (h : WellFormed account) (summary : Account.AccountSummary)
    (started now : Nat) : WellFormed (account.updateSummary summary started now) := by
  apply h.updateLive
  · intro row
    rfl
  · intro key row hrow hlive hid
    simp only [Account.summarized] at hlive hid ⊢
    cases hkept : Account.withinSkew row.idChangedAt started with
    | true =>
        simp only [hkept, if_true, Bool.true_or] at hid ⊢
        exact hrow.undated hlive hid
    | false =>
        simp only [hkept, Bool.false_eq_true, if_false, Option.or_eq_none_iff] at hid
        simpa [hid.1] using hrow.undated hlive hid.2

theorem completeProfile (h : WellFormed account) (info : Account.Profile) :
    WellFormed (account.completeProfile info) := by
  apply h.updateLive
  · intro row
    rfl
  · intro key row hrow
    exact hrow.undated

theorem idChanged (h : WellFormed account) (newId : String) (occurred : Nat) :
    WellFormed (account.idChanged newId occurred) := by
  apply h.updateLive
  · intro row
    rfl
  · intro key row _ _ hid
    cases hid

theorem updated (h : WellFormed account) (profile : Account.Profile) :
    WellFormed (account.updated profile) := by
  apply h.updateLive
  · intro row
    rfl
  · intro key row hrow hlive hid
    exact hrow.undated hlive (Option.or_eq_none_iff.mp hid).2

theorem custodianChanged (h : WellFormed account) (named : Option Account.NamedAccount)
    (occurred now : Nat) : WellFormed (account.custodianChanged named occurred now) := by
  unfold Account.custodianChanged
  split
  · exact h
  · apply h.updateLive
    · intro row
      rfl
    · intro key row hrow
      exact hrow.undated

/-- The rows of an account stay well formed. -/
theorem next (h : WellFormed account) (event : DirectoryEvent) :
    WellFormed (account.next event) := by
  cases event with
  | ensure newKey kind idHint asOf => exact h.ensure newKey kind idHint asOf
  | adoptId id asOf => exact h.adoptId id asOf
  | updateSummary summary started now => exact h.updateSummary summary started now
  | completeProfile info => exact h.completeProfile info
  | idChanged newId occurred => exact h.idChanged newId occurred
  | updated profile => exact h.updated profile
  | custodianChanged named occurred now => exact h.custodianChanged named occurred now
  | signedOut reason occurred =>
      unfold Account.next
      dsimp only
      split
      · exact h
      · exact h.endSignIns occurred _
  | accessRemoved occurred => exact h.endSignIns occurred _
  | deleted occurred => exact h.purgeAccount occurred

theorem step {account' : Account} {event : DirectoryEvent} (h : WellFormed account)
    (hstep : DirectoryStep account event account') : WellFormed account' := by
  cases hstep
  exact h.next event

/-- In every run the rows stay well formed. -/
theorem run {account' : Account} {tr : List (LabelledRun.Transition Account DirectoryEvent)}
    (h : WellFormed account) (run : LabelledRun.Run DirectoryStep account tr account') :
    WellFormed account' :=
  run.invariant WellFormed (fun _ _ _ h hstep => h.step hstep) h

end WellFormed

end Waveform.Directory
