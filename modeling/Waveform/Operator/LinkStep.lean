import Waveform.Operator.LinkIdentities

/-!
# One row of a mapping

What `link_one` can do to tables that satisfy their constraints: it stops, it finds the account
linked, or it gives the account a storage key that is free or is freed for it. No statement of it is
refused.

- `linkOne_cases`: the inversion of `link_one`.
- `LinkedBy.constraints`, `Freed.constraints`: the tables keep their constraints.
- `SameData`: what no row of a mapping changes.
-/

set_option autoImplicit false

namespace Waveform.Operator

open Waveform.Domain
open Waveform.Directory (AccountRow PendingEvent)

namespace IdentityDb

variable {db db' : IdentityDb} {now : Nat} {options : LinkOptions} {row : MappingRow}
  {storageKey : ActorId}
  {kind : ActorKind} {publicId : Option String} {account : AccountUuid}

/-! ## Links -/

/-- The tables after `mark_link`. -/
def marked (db : IdentityDb) (now : Nat) (principal : String) (account : AccountUuid)
    (storageKey : ActorId) :
    IdentityDb :=
  { db with
      links :=
        if (db.linkOf principal).isSome then
          Table.update LinkRow.iamPrincipalId principal (LinkRow.marked account now) db.links
        else Table.insert ⟨principal, none, storageKey, some ⟨account, now⟩⟩ db.links }

theorem markLink_eq {principal : String} (h : storablePrincipal principal = true) :
    db.markLink now principal account
      storageKey = some (db.marked now principal account storageKey) := by
  unfold markLink marked
  rw [h]
  split
  · contradiction
  · split
    · rfl
    · rfl

@[simp] theorem marked_keyOf (principal : String) :
    (db.marked now principal account storageKey).keyOf = db.keyOf := rfl

@[simp] theorem marked_holder (principal : String) :
    (db.marked now principal account storageKey).holder = db.holder := rfl

@[simp] theorem marked_accounts (principal : String) :
    (db.marked now principal account storageKey).accounts = db.accounts := rfl

@[simp] theorem marked_pending (principal : String) :
    (db.marked now principal account storageKey).pending = db.pending := rfl

/-- What the link of each principal is afterwards. -/
theorem marked_linkOf (principal other : String) :
    (db.marked now principal account storageKey).linkOf other =
      if other = principal then
        some (((db.linkOf principal).map (LinkRow.marked account now)).getD
          ⟨principal, none, storageKey, some ⟨account, now⟩⟩)
      else db.linkOf other := by
  unfold linkOf marked
  dsimp only
  cases hlink : Table.lookup LinkRow.iamPrincipalId principal db.links with
  | some link =>
      rw [if_pos (show (db.linkOf principal).isSome = true from
          (congrArg Option.isSome hlink).trans rfl),
        Table.lookup_update (LinkRow.marked account now) fun _ => rfl]
      by_cases hother : other = principal
      · rw [if_pos hother, if_pos hother, hother, hlink]
        rfl
      · rw [if_neg hother, if_neg hother]
  | none =>
      rw [if_neg (show ¬ (db.linkOf principal).isSome = true by
          rw [show db.linkOf principal = none from hlink]; simp),
        Table.lookup_insert]
      by_cases hother : other = principal
      · rw [if_pos hother.symm, if_pos hother]
        rfl
      · rw [if_neg fun h => hother h.symm, if_neg hother]

theorem Constraints.marked (h : db.Constraints) (principal : String) :
    (db.marked now principal account storageKey).Constraints := by
  refine ⟨h.accounts, h.storageKeys, ?_, h.cached⟩
  unfold IdentityDb.marked
  dsimp only
  split
  · exact h.principals.update (LinkRow.marked account now) fun _ => rfl
  · next hnone =>
      refine h.principals.insert ?_
      rw [Bool.not_eq_true, Option.isSome_eq_false_iff, Option.isNone_iff_eq_none] at hnone
      exact hnone

/-! ## Keys -/

/-- The tables after an account gave up its key. -/
def released (db : IdentityDb) (account : AccountUuid) : IdentityDb :=
  { (db.keepFence account) with
      accounts := Function.update db.accounts account none
      keys := Table.delete KeyRow.accountUuid account db.keys }

theorem keepFence_same (db : IdentityDb) (account : AccountUuid) :
    (db.keepFence account).keys = db.keys ∧ (db.keepFence account).accounts = db.accounts ∧
      (db.keepFence account).links = db.links := by
  unfold keepFence
  split
  · exact ⟨rfl, rfl, rfl⟩
  · split
    · exact ⟨rfl, rfl, rfl⟩
    · exact ⟨rfl, rfl, rfl⟩

/-- Nothing refuses to free the key of an account that a run linked. -/
theorem release_eq (h : db.Constraints) {held : KeyRow} (hkey : db.keyOf account = some held)
    (hsource : held.source = .linkIdentities) :
    db.release account = some (db.released account) := by
  obtain ⟨hkeys, haccounts, _⟩ := keepFence_same db account
  unfold release deleteKey deleteAccount released
  dsimp only
  rw [if_neg (by simp [Function.update_self]), hkeys, haccounts]
  refine congrArg some (congrArg (fun keys => ({ (db.keepFence account) with
    accounts := Function.update db.accounts account none, keys := keys } : IdentityDb)) ?_)
  -- the account has this one key, and the command made it
  refine List.filter_congr fun key hmem => ?_
  by_cases hsame : key.accountUuid = account
  · have hone : db.keyOf account = some key := (keyOf_eq_some_iff h).mpr ⟨hmem, hsame⟩
    obtain rfl := Option.some.inj (hkey.symm.trans hone)
    simp [hsame, hsource]
  · simp [hsame]

@[simp] theorem released_links : (db.released account).links = db.links :=
  (keepFence_same db account).2.2

theorem released_keyOf (other : AccountUuid) :
    (db.released account).keyOf other = if other = account then none else db.keyOf other :=
  Table.lookup_delete

theorem released_holder (h : db.Constraints) {held : KeyRow} (hkey : db.keyOf account = some held)
    (other : ActorId) :
    (db.released account).holder other = if other = held.storageActorId then none
      else db.holder other := by
  obtain ⟨hmem, hsame⟩ := (keyOf_eq_some_iff h).mp hkey
  have hdeleted : ∀ key : KeyRow, key ∈ (db.released account).keys ↔ key ∈ db.keys ∧
      key.accountUuid ≠ account :=
    fun key => Table.mem_delete
  split
  · next hother =>
      refine Table.lookup_eq_none_iff.mpr fun key hkey' hkeyOf => ?_
      obtain ⟨hmem', hne⟩ := (hdeleted key).mp hkey'
      have hone := h.storageKeys.eq_of_mem hmem' hmem (hkeyOf.trans hother)
      exact hne (hone ▸ hsame)
  · next hother =>
      cases hfound : db.holder other with
      | none =>
          refine Table.lookup_eq_none_iff.mpr fun key hkey' => ?_
          exact Table.lookup_eq_none_iff.mp hfound key ((hdeleted key).mp hkey').1
      | some key =>
          obtain ⟨hmem', hkeyOf⟩ := (holder_eq_some_iff h).mp hfound
          refine (Table.lookup_eq_some_iff h.storageKeys.delete).mpr
            ⟨(hdeleted key).mpr ⟨hmem', fun hne => ?_⟩, hkeyOf⟩
          have hone := h.accounts.eq_of_mem hmem' hmem (hne.trans hsame.symm)
          exact hother (hone ▸ hkeyOf.symm)

theorem Constraints.released (h : db.Constraints) : (db.released account).Constraints where
  accounts := h.accounts.delete
  storageKeys := h.storageKeys.delete
  principals := by
    rw [released_links]
    exact h.principals
  cached := by
    intro other row hrow
    rw [released_keyOf]
    change Function.update db.accounts account none other = some row at hrow
    by_cases hother : other = account
    · rw [hother, Function.update_self] at hrow
      cases hrow
    · rw [Function.update_of_ne hother] at hrow
      rw [if_neg hother]
      exact h.cached other row hrow

/-- The tables after a new key and cache row. -/
def keyedFor (db : IdentityDb) (key : KeyRow) (row : AccountRow) : IdentityDb :=
  { db with
      keys := Table.insert key db.keys
      accounts := Function.update db.accounts key.accountUuid (some row) }

theorem keyedFor_keyOf (key : KeyRow) (row : AccountRow) (other : AccountUuid) :
    (db.keyedFor key row).keyOf other = if key.accountUuid = other then some key
      else db.keyOf other :=
  Table.lookup_insert

theorem Constraints.keyedFor (h : db.Constraints) {key : KeyRow} (row : AccountRow)
    (haccount : db.keyOf key.accountUuid = none) (hfree : db.holder key.storageActorId = none) :
    (db.keyedFor key row).Constraints where
  accounts := h.accounts.insert haccount
  storageKeys := h.storageKeys.insert hfree
  principals := h.principals
  cached := by
    intro other cached hcached
    rw [keyedFor_keyOf]
    by_cases hother : key.accountUuid = other
    · exact ⟨key, if_pos hother⟩
    · rw [if_neg hother]
      refine h.cached other cached ?_
      change Function.update db.accounts key.accountUuid (some row) other = some cached at hcached
      rwa [Function.update_of_ne fun hsame => hother hsame.symm] at hcached

/-- The cache row that `link_one` writes can be stored. -/
theorem linkedRow_storable (kind : ActorKind) (publicId : Option String) :
    (linkedRow kind publicId).storable = true := by
  have hid : ∀ id ∈ publicId.filter fun id => decide (publicIdKind id = some kind),
      Directory.fitsColumn 3 128 id = true := by
    intro id hid
    obtain ⟨_, hkind⟩ := Option.filter_eq_some_iff.mp hid
    exact Directory.fitsColumn_of_publicIdKind (of_decide_eq_true hkind)
  unfold linkedRow AccountRow.storable
  simp only [Option.all_none, Bool.and_true, Option.isNone_none, Bool.or_true]
  cases hfound : publicId.filter fun id => decide (publicIdKind id = some kind) with
  | none => rfl
  | some id => exact hid id hfound

/-- An account without a key gets one, and its cache row. -/
theorem keyedFor_eq (h : db.Constraints) (haccount : db.keyOf account = none)
    (hfree : db.holder storageKey = none) :
    (db.insertKey ⟨account, storageKey, kind, .linkIdentities⟩).bind
        (fun keyed => keyed.insertAccount account (linkedRow kind publicId)) =
      some (db.keyedFor ⟨account, storageKey, kind, .linkIdentities⟩
        (linkedRow kind publicId)) := by
  have huncached : db.accounts account = none := by
    cases hrow : db.accounts account with
    | none => rfl
    | some row =>
        obtain ⟨key, hkey⟩ := h.cached account row hrow
        cases haccount.symm.trans hkey
  unfold insertKey
  rw [haccount, hfree, if_neg (by simp), if_neg (by simp), Option.bind_some]
  unfold insertAccount keyedFor
  dsimp only
  rw [huncached, if_neg (by simp), linkedRow_storable, Bool.true_and, if_pos]
  change (Table.lookup KeyRow.accountUuid account (Table.insert _ db.keys)).isSome = true
  rw [Table.lookup_insert, if_pos rfl]
  rfl

/-- The tables after an account was pointed at another storage key. -/
def pointedTo (db : IdentityDb) (account : AccountUuid) (storageKey : ActorId) : IdentityDb :=
  { db with keys := Table.update KeyRow.accountUuid account (KeyRow.pointed storageKey) db.keys }

theorem pointKey_eq (hfree : db.holder storageKey = none) :
    db.pointKey account storageKey = some (db.pointedTo account storageKey) := by
  unfold pointKey
  rw [if_neg]
  · rfl
  · simp only [List.any_eq_true, not_exists, not_and, Bool.and_eq_true, decide_eq_true_eq]
    intro key hkey hsame
    exact absurd hsame (Table.lookup_eq_none_iff.mp hfree key hkey)

theorem pointedTo_keyOf (other : AccountUuid) :
    (db.pointedTo account storageKey).keyOf other =
      if other = account then
        (db.keyOf other).map (KeyRow.pointed storageKey)
      else db.keyOf other :=
  Table.lookup_update (KeyRow.pointed storageKey) fun _ => rfl

theorem Constraints.pointedTo (h : db.Constraints) (hfree : db.holder storageKey = none) :
    (db.pointedTo account storageKey).Constraints where
  accounts := h.accounts.update (KeyRow.pointed storageKey) fun _ => rfl
  storageKeys := h.storageKeys.update_to h.accounts (KeyRow.pointed storageKey) (fun _ => rfl)
    fun key hkey _ => Table.lookup_eq_none_iff.mp hfree key hkey
  principals := h.principals
  cached := by
    intro other row hrow
    obtain ⟨key, hkey⟩ := h.cached other row hrow
    rw [pointedTo_keyOf, hkey]
    split
    · exact ⟨_, rfl⟩
    · exact ⟨key, rfl⟩

/-! ## Inversion -/

variable (db options storageKey account)

/-- The storage key is free, or it is freed by a correction of an earlier link. -/
inductive Freed : IdentityDb → Prop where
  | free (h : db.holder storageKey = none) : Freed db
  | relinked {held : KeyRow} (hheld : db.holder storageKey = some held)
      (hother : held.accountUuid ≠ account)
      (hrelink : options.relink = true) (hsource : held.source = .linkIdentities)
      (hunused : db.usedSinceLink storageKey held.accountUuid = false) :
      Freed (db.released held.accountUuid)

variable (kind publicId)

/-- The account gets the key: a new one, or in place of a key without data. -/
inductive Claimed : IdentityDb → Prop where
  | new (h : db.keyOf account = none) :
      Claimed (db.keyedFor ⟨account, storageKey, kind, .linkIdentities⟩ (linkedRow kind publicId))
  | merged {fresh : KeyRow} (h : db.keyOf account = some fresh)
      (hother : fresh.storageActorId ≠ storageKey)
      (hmerge : options.merge = true) (hdata : db.keyHasData fresh.storageActorId = false) :
      Claimed (db.pointedTo account storageKey)

variable {account}
variable (now row)

/-- What `link_one` does where it does not stop. -/
inductive LinkedBy : Bool → IdentityDb → Prop where
  | already {held : KeyRow} (hheld : db.holder storageKey = some held)
      (hsame : held.accountUuid = row.account) :
      LinkedBy false (db.marked now row.principal row.account storageKey)
  | claimed {freed claimed : IdentityDb} (hfreed : Freed db options storageKey row.account freed)
      (hclaimed : Claimed freed options storageKey kind publicId row.account claimed) :
      LinkedBy true (claimed.marked now row.principal row.account storageKey)

variable {db options storageKey kind publicId now row}

theorem Freed.constraints (h : db.Constraints) (hfreed : Freed db options storageKey account db') :
    db'.Constraints := by
  cases hfreed with
  | free => exact h
  | relinked => exact h.released

theorem Freed.holder (h : db.Constraints) (hfreed : Freed db options storageKey account db') :
    db'.holder storageKey = none := by
  cases hfreed with
  | free hfree => exact hfree
  | relinked hheld =>
      obtain ⟨hkey, hheld'⟩ := keyOf_of_holder h hheld
      rw [released_holder h hheld', if_pos hkey.symm]

theorem Claimed.constraints (h : db.Constraints) (hfree : db.holder storageKey = none)
    (hclaimed : Claimed db options storageKey kind publicId account db') : db'.Constraints := by
  cases hclaimed with
  | new haccount => exact h.keyedFor _ haccount hfree
  | merged => exact h.pointedTo hfree

theorem LinkedBy.constraints {new : Bool} (h : db.Constraints)
    (hlinked : LinkedBy db now options row storageKey kind publicId new db') : db'.Constraints := by
  cases hlinked with
  | already => exact h.marked _
  | claimed hfreed hclaimed =>
      exact (hclaimed.constraints (hfreed.constraints h) (hfreed.holder h)).marked _

/-- The second half of `link_one`. -/
theorem claimKey_cases (h : db.Constraints) (hfree : db.holder storageKey = none)
    (hstorable : storablePrincipal row.principal = true) :
    (∃ conflict, db.claimKey now options row storageKey kind
      publicId = some (db, .error conflict)) ∨
      ∃ claimed, Claimed db options storageKey kind publicId row.account claimed ∧
        db.claimKey now options row storageKey kind publicId =
          some (claimed.marked now row.principal row.account storageKey, .ok true) := by
  unfold claimKey
  split
  · next fresh hfresh =>
      obtain ⟨hkey, hother⟩ := Option.filter_eq_some_iff.mp hfresh
      split
      · exact .inl ⟨_, rfl⟩
      split
      · exact .inl ⟨_, rfl⟩
      split
      · exact .inl ⟨_, rfl⟩
      next hmerge hdata =>
        refine .inr ⟨_, .merged hkey (of_decide_eq_true hother) (by simpa using hmerge)
          (by simpa using hdata), ?_⟩
        rw [pointKey_eq hfree, Option.bind_eq_bind, Option.bind_some, markLink_eq hstorable]
        rfl
  · next hnone =>
      -- a key of the account would be this one, which nobody holds
      have haccount : db.keyOf row.account = none := by
        cases hkey : db.keyOf row.account with
        | none => rfl
        | some key =>
            rw [hkey, Option.filter_eq_none_iff] at hnone
            have hsame : key.storageActorId = storageKey := by simpa using hnone key rfl
            obtain ⟨_, hheld⟩ := holder_of_keyOf h hkey
            rw [hsame, hfree] at hheld
            cases hheld
      refine .inr ⟨_, .new haccount, ?_⟩
      have hkeyed : (db.insertKey ⟨row.account, storageKey, kind, .linkIdentities⟩).bind
          (fun keyed => keyed.insertAccount row.account (linkedRow kind publicId)) =
            some (db.keyedFor ⟨row.account, storageKey, kind, .linkIdentities⟩
              (linkedRow kind publicId)) :=
        keyedFor_eq h haccount hfree
      obtain ⟨keyed, hinserted, hcached⟩ := Option.bind_eq_some_iff.mp hkeyed
      simp only [hinserted, hcached, Option.bind_eq_bind, Option.bind_some, markLink_eq hstorable]

/-- **What `link_one` can do**: stop, where it may have freed the key already, or link the
account. -/
theorem linkOne_cases (h : db.Constraints) (hstorable : storablePrincipal row.principal = true) :
    (∃ conflict left, (left = db ∨ Freed db options storageKey row.account left) ∧
        db.linkOne now options row storageKey kind publicId = some (left, .error conflict)) ∨
      ∃ new linked, LinkedBy db now options row storageKey kind publicId new linked ∧
        db.linkOne now options row storageKey kind publicId = some (linked, .ok new) := by
  have hclaim : ∀ freed : IdentityDb, Freed db options storageKey row.account freed →
      (∃ conflict left, (left = db ∨ Freed db options storageKey row.account left) ∧
        freed.claimKey now options row storageKey kind publicId = some (left, .error conflict)) ∨
      ∃ new linked, LinkedBy db now options row storageKey kind publicId new linked ∧
        freed.claimKey now options row storageKey kind publicId = some (linked, .ok new) := by
    intro freed hfreed
    rcases claimKey_cases (hfreed.constraints h)
      (hfreed.holder h) hstorable with ⟨conflict, hconflict⟩ | ⟨claimed, hclaimed, heq⟩
    · exact .inl ⟨conflict, freed, .inr hfreed, hconflict⟩
    · exact .inr ⟨true, _, .claimed hfreed hclaimed, heq⟩
  unfold linkOne
  split
  · next hnone => exact hclaim db (.free hnone)
  · next held hheld =>
      split
      · next hsame =>
          refine .inr ⟨false, _, .already hheld hsame, ?_⟩
          rw [markLink_eq hstorable]
          rfl
      · next hother =>
          split
          · exact .inl ⟨_, db, .inl rfl, rfl⟩
          · next hrelink =>
              split
              · exact .inl ⟨_, db, .inl rfl, rfl⟩
              · next hunused =>
                  simp only [Bool.not_eq_true', Bool.and_eq_false_iff, not_or, Bool.not_eq_false,
                    decide_eq_false_iff_not, not_not] at hrelink
                  obtain ⟨_, hkey⟩ := keyOf_of_holder h hheld
                  rw [release_eq h hkey hrelink.2]
                  exact hclaim _ (.relinked hheld hother hrelink.1 hrelink.2
                    (Bool.not_eq_true _ ▸ hunused))

/-! ## What is not changed -/

/-- The tables of the accounts' data, and the settings. -/
structure SameData (db db' : IdentityDb) : Prop where
  jobs : db'.jobs = db.jobs
  records : db'.records = db.records
  proofs : db'.proofs = db.proofs
  heldAudio : db'.heldAudio = db.heldAudio
  bugReports : db'.bugReports = db.bugReports
  settings : db'.settings = db.settings
  grants : db'.grants = db.grants

theorem SameData.refl (db : IdentityDb) : SameData db db := ⟨rfl, rfl, rfl, rfl, rfl, rfl, rfl⟩

theorem SameData.trans {db'' : IdentityDb} (h : SameData db db') (h' : SameData db' db'') :
    SameData db db'' where
  jobs := h'.jobs.trans h.jobs
  records := h'.records.trans h.records
  proofs := h'.proofs.trans h.proofs
  heldAudio := h'.heldAudio.trans h.heldAudio
  bugReports := h'.bugReports.trans h.bugReports
  settings := h'.settings.trans h.settings
  grants := h'.grants.trans h.grants

theorem SameData.keepFence (db : IdentityDb) (account : AccountUuid) :
    SameData db (db.keepFence account) := by
  unfold IdentityDb.keepFence
  split
  · exact .refl db
  · split
    · exact .refl db
    · exact ⟨rfl, rfl, rfl, rfl, rfl, rfl, rfl⟩

theorem Freed.sameData (hfreed : Freed db options storageKey account db') : SameData db db' := by
  cases hfreed with
  | free => exact .refl db
  | relinked => exact .trans (.keepFence db _) ⟨rfl, rfl, rfl, rfl, rfl, rfl, rfl⟩

theorem Claimed.sameData (hclaimed : Claimed db options storageKey kind publicId account db') :
    SameData db db' := by
  cases hclaimed with
  | new => exact ⟨rfl, rfl, rfl, rfl, rfl, rfl, rfl⟩
  | merged => exact ⟨rfl, rfl, rfl, rfl, rfl, rfl, rfl⟩

theorem SameData.marked (db : IdentityDb) (principal : String) :
    SameData db (db.marked now principal account storageKey) :=
  ⟨rfl, rfl, rfl, rfl, rfl, rfl, rfl⟩

theorem LinkedBy.sameData {new : Bool}
    (hlinked : LinkedBy db now options row storageKey kind publicId new db') :
    SameData db db' := by
  cases hlinked with
  | already => exact .marked db _
  | claimed hfreed hclaimed => exact (hfreed.sameData.trans hclaimed.sameData).trans (.marked _ _)

theorem SameData.kindFromRows (h : SameData db db') (storageKey : ActorId)
    (publicId : Option String) :
    db'.kindFromRows storageKey publicId = db.kindFromRows storageKey publicId := by
  unfold IdentityDb.kindFromRows
  rw [h.jobs, h.records, h.settings, h.bugReports]

/-- The kind of a storage key is found for that key. -/
theorem kindFromRows_found {asked : ActorId} {askedId : Option String}
    (h : db.kindFromRows asked askedId = .found storageKey kind publicId) : asked = storageKey ∧
    askedId = publicId := by
  unfold IdentityDb.kindFromRows at h
  split at h
  · obtain ⟨hkey, _, hid⟩ := Legacy.found.inj h
    exact ⟨hkey, hid⟩
  · split at h
    · cases h
    · cases h

theorem SameData.keyHasData (h : SameData db db') (storageKey : ActorId) :
    db'.keyHasData storageKey = db.keyHasData storageKey := by
  unfold IdentityDb.keyHasData
  rw [h.jobs, h.records, h.settings, h.bugReports, h.proofs, h.heldAudio]

theorem Freed.links (hfreed : Freed db options storageKey account db') : db'.links = db.links := by
  cases hfreed with
  | free => rfl
  | relinked => exact released_links

theorem Claimed.links (hclaimed : Claimed db options storageKey kind publicId account db') :
    db'.links = db.links := by
  cases hclaimed with
  | new => rfl
  | merged => rfl

/-- What the links are after a row. -/
theorem LinkedBy.linkOf {new : Bool}
    (hlinked : LinkedBy db now options row storageKey kind publicId new db')
    (principal : String) :
    db'.linkOf principal =
      if principal = row.principal then
        some (((db.linkOf row.principal).map (LinkRow.marked row.account now)).getD
          ⟨row.principal, none, storageKey, some ⟨row.account, now⟩⟩)
      else db.linkOf principal := by
  cases hlinked with
  | already => exact marked_linkOf _ _
  | claimed hfreed hclaimed =>
      rw [marked_linkOf]
      unfold IdentityDb.linkOf
      rw [hclaimed.links, hfreed.links]

section Legacy

variable {parseUuid : String → Option Uuid}

/-- A principal is known by its data and its link, of which only the account changes. -/
theorem LinkedBy.legacyKey {new : Bool}
    (hlinked : LinkedBy db now options row storageKey kind publicId new db')
    (hfound : db.legacyKey parseUuid row.principal = .found storageKey kind publicId)
    (principal : String) :
    db'.legacyKey parseUuid principal = db.legacyKey parseUuid principal := by
  have hkinds := hlinked.sameData.kindFromRows
  unfold IdentityDb.legacyKey
  rw [hlinked.linkOf]
  by_cases hsame : principal = row.principal
  · rw [if_pos hsame, hsame]
    cases hlink : db.linkOf row.principal with
    | some link =>
        simp only [Option.map_some, Option.getD_some, LinkRow.marked, hkinds]
    | none =>
        -- the new link names the key that the principal's own UUID was
        simp only [Option.map_none, Option.getD_none, Option.bind_none, hkinds]
        cases hparsed : (parseUuid row.principal).bind storageKey? with
        | none =>
            simp only [IdentityDb.legacyKey, hlink, hparsed] at hfound
            cases hfound
        | some parsed =>
            simp only [IdentityDb.legacyKey, hlink, hparsed] at hfound
            rw [(kindFromRows_found hfound).1]
  · rw [if_neg hsame]
    simp only [hkinds]

theorem Freed.legacyKey (hfreed : Freed db options storageKey account db') (principal : String) :
    db'.legacyKey parseUuid principal = db.legacyKey parseUuid principal := by
  unfold IdentityDb.legacyKey IdentityDb.linkOf
  rw [hfreed.links]
  simp only [hfreed.sameData.kindFromRows]

end Legacy

end IdentityDb

end Waveform.Operator
