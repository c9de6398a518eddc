import Waveform.Directory.Account

/-!
# The id of the custodian

The row of a Silicon carries a copy of its custodian's public id (`custodian_id`), which is shown.
Webhooks, token sightings and lookups write the copy or the id that it is a copy of; some writers of
the id bring the copies up to date in the same transaction, and some leave them.

- `CachedIds`: the rows of all accounts with their copies, and whether each copy was last written
  when the account that it is about was held.
- `CachedIds.Fits`: the condition under which a step keeps the copies in agreement.
- `Account.heldId_next`, `Account.custodianOf_next`: what an event makes of the columns that matter.
-/

set_option autoImplicit false

namespace Waveform.Directory

open Waveform.Domain LabelledRun

/-! ## Reading a row -/

namespace Account

/-- `current_id`. -/
def heldId (account : Account) : Option String := account.row.bind (·.currentId)

/-- `custodian_uuid`. -/
def custodianOf (account : Account) : Option AccountUuid := account.row.bind (·.custodianUuid)

/-- A tombstone. -/
def gone (account : Account) : Bool := (account.row.bind (·.deletedAt)).isSome

/-- A live row that a condition selects. -/
def selects (account : Account) (applies : AccountRow → Bool) : Bool :=
  account.row.any fun row => row.deletedAt.isNone && applies row

/-- The UPDATE changes the row: it selects it and no CHECK refuses what it makes of it. -/
def changes (account : Account) (applies : AccountRow → Bool) (change : AccountRow → AccountRow) :
    Bool :=
  account.row.any fun row => row.deletedAt.isNone && applies row && (change row).storable

end Account

/-! ## The system -/

/-- The rows of all accounts, with the column `custodian_id`. -/
structure CachedIds where
  account : AccountUuid → Account
  custodianId : AccountUuid → Option String
  /-- The column was last written when the account that `custodian_uuid` names was held with an
  id. -/
  copied : AccountUuid → Bool

namespace CachedIds

/-- Nothing is known of any account. -/
def empty : CachedIds := ⟨fun _ => .unknown, fun _ => none, fun _ => false⟩

/-- The condition and the change of the UPDATE of `adopt_id`. -/
def adopts (id : String) (asOf : Nat) (row : AccountRow) : Bool :=
  row.currentId ≠ some id && row.idChangedAt.all fun changed => changed < asOf

/-- The condition of the UPDATE of `account.id_changed`. -/
def notNewer (occurred : Nat) (row : AccountRow) : Bool :=
  row.idChangedAt.all fun changed => changed ≤ occurred

/-- The row with an id that was right at an instant. -/
def withId (id : String) (instant : Nat) (row : AccountRow) : AccountRow :=
  { row with currentId := some id, idChangedAt := some instant }

/-- The condition of the UPDATE of `silicon.custodian_changed`. -/
def takesCustodian (occurred : Nat) (row : AccountRow) : Bool :=
  row.kind = .silicon && row.custodianChangedAt.all fun changed => changed ≤ occurred

/-- The row with another custodian. -/
def withCustodian (uuid : AccountUuid) (occurred now : Nat) (row : AccountRow) : AccountRow :=
  { row with
      custodianUuid := some uuid
      custodianChangedAt := some occurred
      custodianCheckedAt := some now }

/-- The id of the custodian that a lookup names. -/
def namedId (summary : Account.AccountSummary) : Option String :=
  (summary.custodian.filter fun custodian =>
    summary.kind = .silicon && (AccountUuid.fromStr? custodian.uuid).isSome).map (·.id)

/-- The subquery of `store_summary`: the id that is cached of the custodian the lookup names, when
it was changed since. -/
def idSince (st : CachedIds) (summary : Account.AccountSummary) (started : Nat) : Option String :=
  summary.custodianUuid.bind fun uuid => (st.account uuid).row.bind fun row =>
    if Account.withinSkew row.idChangedAt started then row.currentId else none

/-- What `store_summary` writes in `custodian_id` of a row; where it assigns the column to itself,
it writes nothing. -/
def summaryWrite (st : CachedIds) (summary : Account.AccountSummary) (started : Nat)
    (row : AccountRow) : Option (Option String) :=
  if row.kind ≠ .silicon then some none
  else if Account.withinSkew row.custodianChangedAt started then none
  else ((st.idSince summary started).or (namedId summary)).map some

/-- What the statements of an event about the account `uuid` write in `custodian_id` of the account
`silicon`. -/
def write (st : CachedIds) (uuid : AccountUuid) (event : DirectoryEvent) (silicon : AccountUuid) :
    Option (Option String) :=
  match event with
  | .adoptId id asOf =>
      if (st.account uuid).changes (adopts id asOf) (withId id asOf) ∧
          (st.account silicon).custodianOf = some uuid ∧ st.custodianId silicon ≠ some id then
        some (some id)
      else none
  | .idChanged newId occurred =>
      -- Silicons get the new id also when the UPDATE of the account itself selects no row; where a
      -- CHECK refuses that UPDATE, the transaction ends.
      if ((st.account uuid).changes (notNewer occurred) (withId newId occurred) ∨
            (st.account uuid).selects (notNewer occurred) = false) ∧
          (st.account silicon).custodianOf = some uuid then
        some (some newId)
      else none
  | .updateSummary summary started now =>
      if silicon = uuid ∧ (st.account uuid).changes (fun _ => true)
          (Account.summarized summary started now) then
        (st.account uuid).row.bind (st.summaryWrite summary started)
      else none
  | .custodianChanged named occurred now =>
      named.bind fun custodian => (AccountUuid.fromStr? custodian.uuid).bind fun toUuid =>
        if silicon = uuid ∧ (st.account uuid).changes (takesCustodian occurred)
            (withCustodian toUuid occurred now) then
          some (nonEmpty custodian.id)
        else none
  | .ensure _ _ _ _ =>
      if silicon = uuid ∧ (st.account uuid).pending.any (·.deletedAt.isSome)
        then some none else none
  | .deleted _ =>
      if silicon = uuid ∧ (st.account uuid).key.isSome then some none else none
  | _ => none

/-- The rows after an event about the account `uuid`. -/
def next (st : CachedIds) (uuid : AccountUuid) (event : DirectoryEvent) : CachedIds :=
  let account := Function.update st.account uuid ((st.account uuid).next event)
  { account := account
    custodianId := fun silicon => (st.write uuid event silicon).getD (st.custodianId silicon)
    copied := fun silicon =>
      match st.write uuid event silicon with
      | none => st.copied silicon
      | some _ => (account silicon).custodianOf.any fun custodian =>
          (account custodian).heldId.isSome }

/-- A step of the directory. -/
inductive Step : CachedIds → AccountUuid × DirectoryEvent → CachedIds → Prop where
  | next (st : CachedIds) (uuid : AccountUuid) (event : DirectoryEvent) :
      Step st (uuid, event) (st.next uuid event)

/-- The copy in the row of one Silicon is the id that its custodian is held with. -/
def AgreesAt (st : CachedIds) (silicon : AccountUuid) : Prop :=
  ∀ custodian id, (st.account silicon).custodianOf = some custodian →
    (st.account custodian).heldId = some id → st.copied silicon = true →
      st.custodianId silicon = some id

/-- Every copy that was made of a known id agrees with it. -/
def Agrees (st : CachedIds) : Prop := ∀ silicon, st.AgreesAt silicon

/-! ## Which steps keep them in agreement -/

/-- A Silicon whose copy is about the account shows the id already. -/
def Shows (st : CachedIds) (silicon uuid : AccountUuid) (id : String) : Prop :=
  (st.account silicon).custodianOf = some uuid → st.copied silicon = true →
    st.custodianId silicon = some id

/-- The row with the profile of `account.updated`. -/
def withProfile (profile : Account.Profile) (row : AccountRow) : AccountRow :=
  { row with
      displayName := nonEmpty profile.displayName
      pfpUrl := nonEmpty profile.pfpUrl
      currentId := (nonEmpty profile.id).or row.currentId
      profileVersion := profile.version }

/-- The lookup leaves the custodian of the row. -/
def keepsCustodian (summary : Account.AccountSummary) (started : Nat) (row : AccountRow) : Bool :=
  row.kind = .silicon &&
    (Account.withinSkew row.custodianChangedAt started || summary.custodianUuid.isNone)

/-- A lookup of the account `uuid` keeps the copies: an id that it brings is shown already by every
Silicon of the account, and it names the custodian of a Silicon by the id that the custodian is held
with, unless that id was changed since. -/
structure SummaryFits (st : CachedIds) (uuid : AccountUuid) (summary : Account.AccountSummary)
    (started : Nat) (row : AccountRow) : Prop where
  own : Account.withinSkew row.idChangedAt started = false → ∀ id, nonEmpty summary.id = some id →
    ∀ silicon, (silicon = uuid → keepsCustodian summary started row = true) →
      st.Shows silicon uuid id
  custodian : row.kind = .silicon → Account.withinSkew row.custodianChangedAt started = false →
    ∀ named held, summary.custodianUuid = some named → st.idSince summary started = none →
      (if named = uuid then (nonEmpty summary.id).or row.currentId else (st.account named).heldId) =
        some held →
      namedId summary = some held

/-- The condition under which a step keeps the copies in agreement. -/
def Fits (st : CachedIds) (uuid : AccountUuid) : DirectoryEvent → Prop
  | .updated profile =>
      (st.account uuid).changes (fun row => row.profileVersion < profile.version)
          (withProfile profile) = true →
        ∀ id, nonEmpty profile.id = some id → ∀ silicon, st.Shows silicon uuid id
  | .idChanged newId occurred =>
      (st.account uuid).selects (notNewer occurred) = false →
        ∀ held, (st.account uuid).heldId = some held →
          ∀ silicon, (st.account silicon).custodianOf = some uuid → newId = held
  | .updateSummary summary started now =>
      (st.account uuid).changes (fun _ => true) (Account.summarized summary started now) = true →
        ∀ row, (st.account uuid).row = some row → st.SummaryFits uuid summary started row
  | .custodianChanged named occurred now =>
      ∀ custodian toUuid, named = some custodian →
        AccountUuid.fromStr? custodian.uuid = some toUuid →
        (st.account uuid).changes (takesCustodian occurred)
        (withCustodian toUuid occurred now) = true →
          ∀ held, (st.account toUuid).heldId = some held → nonEmpty custodian.id = some held
  | _ => True

end CachedIds

/-! ## What an event makes of a row -/

namespace Account

open CachedIds

variable {account : Account}

/-- What is read of a row after an UPDATE. -/
theorem bind_updateLive {α : Type} (applies : AccountRow → Bool) (change : AccountRow → AccountRow)
    (column : AccountRow → Option α) :
    (account.updateLive applies change).row.bind column =
      if account.changes applies change then account.row.bind fun row => column (change row)
      else account.row.bind column := by
  cases hrow : account.row with
  | none => simp [updateLive, changes, hrow]
  | some row =>
      simp only [updateLive, changes, hrow, Option.map_some, Option.bind_some, Option.any_some]
      split
      · rfl
      · rfl

/-- An UPDATE that changes a row finds one. -/
theorem exists_row_of_changes {applies : AccountRow → Bool} {change : AccountRow → AccountRow}
    (h : account.changes applies change = true) :
    ∃ row, account.row = some row ∧ row.deletedAt = none ∧ applies row = true ∧
      (change row).storable = true := by
  obtain ⟨row, hrow, hany⟩ := (Option.any_eq_true _ _).mp h
  rw [Bool.and_eq_true, Bool.and_eq_true, Option.isNone_iff_eq_none] at hany
  exact ⟨row, hrow, hany.1.1, hany.1.2, hany.2⟩

/-- An UPDATE of other columns leaves what is read of the row. -/
theorem bind_updateLive_of_keeps {α : Type} (applies : AccountRow → Bool)
    {change : AccountRow → AccountRow} {column : AccountRow → Option α}
    (h : ∀ row, column (change row) = column row) :
    (account.updateLive applies change).row.bind column = account.row.bind column := by
  rw [bind_updateLive]
  simp only [h, ite_self]

/-- The end of sign-ins leaves the cached columns. -/
theorem bind_endSignIns {α : Type} {column : AccountRow → Option α}
    (h : ∀ row ended reason, column (row.endSignIns ended reason) = column row) (occurred : Nat)
    (reason : String) : (account.endSignIns occurred reason).row.bind column =
      account.row.bind column := by
  obtain ⟨key, row, pending⟩ := account
  cases key with
  | none => rfl
  | some key =>
      cases row with
      | none => rfl
      | some row => exact h row occurred reason

/-- What a webhook about the sign-ins leaves. -/
theorem bind_next_signedOut {α : Type} {column : AccountRow → Option α}
    (h : ∀ row ended reason, column (row.endSignIns ended reason) = column row)
    (reason : Option String) (occurred : Nat) :
    (account.next (.signedOut reason occurred)).row.bind column = account.row.bind column := by
  unfold next
  dsimp only
  split
  · rfl
  · exact bind_endSignIns h occurred _

/-- No column is read of an account that was not seen. -/
theorem purgeAccount_row (h : WellFormed account) (occurred : Nat) :
    (account.purgeAccount occurred).row = account.row.map (·.tombstone occurred) := by
  cases h with
  | unseen _ => rfl
  | seen _ => rfl

/-- The public id after an event. -/
theorem heldId_next (h : WellFormed account) (event : DirectoryEvent) :
    (account.next event).heldId =
      match event with
      | .adoptId id asOf =>
          if account.changes (adopts id asOf) (withId id asOf) then some id else account.heldId
      | .idChanged newId occurred =>
          if account.changes (notNewer occurred) (withId newId occurred) then some newId
          else account.heldId
      | .updated profile =>
          if account.changes (fun row => row.profileVersion < profile.version)
              (withProfile profile) then
            (nonEmpty profile.id).or account.heldId
          else account.heldId
      | .updateSummary summary started now =>
          if account.changes (fun _ => true) (summarized summary started now) then
            account.row.bind fun row => (summarized summary started now row).currentId
          else account.heldId
      | .ensure newKey kind idHint asOf => (account.ensure newKey kind idHint asOf).heldId
      | .deleted _ => none
      | _ => account.heldId := by
  cases event with
  | ensure newKey kind idHint asOf => rfl
  | adoptId id asOf =>
      refine (bind_updateLive _ _ _).trans (ite_congr rfl (fun hchanges => ?_) fun _ => rfl)
      obtain ⟨row, hrow, _⟩ := exists_row_of_changes hchanges
      rw [hrow]
      rfl
  | updateSummary summary started now => exact bind_updateLive _ _ _
  | completeProfile info => exact bind_updateLive_of_keeps _ fun _ => rfl
  | idChanged newId occurred =>
      refine (bind_updateLive _ _ _).trans (ite_congr rfl (fun hchanges => ?_) fun _ => rfl)
      obtain ⟨row, hrow, _⟩ := exists_row_of_changes hchanges
      rw [hrow]
      rfl
  | updated profile =>
      refine (bind_updateLive _ _ _).trans (ite_congr rfl (fun hchanges => ?_) fun _ => rfl)
      obtain ⟨row, hrow, _⟩ := exists_row_of_changes hchanges
      rw [heldId, hrow]
      rfl
  | custodianChanged named occurred now =>
      change (account.custodianChanged named occurred now).heldId = _
      unfold custodianChanged
      split
      · rfl
      · exact bind_updateLive_of_keeps _ fun _ => rfl
  | signedOut reason occurred => exact bind_next_signedOut (fun _ _ _ => rfl) reason occurred
  | accessRemoved occurred => exact bind_endSignIns (fun _ _ _ => rfl) occurred _
  | deleted occurred =>
      change (account.purgeAccount occurred).row.bind _ = _
      rw [purgeAccount_row h, Option.bind_map]
      exact Option.bind_fun_none _

/-- The custodian after an event. -/
theorem custodianOf_next (h : WellFormed account) (event : DirectoryEvent) :
    (account.next event).custodianOf =
      match event with
      | .updateSummary summary started now =>
          if account.changes (fun _ => true) (summarized summary started now) then
            account.row.bind fun row => (summarized summary started now row).custodianUuid
          else account.custodianOf
      | .custodianChanged named occurred now =>
          match named.bind fun custodian => AccountUuid.fromStr? custodian.uuid with
          | none => account.custodianOf
          | some toUuid =>
              if account.changes (takesCustodian occurred) (withCustodian toUuid occurred now) then
                some toUuid
              else account.custodianOf
      | .deleted _ => none
      | _ => account.custodianOf := by
  cases event with
  | ensure newKey kind idHint asOf =>
      change (account.ensure newKey kind idHint asOf).row.bind _ = _
      cases h with
      | unseen hpending =>
          rename_i pending
          rw [ensure_unseen]
          cases pending with
          | none => rfl
          | some event =>
              obtain ⟨revokedBefore, revokedReason, deletedAt⟩ := event
              cases deletedAt with
              | none => rfl
              | some deleted => rfl
      | seen hrow =>
          rw [ensure_seen]
          unfold ensureRow
          dsimp only
          split
          · rfl
          · rfl
  | adoptId id asOf => exact bind_updateLive_of_keeps _ fun _ => rfl
  | updateSummary summary started now => exact bind_updateLive _ _ _
  | completeProfile info => exact bind_updateLive_of_keeps _ fun _ => rfl
  | idChanged newId occurred => exact bind_updateLive_of_keeps _ fun _ => rfl
  | updated profile => exact bind_updateLive_of_keeps _ fun _ => rfl
  | custodianChanged named occurred now =>
      change (account.custodianChanged named occurred now).custodianOf = _
      unfold custodianChanged
      dsimp only
      cases named.bind fun custodian => AccountUuid.fromStr? custodian.uuid with
      | none => rfl
      | some toUuid =>
          refine (bind_updateLive _ _ _).trans (ite_congr rfl (fun hchanges => ?_) fun _ => rfl)
          obtain ⟨row, hrow, _⟩ := exists_row_of_changes hchanges
          rw [hrow]
          rfl
  | signedOut reason occurred => exact bind_next_signedOut (fun _ _ _ => rfl) reason occurred
  | accessRemoved occurred => exact bind_endSignIns (fun _ _ _ => rfl) occurred _
  | deleted occurred =>
      change (account.purgeAccount occurred).row.bind _ = _
      rw [purgeAccount_row h, Option.bind_map]
      exact Option.bind_fun_none _

/-- The public id is known, or the account was deleted. -/
def settled (account : Account) : Prop := account.heldId.isSome = true ∨ account.gone = true

/-- A sighting fills the id of an account that has none. -/
theorem heldId_ensure_of_settled (h : WellFormed account) (hsettled : account.settled)
    (newKey : ActorId) (kind : ActorKind) (idHint : Option String) (asOf : Option Nat) :
    (account.ensure newKey kind idHint asOf).heldId = account.heldId := by
  cases h with
  | unseen _ =>
      rcases hsettled with hknown | hgone
      · cases hknown
      · cases hgone
  | seen _ =>
      rename_i key row _
      rw [ensure_seen]
      have hkept : ¬ (row.currentId.isNone = true ∧ row.deletedAt.isNone = true ∧
          (hintFor kind idHint).isSome = true) := by
        rintro ⟨hnone, hlive, _⟩
        rw [Option.isNone_iff_eq_none] at hnone hlive
        rcases hsettled with hknown | hgone
        · simp [heldId, hnone] at hknown
        · simp [gone, hlive] at hgone
      exact congrArg AccountRow.currentId (if_neg hkept)

/-- A deleted account stays deleted. -/
theorem gone_next (h : WellFormed account) (hgone : account.gone = true) (event : DirectoryEvent) :
    (account.next event).gone = true := by
  have hkeeps : (account.next event).row.bind (·.deletedAt) = account.row.bind (·.deletedAt) →
      (account.next event).gone = true := by
    intro heq
    unfold gone
    rw [heq]
    exact hgone
  cases event with
  | ensure newKey kind idHint asOf =>
      cases h with
      | unseen _ => cases hgone
      | seen _ =>
          apply hkeeps
          change (ensure _ newKey kind idHint asOf).row.bind _ = _
          rw [ensure_seen]
          unfold ensureRow
          dsimp only
          split
          · rfl
          · rfl
  | adoptId id asOf => exact hkeeps (bind_updateLive_of_keeps _ fun _ => rfl)
  | updateSummary summary started now => exact hkeeps (bind_updateLive_of_keeps _ fun _ => rfl)
  | completeProfile info => exact hkeeps (bind_updateLive_of_keeps _ fun _ => rfl)
  | idChanged newId occurred => exact hkeeps (bind_updateLive_of_keeps _ fun _ => rfl)
  | updated profile => exact hkeeps (bind_updateLive_of_keeps _ fun _ => rfl)
  | custodianChanged named occurred now =>
      apply hkeeps
      change (account.custodianChanged named occurred now).row.bind _ = _
      unfold custodianChanged
      split
      · rfl
      · exact bind_updateLive_of_keeps _ fun _ => rfl
  | signedOut reason occurred =>
      exact hkeeps (bind_next_signedOut (fun _ _ _ => rfl) reason occurred)
  | accessRemoved occurred => exact hkeeps (bind_endSignIns (fun _ _ _ => rfl) occurred _)
  | deleted occurred =>
      change ((account.purgeAccount occurred).row.bind _).isSome = true
      rw [purgeAccount_row h]
      cases hrow : account.row with
      | none => simp [gone, hrow] at hgone
      | some row => exact Option.isSome_or.trans (by simp)

/-- A known id stays known until the account is deleted. -/
theorem settled_next (h : WellFormed account) (hsettled : account.settled)
    (event : DirectoryEvent) : (account.next event).settled := by
  rcases hsettled with hknown | hgone
  · have hheld := heldId_next h event
    obtain ⟨id, hid⟩ := Option.isSome_iff_exists.mp hknown
    have hleft : (account.next event).heldId.isSome = true → (account.next event).settled := .inl
    cases event with
    | ensure newKey kind idHint asOf =>
        apply hleft
        rw [hheld]
        dsimp only
        rw [heldId_ensure_of_settled h (.inl hknown)]
        exact hknown
    | adoptId newId asOf =>
        apply hleft
        rw [hheld]
        dsimp only
        split
        · rfl
        · exact hknown
    | updateSummary summary started now =>
        apply hleft
        rw [hheld]
        dsimp only
        split
        · obtain ⟨row, hrow, hcurrent⟩ := Option.bind_eq_some_iff.mp hid
          rw [hrow]
          simp only [summarized, hcurrent, Option.bind_some]
          split
          · rfl
          · exact Option.isSome_or.trans (by simp)
        · exact hknown
    | completeProfile info => exact hleft (hheld ▸ hknown)
    | idChanged newId occurred =>
        apply hleft
        rw [hheld]
        dsimp only
        split
        · rfl
        · exact hknown
    | updated profile =>
        apply hleft
        rw [hheld]
        dsimp only
        split
        · rw [hid]
          exact Option.isSome_or.trans (by simp)
        · exact hknown
    | custodianChanged named occurred now => exact hleft (hheld ▸ hknown)
    | signedOut reason occurred => exact hleft (hheld ▸ hknown)
    | accessRemoved occurred => exact hleft (hheld ▸ hknown)
    | deleted occurred =>
        refine .inr ?_
        change ((account.purgeAccount occurred).row.bind _).isSome = true
        rw [purgeAccount_row h]
        cases hrow : account.row with
        | none => simp [heldId, hrow] at hknown
        | some row => exact Option.isSome_or.trans (by simp)
  · exact .inr (gone_next h hgone event)

end Account

end Waveform.Directory
