import Waveform.Directory.Account
import Waveform.Library.VersionedRegister

/-!
# The cached profile

Profiles reach the cache by `account.updated` and by the answers of userinfo that `complete_profile`
reads. Both carry the version of the profile. The webhook writes the profile of a higher version as
it is; `complete_profile` keeps what is cached where the profile it read has nothing, and raises the
version all the same.

- `register_deliver`: the cached profile is a register that the deliveries raise.
- `profile_converges`: the cache ends with the newest profile exactly when that profile was not
  first read from userinfo with an empty field that was not empty in the cache; and then whatever
  the order.
-/

set_option autoImplicit false

namespace Waveform.Directory

open Waveform.Domain

/-! ## Deliveries -/

deriving instance DecidableEq for Account.Profile

/-- A call that may write a profile. -/
inductive ProfileDelivery where
  /-- The webhook `account.updated`; `retired` when the cutover retired the account or the custodian
  that the event names. -/
  | webhook (retired : Bool) (profile : Option Account.Profile)
  /-- `complete_profile` with the record it was given, whether the account was checked lately, and
  what userinfo answered: the uuid of an account and its profile. -/
  | userinfo (record : AccountRecord) (checkedLately : Bool)
      (answer : Option (String × Account.Profile))

/-- `complete_profile`, without the record it returns. -/
def Account.completeProfileFrom (account : Account) (uuid : String) (record : AccountRecord)
    (checkedLately : Bool) (answer : Option (String × Account.Profile)) : Account :=
  if record.deletedAt.isSome || (record.displayName.isSome && record.pfpUrl.isSome) then account
  else if checkedLately then account
  else match answer with
    | none => account
    | some (answered, info) => if answered ≠ uuid then account else account.completeProfile info

/-- `apply` of `account.updated`. -/
def Account.applyUpdated (account : Account) (retired : Bool) (profile : Option Account.Profile) :
    Account :=
  if retired then account
  else match profile with
    | none => account
    | some profile => account.updated profile

/-- The rows after a delivery. -/
def Account.deliver (uuid : String) (account : Account) : ProfileDelivery → Account
  | .webhook retired profile => account.applyUpdated retired profile
  | .userinfo record checkedLately answer =>
      account.completeProfileFrom uuid record checkedLately answer

/-- The rows after deliveries. -/
def Account.deliverAll (uuid : String) (account : Account) (deliveries : List ProfileDelivery) :
    Account :=
  deliveries.foldl (fun account delivery => account.deliver uuid delivery) account

/-- The display name and the photo that are shown. -/
abbrev Shown := Option String × Option String

/-- An empty name or photo means none. -/
def Account.Profile.shown (profile : Account.Profile) : Shown :=
  (nonEmpty profile.displayName, nonEmpty profile.pfpUrl)

def AccountRow.shown (row : AccountRow) : Shown := (row.displayName, row.pfpUrl)

/-- Which statement writes a profile. -/
inductive ProfileWriter where
  | webhook
  | userinfo
  deriving DecidableEq

/-- The CHECKs that a profile must pass where it is written. -/
def Account.Profile.fits (profile : Account.Profile) : ProfileWriter → Bool
  | .webhook => fitsColumn 0 256 profile.displayName && fitsColumn 0 2048 profile.pfpUrl &&
      (nonEmpty profile.id).all (fitsColumn 3 128)
  | .userinfo => fitsColumn 0 256 profile.displayName && fitsColumn 0 2048 profile.pfpUrl

/-- The profile that a delivery applies, and the statement that writes it. -/
def ProfileDelivery.applied (uuid : String) :
    ProfileDelivery → Option (ProfileWriter × Account.Profile)
  | .webhook retired profile =>
      (profile.filter fun profile => !retired && profile.fits .webhook).map fun profile =>
        (.webhook, profile)
  | .userinfo record checkedLately answer =>
      ((answer.filter fun answer => record.deletedAt.isNone &&
        !(record.displayName.isSome && record.pfpUrl.isSome) && !checkedLately &&
        decide (answer.1 = uuid) && answer.2.fits .userinfo)).map fun answer =>
          (.userinfo, answer.2)

/-- What is cached, where a profile has nothing. -/
def keepWhereEmpty (profile cached : Shown) : Shown :=
  (profile.1.or cached.1, profile.2.or cached.2)

/-- The write that a statement is. -/
def profileWrite : ProfileWriter × Account.Profile → VersionedRegister.Write Int Shown
  | (.webhook, profile) => ⟨profile.version, fun _ => profile.shown⟩
  | (.userinfo, profile) => ⟨profile.version, keepWhereEmpty profile.shown⟩

/-- The writes of deliveries. -/
def profileWrites (uuid : String) (deliveries : List ProfileDelivery) :
    List (VersionedRegister.Write Int Shown) :=
  deliveries.filterMap fun delivery => (delivery.applied uuid).map profileWrite

/-- The cached profile and its version. -/
def AccountRow.register (row : AccountRow) : VersionedRegister Int Shown :=
  ⟨row.profileVersion, row.shown⟩

/-! ## One delivery -/

section Delivery

variable {uuid : String} {key : AccountKey} {row : AccountRow} {profiles : Int → Shown}

/-- Each field is that of the profile of its version, or the profile has none. -/
def Settled (profiles : Int → Shown) (r : VersionedRegister Int Shown) : Prop :=
  keepWhereEmpty (profiles r.version) r.value = r.value

theorem keepWhereEmpty_keepWhereEmpty (profile cached : Shown) :
    keepWhereEmpty profile (keepWhereEmpty profile cached) = keepWhereEmpty profile cached := by
  obtain ⟨name, photo⟩ := profile
  cases name <;> cases photo <;> rfl

theorem keepWhereEmpty_self (profile : Shown) : keepWhereEmpty profile profile = profile := by
  obtain ⟨name, photo⟩ := profile
  cases name <;> cases photo <;> rfl

/-- Keeping what is cached gives the profile where nothing is kept. -/
theorem keepWhereEmpty_eq_iff {profile cached : Shown} :
    keepWhereEmpty profile cached = profile ↔
      (profile.1 = none → cached.1 = none) ∧ (profile.2 = none → cached.2 = none) := by
  obtain ⟨name, photo⟩ := profile
  cases name <;> cases photo <;> simp [keepWhereEmpty, Prod.ext_iff]

/-- The profile that a write is for is the one of its version. -/
def Versioned (profiles : Int → Shown) (applied : ProfileWriter × Account.Profile) : Prop :=
  applied.2.shown = profiles applied.2.version

instance (profiles : Int → Shown) (applied : ProfileWriter × Account.Profile) :
    Decidable (Versioned profiles applied) :=
  inferInstanceAs (Decidable (_ = _))

theorem Settled.write {r : VersionedRegister Int Shown} (h : Settled profiles r)
    {applied : ProfileWriter × Account.Profile} (hversioned : Versioned profiles applied) :
    Settled profiles (r.write (profileWrite applied)) := by
  obtain ⟨writer, profile⟩ := applied
  have hshown : profile.shown = profiles profile.version := hversioned
  unfold VersionedRegister.write
  split
  · cases writer with
    | webhook =>
        change keepWhereEmpty (profiles profile.version) profile.shown = profile.shown
        rw [hshown, keepWhereEmpty_self]
    | userinfo =>
        change keepWhereEmpty (profiles profile.version) (keepWhereEmpty profile.shown r.value) =
          keepWhereEmpty profile.shown r.value
        rw [hshown, keepWhereEmpty_keepWhereEmpty]
  · exact h

/-- A row that is not deleted. -/
structure LiveRow (key : AccountKey) (row : AccountRow) : Prop where
  rowFor : RowFor key row
  live : row.deletedAt = none

/-- The row with the profile of the webhook. -/
def AccountRow.withUpdated (row : AccountRow) (profile : Account.Profile) : AccountRow :=
  { row with
      displayName := nonEmpty profile.displayName
      pfpUrl := nonEmpty profile.pfpUrl
      currentId := (nonEmpty profile.id).or row.currentId
      profileVersion := profile.version }

/-- The row with what userinfo answered. -/
def AccountRow.withUserinfo (row : AccountRow) (info : Account.Profile) : AccountRow :=
  { row with
      displayName := (nonEmpty info.displayName).or row.displayName
      pfpUrl := (nonEmpty info.pfpUrl).or row.pfpUrl
      profileVersion := max row.profileVersion info.version }

theorem nonEmpty_all_fits (value : String) (limit : Nat) :
    (nonEmpty value).all (fitsColumn 0 limit) = fitsColumn 0 limit value := by
  unfold nonEmpty
  split
  · rename_i hempty
    rw [String.isEmpty_iff] at hempty
    subst hempty
    simp [fitsColumn, Store.storableText]
  · rfl

/-- A CHECK on a value over what is cached, which passes it. -/
theorem all_or_cached {α : Type} {p : α → Bool} {cached : Option α} (h : cached.all p = true)
    (value : Option α) : (value.or cached).all p = value.all p := by
  cases value with
  | none => exact h
  | some value => rfl

/-- The CHECKs on the written row are those on the profile. -/
theorem withUpdated_storable (h : row.storable = true) (profile : Account.Profile) :
    (row.withUpdated profile).storable = profile.fits .webhook := by
  simp only [AccountRow.storable, Bool.and_eq_true] at h
  obtain ⟨⟨⟨hid, _⟩, _⟩, hcustodian⟩ := h
  rw [Account.Profile.fits, ← nonEmpty_all_fits, ← nonEmpty_all_fits, ← all_or_cached hid,
    AccountRow.storable]
  change (_ && _ && _ && (decide (row.kind = .silicon) || row.custodianUuid.isNone)) = _
  rw [hcustodian, Bool.and_true, Bool.and_assoc, Bool.and_comm]
  rfl

theorem withUserinfo_storable (h : row.storable = true) (info : Account.Profile) :
    (row.withUserinfo info).storable = info.fits .userinfo := by
  simp only [AccountRow.storable, Bool.and_eq_true] at h
  obtain ⟨⟨⟨hid, hname⟩, hphoto⟩, hcustodian⟩ := h
  rw [Account.Profile.fits, ← nonEmpty_all_fits, ← nonEmpty_all_fits, ← all_or_cached hname,
    ← all_or_cached hphoto, AccountRow.storable]
  change (row.currentId.all _ && _ && _ &&
    (decide (row.kind = .silicon) || row.custodianUuid.isNone)) = _
  rw [hid, hcustodian, Bool.and_true, Bool.true_and]
  rfl

theorem LiveRow.withUpdated (h : LiveRow key row) {profile : Account.Profile}
    (hfits : profile.fits .webhook = true) : LiveRow key (row.withUpdated profile) := by
  refine ⟨⟨h.rowFor.kind, ?_, ?_⟩, h.live⟩
  · rw [withUpdated_storable h.rowFor.storable, hfits]
  · intro hlive hid
    exact h.rowFor.undated hlive (Option.or_eq_none_iff.mp hid).2

theorem LiveRow.withUserinfo (h : LiveRow key row) {info : Account.Profile}
    (hfits : info.fits .userinfo = true) : LiveRow key (row.withUserinfo info) := by
  refine ⟨⟨h.rowFor.kind, ?_, h.rowFor.undated⟩, h.live⟩
  rw [withUserinfo_storable h.rowFor.storable, hfits]

/-- The UPDATE of the webhook. -/
theorem updated_live (h : LiveRow key row) (profile : Account.Profile) :
    Account.updated ⟨some key, some row, none⟩ profile =
      ⟨some key, some (if row.profileVersion < profile.version ∧ profile.fits .webhook = true then
        row.withUpdated profile else row), none⟩ := by
  have heq := Account.updateLive_seen key row (fun row => row.profileVersion < profile.version)
    (·.withUpdated profile)
  rw [Account.updatedRow, withUpdated_storable h.rowFor.storable, h.live] at heq
  simp only [Option.isNone_none, Bool.true_and, Bool.and_eq_true, decide_eq_true_eq] at heq
  exact heq

/-- The UPDATE of `complete_profile`. -/
theorem completeProfile_live (h : LiveRow key row) (info : Account.Profile) :
    Account.completeProfile ⟨some key, some row, none⟩ info =
      ⟨some key, some (if row.profileVersion ≤ info.version ∧ info.fits .userinfo = true then
        row.withUserinfo info else row), none⟩ := by
  have heq := Account.updateLive_seen key row (fun row => row.profileVersion ≤ info.version)
    (·.withUserinfo info)
  rw [Account.updatedRow, withUserinfo_storable h.rowFor.storable, h.live] at heq
  simp only [Option.isNone_none, Bool.true_and, Bool.and_eq_true, decide_eq_true_eq] at heq
  exact heq

/-- The write of the webhook raises the register. -/
theorem register_updated (h : LiveRow key row) {profile : Account.Profile}
    (hfits : profile.fits .webhook = true) :
    ∃ row', Account.updated ⟨some key, some row, none⟩ profile = ⟨some key, some row', none⟩ ∧
      LiveRow key row' ∧ row'.register = row.register.write (profileWrite (.webhook, profile)) := by
  rw [updated_live h]
  by_cases hversion : row.profileVersion < profile.version
  · rw [if_pos ⟨hversion, hfits⟩]
    exact ⟨_, rfl, h.withUpdated hfits, (VersionedRegister.write_of_lt (r := row.register)
      (w := profileWrite (.webhook, profile)) hversion).symm⟩
  · rw [if_neg (fun hboth => hversion hboth.1)]
    exact ⟨row, rfl, h, (VersionedRegister.write_of_le (r := row.register)
      (w := profileWrite (.webhook, profile)) (not_lt.mp hversion)).symm⟩

/-- So does the write of `complete_profile`: at the same version it changes nothing. -/
theorem register_completeProfile (h : LiveRow key row) {info : Account.Profile}
    (hfits : info.fits .userinfo = true) (hversioned : Versioned profiles (.userinfo, info))
    (hsettled : Settled profiles row.register) :
    ∃ row', Account.completeProfile ⟨some key, some row, none⟩ info = ⟨some key, some row', none⟩ ∧
      LiveRow key row' ∧ row'.register = row.register.write (profileWrite (.userinfo, info)) := by
  rw [completeProfile_live h]
  have hshown : info.shown = profiles info.version := hversioned
  have hregister : (row.withUserinfo info).register =
      ⟨max row.profileVersion info.version, keepWhereEmpty info.shown row.shown⟩ := rfl
  rcases lt_trichotomy row.profileVersion info.version with hlt | hsame | hgt
  · rw [if_pos ⟨hlt.le, hfits⟩]
    refine ⟨_, rfl, h.withUserinfo hfits, ?_⟩
    rw [VersionedRegister.write_of_lt (r := row.register) (w := profileWrite (.userinfo, info)) hlt,
      hregister, max_eq_right hlt.le]
    rfl
  · rw [if_pos ⟨hsame.le, hfits⟩]
    refine ⟨_, rfl, h.withUserinfo hfits, ?_⟩
    have hkept : keepWhereEmpty info.shown row.shown = row.shown := by
      rw [hshown, ← hsame]
      exact hsettled
    rw [VersionedRegister.write_of_le (r := row.register) (w := profileWrite (.userinfo, info))
      hsame.ge, hregister, hkept, ← hsame, max_self]
    rfl
  · rw [if_neg (fun hboth => absurd hboth.1 (not_le.mpr hgt))]
    exact ⟨row, rfl, h, (VersionedRegister.write_of_le (r := row.register)
      (w := profileWrite (.userinfo, info)) hgt.le).symm⟩

/-- A delivery is the write that it applies, if any. -/
theorem register_deliver (h : LiveRow key row) (hsettled : Settled profiles row.register)
    (delivery : ProfileDelivery)
    (hversioned : ∀ applied ∈ delivery.applied uuid, Versioned profiles applied) :
    ∃ row', Account.deliver uuid ⟨some key, some row, none⟩ delivery = ⟨some key, some row', none⟩ ∧
      LiveRow key row' ∧
      row'.register =
        row.register.writes ((delivery.applied uuid).map profileWrite).toList := by
  cases delivery with
  | webhook retired profile =>
      cases profile with
      | none =>
          refine ⟨row, ?_, h, rfl⟩
          simp [Account.deliver, Account.applyUpdated]
      | some profile =>
          cases retired with
          | true => exact ⟨row, rfl, h, rfl⟩
          | false =>
              change ∃ row', Account.updated ⟨some key, some row, none⟩ profile = _ ∧ _
              cases hfits : profile.fits .webhook with
              | true =>
                  obtain ⟨row', heq, hlive, hregister⟩ := register_updated h hfits
                  refine ⟨row', heq, hlive, ?_⟩
                  simp [ProfileDelivery.applied, Option.filter_some, hfits, hregister]
              | false =>
                  refine ⟨row, ?_, h, by simp [ProfileDelivery.applied, Option.filter_some, hfits]⟩
                  rw [updated_live h, if_neg (by simp [hfits])]
  | userinfo record checkedLately answer =>
      -- A deleted or complete profile is not asked for again.
      by_cases hskip : (record.deletedAt.isSome ||
          (record.displayName.isSome && record.pfpUrl.isSome)) = true
      · refine ⟨row, by simp only [Account.deliver, Account.completeProfileFrom, if_pos hskip], h,
          ?_⟩
        have hnone : ProfileDelivery.applied uuid
            (.userinfo record checkedLately answer) = none := by
          cases answer with
          | none => rfl
          | some answer =>
              rw [ProfileDelivery.applied, Option.filter_some_neg, Option.map_none]
              rcases Bool.or_eq_true_iff.mp hskip with hdeleted | hboth
              · simp [Option.isNone_eq_false_iff.mpr hdeleted]
              · simp [hboth]
        rw [hnone]
        rfl
      · cases checkedLately with
        | true =>
            refine ⟨row, by simp [Account.deliver, Account.completeProfileFrom], h, ?_⟩
            cases answer <;> simp [ProfileDelivery.applied]
        | false =>
            cases answer with
            | none =>
                refine ⟨row, by simp [Account.deliver, Account.completeProfileFrom], h, rfl⟩
            | some answer =>
                obtain ⟨answered, info⟩ := answer
                simp only [Bool.or_eq_true, not_or, Bool.not_eq_true, Option.isSome_eq_false_iff]
                  at hskip
                -- An answer about another account is dropped.
                by_cases huuid : answered = uuid
                · have hdeliver : Account.deliver uuid ⟨some key, some row, none⟩
                      (.userinfo record false (some (answered, info))) =
                        Account.completeProfile ⟨some key, some row, none⟩ info := by
                    simp [Account.deliver, Account.completeProfileFrom, hskip, huuid]
                  rw [hdeliver]
                  cases hfits : info.fits .userinfo with
                  | true =>
                      have happlied : ProfileDelivery.applied uuid
                          (.userinfo record false (some (answered, info))) =
                            some (.userinfo, info) := by
                        simp [ProfileDelivery.applied, Option.filter_some, hskip, huuid, hfits]
                      rw [happlied] at hversioned ⊢
                      exact register_completeProfile h hfits (hversioned _ rfl) hsettled
                  | false =>
                      refine ⟨row, ?_, h, by simp [ProfileDelivery.applied,
                        Option.filter_some, hfits]⟩
                      rw [completeProfile_live h, if_neg (by simp [hfits])]
                · refine ⟨row, ?_, h, by simp [ProfileDelivery.applied, Option.filter_some, huuid]⟩
                  simp [Account.deliver, Account.completeProfileFrom, huuid]

end Delivery

/-! ## All deliveries -/

section Deliveries

variable {uuid : String} {key : AccountKey} {row : AccountRow} {profiles : Int → Shown}
  {deliveries : List ProfileDelivery}

/-- Each profile that is applied is the one of its version. -/
def AllVersioned (uuid : String) (profiles : Int → Shown) (deliveries : List ProfileDelivery) :
    Prop :=
  ∀ delivery ∈ deliveries, ∀ applied ∈ delivery.applied uuid, Versioned profiles applied

/-- The highest version among the cached profile and those applied. -/
def newestVersion (uuid : String) (row : AccountRow) (deliveries : List ProfileDelivery) : Int :=
  ((deliveries.filterMap (·.applied uuid)).map fun applied => applied.2.version).foldl max
    row.profileVersion

/-- The cache ends with the newest profile. -/
def EndsNewest (uuid : String) (key : AccountKey) (row : AccountRow) (profiles : Int → Shown)
    (deliveries : List ProfileDelivery) : Prop :=
  ∃ row', Account.deliverAll uuid ⟨some key, some row, none⟩ deliveries =
    ⟨some key, some row', none⟩ ∧
    row'.shown = profiles (newestVersion uuid row deliveries)

/-- A profile between these deliveries is the newest one, and applied there for the first time. -/
structure FirstNewest (uuid : String) (row : AccountRow) (before : List ProfileDelivery)
    (profile : Account.Profile) (after : List ProfileDelivery) : Prop where
  raises : row.profileVersion < profile.version
  first : ∀ delivery ∈ before, ∀ applied ∈ delivery.applied uuid,
    applied.2.version < profile.version
  newest : ∀ delivery ∈ after, ∀ applied ∈ delivery.applied uuid,
    applied.2.version ≤ profile.version

/-- Where the newest profile is first read from userinfo, each field that it has not is empty in the
cache by then. -/
def NewestReadWhole (uuid : String) (key : AccountKey) (row : AccountRow)
    (deliveries : List ProfileDelivery) : Prop :=
  ∀ before delivery after info cached, deliveries = before ++ delivery :: after →
    delivery.applied uuid = some (.userinfo, info) → FirstNewest uuid row before info after →
    Account.deliverAll uuid ⟨some key, some row, none⟩ before = ⟨some key, some cached, none⟩ →
      (nonEmpty info.displayName = none → cached.displayName = none) ∧
      (nonEmpty info.pfpUrl = none → cached.pfpUrl = none)

theorem profileWrites_append (before after : List ProfileDelivery) :
    profileWrites uuid (before ++ after) = profileWrites uuid before ++ profileWrites uuid after :=
  List.filterMap_append

theorem profileWrites_cons (delivery : ProfileDelivery) (after : List ProfileDelivery) :
    profileWrites uuid (delivery :: after) =
      ((delivery.applied uuid).map profileWrite).toList ++ profileWrites uuid after := by
  rw [profileWrites, List.filterMap_cons]
  cases delivery.applied uuid <;> rfl

theorem mem_profileWrites {write : VersionedRegister.Write Int Shown} :
    write ∈ profileWrites uuid deliveries ↔
      ∃ delivery ∈ deliveries, ∃ applied ∈ delivery.applied uuid, profileWrite applied = write := by
  simp only [profileWrites, List.mem_filterMap, Option.map_eq_some_iff, Option.mem_def]

theorem profileWrite_version (applied : ProfileWriter × Account.Profile) :
    (profileWrite applied).version = applied.2.version := by
  obtain ⟨writer, profile⟩ := applied
  cases writer <;> rfl

/-- The deliveries are the writes that they apply. -/
theorem register_deliverAll (h : LiveRow key row) (hsettled : Settled profiles row.register)
    (hversioned : AllVersioned uuid profiles deliveries) :
    ∃ row', Account.deliverAll uuid ⟨some key, some row, none⟩ deliveries =
        ⟨some key, some row', none⟩ ∧
      row'.register = row.register.writes (profileWrites uuid deliveries) := by
  induction deliveries generalizing row with
  | nil => exact ⟨row, rfl, rfl⟩
  | cons delivery deliveries ih =>
      have hhead := hversioned delivery List.mem_cons_self
      obtain ⟨row₁, heq, hlive, hregister⟩ := register_deliver h hsettled delivery hhead
      have hsettled₁ : Settled profiles row₁.register := by
        rw [hregister]
        cases happlied : delivery.applied uuid with
        | none => exact hsettled
        | some applied => exact hsettled.write (hhead applied happlied)
      obtain ⟨row₂, heq₂, hregister₂⟩ := ih hlive hsettled₁ fun other hmem =>
        hversioned other (List.mem_cons_of_mem _ hmem)
      refine ⟨row₂, ?_, ?_⟩
      · rw [Account.deliverAll, List.foldl_cons, heq]
        exact heq₂
      · rw [hregister₂, hregister, profileWrites_cons, VersionedRegister.writes_append]

theorem newestVersion_eq (uuid : String) (row : AccountRow) (deliveries : List ProfileDelivery) :
    newestVersion uuid row deliveries =
      (row.register.writes (profileWrites uuid deliveries)).version := by
  rw [VersionedRegister.writes_version, newestVersion]
  congr 1
  rw [profileWrites, List.map_filterMap, List.map_filterMap]
  refine List.filterMap_congr fun delivery _ => ?_
  rw [Option.map_map]
  refine Option.map_congr fun applied _ => ?_
  exact (profileWrite_version applied).symm

/-- The first delivery of the newest profile raises the version last. -/
theorem FirstNewest.lastRaise {before after : List ProfileDelivery} {profile : Account.Profile}
    (h : FirstNewest uuid row before profile after) (writer : ProfileWriter) :
    VersionedRegister.LastRaise row.register (profileWrites uuid before)
      (profileWrite (writer, profile)) (profileWrites uuid after) := by
  have hversion : (profileWrite (writer, profile)).version = profile.version :=
    profileWrite_version (writer, profile)
  refine ⟨?_, ?_, ?_⟩
  · rw [hversion]
    exact h.raises
  · intro write hmem
    obtain ⟨delivery, hdelivery, applied, happlied, rfl⟩ := mem_profileWrites.mp hmem
    rw [hversion, profileWrite_version]
    exact h.first delivery hdelivery applied happlied
  · intro write hmem
    obtain ⟨delivery, hdelivery, applied, happlied, rfl⟩ := mem_profileWrites.mp hmem
    rw [hversion, profileWrite_version]
    exact h.newest delivery hdelivery applied happlied

/-- No delivery raises the version, or the newest profile is applied for the first time by one. -/
theorem exists_firstNewest (uuid : String) (row : AccountRow) (deliveries : List ProfileDelivery) :
    (∀ write ∈ profileWrites uuid deliveries, write.version ≤ row.profileVersion) ∨
      ∃ before delivery after applied, deliveries = before ++ delivery :: after ∧
        delivery.applied uuid = some applied ∧ FirstNewest uuid row before applied.2 after := by
  rcases VersionedRegister.exists_lastRaise row.register (profileWrites uuid deliveries) with
    hle | ⟨before, write, after, hsplit, hlast⟩
  · exact .inl hle
  · obtain ⟨front, back, rfl, hfront, hback⟩ := List.filterMap_eq_append_iff.mp hsplit
    obtain ⟨skipped, delivery, rest, rfl, hskipped, hdelivery, hrest⟩ :=
      List.filterMap_eq_cons_iff.mp hback
    obtain ⟨applied, happlied, rfl⟩ := Option.map_eq_some_iff.mp hdelivery
    refine .inr ⟨front ++ skipped, delivery, rest, applied, by simp, happlied, ?_, ?_, ?_⟩
    · rw [← profileWrite_version]
      exact hlast.raises
    · intro other hmem otherApplied hother
      rw [← profileWrite_version, ← profileWrite_version applied]
      apply hlast.first
      rw [← hfront]
      rcases List.mem_append.mp hmem with hmem | hmem
      · exact mem_profileWrites.mpr ⟨other, hmem, otherApplied, hother, rfl⟩
      · have hnone := hskipped other hmem
        rw [Option.mem_def.mp hother] at hnone
        cases hnone
    · intro other hmem otherApplied hother
      rw [← profileWrite_version, ← profileWrite_version applied]
      apply hlast.highest
      rw [← hrest]
      exact mem_profileWrites.mpr ⟨other, hmem, otherApplied, hother, rfl⟩

/-- What the cache shows in the end is decided by the first delivery of the newest profile. -/
theorem endsNewest_of_firstNewest (h : LiveRow key row)
    (hcached : row.shown = profiles row.profileVersion)
    {before after : List ProfileDelivery} {delivery : ProfileDelivery} {writer : ProfileWriter}
    {profile : Account.Profile} (happlied : delivery.applied uuid = some (writer, profile))
    (hfirst : FirstNewest uuid row before profile after)
    (hversioned : AllVersioned uuid profiles (before ++ delivery :: after)) :
    ∃ cached, Account.deliverAll uuid ⟨some key, some row, none⟩ before =
        ⟨some key, some cached, none⟩ ∧
      (EndsNewest uuid key row profiles (before ++ delivery :: after) ↔
        (profileWrite (writer, profile)).change cached.shown = profile.shown) := by
  have hsettled : Settled profiles row.register := by
    change keepWhereEmpty (profiles row.profileVersion) row.shown = row.shown
    rw [hcached, keepWhereEmpty_self]
  obtain ⟨cached, hbefore, hbeforeRegister⟩ := register_deliverAll h hsettled
    (fun other hmem => hversioned other (List.mem_append_left _ hmem))
  obtain ⟨row', hall, hregister⟩ := register_deliverAll h hsettled hversioned
  have hwrites : profileWrites uuid (before ++ delivery :: after) = profileWrites uuid before ++
      profileWrite (writer, profile) :: profileWrites uuid after := by
    rw [profileWrites_append, profileWrites_cons, happlied]
    rfl
  have hlast := hfirst.lastRaise writer
  have hnewest : newestVersion uuid row (before ++ delivery :: after) = profile.version := by
    rw [newestVersion_eq, hwrites, VersionedRegister.writes_of_lastRaise hlast,
      profileWrite_version]
  have hshown : row'.shown = (profileWrite (writer, profile)).change cached.shown := by
    rw [hwrites, VersionedRegister.writes_of_lastRaise hlast, ← hbeforeRegister] at hregister
    exact congrArg VersionedRegister.value hregister
  have hprofile : profile.shown = profiles profile.version :=
    hversioned delivery (List.mem_append_right _ List.mem_cons_self) _ happlied
  refine ⟨cached, hbefore, ?_⟩
  unfold EndsNewest
  rw [hnewest, ← hprofile, ← hshown]
  constructor
  · rintro ⟨other, heq, hother⟩
    rw [hall] at heq
    cases heq
    exact hother
  · intro hsame
    exact ⟨row', hall, hsame⟩

/-- The cache ends with the newest profile exactly when that profile was read whole. -/
theorem endsNewest_iff (h : LiveRow key row) (hcached : row.shown = profiles row.profileVersion)
    (hversioned : AllVersioned uuid profiles deliveries) :
    EndsNewest uuid key row profiles deliveries ↔ NewestReadWhole uuid key row deliveries := by
  constructor
  · rintro hends before delivery after info cached rfl happlied hfirst hbefore
    obtain ⟨cached', hbefore', hiff⟩ :=
      endsNewest_of_firstNewest h hcached happlied hfirst hversioned
    rw [hbefore] at hbefore'
    cases hbefore'
    exact keepWhereEmpty_eq_iff.mp (hiff.mp hends)
  · intro hwhole
    rcases exists_firstNewest uuid row deliveries with
      hle | ⟨before, delivery, after, ⟨writer, profile⟩, rfl, happlied, hfirst⟩
    · -- Nothing newer than what was cached was applied.
      have hsettled : Settled profiles row.register := by
        change keepWhereEmpty (profiles row.profileVersion) row.shown = row.shown
        rw [hcached, keepWhereEmpty_self]
      obtain ⟨row', hall, hregister⟩ := register_deliverAll h hsettled hversioned
      have hnewest := newestVersion_eq uuid row deliveries
      rw [VersionedRegister.writes_of_le hle] at hregister hnewest
      refine ⟨row', hall, ?_⟩
      rw [hnewest]
      exact (congrArg VersionedRegister.value hregister).trans hcached
    · obtain ⟨cached, hbefore, hiff⟩ :=
        endsNewest_of_firstNewest h hcached happlied hfirst hversioned
      apply hiff.mpr
      cases writer with
      | webhook => rfl
      | userinfo =>
          exact keepWhereEmpty_eq_iff.mpr
            (hwhole before delivery after profile cached rfl happlied hfirst hbefore)

/-- Two orders apply the same profiles. -/
def SameProfiles (uuid : String) (deliveries deliveries' : List ProfileDelivery) : Prop :=
  ∀ profile : Account.Profile,
    (∃ delivery ∈ deliveries, ∃ writer, delivery.applied uuid = some (writer, profile)) ↔
      ∃ delivery ∈ deliveries', ∃ writer, delivery.applied uuid = some (writer, profile)

theorem newestVersion_congr {deliveries' : List ProfileDelivery}
    (h : SameProfiles uuid deliveries deliveries') :
    newestVersion uuid row deliveries = newestVersion uuid row deliveries' := by
  have hversions : ∀ {deliveries : List ProfileDelivery} {version : Int},
      (∃ write ∈ profileWrites uuid deliveries, write.version = version) ↔
        ∃ profile : Account.Profile, profile.version = version ∧
          ∃ delivery ∈ deliveries, ∃ writer, delivery.applied uuid = some (writer, profile) := by
    intro deliveries version
    constructor
    · rintro ⟨write, hmem, rfl⟩
      obtain ⟨delivery, hdelivery, ⟨writer, profile⟩, happlied, rfl⟩ := mem_profileWrites.mp hmem
      exact ⟨profile, (profileWrite_version (writer, profile)).symm, delivery, hdelivery, writer,
        happlied⟩
    · rintro ⟨profile, rfl, delivery, hdelivery, writer, happlied⟩
      exact ⟨_, mem_profileWrites.mpr ⟨delivery, hdelivery, _, happlied, rfl⟩,
        profileWrite_version (writer, profile)⟩
  rw [newestVersion_eq, newestVersion_eq]
  refine (VersionedRegister.newest_writes _ _).unique (VersionedRegister.newest_writes _ _) ?_
  intro version
  rw [hversions, hversions]
  exact exists_congr fun profile => and_congr_right fun _ => h profile

/-- **The cached profile ends as the newest one exactly when that one was read whole.** Two orders
that read it whole end in the same cache. -/
theorem profile_converges (h : LiveRow key row)
    (hcached : row.shown = profiles row.profileVersion) :
    (∀ deliveries, AllVersioned uuid profiles deliveries →
      (EndsNewest uuid key row profiles deliveries ↔ NewestReadWhole uuid key row deliveries)) ∧
    ∀ deliveries deliveries', AllVersioned uuid profiles deliveries →
      AllVersioned uuid profiles deliveries' → SameProfiles uuid deliveries deliveries' →
      NewestReadWhole uuid key row deliveries → NewestReadWhole uuid key row deliveries' →
      ∃ end₁ end₂, Account.deliverAll uuid ⟨some key, some row, none⟩ deliveries =
          ⟨some key, some end₁, none⟩ ∧
        Account.deliverAll uuid ⟨some key, some row, none⟩ deliveries' =
          ⟨some key, some end₂, none⟩ ∧
        end₁.shown = end₂.shown := by
  refine ⟨fun deliveries => endsNewest_iff h hcached, ?_⟩
  intro deliveries deliveries' hversioned hversioned' hsame hwhole hwhole'
  obtain ⟨end₁, heq, hshown⟩ := (endsNewest_iff h hcached hversioned).mpr hwhole
  obtain ⟨end₂, heq', hshown'⟩ := (endsNewest_iff h hcached hversioned').mpr hwhole'
  refine ⟨end₁, end₂, heq, heq', ?_⟩
  rw [hshown, hshown', newestVersion_congr hsame]

end Deliveries

/-! ## Ada's profile -/

/-- The key of a Carbon. -/
def adaKey : AccountKey := ⟨⟨1, Uuid.one_ne_nil⟩, .carbon⟩

/-- Her row at version 5: a name, and no photo. -/
def adaRow : AccountRow :=
  { kind := .carbon, currentId := some "c:ada", idChangedAt := some 0, displayName := some "Ada"
    profileVersion := 5 }

/-- What is read of the row. -/
def adaRecord : AccountRecord :=
  ⟨⟨1, Uuid.one_ne_nil⟩, .carbon, some "c:ada", some "Ada", none, none, none, none, none, none⟩

theorem adaRow_live : LiveRow adaKey adaRow :=
  ⟨⟨rfl, by decide +kernel, fun _ h => nomatch h⟩, rfl⟩

/-- A new photo, at version 6. -/
def adaPhoto : Account.Profile := ⟨"c:ada", "Ada", "https://pfp/ada", 6⟩

/-- The profile without a name, at version 6. -/
def adaUnnamed : Account.Profile := ⟨"c:ada", "", "", 6⟩

/-- A new photo arrives by webhook and from userinfo, in both orders. -/
theorem profile_converges_adaPhoto :
    let webhook := ProfileDelivery.webhook false (some adaPhoto)
    let userinfo := ProfileDelivery.userinfo adaRecord false (some ("acc1", adaPhoto))
    ∃ end₁ end₂, Account.deliverAll "acc1" ⟨some adaKey, some adaRow, none⟩ [webhook, userinfo] =
        ⟨some adaKey, some end₁, none⟩ ∧
      Account.deliverAll "acc1" ⟨some adaKey, some adaRow, none⟩ [userinfo, webhook, userinfo] =
        ⟨some adaKey, some end₂, none⟩ ∧
      end₁.shown = end₂.shown := by
  intro webhook userinfo
  let profiles : Int → Shown := fun version =>
    if version = 6 then (some "Ada", some "https://pfp/ada") else (some "Ada", none)
  have hwebhook : webhook.applied "acc1" = some (.webhook, adaPhoto) := by decide +kernel
  have huserinfo : userinfo.applied "acc1" = some (.userinfo, adaPhoto) := by decide +kernel
  have hversioned : ∀ deliveries : List ProfileDelivery,
      (∀ delivery ∈ deliveries, delivery = webhook ∨ delivery = userinfo) →
      AllVersioned "acc1" profiles deliveries := by
    intro deliveries hall delivery hmem applied happlied
    rcases hall delivery hmem with rfl | rfl
    · rw [hwebhook] at happlied
      cases happlied
      decide +kernel
    · rw [huserinfo] at happlied
      cases happlied
      decide +kernel
  have hconverges := @profile_converges "acc1" _ _ profiles adaRow_live rfl
  have hfirst := hversioned [webhook, userinfo] (by simp)
  have hsecond := hversioned [userinfo, webhook, userinfo] (by simp)
  have hends : ∀ deliveries ∈ [[webhook, userinfo], [userinfo, webhook, userinfo]],
      newestVersion "acc1" adaRow deliveries = 6 := by decide +kernel
  refine hconverges.2 _ _ hfirst hsecond ?_ ?_ ?_
  · intro profile
    simp [hwebhook, huserinfo]
  · apply (hconverges.1 _ hfirst).mp
    refine ⟨_, rfl, ?_⟩
    rw [hends _ (by simp)]
    decide +kernel
  · apply (hconverges.1 _ hsecond).mp
    refine ⟨_, rfl, ?_⟩
    rw [hends _ (by simp)]
    decide +kernel

/-- **The cache does not always end with the newest profile.** Userinfo answers version 6 without a
name; the cache keeps the old name and says that it is version 6, so the event that clears it is
stale. -/
theorem not_forall_endsNewest :
    ¬ ∀ (uuid : String) (key : AccountKey) (row : AccountRow) (profiles : Int → Shown)
      (deliveries : List ProfileDelivery), LiveRow key row →
      row.shown = profiles row.profileVersion → AllVersioned uuid profiles deliveries →
        EndsNewest uuid key row profiles deliveries := by
  intro hall
  let profiles : Int → Shown :=
    fun version => if version = 6 then (none, none) else (some "Ada", none)
  have hversioned : AllVersioned "acc1" profiles
      [.userinfo adaRecord false (some ("acc1", adaUnnamed)),
        .webhook false (some adaUnnamed)] := by
    intro delivery hmem applied happlied
    simp only [List.mem_cons, List.not_mem_nil, or_false] at hmem
    rcases hmem with rfl | rfl
    · obtain rfl : (.userinfo, adaUnnamed) = applied :=
        Option.some.inj
          ((by decide +kernel : _ = some (ProfileWriter.userinfo, adaUnnamed)).symm.trans
          happlied)
      decide +kernel
    · obtain rfl : (.webhook, adaUnnamed) = applied :=
        Option.some.inj
          ((by decide +kernel : _ = some (ProfileWriter.webhook, adaUnnamed)).symm.trans
          happlied)
      decide +kernel
  obtain ⟨row', heq, hshown⟩ := hall "acc1" adaKey adaRow profiles _ adaRow_live rfl hversioned
  have hend : (Account.deliverAll "acc1" ⟨some adaKey, some adaRow, none⟩
      [.userinfo adaRecord false (some ("acc1", adaUnnamed)),
        .webhook false (some adaUnnamed)]).row.map
        AccountRow.shown = some (some "Ada", none) := by decide +kernel
  have hnewest : newestVersion "acc1" adaRow
      [.userinfo adaRecord false (some ("acc1", adaUnnamed)), .webhook false (some adaUnnamed)] =
        6 := by
    decide +kernel
  rw [heq] at hend
  rw [hnewest] at hshown
  have hsame : row'.shown = (some "Ada", none) := Option.some.inj hend
  rw [hsame] at hshown
  cases hshown

end Waveform.Directory
