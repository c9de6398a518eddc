import Waveform.Directory.Account

/-!
# The cached public id

`account.id_changed` events, sightings with a token and lookups each report a public id and the
instant as of which it is right. What the row keeps of them is the id and one instant, and each kind
of report replaces it under its own condition.

- `IdCache.apply`: the id and its instant after a report.
- `Newest`: what they say about the reports applied so far, in whatever order.
- `applyFact_idCache`: the rows of a held account follow that cache.
- `converges`: facts that converge leave the id of the newest of them in every order.

`account.updated` also carries an id, which it writes under the version of the profile with no
instant; it is left out here.
-/

set_option autoImplicit false

namespace Waveform.Directory

open Waveform.Domain

/-! ## Sightings and lookups as a whole -/

namespace Account

/-- The end of `sighting` before its lookup: the credential's id replaces the one that was read. -/
def adoptHint (account : Account) (idHint : Option String) (asOf : Option Nat) : Account :=
  match idHint, asOf, account.load with
  | some id, some asOf, some record =>
      if record.deletedAt.isNone ∧ record.currentId ≠ some id then account.adoptId id asOf
      else account
  | _, _, _ => account

/-- `sighting`, up to its lookup. -/
def sighting (account : Account) (newKey : ActorId) (kind : ActorKind) (idHint : Option String)
    (asOf : Option Nat) : Account :=
  let idHint := hintFor kind idHint
  match account.load with
  | some record =>
      if record.kind ≠ kind then account
      else if record.currentId.isSome ∨ idHint.isNone then account.adoptHint idHint asOf
      else (account.ensure newKey kind idHint asOf).adoptHint idHint asOf
  | none => (account.ensure newKey kind idHint asOf).adoptHint idHint asOf

/-- `store_summary`. -/
def storeSummary (account : Account) (newKey : ActorId) (summary : AccountSummary)
    (started now : Nat) : Account :=
  (account.ensure newKey summary.kind (nonEmpty summary.id) (some started)).updateSummary
    summary started now

end Account

/-! ## The cache and its reports -/

/-- Where a report comes from; `cached` is what the row held before. -/
inductive ReportSource where
  | cached
  | changed
  | sighting
  | lookup
  deriving DecidableEq

/-- A public id, and as of when it is right. -/
structure IdReport where
  source : ReportSource
  time : Option Nat
  id : String
  deriving DecidableEq

/-- What the row keeps of the reports. -/
structure IdCache where
  current : Option String
  changedAt : Option Nat
  deriving DecidableEq

namespace IdCache

/-- When a report of its kind replaces the id. -/
def replacedBy (cache : IdCache) (source : ReportSource) (time : Nat) (id : String) : Bool :=
  match source with
  | .cached => false
  | .changed => cache.changedAt.all fun changed => changed ≤ time
  | .sighting => cache.current ≠ some id && cache.changedAt.all fun changed => changed < time
  | .lookup => !Account.withinSkew cache.changedAt time

/-- The cache after a report. -/
def apply (cache : IdCache) (source : ReportSource) (time : Nat) (id : String) : IdCache :=
  if cache.replacedBy source time id then ⟨some id, some time⟩ else cache

/-- What the cache reports of itself. -/
def reports (cache : IdCache) : List IdReport :=
  cache.current.toList.map fun id => ⟨.cached, cache.changedAt, id⟩

end IdCache

/-- Reports whose newest id is found again in every order: one instant has one id, no lookup starts
within the skew allowance after a report of another id, and no sighting comes back to an id that was
replaced between two reports of it. -/
structure Converging (reports : List IdReport) : Prop where
  distinct : ∀ r ∈ reports, ∀ g ∈ reports, r.time = g.time → r.id = g.id
  skew : ∀ l ∈ reports, l.source = .lookup → ∀ g ∈ reports, g.id ≠ l.id →
    ∀ started ∈ l.time, ∀ changed ∈ g.time, changed < started → changed + lookupSkew < started
  returns : ∀ s ∈ reports, s.source = .sighting → ∀ w ∈ reports, w.id = s.id →
    ∀ g ∈ reports, g.id ≠ s.id → ¬ (w.time < g.time ∧ g.time < s.time)

/-- What the cache says about the reports so far. A report newer than its instant left it because it
names the same id: a sighting of it, or a lookup within the skew allowance. -/
structure Newest (reports : List IdReport) (cache : IdCache) : Prop where
  other : ∀ r ∈ reports, cache.current ≠ some r.id → r.time < cache.changedAt
  written : reports ≠ [] → ∃ w ∈ reports, cache.current = some w.id ∧ w.time = cache.changedAt
  beyond : ∀ r ∈ reports, cache.changedAt < r.time →
    r.source = .sighting ∨ r.source = .lookup ∧ r.time.any (Account.withinSkew cache.changedAt)
  empty : reports = [] → cache = ⟨none, none⟩

/-! An optional instant has a rank, in which none is before every other. -/

/-- The rank of an optional instant. -/
def instantRank : Option Nat → Nat
  | none => 0
  | some instant => instant + 1

theorem instant_lt_iff {a b : Option Nat} : a < b ↔ instantRank a < instantRank b := by
  cases a with
  | none =>
      cases b with
      | none => simp
      | some b => simp [instantRank]
  | some a =>
      cases b with
      | none => simp [instantRank]
      | some b => simp [instantRank]

theorem instant_le_iff {a b : Option Nat} : a ≤ b ↔ instantRank a ≤ instantRank b := by
  cases a with
  | none =>
      cases b with
      | none => simp
      | some b => simp [instantRank]
  | some a =>
      cases b with
      | none => simp [instantRank]
      | some b => simp [instantRank]

theorem instant_eq_iff {a b : Option Nat} : a = b ↔ instantRank a = instantRank b := by
  cases a with
  | none =>
      cases b with
      | none => simp
      | some b => simp [instantRank]
  | some a =>
      cases b with
      | none => simp [instantRank]
      | some b => simp [instantRank]

namespace Newest

variable {reports : List IdReport} {cache : IdCache} {r : IdReport}

/-- The cache of a row says the newest about itself. -/
theorem initial (hundated : cache.current = none → cache.changedAt = none) :
    Newest cache.reports cache := by
  obtain ⟨current, changedAt⟩ := cache
  cases current with
  | none =>
      obtain rfl : changedAt = none := hundated rfl
      exact ⟨by simp [IdCache.reports], by simp [IdCache.reports], by simp [IdCache.reports],
        fun _ => rfl⟩
  | some id =>
      exact ⟨by simp [IdCache.reports], fun _ => ⟨_, List.mem_singleton_self _, rfl, rfl⟩,
        by simp [IdCache.reports, instant_lt_iff], by simp [IdCache.reports]⟩

/-- Two reports of different ids have different instants. -/
theorem time_ne (hc : Converging reports) {g r : IdReport} (hg : g ∈ reports) (hr : r ∈ reports)
    (hid : g.id ≠ r.id) : instantRank g.time ≠ instantRank r.time := by
  intro heq
  exact hid (hc.distinct g hg r hr (instant_eq_iff.mpr heq))

/-- A report of the cached id later than `r` would be a sighting that comes back to it, or a lookup
too close to `r`. -/
theorem not_later_of_current (h : Newest reports cache) (hc : Converging (r :: reports))
    {time : Nat} (htime : r.time = some time) (hle : cache.changedAt ≤ r.time) {g : IdReport}
    (hg : g ∈ reports) (hid : g.id ≠ r.id) (hcurrent : cache.current = some g.id) :
    ¬ r.time < g.time := by
  intro hlt
  have hr : r ∈ r :: reports := List.mem_cons_self
  have hgmem : g ∈ r :: reports := List.mem_cons_of_mem _ hg
  obtain ⟨w, hw, hwid, hwtime⟩ := h.written (List.ne_nil_of_mem hg)
  have hwg : w.id = g.id := Option.some.inj (hwid.symm.trans hcurrent)
  have hwmem : w ∈ r :: reports := List.mem_cons_of_mem _ hw
  have hwr := time_ne hc hwmem hr (hwg ▸ hid)
  have hwrank : instantRank w.time = instantRank cache.changedAt := congrArg instantRank hwtime
  rw [instant_le_iff] at hle
  rw [instant_lt_iff] at hlt
  have hbeyond : cache.changedAt < g.time := instant_lt_iff.mpr (by omega)
  rcases h.beyond g hg hbeyond with hsighting | ⟨hlookup, hwithin⟩
  · refine hc.returns g hgmem hsighting w hwmem hwg r hr (Ne.symm hid) ⟨?_, ?_⟩
    · exact instant_lt_iff.mpr (by omega)
    · exact instant_lt_iff.mpr hlt
  · obtain ⟨started, hstarted, hany⟩ := (Option.any_eq_true _ _).mp hwithin
    obtain ⟨changed, hchanged, hclose⟩ := (Option.any_eq_true _ _).mp hany
    have hnear : started ≤ changed + lookupSkew := of_decide_eq_true hclose
    rw [htime, hstarted] at hlt
    rw [htime, hchanged] at hle
    simp only [instantRank] at hlt hle
    have hfar := hc.skew g hgmem hlookup r hr (Ne.symm hid) started hstarted time htime (by omega)
    omega

/-- A report that replaces the id is later than every report of another id. -/
theorem before_write (h : Newest reports cache) (hc : Converging (r :: reports)) {time : Nat}
    (htime : r.time = some time) (hle : cache.changedAt ≤ r.time) {g : IdReport}
    (hg : g ∈ reports) (hid : g.id ≠ r.id) : g.time < r.time := by
  by_cases hcurrent : cache.current = some g.id
  · have hnot := h.not_later_of_current hc htime hle hg hid hcurrent
    have hne := time_ne hc (List.mem_cons_of_mem _ hg) List.mem_cons_self hid
    rw [instant_lt_iff] at hnot ⊢
    omega
  · have hlt := h.other g hg hcurrent
    rw [instant_lt_iff] at hlt ⊢
    rw [instant_le_iff] at hle
    omega

/-- What is beyond the instant of the cache stays so excused when the instant moves on. -/
theorem write (h : Newest reports cache) (hc : Converging (r :: reports)) {time : Nat}
    (htime : r.time = some time) (hle : cache.changedAt ≤ r.time) :
    Newest (r :: reports) ⟨some r.id, some time⟩ where
  other := by
    intro g hg hne
    rcases List.mem_cons.mp hg with rfl | hg
    · exact absurd rfl hne
    · have hid : g.id ≠ r.id := fun heq => hne (congrArg some heq.symm)
      exact htime ▸ h.before_write hc htime hle hg hid
  written := fun _ => ⟨r, List.mem_cons_self, rfl, htime⟩
  beyond := by
    intro g hg hlt
    rcases List.mem_cons.mp hg with rfl | hg
    · rw [htime, instant_lt_iff] at hlt
      exact absurd hlt (Nat.lt_irrefl _)
    · rw [htime] at hle
      rw [instant_le_iff] at hle
      rw [instant_lt_iff] at hlt
      dsimp only at hlt
      rcases h.beyond g hg (instant_lt_iff.mpr (by omega)) with
        hsighting | ⟨hlookup, hwithin⟩
      · exact .inl hsighting
      · obtain ⟨started, hstarted, hany⟩ := (Option.any_eq_true _ _).mp hwithin
        obtain ⟨changed, hchanged, hclose⟩ := (Option.any_eq_true _ _).mp hany
        have hnear : started ≤ changed + lookupSkew := of_decide_eq_true hclose
        rw [hchanged] at hle
        simp only [instantRank] at hle
        refine .inr ⟨hlookup, ?_⟩
        simp only [hstarted, Option.any_some, Account.withinSkew, decide_eq_true_eq]
        omega
  empty := by simp

/-- A report that is kept out names the cached id, or is older. -/
theorem keep (h : Newest reports cache) (hne : reports ≠ [])
    (hother : cache.current ≠ some r.id → r.time < cache.changedAt)
    (hbeyond : cache.changedAt < r.time → r.source = .sighting ∨
      r.source = .lookup ∧ r.time.any (Account.withinSkew cache.changedAt)) :
    Newest (r :: reports) cache where
  other := by
    intro g hg
    rcases List.mem_cons.mp hg with rfl | hg
    · exact hother
    · exact h.other g hg
  written := by
    intro _
    obtain ⟨w, hw, hwritten⟩ := h.written hne
    exact ⟨w, List.mem_cons_of_mem _ hw, hwritten⟩
  beyond := by
    intro g hg
    rcases List.mem_cons.mp hg with rfl | hg
    · exact hbeyond
    · exact h.beyond g hg
  empty := by simp

/-- A report of another id is not as of the instant of the cache. -/
theorem time_ne_changedAt (h : Newest reports cache) (hc : Converging (r :: reports))
    (hne : reports ≠ []) (hid : cache.current ≠ some r.id) :
    instantRank r.time ≠ instantRank cache.changedAt := by
  obtain ⟨w, hw, hwid, hwtime⟩ := h.written hne
  have hne : w.id ≠ r.id := fun heq => hid (heq ▸ hwid)
  have hdistinct := time_ne hc (List.mem_cons_of_mem _ hw) List.mem_cons_self hne
  rw [← hwtime]
  exact fun heq => hdistinct heq.symm

/-- A cache that nothing was written to is replaced by every report. -/
theorem ne_nil (h : Newest reports cache) {source : ReportSource} {time : Nat} {id : String}
    (hsource : source ≠ .cached) (hkept : cache.replacedBy source time id = false) :
    reports ≠ [] := by
  intro hnil
  obtain rfl := h.empty hnil
  cases source with
  | cached => exact hsource rfl
  | changed => simp [IdCache.replacedBy] at hkept
  | sighting => simp [IdCache.replacedBy] at hkept
  | lookup => simp [IdCache.replacedBy, Account.withinSkew] at hkept

/-- One more report, of whichever kind. -/
theorem apply (h : Newest reports cache) {source : ReportSource} {time : Nat} {id : String}
    (hsource : source ≠ .cached) (hc : Converging (⟨source, some time, id⟩ :: reports)) :
    Newest (⟨source, some time, id⟩ :: reports) (cache.apply source time id) := by
  unfold IdCache.apply
  split
  · rename_i hreplaced
    refine h.write hc rfl ?_
    -- Each kind replaces the id only as of its instant or after it.
    cases hchangedAt : cache.changedAt with
    | none => simp
    | some changed =>
        cases source with
        | cached => exact absurd rfl hsource
        | changed => simpa [IdCache.replacedBy, hchangedAt] using hreplaced
        | sighting =>
            have hlt : changed < time := by
              simpa [IdCache.replacedBy, hchangedAt] using (Bool.and_eq_true_iff.mp hreplaced).2
            simpa using Nat.le_of_lt hlt
        | lookup =>
            have hfar : changed + lookupSkew < time := by
              simpa [IdCache.replacedBy, hchangedAt, Account.withinSkew] using hreplaced
            simpa using Nat.le_of_lt (Nat.lt_of_le_of_lt (Nat.le_add_right _ _) hfar)
  · rename_i hkept
    have hfalse := Bool.eq_false_iff.mpr hkept
    have hne := h.ne_nil hsource hfalse
    cases source with
    | cached => exact absurd rfl hsource
    | changed =>
        have hlt : some time < cache.changedAt := by
          cases hchangedAt : cache.changedAt with
          | none => simp [IdCache.replacedBy, hchangedAt] at hfalse
          | some changed => simpa [IdCache.replacedBy, hchangedAt] using hfalse
        refine h.keep hne (fun _ => hlt) ?_
        intro hbeyond
        rw [instant_lt_iff] at hlt hbeyond
        dsimp only at hbeyond
        omega
    | sighting =>
        refine h.keep hne ?_ (fun _ => .inl rfl)
        intro hid
        have hdistinct := h.time_ne_changedAt hc hne hid
        have hnot : ¬ cache.changedAt < some time := by
          cases hchangedAt : cache.changedAt with
          | none => simp [IdCache.replacedBy, hchangedAt, hid] at hfalse
          | some changed =>
              simpa [IdCache.replacedBy, hchangedAt, hid] using hfalse
        rw [instant_lt_iff] at hnot ⊢
        dsimp only at hdistinct ⊢
        omega
    | lookup =>
        have hwithin : Account.withinSkew cache.changedAt time = true := by
          simpa [IdCache.replacedBy] using hfalse
        refine h.keep hne ?_ (fun _ => .inr ⟨rfl, by simpa using hwithin⟩)
        intro hid
        have hdistinct := h.time_ne_changedAt hc hne hid
        obtain ⟨changed, hchanged, hclose⟩ := (Option.any_eq_true _ _).mp hwithin
        have hnear : time ≤ changed + lookupSkew := of_decide_eq_true hclose
        obtain ⟨w, hw, hwid, hwtime⟩ := h.written hne
        have hwne : w.id ≠ id := fun heq => hid (heq ▸ hwid)
        -- A lookup of another id started before the cached change, or too close after it.
        have hnot : ¬ changed < time := by
          intro hlt
          have hfar := hc.skew _ List.mem_cons_self rfl w (List.mem_cons_of_mem _ hw) hwne
            time rfl changed (hwtime.trans hchanged) hlt
          omega
        rw [hchanged] at hdistinct ⊢
        rw [instant_lt_iff]
        simp only [instantRank] at hdistinct ⊢
        omega

/-- The newest report of all is the cached id. -/
theorem current_eq (h : Newest reports cache) (hr : r ∈ reports)
    (hnewest : ∀ g ∈ reports, g.time ≤ r.time) : cache.current = some r.id := by
  by_contra hid
  have hlt := h.other r hr hid
  obtain ⟨w, hw, _, hwtime⟩ := h.written (List.ne_nil_of_mem hr)
  have hle := hnewest w hw
  rw [hwtime, instant_le_iff] at hle
  rw [instant_lt_iff] at hlt
  omega

/-- Two caches of the same reports hold the same id. -/
theorem current_unique {reports' : List IdReport} {cache' : IdCache} (h : Newest reports cache)
    (h' : Newest reports' cache') (hsame : ∀ g, g ∈ reports ↔ g ∈ reports') :
    cache.current = cache'.current := by
  by_cases hnil : reports = []
  · have hnil' : reports' = [] := by
      apply List.eq_nil_iff_forall_not_mem.mpr
      intro g hg
      rw [← hsame, hnil] at hg
      exact List.not_mem_nil hg
    rw [h.empty hnil, h'.empty hnil']
  · obtain ⟨w, hw, hwid, hwtime⟩ := h.written hnil
    obtain ⟨w', hw', hwid', hwtime'⟩ :=
      h'.written (List.ne_nil_of_mem ((hsame w).mp hw))
    by_contra hne
    have hlt := h'.other w ((hsame w).mp hw) fun heq => hne (hwid.trans heq.symm)
    have hlt' := h.other w' ((hsame w').mpr hw') fun heq => hne (heq.trans hwid'.symm)
    rw [hwtime, instant_lt_iff] at hlt
    rw [hwtime', instant_lt_iff] at hlt'
    omega

end Newest

/-! ## The rows follow the cache -/

/-- A fact about the public id of an account: an `account.id_changed` event, a sighting with a
credential as of its instant, or a lookup with its start and the time it is stored at. -/
inductive IdFact where
  | changed (newId : String) (occurred : Nat)
  | sighting (kind : ActorKind) (id : String) (asOf : Nat)
  | lookup (summary : Account.AccountSummary) (started now : Nat)

namespace IdFact

/-- The rows after a fact. -/
def applyTo (newKey : ActorId) (account : Account) : IdFact → Account
  | .changed newId occurred => account.idChanged newId occurred
  | .sighting kind id asOf => account.sighting newKey kind (some id) (some asOf)
  | .lookup summary started now => account.storeSummary newKey summary started now

def source : IdFact → ReportSource
  | .changed .. => .changed
  | .sighting .. => .sighting
  | .lookup .. => .lookup

def time : IdFact → Nat
  | .changed _ occurred => occurred
  | .sighting _ _ asOf => asOf
  | .lookup _ started _ => started

def id : IdFact → String
  | .changed newId _ => newId
  | .sighting _ id _ => id
  | .lookup summary _ _ => summary.id

def report (fact : IdFact) : IdReport := ⟨fact.source, some fact.time, fact.id⟩

/-- The fact is one about an account of this kind, and no CHECK refuses it. -/
def Admissible (kind : ActorKind) : IdFact → Prop
  | .changed newId _ => fitsColumn 3 128 newId = true
  | .sighting seen id _ => seen = kind ∧ publicIdKind id = some kind
  | .lookup summary _ _ =>
      fitsColumn 3 128 summary.id = true ∧ fitsColumn 0 256 summary.displayName = true ∧
        fitsColumn 0 2048 summary.pfpUrl = true

end IdFact

/-- What the row keeps of the public id. -/
def AccountRow.idCache (row : AccountRow) : IdCache := ⟨row.currentId, row.idChangedAt⟩

/-- The rows of a live held account whose id and instant are those of the cache. -/
def HoldsId (kind : ActorKind) (account : Account) (cache : IdCache) : Prop :=
  ∃ key row, account = ⟨some key, some row, none⟩ ∧ RowFor key row ∧ key.kind = kind ∧
    row.deletedAt = none ∧ row.idCache = cache

section Refinement

variable {key : AccountKey} {row : AccountRow} {account : Account} {kind : ActorKind}
  {cache : IdCache}

theorem WellFormed.rowFor (h : WellFormed ⟨some key, some row, none⟩) : RowFor key row := by
  cases h with
  | seen h => exact h

/-- An UPDATE of a live row that no CHECK refuses. -/
theorem holdsId_updateLive (hlive : row.deletedAt = none) {applies : AccountRow → Bool}
    {change : AccountRow → AccountRow} (hstorable : (change row).storable = true)
    (hkept : (change row).deletedAt = row.deletedAt)
    (hwf : WellFormed (Account.updateLive ⟨some key, some row, none⟩ applies change))
    (hcache : (if applies row then change row else row).idCache = cache) :
    HoldsId key.kind (Account.updateLive ⟨some key, some row, none⟩ applies change) cache := by
  rw [Account.updateLive_seen, Account.updatedRow_live hlive hstorable] at hwf ⊢
  refine ⟨key, _, rfl, hwf.rowFor, rfl, ?_, hcache⟩
  split
  · exact hkept.trans hlive
  · exact hlive

/-- Another public id that fits can be stored. -/
theorem RowFor.storable_id (h : RowFor key row) {id : String} (changedAt : Option Nat)
    (hfits : fitsColumn 3 128 id = true) :
    AccountRow.storable { row with currentId := some id, idChangedAt := changedAt } = true := by
  have hrow := h.storable
  simp only [AccountRow.storable, Bool.and_eq_true] at hrow ⊢
  simp [hfits, hrow]

theorem holdsId_idChanged (hrow : RowFor key row) (hlive : row.deletedAt = none) {newId : String}
    (hfits : fitsColumn 3 128 newId = true) (occurred : Nat) :
    HoldsId key.kind (Account.idChanged ⟨some key, some row, none⟩ newId occurred)
      (row.idCache.apply .changed occurred newId) := by
  apply holdsId_updateLive hlive (hrow.storable_id _ hfits) rfl
  · exact (WellFormed.seen hrow).idChanged newId occurred
  · unfold IdCache.apply IdCache.replacedBy AccountRow.idCache
    dsimp only
    split
    · rfl
    · rfl

theorem holdsId_adoptId (hrow : RowFor key row) (hlive : row.deletedAt = none) {id : String}
    (hfits : fitsColumn 3 128 id = true) (asOf : Nat) :
    HoldsId key.kind (Account.adoptId ⟨some key, some row, none⟩ id asOf)
      (row.idCache.apply .sighting asOf id) := by
  apply holdsId_updateLive hlive (hrow.storable_id _ hfits) rfl
  · exact (WellFormed.seen hrow).adoptId id asOf
  · unfold IdCache.apply IdCache.replacedBy AccountRow.idCache
    dsimp only
    split
    · rfl
    · rfl

/-- The row that `ensure` leaves of a held account, whose missing id it fills. -/
theorem ensure_held (hlive : row.deletedAt = none) (newKey : ActorId) (hint : Option String)
    (asOf : Nat) :
    Account.ensure ⟨some key, some row, none⟩ newKey kind hint (some asOf) =
      ⟨some key, some (match row.currentId, Account.hintFor kind hint with
        | none, some id => { row with currentId := some id, idChangedAt := some asOf }
        | _, _ => row), none⟩ := by
  rw [Account.ensure_seen]
  cases hcurrent : row.currentId with
  | none =>
      cases hhint : Account.hintFor kind hint with
      | none => simp [Account.ensureRow, hcurrent]
      | some id => simp [Account.ensureRow, hcurrent, hlive]
  | some current => simp [Account.ensureRow, hcurrent]

/-- A sighting fills a missing id or adopts the one it carries. -/
theorem holdsId_sighting (hrow : RowFor key row) (hlive : row.deletedAt = none) (newKey : ActorId)
    {id : String} (hid : publicIdKind id = some key.kind) (asOf : Nat) :
    HoldsId key.kind (Account.sighting ⟨some key, some row, none⟩ newKey key.kind (some id)
      (some asOf)) (row.idCache.apply .sighting asOf id) := by
  have hhint : Account.hintFor key.kind (some id) = some id := by
    simp [Account.hintFor, hid]
  have hfits := fitsColumn_of_publicIdKind hid
  cases hcurrent : row.currentId with
  | none =>
      have hundated := hrow.undated hlive hcurrent
      have hfilled := hrow.storable_id (some asOf) hfits
      have hsighting : Account.sighting ⟨some key, some row, none⟩ newKey key.kind (some id)
          (some asOf) =
          ⟨some key, some { row with currentId := some id, idChangedAt := some asOf }, none⟩ := by
        simp [Account.sighting, Account.load, hhint, hcurrent, ensure_held hlive,
          Account.adoptHint]
      rw [hsighting]
      refine ⟨key, _, rfl, ⟨hrow.kind, hfilled, by simp⟩, rfl, hlive, ?_⟩
      simp [IdCache.apply, IdCache.replacedBy, AccountRow.idCache, hcurrent, hundated]
  | some current =>
      have hsighting : Account.sighting ⟨some key, some row, none⟩ newKey key.kind (some id)
          (some asOf) =
          if current ≠ id then Account.adoptId ⟨some key, some row, none⟩ id asOf
          else ⟨some key, some row, none⟩ := by
        simp [Account.sighting, Account.load, hhint, hcurrent, Account.adoptHint,
          Account.deletedAt, hlive]
      rw [hsighting]
      split
      · exact holdsId_adoptId hrow hlive hfits asOf
      · rename_i hsame
        obtain rfl := not_not.mp hsame
        refine ⟨key, row, rfl, hrow, rfl, hlive, ?_⟩
        simp [IdCache.apply, IdCache.replacedBy, AccountRow.idCache, hcurrent]

/-- What a lookup answers can be stored. -/
theorem RowFor.storable_summary (h : RowFor key row) {summary : Account.AccountSummary}
    (hid : fitsColumn 3 128 summary.id = true) (hname : fitsColumn 0 256 summary.displayName = true)
    (hurl : fitsColumn 0 2048 summary.pfpUrl = true)
    (started now : Nat) : (Account.summarized summary started now row).storable = true := by
  have hrow := h.storable
  simp only [AccountRow.storable, Bool.and_eq_true] at hrow ⊢
  obtain ⟨⟨⟨hrowId, hrowName⟩, hrowUrl⟩, _⟩ := hrow
  refine ⟨⟨⟨?_, ?_⟩, ?_⟩, ?_⟩
  · unfold Account.summarized nonEmpty
    dsimp only
    split
    · exact hrowId
    · split
      · exact hrowId
      · simpa using hid
  · unfold Account.summarized nonEmpty
    dsimp only
    split
    · exact hrowName
    · simpa using hname
  · unfold Account.summarized nonEmpty
    dsimp only
    split
    · exact hrowUrl
    · simpa using hurl
  · cases hkind : row.kind with
    | silicon => simp [Account.summarized, hkind]
    | carbon => simp [Account.summarized, hkind]

/-- A public id that fits is not empty. -/
theorem nonEmpty_of_fits {value : String} (h : fitsColumn 3 128 value = true) :
    nonEmpty value = some value := by
  have hne : value.isEmpty = false := by
    cases hempty : value.isEmpty with
    | false => rfl
    | true =>
        rw [String.isEmpty_iff.mp hempty] at h
        exact absurd h (by decide)
  simp [nonEmpty, hne]

/-- The UPDATE of a lookup. -/
theorem holdsId_updateSummary (hrow : RowFor key row) (hlive : row.deletedAt = none)
    {summary : Account.AccountSummary}
    (hadmissible : (IdFact.lookup summary 0 0).Admissible key.kind)
    (started now : Nat) :
    HoldsId key.kind (Account.updateSummary ⟨some key, some row, none⟩ summary started now)
      (row.idCache.apply .lookup started summary.id) := by
  obtain ⟨hid, hname, hurl⟩ := hadmissible
  have hnonEmpty := nonEmpty_of_fits hid
  apply holdsId_updateLive hlive (hrow.storable_summary hid hname hurl started now) rfl
  · exact (WellFormed.seen hrow).updateSummary summary started now
  · cases hkept : Account.withinSkew row.idChangedAt started with
    | true => simp [Account.summarized, IdCache.apply, IdCache.replacedBy, AccountRow.idCache,
      hkept]
    | false =>
        simp [Account.summarized, IdCache.apply, IdCache.replacedBy, AccountRow.idCache, hkept,
          hnonEmpty]

/-- A lookup fills a missing id before its UPDATE, which then keeps it. -/
theorem holdsId_storeSummary (hrow : RowFor key row) (hlive : row.deletedAt = none)
    (newKey : ActorId) {summary : Account.AccountSummary}
    (hadmissible : (IdFact.lookup summary 0 0).Admissible key.kind) (started now : Nat) :
    HoldsId key.kind (Account.storeSummary ⟨some key, some row, none⟩ newKey summary started now)
      (row.idCache.apply .lookup started summary.id) := by
  obtain ⟨hid, _⟩ := id hadmissible
  have hnonEmpty := nonEmpty_of_fits hid
  unfold Account.storeSummary
  rw [ensure_held hlive, hnonEmpty]
  split
  · rename_i id hcurrent hhint
    obtain rfl : summary.id = id := by
      obtain ⟨heq, _⟩ := Option.filter_eq_some_iff.mp hhint
      exact Option.some.inj heq
    have hundated := hrow.undated hlive hcurrent
    have hfilled :
      RowFor key { row with currentId := some summary.id, idChangedAt := some started } :=
      ⟨hrow.kind, hrow.storable_id _ hid, by simp⟩
    have hupdate := holdsId_updateSummary hfilled hlive hadmissible started now
    have hcache : IdCache.apply ⟨some summary.id, some started⟩ .lookup started summary.id =
        row.idCache.apply .lookup started summary.id := by
      simp [IdCache.apply, IdCache.replacedBy, AccountRow.idCache, Account.withinSkew, hcurrent,
        hundated]
    exact hcache ▸ hupdate
  · exact holdsId_updateSummary hrow hlive hadmissible started now

/-- The rows of a held account follow the cache. -/
theorem applyTo_idCache (h : HoldsId kind account cache) (newKey : ActorId) {fact : IdFact}
    (hadmissible : fact.Admissible kind) :
    HoldsId kind (fact.applyTo newKey account) (cache.apply fact.source fact.time fact.id) := by
  obtain ⟨key, row, rfl, hrow, rfl, hlive, rfl⟩ := h
  cases fact with
  | changed newId occurred => exact holdsId_idChanged hrow hlive hadmissible occurred
  | sighting seen id asOf =>
      obtain ⟨rfl, hid⟩ := hadmissible
      exact holdsId_sighting hrow hlive newKey hid asOf
  | lookup summary started now =>
    exact holdsId_storeSummary hrow hlive newKey hadmissible started now

end Refinement

/-! ## Convergence -/

/-- The account after facts applied in order. -/
def Account.applyFacts (newKey : ActorId) (account : Account) (order : List IdFact) : Account :=
  order.foldl (fun account fact => fact.applyTo newKey account) account

/-- The cached public id. -/
def Account.currentId (account : Account) : Option String := account.row.bind (·.currentId)

/-- What the row holds already, and the reports of the facts. -/
def reportsWith (account : Account) (facts : List IdFact) : List IdReport :=
  (IdCache.reports ⟨account.currentId, account.row.bind (·.idChangedAt)⟩) ++
    facts.map IdFact.report

/-- In every order and with every repetition the facts leave the id of the newest report, and two
orders leave the same. -/
structure Converges (newKey : ActorId) (account : Account) (facts : List IdFact) : Prop where
  newest : ∀ order, (∀ fact, fact ∈ order ↔ fact ∈ facts) → ∀ r ∈ reportsWith account facts,
    (∀ g ∈ reportsWith account facts, g.time ≤ r.time) →
    (account.applyFacts newKey order).currentId = some r.id
  same : ∀ order order', (∀ fact, fact ∈ order ↔ fact ∈ facts) →
    (∀ fact, fact ∈ order' ↔ fact ∈ facts) →
    (account.applyFacts newKey order).currentId = (account.applyFacts newKey order').currentId

/-- Fewer reports converge too. -/
theorem Converging.subset {reports reports' : List IdReport} (h : Converging reports')
    (hsub : ∀ r ∈ reports, r ∈ reports') : Converging reports where
  distinct := fun r hr g hg => h.distinct r (hsub r hr) g (hsub g hg)
  skew := fun l hl hsource g hg => h.skew l (hsub l hl) hsource g (hsub g hg)
  returns := fun s hs hsource w hw hid g hg =>
    h.returns s (hsub s hs) hsource w (hsub w hw) hid g (hsub g hg)

/-- Facts applied in any order leave a cache that is newest for what it said before and them. -/
theorem newest_applyFacts {kind : ActorKind} (newKey : ActorId) {all : List IdReport}
    (hc : Converging all) (order : List IdFact) {account : Account} {cache : IdCache}
    {reports : List IdReport} (hholds : HoldsId kind account cache) (h : Newest reports cache)
    (hsub : ∀ r ∈ reports, r ∈ all)
    (hadmissible : ∀ fact ∈ order, fact.Admissible kind ∧ fact.report ∈ all) :
    ∃ cache' reports', HoldsId kind (account.applyFacts newKey order) cache' ∧
      Newest reports' cache' ∧
      ∀ r, r ∈ reports' ↔ r ∈ reports ∨ r ∈ order.map IdFact.report := by
  induction order generalizing account cache reports with
  | nil => exact ⟨cache, reports, hholds, h, by simp⟩
  | cons fact order ih =>
      obtain ⟨hfact, hreport⟩ := hadmissible fact List.mem_cons_self
      have hsub' : ∀ r ∈ fact.report :: reports, r ∈ all := by
        intro r hr
        rcases List.mem_cons.mp hr with rfl | hr
        · exact hreport
        · exact hsub r hr
      have hsource : fact.source ≠ .cached := by
        cases fact <;> simp [IdFact.source]
      have hnext := h.apply hsource (hc.subset hsub')
      obtain ⟨cache', reports', hholds', hnewest, hmem⟩ :=
        ih (applyTo_idCache hholds newKey hfact) hnext hsub'
          fun fact hfact => hadmissible fact (List.mem_cons_of_mem _ hfact)
      refine ⟨cache', reports', hholds', hnewest, ?_⟩
      intro r
      rw [hmem r, List.map_cons, List.mem_cons, List.mem_cons]
      exact (or_congr_left or_comm).trans or_assoc

/-- The public id converges for every held live account and all facts about it whose reports, the
cached one included, converge. -/
theorem converges {account : Account} (h : WellFormed account) {key : AccountKey}
    (hkey : account.key = some key) (hlive : account.deletedAt = none) (newKey : ActorId)
    {facts : List IdFact} (hadmissible : ∀ fact ∈ facts, fact.Admissible key.kind)
    (hc : Converging (reportsWith account facts)) : Converges newKey account facts := by
  cases h with
  | unseen h => cases hkey
  | @seen key' row hrow =>
      obtain rfl := Option.some.inj hkey
      have hrowLive : row.deletedAt = none := by
        simpa [Account.deletedAt] using hlive
      have hholds : HoldsId key'.kind ⟨some key', some row, none⟩ row.idCache :=
        ⟨key', row, rfl, hrow, rfl, hrowLive, rfl⟩
      have hinitial : Newest row.idCache.reports row.idCache :=
        .initial (hrow.undated hrowLive)
      -- Every order of the facts ends with a cache that is newest for all the reports.
      have hend : ∀ order : List IdFact, (∀ fact, fact ∈ order ↔ fact ∈ facts) →
          ∃ cache reports, Newest reports cache ∧
            (∀ r, r ∈ reports ↔ r ∈ reportsWith ⟨some key', some row, none⟩ facts) ∧
            (Account.applyFacts newKey ⟨some key', some row, none⟩ order).currentId =
              cache.current := by
        intro order hsame
        obtain ⟨cache, reports, ⟨key, row', haccount, _, _, _, hcache⟩, hnewest, hmem⟩ :=
          newest_applyFacts newKey hc order hholds hinitial
            (fun r hr => List.mem_append_left _ hr)
            (fun fact hfact => ⟨hadmissible fact ((hsame fact).mp hfact),
              List.mem_append_right _ (List.mem_map_of_mem ((hsame fact).mp hfact))⟩)
        refine ⟨cache, reports, hnewest, ?_, ?_⟩
        · intro r
          rw [hmem r]
          unfold reportsWith
          rw [List.mem_append]
          simp only [List.mem_map, hsame]
          rfl
        · rw [haccount, ← hcache]
          rfl
      constructor
      · intro order hsame r hr hgreatest
        obtain ⟨cache, reports, hnewest, hmem, hcurrent⟩ := hend order hsame
        rw [hcurrent]
        exact hnewest.current_eq ((hmem r).mpr hr) fun g hg => hgreatest g ((hmem g).mp hg)
      · intro order order' hsame hsame'
        obtain ⟨cache, reports, hnewest, hmem, hcurrent⟩ := hend order hsame
        obtain ⟨cache', reports', hnewest', hmem', hcurrent'⟩ := hend order' hsame'
        rw [hcurrent, hcurrent']
        exact hnewest.current_unique hnewest' fun r => (hmem r).trans (hmem' r).symm

/-- A held Carbon. -/
def ada : Account where
  key := some ⟨⟨1, Uuid.one_ne_nil⟩, .carbon⟩
  row := some { kind := .carbon, currentId := some "c:ada", idChangedAt := some 0 }

theorem wellFormed_ada : WellFormed ada :=
  .seen ⟨rfl, by decide +kernel, by simp⟩

/-- The answer of a lookup that names an id and nothing else. -/
def answering (id : String) : Account.AccountSummary := ⟨.carbon, id, "", "", none⟩

/-- Two changes, a token with the first of them, and a lookup well after the second. -/
def adaRenamed : List IdFact :=
  [.changed "c:bea" (100 * microsPerSecond), .sighting .carbon "c:bea" (101 * microsPerSecond),
    .changed "c:cy" (102 * microsPerSecond), .lookup (answering "c:cy") (110 * microsPerSecond)
      (111 * microsPerSecond)]

theorem converges_adaRenamed : Converges ⟨2, Uuid.two_ne_nil⟩ ada adaRenamed := by
  refine converges wellFormed_ada rfl rfl _ ?_ ⟨?_, ?_, ?_⟩
  · simp only [adaRenamed, List.forall_mem_cons, IdFact.Admissible]
    refine ⟨by decide +kernel, by decide +kernel, by decide +kernel, by decide +kernel, by simp⟩
  · decide +kernel
  · decide +kernel
  · simp only [instant_lt_iff]
    decide +kernel

/-- A lookup that starts three seconds after a change is not believed, since it may have been read
before it: applied after the change it leaves the older id. -/
theorem not_forall_converges :
    ¬ ∀ newKey account facts, WellFormed account → (∃ key, account.key = some key ∧
      account.deletedAt = none ∧ ∀ fact ∈ facts, IdFact.Admissible key.kind fact) →
      Converges newKey account facts := by
  intro h
  have hadmissible : ∀ fact ∈ [IdFact.changed "c:bea" (100 * microsPerSecond),
      .lookup (answering "c:cy") (103 * microsPerSecond) (104 * microsPerSecond)],
      fact.Admissible .carbon := by
    simp only [List.forall_mem_cons, IdFact.Admissible]
    refine ⟨by decide +kernel, by decide +kernel, by simp⟩
  have hconverges := h ⟨2, by decide⟩ ada _ wellFormed_ada ⟨_, rfl, rfl, hadmissible⟩
  have hcurrent := hconverges.newest _ (fun _ => .rfl)
    ⟨.lookup, some (103 * microsPerSecond), "c:cy"⟩ (by decide +kernel)
    (by simp only [instant_le_iff]; decide +kernel)
  exact absurd hcurrent (by decide +kernel)

end Waveform.Directory
