import Waveform.Directory.Account

/-!
# Acting as a custodian

A Carbon names an account to act on as its custodian. The decision reads the cached custodian, which
`silicon.custodian_changed` webhooks and lookups write, and asks Silicon Accounts where the cache
may not stand.

- `CustodyCache`, `Custody`: what the cached custodian says about the facts applied so far.
- `SelectWorld`: one request of `select_for_custodian` while other steps of the directory go on.
- `granted_newest`: an access that is granted rests on the newest fact that names a custodian, where
  the facts were applied in turn.
-/

set_option autoImplicit false

namespace Waveform.Directory

open Waveform.Domain LabelledRun

/-! ## Facts about the custodian -/

/-- Who says so: a `silicon.custodian_changed` event, as of when it happened, or a lookup, as of its
start. -/
inductive CustodySource where
  | webhook
  | lookup
  deriving DecidableEq

/-- A fact that names the custodian of the account. -/
structure CustodyFact where
  source : CustodySource
  time : Nat
  names : AccountUuid
  deriving DecidableEq

/-- The row is one that the UPDATE of a custodian may change. -/
def Account.liveSilicon (account : Account) : Bool :=
  account.row.any fun row => row.deletedAt.isNone && row.kind = .silicon

/-- The fact that an event applies to the account. An event that finds no live Silicon, a lookup
that names nobody and an UPDATE that a CHECK refuses apply none. -/
def custodyFact (account : Account) : DirectoryEvent → Option CustodyFact
  | .custodianChanged named occurred _ =>
      if account.liveSilicon then
        (named.bind fun custodian => AccountUuid.fromStr? custodian.uuid).map
          fun uuid => ⟨.webhook, occurred, uuid⟩
      else none
  | .updateSummary summary started now =>
      if account.liveSilicon ∧
          account.row.any fun row => (Account.summarized summary started now row).storable then
        summary.custodianUuid.map fun uuid => ⟨.lookup, started, uuid⟩
      else none
  | _ => none

/-- The facts of a run, in the order in which they were applied. -/
def custodyFacts (tr : List (Transition Account DirectoryEvent)) : List CustodyFact :=
  tr.filterMap fun e => custodyFact e.pre e.label

/-- The later fact does not contradict the earlier one at an instant of its own: facts that name
different custodians are applied in the order of their instants, a lookup further from a webhook
than the skew allowance; only a webhook that is already overtaken may come after a newer one, and a
lookup that started before a change after it. -/
def InTurn (earlier later : CustodyFact) : Prop :=
  earlier.names ≠ later.names →
    match later.source, earlier.source with
    | .webhook, .webhook => earlier.time ≠ later.time
    | .webhook, .lookup => earlier.time < later.time
    | .lookup, .lookup => earlier.time < later.time
    | .lookup, .webhook => later.time < earlier.time ∨ earlier.time + lookupSkew < later.time

instance (earlier later : CustodyFact) : Decidable (InTurn earlier later) := by
  unfold InTurn
  cases later.source <;> cases earlier.source <;> infer_instance

/-- What the row keeps of them. -/
structure CustodyCache where
  custodian : Option AccountUuid
  changedAt : Option Nat
  deriving DecidableEq

/-- The cache after a fact. -/
def CustodyCache.apply (cache : CustodyCache) (fact : CustodyFact) : CustodyCache :=
  match fact.source with
  | .webhook =>
      if cache.changedAt.all fun changed => changed ≤ fact.time then
        ⟨some fact.names, some fact.time⟩
      else cache
  | .lookup =>
      if Account.withinSkew cache.changedAt fact.time then cache
      else ⟨some fact.names, cache.changedAt⟩

/-- What the cache says about the facts applied so far: it names what one of them names, every fact
that names another is older than one that names this, and its instant is the newest webhook's. -/
structure Custody (facts : List CustodyFact) (cache : CustodyCache) : Prop where
  named : ∀ uuid ∈ cache.custodian, ∃ g ∈ facts, g.names = uuid
  newest : ∀ f ∈ facts, cache.custodian ≠ some f.names →
    ∃ g ∈ facts, cache.custodian = some g.names ∧ f.time < g.time
  webhooks : ∀ w ∈ facts, w.source = .webhook → ∃ changed ∈ cache.changedAt, w.time ≤ changed
  dated : ∀ changed ∈ cache.changedAt, ∃ w ∈ facts, w.source = .webhook ∧ w.time = changed
  apart : ∀ l ∈ facts, l.source = .lookup → ∀ w ∈ facts, w.source = .webhook →
    l.names ≠ w.names → l.time < w.time ∨ w.time + lookupSkew < l.time

namespace Custody

variable {facts : List CustodyFact} {cache : CustodyCache} {fact : CustodyFact}

theorem nil : Custody [] ⟨none, none⟩ :=
  ⟨by simp, by simp, by simp, by simp, by simp⟩

/-- Lookups and webhooks that name different custodians stay apart. -/
theorem apart_append (h : Custody facts cache) (hturn : ∀ g ∈ facts, InTurn g fact) :
    ∀ l ∈ facts ++ [fact], l.source = .lookup → ∀ w ∈ facts ++ [fact], w.source = .webhook →
      l.names ≠ w.names → l.time < w.time ∨ w.time + lookupSkew < l.time := by
  intro l hl hlookup w hw hwebhook hnames
  rcases List.mem_append.mp hl with hlfacts | hl
  · rcases List.mem_append.mp hw with hw | hw
    · exact h.apart l hlfacts hlookup w hw hwebhook hnames
    · obtain rfl := List.mem_singleton.mp hw
      have hlt := hturn l hlfacts hnames
      rw [hlookup, hwebhook] at hlt
      exact .inl hlt
  · obtain rfl := List.mem_singleton.mp hl
    rcases List.mem_append.mp hw with hw | hw
    · have hapart := hturn w hw hnames.symm
      rw [hlookup, hwebhook] at hapart
      exact hapart
    · obtain rfl := List.mem_singleton.mp hw
      exact absurd rfl hnames

/-- A fact that becomes the cached custodian is newer than every fact that names another. -/
theorem accept (h : Custody facts cache) (hturn : ∀ g ∈ facts, InTurn g fact)
    {changedAt : Option Nat}
    (hnewer : ∀ g ∈ facts, g.names ≠ fact.names → g.time < fact.time)
    (hwebhooks : ∀ w ∈ facts ++ [fact], w.source = .webhook →
      ∃ changed ∈ changedAt, w.time ≤ changed)
    (hdated : ∀ changed ∈ changedAt, ∃ w ∈ facts ++ [fact],
      w.source = .webhook ∧ w.time = changed) :
    Custody (facts ++ [fact]) ⟨some fact.names, changedAt⟩ where
  named := by
    rintro uuid ⟨⟩
    exact ⟨fact, List.mem_append_right _ (List.mem_singleton_self _), rfl⟩
  newest := by
    intro f hf hne
    rcases List.mem_append.mp hf with hf | hf
    · have hnames : f.names ≠ fact.names := fun heq => hne (congrArg some heq.symm)
      exact ⟨fact, List.mem_append_right _ (List.mem_singleton_self _), rfl,
        hnewer f hf hnames⟩
    · obtain rfl := List.mem_singleton.mp hf
      exact absurd rfl hne
  webhooks := hwebhooks
  dated := hdated
  apart := h.apart_append hturn

/-- A fact that is kept out is older than one that names the cached custodian, or names it too. -/
theorem keep (h : Custody facts cache) (hturn : ∀ g ∈ facts, InTurn g fact)
    (hold : cache.custodian ≠ some fact.names →
      ∃ g ∈ facts, cache.custodian = some g.names ∧ fact.time < g.time)
    (hwebhook : fact.source = .webhook → ∃ changed ∈ cache.changedAt, fact.time ≤ changed) :
    Custody (facts ++ [fact]) cache where
  named := by
    intro uuid huuid
    obtain ⟨g, hg, hnames⟩ := h.named uuid huuid
    exact ⟨g, List.mem_append_left _ hg, hnames⟩
  newest := by
    intro f hf hne
    have hfound : ∃ g ∈ facts, cache.custodian = some g.names ∧ f.time < g.time := by
      rcases List.mem_append.mp hf with hf | hf
      · exact h.newest f hf hne
      · obtain rfl := List.mem_singleton.mp hf
        exact hold hne
    obtain ⟨g, hg, hnewer⟩ := hfound
    exact ⟨g, List.mem_append_left _ hg, hnewer⟩
  webhooks := by
    intro w hw hsource
    rcases List.mem_append.mp hw with hw | hw
    · exact h.webhooks w hw hsource
    · obtain rfl := List.mem_singleton.mp hw
      exact hwebhook hsource
  dated := by
    intro changed hchanged
    obtain ⟨w, hw, hwebhook⟩ := h.dated changed hchanged
    exact ⟨w, List.mem_append_left _ hw, hwebhook⟩
  apart := h.apart_append hturn

/-- A webhook replaces the custodian unless a newer one did. -/
theorem apply_webhook (h : Custody facts cache) (hturn : ∀ g ∈ facts, InTurn g fact)
    (hsource : fact.source = .webhook) : Custody (facts ++ [fact]) (cache.apply fact) := by
  unfold CustodyCache.apply
  rw [hsource]
  dsimp only
  split
  · rename_i hreplaces
    have hle : ∀ changed ∈ cache.changedAt, changed ≤ fact.time := by
      intro changed hchanged
      have hall := (Option.all_eq_true _ _).mp hreplaces changed hchanged
      exact of_decide_eq_true hall
    apply h.accept hturn
    · intro g hg hnames
      have hturn := hturn g hg hnames
      rw [hsource] at hturn
      cases hg' : g.source with
      | lookup =>
          rw [hg'] at hturn
          exact hturn
      | webhook =>
          rw [hg'] at hturn
          obtain ⟨changed, hchanged, hnewer⟩ := h.webhooks g hg hg'
          have hchangedLe := hle changed hchanged
          dsimp only at hturn
          omega
    · intro w hw hwebhook
      refine ⟨fact.time, rfl, ?_⟩
      rcases List.mem_append.mp hw with hw | hw
      · obtain ⟨changed, hchanged, hnewer⟩ := h.webhooks w hw hwebhook
        exact Nat.le_trans hnewer (hle changed hchanged)
      · obtain rfl := List.mem_singleton.mp hw
        exact Nat.le_refl _
    · rintro changed ⟨⟩
      exact ⟨fact, List.mem_append_right _ (List.mem_singleton_self _), hsource, rfl⟩
  · rename_i hkept
    obtain ⟨changed, hchanged, hlater⟩ : ∃ changed, cache.changedAt = some changed ∧
        fact.time < changed := by
      cases hchangedAt : cache.changedAt with
      | none => simp [hchangedAt] at hkept
      | some changed => exact ⟨changed, rfl, by simpa [hchangedAt] using hkept⟩
    apply h.keep hturn
    · intro _
      obtain ⟨w, hw, hwebhook, hwtime⟩ := h.dated changed hchanged
      by_cases hnames : cache.custodian = some w.names
      · exact ⟨w, hw, hnames, by omega⟩
      · obtain ⟨g, hg, hcustodian, hnewer⟩ := h.newest w hw hnames
        exact ⟨g, hg, hcustodian, by omega⟩
    · intro _
      exact ⟨changed, hchanged, Nat.le_of_lt hlater⟩

/-- A lookup replaces the custodian unless a change was too close to its start, or later. -/
theorem apply_lookup (h : Custody facts cache) (hturn : ∀ g ∈ facts, InTurn g fact)
    (hsource : fact.source = .lookup) : Custody (facts ++ [fact]) (cache.apply fact) := by
  unfold CustodyCache.apply
  rw [hsource]
  dsimp only
  have hnotWebhook : fact.source = .webhook → False := by
    rw [hsource]
    intro hcontra
    cases hcontra
  split
  · rename_i hwithin
    obtain ⟨changed, hchanged, hany⟩ := (Option.any_eq_true _ _).mp hwithin
    have hnear : fact.time ≤ changed + lookupSkew := of_decide_eq_true hany
    apply h.keep hturn
    · intro hother
      obtain ⟨w, hw, hwebhook, hwtime⟩ := h.dated changed hchanged
      by_cases hnames : cache.custodian = some w.names
      · -- The webhook names the cached custodian, and the lookup started before it.
        have hwturn := hturn w hw fun heq => hother (hnames.trans (congrArg some heq))
        rw [hsource, hwebhook] at hwturn
        refine ⟨w, hw, hnames, ?_⟩
        rcases hwturn with hbefore | hafter
        · exact hbefore
        · omega
      · obtain ⟨g, hg, hcustodian, hnewer⟩ := h.newest w hw hnames
        refine ⟨g, hg, hcustodian, ?_⟩
        have hgw : g.names ≠ w.names := fun heq => hnames (hcustodian.trans (congrArg some heq))
        cases hg' : g.source with
        | webhook =>
            obtain ⟨latest, hlatest, hle⟩ := h.webhooks g hg hg'
            have hsame : latest = changed := Option.some.inj (hlatest.symm.trans hchanged)
            omega
        | lookup =>
            -- A lookup replaced the webhook's custodian, so that it started well after it.
            have hfar := h.apart g hg hg' w hw hwebhook hgw
            omega
    · intro hcontra
      exact (hnotWebhook hcontra).elim
  · rename_i hfar
    apply h.accept hturn
    · intro g hg hnames
      have hgturn := hturn g hg hnames
      rw [hsource] at hgturn
      cases hg' : g.source with
      | lookup =>
          rw [hg'] at hgturn
          exact hgturn
      | webhook =>
          rw [hg'] at hgturn
          rcases hgturn with hbefore | hafter
          · obtain ⟨changed, hchanged, hle⟩ := h.webhooks g hg hg'
            have hchangedAt : cache.changedAt = some changed := hchanged
            have hnear : Account.withinSkew cache.changedAt fact.time = true := by
              simp only [hchangedAt, Account.withinSkew, Option.any_some, decide_eq_true_eq]
              omega
            exact absurd hnear hfar
          · omega
    · intro w hw hwebhook
      rcases List.mem_append.mp hw with hw | hw
      · exact h.webhooks w hw hwebhook
      · obtain rfl := List.mem_singleton.mp hw
        exact (hnotWebhook hwebhook).elim
    · intro changed hchanged
      obtain ⟨w, hw, hdated⟩ := h.dated changed hchanged
      exact ⟨w, List.mem_append_left _ hw, hdated⟩

theorem apply (h : Custody facts cache) (hturn : ∀ g ∈ facts, InTurn g fact) :
    Custody (facts ++ [fact]) (cache.apply fact) := by
  cases hsource : fact.source with
  | webhook => exact h.apply_webhook hturn hsource
  | lookup => exact h.apply_lookup hturn hsource

/-- Every fact that no other is newer than names the cached custodian. -/
theorem names_of_newest (h : Custody facts cache) {f : CustodyFact} (hf : f ∈ facts)
    (hnewest : ∀ g ∈ facts, g.time ≤ f.time) : cache.custodian = some f.names := by
  by_contra hne
  obtain ⟨g, hg, _, hlt⟩ := h.newest f hf hne
  have hle := hnewest g hg
  omega

end Custody

/-! ## The rows follow the cache -/

/-- What the row keeps of the custodian. -/
def AccountRow.custody (row : AccountRow) : CustodyCache :=
  ⟨row.custodianUuid, row.custodianChangedAt⟩

/-- What an event makes of the custodian of a cached account. -/
def custodyAfter (key : AccountKey) (row : AccountRow) (event : DirectoryEvent) : CustodyCache :=
  match custodyFact ⟨some key, some row, none⟩ event with
  | none => row.custody
  | some fact => row.custody.apply fact

section Rows

variable {key : AccountKey} {row : AccountRow}

/-- An UPDATE that does not set them leaves the deletion and the kind. -/
theorem updatedRow_keeps (applies : AccountRow → Bool) {change : AccountRow → AccountRow}
    (hdeleted : (change row).deletedAt = row.deletedAt) (hkind : (change row).kind = row.kind) :
    (Account.updatedRow applies change row).deletedAt = row.deletedAt ∧
      (Account.updatedRow applies change row).kind = row.kind := by
  unfold Account.updatedRow
  split
  · exact ⟨hdeleted, hkind⟩
  · exact ⟨rfl, rfl⟩

/-- An UPDATE of other columns leaves the custodian. -/
theorem updatedRow_custody (applies : AccountRow → Bool) {change : AccountRow → AccountRow}
    (h : (change row).custody = row.custody) :
    (Account.updatedRow applies change row).custody = row.custody := by
  unfold Account.updatedRow
  split
  · exact h
  · rfl

theorem ensureRow_custody (kind : ActorKind) (idHint : Option String) (asOf : Option Nat) :
    (Account.ensureRow kind idHint asOf (some row)).custody = row.custody ∧
      (Account.ensureRow kind idHint asOf (some row)).deletedAt = row.deletedAt ∧
      (Account.ensureRow kind idHint asOf (some row)).kind = row.kind := by
  unfold Account.ensureRow
  dsimp only
  split
  · exact ⟨rfl, rfl, rfl⟩
  · exact ⟨rfl, rfl, rfl⟩

/-- A webhook that names somebody. -/
theorem custodianChanged_custody (hrow : RowFor key row) (hlive : row.deletedAt = none)
    (hsilicon : row.kind = .silicon) (named : Option Account.NamedAccount) (occurred now : Nat) :
    ∃ row', Account.custodianChanged ⟨some key, some row, none⟩ named occurred now =
        ⟨some key, some row', none⟩ ∧ row'.kind = row.kind ∧
      row'.custody = custodyAfter key row (.custodianChanged named occurred now) := by
  have hliveSilicon : Account.liveSilicon ⟨some key, some row, none⟩ = true := by
    simp [Account.liveSilicon, hlive, hsilicon]
  have hfact : custodyFact ⟨some key, some row, none⟩ (.custodianChanged named occurred now) =
      (named.bind fun custodian => AccountUuid.fromStr? custodian.uuid).map
        fun uuid => ⟨.webhook, occurred, uuid⟩ := if_pos hliveSilicon
  unfold Account.custodianChanged custodyAfter
  rw [hfact]
  cases huuid : named.bind fun custodian => AccountUuid.fromStr? custodian.uuid with
  | none => exact ⟨row, rfl, rfl, rfl⟩
  | some uuid =>
      have hrowStorable := hrow.storable
      have hstorable : AccountRow.storable { row with
          custodianUuid := some uuid
          custodianChangedAt := some occurred
          custodianCheckedAt := some now } = true := by
        simp only [AccountRow.storable, Bool.and_eq_true] at hrowStorable ⊢
        exact ⟨hrowStorable.1, by simp [hsilicon]⟩
      refine ⟨_, Account.updateLive_seen key row _ _, ?_⟩
      rw [Account.updatedRow_live hlive]
      · simp only [hsilicon, decide_true, Bool.true_and, Option.map_some]
        split
        · rename_i hreplaces
          exact ⟨rfl, (if_pos hreplaces).symm⟩
        · rename_i hkept
          exact ⟨hsilicon, (if_neg hkept).symm⟩
      · exact hstorable

/-- The UPDATE of a lookup. -/
theorem updateSummary_custody (hlive : row.deletedAt = none) (hsilicon : row.kind = .silicon)
    (summary : Account.AccountSummary) (started now : Nat) :
    ∃ row', Account.updateSummary ⟨some key, some row, none⟩ summary started now =
        ⟨some key, some row', none⟩ ∧ row'.kind = row.kind ∧
      row'.custody = custodyAfter key row (.updateSummary summary started now) := by
  have hliveSilicon : Account.liveSilicon ⟨some key, some row, none⟩ = true := by
    simp [Account.liveSilicon, hlive, hsilicon]
  have hfact : custodyFact ⟨some key, some row, none⟩ (.updateSummary summary started now) =
      if (Account.summarized summary started now row).storable then
        summary.custodianUuid.map fun uuid => ⟨.lookup, started, uuid⟩ else none := by
    simp [custodyFact, hliveSilicon]
  refine ⟨Account.updatedRow (fun _ => true) (Account.summarized summary started now) row, rfl,
    ?_⟩
  unfold Account.updatedRow custodyAfter
  rw [hfact]
  simp only [hlive, Option.isNone_none, Bool.true_and]
  split
  · refine ⟨rfl, ?_⟩
    cases hnames : summary.custodianUuid with
    | none => simp [Account.summarized, AccountRow.custody, hsilicon, hnames]
    | some uuid =>
        simp only [Account.summarized, AccountRow.custody, hsilicon, hnames, Option.map_some,
          CustodyCache.apply, ne_eq, not_true_eq_false, if_false, Option.some_or]
        split
        · rename_i hwithin
          exact (if_pos hwithin).symm
        · rename_i hfar
          exact (if_neg hfar).symm
  · exact ⟨rfl, rfl⟩

/-- What an event leaves of a cached account: the kind stays, a deletion stays, and the custodian
follows the cache. -/
theorem next_seen (hrow : RowFor key row) (event : DirectoryEvent) :
    ∃ row', Account.next ⟨some key, some row, none⟩ event = ⟨some key, some row', none⟩ ∧
      row'.kind = row.kind ∧
      (row'.deletedAt = none → row.deletedAt = none ∧
        (row.kind = .silicon → row'.custody = custodyAfter key row event)) := by
  cases event with
  | ensure newKey kind idHint asOf =>
      obtain ⟨hcustody, hdeleted, hkind⟩ := @ensureRow_custody row key.kind
        (Account.hintFor kind idHint) (asOf.filter fun _ => (Account.hintFor kind idHint).isSome)
      exact ⟨_, rfl, hkind, fun hlive => ⟨hdeleted.symm.trans hlive, fun _ => hcustody⟩⟩
  | updateSummary summary started now =>
      by_cases hlive : row.deletedAt = none ∧ row.kind = .silicon
      · obtain ⟨row', hnext, hkind, hcustody⟩ :=
          @updateSummary_custody key row hlive.1 hlive.2 summary started now
        exact ⟨row', hnext, hkind, fun _ => ⟨hlive.1, fun _ => hcustody⟩⟩
      · refine ⟨_, Account.updateLive_seen key row _ _, ?_, ?_⟩
        · exact (updatedRow_keeps _ rfl rfl).2
        · intro hdeleted
          have hrowLive := (updatedRow_keeps _ rfl rfl).1.symm.trans hdeleted
          exact ⟨hrowLive, fun hsilicon => absurd ⟨hrowLive, hsilicon⟩ hlive⟩
  | custodianChanged named occurred now =>
      by_cases hlive : row.deletedAt = none ∧ row.kind = .silicon
      · obtain ⟨row', hnext, hkind, hcustody⟩ :=
          custodianChanged_custody hrow hlive.1 hlive.2 named occurred now
        exact ⟨row', hnext, hkind, fun _ => ⟨hlive.1, fun _ => hcustody⟩⟩
      · unfold Account.next Account.custodianChanged
        dsimp only
        split
        · exact ⟨row, rfl, rfl, fun hdeleted => ⟨hdeleted, fun hsilicon =>
            absurd ⟨hdeleted, hsilicon⟩ hlive⟩⟩
        · refine ⟨_, Account.updateLive_seen key row _ _, ?_, ?_⟩
          · exact (updatedRow_keeps _ rfl rfl).2
          · intro hdeleted
            have hrowLive := (updatedRow_keeps _ rfl rfl).1.symm.trans hdeleted
            exact ⟨hrowLive, fun hsilicon => absurd ⟨hrowLive, hsilicon⟩ hlive⟩
  | signedOut reason occurred =>
      unfold Account.next
      dsimp only
      split
      · exact ⟨row, rfl, rfl, fun hlive => ⟨hlive, fun _ => rfl⟩⟩
      · exact ⟨_, rfl, rfl, fun hlive => ⟨hlive, fun _ => rfl⟩⟩
  | accessRemoved occurred => exact ⟨_, rfl, rfl, fun hlive => ⟨hlive, fun _ => rfl⟩⟩
  | deleted occurred =>
      refine ⟨row.tombstone occurred, rfl, rfl, ?_⟩
      intro hlive
      cases hdeleted : row.deletedAt with
      | none => simp [AccountRow.tombstone, hdeleted] at hlive
      | some earlier => simp [AccountRow.tombstone, hdeleted] at hlive
  | _ =>
      refine ⟨_, Account.updateLive_seen key row _ _, ?_, ?_⟩
      · exact (updatedRow_keeps _ rfl rfl).2
      · intro hdeleted
        exact ⟨(updatedRow_keeps _ rfl rfl).1.symm.trans hdeleted,
          fun _ => updatedRow_custody _ rfl⟩

end Rows

/-- What the rows of the account say about the facts applied so far. -/
structure Tracks (facts : List CustodyFact) (account : Account) : Prop where
  wellFormed : WellFormed account
  unseen : account.row = none → facts = []
  live : ∀ row ∈ account.row, row.deletedAt = none → row.kind = .silicon →
    Custody facts row.custody

/-- The row of a first sighting names no custodian. -/
theorem foldedRow_custody (row : AccountRow) (pending : Option PendingEvent)
    (hcustody : row.custody = ⟨none, none⟩) :
    (Account.foldedRow row pending).custody = ⟨none, none⟩ := by
  obtain ⟨hcustodian, hchangedAt⟩ := CustodyCache.mk.inj hcustody
  unfold Account.foldedRow
  split
  · exact hcustody
  · split
    · simp [AccountRow.custody, AccountRow.tombstone, hchangedAt]
    · exact hcustody

/-- An event before the first sighting leaves the account unseen, or is the first sighting. -/
theorem next_unseen (pending : Option PendingEvent) (event : DirectoryEvent) :
    (∃ pending', Account.next ⟨none, none, pending⟩ event = ⟨none, none, pending'⟩) ∨
      ∃ key row, Account.next ⟨none, none, pending⟩ event = ⟨some key, some row, none⟩ ∧
        row.custody = ⟨none, none⟩ ∧ row.custodianCheckedAt = none := by
  cases event with
  | ensure newKey kind idHint asOf =>
      refine .inr ⟨_, _, Account.ensure_unseen pending newKey kind idHint asOf, ?_, ?_⟩
      · exact foldedRow_custody _ pending rfl
      · unfold Account.foldedRow
        split
        · rfl
        · split
          · rfl
          · rfl
  | signedOut reason occurred =>
      unfold Account.next
      dsimp only
      split
      · exact .inl ⟨pending, rfl⟩
      · exact .inl ⟨_, rfl⟩
  | accessRemoved occurred => exact .inl ⟨_, rfl⟩
  | deleted occurred => exact .inl ⟨_, rfl⟩
  | custodianChanged named occurred now =>
      exact .inl ⟨pending, Account.custodianChanged_unseen pending named occurred now⟩
  | _ => exact .inl ⟨pending, rfl⟩

theorem custodyFact_unseen (pending : Option PendingEvent) (event : DirectoryEvent) :
    custodyFact ⟨none, none, pending⟩ event = none := by
  cases event <;> rfl

/-- An event applies its fact in turn. -/
theorem Tracks.next {facts : List CustodyFact} {account : Account} (h : Tracks facts account)
    (event : DirectoryEvent)
    (hturn : ∀ fact ∈ custodyFact account event, ∀ g ∈ facts, InTurn g fact) :
    Tracks (facts ++ (custodyFact account event).toList) (account.next event) := by
  have hwf := h.wellFormed.next event
  cases h.wellFormed with
  | @unseen pending _ =>
      have hnil : facts = [] := h.unseen rfl
      rw [custodyFact_unseen, hnil]
      rcases next_unseen _ event with ⟨pending', hnext⟩ | ⟨key, row, hnext, hrow, _⟩
      · rw [hnext]
        refine ⟨hnext ▸ hwf, fun _ => rfl, ?_⟩
        rintro row ⟨⟩
      · rw [hnext]
        refine ⟨hnext ▸ hwf, fun _ => rfl, ?_⟩
        rintro _ ⟨⟩ _ _
        rw [hrow]
        exact .nil
  | @seen key row hrow =>
      obtain ⟨row', hnext, hkind, hcustody⟩ := next_seen hrow event
      rw [hnext] at hwf ⊢
      refine ⟨hwf, by rintro ⟨⟩, ?_⟩
      rintro _ ⟨⟩ hlive hsilicon
      obtain ⟨hrowLive, hafter⟩ := hcustody hlive
      have hrowSilicon := hkind.symm.trans hsilicon
      have hbefore := h.live row rfl hrowLive hrowSilicon
      rw [hafter hrowSilicon]
      unfold custodyAfter
      cases hfact : custodyFact ⟨some key, some row, none⟩ event with
      | none => simpa using hbefore
      | some fact => exact hbefore.apply fun g hg => hturn fact hfact g hg

/-- Over a run whose facts are applied in turn. -/
theorem Tracks.run {facts : List CustodyFact} {s t : Account}
    {tr : List (Transition Account DirectoryEvent)} (h : Tracks facts s)
    (run : Run DirectoryStep s tr t) (hturn : (facts ++ custodyFacts tr).Pairwise InTurn) :
    Tracks (facts ++ custodyFacts tr) t := by
  induction run generalizing facts with
  | nil s => simpa [custodyFacts] using h
  | @cons s s' t event tr hstep rest ih =>
      obtain rfl := hstep.eq_next
      have hcons : facts ++ custodyFacts (⟨s, event, s.next event⟩ :: tr) =
          (facts ++ (custodyFact s event).toList) ++ custodyFacts tr := by
        unfold custodyFacts
        cases hfact : custodyFact s event with
        | none => simp [hfact]
        | some fact => simp [hfact]
      rw [hcons] at hturn ⊢
      apply ih _ hturn
      apply h.next event
      intro fact hfact g hg
      have hpairs := (List.pairwise_append.mp (List.pairwise_append.mp hturn).1).2.2
      exact hpairs g hg fact (Option.mem_toList.mpr hfact)

/-! ## When the custodian was confirmed -/

/-- When the custodian was last confirmed. -/
def Account.checkedAt (account : Account) : Option Nat :=
  account.row.bind (·.custodianCheckedAt)

/-- The event brings, at the instant, what a webhook or a lookup said. -/
def BroughtAt (checked : Nat) : DirectoryEvent → Prop
  | .custodianChanged _ _ now => now = checked
  | .updateSummary _ _ now => now = checked
  | _ => False

/-- The step stores, at the instant, what a webhook or a lookup said: it makes the instant that of
the last confirmation. -/
structure StoredAt (checked : Nat) (e : Transition Account DirectoryEvent) : Prop where
  brought : BroughtAt checked e.label
  before : e.pre.checkedAt ≠ some checked
  after : e.post.checkedAt = some checked

/-- The instant of the last confirmation stays, or an event has just stored it. -/
def CheckedBy (event : DirectoryEvent) (row row' : AccountRow) : Prop :=
  row'.custodianCheckedAt = row.custodianCheckedAt ∨
    ∃ checked, row'.custodianCheckedAt = some checked ∧ BroughtAt checked event

theorem updatedRow_checkedBy {event : DirectoryEvent} {row : AccountRow}
    (applies : AccountRow → Bool) {change : AccountRow → AccountRow}
    (h : CheckedBy event row (change row)) :
    CheckedBy event row (Account.updatedRow applies change row) := by
  unfold Account.updatedRow
  split
  · exact h
  · exact .inl rfl

theorem checkedAt_seen (key : AccountKey) (row : AccountRow) (event : DirectoryEvent) :
    ∃ row', Account.next ⟨some key, some row, none⟩ event = ⟨some key, some row', none⟩ ∧
      CheckedBy event row row' := by
  cases event with
  | ensure newKey kind idHint asOf =>
      refine ⟨_, Account.ensure_seen key row newKey kind idHint asOf, ?_⟩
      unfold Account.ensureRow
      dsimp only
      split
      · exact .inl rfl
      · exact .inl rfl
  | updateSummary summary started now =>
      refine ⟨_, Account.updateLive_seen key row _ _, updatedRow_checkedBy _ ?_⟩
      unfold CheckedBy Account.summarized
      dsimp only
      split
      · exact .inr ⟨now, rfl, rfl⟩
      · exact .inl rfl
  | custodianChanged named occurred now =>
      unfold Account.next Account.custodianChanged
      dsimp only
      split
      · exact ⟨row, rfl, .inl rfl⟩
      · exact ⟨_, Account.updateLive_seen key row _ _,
          updatedRow_checkedBy _ (.inr ⟨now, rfl, rfl⟩)⟩
  | signedOut reason occurred =>
      unfold Account.next
      dsimp only
      split
      · exact ⟨row, rfl, .inl rfl⟩
      · exact ⟨_, rfl, .inl rfl⟩
  | accessRemoved occurred => exact ⟨_, rfl, .inl rfl⟩
  | deleted occurred => exact ⟨_, rfl, .inl rfl⟩
  | _ => exact ⟨_, Account.updateLive_seen key row _ _, updatedRow_checkedBy _ (.inl rfl)⟩

/-- Whatever confirmation the account holds, some step of its run has stored. -/
theorem stored_of_checkedAt {t : Account} {tr : List (Transition Account DirectoryEvent)}
    (run : Run DirectoryStep .unknown tr t) {checked : Nat}
    (hchecked : t.checkedAt = some checked) :
    ∃ e ∈ tr, StoredAt checked e := by
  have hunless := run.stable_unless
    (fun a => WellFormed a ∧ a.checkedAt ≠ some checked) (StoredAt checked)
    (fun a event a' h hstep => by
      obtain rfl := hstep.eq_next
      have hwf := h.1.next event
      by_cases hafter : (a.next event).checkedAt = some checked
      · -- A step that makes the instant that of the last confirmation has brought it.
        refine .inr ⟨?_, h.2, hafter⟩
        cases h.1 with
        | @unseen pending _ =>
            rcases next_unseen pending event with
              ⟨pending', hnext⟩ | ⟨key, first, hnext, _, hnone⟩
            · rw [hnext] at hafter
              cases hafter
            · rw [hnext] at hafter
              cases hnone.symm.trans hafter
        | @seen key old _ =>
            obtain ⟨new, hnext, hby⟩ := checkedAt_seen key old event
            rw [hnext] at hafter
            rcases hby with hsame | ⟨instant, hinstant, hbrought⟩
            · exact absurd (hsame.symm.trans hafter) h.2
            · obtain rfl := Option.some.inj (hinstant.symm.trans hafter)
              exact hbrought
      · exact .inl ⟨hwf, hafter⟩)
    ⟨.unknown, by rintro ⟨⟩⟩
  rcases hunless with hnever | hstored
  · exact absurd hchecked hnever.2
  · exact hstored

/-! ## One request -/

/-- How sure a custodian check must be. -/
inductive Confirm where
  | recent
  | always
  deriving DecidableEq

/-- The result of a Carbon naming an account to act on as its custodian. -/
inductive Selection where
  | custodian (record : AccountRecord)
  | notCustodian
  | notFound
  | throttled

/-- What Silicon Accounts answers. -/
inductive Lookup where
  | found (summary : Account.AccountSummary)
  | notFound
  | deleted

/-- A selector that names the account: its uuid, or a public id that Silicon Accounts resolves to
it. One that is neither is refused with nothing read. -/
inductive Selector where
  | publicId
  | uuid
  deriving DecidableEq

/-- `CUSTODIAN_RECHECK`. -/
def custodianRecheck : Nat := 600 * microsPerSecond

/-- `CUSTODIAN_MISMATCH_RECHECK`. -/
def custodianMismatchRecheck : Nat := 60 * microsPerSecond

namespace AccountRecord

/-- `custodian_is`. -/
def custodianIs (record : AccountRecord) (carbon : AccountUuid) : Bool :=
  record.kind = .silicon && record.deletedAt.isNone && record.custodian = some carbon

/-- `custodian_checked_within`. -/
def custodianCheckedWithin (record : AccountRecord) (limit now : Nat) : Bool :=
  record.custodianCheckedAt.any fun checked => now < checked + limit

/-- `custody`, up to the question to Silicon Accounts, which `none` asks. -/
def custody (record : AccountRecord) (carbon : AccountUuid) (confirm : Confirm) (now : Nat) :
    Option Selection :=
  if record.deletedAt.isSome then some .notFound
  else if record.kind ≠ .silicon then some .notCustodian
  else if record.custodianIs carbon then
    if confirm = .recent ∧ record.custodianCheckedWithin custodianRecheck now then
      some (.custodian record)
    else none
  else if record.custodianCheckedWithin custodianMismatchRecheck now then some .notCustodian
  else none

/-- The answer that what is stored after a lookup gives. -/
def selection (record : AccountRecord) (carbon : AccountUuid) : Selection :=
  if record.custodianIs carbon then .custodian record else .notCustodian

end AccountRecord

/-- The answer names the caller as the custodian of a Silicon. -/
def Account.AccountSummary.namesCaller (summary : Account.AccountSummary) (carbon : AccountUuid) :
    Bool :=
  summary.kind = .silicon && summary.custodian.any fun custodian => custodian.uuid = carbon.asStr

/-- The UPDATE of a lookup is refused: it finds a live row and makes one that cannot be stored. -/
def Account.refusesSummary (account : Account) (summary : Account.AccountSummary)
    (started now : Nat) : Bool :=
  account.row.any fun row =>
    row.deletedAt.isNone && !(Account.summarized summary started now row).storable

/-- Where a request is. Its question is asked for a cached account or for the selector itself. -/
inductive SelectPhase where
  | resolving
  | asking (cached : Bool) (started : Nat)
  | storing (summary : Account.AccountSummary) (started : Nat)
  | updating (summary : Account.AccountSummary) (started : Nat)
  | reading
  | done (selection : Selection)
  | failed

/-- The rows of the account and the request. -/
structure SelectWorld where
  account : Account
  phase : SelectPhase

/-- A step: another one of the directory, or the request's own. Whether the selector was recently
missing or the caller is throttled is chosen. -/
inductive SelectLabel where
  | directory (event : DirectoryEvent)
  | resolve (missing throttled : Bool) (now started : Nat)
  | answer (answer : Lookup) (now : Nat)
  | ensure (newKey : ActorId)
  | store (now : Nat)
  | read
  | fail

/-- What a step of the request does to the rows. -/
def SelectWorld.event (world : SelectWorld) : SelectLabel → Option DirectoryEvent
  | .directory event => some event
  | .answer .deleted now =>
      match world.phase with
      | .asking true _ => some (.deleted now)
      | _ => none
  | .ensure newKey =>
      match world.phase with
      | .storing summary started =>
          some (.ensure newKey summary.kind (nonEmpty summary.id) (some started))
      | _ => none
  | .store now =>
      match world.phase with
      | .updating summary started => some (.updateSummary summary started now)
      | _ => none
  | _ => none

/-- Where the request is after a step, when the step is one of its phase. -/
def SelectWorld.phaseAfter (carbon : AccountUuid) (selector : Selector) (confirm : Confirm)
    (world : SelectWorld) : SelectLabel → Option SelectPhase
  | .directory _ => some world.phase
  | .resolve missing throttled now started =>
      match world.phase with
      | .resolving =>
          match selector, world.account.load with
          | .uuid, some record =>
              match record.custody carbon confirm now with
              | some selection => some (.done selection)
              | none => some (.asking true started)
          -- A public id, or a uuid that is not cached: `select_by_lookup`.
          | _, _ =>
              if missing then some (.done .notFound)
              else if throttled then some (.done .throttled)
              else some (.asking false started)
      | _ => none
  | .answer answer _ =>
      match world.phase, answer with
      | .asking true started, .found summary => some (.storing summary started)
      | .asking true _, .deleted => some (.done .notFound)
      | .asking true _, .notFound => some (.done .notCustodian)
      | .asking false started, .found summary =>
          -- An account that the caller merely named is never cached.
          if !summary.namesCaller carbon && world.account.load.isNone then
            some (.done .notCustodian)
          else some (.storing summary started)
      | .asking false _, _ => some (.done .notFound)
      | _, _ => none
  | .ensure _ =>
      match world.phase with
      | .storing summary started => some (.updating summary started)
      | _ => none
  | .store now =>
      match world.phase with
      | .updating summary started =>
          if world.account.refusesSummary summary started now then some .failed else some .reading
      | _ => none
  | .read =>
      match world.phase with
      | .reading =>
          match world.account.load with
          | some record => some (.done (record.selection carbon))
          | none => some .failed
      | _ => none
  | .fail =>
      match world.phase with
      | .done _ => none
      | _ => some .failed

/-- The rows after a step. -/
def SelectWorld.accountAfter (world : SelectWorld) (label : SelectLabel) : Account :=
  match world.event label with
  | some event => world.account.next event
  | none => world.account

/-- A step of the directory while `carbon` selects the account. -/
inductive SelectStep (carbon : AccountUuid) (selector : Selector) (confirm : Confirm) :
    SelectWorld → SelectLabel → SelectWorld → Prop where
  | next {world : SelectWorld} {label : SelectLabel} {phase : SelectPhase}
      (h : world.phaseAfter carbon selector confirm label = some phase) :
      SelectStep carbon selector confirm world label ⟨world.accountAfter label, phase⟩

/-- The steps of the directory in a run. -/
def directoryRun (tr : List (Transition SelectWorld SelectLabel)) :
    List (Transition Account DirectoryEvent) :=
  tr.filterMap fun e => (e.pre.event e.label).map fun event =>
    ⟨e.pre.account, event, e.post.account⟩

section Request

variable {carbon : AccountUuid} {selector : Selector} {confirm : Confirm}

theorem SelectStep.inv {w w' : SelectWorld} {label : SelectLabel}
    (h : SelectStep carbon selector confirm w label w') :
    w.phaseAfter carbon selector confirm label = some w'.phase ∧
      w'.account = w.accountAfter label := by
  cases h with
  | next h => exact ⟨h, rfl⟩

/-- The rows go through the steps of the directory. -/
theorem run_directoryRun {w w' : SelectWorld} {tr : List (Transition SelectWorld SelectLabel)}
    (run : Run (SelectStep carbon selector confirm) w tr w') :
    Run DirectoryStep w.account (directoryRun tr) w'.account := by
  induction run with
  | nil w => exact .nil w.account
  | @cons w w' t label tr hstep rest ih =>
      cases hstep
      unfold directoryRun at ih ⊢
      cases hevent : w.event label with
      | none =>
          rw [List.filterMap_cons_none (by simp [hevent])]
          simpa [SelectWorld.accountAfter, hevent] using ih
      | some event =>
          rw [List.filterMap_cons_some (b := ⟨w.account, event, w.account.next event⟩)
            (by simp [hevent, SelectWorld.accountAfter])]
          refine .cons (.next w.account event) ?_
          simpa [SelectWorld.accountAfter, hevent] using ih

/-- The step stores what the request's own lookup answered. -/
def StoresOwn (e : Transition SelectWorld SelectLabel) : Prop :=
  ∃ now, e.label = .store now ∧ e.post.account.checkedAt = some now

/-- What holds of a request that has stored nothing for a live Silicon: between `ensure` and the
read there is a row, and what is read is not a live Silicon. -/
structure StoredNothing (w : SelectWorld) : Prop where
  wellFormed : WellFormed w.account
  updating : ∀ summary started, w.phase = .updating summary started → w.account.row.isSome = true
  reading : w.phase = .reading → w.account.row.isSome = true ∧ w.account.liveSilicon = false

/-- An account that has a row keeps one, and becomes no live Silicon. -/
theorem WellFormed.next_row {account : Account} (h : WellFormed account)
    (hrow : account.row.isSome = true) (event : DirectoryEvent) :
    (account.next event).row.isSome = true ∧
      (account.liveSilicon = false → (account.next event).liveSilicon = false) := by
  cases h with
  | unseen => cases hrow
  | @seen key row hrowFor =>
      obtain ⟨row', hnext, hkind, hcustody⟩ := next_seen hrowFor event
      rw [hnext]
      refine ⟨rfl, fun hdead => ?_⟩
      unfold Account.liveSilicon at hdead ⊢
      rw [Option.any_some, hkind]
      cases hlive : row'.deletedAt with
      | some deleted => rfl
      | none =>
          rw [Option.any_some, (hcustody hlive).1] at hdead
          exact hdead

/-- A first sighting makes the row. -/
theorem WellFormed.ensure_row {account : Account} (h : WellFormed account) (newKey : ActorId)
    (kind : ActorKind) (idHint : Option String) (asOf : Option Nat) :
    (account.next (.ensure newKey kind idHint asOf)).row.isSome = true := by
  cases h with
  | @unseen pending _ =>
      change (Account.ensure ⟨none, none, pending⟩ newKey kind idHint asOf).row.isSome = true
      rw [Account.ensure_unseen]
      rfl
  | seen hrow => exact ((WellFormed.seen hrow).next_row rfl _).1

/-- The UPDATE of a lookup that is not refused confirms the custodian of a live Silicon. -/
theorem checkedAt_updateSummary {account : Account} {summary : Account.AccountSummary}
    {started now : Nat} (hlive : account.liveSilicon = true)
    (hstored : account.refusesSummary summary started now = false) :
    (account.next (.updateSummary summary started now)).checkedAt = some now := by
  obtain ⟨key, row, pending⟩ := account
  cases row with
  | none => cases hlive
  | some row =>
      simp only [Account.liveSilicon, Option.any_some, Bool.and_eq_true, decide_eq_true_eq] at hlive
      simp only [Account.refusesSummary, Option.any_some, hlive.1, Bool.true_and,
        Bool.not_eq_false'] at hstored
      have hupdated : (if row.deletedAt.isNone && true &&
          (Account.summarized summary started now row).storable then
            Account.summarized summary started now row else row).custodianCheckedAt = some now := by
        rw [hlive.1, hstored, Bool.and_true, Bool.and_true, if_pos rfl]
        exact if_pos hlive.2
      exact hupdated

/-- The rows stay well formed through the steps of a request. -/
theorem WellFormed.accountAfter {w : SelectWorld} (h : WellFormed w.account) (label : SelectLabel) :
    WellFormed (w.accountAfter label) := by
  unfold SelectWorld.accountAfter
  split
  · exact h.next _
  · exact h

namespace StoredNothing

variable {w w' : SelectWorld}

/-- Before and after the phases it speaks of, it says nothing more. -/
theorem elsewhere (hwf : WellFormed w.account)
    (hupdating : ∀ summary started, w.phase ≠ .updating summary started)
    (hreading : w.phase ≠ .reading) : StoredNothing w where
  wellFormed := hwf
  updating summary started hphase := absurd hphase (hupdating summary started)
  reading hphase := absurd hphase hreading

theorem directory {event : DirectoryEvent} (h : StoredNothing w) (hphase : w.phase = w'.phase)
    (hnext : w'.account = w.account.next event) : StoredNothing w' where
  wellFormed := by
    rw [hnext]
    exact h.wellFormed.next event
  updating summary started hupdating := by
    rw [hnext]
    exact (h.wellFormed.next_row (h.updating summary started (hphase.trans hupdating)) event).1
  reading hreading := by
    rw [hnext]
    obtain ⟨hrow, hdead⟩ := h.reading (hphase.trans hreading)
    have hkept := h.wellFormed.next_row hrow event
    exact ⟨hkept.1, hkept.2 hdead⟩

/-- `ensure` leaves a row. -/
theorem ensured {newKey : ActorId} {kind : ActorKind} {idHint : Option String}
    {summary : Account.AccountSummary} {asOf : Option Nat} {started : Nat} (h : StoredNothing w)
    (hphase : w'.phase = .updating summary started)
    (hnext : w'.account = w.account.next (.ensure newKey kind idHint asOf)) : StoredNothing w' where
  wellFormed := by
    rw [hnext]
    exact h.wellFormed.next _
  updating _ _ _ := by
    rw [hnext]
    exact h.wellFormed.ensure_row _ _ _ _
  reading hreading := by cases hphase.symm.trans hreading

/-- An UPDATE that goes through stores the answer for a live Silicon; another account stays what it
is. -/
theorem stored {summary : Account.AccountSummary} {started now : Nat} (h : StoredNothing w)
    (hupdating : w.phase = .updating summary started) (hphase : w'.phase = .reading)
    (hnext : w'.account = w.account.next (.updateSummary summary started now))
    (hstored : w.account.refusesSummary summary started now = false) :
    StoredNothing w' ∨ w'.account.checkedAt = some now := by
  cases hlive : w.account.liveSilicon with
  | true =>
      right
      rw [hnext]
      exact checkedAt_updateSummary hlive hstored
  | false =>
      have hkept := h.wellFormed.next_row (h.updating summary started hupdating)
        (.updateSummary summary started now)
      refine .inl ⟨?_, fun _ _ hcontra => ?_, fun _ => ?_⟩
      · rw [hnext]
        exact h.wellFormed.next _
      · cases hphase.symm.trans hcontra
      · rw [hnext]
        exact ⟨hkept.1, hkept.2 hlive⟩

/-- **Each step keeps it, or stores what the request's own lookup answered.** -/
theorem step {label : SelectLabel} (h : StoredNothing w)
    (hstep : SelectStep carbon selector confirm w label w') :
    StoredNothing w' ∨ StoresOwn ⟨w, label, w'⟩ := by
  obtain ⟨hphase, haccount⟩ := hstep.inv
  have hwf : WellFormed w'.account := haccount ▸ h.wellFormed.accountAfter label
  cases label with
  | directory event => exact .inl (h.directory (Option.some.inj hphase) haccount)
  | ensure newKey =>
      simp only [SelectWorld.phaseAfter] at hphase
      split at hphase
      · next summary started hstoring =>
          have hnext : w'.account = w.account.next
              (.ensure newKey summary.kind (nonEmpty summary.id) (some started)) := by
            rw [haccount]
            unfold SelectWorld.accountAfter SelectWorld.event
            dsimp only
            rw [hstoring]
          exact .inl (h.ensured (Option.some.inj hphase).symm hnext)
      · cases hphase
  | store now =>
      simp only [SelectWorld.phaseAfter] at hphase
      split at hphase
      · next summary started hupdating =>
          have hnext : w'.account = w.account.next (.updateSummary summary started now) := by
            rw [haccount]
            unfold SelectWorld.accountAfter SelectWorld.event
            dsimp only
            rw [hupdating]
          split at hphase
          · have hfailed := Option.some.inj hphase
            refine .inl (elsewhere hwf (fun _ _ hcontra => ?_) fun hcontra => ?_)
            · cases hfailed.trans hcontra
            · cases hfailed.trans hcontra
          · next hstored =>
              refine (h.stored hupdating (Option.some.inj hphase).symm hnext
                (Bool.not_eq_true _ ▸ hstored)).imp_right fun hchecked => ⟨now, rfl, hchecked⟩
      · cases hphase
  | _ =>
      -- No other step leads to these phases.
      refine .inl (elsewhere hwf (fun _ _ hcontra => ?_) fun hcontra => ?_)
      all_goals
        rw [hcontra] at hphase
        simp only [SelectWorld.phaseAfter] at hphase
        repeat' split at hphase
        all_goals simp at hphase

end StoredNothing

/-- A request that reads a live Silicon after its own lookup has stored the answer. -/
theorem stored_of_reading {w w' : SelectWorld} {tr : List (Transition SelectWorld SelectLabel)}
    (run : Run (SelectStep carbon selector confirm) w tr w') (hw : StoredNothing w)
    (hw' : w'.phase = .reading) (hlive : w'.account.liveSilicon = true) :
    ∃ e ∈ tr, StoresOwn e := by
  rcases run.stable_unless StoredNothing StoresOwn (fun _ _ _ => StoredNothing.step) hw with
    hnothing | hstored
  · cases (hnothing.reading hw').2.symm.trans hlive
  · exact hstored

/-- An access that a step grants was read of the account before it: from a cache that stands for
reads, or after a lookup of the request's own. -/
theorem grant_cases {w : SelectWorld} {label : SelectLabel} {record : AccountRecord}
    (h : w.phaseAfter carbon selector confirm label = some (.done (.custodian record)))
    (hopen : ∀ selection, w.phase ≠ .done selection) :
    w.account.load = some record ∧ record.custodianIs carbon = true ∧
      ((confirm = .recent ∧ ∃ missing throttled now started,
          label = .resolve missing throttled now started ∧
          record.custodianCheckedWithin custodianRecheck now = true) ∨
        (label = .read ∧ w.phase = .reading)) := by
  cases label with
  | directory event => exact absurd (Option.some.inj h) (hopen _)
  | resolve missing throttled now started =>
      simp only [SelectWorld.phaseAfter] at h
      split at h
      · split at h
        · rename_i loaded _ hload
          split at h
          · rename_i selection hcustody
            obtain rfl := SelectPhase.done.inj (Option.some.inj h)
            -- Of what the record may decide, only a recent check of the custodian grants.
            unfold AccountRecord.custody at hcustody
            split at hcustody
            · cases hcustody
            split at hcustody
            · cases hcustody
            split at hcustody
            · rename_i his
              split at hcustody
              · rename_i hrecent
                obtain rfl := Selection.custodian.inj (Option.some.inj hcustody)
                exact ⟨hload, his, .inl ⟨hrecent.1, missing, throttled, now, started, rfl,
                  hrecent.2⟩⟩
              · cases hcustody
            split at hcustody
            · cases hcustody
            · cases hcustody
          · cases h
        · split at h
          · cases h
          split at h
          · cases h
          · cases h
      · cases h
  | read =>
      simp only [SelectWorld.phaseAfter] at h
      split at h
      · rename_i hreading
        split at h
        · rename_i loaded hload
          have hselection := SelectPhase.done.inj (Option.some.inj h)
          unfold AccountRecord.selection at hselection
          split at hselection
          · rename_i his
            obtain rfl := Selection.custodian.inj hselection
            exact ⟨hload, his, .inr ⟨rfl, hreading⟩⟩
          · cases hselection
        · cases h
      · cases h
  | _ =>
      simp only [SelectWorld.phaseAfter] at h
      repeat' split at h
      all_goals simp at h

/-- The custodian that a record names is that of a live Silicon. -/
theorem live_of_custodianIs {account : Account} (h : WellFormed account) {record : AccountRecord}
    (hload : account.load = some record) (his : record.custodianIs carbon = true) :
    ∃ row, account.row = some row ∧ row.deletedAt = none ∧ row.kind = .silicon ∧
      row.custodianUuid = some carbon ∧ row.custodianCheckedAt = record.custodianCheckedAt := by
  cases h with
  | unseen h => cases hload
  | @seen key row hrow =>
      obtain rfl := Option.some.inj hload
      simp only [AccountRecord.custodianIs, Account.deletedAt, Option.bind_some, Option.bind_none,
        Option.or_none, Bool.and_eq_true, decide_eq_true_eq, Option.isNone_iff_eq_none] at his
      obtain ⟨⟨hkind, hlive⟩, hcustodian⟩ := his
      exact ⟨row, rfl, hlive, hrow.kind.trans hkind, hcustodian, rfl⟩

/-- Among the facts, the newest that name a custodian name the Carbon, and there are some. -/
structure NewestNames (carbon : AccountUuid) (facts : List CustodyFact) : Prop where
  some : ∃ f ∈ facts, f.names = carbon
  newest : ∀ f ∈ facts, (∀ g ∈ facts, g.time ≤ f.time) → f.names = carbon

/-- How the granted access was confirmed: for reads by a webhook or a lookup stored less than
`CUSTODIAN_RECHECK` before, otherwise by a lookup that this request asked for and stored. -/
def Confirmed (confirm : Confirm) (tr : List (Transition SelectWorld SelectLabel))
    (label : SelectLabel) : Prop :=
  (confirm = .recent ∧ ∃ missing throttled now started,
      label = .resolve missing throttled now started ∧
      ∃ checked, now < checked + custodianRecheck ∧
        ∃ e ∈ directoryRun tr, StoredAt checked e) ∨
    ∃ e ∈ tr, StoresOwn e

/-- Where the facts about the custodian were applied in turn, access is granted only to the Carbon
that the newest of them names, confirmed as the request asks. -/
theorem granted_newest {tr : List (Transition SelectWorld SelectLabel)} {w w' : SelectWorld}
    {label : SelectLabel} {record : AccountRecord}
    (run : Run (SelectStep carbon selector confirm) ⟨.unknown, .resolving⟩ tr w)
    (hturn : (custodyFacts (directoryRun tr)).Pairwise InTurn)
    (hopen : ∀ selection, w.phase ≠ .done selection)
    (hstep : SelectStep carbon selector confirm w label w')
    (hgrant : w'.phase = .done (.custodian record)) :
    NewestNames carbon (custodyFacts (directoryRun tr)) ∧ Confirmed confirm tr label := by
  have hphase := hstep.inv.1
  rw [hgrant] at hphase
  obtain ⟨hload, his, hconfirmed⟩ := grant_cases hphase hopen
  have hdirectory := run_directoryRun run
  have htracks : Tracks (custodyFacts (directoryRun tr)) w.account := by
    have hinitial : Tracks [] .unknown := ⟨.unknown, fun _ => rfl, by rintro row ⟨⟩⟩
    exact hinitial.run hdirectory hturn
  obtain ⟨row, hrow, hlive, hsilicon, hcustodian, hchecked⟩ :=
    live_of_custodianIs htracks.wellFormed hload his
  have hcustody := htracks.live row hrow hlive hsilicon
  refine ⟨⟨hcustody.named carbon hcustodian, ?_⟩, ?_⟩
  · intro f hf hnewest
    have hnames : row.custodianUuid = some f.names := hcustody.names_of_newest hf hnewest
    exact Option.some.inj (hnames.symm.trans hcustodian)
  · rcases hconfirmed with ⟨hrecent, missing, throttled, now, started, hlabel, hwithin⟩ |
      ⟨_, hreading⟩
    · obtain ⟨checked, hcheckedAt, hlimit⟩ := (Option.any_eq_true _ _).mp hwithin
      refine .inl ⟨hrecent, missing, throttled, now, started, hlabel, checked,
        of_decide_eq_true hlimit, stored_of_checkedAt hdirectory ?_⟩
      unfold Account.checkedAt
      rw [hrow]
      exact hchecked.trans hcheckedAt
    · refine .inr (stored_of_reading run ⟨.unknown, by simp, by simp⟩ hreading ?_)
      unfold Account.liveSilicon
      rw [hrow]
      simp [hlive, hsilicon]

/-- A cached custodian that was confirmed recently stands for reads. -/
theorem phaseAfter_recent {w : SelectWorld} (hphase : w.phase = .resolving)
    {record : AccountRecord} (hload : w.account.load = some record)
    (his : record.custodianIs carbon = true) {now : Nat}
    (hwithin : record.custodianCheckedWithin custodianRecheck now = true)
    (missing throttled : Bool) (started : Nat) :
    w.phaseAfter carbon .uuid .recent (.resolve missing throttled now started) =
      some (.done (.custodian record)) := by
  have hsilicon : record.kind = .silicon ∧ record.deletedAt = none := by
    simp only [AccountRecord.custodianIs, Bool.and_eq_true, decide_eq_true_eq,
      Option.isNone_iff_eq_none] at his
    exact his.1
  have hcustody : record.custody carbon .recent now = some (.custodian record) := by
    simp [AccountRecord.custody, hsilicon, his, hwithin]
  simp [SelectWorld.phaseAfter, hphase, hload, hcustody]

/-- The world after a step, when it is one of the phase. -/
def SelectWorld.next (carbon : AccountUuid) (selector : Selector) (confirm : Confirm)
    (world : SelectWorld) (label : SelectLabel) : SelectWorld :=
  ⟨world.accountAfter label, (world.phaseAfter carbon selector confirm label).getD world.phase⟩

/-- A list of steps, each one of the phase it is taken in, plays a run. -/
theorem run_select {w : SelectWorld} {labels : List SelectLabel}
    (h : EnabledAlong (SelectWorld.next carbon selector confirm)
      (fun w label => (w.phaseAfter carbon selector confirm label).isSome) w labels) :
    Run (SelectStep carbon selector confirm) w
      (play (SelectWorld.next carbon selector confirm) w labels)
      (playEnd (SelectWorld.next carbon selector confirm) w labels) := by
  apply run_play _ _ _ h
  intro w label hsome
  obtain ⟨phase, hphase⟩ := Option.isSome_iff_exists.mp hsome
  have hnext : SelectWorld.next carbon selector confirm w label =
      ⟨w.accountAfter label, phase⟩ := by
    simp [SelectWorld.next, hphase]
  rw [hnext]
  exact .next hphase

end Request

/-! Two Carbons and a Silicon. -/

def carbonAda : AccountUuid := ⟨"zQa", by decide +kernel⟩

def carbonBea : AccountUuid := ⟨"zQb", by decide +kernel⟩

/-- The answer of a lookup of the Silicon that names a custodian. -/
def siliconOf (custodian : AccountUuid) : Account.AccountSummary :=
  ⟨.silicon, "si:rho", "", "", some ⟨custodian.asStr, ""⟩⟩

/-- The Silicon is seen, and a webhook names its custodian at 100 seconds. -/
def seenWithAda : List SelectLabel :=
  [.directory (.ensure ⟨1, Uuid.one_ne_nil⟩ .silicon none none),
    .directory (.custodianChanged (some ⟨"zQa", "c:ada"⟩) (100 * microsPerSecond)
      (100 * microsPerSecond))]

/-- A write: the request asks Silicon Accounts, which names the caller. -/
def alwaysGranted : List SelectLabel :=
  seenWithAda ++ [.resolve false false (200 * microsPerSecond) (200 * microsPerSecond),
    .answer (.found (siliconOf carbonAda)) (201 * microsPerSecond), .ensure ⟨2, Uuid.two_ne_nil⟩,
    .store (201 * microsPerSecond)]

/-- The custodian acts on the Silicon. -/
theorem granted_alwaysGranted :
    NewestNames carbonAda (custodyFacts (directoryRun (play
      (SelectWorld.next carbonAda .uuid .always) ⟨.unknown, .resolving⟩ alwaysGranted))) ∧
    Confirmed .always (play (SelectWorld.next carbonAda .uuid .always) ⟨.unknown, .resolving⟩
      alwaysGranted) .read := by
  have hopen : ∀ selection, (playEnd (SelectWorld.next carbonAda .uuid .always)
      ⟨.unknown, .resolving⟩ alwaysGranted).phase ≠ .done selection := by
    rintro selection ⟨⟩
  refine granted_newest (run_select ?_) ?_ hopen (.next rfl) rfl
  · decide +kernel
  · decide +kernel

/-- A lookup that starts three seconds after a webhook is not believed, since it may have been read
before the change: the Carbon that the webhook named keeps its access. -/
theorem not_forall_granted_newest :
    ¬ ∀ carbon selector confirm tr w label w' record,
      Run (SelectStep carbon selector confirm) ⟨.unknown, .resolving⟩ tr w →
      (∀ selection, w.phase ≠ .done selection) → SelectStep carbon selector confirm w label w' →
      w'.phase = .done (.custodian record) →
      NewestNames carbon (custodyFacts (directoryRun tr)) ∧ Confirmed confirm tr label := by
  intro h
  have run := @run_select carbonAda .uuid .recent ⟨.unknown, .resolving⟩ (seenWithAda ++
    [.directory (.updateSummary (siliconOf carbonBea) (103 * microsPerSecond)
      (103 * microsPerSecond))]) (by decide +kernel)
  have hcached : (playEnd (SelectWorld.next carbonAda .uuid .recent) ⟨.unknown, .resolving⟩
      (seenWithAda ++ [.directory (.updateSummary (siliconOf carbonBea) (103 * microsPerSecond)
        (103 * microsPerSecond))])).account.load.any (fun record =>
      record.custodianIs carbonAda &&
        record.custodianCheckedWithin custodianRecheck (104 * microsPerSecond)) = true := by
    decide +kernel
  obtain ⟨record, hrecord, hstands⟩ := (Option.any_eq_true _ _).mp hcached
  obtain ⟨his, hwithin⟩ := Bool.and_eq_true_iff.mp hstands
  have hphase := @phaseAfter_recent carbonAda _ rfl record hrecord his _ hwithin false false 0
  have hgranted := (h carbonAda .uuid .recent _ _ _ _ record run (by rintro selection ⟨⟩)
    (.next hphase) rfl).1
  have hnames := hgranted.newest ⟨.lookup, 103 * microsPerSecond, carbonBea⟩ (by decide +kernel)
    (by decide +kernel)
  exact absurd hnames (by decide +kernel)

end Waveform.Directory
