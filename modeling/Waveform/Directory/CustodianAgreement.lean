import Waveform.Directory.CustodianId

/-!
# The copies of the custodian's id agree

A copy of a known id stays one of a known id until the account is deleted; so a step breaks the
agreement only where it changes an id, or writes a copy, and the two then differ. `adopt_id` and a
newer `account.id_changed` write both. `account.updated` and a lookup write the id alone; a stale
`account.id_changed`, a lookup of a Silicon and `silicon.custodian_changed` write the copy alone.

- `agrees_next_iff`: a step keeps the agreement exactly when it meets the condition.
- `custodianIds_agree_iff`: so does a run, from an empty directory.
- `not_forall_agrees`: some run does not.
-/

set_option autoImplicit false

namespace Waveform.Directory

open Waveform.Domain LabelledRun

/-! ## One step -/

namespace CachedIds

variable {st : CachedIds} {uuid silicon : AccountUuid} {event : DirectoryEvent}

/-- The rows are well formed, and what was copied was the id of an account that stays known until it
is deleted. -/
structure Kept (st : CachedIds) : Prop where
  wellFormed : ∀ uuid, WellFormed (st.account uuid)
  known : ∀ silicon custodian, (st.account silicon).custodianOf = some custodian →
    st.copied silicon = true → (st.account custodian).settled

theorem Kept.empty : Kept empty where
  wellFormed _ := .unknown
  known _ _ h _ := nomatch h

theorem next_account_self (st : CachedIds) (uuid : AccountUuid) (event : DirectoryEvent) :
    (st.next uuid event).account uuid = (st.account uuid).next event :=
  Function.update_self uuid _ _

theorem next_account_of_ne {other : AccountUuid} (h : other ≠ uuid) :
    (st.next uuid event).account other = st.account other :=
  Function.update_of_ne h _ _

theorem next_custodianId (st : CachedIds) (uuid : AccountUuid) (event : DirectoryEvent)
    (silicon : AccountUuid) : (st.next uuid event).custodianId silicon =
      (st.write uuid event silicon).getD (st.custodianId silicon) :=
  rfl

theorem next_copied (st : CachedIds) (uuid : AccountUuid) (event : DirectoryEvent)
    (silicon : AccountUuid) : (st.next uuid event).copied silicon =
      match st.write uuid event silicon with
      | none => st.copied silicon
      | some _ => ((st.next uuid event).account silicon).custodianOf.any fun custodian =>
          ((st.next uuid event).account custodian).heldId.isSome :=
  rfl

theorem settled_next {other : AccountUuid} (h : st.Kept) (hsettled : (st.account other).settled) :
    ((st.next uuid event).account other).settled := by
  by_cases hself : other = uuid
  · subst hself
    rw [next_account_self]
    exact Account.settled_next (h.wellFormed other) hsettled event
  · rw [next_account_of_ne hself]
    exact hsettled

/-- A copy that was not written agrees when it agrees as it is. -/
theorem agreesAt_next_of_unwritten (h : st.write uuid event silicon = none) :
    (st.next uuid event).AgreesAt silicon ↔
      ∀ custodian id, ((st.next uuid event).account silicon).custodianOf = some custodian →
        ((st.next uuid event).account custodian).heldId = some id → st.copied silicon = true →
          st.custodianId silicon = some id := by
  unfold AgreesAt
  rw [next_copied, next_custodianId, h]
  rfl

/-- A copy that is written agrees when it is the id that the custodian is held with. -/
theorem agreesAt_next_of_written {value : Option String}
    (h : st.write uuid event silicon = some value) :
    (st.next uuid event).AgreesAt silicon ↔
      ∀ custodian id, ((st.next uuid event).account silicon).custodianOf = some custodian →
        ((st.next uuid event).account custodian).heldId = some id → value = some id := by
  unfold AgreesAt
  rw [next_copied, next_custodianId, h]
  constructor
  · intro hagrees custodian id hcustodian hheld
    refine hagrees custodian id hcustodian hheld ?_
    rw [hcustodian, Option.any_some, hheld]
    rfl
  · intro hvalue custodian id hcustodian hheld _
    exact hvalue custodian id hcustodian hheld

/-- Both halves of the custodian come from one lookup. -/
theorem namedId_isSome {summary : Account.AccountSummary} :
    (namedId summary).isSome = summary.custodianUuid.isSome := by
  unfold namedId Account.AccountSummary.custodianUuid
  cases summary.custodian with
  | none => rfl
  | some custodian =>
      cases decide (summary.kind = .silicon) with
      | false => simp [Option.filter]
      | true =>
          cases huuid : AccountUuid.fromStr? custodian.uuid with
          | none => simp [Option.filter, huuid]
          | some uuid => simp [Option.filter, huuid]

/-- The rows of the custodian stay where the copy is not written. -/
theorem custodianOf_of_unwritten (hkept : st.Kept) (h : st.write uuid event silicon = none)
    {custodian : AccountUuid}
    (hcustodian : ((st.next uuid event).account silicon).custodianOf = some custodian) :
    (st.account silicon).custodianOf = some custodian := by
  by_cases hself : silicon = uuid
  · subst hself
    rw [next_account_self, Account.custodianOf_next (hkept.wellFormed silicon)] at hcustodian
    cases event with
    | ensure newKey kind idHint asOf => exact hcustodian
    | adoptId id asOf => exact hcustodian
    | completeProfile info => exact hcustodian
    | idChanged newId occurred => exact hcustodian
    | updated profile => exact hcustodian
    | signedOut reason occurred => exact hcustodian
    | accessRemoved occurred => exact hcustodian
    | deleted occurred => cases hcustodian
    | custodianChanged named occurred now =>
        cases named with
        | none => exact hcustodian
        | some custodian =>
            dsimp only [write, Option.bind_some] at h hcustodian
            cases htoUuid : AccountUuid.fromStr? custodian.uuid with
            | none =>
                rw [htoUuid] at hcustodian
                exact hcustodian
            | some toUuid =>
                rw [htoUuid] at h hcustodian
                dsimp only [Option.bind_some] at h hcustodian
                split at hcustodian
                · rename_i hchanges
                  rw [if_pos ⟨rfl, hchanges⟩] at h
                  cases h
                · exact hcustodian
    | updateSummary summary started now =>
        dsimp only [write] at h hcustodian
        split at hcustodian
        · rename_i hchanges
          rw [if_pos ⟨rfl, hchanges⟩] at h
          obtain ⟨row, hrow, _⟩ := Account.exists_row_of_changes hchanges
          rw [Account.custodianOf, hrow]
          rw [hrow] at h hcustodian
          simp only [Option.bind_some, summaryWrite, Account.summarized] at h hcustodian ⊢
          split at hcustodian
          · cases hcustodian
          · rename_i hsilicon
            rw [if_neg hsilicon] at h
            split at hcustodian
            · exact hcustodian
            · rename_i hskew
              rw [if_neg hskew, Option.map_eq_none_iff, Option.or_eq_none_iff] at h
              have hnone : summary.custodianUuid = none := by
                rw [← Option.isNone_iff_eq_none, ← Option.not_isSome, ← namedId_isSome, h.2]
                rfl
              rw [hnone, Option.none_or] at hcustodian
              exact hcustodian
        · exact hcustodian
  · rw [next_account_of_ne hself] at hcustodian
    exact hcustodian

theorem Kept.next (h : st.Kept) (uuid : AccountUuid) (event : DirectoryEvent) :
    (st.next uuid event).Kept where
  wellFormed other := by
    by_cases hself : other = uuid
    · subst hself
      rw [next_account_self]
      exact (h.wellFormed other).next event
    · rw [next_account_of_ne hself]
      exact h.wellFormed other
  known silicon custodian hcustodian hcopied := by
    rw [next_copied] at hcopied
    cases hwrite : st.write uuid event silicon with
    | none =>
        rw [hwrite] at hcopied
        exact settled_next h
          (h.known silicon custodian (custodianOf_of_unwritten h hwrite hcustodian) hcopied)
    | some value =>
        rw [hwrite, hcustodian] at hcopied
        exact .inl hcopied

/-- A copy that is not written stays right unless the id of its custodian changes. -/
theorem agreesAt_of_unwritten (hkept : st.Kept) (hagrees : st.AgreesAt silicon)
    (h : st.write uuid event silicon = none)
    (hid : ∀ id, (st.account silicon).custodianOf = some uuid →
      ((st.account uuid).next event).heldId = some id → st.copied silicon = true →
      (st.account uuid).heldId = some id ∨ st.custodianId silicon = some id) :
    (st.next uuid event).AgreesAt silicon := by
  rw [agreesAt_next_of_unwritten h]
  intro custodian id hcustodian hheld hcopied
  have hcustodian' := custodianOf_of_unwritten hkept h hcustodian
  by_cases hself : custodian = uuid
  · subst hself
    rw [next_account_self] at hheld
    rcases hid id hcustodian' hheld hcopied with hsame | hshown
    · exact hagrees custodian id hcustodian' hsame hcopied
    · exact hshown
  · rw [next_account_of_ne hself] at hheld
    exact hagrees custodian id hcustodian' hheld hcopied

/-- A webhook, or another statement, that leaves the ids and copies. -/
theorem agrees_of_leaves (hkept : st.Kept) (hagrees : st.Agrees)
    (hwrite : ∀ silicon, st.write uuid event silicon = none)
    (hheld : ((st.account uuid).next event).heldId = (st.account uuid).heldId) :
    (st.next uuid event).Agrees := by
  intro silicon
  refine agreesAt_of_unwritten hkept (hagrees silicon) (hwrite silicon) ?_
  intro id _ hid _
  rw [hheld] at hid
  exact .inl hid

/-- The rows that the cascade of an id finds name the account also after the step. -/
theorem names_of_cascade
    (hcustodian : ((st.account uuid).next event).custodianOf = (st.account uuid).custodianOf)
    (hnames : (st.account silicon).custodianOf = some uuid) :
    ((st.next uuid event).account silicon).custodianOf = some uuid := by
  by_cases hself : silicon = uuid
  · subst hself
    rw [next_account_self, hcustodian, hnames]
  · rw [next_account_of_ne hself, hnames]

/-- `adopt_id` brings every copy up to date. -/
theorem agrees_adoptId (hkept : st.Kept) (hagrees : st.Agrees) (id : String) (asOf : Nat) :
    (st.next uuid (.adoptId id asOf)).Agrees := by
  intro silicon
  have hheld := Account.heldId_next (hkept.wellFormed uuid) (.adoptId id asOf)
  have hcustodian := Account.custodianOf_next (hkept.wellFormed uuid) (.adoptId id asOf)
  dsimp only at hheld hcustodian
  by_cases hwritten : (st.account uuid).changes (adopts id asOf) (withId id asOf) = true ∧
      (st.account silicon).custodianOf = some uuid ∧ st.custodianId silicon ≠ some id
  · have hwrite : st.write uuid (.adoptId id asOf) silicon = some (some id) := if_pos hwritten
    rw [agreesAt_next_of_written hwrite]
    intro custodian held hnames hcurrent
    rw [names_of_cascade hcustodian hwritten.2.1] at hnames
    obtain rfl := Option.some.inj hnames
    rw [next_account_self, hheld, if_pos hwritten.1] at hcurrent
    exact hcurrent
  · refine agreesAt_of_unwritten hkept (hagrees silicon) (if_neg hwritten) ?_
    intro current hnames hcurrent _
    rw [hheld] at hcurrent
    split at hcurrent
    · rename_i hchanges
      obtain rfl := Option.some.inj hcurrent
      right
      by_contra hdiffers
      exact hwritten ⟨hchanges, hnames, hdiffers⟩
    · exact .inl hcurrent

/-- A row that the UPDATE selects and does not change is one that a CHECK refuses. -/
theorem changes_imp_selects {applies : AccountRow → Bool} {change : AccountRow → AccountRow}
    {account : Account} (h : account.changes applies change = true) :
    account.selects applies = true := by
  obtain ⟨row, hrow, hlive, happlies, _⟩ := Account.exists_row_of_changes h
  simp [Account.selects, hrow, hlive, happlies]

/-- `account.id_changed` writes its id in every copy, whether or not the account takes it. -/
theorem agrees_idChanged_iff (hkept : st.Kept) (hagrees : st.Agrees) (newId : String)
    (occurred : Nat) :
    (st.next uuid (.idChanged newId occurred)).Agrees ↔
    st.Fits uuid (.idChanged newId occurred) := by
  have hheld := Account.heldId_next (hkept.wellFormed uuid) (.idChanged newId occurred)
  have hcustodian := Account.custodianOf_next (hkept.wellFormed uuid) (.idChanged newId occurred)
  dsimp only at hheld hcustodian
  constructor
  · intro hnext hstale held hknown silicon hnames
    have hwrite : st.write uuid (.idChanged newId occurred) silicon = some (some newId) :=
      if_pos ⟨.inr hstale, hnames⟩
    have hkeeps : ¬ (st.account uuid).changes (notNewer occurred)
        (withId newId occurred) = true := by
      intro hchanges
      rw [changes_imp_selects hchanges] at hstale
      cases hstale
    rw [if_neg hkeeps] at hheld
    have hshown := (agreesAt_next_of_written hwrite).mp (hnext silicon) uuid held
      (names_of_cascade hcustodian hnames) (by rw [next_account_self, hheld, hknown])
    exact Option.some.inj hshown
  · intro hfits silicon
    by_cases hwritten : ((st.account uuid).changes (notNewer occurred)
      (withId newId occurred) = true ∨
        (st.account uuid).selects (notNewer occurred) = false) ∧
          (st.account silicon).custodianOf = some uuid
    · have hwrite : st.write uuid (.idChanged newId occurred) silicon = some (some newId) :=
        if_pos hwritten
      rw [agreesAt_next_of_written hwrite]
      intro custodian held hnames hcurrent
      rw [names_of_cascade hcustodian hwritten.2] at hnames
      obtain rfl := Option.some.inj hnames
      rw [next_account_self, hheld] at hcurrent
      rcases hwritten.1 with hchanges | hstale
      · rw [if_pos hchanges] at hcurrent
        exact hcurrent
      · have hkeeps : ¬ (st.account uuid).changes (notNewer occurred)
            (withId newId occurred) = true := by
          intro hchanges
          rw [changes_imp_selects hchanges] at hstale
          cases hstale
        rw [if_neg hkeeps] at hcurrent
        exact congrArg some (hfits hstale held hcurrent silicon hwritten.2)
    · refine agreesAt_of_unwritten hkept (hagrees silicon) (if_neg hwritten) ?_
      intro id hnames hcurrent _
      rw [hheld] at hcurrent
      split at hcurrent
      · rename_i hchanges
        exact absurd ⟨.inl hchanges, hnames⟩ hwritten
      · exact .inl hcurrent

/-- `account.updated` leaves the copies. -/
theorem agrees_updated_iff (hkept : st.Kept) (hagrees : st.Agrees) (profile : Account.Profile) :
    (st.next uuid (.updated profile)).Agrees ↔ st.Fits uuid (.updated profile) := by
  have hheld := Account.heldId_next (hkept.wellFormed uuid) (.updated profile)
  have hcustodian := Account.custodianOf_next (hkept.wellFormed uuid) (.updated profile)
  dsimp only at hheld hcustodian
  constructor
  · intro hnext hchanges id hid silicon hnames hcopied
    have hshown := (agreesAt_next_of_unwritten rfl).mp (hnext silicon) uuid id
      (names_of_cascade hcustodian hnames)
    apply hshown
    · rw [next_account_self, hheld, if_pos hchanges, hid]
      rfl
    · exact hcopied
  · intro hfits silicon
    refine agreesAt_of_unwritten hkept (hagrees silicon) rfl ?_
    intro id hnames hcurrent hcopied
    rw [hheld] at hcurrent
    split at hcurrent
    · rename_i hchanges
      cases hid : nonEmpty profile.id with
      | none =>
          rw [hid, Option.none_or] at hcurrent
          exact .inl hcurrent
      | some new =>
          rw [hid, Option.some_or] at hcurrent
          obtain rfl := Option.some.inj hcurrent
          exact .inr (hfits hchanges new hid silicon hnames hcopied)
    · exact .inl hcurrent

/-- `silicon.custodian_changed` writes the id that the event names. -/
theorem agrees_custodianChanged_iff (hkept : st.Kept) (hagrees : st.Agrees)
    (named : Option Account.NamedAccount) (occurred now : Nat) :
    (st.next uuid (.custodianChanged named occurred now)).Agrees ↔
      st.Fits uuid (.custodianChanged named occurred now) := by
  have hheld := Account.heldId_next (hkept.wellFormed uuid) (.custodianChanged named occurred now)
  have hheldNext : ∀ other, ((st.next uuid (.custodianChanged named occurred now)).account
      other).heldId = (st.account other).heldId := by
    intro other
    by_cases hself : other = uuid
    · subst hself
      rw [next_account_self, hheld]
    · rw [next_account_of_ne hself]
  have hcustodian := Account.custodianOf_next (hkept.wellFormed uuid)
    (.custodianChanged named occurred now)
  dsimp only at hcustodian
  have hwritten : ∀ custodian toUuid, named = some custodian →
      AccountUuid.fromStr? custodian.uuid = some toUuid →
      (st.account uuid).changes (takesCustodian occurred)
      (withCustodian toUuid occurred now) = true →
      st.write uuid (.custodianChanged named occurred now) uuid = some (nonEmpty custodian.id) ∧
        ((st.next uuid (.custodianChanged named occurred now)).account uuid).custodianOf =
          some toUuid := by
    intro custodian toUuid hnamed htoUuid hchanges
    subst hnamed
    constructor
    · simp [write, htoUuid, hchanges]
    · rw [next_account_self, hcustodian]
      simp [htoUuid, hchanges]
  constructor
  · intro hnext custodian toUuid hnamed htoUuid hchanges held hknown
    obtain ⟨hwrite, hnames⟩ := hwritten custodian toUuid hnamed htoUuid hchanges
    exact (agreesAt_next_of_written hwrite).mp (hnext uuid) toUuid held hnames
      ((hheldNext toUuid).trans hknown)
  · intro hfits silicon
    by_cases happlied : silicon = uuid ∧ ∃ custodian toUuid, named = some custodian ∧
        AccountUuid.fromStr? custodian.uuid = some toUuid ∧
        (st.account uuid).changes (takesCustodian occurred)
        (withCustodian toUuid occurred now) = true
    · obtain ⟨rfl, custodian, toUuid, hnamed, htoUuid, hchanges⟩ := happlied
      obtain ⟨hwrite, hnames⟩ := hwritten custodian toUuid hnamed htoUuid hchanges
      rw [agreesAt_next_of_written hwrite]
      intro other id hother hid
      obtain rfl := Option.some.inj (hnames.symm.trans hother)
      rw [hheldNext] at hid
      exact hfits custodian toUuid hnamed htoUuid hchanges id hid
    · have hwrite : st.write uuid (.custodianChanged named occurred now) silicon = none := by
        cases hcase : st.write uuid (.custodianChanged named occurred now) silicon with
        | none => rfl
        | some value =>
            obtain ⟨custodian, hnamed, hbind⟩ := Option.bind_eq_some_iff.mp hcase
            obtain ⟨toUuid, htoUuid, hif⟩ := Option.bind_eq_some_iff.mp hbind
            obtain ⟨⟨hself, hchanges⟩, _⟩ := Option.ite_none_right_eq_some.mp hif
            exact absurd ⟨hself, custodian, toUuid, hnamed, htoUuid, hchanges⟩ happlied
      refine agreesAt_of_unwritten hkept (hagrees silicon) hwrite ?_
      intro id _ hid _
      rw [hheld] at hid
      exact .inl hid

/-- A lookup that changes no row changes nothing. -/
theorem agrees_updateSummary_of_kept (hkept : st.Kept) (hagrees : st.Agrees)
    {summary : Account.AccountSummary} {started now : Nat}
    (hchanges : ¬ (st.account uuid).changes (fun _ => true)
      (Account.summarized summary started now) = true) :
    (st.next uuid (.updateSummary summary started now)).Agrees := by
  apply agrees_of_leaves hkept hagrees
  · intro silicon
    exact if_neg fun hboth => hchanges hboth.2
  · rw [Account.heldId_next (hkept.wellFormed uuid)]
    exact if_neg hchanges

section Summary

variable {row : AccountRow} {summary : Account.AccountSummary} {started now : Nat}

/-- Where the custodian is kept, so is its id. -/
theorem summaryWrite_eq_none_iff :
    st.summaryWrite summary started row = none ↔ keepsCustodian summary started row = true := by
  unfold summaryWrite keepsCustodian
  by_cases hsilicon : row.kind = .silicon
  · simp only [hsilicon, ne_eq, not_true_eq_false, if_false, decide_true, Bool.true_and,
      Bool.or_eq_true, Option.isNone_iff_eq_none]
    cases hskew : Account.withinSkew row.custodianChangedAt started with
    | true => simp
    | false =>
        simp only [Bool.false_eq_true, if_false, false_or, Option.map_eq_none_iff,
          Option.or_eq_none_iff]
        constructor
        · intro hnone
          rw [← Option.isNone_iff_eq_none, ← Option.not_isSome, ← namedId_isSome, hnone.2]
          rfl
        · intro hnone
          refine ⟨by simp [idSince, hnone], ?_⟩
          rw [← Option.isNone_iff_eq_none, ← Option.not_isSome, namedId_isSome, hnone]
          rfl
  · simp [hsilicon]

theorem keepsCustodian_custodianUuid (h : keepsCustodian summary started row = true) :
    (Account.summarized summary started now row).custodianUuid = row.custodianUuid := by
  simp only [keepsCustodian, Bool.and_eq_true, Bool.or_eq_true, decide_eq_true_eq,
    Option.isNone_iff_eq_none] at h
  obtain ⟨hsilicon, hkeeps⟩ := h
  simp only [Account.summarized, hsilicon, ne_eq, not_true_eq_false, if_false]
  rcases hkeeps with hskew | hnone
  · rw [if_pos hskew]
  · rw [hnone, Option.none_or, ite_self]

/-- The UPDATE of a lookup changes the row. -/
structure Stored (st : CachedIds) (uuid : AccountUuid) (summary : Account.AccountSummary)
    (started now : Nat) (row : AccountRow) : Prop where
  found : (st.account uuid).row = some row
  undated : row.currentId = none → row.idChangedAt = none
  changes : (st.account uuid).changes (fun _ => true)
    (Account.summarized summary started now) = true

theorem Stored.exists (hkept : st.Kept) (hchanges : (st.account uuid).changes (fun _ => true)
    (Account.summarized summary started now) = true) :
    ∃ row, st.Stored uuid summary started now row := by
  obtain ⟨row, hrow, hlive, _, _⟩ := Account.exists_row_of_changes hchanges
  refine ⟨row, hrow, ?_, hchanges⟩
  have hwellFormed := hkept.wellFormed uuid
  generalize st.account uuid = account at hwellFormed hrow
  cases hwellFormed with
  | unseen _ => cases hrow
  | seen hfor =>
      obtain rfl := Option.some.inj hrow
      exact hfor.undated hlive

namespace Stored

theorem heldId_self (h : st.Stored uuid summary started now row) (hkept : st.Kept) :
    ((st.next uuid (.updateSummary summary started now)).account uuid).heldId =
      if Account.withinSkew row.idChangedAt started then row.currentId
      else (nonEmpty summary.id).or row.currentId := by
  rw [next_account_self, Account.heldId_next (hkept.wellFormed uuid)]
  dsimp only
  rw [if_pos h.changes, h.found]
  rfl

theorem custodianOf_self (h : st.Stored uuid summary started now row) (hkept : st.Kept) :
    ((st.next uuid (.updateSummary summary started now)).account uuid).custodianOf =
      (Account.summarized summary started now row).custodianUuid := by
  rw [next_account_self, Account.custodianOf_next (hkept.wellFormed uuid)]
  dsimp only
  rw [if_pos h.changes, h.found]
  rfl

theorem write_self (h : st.Stored uuid summary started now row) :
    st.write uuid (.updateSummary summary started now) uuid =
      st.summaryWrite summary started row := by
  simp only [write, true_and, h.changes, if_true, h.found, Option.bind_some]

theorem write_eq_none (h : st.Stored uuid summary started now row)
    (hkeeps : silicon = uuid → keepsCustodian summary started row = true) :
    st.write uuid (.updateSummary summary started now) silicon = none := by
  by_cases hself : silicon = uuid
  · rw [hself, h.write_self]
    exact summaryWrite_eq_none_iff.mpr (hkeeps hself)
  · exact if_neg fun hboth => hself hboth.1

/-- Where the copy is not written, the custodian stays. -/
theorem names_of_keeps (h : st.Stored uuid summary started now row) (hkept : st.Kept)
    (hkeeps : silicon = uuid → keepsCustodian summary started row = true) :
    ((st.next uuid (.updateSummary summary started now)).account silicon).custodianOf =
      (st.account silicon).custodianOf := by
  by_cases hself : silicon = uuid
  · subst hself
    rw [h.custodianOf_self hkept, keepsCustodian_custodianUuid (hkeeps rfl), Account.custodianOf,
      h.found]
    rfl
  · rw [next_account_of_ne hself]

/-- What the custodian that the lookup names is held with after the statement, when its id was not
changed since. -/
theorem heldId_named (h : st.Stored uuid summary started now row) (hkept : st.Kept)
    {named : AccountUuid} (hnamed : summary.custodianUuid = some named)
    (hnone : st.idSince summary started = none) :
    ((st.next uuid (.updateSummary summary started now)).account named).heldId =
      if named = uuid then (nonEmpty summary.id).or row.currentId
      else (st.account named).heldId := by
  split
  · rename_i hself
    subst hself
    rw [h.heldId_self hkept]
    split
    · -- An id that was changed since would have been read.
      rename_i hskew
      simp only [idSince, hnamed, h.found, Option.bind_some, hskew, if_true] at hnone
      rw [h.undated hnone] at hskew
      cases hskew
    · rfl
  · rename_i hself
    rw [next_account_of_ne hself]

/-- The id that the statement reads of the custodian is the one that it leaves. -/
theorem heldId_since (h : st.Stored uuid summary started now row) (hkept : st.Kept)
    {named : AccountUuid} {id : String} (hnamed : summary.custodianUuid = some named)
    (hsince : st.idSince summary started = some id) :
    ((st.next uuid (.updateSummary summary started now)).account named).heldId = some id := by
  simp only [idSince, hnamed, Option.bind_some, Option.bind_eq_some_iff] at hsince
  obtain ⟨namedRow, hnamedRow, hid⟩ := hsince
  obtain ⟨hskew, hcurrent⟩ := Option.ite_none_right_eq_some.mp hid
  by_cases hself : named = uuid
  · subst hself
    obtain rfl := Option.some.inj (h.found.symm.trans hnamedRow)
    rw [h.heldId_self hkept, if_pos hskew]
    exact hcurrent
  · rw [next_account_of_ne hself, Account.heldId, hnamedRow]
    exact hcurrent

/-- Where the lookup replaces the custodian of a Silicon, it names one, with an id. -/
theorem replaced (h : st.Stored uuid summary started now row) (hkept : st.Kept)
    (hsilicon : row.kind = .silicon)
    (hskew : Account.withinSkew row.custodianChangedAt started = false) {named : AccountUuid}
    (hnamed : summary.custodianUuid = some named) :
    ∃ id, namedId summary = some id ∧
      st.write uuid (.updateSummary summary started now) uuid =
        some ((st.idSince summary started).or (some id)) ∧
      ((st.next uuid (.updateSummary summary started now)).account uuid).custodianOf =
        some named := by
  obtain ⟨id, hid⟩ : ∃ id, namedId summary = some id := by
    rw [← Option.isSome_iff_exists, namedId_isSome, hnamed]
    rfl
  refine ⟨id, hid, ?_, ?_⟩
  · rw [h.write_self]
    simp [summaryWrite, hsilicon, hskew, hid]
  · rw [h.custodianOf_self hkept]
    simp [Account.summarized, hsilicon, hskew, hnamed]

/-- A lookup after which the copies agree meets the condition. -/
theorem fits_of_agrees (h : st.Stored uuid summary started now row) (hkept : st.Kept)
    (hnext : (st.next uuid (.updateSummary summary started now)).Agrees) :
    st.SummaryFits uuid summary started row where
  own hskew id hid silicon hkeeps hnames hcopied := by
    have hunwritten := (agreesAt_next_of_unwritten (h.write_eq_none hkeeps)).mp (hnext silicon)
    refine hunwritten uuid id ?_ ?_ hcopied
    · rw [h.names_of_keeps hkept hkeeps]
      exact hnames
    · rw [h.heldId_self hkept, hskew, hid]
      rfl
  custodian hsilicon hskew named held hnamed hnone hknown := by
    obtain ⟨id, hid, hwrite, hnames⟩ := h.replaced hkept hsilicon hskew hnamed
    rw [hnone, Option.none_or] at hwrite
    rw [hid]
    refine (agreesAt_next_of_written hwrite).mp (hnext uuid) named held hnames ?_
    rw [h.heldId_named hkept hnamed hnone]
    exact hknown

/-- The copy in the row of the account itself, where its custodian is replaced. -/
theorem agreesAt_self (h : st.Stored uuid summary started now row) (hkept : st.Kept)
    (hfits : st.SummaryFits uuid summary started row)
    (hreplaced : keepsCustodian summary started row = false) :
    (st.next uuid (.updateSummary summary started now)).AgreesAt uuid := by
  by_cases hsilicon : row.kind = .silicon
  · simp only [keepsCustodian, hsilicon, decide_true, Bool.true_and, Bool.or_eq_false_iff,
      Option.isNone_eq_false_iff, Option.isSome_iff_exists] at hreplaced
    obtain ⟨hskew, named, hnamed⟩ := hreplaced
    obtain ⟨id, hid, hwrite, hnames⟩ := h.replaced hkept hsilicon hskew hnamed
    rw [agreesAt_next_of_written hwrite]
    intro custodian held hcustodian hknown
    obtain rfl := Option.some.inj (hnames.symm.trans hcustodian)
    cases hsince : st.idSince summary started with
    | some since =>
        rw [h.heldId_since hkept hnamed hsince] at hknown
        exact hknown
    | none =>
        rw [h.heldId_named hkept hnamed hsince] at hknown
        rw [Option.none_or, ← hid]
        exact hfits.custodian hsilicon hskew named held hnamed hsince hknown
  · have hwrite : st.write uuid (.updateSummary summary started now) uuid = some none := by
      rw [h.write_self]
      exact if_pos hsilicon
    rw [agreesAt_next_of_written hwrite]
    intro custodian held hnames _
    rw [h.custodianOf_self hkept] at hnames
    simp [Account.summarized, hsilicon] at hnames

/-- The other copies. -/
theorem agreesAt_of_keeps (h : st.Stored uuid summary started now row) (hkept : st.Kept)
    (hagrees : st.Agrees) (hfits : st.SummaryFits uuid summary started row)
    (hkeeps : silicon = uuid → keepsCustodian summary started row = true) :
    (st.next uuid (.updateSummary summary started now)).AgreesAt silicon := by
  refine agreesAt_of_unwritten hkept (hagrees silicon) (h.write_eq_none hkeeps) ?_
  intro current hnames hcurrent hcopied
  have hheld := h.heldId_self hkept
  rw [next_account_self, hcurrent] at hheld
  have hrow : (st.account uuid).heldId = row.currentId := by
    rw [Account.heldId, h.found]
    rfl
  rw [hrow]
  cases hskew : Account.withinSkew row.idChangedAt started with
  | true =>
      rw [hskew, if_pos rfl] at hheld
      exact .inl hheld.symm
  | false =>
      rw [hskew, if_neg Bool.false_ne_true] at hheld
      cases hid : nonEmpty summary.id with
      | none =>
          rw [hid, Option.none_or] at hheld
          exact .inl hheld.symm
      | some new =>
          rw [hid, Option.some_or] at hheld
          obtain rfl := Option.some.inj hheld
          exact .inr (hfits.own hskew current hid silicon hkeeps hnames hcopied)

end Stored

/-- A lookup reads the custodian's id where it was changed since, and else takes the named one. -/
theorem agrees_updateSummary_iff (hkept : st.Kept) (hagrees : st.Agrees)
    (summary : Account.AccountSummary) (started now : Nat) :
    (st.next uuid (.updateSummary summary started now)).Agrees ↔
      st.Fits uuid (.updateSummary summary started now) := by
  constructor
  · intro hnext hchanges row hrow
    obtain ⟨stored, h⟩ := Stored.exists hkept hchanges
    obtain rfl := Option.some.inj (h.found.symm.trans hrow)
    exact h.fits_of_agrees hkept hnext
  · intro hfits
    by_cases hchanges : (st.account uuid).changes (fun _ => true)
        (Account.summarized summary started now) = true
    · obtain ⟨row, h⟩ := Stored.exists hkept hchanges
      have hrowFits := hfits hchanges row h.found
      intro silicon
      by_cases hkeeps : silicon = uuid → keepsCustodian summary started row = true
      · exact h.agreesAt_of_keeps hkept hagrees hrowFits hkeeps
      · obtain ⟨rfl, hreplaced⟩ := Classical.not_imp.mp hkeeps
        exact h.agreesAt_self hkept hrowFits (Bool.eq_false_iff.mpr hreplaced)
    · exact agrees_updateSummary_of_kept hkept hagrees hchanges

end Summary

/-- A sighting fills ids that no copy was made of. -/
theorem agrees_ensure (hkept : st.Kept) (hagrees : st.Agrees) (newKey : ActorId) (kind : ActorKind)
    (idHint : Option String) (asOf : Option Nat) :
    (st.next uuid (.ensure newKey kind idHint asOf)).Agrees := by
  intro silicon
  have hheld := Account.heldId_next (hkept.wellFormed uuid) (.ensure newKey kind idHint asOf)
  have hcustodian := Account.custodianOf_next (hkept.wellFormed uuid)
    (.ensure newKey kind idHint asOf)
  dsimp only at hheld hcustodian
  by_cases hfolded : silicon = uuid ∧ (st.account uuid).pending.any (·.deletedAt.isSome) = true
  · have hwrite : st.write uuid (.ensure newKey kind idHint asOf) silicon = some none :=
      if_pos hfolded
    rw [agreesAt_next_of_written hwrite]
    obtain ⟨rfl, hpending⟩ := hfolded
    intro custodian held hnames _
    -- What is recorded is recorded of accounts that were not seen.
    rw [next_account_self, hcustodian] at hnames
    have hwellFormed := hkept.wellFormed silicon
    generalize st.account silicon = account at hwellFormed hnames hpending
    cases hwellFormed with
    | unseen _ => cases hnames
    | seen _ => cases hpending
  · refine agreesAt_of_unwritten hkept (hagrees silicon) (if_neg hfolded) ?_
    intro id hnames hcurrent hcopied
    have hsettled := hkept.known silicon uuid hnames hcopied
    rw [hheld, Account.heldId_ensure_of_settled (hkept.wellFormed uuid) hsettled] at hcurrent
    exact .inl hcurrent

/-- A deleted account has no custodian and no id. -/
theorem agrees_deleted (hkept : st.Kept) (hagrees : st.Agrees) (occurred : Nat) :
    (st.next uuid (.deleted occurred)).Agrees := by
  intro silicon
  have hheld := Account.heldId_next (hkept.wellFormed uuid) (.deleted occurred)
  have hcustodian := Account.custodianOf_next (hkept.wellFormed uuid) (.deleted occurred)
  dsimp only at hheld hcustodian
  by_cases hpurged : silicon = uuid ∧ (st.account uuid).key.isSome = true
  · have hwrite : st.write uuid (.deleted occurred) silicon = some none := if_pos hpurged
    rw [agreesAt_next_of_written hwrite]
    intro custodian held hnames _
    rw [hpurged.1, next_account_self, hcustodian] at hnames
    cases hnames
  · refine agreesAt_of_unwritten hkept (hagrees silicon) (if_neg hpurged) ?_
    intro id _ hcurrent _
    rw [hheld] at hcurrent
    cases hcurrent

/-- **A step keeps the copies in agreement exactly when it meets the condition.** -/
theorem agrees_next_iff (hkept : st.Kept) (hagrees : st.Agrees) (uuid : AccountUuid)
    (event : DirectoryEvent) : (st.next uuid event).Agrees ↔ st.Fits uuid event := by
  have hleaves : (∀ silicon, st.write uuid event silicon = none) →
      ((st.account uuid).next event).heldId = (st.account uuid).heldId →
      st.Fits uuid event → ((st.next uuid event).Agrees ↔ st.Fits uuid event) :=
    fun hwrite hheld hfits => iff_of_true (agrees_of_leaves hkept hagrees hwrite hheld) hfits
  have hheld := Account.heldId_next (hkept.wellFormed uuid) event
  cases event with
  | ensure newKey kind idHint asOf =>
      exact iff_of_true (agrees_ensure hkept hagrees newKey kind idHint asOf) trivial
  | adoptId id asOf => exact iff_of_true (agrees_adoptId hkept hagrees id asOf) trivial
  | updateSummary summary started now =>
      exact agrees_updateSummary_iff hkept hagrees summary started now
  | completeProfile info => exact hleaves (fun _ => rfl) hheld trivial
  | idChanged newId occurred => exact agrees_idChanged_iff hkept hagrees newId occurred
  | updated profile => exact agrees_updated_iff hkept hagrees profile
  | custodianChanged named occurred now =>
      exact agrees_custodianChanged_iff hkept hagrees named occurred now
  | signedOut reason occurred => exact hleaves (fun _ => rfl) hheld trivial
  | accessRemoved occurred => exact hleaves (fun _ => rfl) hheld trivial
  | deleted occurred => exact iff_of_true (agrees_deleted hkept hagrees occurred) trivial

/-! ## Runs -/

theorem Agrees.empty : Agrees empty := by
  intro silicon custodian id _ _ hcopied
  cases hcopied

theorem Step.eq_next {st' : CachedIds} {label : AccountUuid × DirectoryEvent}
    (h : Step st label st') : st' = st.next label.1 label.2 := by
  cases h
  rfl

/-- Along a run from copies that agree, every state agrees exactly when every step meets the
condition. -/
theorem agrees_run_iff {st' : CachedIds}
    {tr : List (Transition CachedIds (AccountUuid × DirectoryEvent))} (run : Run Step st tr st')
    (hkept : st.Kept) (hagrees : st.Agrees) :
    (∀ e ∈ tr, e.post.Agrees) ↔ ∀ e ∈ tr, e.pre.Fits e.label.1 e.label.2 := by
  induction run with
  | nil st => exact iff_of_true (List.forall_mem_nil _) (List.forall_mem_nil _)
  | @cons st post st' label tr hstep _ ih =>
      obtain rfl := hstep.eq_next
      have hiff := agrees_next_iff hkept hagrees label.1 label.2
      rw [List.forall_mem_cons, List.forall_mem_cons]
      constructor
      · rintro ⟨hpost, hrest⟩
        exact ⟨hiff.mp hpost, (ih (hkept.next _ _) hpost).mp hrest⟩
      · rintro ⟨hfits, hrest⟩
        have hpost := hiff.mpr hfits
        exact ⟨hpost, (ih (hkept.next _ _) hpost).mpr hrest⟩

/-- **In a run from an empty directory the copies agree in every state reached exactly when every
step meets the condition.** -/
theorem custodianIds_agree_iff {tr : List (Transition CachedIds (AccountUuid × DirectoryEvent))}
    (run : Run Step empty tr st) :
    (∀ e ∈ tr, e.post.Agrees) ↔ ∀ e ∈ tr, e.pre.Fits e.label.1 e.label.2 :=
  agrees_run_iff run Kept.empty Agrees.empty

/-! ## Ada and her Silicon -/

/-- A Carbon. -/
def ada : AccountUuid := ⟨"zQo", by decide +kernel⟩

/-- The Silicon that she looks after. -/
def kit : AccountUuid := ⟨"K1E", by decide +kernel⟩

/-- She signs in, and her Silicon is looked up. -/
def looksAfter : List (AccountUuid × DirectoryEvent) :=
  [(ada, .ensure ⟨1, Uuid.one_ne_nil⟩ .carbon (some "c:ada") (some 1000000)),
    (kit, .ensure ⟨2, Uuid.two_ne_nil⟩ .silicon (some "si:kit") (some 2000000)),
    (kit, .updateSummary ⟨.silicon, "si:kit", "Kit", "", some ⟨"zQo", "c:ada"⟩⟩ 2000000 2100000)]

/-- A new id that `account.updated` brings. -/
def adaUpdated : AccountUuid × DirectoryEvent :=
  (ada, .updated ⟨"c:ada-lovelace", "Ada", "", 1⟩)

/-- A new id that `account.id_changed` brings. -/
def adaRenamed : AccountUuid × DirectoryEvent := (ada, .idChanged "c:ada-lovelace" 3000000)

/-- The rows after some events. -/
def after (events : List (AccountUuid × DirectoryEvent)) : CachedIds :=
  playEnd (fun st label => st.next label.1 label.2) empty events

theorem run_play_next (events : List (AccountUuid × DirectoryEvent)) :
    Run Step empty (play (fun st label => st.next label.1 label.2) empty events)
      (after events) := by
  refine run_play _ (fun _ _ => True) (fun st label _ => .next st label.1 label.2) ?_
  generalize empty = st
  induction events generalizing st with
  | nil => trivial
  | cons event events ih => exact ⟨trivial, ih _⟩

/-- The lookup reads the id that Ada signed in with, and `account.id_changed` brings the copy up to
date. -/
theorem custodianIds_agree_adaRenamed : (after (looksAfter ++ [adaRenamed])).Agrees := by
  have hagrees := (custodianIds_agree_iff (run_play_next (looksAfter ++ [adaRenamed]))).mpr ?_
  · exact hagrees ⟨after looksAfter, adaRenamed, after (looksAfter ++ [adaRenamed])⟩
      (by simp [looksAfter, play, after, playEnd])
  · simp only [looksAfter, adaRenamed, List.cons_append, List.nil_append, play,
      List.forall_mem_cons]
    refine ⟨trivial, trivial, ?_, ?_, List.forall_mem_nil _⟩
    · intro _ row hrow
      constructor
      · -- The Silicon's own id is as new as the lookup.
        intro hold
        have hnew : ((after (looksAfter.take 2)).account kit).row.all
            (fun row => Account.withinSkew row.idChangedAt 2000000) = true := by decide +kernel
        have hrow' : ((after (looksAfter.take 2)).account kit).row = some row := hrow
        rw [hrow', Option.all_some, hold] at hnew
        cases hnew
      · -- Ada's is, too, and the lookup reads it.
        intro _ _ _ _ _ hnone
        have hsince : ((after (looksAfter.take 2)).idSince ⟨.silicon, "si:kit", "Kit", "",
            some ⟨"zQo", "c:ada"⟩⟩ 2000000) = some "c:ada" := by decide +kernel
        cases hsince.symm.trans hnone
    · intro hstale
      have hselects : ((after looksAfter).account ada).selects (notNewer 3000000) = true := by
        decide +kernel
      cases hselects.symm.trans hstale

/-- **The copies do not always agree.** The id that `account.updated` brings is not written in
them. -/
theorem not_forall_agrees : ¬ ∀ (st : CachedIds)
    (tr : List (Transition CachedIds (AccountUuid × DirectoryEvent))),
      Run Step empty tr st → st.Agrees := by
  intro hall
  have hagrees := hall _ _ (run_play_next (looksAfter ++ [adaUpdated])) kit ada "c:ada-lovelace"
  have hshown := hagrees (by decide +kernel) (by decide +kernel) (by decide +kernel)
  exact absurd hshown (by decide +kernel)

end CachedIds

end Waveform.Directory
