import Waveform.Library.LabelledRun
import Waveform.Operator.LinkStep

/-!
# The rows of a run

The loop over a mapping whose principals PostgreSQL takes never fails on tables that satisfy their
constraints. Where it reports no conflict, it is a run of steps, one for each row, and no two of its
rows map one account to two storage keys or one storage key to two accounts.

- `linkLoop_cases`: what the loop leaves.
- `sendable_of_loop`: it fails where a principal has U+0000 in it.
- `LinkStep`: one row, where no conflict is reported.
-/

set_option autoImplicit false

namespace Waveform.Operator

open Waveform.Domain
open Waveform.Store (storableText)
open IdentityDb LabelledRun

/-! ## Steps -/

/-- The storage key that a row maps. -/
def MappingRow.storageKey (parseUuid : String → Option Uuid) (db : IdentityDb) (row : MappingRow) :
    Option ActorId :=
  match db.legacyKey parseUuid row.principal with
  | .found storageKey _ _ => some storageKey
  | _ => none

section Steps

variable (parseUuid : String → Option Uuid) (now : Nat) (options : LinkOptions)

/-- A row that reports no conflict. -/
inductive LinkStep : IdentityDb → MappingRow → IdentityDb → Prop where
  | unmatched {db : IdentityDb} {row : MappingRow}
      (h : db.legacyKey parseUuid row.principal = .noData) :
      LinkStep db row db
  | linked {db db' : IdentityDb} {row : MappingRow} {storageKey : ActorId} {kind : ActorKind}
      {publicId : Option String} {new : Bool}
      (hfound : db.legacyKey parseUuid row.principal = .found storageKey kind publicId)
      (hlinked : LinkedBy db now options row storageKey kind publicId new db') : LinkStep db row db'

end Steps

variable {parseUuid : String → Option Uuid} {now : Nat} {options : LinkOptions}
  {db db' db₀ : IdentityDb}
  {row : MappingRow} {storageKey : ActorId} {kind : ActorKind} {publicId : Option String}

theorem MappingRow.storageKey_eq_some_iff :
    row.storageKey parseUuid db = some storageKey ↔
      ∃ kind publicId, db.legacyKey parseUuid row.principal = .found storageKey kind publicId := by
  unfold MappingRow.storageKey
  cases hlegacy : db.legacyKey parseUuid row.principal with
  | found key kind publicId =>
      constructor
      · intro h
        obtain rfl := Option.some.inj h
        exact ⟨kind, publicId, rfl⟩
      · rintro ⟨kind', publicId', h⟩
        rw [(Legacy.found.inj h).1]
  | noData => simp
  | unknownKind => simp

theorem LinkStep.constraints (hstep : LinkStep parseUuid now options db row db')
    (h : db.Constraints) :
    db'.Constraints := by
  cases hstep with
  | unmatched => exact h
  | linked hfound hlinked => exact hlinked.constraints h

theorem LinkStep.sameData (hstep : LinkStep parseUuid now options db row db') :
    SameData db db' := by
  cases hstep with
  | unmatched => exact .refl db
  | linked hfound hlinked => exact hlinked.sameData

theorem LinkStep.legacyKey (hstep : LinkStep parseUuid now options db row db')
    (principal : String) :
    db'.legacyKey parseUuid principal = db.legacyKey parseUuid principal := by
  cases hstep with
  | unmatched => rfl
  | linked hfound hlinked => exact hlinked.legacyKey hfound principal

/-! ## The loop -/

/-- What every turn of the loop keeps of the tables it started with. -/
structure Sound (parseUuid : String → Option Uuid) (db₀ : IdentityDb) (loop : LinkLoop) : Prop where
  constraints : loop.db.Constraints
  legacy : ∀ principal, loop.db.legacyKey parseUuid principal = db₀.legacyKey parseUuid principal

/-- What the loop has done with its rows, where it reported no conflict. -/
structure Done (parseUuid : String → Option Uuid) (now : Nat) (options : LinkOptions)
    (db₀ : IdentityDb)
    (rows : List MappingRow) (loop : LinkLoop) : Prop where
  run : ∃ tr, Run (LinkStep parseUuid now options) db₀ tr loop.db ∧ tr.map Transition.label = rows
  sources : ∀ row ∈ rows, ∀ storageKey, row.storageKey parseUuid db₀ = some storageKey →
    (loop.accountSources row.account).map Prod.fst = some storageKey
  targets : ∀ row ∈ rows, ∀ storageKey, row.storageKey parseUuid db₀ = some storageKey →
    (loop.keyTargets storageKey).map Prod.fst = some row.account
  linkedKeys : ∀ storageKey, storageKey ∈ loop.linkedKeys ↔
    ∃ row ∈ rows, row.storageKey parseUuid db₀ = some storageKey

/-- The rows map accounts to storage keys one to one. -/
def OneToOne (parseUuid : String → Option Uuid) (db₀ : IdentityDb) (rows : List MappingRow) :
    Prop :=
  ∀ row ∈ rows, ∀ row' ∈ rows, ∀ storageKey storageKey', row.storageKey parseUuid
    db₀ = some storageKey →
    row'.storageKey parseUuid db₀ = some storageKey' →
    (row.account = row'.account ↔ storageKey = storageKey')

theorem Done.oneToOne {rows : List MappingRow} {loop : LinkLoop}
    (h : Done parseUuid now options db₀ rows loop) :
    OneToOne parseUuid db₀ rows := by
  intro row hrow row' hrow' storageKey storageKey' hkey hkey'
  constructor
  · intro hsame
    have hsource := h.sources row hrow storageKey hkey
    rw [hsame, h.sources row' hrow' storageKey' hkey'] at hsource
    exact (Option.some.inj hsource).symm
  · intro hsame
    have htarget := h.targets row hrow storageKey hkey
    rw [hsame, h.targets row' hrow' storageKey' hkey'] at htarget
    exact (Option.some.inj htarget).symm

/-- A row that adds a conflict leaves one. -/
theorem LinkLoop.conflict_ne_nil (loop : LinkLoop) (conflict : LinkConflict) :
    (loop.conflict conflict).report.conflicts ≠ [] := by
  unfold LinkLoop.conflict
  simp

theorem LinkLoop.answered_error (loop : LinkLoop) (storageKey : ActorId) (left : IdentityDb)
    (conflict : LinkConflict) :
    loop.answered storageKey (left, .error conflict) =
      ({ loop with db := left } : LinkLoop).conflict conflict := rfl

/-- The turn of a row that has no data under its principal. -/
theorem Done.unmatched {rows : List MappingRow} {loop : LinkLoop}
    (h : Done parseUuid now options db₀ rows loop)
    (hsound : Sound parseUuid db₀ loop)
    (hlegacy : loop.db.legacyKey parseUuid row.principal = .noData)
    (report : LinkReport) :
    Done parseUuid now options db₀ (rows ++ [row]) { loop with report := report } := by
  have hnone : row.storageKey parseUuid db₀ = none := by
    unfold MappingRow.storageKey
    rw [← hsound.legacy, hlegacy]
  have hmem : ∀ row' ∈ rows ++ [row],
      ∀ storageKey, row'.storageKey parseUuid db₀ = some storageKey → row' ∈ rows := by
    intro row' hrow' storageKey hkey
    rcases List.mem_append.mp hrow' with hrow' | hrow'
    · exact hrow'
    · rw [List.mem_singleton.mp hrow', hnone] at hkey
      cases hkey
  obtain ⟨tr, hrun, hlabels⟩ := h.run
  refine ⟨⟨tr ++ [⟨loop.db, row, loop.db⟩], hrun.append (.single (.unmatched hlegacy)), ?_⟩, ?_, ?_,
    ?_⟩
  · rw [List.map_append, hlabels]
    rfl
  · exact fun row' hrow' storageKey hkey => h.sources row' (hmem row' hrow' storageKey hkey)
      storageKey hkey
  · exact fun row' hrow' storageKey hkey => h.targets row' (hmem row' hrow' storageKey hkey)
      storageKey hkey
  · intro storageKey
    rw [h.linkedKeys]
    constructor
    · rintro ⟨row', hrow', hkey⟩
      exact ⟨row', List.mem_append_left _ hrow', hkey⟩
    · rintro ⟨row', hrow', hkey⟩
      exact ⟨row', hmem row' hrow' storageKey hkey, hkey⟩

/-- The turn of a row that was linked, where the rows before it agree with it. -/
theorem Done.linked {rows : List MappingRow} {loop loop' : LinkLoop} {new : Bool}
    (h : Done parseUuid now options db₀ rows loop) (hsound : Sound parseUuid db₀ loop)
    (hfound : loop.db.legacyKey parseUuid row.principal = .found storageKey kind publicId)
    (hlinked : LinkedBy loop.db now options row storageKey kind publicId new loop'.db)
    (hsource : ∀ previous ∈ loop.accountSources row.account, previous.1 = storageKey)
    (htarget : ∀ previous ∈ loop.keyTargets storageKey, previous.1 = row.account)
    (hsources : loop'.accountSources = Function.update loop.accountSources row.account
      (some (storageKey, row.line)))
    (htargets : loop'.keyTargets = Function.update loop.keyTargets storageKey
      (some (row.account, row.line)))
    (hkeys : loop'.linkedKeys = loop.linkedKeys ++ [storageKey]) :
    Done parseUuid now options db₀ (rows ++ [row]) loop' := by
  have hkey : row.storageKey parseUuid db₀ = some storageKey :=
    MappingRow.storageKey_eq_some_iff.mpr
      ⟨kind, publicId, (hsound.legacy row.principal).symm.trans hfound⟩
  obtain ⟨tr, hrun, hlabels⟩ := h.run
  refine ⟨⟨tr ++ [⟨loop.db, row, loop'.db⟩], hrun.append (.single (.linked hfound hlinked)), ?_⟩,
    ?_, ?_, ?_⟩
  · rw [List.map_append, hlabels]
    rfl
  · intro row' hrow' storageKey' hkey'
    rw [hsources]
    rcases List.mem_append.mp hrow' with hrow' | hrow'
    · have hearlier := h.sources row' hrow' storageKey' hkey'
      -- An earlier row of this account has the same key, or the turn would be a conflict.
      by_cases hsame : row'.account = row.account
      · obtain ⟨previous, hprevious, hfirst⟩ := Option.map_eq_some_iff.mp hearlier
        rw [hsame] at hprevious ⊢
        rw [Function.update_self, ← hfirst, hsource previous hprevious]
        rfl
      · rwa [Function.update_of_ne hsame]
    · rw [List.mem_singleton.mp hrow', hkey] at hkey'
      rw [List.mem_singleton.mp hrow', Function.update_self, ← Option.some.inj hkey']
      rfl
  · intro row' hrow' storageKey' hkey'
    rw [htargets]
    rcases List.mem_append.mp hrow' with hrow' | hrow'
    · have hearlier := h.targets row' hrow' storageKey' hkey'
      -- Likewise an earlier row of this key has the same account.
      by_cases hsame : storageKey' = storageKey
      · obtain ⟨previous, hprevious, hfirst⟩ := Option.map_eq_some_iff.mp hearlier
        rw [hsame] at hprevious ⊢
        rw [Function.update_self, ← hfirst, htarget previous hprevious]
        rfl
      · rwa [Function.update_of_ne hsame]
    · rw [List.mem_singleton.mp hrow', hkey] at hkey'
      rw [List.mem_singleton.mp hrow', ← Option.some.inj hkey', Function.update_self]
      rfl
  · intro storageKey'
    rw [hkeys, List.mem_append, List.mem_singleton, h.linkedKeys]
    constructor
    · rintro (⟨row', hrow', hkey'⟩ | rfl)
      · exact ⟨row', List.mem_append_left _ hrow', hkey'⟩
      · exact ⟨row, List.mem_append_right _ List.mem_cons_self, hkey⟩
    · rintro ⟨row', hrow', hkey'⟩
      rcases List.mem_append.mp hrow' with hrow' | hrow'
      · exact .inl ⟨row', hrow', hkey'⟩
      · rw [List.mem_singleton.mp hrow', hkey] at hkey'
        exact .inr (Option.some.inj hkey').symm

/-- What a turn leaves: the tables stay sound, a conflict stays reported, and without one the row is
done. -/
structure Turn (parseUuid : String → Option Uuid) (now : Nat) (options : LinkOptions)
    (db₀ : IdentityDb)
    (loop : LinkLoop) (row : MappingRow) (loop' : LinkLoop) : Prop where
  sound : Sound parseUuid db₀ loop'
  conflicts : loop.report.conflicts <+: loop'.report.conflicts
  done : loop'.report.conflicts = [] → ∀ rows, Done parseUuid now options db₀ rows loop →
    Done parseUuid now options db₀ (rows ++ [row]) loop'

/-- A turn that reports a conflict. -/
theorem Turn.conflict {loop left : LinkLoop} (hsound : Sound parseUuid db₀ left)
    (hsame : left.report.conflicts = loop.report.conflicts) (conflict : LinkConflict) :
    Turn parseUuid now options db₀ loop row (left.conflict conflict) where
  sound := ⟨hsound.constraints, hsound.legacy⟩
  conflicts := hsame ▸ List.prefix_append _ _
  done := fun hnone => absurd hnone (left.conflict_ne_nil conflict)

/-- A row with a storage key. -/
theorem linkFound_turn {loop : LinkLoop} (hsound : Sound parseUuid db₀ loop)
    (hstorable : storablePrincipal row.principal = true)
    (hfound : loop.db.legacyKey parseUuid row.principal = .found storageKey kind publicId) :
    ∃ loop', loop.linkFound now options row storageKey kind publicId = some loop' ∧
      Turn parseUuid now options db₀ loop row loop' := by
  unfold LinkLoop.linkFound
  dsimp only
  split
  · refine ⟨_, rfl, Turn.conflict ?_ ?_ _⟩
    · exact ⟨hsound.constraints, hsound.legacy⟩
    · rfl
  next hsource =>
    split
    · refine ⟨_, rfl, Turn.conflict ?_ ?_ _⟩
      · exact ⟨hsound.constraints, hsound.legacy⟩
      · rfl
    next htarget =>
      rcases @linkOne_cases loop.db now options row storageKey kind publicId hsound.constraints
        hstorable with
        ⟨conflict, left, hleft, hanswer⟩ | ⟨new, linked, hlinked, hanswer⟩
      · rw [hanswer]
        refine ⟨_, rfl, ?_⟩
        rw [LinkLoop.answered_error]
        refine Turn.conflict ?_ ?_ conflict
        · rcases hleft with rfl | hfreed
          · exact ⟨hsound.constraints, hsound.legacy⟩
          · exact ⟨hfreed.constraints hsound.constraints, fun principal =>
              (hfreed.legacyKey principal).trans (hsound.legacy principal)⟩
        · rfl
      · rw [hanswer]
        have hsource' : ∀ previous ∈ loop.accountSources row.account, previous.1 = storageKey := by
          intro previous hprevious
          simpa using Option.filter_eq_none_iff.mp hsource previous hprevious
        have htarget' : ∀ previous ∈ loop.keyTargets storageKey, previous.1 = row.account := by
          intro previous hprevious
          simpa using Option.filter_eq_none_iff.mp htarget previous hprevious
        have hsound' : linked.Constraints ∧
            ∀ principal, linked.legacyKey parseUuid principal = db₀.legacyKey parseUuid principal :=
          ⟨hlinked.constraints hsound.constraints, fun principal =>
            (hlinked.legacyKey hfound principal).trans (hsound.legacy principal)⟩
        cases new with
        | true =>
            exact ⟨_, rfl, ⟨hsound'.1, hsound'.2⟩, List.prefix_refl _, fun _ rows hdone =>
              hdone.linked hsound hfound hlinked hsource' htarget' rfl rfl rfl⟩
        | false =>
            exact ⟨_, rfl, ⟨hsound'.1, hsound'.2⟩, List.prefix_refl _, fun _ rows hdone =>
              hdone.linked hsound hfound hlinked hsource' htarget' rfl rfl rfl⟩

/-- Every turn of the loop. -/
theorem linkRow_turn {loop : LinkLoop} (hsound : Sound parseUuid db₀ loop)
    (hstorable : storablePrincipal row.principal = true) :
    ∃ loop', loop.linkRow parseUuid now options row = some loop' ∧
      Turn parseUuid now options db₀ loop row loop' := by
  unfold LinkLoop.linkRow
  rw [storableText_of_storablePrincipal hstorable, if_neg (by simp)]
  split
  · next hlegacy =>
      exact ⟨_, rfl, ⟨hsound.constraints, hsound.legacy⟩, List.prefix_refl _, fun _ rows hdone =>
        hdone.unmatched hsound hlegacy _⟩
  · exact ⟨_, rfl, .conflict ⟨hsound.constraints, hsound.legacy⟩ rfl _⟩
  · next storageKey kind publicId hfound => exact linkFound_turn hsound hstorable hfound

/-- A loop that ends has sent PostgreSQL every principal. -/
theorem sendable_of_loop {rows : List MappingRow} {loop loop' : LinkLoop}
    (h : rows.foldlM (LinkLoop.linkRow parseUuid now options) loop = some loop') :
    ∀ row ∈ rows, storableText row.principal = true := by
  induction rows generalizing loop with
  | nil => exact fun row hrow => absurd hrow List.not_mem_nil
  | cons first rows ih =>
      rw [List.foldlM_cons] at h
      obtain ⟨next, hnext, hrest⟩ := Option.bind_eq_some_iff.mp h
      have hfirst : storableText first.principal = true := by
        unfold LinkLoop.linkRow at hnext
        split at hnext
        · cases hnext
        · next hsendable => simpa using hsendable
      intro row hrow
      rcases List.mem_cons.mp hrow with rfl | hrow
      · exact hfirst
      · exact ih hrest row hrow

/-- **The loop never fails**, and without a conflict it has done every row. -/
theorem linkLoop_cases {rows : List MappingRow} (h : db₀.Constraints)
    (hstorable : ∀ row ∈ rows, storablePrincipal row.principal = true) :
    ∃ loop, rows.foldlM (LinkLoop.linkRow parseUuid now options)
      (startLoop db₀ rows options) = some loop ∧
      (loop.report.conflicts = [] → Done parseUuid now options db₀ rows loop) := by
  -- over the rows to come, after any rows that are done
  have hgeneral : ∀ (rest earlier : List MappingRow) (loop : LinkLoop), (∀ row ∈ rest, row ∈ rows) →
      Sound parseUuid db₀ loop →
      (loop.report.conflicts = [] → Done parseUuid now options db₀ earlier loop) →
      ∃ loop', rest.foldlM (LinkLoop.linkRow parseUuid now options) loop = some loop' ∧
        (loop'.report.conflicts = [] → Done parseUuid now options db₀ (earlier ++ rest) loop') := by
    intro rest
    induction rest with
    | nil =>
        intro earlier loop _ _ hdone
        refine ⟨loop, rfl, fun hnone => ?_⟩
        rw [List.append_nil]
        exact hdone hnone
    | cons row rest ih =>
        intro earlier loop hmem hsound hdone
        obtain ⟨next, hnext, hturn⟩ :=
          @linkRow_turn parseUuid now options db₀ row loop hsound
            (hstorable row (hmem row List.mem_cons_self))
        obtain ⟨last, hlast, hall⟩ := ih (earlier ++ [row]) next
          (fun other hother => hmem other (List.mem_cons_of_mem _ hother)) hturn.sound
            fun hnone => by
            have hbefore : loop.report.conflicts = [] :=
              List.prefix_nil.mp (hnone ▸ hturn.conflicts)
            exact hturn.done hnone earlier (hdone hbefore)
        refine ⟨last, ?_, fun hnone => ?_⟩
        · rw [List.foldlM_cons, hnext]
          exact hlast
        · rw [List.append_cons]
          exact hall hnone
  have hstart : Done parseUuid now options db₀ [] (startLoop db₀ rows options) := by
    refine ⟨⟨[], .nil db₀, rfl⟩, fun row hrow => absurd hrow List.not_mem_nil,
      fun row hrow => absurd hrow List.not_mem_nil,
      fun storageKey => ⟨fun hmem => absurd hmem List.not_mem_nil, ?_⟩⟩
    rintro ⟨row, hrow, _⟩
    exact absurd hrow List.not_mem_nil
  exact hgeneral rows [] (startLoop db₀ rows options)
    (fun _ hrow => hrow) ⟨h, fun _ => rfl⟩ fun _ => hstart

end Waveform.Operator
