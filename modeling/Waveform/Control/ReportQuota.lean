import Mathlib.Algebra.Order.Group.Int
import Waveform.Control.Reporting

/-!
# The report quota and repeated idempotency keys

The creation time of a report is older than its turn behind the lock, so the rows of an account are
not in the order of their creation times. What the lock gives is that no row of the account appears
between a transaction's count and its insert.

- `Reports.inv_of_run`: what holds of the rows and of the transactions behind the lock.
- `reports_guaranteed`: the quota, the row behind every answer and the replies to a repeated key.
-/

set_option autoImplicit false

namespace Waveform.Control

open LabelledRun
open Waveform.Domain
open SlidingWindow (Admitted recent)

/-! ## Rows and keys -/

section Rows

variable {rows rows' : List BugReport} {row : BugReport} {sub : Submission} {id : Uuid}

theorem names_newReport {other : Submission} :
    other.Names (newReport sub id) ↔ sub.storageKey = other.storageKey ∧ sub.key = other.key :=
  ⟨fun h => ⟨h.2.2.1, h.2.2.2⟩, fun h => ⟨rfl, rfl, h.1, h.2⟩⟩

@[simp] theorem names_markSent : sub.Names (markSent id row) ↔ sub.Names row := by
  unfold markSent
  split <;> exact Iff.rfl

@[simp] theorem id_markSent : (markSent id row).id = row.id := by
  unfold markSent
  split <;> rfl

@[simp] theorem payload_markSent : (markSent id row).payload = row.payload := by
  unfold markSent
  split <;> rfl

@[simp] theorem planeId_markSent : (markSent id row).planeId = row.planeId := by
  unfold markSent
  split <;> rfl

@[simp] theorem actorId_markSent : (markSent id row).actorId = row.actorId := by
  unfold markSent
  split <;> rfl

@[simp] theorem createdAt_markSent : (markSent id row).createdAt = row.createdAt := by
  unfold markSent
  split <;> rfl

theorem oldReport_eq_none : oldReport rows sub = none ↔ ∀ row ∈ rows, ¬ sub.Names row := by
  simp [oldReport]

theorem oldReport_eq_some (h : oldReport rows sub = some row) : row ∈ rows ∧ sub.Names row :=
  ⟨List.mem_of_find?_eq_some h, by simpa using List.find?_some h⟩

theorem oldReport_isSome (hmem : row ∈ rows) (hnames : sub.Names row) :
    ∃ old, oldReport rows sub = some old := by
  cases hfind : oldReport rows sub with
  | some old => exact ⟨old, rfl⟩
  | none => exact absurd hnames (oldReport_eq_none.mp hfind row hmem)

/-- Another account's row does not count. -/
theorem recentReports_cons (h : row.actorId ≠ sub.storageKey) :
    recentReports (row :: rows) sub = recentReports rows sub := by
  have hother : chargedTo sub.storageKey row = false :=
    decide_eq_false fun hcharged => h hcharged.2
  simp [recentReports, hother]

theorem recentReports_markSent :
    recentReports (rows.map (markSent id)) sub = recentReports rows sub := by
  rw [recentReports, List.countP_map]
  apply List.countP_congr
  intro row _
  simp [chargedTo]

theorem recentReports_filter (p : BugReport → Bool) :
    recentReports (rows.filter p) sub ≤ recentReports rows sub :=
  List.filter_sublist.countP_le

end Rows

/-! ## What holds behind the lock -/

/-- What a transaction knows of the rows from the statements it has run. -/
structure OpenSubmission.Fact (rows : List BugReport) (call : OpenSubmission) : Prop where
  keyFree : call.phase.keyFree = true → ∀ row ∈ rows, ¬ call.request.Names row
  underQuota : call.phase.underQuota = true → recentReports rows call.request < reportLimit
  found : ∀ id status, call.phase = .found id status → ∀ row ∈ rows, call.request.Names row →
    row.id = id ∧ row.payload = call.request.payload

/-- The facts of a transaction outlive a change of the rows that adds none under its key and none
that its count would count. -/
theorem OpenSubmission.Fact.of_rows {rows rows' : List BugReport} {call : OpenSubmission}
    (h : call.Fact rows)
    (hrows : ∀ row' ∈ rows', call.request.Names row' →
      ∃ row ∈ rows, call.request.Names row ∧ row.id = row'.id ∧ row.payload = row'.payload)
    (hcount : recentReports rows' call.request ≤ recentReports rows call.request) :
    call.Fact rows' where
  keyFree hphase row' hrow' hnames := by
    obtain ⟨row, hrow, hnamed, -, -⟩ := hrows row' hrow' hnames
    exact h.keyFree hphase row hrow hnamed
  underQuota hphase := lt_of_le_of_lt hcount (h.underQuota hphase)
  found id status hphase row' hrow' hnames := by
    obtain ⟨row, hrow, hnamed, hid, hpayload⟩ := hrows row' hrow' hnames
    rw [← hid, ← hpayload]
    exact h.found id status hphase row hrow hnamed

/-- A transaction that has no lock knows nothing. -/
theorem OpenSubmission.Fact.of_not_holds {rows : List BugReport} {call : OpenSubmission}
    (h : call.phase.holds = false) : call.Fact rows := by
  obtain ⟨request, phase⟩ := call
  cases phase with
  | waiting | answered _ | abandoned =>
      exact ⟨nofun, nofun, nofun⟩
  | locked | found _ _ | missing | room | written _ => cases h

namespace Reports

variable {lockId : ActorId → Int} {s s' : Reports} {a : ReportAction} {i j : Nat}
  {call other : OpenSubmission}

/-- What a step does. -/
theorem step_cases (h : Step lockId s a s') :
    (∃ sub, a = .begin sub ∧ s' = { s with submissions := s.submissions ++ [⟨sub, .waiting⟩] }) ∨
    (∃ i call, a = .lock i ∧ s.submissions[i]? = some call ∧ call.phase = .waiting ∧
      s.LockFree lockId call.request.storageKey ∧ s' = s.setPhase i call .locked) ∨
    (∃ i call id phase, a = .proceed i id ∧ s.submissions[i]? = some call ∧
      Control.proceed s.rows call.request id call.phase = some phase ∧
      s' = s.setPhase i call phase) ∨
    (∃ i call id, a = .commit i ∧ s.submissions[i]? = some call ∧ call.phase = .written id ∧
      s' = { s.setPhase i call (.answered (.accepted id .queued)) with
        rows := newReport call.request id :: s.rows }) ∨
    (∃ i call, a = .abandon i ∧ s.submissions[i]? = some call ∧
      s' = s.setPhase i call .abandoned) ∨
    (∃ id, a = .deliver id ∧ s' = { s with rows := s.rows.map (markSent id) }) ∨
    ∃ account, a = .purge account ∧
      s' = { s with rows := s.rows.filter fun row => decide (row.actorId ≠ account) } := by
  obtain ⟨henabled, rfl⟩ := h
  cases a with
  | begin sub => exact .inl ⟨sub, rfl, rfl⟩
  | lock i =>
      obtain ⟨call, hcall, hphase⟩ := (Option.any_eq_true _ _).mp henabled
      obtain ⟨hwaiting, hfree⟩ := Bool.and_eq_true_iff.mp hphase
      refine .inr (.inl ⟨i, call, rfl, hcall, beq_iff_eq.mp hwaiting, of_decide_eq_true hfree, ?_⟩)
      rw [next, hcall]
  | proceed i id =>
      obtain ⟨call, hcall, hphase⟩ := (Option.any_eq_true _ _).mp henabled
      obtain ⟨phase, hphase⟩ := Option.isSome_iff_exists.mp hphase
      refine .inr (.inr (.inl ⟨i, call, id, phase, rfl, hcall, hphase, ?_⟩))
      simp only [next, hcall, hphase]
  | commit i =>
      obtain ⟨call, hcall, hphase⟩ := (Option.any_eq_true _ _).mp henabled
      cases hcase : call.phase with
      | written id =>
          refine .inr (.inr (.inr (.inl ⟨i, call, id, rfl, hcall, hcase, ?_⟩)))
          simp only [next, hcall, hcase]
      | _ =>
          rw [hcase] at hphase
          cases hphase
  | abandon i =>
      obtain ⟨call, hcall, -⟩ := (Option.any_eq_true _ _).mp henabled
      refine .inr (.inr (.inr (.inr (.inl ⟨i, call, rfl, hcall, ?_⟩))))
      rw [next, hcall]
  | deliver id => exact .inr (.inr (.inr (.inr (.inr (.inl ⟨id, rfl, rfl⟩)))))
  | purge account => exact .inr (.inr (.inr (.inr (.inr (.inr ⟨account, rfl, rfl⟩)))))

@[simp] theorem rows_setPhase (phase : SubmitPhase) : (s.setPhase i call phase).rows = s.rows := rfl

/-- The submissions after one went on to a phase. -/
theorem getElem?_setPhase {phase : SubmitPhase} (hcall : s.submissions[i]? = some call)
    (h : (s.setPhase i call phase).submissions[j]? = some other) :
    (i = j ∧ other = { call with phase }) ∨ (i ≠ j ∧ s.submissions[j]? = some other) := by
  by_cases hij : i = j
  · subst hij
    obtain ⟨hlt, -⟩ := List.getElem?_eq_some_iff.mp hcall
    rw [setPhase, List.getElem?_set_self hlt] at h
    exact .inl ⟨rfl, (Option.some.inj h).symm⟩
  · rw [setPhase, List.getElem?_set_ne hij] at h
    exact .inr ⟨hij, h⟩

/-- The submissions after one more began. -/
theorem getElem?_begin {sub : Submission}
    (h : (s.submissions ++ [⟨sub, .waiting⟩])[j]? = some other) :
    s.submissions[j]? = some other ∨ other = ⟨sub, .waiting⟩ := by
  rcases Nat.lt_or_ge j s.submissions.length with hlt | hge
  · rw [List.getElem?_append_left hlt] at h
    exact .inl h
  · rw [List.getElem?_append_right hge] at h
    exact .inr (List.mem_singleton.mp (List.mem_of_getElem? h))

/-- What the lock keeps true. -/
structure Inv (lockId : ActorId → Int) (s : Reports) : Prop where
  plane : ∀ row ∈ s.rows, row.planeId = Uuid.nil
  unique : ∀ (sub : Submission), ∀ first ∈ s.rows, ∀ second ∈ s.rows,
    sub.Names first → sub.Names second → first = second
  quota : ∀ account, Admitted oneHour reportLimit ((s.reportsOf account).map BugReport.createdAt)
  exclusive : ∀ (i j : Nat) (first second : OpenSubmission), s.submissions[i]? = some first →
    s.submissions[j]? = some second → first.phase.holds = true → second.phase.holds = true →
    lockId first.request.storageKey = lockId second.request.storageKey → i = j
  fact : ∀ (i : Nat) (call : OpenSubmission), s.submissions[i]? = some call → call.Fact s.rows

theorem Init.inv (h : s.Init) : s.Inv lockId where
  plane := by simp [h.rows]
  unique := by simp [h.rows]
  quota account := by
    rw [reportsOf, h.rows]
    exact .nil
  exclusive := by simp [h.submissions]
  fact := by simp [h.submissions]

/-! ## Steps that change no row -/

/-- A statement behind the lock leaves the transaction with a fact about the rows. -/
theorem Inv.fact_of_proceed (h : s.Inv lockId) {id : Uuid} {phase : SubmitPhase}
    (hcall : s.submissions[i]? = some call)
    (hphase : Control.proceed s.rows call.request id call.phase = some phase) :
    call.phase.holds = true ∧ OpenSubmission.Fact s.rows { call with phase } := by
  have hfact := h.fact i call hcall
  obtain ⟨request, current⟩ := call
  cases current with
  | locked =>
      refine ⟨rfl, ?_⟩
      simp only [Control.proceed] at hphase
      split at hphase
      · rename_i old hold
        obtain ⟨hmem, hnames⟩ := oldReport_eq_some hold
        split at hphase
        · cases hphase
          exact .of_not_holds rfl
        · rename_i hsame
          cases hphase
          refine ⟨nofun, nofun, ?_⟩
          rintro _ _ ⟨⟩ row hrow hnamed
          obtain rfl := h.unique request row hrow old hmem hnamed hnames
          exact ⟨rfl, not_not.mp hsame⟩
      · rename_i hnone
        cases hphase
        exact ⟨fun _ => oldReport_eq_none.mp hnone, nofun, nofun⟩
  | missing =>
      refine ⟨rfl, ?_⟩
      simp only [Control.proceed] at hphase
      split at hphase
      · cases hphase
        exact .of_not_holds rfl
      · rename_i hroom
        cases hphase
        exact ⟨fun _ => hfact.keyFree rfl, fun _ => Nat.lt_of_not_le hroom, nofun⟩
  | room =>
      refine ⟨rfl, ?_⟩
      simp only [Control.proceed] at hphase
      split at hphase
      · cases hphase
      · cases hphase
        exact ⟨fun _ => hfact.keyFree rfl, fun _ => hfact.underQuota rfl, nofun⟩
  | found old status =>
      refine ⟨rfl, ?_⟩
      cases hphase
      exact .of_not_holds rfl
  | waiting | written _ | answered _ | abandoned => cases hphase

/-- A transaction may go on to a phase that keeps the lock, or gives it up, and is right about the
rows. -/
theorem Inv.setPhase (h : s.Inv lockId) {phase : SubmitPhase}
    (hcall : s.submissions[i]? = some call)
    (hholds : phase.holds = true → call.phase.holds = true)
    (hfact : OpenSubmission.Fact s.rows { call with phase }) :
    (s.setPhase i call phase).Inv lockId where
  plane := h.plane
  unique := h.unique
  quota := h.quota
  exclusive m n first second hfirst hsecond hholds₁ hholds₂ hlock := by
    -- the one that moved held the lock before
    rcases getElem?_setPhase hcall hfirst with ⟨rfl, rfl⟩ | ⟨-, hfirst⟩
    · rcases getElem?_setPhase hcall hsecond with ⟨rfl, rfl⟩ | ⟨-, hsecond⟩
      · rfl
      · exact h.exclusive _ _ call second hcall hsecond (hholds hholds₁) hholds₂ hlock
    · rcases getElem?_setPhase hcall hsecond with ⟨rfl, rfl⟩ | ⟨-, hsecond⟩
      · exact h.exclusive _ _ first call hfirst hcall hholds₁ (hholds hholds₂) hlock
      · exact h.exclusive _ _ first second hfirst hsecond hholds₁ hholds₂ hlock
  fact j other hother := by
    rcases getElem?_setPhase hcall hother with ⟨rfl, rfl⟩ | ⟨-, hother⟩
    · exact hfact
    · exact h.fact j other hother

/-- A transaction gets a lock that nobody holds. -/
theorem Inv.lock (h : s.Inv lockId) (hcall : s.submissions[i]? = some call)
    (hfree : s.LockFree lockId call.request.storageKey) :
    (s.setPhase i call .locked).Inv lockId where
  plane := h.plane
  unique := h.unique
  quota := h.quota
  exclusive m n first second hfirst hsecond hholds₁ hholds₂ hlock := by
    rcases getElem?_setPhase hcall hfirst with ⟨rfl, rfl⟩ | ⟨-, hfirst⟩
    · rcases getElem?_setPhase hcall hsecond with ⟨rfl, rfl⟩ | ⟨-, hsecond⟩
      · rfl
      · exact absurd hlock.symm (hfree second (List.mem_of_getElem? hsecond) hholds₂)
    · rcases getElem?_setPhase hcall hsecond with ⟨rfl, rfl⟩ | ⟨-, hsecond⟩
      · exact absurd hlock (hfree first (List.mem_of_getElem? hfirst) hholds₁)
      · exact h.exclusive _ _ first second hfirst hsecond hholds₁ hholds₂ hlock
  fact j other hother := by
    rcases getElem?_setPhase hcall hother with ⟨rfl, rfl⟩ | ⟨-, hother⟩
    · exact ⟨nofun, nofun, nofun⟩
    · exact h.fact j other hother

theorem Inv.begin (h : s.Inv lockId) (sub : Submission) :
    ({ s with submissions := s.submissions ++ [⟨sub, .waiting⟩] } : Reports).Inv lockId where
  plane := h.plane
  unique := h.unique
  quota := h.quota
  exclusive m n first second hfirst hsecond hholds₁ hholds₂ hlock := by
    rcases getElem?_begin hfirst with hfirst | rfl
    · rcases getElem?_begin hsecond with hsecond | rfl
      · exact h.exclusive _ _ first second hfirst hsecond hholds₁ hholds₂ hlock
      · cases hholds₂
    · cases hholds₁
  fact j other hother := by
    rcases getElem?_begin hother with hother | rfl
    · exact h.fact j other hother
    · exact .of_not_holds rfl

/-! ## Steps that change the rows -/

/-- The stamps that count against a submission are the rows that its query counts. -/
theorem Inv.recent_reportsOf (h : s.Inv lockId) (sub : Submission) :
    recent oneHour sub.now ((s.reportsOf sub.storageKey).map BugReport.createdAt) =
      recentReports s.rows sub := by
  rw [recent, recentReports, List.countP_map, reportsOf, List.countP_filter]
  apply List.countP_congr
  intro row hrow
  have hplane := h.plane row hrow
  simp [chargedTo, hplane, and_comm]

/-- The row of a transaction under the lock is inserted: no other row of the account appeared since
the transaction looked. -/
theorem Inv.commit (h : s.Inv lockId) {id : Uuid} (hcall : s.submissions[i]? = some call)
    (hphase : call.phase = .written id) (status : ReportStatus) :
    ({ s.setPhase i call (.answered (.accepted id status)) with
      rows := newReport call.request id :: s.rows } : Reports).Inv lockId := by
  have hfact := h.fact i call hcall
  have hfree := hfact.keyFree (by rw [hphase]; rfl)
  have hroom := hfact.underQuota (by rw [hphase]; rfl)
  have hmoved : (s.setPhase i call (.answered (.accepted id status))).Inv lockId :=
    h.setPhase hcall nofun (.of_not_holds rfl)
  have hold : ∀ sub : Submission, ∀ row ∈ s.rows,
      sub.Names (newReport call.request id) → ¬ sub.Names row := by
    intro sub row hrow hnew hnames
    obtain ⟨haccount, hkey⟩ := names_newReport.mp hnew
    apply hfree row hrow
    exact ⟨hnames.1, hnames.2.1, hnames.2.2.1.trans haccount.symm, hnames.2.2.2.trans hkey.symm⟩
  constructor
  case plane =>
    intro row hrow
    rcases List.mem_cons.mp hrow with rfl | hrow
    · rfl
    · exact h.plane row hrow
  case unique =>
    intro sub first hfirst second hsecond hnames₁ hnames₂
    rcases List.mem_cons.mp hfirst with rfl | hfirst
    · rcases List.mem_cons.mp hsecond with rfl | hsecond
      · rfl
      · exact absurd hnames₂ (hold sub second hsecond hnames₁)
    · rcases List.mem_cons.mp hsecond with rfl | hsecond
      · exact absurd hnames₁ (hold sub first hfirst hnames₂)
      · exact h.unique sub first hfirst second hsecond hnames₁ hnames₂
  case quota =>
    intro account
    by_cases haccount : call.request.storageKey = account
    · subst haccount
      have hcons : (newReport call.request id :: s.rows).filter
            (fun row => decide (row.actorId = call.request.storageKey)) =
          newReport call.request id :: s.reportsOf call.request.storageKey :=
        List.filter_cons_of_pos (decide_eq_true rfl)
      rw [reportsOf, hcons, List.map_cons]
      apply Admitted.cons
      · exact (h.recent_reportsOf call.request).trans_lt hroom
      · exact h.quota call.request.storageKey
    · have hcons : (newReport call.request id :: s.rows).filter
            (fun row => decide (row.actorId = account)) = s.reportsOf account :=
        List.filter_cons_of_neg (by simp [newReport, haccount])
      rw [reportsOf, hcons]
      exact h.quota account
  case exclusive => exact hmoved.exclusive
  case fact =>
    intro j other hother
    rcases getElem?_setPhase hcall hother with ⟨rfl, rfl⟩ | ⟨hne, hother⟩
    · exact .of_not_holds rfl
    · cases hholds : other.phase.holds with
      | false => exact .of_not_holds hholds
      | true =>
          -- another transaction behind its lock belongs to another account
          have haccount : call.request.storageKey ≠ other.request.storageKey := by
            intro heq
            apply hne
            exact h.exclusive i j call other hcall hother (by rw [hphase]; rfl) hholds (by rw [heq])
          refine (h.fact j other hother).of_rows ?_ (recentReports_cons haccount).le
          intro row hrow hnames
          rcases List.mem_cons.mp hrow with rfl | hrow
          · exact absurd (names_newReport.mp hnames).1 haccount
          · exact ⟨row, hrow, hnames, rfl, rfl⟩

theorem Inv.deliver (h : s.Inv lockId) (id : Uuid) :
    ({ s with rows := s.rows.map (markSent id) } : Reports).Inv lockId where
  plane row hrow := by
    obtain ⟨old, hold, rfl⟩ := List.mem_map.mp hrow
    rw [planeId_markSent]
    exact h.plane old hold
  unique sub first hfirst second hsecond hnames₁ hnames₂ := by
    obtain ⟨old₁, hold₁, rfl⟩ := List.mem_map.mp hfirst
    obtain ⟨old₂, hold₂, rfl⟩ := List.mem_map.mp hsecond
    rw [h.unique sub old₁ hold₁ old₂ hold₂ (names_markSent.mp hnames₁) (names_markSent.mp hnames₂)]
  quota account := by
    have hstamps : ((s.rows.map (markSent id)).filter fun row => decide (row.actorId = account)).map
        BugReport.createdAt = (s.reportsOf account).map BugReport.createdAt := by
      rw [List.filter_map, List.map_map, reportsOf]
      simp [Function.comp_def]
    rw [reportsOf, hstamps]
    exact h.quota account
  exclusive := h.exclusive
  fact j other hother := by
    refine (h.fact j other hother).of_rows ?_ recentReports_markSent.le
    intro row hrow hnames
    obtain ⟨old, hold, rfl⟩ := List.mem_map.mp hrow
    exact ⟨old, hold, names_markSent.mp hnames, id_markSent.symm, payload_markSent.symm⟩

theorem Inv.purge (h : s.Inv lockId) (account : ActorId) :
    ({ s with rows := s.rows.filter fun row => decide (row.actorId ≠ account) } : Reports).Inv
      lockId where
  plane row hrow := h.plane row (List.mem_of_mem_filter hrow)
  unique sub first hfirst second hsecond :=
    h.unique sub first (List.mem_of_mem_filter hfirst) second (List.mem_of_mem_filter hsecond)
  quota other := by
    rw [reportsOf, List.filter_filter]
    by_cases haccount : other = account
    · subst haccount
      have hnone : s.rows.filter (fun row =>
          decide (row.actorId = other) && decide (row.actorId ≠ other)) = [] := by
        rw [List.filter_eq_nil_iff]
        simp
      rw [hnone]
      exact .nil
    · have hall : s.rows.filter (fun row =>
          decide (row.actorId = other) && decide (row.actorId ≠ account)) = s.reportsOf other := by
        apply List.filter_congr
        intro row _
        by_cases hrow : row.actorId = other
        · simp [hrow, haccount]
        · simp [hrow]
      rw [hall]
      exact h.quota other
  exclusive := h.exclusive
  fact j other hother := by
    refine (h.fact j other hother).of_rows ?_ (recentReports_filter _)
    intro row hrow hnames
    exact ⟨row, List.mem_of_mem_filter hrow, hnames, rfl, rfl⟩

/-- Each step keeps the invariant. -/
theorem Inv.step (h : s.Inv lockId) (hstep : Step lockId s a s') : s'.Inv lockId := by
  rcases step_cases hstep with ⟨sub, -, rfl⟩ | ⟨i, call, -, hcall, -, hfree, rfl⟩ |
    ⟨i, call, id, phase, -, hcall, hphase, rfl⟩ | ⟨i, call, id, -, hcall, hphase, rfl⟩ |
    ⟨i, call, -, hcall, rfl⟩ | ⟨id, -, rfl⟩ | ⟨account, -, rfl⟩
  · exact h.begin sub
  · exact h.lock hcall hfree
  · obtain ⟨hholds, hfact⟩ := h.fact_of_proceed hcall hphase
    exact h.setPhase hcall (fun _ => hholds) hfact
  · exact h.commit hcall hphase .queued
  · exact h.setPhase hcall nofun (.of_not_holds rfl)
  · exact h.deliver id
  · exact h.purge account

theorem inv_of_run {t : Reports} {tr : ReportRun} (h : Run (Step lockId) s tr t)
    (hinv : s.Inv lockId) : t.Inv lockId :=
  h.invariant (Inv lockId) (fun _ _ _ => Inv.step) hinv

/-- Rows that were admitted under the lock keep the quota, whatever their order. -/
theorem Inv.withinQuota (h : s.Inv lockId) : s.WithinQuota where
  from_ account a := by
    have hstamps := (h.quota account).countP_from a
    rwa [List.countP_map] at hstamps
  until_ account a := by
    have hstamps := (h.quota account).countP_until a
    rwa [List.countP_map] at hstamps

/-! ## Repeated keys -/

/-- The table has the report, perhaps with another status. -/
def Keeps (s : Reports) (row : BugReport) : Prop :=
  ∃ kept ∈ s.rows, (∀ sub : Submission, sub.Names kept ↔ sub.Names row) ∧
    kept.actorId = row.actorId ∧ kept.id = row.id ∧ kept.payload = row.payload

variable {row : BugReport}

theorem Keeps.of_mem (h : row ∈ s.rows) : s.Keeps row :=
  ⟨row, h, fun _ => Iff.rfl, rfl, rfl, rfl⟩

/-- A report stays until its account is purged. -/
theorem Keeps.step (h : s.Keeps row) (hstep : Step lockId s a s')
    (hpurge : a ≠ .purge row.actorId) :
    s'.Keeps row := by
  obtain ⟨kept, hmem, hnames, hactor, hid, hpayload⟩ := h
  rcases step_cases hstep with ⟨_, -, rfl⟩ | ⟨_, _, -, -, -, -, rfl⟩ | ⟨_, _, _, _, -, -, -, rfl⟩ |
    ⟨_, call, id, -, -, -, rfl⟩ | ⟨_, _, -, -, rfl⟩ | ⟨id, -, rfl⟩ | ⟨account, rfl, rfl⟩
  · exact ⟨kept, hmem, hnames, hactor, hid, hpayload⟩
  · exact ⟨kept, hmem, hnames, hactor, hid, hpayload⟩
  · exact ⟨kept, hmem, hnames, hactor, hid, hpayload⟩
  · exact ⟨kept, List.mem_cons_of_mem _ hmem, hnames, hactor, hid, hpayload⟩
  · exact ⟨kept, hmem, hnames, hactor, hid, hpayload⟩
  · refine ⟨markSent id kept, List.mem_map_of_mem hmem, fun sub => ?_, ?_, ?_, ?_⟩
    · rw [names_markSent]
      exact hnames sub
    · rw [actorId_markSent, hactor]
    · rw [id_markSent, hid]
    · rw [payload_markSent, hpayload]
  · refine ⟨kept, List.mem_filter.mpr ⟨hmem, decide_eq_true ?_⟩, hnames, hactor, hid, hpayload⟩
    rw [hactor]
    rintro rfl
    exact hpurge rfl

/-- No transaction under the key of a kept report finds the key free. -/
theorem Inv.not_keyFree (h : s.Inv lockId) (hkeeps : s.Keeps row)
    (hcall : s.submissions[i]? = some call) (hnames : call.request.Names row) :
    call.phase.keyFree = false := by
  obtain ⟨kept, hmem, hiff, -⟩ := hkeeps
  cases hfree : call.phase.keyFree with
  | false => rfl
  | true => exact absurd ((hiff _).mpr hnames) ((h.fact i call hcall).keyFree hfree kept hmem)

/-- The lookup under the key of a kept report gives that report. -/
theorem Inv.oldReport_eq (h : s.Inv lockId) (hkeeps : s.Keeps row) {sub : Submission}
    (hnames : sub.Names row) :
    ∃ old, oldReport s.rows sub = some old ∧ old.id = row.id ∧ old.payload = row.payload := by
  obtain ⟨kept, hmem, hiff, -, hid, hpayload⟩ := hkeeps
  have hkept := (hiff sub).mpr hnames
  obtain ⟨old, hold⟩ := oldReport_isSome hmem hkept
  obtain ⟨holdmem, holdnames⟩ := oldReport_eq_some hold
  obtain rfl := h.unique sub old holdmem kept hmem holdnames hkept
  exact ⟨old, hold, hid, hpayload⟩

/-- What a transaction under the key of a kept report is answered behind the lock. -/
theorem Inv.repeatReply (h : s.Inv lockId) (hkeeps : s.Keeps row) {id : Uuid} {reply : ReportReply}
    (hcall : s.submissions[i]? = some call) (hnames : call.request.Names row)
    (hphase : Control.proceed s.rows call.request id call.phase = some (.answered reply)) :
    RepeatReply row call.request reply := by
  have hfact := h.fact i call hcall
  have hbusy := h.not_keyFree hkeeps hcall hnames
  obtain ⟨old, hold, hid, hpayload⟩ := h.oldReport_eq hkeeps hnames
  obtain ⟨holdmem, holdnames⟩ := oldReport_eq_some hold
  obtain ⟨request, phase⟩ := call
  cases phase with
  | locked =>
      simp only [Control.proceed, hold] at hphase
      split at hphase
      · rename_i hother
        cases hphase
        have hne : request.payload ≠ row.payload := by
          rw [← hpayload]
          exact Ne.symm hother
        rw [RepeatReply, if_neg hne]
      · cases hphase
  | found id status =>
      cases hphase
      obtain ⟨hid', hsame⟩ := hfact.found id status rfl old holdmem holdnames
      have hpayload' : request.payload = row.payload := hsame.symm.trans hpayload
      rw [RepeatReply, if_pos hpayload']
      exact ⟨status, by rw [← hid, hid']⟩
  | missing | room => cases hbusy
  | waiting | written _ | answered _ | abandoned => cases hphase

/-- What is kept along a run from a state that has the report. -/
structure RepeatInv (lockId : ActorId → Int) (start : Reports) (row : BugReport) (s : Reports) :
    Prop where
  inv : s.Inv lockId
  keeps : s.Keeps row
  answered : ∀ (i : Nat) (call : OpenSubmission) reply, s.submissions[i]? = some call →
    call.request.Names row → call.phase = .answered reply → start.submissions[i]? ≠ some call →
    RepeatReply row call.request reply

variable {start : Reports}

theorem RepeatInv.step (h : RepeatInv lockId start row s) (hstep : Step lockId s a s')
    (hpurge : a ≠ .purge row.actorId) : RepeatInv lockId start row s' := by
  refine ⟨h.inv.step hstep, h.keeps.step hstep hpurge, ?_⟩
  intro j other reply hother hnames hreply hstart
  rcases step_cases hstep with ⟨_, -, rfl⟩ | ⟨i, call, -, hcall, -, -, rfl⟩ |
    ⟨i, call, id, phase, -, hcall, hphase, rfl⟩ | ⟨i, call, id, -, hcall, hphase, rfl⟩ |
    ⟨i, call, -, hcall, rfl⟩ | ⟨_, -, rfl⟩ | ⟨_, -, rfl⟩
  · rcases getElem?_begin hother with hother | rfl
    · exact h.answered j other reply hother hnames hreply hstart
    · cases hreply
  · rcases getElem?_setPhase hcall hother with ⟨rfl, rfl⟩ | ⟨-, hother⟩
    · cases hreply
    · exact h.answered j other reply hother hnames hreply hstart
  · rcases getElem?_setPhase hcall hother with ⟨rfl, rfl⟩ | ⟨-, hother⟩
    · obtain rfl : phase = .answered reply := hreply
      have hnamed : call.request.Names row := hnames
      show RepeatReply row call.request reply
      exact h.inv.repeatReply h.keeps hcall hnamed hphase
    · exact h.answered j other reply hother hnames hreply hstart
  · rcases getElem?_setPhase hcall hother with ⟨rfl, rfl⟩ | ⟨-, hother⟩
    · -- a transaction that inserted a row had found its key free
      have hbusy := h.inv.not_keyFree h.keeps hcall hnames
      rw [hphase] at hbusy
      cases hbusy
    · exact h.answered j other reply hother hnames hreply hstart
  · rcases getElem?_setPhase hcall hother with ⟨rfl, rfl⟩ | ⟨-, hother⟩
    · cases hreply
    · exact h.answered j other reply hother hnames hreply hstart
  · exact h.answered j other reply hother hnames hreply hstart
  · exact h.answered j other reply hother hnames hreply hstart

/-- A statement of a submission under the key of a kept report changes no row. -/
theorem RepeatInv.rows_eq (h : RepeatInv lockId start row s) (hstep : Step lockId s a s')
    (hact : a.submission = some i) (hcall : s.submissions[i]? = some call)
    (hnames : call.request.Names row) : s'.rows = s.rows := by
  rcases step_cases hstep with ⟨_, rfl, rfl⟩ | ⟨_, _, -, -, -, -, rfl⟩ |
    ⟨_, _, _, _, -, -, -, rfl⟩ | ⟨j, other, id, rfl, hother, hphase, rfl⟩ | ⟨_, _, -, -, rfl⟩ |
    ⟨_, rfl, rfl⟩ | ⟨_, rfl, rfl⟩
  · rfl
  · rfl
  · rfl
  · obtain rfl : j = i := Option.some.inj hact
    obtain rfl := Option.some.inj (hcall.symm.trans hother)
    have hbusy := h.inv.not_keyFree h.keeps hcall hnames
    rw [hphase] at hbusy
    cases hbusy
  · rfl
  · cases hact
  · cases hact

/-- Behind the lock, the same report gets its answer in two statements, whatever the quota. -/
theorem RepeatInv.answers (h : RepeatInv lockId start row s) (hcall : s.submissions[i]? = some call)
    (hnames : call.request.Names row) (hphase : call.phase = .locked)
    (hpayload : call.request.payload = row.payload) (id : Uuid) :
    ∃ status mid last, Step lockId s (.proceed i id) mid ∧ Step lockId mid (.proceed i id) last ∧
      last.submissions[i]? = some { call with phase := .answered (.accepted row.id status) } := by
  obtain ⟨old, hold, hid, hsame⟩ := h.inv.oldReport_eq h.keeps hnames
  obtain ⟨hlt, -⟩ := List.getElem?_eq_some_iff.mp hcall
  have hfirst : Control.proceed s.rows call.request id call.phase =
      some (.found row.id old.status) := by
    rw [hphase]
    simp only [Control.proceed, hold]
    rw [if_neg (not_not.mpr (hsame.trans hpayload.symm)), hid]
  have hmid : (s.setPhase i call (.found row.id old.status)).submissions[i]? =
      some { call with phase := .found row.id old.status } := by
    rw [setPhase, List.getElem?_set_self hlt]
  refine ⟨old.status, s.setPhase i call (.found row.id old.status),
    (s.setPhase i call (.found row.id old.status)).setPhase i
      { call with phase := .found row.id old.status } (.answered (.accepted row.id old.status)),
    ⟨?_, ?_⟩, ⟨?_, ?_⟩, ?_⟩
  · simp [Enabled, hcall, hfirst]
  · simp only [next, hcall, hfirst]
  · simp [Enabled, hmid, Control.proceed]
  · simp only [next, hmid, Control.proceed]
  · have hlt' : i < (s.submissions.set i
        { call with phase := .found row.id old.status }).length := by
      rwa [List.length_set]
    rw [setPhase]
    exact List.getElem?_set_self hlt'

/-- **A stored report decides what later submissions under its key are answered.** -/
theorem Inv.repeats (h : s.Inv lockId) (hrow : row ∈ s.rows) {tr : ReportRun} {t : Reports}
    (hrun : Run (Step lockId) s tr t) (hpurge : NotPurged tr row.actorId) :
    Repeats lockId s row tr t := by
  have hstart : RepeatInv lockId s row s :=
    ⟨h, .of_mem hrow, fun i call reply hcall _ _ hnot => absurd hcall hnot⟩
  have hkept := hrun.restrict
    (fun e : Transition Reports ReportAction => e.label ≠ .purge row.actorId) hpurge
  have hstep : ∀ m b m', RepeatInv lockId s row m →
      Step lockId m b m' ∧ b ≠ .purge row.actorId → RepeatInv lockId s row m' :=
    fun m b m' hm hs => hm.step hs.1 hs.2
  have hend : RepeatInv lockId s row t := hkept.invariant (RepeatInv lockId s row) hstep hstart
  constructor
  case answered => exact hend.answered
  case storesNothing =>
    intro e he i call hact hcall hnames
    obtain ⟨hpre, hs, -⟩ := hkept.invariant_mem (RepeatInv lockId s row) hstep hstart he
    exact hpre.rows_eq hs.1 hact hcall hnames
  case answers =>
    intro i call hcall hnames hphase hpayload id
    exact hend.answers hcall hnames hphase hpayload id

/-! ## Accepted submissions -/

/-- The submission has found or got a report of this id. -/
def Got (call : OpenSubmission) (id : Uuid) : Prop :=
  ∃ status, call.phase = .found id status ∨ call.phase = .answered (.accepted id status)

/-- An account's submissions that were told of a report were told of a kept one. -/
structure StoredInv (lockId : ActorId → Int) (account : ActorId) (s : Reports) : Prop where
  inv : s.Inv lockId
  stored : ∀ (i : Nat) (call : OpenSubmission) id, s.submissions[i]? = some call →
    call.request.storageKey = account → Got call id →
    ∃ row, s.Keeps row ∧ call.request.Names row ∧ row.id = id ∧ row.payload = call.request.payload

variable {account : ActorId}

/-- A statement that tells a submission of a report has found it, or found it before. -/
theorem StoredInv.got_of_proceed (h : StoredInv lockId account s) {id told : Uuid}
    {phase : SubmitPhase} (hcall : s.submissions[i]? = some call)
    (haccount : call.request.storageKey = account)
    (hphase : Control.proceed s.rows call.request id call.phase = some phase)
    (hgot : Got { call with phase } told) :
    ∃ row, s.Keeps row ∧ call.request.Names row ∧ row.id = told ∧
      row.payload = call.request.payload := by
  have hold := h.stored i call told hcall haccount
  obtain ⟨request, current⟩ := call
  obtain ⟨status, hgot⟩ := hgot
  cases current with
  | locked =>
      simp only [Control.proceed] at hphase
      split at hphase
      · rename_i old hfind
        obtain ⟨hmem, hnames⟩ := oldReport_eq_some hfind
        split at hphase
        · cases hphase
          rcases hgot with hgot | hgot <;> cases hgot
        · rename_i hsame
          cases hphase
          rcases hgot with hgot | hgot <;> cases hgot
          exact ⟨old, .of_mem hmem, hnames, rfl, not_not.mp hsame⟩
      · cases hphase
        rcases hgot with hgot | hgot <;> cases hgot
  | missing =>
      simp only [Control.proceed] at hphase
      split at hphase <;> cases hphase <;> rcases hgot with hgot | hgot <;> cases hgot
  | room =>
      simp only [Control.proceed] at hphase
      split at hphase
      · cases hphase
      · cases hphase
        rcases hgot with hgot | hgot <;> cases hgot
  | found old oldStatus =>
      cases hphase
      rcases hgot with hgot | hgot
      · cases hgot
      · cases hgot
        exact hold ⟨_, .inl rfl⟩
  | waiting | written _ | answered _ | abandoned => cases hphase

theorem StoredInv.step (h : StoredInv lockId account s) (hstep : Step lockId s a s')
    (hpurge : a ≠ .purge account) : StoredInv lockId account s' := by
  refine ⟨h.inv.step hstep, ?_⟩
  intro j other told hother haccount hgot
  have hkeep : ∀ row, s.Keeps row → other.request.Names row → s'.Keeps row := by
    intro row hrow hnames
    apply hrow.step hstep
    rw [hnames.2.2.1, haccount]
    exact hpurge
  have hbefore : s.submissions[j]? = some other → ∃ row, s'.Keeps row ∧ other.request.Names row ∧
      row.id = told ∧ row.payload = other.request.payload := by
    intro hother
    obtain ⟨row, hrow, hnames, hrest⟩ := h.stored j other told hother haccount hgot
    exact ⟨row, hkeep row hrow hnames, hnames, hrest⟩
  rcases step_cases hstep with ⟨_, -, rfl⟩ | ⟨i, call, -, hcall, -, -, rfl⟩ |
    ⟨i, call, id, phase, -, hcall, hphase, rfl⟩ | ⟨i, call, id, -, hcall, hphase, rfl⟩ |
    ⟨i, call, -, hcall, rfl⟩ | ⟨_, -, rfl⟩ | ⟨_, -, rfl⟩
  · rcases getElem?_begin hother with hother | rfl
    · exact hbefore hother
    · obtain ⟨status, hgot | hgot⟩ := hgot <;> cases hgot
  · rcases getElem?_setPhase hcall hother with ⟨rfl, rfl⟩ | ⟨-, hother⟩
    · obtain ⟨status, hgot | hgot⟩ := hgot <;> cases hgot
    · exact hbefore hother
  · rcases getElem?_setPhase hcall hother with ⟨rfl, rfl⟩ | ⟨-, hother⟩
    · have hactor : call.request.storageKey = account := haccount
      show ∃ row, s.Keeps row ∧ call.request.Names row ∧ row.id = told ∧
        row.payload = call.request.payload
      exact h.got_of_proceed hcall hactor hphase hgot
    · exact hbefore hother
  · rcases getElem?_setPhase hcall hother with ⟨rfl, rfl⟩ | ⟨-, hother⟩
    · obtain ⟨status, hgot | hgot⟩ := hgot <;> cases hgot
      exact ⟨newReport call.request _, .of_mem List.mem_cons_self,
        names_newReport.mpr ⟨rfl, rfl⟩, rfl, rfl⟩
    · exact hbefore hother
  · rcases getElem?_setPhase hcall hother with ⟨rfl, rfl⟩ | ⟨-, hother⟩
    · obtain ⟨status, hgot | hgot⟩ := hgot <;> cases hgot
    · exact hbefore hother
  · exact hbefore hother
  · exact hbefore hother

/-- An accepted submission has a row, until its account is purged. -/
theorem Init.stored_of_run {t : Reports} {tr : ReportRun} (h : s.Init)
    (hrun : Run (Step lockId) s tr t) (hpurge : NotPurged tr account) :
    StoredInv lockId account t := by
  have hkept := hrun.restrict
    (fun e : Transition Reports ReportAction => e.label ≠ .purge account) hpurge
  have hstart : StoredInv lockId account s := by
    refine ⟨h.inv, ?_⟩
    intro i call id hcall
    rw [h.submissions] at hcall
    cases hcall
  exact hkept.invariant (StoredInv lockId account) (fun m b m' hm hs => hm.step hs.1 hs.2) hstart

end Reports

/-- **Any interleaving of submissions, deliveries and purges keeps the hourly quota of every
account, and a stored report answers its idempotency key, whatever the quota.** -/
theorem reports_guaranteed (lockId : ActorId → Int) {init s : Reports} {tr : ReportRun}
    (hinit : init.Init) (hrun : Run (Reports.Step lockId) init tr s) :
    ReportGuarantees lockId tr s := by
  have hinv : s.Inv lockId := Reports.inv_of_run hrun hinit.inv
  constructor
  case quota => exact hinv.withinQuota
  case stored =>
    intro call hcall id status hphase hpurge
    obtain ⟨i, hi⟩ := List.mem_iff_getElem?.mp hcall
    obtain ⟨row, ⟨kept, hmem, hiff, -, hid, hpayload⟩, hnames, hrow, hsame⟩ :=
      (hinit.stored_of_run hrun hpurge).stored i call id hi rfl ⟨status, .inr hphase⟩
    exact ⟨kept, hmem, (hiff _).mpr hnames, hid.trans hrow, hpayload.trans hsame⟩
  case repeated =>
    intro row hrow tr' t hrun' hpurge
    exact hinv.repeats hrow hrun' hpurge

/-- A report of one account under a key, sent at a moment. -/
def sampleSubmission (key message : String) (now : Int) : Submission :=
  ⟨⟨7, Uuid.seven_ne_nil⟩, key, ⟨message, none, "test"⟩, now⟩

/-- The submission with a number is sent and stored. -/
def storedSubmission (i : Nat) : List ReportAction :=
  let id : Uuid := 10 + i
  [.begin (sampleSubmission (toString i) "The page is empty." i), .lock i, .proceed i id,
    .proceed i id, .proceed i id, .commit i]

/-- One report is sent twice at once; the one that began later gets the lock first. Nine more
reports fill the quota. The next one, a repeat with another message and a repeat are sent then. -/
def sampleSubmissions : List ReportAction :=
  [.begin (sampleSubmission "voices" "No voice is shown." 0),
      .begin (sampleSubmission "voices" "No voice is shown." 1),
      .lock 1, .proceed 1 5, .proceed 1 5, .proceed 1 5, .commit 1, .lock 0, .proceed 0 6,
      .proceed 0 6] ++
    (List.range' 2 9).flatMap storedSubmission ++
    [.begin (sampleSubmission "more" "The page is empty." 20), .lock 11, .proceed 11 7,
      .proceed 11 7,
      .begin (sampleSubmission "voices" "All voices are shown." 21), .lock 12, .proceed 12 8,
      .begin (sampleSubmission "voices" "No voice is shown." 22), .lock 13, .proceed 13 9,
      .proceed 13 9]

theorem reports_guaranteed_sample :
    ReportGuarantees (fun account => (account.asUuid : Int))
      (play Reports.next ⟨[], []⟩ sampleSubmissions)
      (playEnd Reports.next ⟨[], []⟩ sampleSubmissions) ∧
    (playEnd Reports.next ⟨[], []⟩ sampleSubmissions).rows.length = reportLimit ∧
    ((playEnd Reports.next ⟨[], []⟩ sampleSubmissions).submissions.map
      OpenSubmission.phase).drop 11 =
        [.answered .hourlyLimit, .answered .conflict, .answered (.accepted 5 .queued)] := by
  refine ⟨?_, by decide +kernel, by decide +kernel⟩
  have hinit : (⟨[], []⟩ : Reports).Init := ⟨rfl, rfl⟩
  apply reports_guaranteed _ hinit
  exact run_play _ _ (fun _ _ henabled => ⟨henabled, rfl⟩) (by decide +kernel)

end Waveform.Control
