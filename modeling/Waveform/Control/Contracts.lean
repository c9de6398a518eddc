import Waveform.Library.LabelledRun
import Waveform.Store.Idempotency

/-!
# The lifecycle of an API contract

A version of the API is active, then deprecated, then sunset. Requests, the operator's deprecation
and the maintenance worker change its row, each in a transaction whose `now()` is the instant it
started. The transactions are READ COMMITTED: a statement reads the rows committed when it starts, a
row that another transaction locked is waited for, and a statement that waited looks at its own row
again, but not at the others it has read.

- `advance_cases`, `Advance.effect`: the ways a transaction can go on, and what each does to the
  rows.
- `lifecycle_of_upToDate`: the lifecycle holds over every run in which no deprecation acts on a
  successor that is active no more and no request replaces a later request's stamp.
- `not_forall_lifecycle`: two deprecations that name each other leave no active version, and a
  request overtaken by another shortens the quiet period.
-/

set_option autoImplicit false

namespace Waveform.Control

open Waveform.Domain LabelledRun

/-! ## Contracts -/

/-- The `state` column. -/
inductive ContractState where
  | active
  | deprecated
  | sunset
  deriving DecidableEq

/-- The moves of the lifecycle; a step may also leave a state as it is. -/
inductive ContractState.Moves : ContractState → ContractState → Prop where
  | stays (state : ContractState) : Moves state state
  | deprecated : Moves .active .deprecated
  | sunset : Moves .deprecated .sunset

/-- A row of `waveform_api_contracts`, without its version. -/
structure Contract where
  state : ContractState
  successor : Option String := none
  deprecatedAt : Option Nat := none
  lastRequestAt : Option Nat := none
  sunsetAt : Option Nat := none

/-- The table. -/
abbrev Contracts := String → Option Contract

/-- The version is active. -/
def Contracts.IsActive (rows : Contracts) (version : String) : Prop :=
  ∃ c ∈ rows version, c.state = .active

/-- `interval '7 days'`. -/
def quietDays : Nat := 7 * Store.microsPerDay

/-- `GREATEST(deprecated_at, COALESCE(last_request_at, deprecated_at)) <= now() - interval '7
days'`, where `GREATEST` passes over NULL. -/
def Contract.quiet (c : Contract) (now : Nat) : Bool :=
  (max c.deprecatedAt (c.lastRequestAt.or c.deprecatedAt)).any fun used =>
    decide (used + quietDays ≤ now)

/-- `EXISTS(SELECT 1 … next WHERE next.version = c.successor AND next.state = 'active')`. -/
def Contract.hasActiveSuccessor (c : Contract) (rows : Contracts) : Bool :=
  c.successor.any fun successor => (rows successor).any fun next => next.state = .active

/-- The row of a sunset version. -/
def Contract.sunsetted (c : Contract) (now : Nat) : Contract :=
  { c with state := .sunset, sunsetAt := some now }

/-- The row after an admitted request. -/
def Contract.requested (c : Contract) (now : Nat) : Contract :=
  { c with lastRequestAt := some now }

/-- The row after a deprecation: the start time is kept. -/
def Contract.deprecatedFor (c : Contract) (successor : String) (now : Nat) : Contract :=
  { c with
    state := .deprecated
    successor := some successor
    deprecatedAt := c.deprecatedAt.or (some now) }

/-! ## Transactions -/

/-- The name of a transaction. -/
abbrev TxId := Nat

/-- How far a request has come: nothing read yet, its row locked, and its decision taken. The state
is the one that the request goes by. -/
inductive RequestPhase where
  | started
  | locked (state : ContractState)
  | decided (state : ContractState) (sunset : Bool)

/-- A running transaction with its `now()`. A statement that has begun carries its snapshot; the
worker's also carries the rows still to visit and those it has claimed. -/
inductive Transaction where
  | request (version : String) (now : Nat) (phase : RequestPhase)
  | deprecation (version successor : String) (now : Nat) (snapshot : Option Contracts)
  | sunset (now : Nat)
  | sunsetScan (now : Nat) (snapshot : Contracts) (todo claimed : List String)

/-- Its `now()`. -/
def Transaction.now : Transaction → Nat
  | .request _ now _ | .deprecation _ _ now _ | .sunset now | .sunsetScan now _ _ _ => now

/-- The committed rows, the row locks, the running transactions, and the requests admitted so far
with their `now()`. -/
structure Lifecycle where
  rows : Contracts
  clock : Nat
  lockedBy : String → Option TxId
  running : TxId → Option Transaction
  admitted : List (String × Nat)

/-- What can begin. -/
inductive ContractCall where
  | contractRequest (version : String)
  | deprecation (version successor : String)
  | sunsetContracts

/-- Time passes, a transaction begins, or a transaction takes its next step; the scan is the order
in which the worker's statement visits the rows. -/
inductive ContractAction where
  | tick (now : Nat)
  | begin (tx : TxId) (call : ContractCall)
  | advance (tx : TxId) (scan : List String)

namespace Lifecycle

/-- The transaction goes on. -/
def goOn (s : Lifecycle) (tx : TxId) (transaction : Transaction) : Lifecycle :=
  { s with running := Function.update s.running tx (some transaction) }

/-- The transaction ends. -/
def finish (s : Lifecycle) (tx : TxId) : Lifecycle :=
  { s with running := Function.update s.running tx none }

/-- The transaction takes the lock of a row. -/
def lock (s : Lifecycle) (tx : TxId) (version : String) : Lifecycle :=
  { s with lockedBy := Function.update s.lockedBy version (some tx) }

/-- Committing releases the locks of the rows. -/
def unlock (s : Lifecycle) (versions : List String) : Lifecycle :=
  { s with lockedBy := fun version => if version ∈ versions then none else s.lockedBy version }

/-- A committed UPDATE of the rows of some versions. -/
def update (s : Lifecycle) (versions : List String) (change : Contract → Contract) : Lifecycle :=
  { s with rows := fun version =>
      if version ∈ versions then (s.rows version).map change else s.rows version }

/-- `contract_request`. -/
def advanceRequest (s : Lifecycle) (tx : TxId) (version : String) (now : Nat) :
    RequestPhase → Option Lifecycle
  | .started =>
      match s.rows version with
      | none => some (s.finish tx)
      | some c =>
          if s.lockedBy version = none then
            some ((s.lock tx version).goOn tx (.request version now (.locked c.state)))
          else none
  | .locked state =>
      let sunset := state = .deprecated &&
        (s.rows version).any fun c => c.quiet now && c.hasActiveSuccessor s.rows
      let decided := if sunset then .sunset else state
      some (s.goOn tx (.request version now (.decided decided sunset)))
  | .decided state sunset =>
      let ended := (s.unlock [version]).finish tx
      if sunset then some (ended.update [version] (·.sunsetted now))
      else if state = .sunset then some ended
      else
        some { ended.update [version] (·.requested now) with
          admitted := (version, now) :: s.admitted }

/-- What the UPDATE of `deprecate` asks of its own row. -/
def deprecatable (c : Contract) : Bool := c.state = .active || c.state = .deprecated

/-- `deprecate`. -/
def advanceDeprecate (s : Lifecycle) (tx : TxId) (version successor : String) (now : Nat) :
    Option Contracts → Option Lifecycle
  | none => some (s.goOn tx (.deprecation version successor now (some s.rows)))
  | some snapshot =>
      if (snapshot version).any deprecatable && (snapshot successor).any (·.state = .active) then
        if s.lockedBy version = none then
          if (s.rows version).any deprecatable then
            some ((s.finish tx).update [version] (·.deprecatedFor successor now))
          else some (s.finish tx)
        else none
      else some (s.finish tx)

/-- What the UPDATE of `sunset_contracts` asks of a row, with the other rows as in its snapshot. -/
def expired (snapshot : Contracts) (now : Nat) (c : Contract) : Bool :=
  c.state = .deprecated && c.quiet now && c.hasActiveSuccessor snapshot

/-- `sunset_contracts`, once its statement has read the rows. -/
def advanceScan (s : Lifecycle) (tx : TxId) (now : Nat) (snapshot : Contracts)
    (claimed : List String) : List String → Option Lifecycle
  | [] => some (((s.unlock claimed).finish tx).update claimed (·.sunsetted now))
  | version :: todo =>
      if s.lockedBy version = none then
        if (s.rows version).any (expired snapshot now) then
          some ((s.lock tx version).goOn tx (.sunsetScan now snapshot todo (version :: claimed)))
        else some (s.goOn tx (.sunsetScan now snapshot todo claimed))
      else none

/-- The next step of a transaction, unless it waits for a lock. -/
def advance (s : Lifecycle) (tx : TxId) (scan : List String) : Transaction → Option Lifecycle
  | .request version now phase => s.advanceRequest tx version now phase
  | .deprecation version successor now snapshot =>
      s.advanceDeprecate tx version successor now snapshot
  | .sunset now =>
      let todo := scan.filter fun version => (s.rows version).any (expired s.rows now)
      some (s.goOn tx (.sunsetScan now s.rows todo []))
  | .sunsetScan now snapshot todo claimed => s.advanceScan tx now snapshot claimed todo

/-- What a call begins with; a deprecation in favour of itself is refused at once. -/
def opening (now : Nat) : ContractCall → Option Transaction
  | .contractRequest version => some (.request version now .started)
  | .deprecation version successor =>
      if version = successor then none else some (.deprecation version successor now none)
  | .sunsetContracts => some (.sunset now)

/-- The next state, where the action can be taken. -/
def next (s : Lifecycle) : ContractAction → Option Lifecycle
  | .tick now => if s.clock ≤ now then some { s with clock := now } else none
  | .begin tx call =>
      if (s.running tx).isNone then (opening s.clock call).map (s.goOn tx) else none
  | .advance tx scan => (s.running tx).bind (s.advance tx scan)

/-- The steps of the contracts. -/
def Step (s : Lifecycle) (action : ContractAction) (s' : Lifecycle) : Prop :=
  s.next action = some s'

/-- A table on which nothing runs yet. -/
structure Initial (s : Lifecycle) : Prop where
  running : ∀ tx, s.running tx = none
  lockedBy : ∀ version, s.lockedBy version = none
  admitted : s.admitted = []

/-! ## What a step can do -/

/-- The next step of a transaction, one constructor for each way it can go. -/
inductive Advance (s : Lifecycle) (tx : TxId) : Transaction → Lifecycle → Prop where
  | unsupported {version : String} {now : Nat} :
      Advance s tx (.request version now .started) (s.finish tx)
  | locks {version : String} {now : Nat} {c : Contract} (hrow : s.rows version = some c)
      (hfree : s.lockedBy version = none) :
      Advance s tx (.request version now .started)
        ((s.lock tx version).goOn tx (.request version now (.locked c.state)))
  | quiet {version : String} {now : Nat} {c : Contract} (hrow : s.rows version = some c)
      (hquiet : c.quiet now = true) (hsuccessor : c.hasActiveSuccessor s.rows = true) :
      Advance s tx (.request version now (.locked .deprecated))
        (s.goOn tx (.request version now (.decided .sunset true)))
  | decides {version : String} {now : Nat} {state : ContractState} :
      Advance s tx (.request version now (.locked state))
        (s.goOn tx (.request version now (.decided state false)))
  | sunsets {version : String} {now : Nat} {state : ContractState} :
      Advance s tx (.request version now (.decided state true))
        (((s.unlock [version]).finish tx).update [version] (·.sunsetted now))
  | refuses {version : String} {now : Nat} :
      Advance s tx (.request version now (.decided .sunset false))
        ((s.unlock [version]).finish tx)
  | admits {version : String} {now : Nat} {state : ContractState} (hstate : state ≠ .sunset) :
      Advance s tx (.request version now (.decided state false))
        { ((s.unlock [version]).finish tx).update [version] (·.requested now) with
          admitted := (version, now) :: s.admitted }
  | reads {version successor : String} {now : Nat} :
      Advance s tx (.deprecation version successor now none)
        (s.goOn tx (.deprecation version successor now (some s.rows)))
  | leaves {version successor : String} {now : Nat} {snapshot : Contracts} :
      Advance s tx (.deprecation version successor now (some snapshot)) (s.finish tx)
  | deprecates {version successor : String} {now : Nat} {snapshot : Contracts} {c : Contract}
      (hsnapshot : snapshot.IsActive successor) (hfree : s.lockedBy version = none)
      (hrow : s.rows version = some c) (hstate : c.state ≠ .sunset) :
      Advance s tx (.deprecation version successor now (some snapshot))
        ((s.finish tx).update [version] (·.deprecatedFor successor now))
  | scans {now : Nat} {todo : List String} :
      Advance s tx (.sunset now) (s.goOn tx (.sunsetScan now s.rows todo []))
  | claims {now : Nat} {snapshot : Contracts} {version : String} {todo claimed : List String}
      {c : Contract} (hfree : s.lockedBy version = none) (hrow : s.rows version = some c)
      (hexpired : expired snapshot now c = true) :
      Advance s tx (.sunsetScan now snapshot (version :: todo) claimed)
        ((s.lock tx version).goOn tx (.sunsetScan now snapshot todo (version :: claimed)))
  | passes {now : Nat} {snapshot : Contracts} {version : String} {todo claimed : List String} :
      Advance s tx (.sunsetScan now snapshot (version :: todo) claimed)
        (s.goOn tx (.sunsetScan now snapshot todo claimed))
  | commits {now : Nat} {snapshot : Contracts} {claimed : List String} :
      Advance s tx (.sunsetScan now snapshot [] claimed)
        (((s.unlock claimed).finish tx).update claimed (·.sunsetted now))

theorem isActive_of_any {rows : Contracts} {version : String}
    (h : (rows version).any (fun c => decide (c.state = .active)) = true) :
    rows.IsActive version := by
  obtain ⟨c, hrow, hstate⟩ := (Option.any_eq_true _ _).mp h
  exact ⟨c, hrow, of_decide_eq_true hstate⟩

theorem hasActiveSuccessor_isActive {rows : Contracts} {c : Contract}
    (h : c.hasActiveSuccessor rows = true) : ∃ version, rows.IsActive version := by
  unfold Contract.hasActiveSuccessor at h
  cases hsuccessor : c.successor with
  | none =>
      rw [hsuccessor] at h
      cases h
  | some successor =>
      rw [hsuccessor] at h
      exact ⟨successor, isActive_of_any h⟩

/-- **Every step of a transaction goes one of these ways.** -/
theorem advance_cases {s s' : Lifecycle} {tx : TxId} {scan : List String} {t : Transaction}
    (h : s.advance tx scan t = some s') : Advance s tx t s' := by
  cases t with
  | request version now phase =>
      cases phase with
      | started =>
          simp only [advance, advanceRequest] at h
          cases hrow : s.rows version with
          | none =>
              rw [hrow] at h
              cases h
              exact .unsupported
          | some c =>
              rw [hrow] at h
              obtain ⟨hfree, heq⟩ := Option.ite_none_right_eq_some.mp h
              cases heq
              exact .locks hrow hfree
      | locked state =>
          simp only [advance, advanceRequest] at h
          cases h
          split
          -- The contract is deprecated, quiet and has a successor: the request sunsets it.
          · rename_i hsunset
            obtain ⟨hstate, hquiet⟩ := Bool.and_eq_true_iff.mp hsunset
            obtain ⟨c, hrow, hc⟩ := (Option.any_eq_true _ _).mp hquiet
            obtain ⟨hquiet, hsuccessor⟩ := Bool.and_eq_true_iff.mp hc
            cases of_decide_eq_true hstate
            rw [hsunset]
            exact .quiet hrow hquiet hsuccessor
          · rename_i hsunset
            rw [Bool.not_eq_true] at hsunset
            rw [hsunset]
            exact .decides
      | decided state sunset =>
          cases sunset with
          | true =>
              cases h
              exact .sunsets
          | false =>
              simp only [advance, advanceRequest, Bool.false_eq_true, if_false] at h
              split at h
              · rename_i hstate
                cases h
                cases hstate
                exact .refuses
              · rename_i hstate
                cases h
                exact .admits hstate
  | deprecation version successor now snapshot =>
      cases snapshot with
      | none =>
          cases h
          exact .reads
      | some snapshot =>
          simp only [advance, advanceDeprecate] at h
          split at h
          · rename_i hcandidate
            obtain ⟨hfree, h⟩ := Option.ite_none_right_eq_some.mp h
            -- The snapshot allows it; the row as it is now may not.
            split at h
            · rename_i hrow
              obtain ⟨c, hrow, hstate⟩ := (Option.any_eq_true _ _).mp hrow
              cases h
              refine .deprecates (isActive_of_any (Bool.and_eq_true_iff.mp hcandidate).2) hfree
                hrow ?_
              intro hsunset
              simp [deprecatable, hsunset] at hstate
            · cases h
              exact .leaves
          · cases h
            exact .leaves
  | sunset now =>
      cases h
      exact .scans
  | sunsetScan now snapshot todo claimed =>
      cases todo with
      | nil =>
          cases h
          exact .commits
      | cons version todo =>
          simp only [advance, advanceScan] at h
          obtain ⟨hfree, h⟩ := Option.ite_none_right_eq_some.mp h
          -- The row is looked at again under its lock.
          split at h
          · rename_i hrow
            obtain ⟨c, hrow, hexpired⟩ := (Option.any_eq_true _ _).mp hrow
            cases h
            exact .claims hfree hrow hexpired
          · cases h
            exact .passes

/-! ## What transactions know -/

/-- The transaction has the row of the version locked, and the row is of a kind. -/
def Holds (s : Lifecycle) (tx : TxId) (version : String) (kind : Contract → Prop) : Prop :=
  s.lockedBy version = some tx ∧ ∃ c, s.rows version = some c ∧ kind c

/-- A deprecated version without requests for seven days before an instant. -/
def Expired (now : Nat) (c : Contract) : Prop := c.state = .deprecated ∧ c.quiet now = true

/-- What a transaction knows of the rows it has locked, at each point. -/
def Knows (s : Lifecycle) (tx : TxId) : Transaction → Prop
  | .request version _ (.locked state) => s.Holds tx version fun c => c.state = state
  | .request version _ (.decided state false) => s.Holds tx version fun c => c.state = state
  | .request version now (.decided _ true) => s.Holds tx version (Expired now)
  | .sunsetScan now snapshot _ claimed => ∀ version ∈ claimed,
      s.Holds tx version (Expired now) ∧ ∃ successor, snapshot.IsActive successor
  | .deprecation version successor _ _ => version ≠ successor
  | .request _ _ .started | .sunset _ => True

/-- The transaction has seen an active version. -/
def SawActive : Transaction → Prop
  | .request _ _ (.decided _ true) => True
  | .sunsetScan _ snapshot _ _ => ∃ version, snapshot.IsActive version
  | _ => False

/-- What holds between any two steps: every transaction has started by now and knows what it goes
by, and when one has seen an active version there is one. -/
structure Consistent (s : Lifecycle) : Prop where
  started : ∀ tx t, s.running tx = some t → t.now ≤ s.clock
  knows : ∀ tx t, s.running tx = some t → s.Knows tx t
  active : ∀ tx t, s.running tx = some t → SawActive t → ∃ version, s.rows.IsActive version

/-- What a step of a transaction leaves to the others. -/
structure Frame (s : Lifecycle) (tx : TxId) (s' : Lifecycle) : Prop where
  running : ∀ other, other ≠ tx → s'.running other = s.running other
  lockedRow : ∀ version other, other ≠ tx → s.lockedBy version = some other →
    s'.lockedBy version = some other ∧ s'.rows version = s.rows version

/-- A transaction knows what it knew where its locked rows stay. -/
theorem Knows.keep {s s' : Lifecycle} {tx : TxId} {t : Transaction} (h : s.Knows tx t)
    (hkeep : ∀ version, s.lockedBy version = some tx →
      s'.lockedBy version = some tx ∧ s'.rows version = s.rows version) : s'.Knows tx t := by
  have hholds : ∀ version kind, s.Holds tx version kind → s'.Holds tx version kind := by
    rintro version kind ⟨hlock, c, hrow, hkind⟩
    obtain ⟨hlock', hrow'⟩ := hkeep version hlock
    exact ⟨hlock', c, hrow'.trans hrow, hkind⟩
  cases t with
  | request version now phase =>
      cases phase with
      | started => trivial
      | locked state => exact hholds _ _ h
      | decided state sunset => cases sunset <;> exact hholds _ _ h
  | deprecation version successor now snapshot => exact h
  | sunset now => trivial
  | sunsetScan now snapshot todo claimed =>
      exact fun version hclaimed => ⟨hholds _ _ (h version hclaimed).1, (h version hclaimed).2⟩

section Steps

variable {s s' : Lifecycle} {tx : TxId} {t : Transaction}

@[simp] theorem update_rows_of_notMem {versions : List String} {change : Contract → Contract}
    {version : String} (h : version ∉ versions) :
    (s.update versions change).rows version = s.rows version := if_neg h

@[simp] theorem update_rows_of_mem {versions : List String} {change : Contract → Contract}
    {version : String} (h : version ∈ versions) :
    (s.update versions change).rows version = (s.rows version).map change := if_pos h

/-- A step that only touches rows that no other transaction has locked. -/
theorem Frame.of_rows {versions : List String}
    (hrunning : ∀ other, other ≠ tx → s'.running other = s.running other)
    (hlocked : ∀ version, version ∉ versions → s'.lockedBy version = s.lockedBy version)
    (hrows : ∀ version, version ∉ versions → s'.rows version = s.rows version)
    (hown : ∀ version ∈ versions, s.lockedBy version = none ∨ s.lockedBy version = some tx) :
    Frame s tx s' where
  running := hrunning
  lockedRow := by
    intro version other hne hlock
    have hversion : version ∉ versions := by
      intro hmem
      rcases hown version hmem with hfree | hmine
      · rw [hlock] at hfree
        cases hfree
      · rw [hlock] at hmine
        exact hne (Option.some.inj hmine)
    exact ⟨(hlocked version hversion).trans hlock, hrows version hversion⟩

/-- **A step of a transaction leaves the rows and locks that others hold.** -/
theorem Advance.frame (h : Advance s tx t s') (hknows : s.Knows tx t) : Frame s tx s' := by
  have hrunning : ∀ {t' : Option Transaction} (other : TxId), other ≠ tx →
      Function.update s.running tx t' other = s.running other :=
    fun other hne => Function.update_of_ne hne ..
  have hkeeps : ∀ t', Frame s tx { s with running := Function.update s.running tx t' } := by
    intro t'
    exact ⟨hrunning, fun _ _ _ hlock => ⟨hlock, rfl⟩⟩
  cases h with
  | unsupported | leaves | quiet | decides | reads | scans | passes => exact hkeeps _
  | @locks version _ _ _ hfree | @claims _ _ version _ _ _ hfree =>
      refine @Frame.of_rows s _ tx [version] hrunning ?_ ?_ ?_
      · intro other hother
        exact Function.update_of_ne (List.ne_of_not_mem_cons hother) ..
      · intro other _
        rfl
      · intro other hother
        rw [List.mem_singleton.mp hother]
        exact .inl hfree
  | @sunsets version | @refuses version | @admits version =>
      refine @Frame.of_rows s _ tx [version] hrunning ?_ ?_ ?_
      · intro other hother
        exact if_neg hother
      · intro other hother
        first | rfl | exact if_neg hother
      · intro other hother
        rw [List.mem_singleton.mp hother]
        exact .inr hknows.1
  | @deprecates version _ _ _ _ _ hfree =>
      refine @Frame.of_rows s _ tx [version] hrunning ?_ ?_ ?_
      · intro other _
        rfl
      · intro other hother
        exact if_neg hother
      · intro other hother
        rw [List.mem_singleton.mp hother]
        exact .inl hfree
  | @commits _ _ claimed =>
      refine @Frame.of_rows s _ tx claimed hrunning ?_ ?_ ?_
      · intro other hother
        exact if_neg hother
      · intro other hother
        exact if_neg hother
      · intro other hother
        exact .inr (hknows other hother).1.1

/-- A transaction that goes on knows what it goes by. -/
theorem Advance.knows (h : Advance s tx t s') (hknows : s.Knows tx t) {t' : Transaction}
    (ht' : s'.running tx = some t') : s'.Knows tx t' := by
  have hended : Function.update s.running tx none tx = some t' → s'.Knows tx t' := by
    intro hended
    rw [Function.update_self] at hended
    cases hended
  have hnext : ∀ {next : Transaction}, Function.update s.running tx (some next) tx = some t' →
      s'.Knows tx next → s'.Knows tx t' := by
    intro next hnext hknown
    rw [Function.update_self] at hnext
    cases hnext
    exact hknown
  cases h with
  | unsupported | leaves | sunsets | refuses | admits _ | deprecates _ _ _ _ | commits =>
      exact hended ht'
  | reads => exact hnext ht' hknows
  | scans => exact hnext ht' fun version hversion => nomatch hversion
  | locks hrow hfree =>
      exact hnext ht' ⟨Function.update_self .., _, hrow, rfl⟩
  | quiet hrow hquiet hsuccessor =>
      obtain ⟨hlock, c, hrow', hstate⟩ := hknows
      cases hrow.symm.trans hrow'
      exact hnext ht' ⟨hlock, _, hrow, hstate, hquiet⟩
  | decides => exact hnext ht' hknows
  | @claims _ _ version _ _ c hfree hrow hexpired =>
      refine hnext ht' fun other hother => ?_
      rcases List.mem_cons.mp hother with rfl | hclaimed
      · obtain ⟨hexpired, hsuccessor⟩ := Bool.and_eq_true_iff.mp hexpired
        obtain ⟨hstate, hquiet⟩ := Bool.and_eq_true_iff.mp hexpired
        exact ⟨⟨Function.update_self .., c, hrow, of_decide_eq_true hstate, hquiet⟩,
          hasActiveSuccessor_isActive hsuccessor⟩
      · obtain ⟨⟨hlock, hkind⟩, hseen⟩ := hknows other hclaimed
        have hne : other ≠ version := by
          rintro rfl
          rw [hfree] at hlock
          cases hlock
        exact ⟨⟨(Function.update_of_ne hne ..).trans hlock, hkind⟩, hseen⟩
  | passes => exact hnext ht' hknows

/-! ## What a step does to the rows -/

/-- What a transaction has read still holds, as far as the lifecycle rests on it: the successor of a
version that is about to be deprecated is active, and no later request has stamped the row. -/
def Fresh (s : Lifecycle) : Transaction → Prop
  | .deprecation version successor _ (some snapshot) =>
      s.rows.IsActive version → snapshot.IsActive successor → s.rows.IsActive successor
  | .request version now (.decided state false) =>
      state ≠ .sunset → ∀ c ∈ s.rows version, ∀ last ∈ c.lastRequestAt, last ≤ now
  | _ => True

/-- The action is no step of a transaction that goes by what holds no more. -/
def UpToDate (s : Lifecycle) : ContractAction → Prop
  | .advance tx _ => ∀ t ∈ s.running tx, s.Fresh t
  | .tick _ | .begin _ _ => True

/-- What a step that is up to date can do to the committed rows and the admissions. -/
inductive Effect (s : Lifecycle) : Lifecycle → Prop where
  | unchanged {s' : Lifecycle} (hrows : s'.rows = s.rows) (hadmitted : s'.admitted = s.admitted) :
      Effect s s'
  | admits {s' : Lifecycle} {version : String} {now : Nat} {c : Contract}
      (hrow : s.rows version = some c) (hstate : c.state ≠ .sunset)
      (hlast : ∀ last ∈ c.lastRequestAt, last ≤ now)
      (hrows : s'.rows = (s.update [version] (·.requested now)).rows)
      (hadmitted : s'.admitted = (version, now) :: s.admitted) : Effect s s'
  | sunsets {s' : Lifecycle} {claimed : List String} {now : Nat} (hnow : now ≤ s.clock)
      (hexpired : ∀ version ∈ claimed, ∃ c, s.rows version = some c ∧ Expired now c)
      (hactive : claimed ≠ [] → ∃ version, s.rows.IsActive version)
      (hrows : s'.rows = (s.update claimed (·.sunsetted now)).rows)
      (hadmitted : s'.admitted = s.admitted) : Effect s s'
  | deprecates {s' : Lifecycle} {version successor : String} {now : Nat} {c : Contract}
      (hrow : s.rows version = some c) (hstate : c.state ≠ .sunset) (hne : version ≠ successor)
      (hsuccessor : s.rows.IsActive version → s.rows.IsActive successor)
      (hrows : s'.rows = (s.update [version] (·.deprecatedFor successor now)).rows)
      (hadmitted : s'.admitted = s.admitted) : Effect s s'

/-- **A step of a transaction that is up to date has one of these effects.** -/
theorem Advance.effect (h : Advance s tx t s') (hstarted : t.now ≤ s.clock)
    (hknows : s.Knows tx t) (hfresh : s.Fresh t)
    (hactive : SawActive t → ∃ version, s.rows.IsActive version) : Effect s s' := by
  cases h with
  | unsupported | leaves | quiet | decides | reads | scans | passes | locks _ _ | claims _ _ _
  | refuses => exact .unchanged rfl rfl
  | sunsets =>
      refine .sunsets hstarted (fun version hversion => ?_) (fun _ => hactive trivial) rfl rfl
      rw [List.mem_singleton.mp hversion]
      exact hknows.2
  | admits hstate =>
      obtain ⟨_, c, hrow, rfl⟩ := hknows
      exact .admits hrow hstate (hfresh hstate c hrow) rfl rfl
  | deprecates hsnapshot _ hrow hstate =>
      exact .deprecates hrow hstate hknows (fun hversion => hfresh hversion hsnapshot) rfl rfl
  | commits =>
      refine .sunsets hstarted (fun version hversion => (hknows version hversion).1.2)
        (fun hne => ?_) rfl rfl
      obtain ⟨version, hversion⟩ := List.exists_mem_of_ne_nil _ hne
      exact hactive (hknows version hversion).2

/-- A transaction sees an active version where there is one. -/
theorem Advance.sawActive (h : Advance s tx t s') {t' : Transaction}
    (ht' : s'.running tx = some t') (hsaw : SawActive t') :
    SawActive t ∨ ∃ version, s.rows.IsActive version := by
  have hnext : ∀ {next : Transaction}, Function.update s.running tx (some next) tx = some t' →
      SawActive next := by
    intro next hnext
    rw [Function.update_self] at hnext
    cases hnext
    exact hsaw
  have hended : ∀ {α : Prop}, Function.update s.running tx none tx = some t' → α := by
    intro α hended
    rw [Function.update_self] at hended
    cases hended
  cases h with
  | unsupported | leaves | sunsets | refuses | admits _ | deprecates _ _ _ _ | commits =>
      exact hended ht'
  | reads | decides | locks _ _ => exact (hnext ht').elim
  | scans => exact .inr (hnext ht')
  | quiet _ _ hsuccessor => exact .inr (hasActiveSuccessor_isActive hsuccessor)
  | claims _ _ _ | passes =>
      have hseen := hnext ht'
      exact .inl hseen

/-- The row of a version before and after a step. -/
theorem update_rows_eq_some {versions : List String} {change : Contract → Contract}
    {version : String} {c : Contract} (h : s.rows version = some c) :
    (s.update versions change).rows version =
      some (if version ∈ versions then change c else c) := by
  by_cases hmem : version ∈ versions
  · rw [update_rows_of_mem hmem, h, if_pos hmem]
    rfl
  · rw [update_rows_of_notMem hmem, h, if_neg hmem]

/-- **Where a version is active, one stays so.** -/
theorem Effect.active (h : Effect s s') (hactive : ∃ version, s.rows.IsActive version) :
    ∃ version, s'.rows.IsActive version := by
  obtain ⟨version, c, hrow, hstate⟩ := hactive
  cases h with
  | unchanged hrows _ => exact ⟨version, c, by rw [hrows]; exact hrow, hstate⟩
  | admits _ _ _ hrows _ =>
      refine ⟨version, _, hrows ▸ update_rows_eq_some hrow, ?_⟩
      split <;> exact hstate
  | sunsets _ hexpired _ hrows _ =>
      refine ⟨version, _, hrows ▸ update_rows_eq_some hrow, ?_⟩
      split
      · rename_i hmem
        obtain ⟨other, hother, hdeprecated, _⟩ := hexpired version hmem
        cases hrow.symm.trans hother
        rw [hstate] at hdeprecated
        cases hdeprecated
      · exact hstate
  | @deprecates deprecated successor _ _ _ _ hne hsuccessor hrows _ =>
      by_cases hversion : version = deprecated
      · subst hversion
        obtain ⟨next, hnext, hactive⟩ := hsuccessor ⟨c, hrow, hstate⟩
        refine ⟨successor, _, hrows ▸ update_rows_eq_some hnext, ?_⟩
        rw [if_neg fun hmem => hne (List.mem_singleton.mp hmem).symm]
        exact hactive
      · refine ⟨version, _, hrows ▸ update_rows_eq_some hrow, ?_⟩
        rw [if_neg fun hmem => hversion (List.mem_singleton.mp hmem)]
        exact hstate

/-- A step that goes on keeps the start of the transaction. -/
theorem Advance.now_eq (h : Advance s tx t s') {t' : Transaction} (ht' : s'.running tx = some t') :
    t'.now = t.now := by
  have hnext : ∀ {next : Transaction}, Function.update s.running tx (some next) tx = some t' →
      next = t' := by
    intro next hnext
    rw [Function.update_self] at hnext
    exact Option.some.inj hnext
  have hended : ∀ {α : Prop}, Function.update s.running tx none tx = some t' → α := by
    intro α hended
    rw [Function.update_self] at hended
    cases hended
  cases h with
  | unsupported | leaves | sunsets | refuses | admits _ | deprecates _ _ _ _ | commits =>
      exact hended ht'
  | reads | decides | locks _ _ | scans | quiet _ _ _ | claims _ _ _ | passes =>
      rw [← hnext ht']
      rfl

theorem Advance.clock_eq (h : Advance s tx t s') : s'.clock = s.clock := by
  cases h <;> rfl

/-! ## The moves of a version -/

/-- **A version is never forgotten, and its state moves along the lifecycle.** -/
theorem Effect.moves (h : Effect s s') {version : String} {c : Contract}
    (hrow : s.rows version = some c) :
    ∃ c', s'.rows version = some c' ∧ ContractState.Moves c.state c'.state := by
  cases h with
  | unchanged hrows _ => exact ⟨c, hrows ▸ hrow, .stays _⟩
  | admits _ _ _ hrows _ =>
      refine ⟨_, hrows ▸ update_rows_eq_some hrow, ?_⟩
      split <;> exact .stays _
  | sunsets _ hexpired _ hrows _ =>
      refine ⟨_, hrows ▸ update_rows_eq_some hrow, ?_⟩
      split
      · rename_i hmem
        obtain ⟨other, hother, hdeprecated, _⟩ := hexpired version hmem
        cases hrow.symm.trans hother
        rw [hdeprecated]
        exact .sunset
      · exact .stays _
  | @deprecates deprecated successor _ other hother hstate _ _ hrows _ =>
      refine ⟨_, hrows ▸ update_rows_eq_some hrow, ?_⟩
      split
      · rename_i hmem
        rw [List.mem_singleton.mp hmem] at hrow
        cases hrow.symm.trans hother
        change ContractState.Moves c.state .deprecated
        cases hkind : c.state with
        | active => exact .deprecated
        | deprecated => exact .stays _
        | sunset => exact absurd hkind hstate
      · exact .stays _

/-- Every admitted request has left its stamp on the row of its version, or a later one has. -/
def Stamped (s : Lifecycle) : Prop :=
  ∀ admission ∈ s.admitted, ∃ c, s.rows admission.1 = some c ∧
    ∃ last ∈ c.lastRequestAt, admission.2 ≤ last

/-- Stamps stay where a step leaves `last_request_at`. -/
theorem Stamped.of_update {versions : List String} {change : Contract → Contract}
    (hs : s.Stamped) (hrows : s'.rows = (s.update versions change).rows)
    (hadmitted : s'.admitted = s.admitted)
    (hchange : ∀ c, (change c).lastRequestAt = c.lastRequestAt) : s'.Stamped := by
  intro admission hmem
  rw [hadmitted] at hmem
  obtain ⟨c, hrow, last, hlast, hle⟩ := hs admission hmem
  refine ⟨_, hrows ▸ update_rows_eq_some hrow, last, ?_, hle⟩
  split
  · rw [hchange]
    exact hlast
  · exact hlast

/-- **A step that is up to date keeps the stamps.** -/
theorem Effect.stamped (h : Effect s s') (hs : s.Stamped) : s'.Stamped := by
  cases h with
  | unchanged hrows hadmitted =>
      intro admission hmem
      rw [hadmitted] at hmem
      rw [hrows]
      exact hs admission hmem
  | @admits version now c hrow _ hlast hrows hadmitted =>
      intro admission hmem
      rw [hadmitted] at hmem
      rw [hrows]
      rcases List.mem_cons.mp hmem with rfl | hmem
      · refine ⟨_, update_rows_eq_some hrow, now, ?_, Nat.le_refl now⟩
        rw [if_pos (List.mem_singleton.mpr rfl)]
        rfl
      · obtain ⟨before, hbefore, last, hstamp, hle⟩ := hs admission hmem
        refine ⟨_, update_rows_eq_some hbefore, ?_⟩
        split
        · rename_i hversion
          -- The stamp of this version gives way to a later one.
          rw [List.mem_singleton.mp hversion] at hbefore
          cases hrow.symm.trans hbefore
          exact ⟨now, rfl, Nat.le_trans hle (hlast last hstamp)⟩
        · exact ⟨last, hstamp, hle⟩
  | sunsets _ _ _ hrows hadmitted => exact hs.of_update hrows hadmitted fun _ => rfl
  | deprecates _ _ _ _ hrows hadmitted => exact hs.of_update hrows hadmitted fun _ => rfl

/-- A version is quiet only where no stamp is younger than seven days. -/
theorem Contract.quiet_stamp {c : Contract} {now last : Nat} (h : c.quiet now = true)
    (hlast : last ∈ c.lastRequestAt) : last + quietDays ≤ now := by
  obtain ⟨used, hused, hquiet⟩ := (Option.any_eq_true _ _).mp h
  rw [Option.mem_def.mp hlast] at hused
  cases hdeprecated : c.deprecatedAt with
  | none =>
      rw [hdeprecated] at hused
      cases hused
      exact of_decide_eq_true hquiet
  | some deprecatedAt =>
      rw [hdeprecated] at hused
      cases hused
      have hle : max deprecatedAt last + quietDays ≤ now := of_decide_eq_true hquiet
      omega

end Steps

/-! ## Every run -/

/-- **Every action is one of these.** -/
theorem step_cases {s s' : Lifecycle} {action : ContractAction} (h : Step s action s') :
    (∃ now, action = .tick now ∧ s.clock ≤ now ∧ s' = { s with clock := now }) ∨
    (∃ tx call t, action = .begin tx call ∧ s.running tx = none ∧ opening s.clock call = some t ∧
      s' = s.goOn tx t) ∨
    ∃ tx scan t, action = .advance tx scan ∧ s.running tx = some t ∧ Advance s tx t s' := by
  cases action with
  | tick now =>
      obtain ⟨hclock, heq⟩ := Option.ite_none_right_eq_some.mp h
      exact .inl ⟨now, rfl, hclock, (Option.some.inj heq).symm⟩
  | begin tx call =>
      obtain ⟨hfree, h⟩ := Option.ite_none_right_eq_some.mp h
      obtain ⟨t, hopening, rfl⟩ := Option.map_eq_some_iff.mp h
      exact .inr (.inl ⟨tx, call, t, rfl, Option.isNone_iff_eq_none.mp hfree, hopening, rfl⟩)
  | advance tx scan =>
      obtain ⟨t, hrunning, h⟩ := Option.bind_eq_some_iff.mp h
      exact .inr (.inr ⟨tx, scan, t, rfl, hrunning, advance_cases h⟩)

/-- What a call begins with has seen nothing yet. -/
theorem opening_spec {s : Lifecycle} {now : Nat} {call : ContractCall} {t : Transaction}
    (h : opening now call = some t) : t.now = now ∧ (∀ tx, s.Knows tx t) ∧ ¬ SawActive t := by
  cases call with
  | contractRequest version =>
      cases h
      exact ⟨rfl, fun _ => trivial, id⟩
  | deprecation version successor =>
      obtain ⟨hne, heq⟩ := Option.ite_none_left_eq_some.mp h
      cases heq
      exact ⟨rfl, fun _ => hne, id⟩
  | sunsetContracts =>
      cases h
      exact ⟨rfl, fun _ => trivial, id⟩

theorem Initial.consistent {s : Lifecycle} (h : s.Initial) : s.Consistent where
  started tx _ ht := nomatch (h.running tx).symm.trans ht
  knows tx _ ht := nomatch (h.running tx).symm.trans ht
  active tx _ ht := nomatch (h.running tx).symm.trans ht

section Run

variable {s s' : Lifecycle} {action : ContractAction}

/-- What a step that is up to date does to the rows. -/
theorem Consistent.effect (h : s.Consistent) (hstep : Step s action s')
    (hup : s.UpToDate action) : Effect s s' := by
  rcases step_cases hstep with ⟨now, _, _, rfl⟩ | ⟨tx, call, t, _, _, _, rfl⟩ |
    ⟨tx, scan, t, rfl, hrunning, hadvance⟩
  · exact .unchanged rfl rfl
  · exact .unchanged rfl rfl
  · exact hadvance.effect (h.started tx t hrunning) (h.knows tx t hrunning) (hup t hrunning)
      (h.active tx t hrunning)

/-- **A step that is up to date keeps what holds between steps.** -/
theorem Consistent.step (h : s.Consistent) (hstep : Step s action s') (hup : s.UpToDate action) :
    s'.Consistent := by
  have heffect := h.effect hstep hup
  rcases step_cases hstep with ⟨now, _, hclock, rfl⟩ | ⟨tx, call, t, _, hfree, hopening, rfl⟩ |
    ⟨tx, scan, t, rfl, hrunning, hadvance⟩
  · refine ⟨fun tx t ht => Nat.le_trans (h.started tx t ht) hclock, fun tx t ht => ?_, h.active⟩
    exact (h.knows tx t ht).keep fun _ hlock => ⟨hlock, rfl⟩
  · obtain ⟨hnow, hknows, hunseen⟩ := opening_spec (s := s.goOn tx t) hopening
    have hothers : ∀ other, other ≠ tx → (s.goOn tx t).running other = s.running other :=
      fun other hne => Function.update_of_ne hne ..
    have hself : (s.goOn tx t).running tx = some t := Function.update_self ..
    refine ⟨fun other t' ht' => ?_, fun other t' ht' => ?_, fun other t' ht' hsaw => ?_⟩
    all_goals by_cases hother : other = tx
    · subst hother
      cases hself.symm.trans ht'
      exact Nat.le_of_eq hnow
    · exact h.started other t' ((hothers other hother).symm.trans ht')
    · subst hother
      cases hself.symm.trans ht'
      exact hknows _
    · exact (h.knows other t' ((hothers other hother).symm.trans ht')).keep
        fun _ hlock => ⟨hlock, rfl⟩
    · subst hother
      cases hself.symm.trans ht'
      exact absurd hsaw hunseen
    · exact h.active other t' ((hothers other hother).symm.trans ht') hsaw
  · have hknows := h.knows tx t hrunning
    have hframe := hadvance.frame hknows
    refine ⟨fun other t' ht' => ?_, fun other t' ht' => ?_, fun other t' ht' hsaw => ?_⟩
    all_goals by_cases hother : other = tx
    · subst hother
      rw [hadvance.now_eq ht', hadvance.clock_eq]
      exact h.started _ t hrunning
    · rw [hadvance.clock_eq]
      exact h.started other t' ((hframe.running other hother).symm.trans ht')
    · subst hother
      exact hadvance.knows hknows ht'
    · exact (h.knows other t' ((hframe.running other hother).symm.trans ht')).keep
        fun version hlock => hframe.lockedRow version other hother hlock
    · subst hother
      rcases hadvance.sawActive ht' hsaw with hsaw | hactive
      · exact heffect.active (h.active _ t hrunning hsaw)
      · exact heffect.active hactive
    · exact heffect.active (h.active other t' ((hframe.running other hother).symm.trans ht') hsaw)

end Run

/-- What the lifecycle asks of a transition: versions stay and their states move forward; a version
becomes sunset seven days after its last admitted request, while another version is active; and no
request is admitted under a sunset version. -/
structure LifecycleHolds (e : Transition Lifecycle ContractAction) : Prop where
  moves : ∀ version c, e.pre.rows version = some c →
    ∃ c', e.post.rows version = some c' ∧ ContractState.Moves c.state c'.state
  quiet : ∀ version c c', e.pre.rows version = some c → c.state ≠ .sunset →
    e.post.rows version = some c' → c'.state = .sunset →
      ∃ now ∈ c'.sunsetAt, now ≤ e.pre.clock ∧
        (∀ admission ∈ e.post.admitted, admission.1 = version → admission.2 + quietDays ≤ now) ∧
        ∃ other, other ≠ version ∧ e.pre.rows.IsActive other ∧ e.post.rows.IsActive other
  admits : e.post.admitted = e.pre.admitted ∨ ∃ version now c,
    e.post.admitted = (version, now) :: e.pre.admitted ∧ e.pre.rows version = some c ∧
      c.state ≠ .sunset

/-- **A step that is up to date follows the lifecycle.** -/
theorem Effect.lifecycleHolds {e : Transition Lifecycle ContractAction}
    (h : Effect e.pre e.post) (hstamped : e.pre.Stamped) : LifecycleHolds e := by
  refine ⟨fun version c hrow => h.moves hrow, ?_, ?_⟩
  · intro version c c' hrow hstate hrow' hsunset
    cases h with
    | unchanged hrows _ =>
        rw [hrows, hrow] at hrow'
        cases hrow'
        exact absurd hsunset hstate
    | admits _ _ _ hrows _ =>
        cases (hrows ▸ update_rows_eq_some hrow).symm.trans hrow'
        split at hsunset <;> exact absurd hsunset hstate
    | deprecates _ _ _ _ hrows _ =>
        cases (hrows ▸ update_rows_eq_some hrow).symm.trans hrow'
        split at hsunset
        · cases hsunset
        · exact absurd hsunset hstate
    | @sunsets claimed now hnow hexpired hactive hrows hadmitted =>
        cases (hrows ▸ update_rows_eq_some hrow).symm.trans hrow'
        split at hsunset
        · rename_i hmem
          obtain ⟨_, hother, hdeprecated, hquiet⟩ := hexpired version hmem
          cases hrow.symm.trans hother
          rw [if_pos hmem]
          refine ⟨now, rfl, hnow, fun admission hadmission hversion => ?_, ?_⟩
          · rw [hadmitted] at hadmission
            obtain ⟨_, hstamp, last, hlast, hle⟩ := hstamped admission hadmission
            rw [hversion] at hstamp
            cases hrow.symm.trans hstamp
            have hage := Contract.quiet_stamp hquiet hlast
            omega
          · obtain ⟨other, next, hnext, hstate'⟩ := hactive (List.ne_nil_of_mem hmem)
            have hne : other ≠ version := by
              rintro rfl
              cases hrow.symm.trans hnext
              rw [hstate'] at hdeprecated
              cases hdeprecated
            -- The active version is not among the claimed ones, which are deprecated.
            have hkept : other ∉ claimed := by
              intro hclaimed
              obtain ⟨_, hclaim, hdeprecated', _⟩ := hexpired other hclaimed
              cases hnext.symm.trans hclaim
              rw [hstate'] at hdeprecated'
              cases hdeprecated'
            refine ⟨other, hne, ⟨next, hnext, hstate'⟩, next, ?_, hstate'⟩
            rw [hrows, update_rows_of_notMem hkept]
            exact hnext
        · exact absurd hsunset hstate
  · cases h with
    | unchanged _ hadmitted => exact .inl hadmitted
    | sunsets _ _ _ _ hadmitted => exact .inl hadmitted
    | deprecates _ _ _ _ _ hadmitted => exact .inl hadmitted
    | @admits version now c hrow hstate _ _ hadmitted =>
        exact .inr ⟨version, now, c, hadmitted, hrow, hstate⟩

/-- What a run in which every step is up to date keeps. -/
def Kept (s : Lifecycle) : Prop := s.Consistent ∧ s.Stamped

theorem Kept.step {s s' : Lifecycle} {action : ContractAction} (h : s.Kept)
    (hstep : Step s action s' ∧ s.UpToDate action) : s'.Kept :=
  ⟨h.1.step hstep.1 hstep.2, (h.1.effect hstep.1 hstep.2).stamped h.2⟩

theorem Initial.kept {s : Lifecycle} (h : s.Initial) : s.Kept := by
  refine ⟨h.consistent, fun admission hmem => ?_⟩
  rw [h.admitted] at hmem
  cases hmem

/-- **The lifecycle of a contract.** In every run in which no deprecation acts on a successor that
is active no more and no request replaces a later stamp by its own, every step follows the
lifecycle, and from a table with an active version every state has one. -/
theorem lifecycle_of_upToDate {s₀ s : Lifecycle} {tr : List (Transition Lifecycle ContractAction)}
    (h₀ : s₀.Initial) (hrun : Run Step s₀ tr s) (hup : ∀ e ∈ tr, UpToDate e.pre e.label) :
    (∀ e ∈ tr, LifecycleHolds e) ∧
      ((∃ version, s₀.rows.IsActive version) → ∃ version, s.rows.IsActive version) := by
  have hrun' := hrun.restrict (fun e => UpToDate e.pre e.label) hup
  constructor
  · intro e he
    obtain ⟨hpre, ⟨hstep, hfresh⟩, _⟩ :=
      hrun'.invariant_mem Kept (fun _ _ _ h hstep => h.step hstep) h₀.kept he
    exact (hpre.1.effect hstep hfresh).lifecycleHolds hpre.2
  · intro hactive
    have hlive := hrun'.invariant (fun s => s.Kept ∧ ∃ version, s.rows.IsActive version) ?_
      ⟨h₀.kept, hactive⟩
    · exact hlive.2
    · rintro s action s' ⟨hkept, hactive⟩ hstep
      exact ⟨hkept.step hstep, (hkept.1.effect hstep.1 hstep.2).active hactive⟩

/-! ## Sample runs -/

instance (rows : Contracts) (version : String) : Decidable (rows.IsActive version) :=
  inferInstanceAs (Decidable (∃ c ∈ rows version, c.state = .active))

instance decidableFresh (s : Lifecycle) : (t : Transaction) → Decidable (s.Fresh t)
  | .deprecation version successor _ (some snapshot) => inferInstanceAs (Decidable
      (s.rows.IsActive version → snapshot.IsActive successor → s.rows.IsActive successor))
  | .request version now (.decided state false) => inferInstanceAs (Decidable
      (state ≠ .sunset → ∀ c ∈ s.rows version, ∀ last ∈ c.lastRequestAt, last ≤ now))
  | .request _ _ .started | .request _ _ (.locked _) | .request _ _ (.decided _ true)
  | .deprecation _ _ _ none | .sunset _ | .sunsetScan _ _ _ _ => .isTrue trivial

instance decidableUpToDate (s : Lifecycle) : (action : ContractAction) →
    Decidable (s.UpToDate action)
  | .advance tx _ => inferInstanceAs (Decidable (∀ t ∈ s.running tx, s.Fresh t))
  | .tick _ | .begin _ _ => .isTrue trivial

/-- The state after an action, where it can be taken. -/
def after (s : Lifecycle) (action : ContractAction) : Lifecycle := (s.next action).getD s

/-- A list of actions that can be taken one after the other is a run. -/
theorem run_after {s : Lifecycle} {actions : List ContractAction}
    (h : EnabledAlong after (fun s action => (s.next action).isSome = true) s actions) :
    Run Step s (play after s actions) (playEnd after s actions) := by
  refine run_play after _ (fun s action henabled => ?_) h
  obtain ⟨s', hs'⟩ := Option.isSome_iff_exists.mp henabled
  rw [after, Step, hs']
  rfl

/-- A table of two versions. -/
def twoVersions (v1 v2 : Contract) : Lifecycle where
  rows version := if version = "v1" then some v1 else if version = "v2" then some v2 else none
  clock := 0
  lockedBy _ := none
  running _ := none
  admitted := []

theorem twoVersions_initial (v1 v2 : Contract) : (twoVersions v1 v2).Initial :=
  ⟨fun _ => rfl, fun _ => rfl, rfl⟩

/-- The first version is deprecated, and the worker sunsets it a week later. -/
def sampleRetirement : List ContractAction :=
  [.begin 1 (.deprecation "v1" "v2"), .advance 1 [], .advance 1 [], .tick quietDays,
    .begin 2 .sunsetContracts, .advance 2 ["v2", "v1"], .advance 2 [], .advance 2 []]

/-- A retirement follows the lifecycle. -/
theorem lifecycle_sampleRetirement :
    (∀ e ∈ play after (twoVersions ⟨.active, none, none, none, none⟩
        ⟨.active, none, none, none, none⟩) sampleRetirement, LifecycleHolds e) ∧
      ((∃ version, (twoVersions ⟨.active, none, none, none, none⟩
          ⟨.active, none, none, none, none⟩).rows.IsActive version) →
        ∃ version, (playEnd after (twoVersions ⟨.active, none, none, none, none⟩
          ⟨.active, none, none, none, none⟩) sampleRetirement).rows.IsActive version) :=
  lifecycle_of_upToDate (twoVersions_initial _ _) (run_after (by decide)) (by decide)

/-- Two deprecations that name each other as the successor: both read before either writes. -/
def crossedDeprecations : List ContractAction :=
  [.begin 1 (.deprecation "v1" "v2"), .begin 2 (.deprecation "v2" "v1"),
    .advance 1 [], .advance 2 [], .advance 1 [], .advance 2 []]

/-- A request that started first is admitted after another and puts its own start on the row, and
the version is sunset a week after that. -/
def overtakenRequest : List ContractAction :=
  [.begin 1 (.contractRequest "v1"), .tick 10, .begin 2 (.contractRequest "v1"),
    .advance 2 [], .advance 2 [], .advance 2 [], .advance 1 [], .advance 1 [], .advance 1 [],
    .tick quietDays, .begin 3 .sunsetContracts, .advance 3 ["v1"], .advance 3 [],
    .advance 3 []]

/-- Crossed deprecations leave no active version, and an overtaken request lets a version become
sunset before its quiet period is over. -/
theorem not_forall_lifecycle :
    (¬ ∀ (s₀ s : Lifecycle) (tr : List (Transition Lifecycle ContractAction)), s₀.Initial →
      Run Step s₀ tr s → (∃ version, s₀.rows.IsActive version) →
        ∃ version, s.rows.IsActive version) ∧
    ¬ ∀ (s₀ s : Lifecycle) (tr : List (Transition Lifecycle ContractAction)), s₀.Initial →
      Run Step s₀ tr s → ∀ e ∈ tr, LifecycleHolds e := by
  constructor
  · intro h
    obtain ⟨version, c, hrow, hactive⟩ := h (twoVersions ⟨.active, none, none, none, none⟩
      ⟨.active, none, none, none, none⟩) _ _ (twoVersions_initial _ _)
      (@run_after _ crossedDeprecations (by decide)) ⟨"v1", by decide⟩
    by_cases hfirst : version = "v1"
    · subst hfirst
      cases hrow
      cases hactive
    · by_cases hsecond : version = "v2"
      · subst hsecond
        cases hrow
        cases hactive
      · have hother : some c = (twoVersions ⟨.active, none, none, none, none⟩
            ⟨.active, none, none, none, none⟩).rows version := by
          rw [← hrow]
          change (Lifecycle.update _ ["v2"] _).rows version = _
          rw [update_rows_of_notMem (by simp [hsecond])]
          exact update_rows_of_notMem (by simp [hfirst])
        simp [twoVersions, hfirst, hsecond] at hother
  · intro h
    have hrun := @run_after (twoVersions ⟨.deprecated, some "v2", some 0, none, none⟩
      ⟨.active, none, none, none, none⟩) overtakenRequest (by decide)
    have hlast := h _ _ _ (twoVersions_initial _ _) hrun _ (List.getLast_mem (by decide))
    obtain ⟨now, hnow, _, hadmitted, _⟩ := hlast.quiet "v1" _ _ rfl (by decide) rfl rfl
    have hage := hadmitted ("v1", 10) (by decide) rfl
    cases hnow
    exact absurd hage (by decide)

end Lifecycle

end Waveform.Control
