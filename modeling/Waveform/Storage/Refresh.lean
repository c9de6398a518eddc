import Waveform.Storage.Revocation
import Waveform.Storage.Statement

/-!
# Presenting refresh tokens

A reused refresh token revokes the whole proof at Accounts, unless it comes under the same
idempotency key. `run_refreshDiscipline` says how the calls of an account present theirs: one key
for each token, one token at a time, and never again a token whose rotated pair has been committed.

The last part rests on what Accounts answers (`AnswersApart`): different requests get different
proofs and refresh tokens. The ledger of a run then holds the requests whose answer has been
committed, and `Kept` says that no call asks one of them again.

- `asked_not_spent`: what a call may ask with the row it sees is not in the ledger.
- `saved_rowKept`: the row it saves for the answer holds nothing that is in the ledger.
- `Kept.step`: every step keeps this.
-/

set_option autoImplicit false

namespace Waveform.Storage

open Waveform.Domain LabelledRun

/-! ## Presentations -/

/-- The step sends the refresh token to Accounts under the key. -/
def Presents (t : ProofTransition) (refresh key : String) : Prop :=
  (∃ now, t.label = .statement now) ∧
    ∃ call, t.post.active = some call ∧ call.phase = .calling (.refreshProof refresh key)

/-- The step ends what the lock holder waits for: Accounts has answered, or the call is dropped. -/
def EndsRequest (t : ProofTransition) : Prop :=
  (∃ answer now, t.label = .answer answer now) ∨ t.label = .abandon

/-- Accounts answers the refresh token with a pair that the lock holder goes on to save. -/
def Rotates (t : ProofTransition) (refresh : String) : Prop :=
  ∃ call key issued now next row proof,
    t.pre.active = some call ∧ call.phase = .calling (.refreshProof refresh key) ∧
      t.label = .answer (.ok issued) now ∧
      t.post.active = some next ∧ next.phase = .saving row proof

/-- The lock holder commits. -/
def Commits (t : ProofTransition) : Prop :=
  ∃ call answer now, t.pre.active = some call ∧ call.phase = .committing answer ∧
    t.label = .statement now

/-- How the calls of an account present refresh tokens over a run. -/
structure RefreshDiscipline (tr : List ProofTransition) : Prop where
  oneKey : ∀ t ∈ tr, ∀ t' ∈ tr, ∀ refresh key key',
    Presents t refresh key → Presents t' refresh key' → key = key'
  keysDiffer : ∀ t ∈ tr, ∀ t' ∈ tr, ∀ refresh refresh' key key',
    Presents t refresh key → Presents t' refresh' key' → refresh ≠ refresh' → key ≠ key'
  oneAtATime : ∀ t mid t', InOrder tr t mid t' → ∀ refresh refresh' key key',
    Presents t refresh key → Presents t' refresh' key' → ∃ e ∈ mid, EndsRequest e
  neverAgain : ∀ before answered mid committed rest refresh,
    tr = before ++ answered :: (mid ++ committed :: rest) →
      Rotates answered refresh → (∀ e ∈ mid, e.post.active.isSome = true) → Commits committed →
      ∀ t ∈ rest, ∀ key, ¬ Presents t refresh key

/-- The proof that an issuance replaces. -/
def AccountsRequest.replacing : AccountsRequest → Option String
  | .issueUserVerification _ _ _ key => some key.replacing
  | .refreshProof _ _ => none

/-- What Accounts may answer to a request: a retry gets the answer of the first attempt, different
requests get different proofs and refresh tokens, and a rotation stays within its proof. -/
structure AnswersApart (answers : AccountsRequest → IssuedProof → Prop) : Prop where
  token : ∀ q q' issued issued' refresh, answers q issued → answers q' issued' →
    issued.proofRefreshToken = some refresh → issued'.proofRefreshToken = some refresh → q = q'
  proof : ∀ q q' issued issued', q.replacing.isSome = true → q'.replacing.isSome = true →
    answers q issued → answers q' issued' → issued.proofId = issued'.proofId → q = q'
  rotation : ∀ q issued refresh key issued', answers q issued →
    issued.proofRefreshToken = some refresh → answers (.refreshProof refresh key) issued' →
    issued'.proofId = issued.proofId
  named : ∀ q issued, answers q issued → issued.proofId ≠ "none"

/-- The proof that a step brings from Accounts is one of its answers. -/
def AnswersAs (answers : AccountsRequest → IssuedProof → Prop) (t : ProofTransition) : Prop :=
  ∀ call asked issued now, t.pre.active = some call → call.phase = .calling asked →
    t.label = .answer (.ok issued) now → answers asked issued

/-- SHA-256 tells the refresh tokens apart that the run presents. -/
def Sha256Apart (proofs : StorageProofs) (tr : List ProofTransition) : Prop :=
  ∀ t ∈ tr, ∀ t' ∈ tr, ∀ refresh refresh' key key',
    Presents t refresh key → Presents t' refresh' key' →
      proofs.sha256 (utf8 refresh) = proofs.sha256 (utf8 refresh') → refresh = refresh'

/-- The account has no proof and no call under way. -/
def ProofWorld.initial : ProofWorld := ⟨none, [], none⟩

/-! ## The requests that are spent -/

section Spent

variable (answers : AccountsRequest → IssuedProof → Prop) (proofs : StorageProofs)

/-- One of the requests issued the proof. -/
def ProofSource (spent : List AccountsRequest) (proofId : String) : Prop :=
  ∃ q ∈ spent, q.replacing.isSome = true ∧ ∃ issued, answers q issued ∧ issued.proofId = proofId

/-- One of the requests brought the refresh token, for the proof. -/
def TokenSource (spent : List AccountsRequest) (refresh proofId : String) : Prop :=
  ∃ q ∈ spent, ∃ issued, answers q issued ∧ issued.proofRefreshToken = some refresh ∧
    issued.proofId = proofId

/-- None of the requests replaced the proof. -/
def Unreplaced (spent : List AccountsRequest) (proofId : String) : Prop :=
  ∀ q ∈ spent, q.replacing ≠ some proofId

/-- None of the requests presented the refresh token. -/
def Unpresented (spent : List AccountsRequest) (refresh : String) : Prop :=
  ∀ key, .refreshProof refresh key ∉ spent

/-- What each spent request named came from a spent request. -/
structure SpentKept (spent : List AccountsRequest) : Prop where
  replaced : ∀ q ∈ spent, ∀ proofId, q.replacing = some proofId →
    proofId = "none" ∨ ProofSource answers spent proofId
  presented : ∀ refresh key, .refreshProof refresh key ∈ spent →
    ∃ proofId, TokenSource answers spent refresh proofId

/-- A row holds a proof that was issued and not replaced, and a refresh token of it that was not
presented. -/
structure HeldRow (spent : List AccountsRequest) (row : ProofRow) : Prop where
  source : ProofSource answers spent row.proofId
  unreplaced : Unreplaced spent row.proofId
  refresh : ∀ refresh, heldRefresh proofs row = some refresh →
    TokenSource answers spent refresh row.proofId ∧ Unpresented spent refresh

/-- The row agrees with the spent requests; without a row none is spent. -/
def RowKept (spent : List AccountsRequest) : Option ProofRow → Prop
  | none => spent = []
  | some row => HeldRow answers proofs spent row

/-- A request is new, and what it names came from a spent request. -/
structure Fresh (spent : List AccountsRequest) (q : AccountsRequest) : Prop where
  unspent : q ∉ spent
  unpresented : ∀ refresh key, q = .refreshProof refresh key → Unpresented spent refresh
  replaced : ∀ proofId, q.replacing = some proofId →
    proofId = "none" ∨ ProofSource answers spent proofId
  presented : ∀ refresh key, q = .refreshProof refresh key →
    ∃ proofId, TokenSource answers spent refresh proofId ∧ ProofSource answers spent proofId ∧
      Unreplaced spent proofId

variable {answers proofs} {spent : List AccountsRequest}

theorem ProofSource.cons {proofId : String} (q : AccountsRequest)
    (h : ProofSource answers spent proofId) : ProofSource answers (q :: spent) proofId := by
  obtain ⟨source, hmem, hrest⟩ := h
  exact ⟨source, List.mem_cons_of_mem _ hmem, hrest⟩

theorem TokenSource.cons {refresh proofId : String} (q : AccountsRequest)
    (h : TokenSource answers spent refresh proofId) :
    TokenSource answers (q :: spent) refresh proofId := by
  obtain ⟨source, hmem, hrest⟩ := h
  exact ⟨source, List.mem_cons_of_mem _ hmem, hrest⟩

/-- Ending a row keeps it in agreement. -/
theorem RowKept.invalidate {row : Option ProofRow} (reason : String) (now : Nat)
    (h : RowKept answers proofs spent row) :
    RowKept answers proofs spent (row.map fun row => row.invalidate reason now) := by
  cases row with
  | none => exact h
  | some row =>
      refine ⟨?_, ?_, ?_⟩
      · rw [ProofRow.invalidate_proofId]
        exact h.source
      · rw [ProofRow.invalidate_proofId]
        exact h.unreplaced
      · intro refresh hheld
        rw [ProofRow.invalidate_proofId]
        exact h.refresh refresh (heldRefresh_invalidate hheld)

/-- **What a call may ask with the row it sees is not spent.** -/
theorem asked_fresh {row : Option ProofRow} {q : AccountsRequest}
    (h : RowKept answers proofs spent row) (hask : MayAsk proofs row q) :
    Fresh answers spent q := by
  cases hask with
  | @refresh live refresh hrow hheld =>
      subst hrow
      obtain ⟨hsource, hunpresented⟩ := h.refresh refresh hheld
      refine ⟨hunpresented _, ?_, ?_, ?_⟩
      · intro other key heq
        cases heq
        exact hunpresented
      · intro proofId hreplacing
        cases hreplacing
      · intro other key heq
        cases heq
        exact ⟨live.proofId, hsource, h.source, h.unreplaced⟩
  | issue subjectToken =>
      cases row with
      | none =>
          have hnone : spent = [] := h
          subst hnone
          refine ⟨List.not_mem_nil, ?_, ?_, ?_⟩
          · intro refresh key heq
            cases heq
          · intro proofId hreplacing
            cases hreplacing
            exact .inl rfl
          · intro refresh key heq
            cases heq
      | some row =>
          refine ⟨?_, ?_, ?_, ?_⟩
          · intro hspent
            exact h.unreplaced _ hspent rfl
          · intro refresh key heq
            cases heq
          · intro proofId hreplacing
            cases hreplacing
            exact .inr h.source
          · intro refresh key heq
            cases heq

variable (hapart : AnswersApart answers)

include hapart

/-- A refresh token that a new answer brings was not presented before. -/
theorem AnswersApart.unpresented {q : AccountsRequest} {issued : IssuedProof} {refresh : String}
    (hkept : SpentKept answers spent) (hfresh : Fresh answers spent q) (h : answers q issued)
    (hrefresh : issued.proofRefreshToken = some refresh) : Unpresented (q :: spent) refresh := by
  -- Whatever brought the token is the new request, which is not spent.
  have hnew : ∀ proofId, ¬ TokenSource answers spent refresh proofId := by
    rintro proofId ⟨source, hmem, issued', hanswer, hsame, _⟩
    have heq := hapart.token _ _ _ _ _ h hanswer hrefresh hsame
    exact hfresh.unspent (heq ▸ hmem)
  intro key hmem
  rcases List.mem_cons.mp hmem with heq | hmem
  · obtain ⟨proofId, hsource, _⟩ := hfresh.presented _ _ heq.symm
    exact hnew proofId hsource
  · obtain ⟨proofId, hsource⟩ := hkept.presented _ _ hmem
    exact hnew proofId hsource

/-- The proof of a new answer came from a request that is spent with it, and was not replaced. -/
theorem AnswersApart.source {q : AccountsRequest} {issued : IssuedProof}
    (hkept : SpentKept answers spent) (hfresh : Fresh answers spent q) (h : answers q issued) :
    ProofSource answers (q :: spent) issued.proofId ∧ Unreplaced (q :: spent) issued.proofId := by
  cases q with
  | issueUserVerification subject app scopes key =>
      refine ⟨⟨_, List.mem_cons_self, rfl, issued, h, rfl⟩, ?_⟩
      have hnew : ¬ ProofSource answers spent issued.proofId := by
        rintro ⟨source, hmem, hissue, issued', hanswer, hsame⟩
        have heq := hapart.proof _ _ _ _ hissue rfl hanswer h hsame
        exact hfresh.unspent (heq ▸ hmem)
      intro other hmem hreplacing
      rcases List.mem_cons.mp hmem with rfl | hmem
      · rcases hfresh.replaced _ hreplacing with hnone | hsource
        · exact hapart.named _ _ h hnone
        · exact hnew hsource
      · rcases hkept.replaced _ hmem _ hreplacing with hnone | hsource
        · exact hapart.named _ _ h hnone
        · exact hnew hsource
  | refreshProof refresh key =>
      obtain ⟨proofId, ⟨source, _, issued', hanswer, hrefresh, hproof⟩, hsource, hunreplaced⟩ :=
        hfresh.presented _ _ rfl
      have hsame : issued.proofId = proofId := by
        rw [hapart.rotation _ _ _ _ _ hanswer hrefresh h, hproof]
      rw [hsame]
      refine ⟨hsource.cons _, ?_⟩
      intro other hmem hreplacing
      rcases List.mem_cons.mp hmem with rfl | hmem
      · cases hreplacing
      · exact hunreplaced other hmem hreplacing

/-- **The row saved for a new answer agrees with the requests spent by then.** -/
theorem AnswersApart.saved_rowKept {q : AccountsRequest} {issued : IssuedProof} {row : ProofRow}
    {proof : BriefcaseProof} {now : Nat} (hkept : SpentKept answers spent)
    (hfresh : Fresh answers spent q) (h : answers q issued)
    (hsave : proofs.prepareSave issued now = .ok (row, proof)) :
    RowKept answers proofs (q :: spent) (some row) := by
  obtain ⟨hproof, hheld⟩ := prepareSave_spec hsave
  obtain ⟨hsource, hunreplaced⟩ := hapart.source hkept hfresh h
  refine ⟨?_, ?_, ?_⟩
  · rw [hproof]
    exact hsource
  · rw [hproof]
    exact hunreplaced
  · intro refresh hrefresh
    rw [hheld] at hrefresh
    refine ⟨⟨q, List.mem_cons_self, issued, h, hrefresh, hproof.symm⟩, ?_⟩
    exact hapart.unpresented hkept hfresh h hrefresh

omit hapart

/-- Spending a new request keeps the sources of what was named. -/
theorem SpentKept.cons {q : AccountsRequest} (h : SpentKept answers spent)
    (hfresh : Fresh answers spent q) : SpentKept answers (q :: spent) where
  replaced := by
    intro other hmem proofId hreplacing
    have hsource : proofId = "none" ∨ ProofSource answers spent proofId := by
      rcases List.mem_cons.mp hmem with rfl | hmem
      · exact hfresh.replaced proofId hreplacing
      · exact h.replaced other hmem proofId hreplacing
    exact hsource.imp_right (ProofSource.cons q)
  presented := by
    intro refresh key hmem
    rcases List.mem_cons.mp hmem with heq | hmem
    · obtain ⟨proofId, hsource, _⟩ := hfresh.presented _ _ heq.symm
      exact ⟨proofId, hsource.cons q⟩
    · obtain ⟨proofId, hsource⟩ := h.presented _ _ hmem
      exact ⟨proofId, hsource.cons q⟩

end Spent

/-! ## The ledger of a run -/

/-- The requests whose answer is committed, and the one whose answer the lock holder saves. -/
structure Ledger where
  spent : List AccountsRequest
  pending : Option AccountsRequest

namespace Ledger

/-- Nothing was asked yet. -/
def initial : Ledger := ⟨[], none⟩

/-- The requests that are spent once the lock holder commits. -/
def ahead (ledger : Ledger) : List AccountsRequest := ledger.pending.toList ++ ledger.spent

/-- The ledger after a transition. -/
def after (ledger : Ledger) (t : ProofTransition) : Ledger :=
  match t.label, t.pre.active.map ProofCall.phase with
  | .answer _ _, some (.calling asked) =>
      if t.post.active.any fun call => !call.phase.isPlain
        then { ledger with pending := some asked }
      else ledger
  | .statement _, some (.committing _) => ⟨ledger.ahead, none⟩
  | .abandon, _ => { ledger with pending := none }
  | _, _ => ledger

/-- Nothing spent is forgotten. -/
theorem mem_after {ledger : Ledger} {q : AccountsRequest} (t : ProofTransition)
    (h : q ∈ ledger.spent) : q ∈ (ledger.after t).spent := by
  unfold after
  split
  · split <;> exact h
  · exact List.mem_append_right _ h
  · exact h
  · exact h

theorem mem_foldl_after {ledger : Ledger} {q : AccountsRequest} (tr : List ProofTransition)
    (h : q ∈ ledger.spent) : q ∈ (tr.foldl after ledger).spent := by
  induction tr generalizing ledger with
  | nil => exact h
  | cons t tr ih => exact ih (mem_after t h)

/-- A commit spends what was pending. -/
theorem after_of_committing {ledger : Ledger} {t : ProofTransition} {call : ProofCall} {now : Nat}
    {answer : Except StorageAuthorityError BriefcaseProof} (hactive : t.pre.active = some call)
    (hphase : call.phase = .committing answer) (hlabel : t.label = .statement now) :
    ledger.after t = ⟨ledger.ahead, none⟩ := by
  simp only [after, hlabel, hactive, hphase, Option.map_some]

theorem mem_ahead_of_pending {ledger : Ledger} {q : AccountsRequest} (h : ledger.pending = some q) :
    q ∈ ledger.ahead := by
  simp [ahead, h]

end Ledger

section Kept

variable (answers : AccountsRequest → IssuedProof → Prop) (proofs : StorageProofs)

/-- The row once the lock holder has saved what it is about to save. -/
def Phase.rowAhead (visible : Option ProofRow) : Phase → Option ProofRow
  | .saving row _ => some row
  | _ => visible

/-- The lock holder has no answer in hand that it saves or commits. -/
def Phase.isOpen : Phase → Bool
  | .saving _ _ => false
  | .committing _ => false
  | _ => true

/-- What the ledger says about the lock holder: the row it is about to commit agrees with the
requests that are spent then, and what it asks is new. -/
structure CallKept (ledger : Ledger) (w : ProofWorld) (call : ProofCall) : Prop where
  row : RowKept answers proofs ledger.ahead (call.phase.rowAhead (w.visible call))
  isOpen : call.phase.isOpen = true → ledger.pending = none
  asked : ∀ q, call.phase = .calling q → Fresh answers ledger.spent q

/-- The ledger agrees with the world. -/
structure Kept (ledger : Ledger) (w : ProofWorld) : Prop where
  spent : SpentKept answers ledger.spent
  ahead : SpentKept answers ledger.ahead
  row : RowKept answers proofs ledger.spent w.row
  idle : w.active = none → ledger.pending = none
  call : ∀ call, w.active = some call → CallKept answers proofs ledger w call

variable {answers proofs} {ledger : Ledger} {w w' : ProofWorld}

theorem Ledger.ahead_of_none (h : ledger.pending = none) : ledger.ahead = ledger.spent := by
  rw [Ledger.ahead, h]
  rfl

theorem Kept.initial : Kept answers proofs .initial .initial where
  spent := ⟨fun _ h => (List.not_mem_nil h).elim, fun _ _ h => (List.not_mem_nil h).elim⟩
  ahead := ⟨fun _ h => (List.not_mem_nil h).elim, fun _ _ h => (List.not_mem_nil h).elim⟩
  row := rfl
  idle := fun _ => rfl
  call := by
    intro call hactive
    cases hactive

/-- The lock is released and nothing is committed. -/
theorem Kept.released (h : Kept answers proofs ledger w) (hrow : w'.row = w.row)
    (hactive : w'.active = none) : Kept answers proofs { ledger with pending := none } w' where
  spent := h.spent
  ahead := h.spent
  row := by rw [hrow]; exact h.row
  idle := fun _ => rfl
  call := by
    intro call hcall
    rw [hactive] at hcall
    cases hcall

/-- The ledger stays, and so does the committed row. -/
theorem Kept.of_call (h : Kept answers proofs ledger w) (hrow : w'.row = w.row)
    (hactive : w'.active.isSome = true)
    (hcall : ∀ call, w'.active = some call → CallKept answers proofs ledger w' call) :
    Kept answers proofs ledger w' where
  spent := h.spent
  ahead := h.ahead
  row := by rw [hrow]; exact h.row
  idle := by
    intro hnone
    rw [hnone] at hactive
    cases hactive
  call := hcall

/-- Only the waiting calls change. -/
theorem Kept.of_eq (h : Kept answers proofs ledger w) (hrow : w'.row = w.row)
    (hactive : w'.active = w.active) : Kept answers proofs ledger w' where
  spent := h.spent
  ahead := h.ahead
  row := by rw [hrow]; exact h.row
  idle := by rw [hactive]; exact h.idle
  call := by
    intro call hcall
    rw [hactive] at hcall
    have hkept := h.call call hcall
    refine ⟨?_, hkept.isOpen, hkept.asked⟩
    rw [ProofWorld.visible, hrow]
    exact hkept.row

/-- Without an answer in hand the visible row agrees with what is spent already. -/
theorem CallKept.visibleRow {call : ProofCall} (h : CallKept answers proofs ledger w call)
    (hopen : call.phase.isOpen = true) :
    ledger.pending = none ∧ RowKept answers proofs ledger.spent (w.visible call) := by
  have hpending := h.isOpen hopen
  have hrow := h.row
  rw [Ledger.ahead_of_none hpending] at hrow
  refine ⟨hpending, ?_⟩
  cases hphase : call.phase with
  | saving row proof =>
      rw [hphase] at hopen
      cases hopen
  | _ =>
      rw [hphase] at hrow
      exact hrow

/-- A plain phase asks and saves nothing. -/
theorem CallKept.of_plain {call : ProofCall} (hplain : call.phase.isPlain = true)
    (hpending : ledger.pending = none)
    (hrow : RowKept answers proofs ledger.spent (w.visible call)) :
    CallKept answers proofs ledger w call := by
  rw [← Ledger.ahead_of_none hpending] at hrow
  refine ⟨?_, fun _ => hpending, ?_⟩
  · cases hphase : call.phase with
    | saving row proof =>
        rw [hphase] at hplain
        cases hplain
    | _ => exact hrow
  · intro q hphase
    rw [hphase] at hplain
    cases hplain

/-- A statement of the lock holder keeps the agreement. -/
theorem Kept.statement {call : ProofCall} {now : Nat} (h : Kept answers proofs ledger w)
    (hactive : w.active = some call) (hstep : w.statement proofs call now = some w') :
    Kept answers proofs (ledger.after ⟨w, .statement now, w'⟩) w' := by
  have hkept := h.call call hactive
  cases stated_of_statement hstep with
  | rolledBack hphase =>
      obtain ⟨hpending, _⟩ := hkept.visibleRow (by rw [hphase]; rfl)
      have hafter : ledger.after ⟨w, .statement now, { w with active := none }⟩ =
          { ledger with pending := none } := by
        simp [Ledger.after, hactive, hphase, ← hpending]
      rw [hafter]
      exact h.released rfl rfl
  | @led phase hphase hleads =>
      have hafter : ∀ w', ledger.after ⟨w, .statement now, w'⟩ = ledger := by
        rcases hphase with hphase | hphase <;> simp [Ledger.after, hactive, hphase]
      have hopen : call.phase.isOpen = true := by
        rcases hphase with hphase | hphase <;> rw [hphase] <;> rfl
      obtain ⟨hpending, hrow⟩ := hkept.visibleRow hopen
      rw [hafter]
      refine h.of_call rfl rfl ?_
      intro next hnext
      cases hnext
      rcases hleads with ⟨q, rfl, hask⟩ | hplain
      · refine ⟨?_, fun _ => hpending, ?_⟩
        · rw [Ledger.ahead_of_none hpending]
          exact hrow
        · intro other heq
          cases heq
          exact asked_fresh hrow hask
      · exact .of_plain hplain hpending hrow
  | @saved row proof hphase =>
      have hafter : ∀ w', ledger.after ⟨w, .statement now, w'⟩ = ledger := by
        simp [Ledger.after, hactive, hphase]
      have hrow := hkept.row
      rw [hphase] at hrow
      rw [hafter]
      refine h.of_call rfl rfl ?_
      intro next hnext
      cases hnext
      refine ⟨hrow, ?_, ?_⟩
      · intro hopen
        cases hopen
      · intro q heq
        cases heq
  | @ended reason next row phase now' hphase hplain hrow =>
      have hafter : ∀ w', ledger.after ⟨w, .statement now, w'⟩ = ledger := by
        simp [Ledger.after, hactive, hphase]
      obtain ⟨hpending, hvisible⟩ := hkept.visibleRow (by rw [hphase]; rfl)
      rw [hrow] at hvisible
      rw [hafter]
      refine h.of_call rfl rfl ?_
      intro next hnext
      cases hnext
      exact .of_plain hplain hpending (RowKept.invalidate reason now' hvisible)
  | @passed reason next phase hphase hplain =>
      have hafter : ∀ w', ledger.after ⟨w, .statement now, w'⟩ = ledger := by
        simp [Ledger.after, hactive, hphase]
      obtain ⟨hpending, hvisible⟩ := hkept.visibleRow (by rw [hphase]; rfl)
      rw [hafter]
      refine h.of_call rfl rfl ?_
      intro next hnext
      cases hnext
      exact .of_plain hplain hpending hvisible
  | @committed answer hphase =>
      have hrow := hkept.row
      rw [hphase] at hrow
      rw [Ledger.after_of_committing hactive hphase rfl]
      exact ⟨h.ahead, h.ahead, hrow, fun _ => rfl, fun _ hnext => by cases hnext⟩

/-- An answer of Accounts keeps the agreement: a request whose answer is saved is spent next. -/
theorem Kept.answer {call : ProofCall} {asked : AccountsRequest}
    {answer : Except ProofError IssuedProof} {now : Nat} (hapart : AnswersApart answers)
    (h : Kept answers proofs ledger w) (hactive : w.active = some call)
    (hphase : call.phase = .calling asked)
    (hanswers : ∀ issued, answer = .ok issued → answers asked issued)
    (hnext : w.continueWith call (proofs.received call.request asked answer now) = w') :
    Kept answers proofs (ledger.after ⟨w, .answer answer now, w'⟩) w' := by
  have hkept := h.call call hactive
  obtain ⟨hpending, hvisible⟩ := hkept.visibleRow (by rw [hphase]; rfl)
  have hfresh := hkept.asked asked hphase
  cases hreceived : proofs.received call.request asked answer now with
  | rollBack error =>
      rw [hreceived] at hnext
      subst hnext
      have hafter : ledger.after ⟨w, .answer answer now, { w with active := none }⟩ =
          { ledger with pending := none } := by
        simp [Ledger.after, hactive, hphase, ← hpending]
      exact hafter ▸ h.released rfl rfl
  | goto phase =>
      rw [hreceived] at hnext
      subst hnext
      rcases received_inv hreceived with hplain | ⟨issued, row, proof, rfl, hsave, rfl⟩
      · have hafter : ledger.after ⟨w, .answer answer now, w.continueWith call (.goto phase)⟩ =
            ledger := by
          simp [Ledger.after, hactive, hphase, ProofWorld.continueWith, hplain]
        rw [hafter]
        refine h.of_call rfl rfl ?_
        intro next heq
        cases heq
        exact .of_plain hplain hpending hvisible
      · have hafter : ledger.after ⟨w, .answer (.ok issued) now,
            w.continueWith call (.goto (.saving row proof))⟩ =
            ⟨ledger.spent, some asked⟩ := by
          simp [Ledger.after, hactive, hphase, ProofWorld.continueWith, Phase.isPlain]
        rw [hafter]
        have hanswer := hanswers issued rfl
        refine ⟨h.spent, h.spent.cons hfresh, h.row, ?_, ?_⟩
        · intro hnone
          cases hnone
        · intro next heq
          cases heq
          refine ⟨hapart.saved_rowKept h.spent hfresh hanswer hsave, ?_, ?_⟩
          · intro hopen
            cases hopen
          · intro q heq
            cases heq

/-- A call that has written nothing sees the committed row. -/
theorem ProofWorld.visible_of_unwritten {call : ProofCall} (h : call.written = none) :
    w.visible call = w.row := by
  rw [ProofWorld.visible, h]
  rfl

/-- The UPDATE of a revocation or of an ended sign-in keeps the agreement. -/
theorem Kept.invalidated {reason : String} {now : Nat} (h : Kept answers proofs ledger w)
    (hstep : w.invalidated reason now = some w') : Kept answers proofs ledger w' := by
  obtain ⟨rfl, hwritten⟩ := ProofWorld.invalidated_some hstep
  refine ⟨h.spent, h.ahead, h.row.invalidate reason now, h.idle, ?_⟩
  intro call hactive
  have hkept := h.call call hactive
  refine ⟨?_, hkept.isOpen, hkept.asked⟩
  have hrow := hkept.row
  cases hold : w.row with
  | none =>
      simp only [ProofWorld.visible, hold] at hrow
      exact hrow
  | some row =>
      have hnone := hwritten (by rw [hold]; rfl) call hactive
      rw [ProofWorld.visible_of_unwritten hnone, hold] at hrow
      rw [ProofWorld.visible_of_unwritten hnone]
      cases hphase : call.phase with
      | saving saved proof =>
          rw [hphase] at hrow
          exact hrow
      | _ =>
          rw [hphase] at hrow
          exact RowKept.invalidate reason now hrow

/-- **Every step keeps the agreement of the ledger with the world.** -/
theorem Kept.step {e : ProofEvent} (hapart : AnswersApart answers)
    (h : Kept answers proofs ledger w) (hstep : ProofStep proofs w e w')
    (hanswers : AnswersAs answers ⟨w, e, w'⟩) :
    Kept answers proofs (ledger.after ⟨w, e, w'⟩) w' := by
  unfold ProofStep at hstep
  cases e with
  | call request =>
      cases hstep
      exact h.of_eq rfl rfl
  | withdraw request =>
      simp only [ProofWorld.next, Option.ite_none_right_eq_some, Option.some.injEq] at hstep
      obtain ⟨_, rfl⟩ := hstep
      exact h.of_eq rfl rfl
  | lock request =>
      simp only [ProofWorld.next, Option.ite_none_right_eq_some, Option.some.injEq] at hstep
      obtain ⟨⟨hfree, _⟩, rfl⟩ := hstep
      refine h.of_call rfl rfl ?_
      intro call hnew
      cases hnew
      exact .of_plain rfl (h.idle (Option.isNone_iff_eq_none.mp hfree)) h.row
  | statement now =>
      simp only [ProofWorld.next, Option.bind_eq_some_iff] at hstep
      obtain ⟨call, hactive, hstep⟩ := hstep
      exact h.statement hactive hstep
  | answer answer now =>
      simp only [ProofWorld.next, Option.bind_eq_some_iff] at hstep
      obtain ⟨call, hactive, hstep⟩ := hstep
      cases hphase : call.phase with
      | calling asked =>
          simp only [hphase, Option.some.injEq] at hstep
          refine h.answer hapart hactive hphase ?_ hstep
          intro issued heq
          exact hanswers call asked issued now hactive hphase (by rw [heq])
      | _ => simp [hphase] at hstep
  | abandon =>
      simp only [ProofWorld.next, Option.map_eq_some_iff] at hstep
      obtain ⟨call, hactive, rfl⟩ := hstep
      exact h.released rfl rfl
  | revoke byCustodian now => exact h.invalidated hstep
  | endSignIns reason now => exact h.invalidated hstep

/-- Along a run the ledger agrees with the world. -/
theorem Kept.run {tr : List ProofTransition} (hapart : AnswersApart answers)
    (h : Kept answers proofs ledger w) (hrun : Run (ProofStep proofs) w tr w')
    (hanswers : ∀ t ∈ tr, AnswersAs answers t) :
    Kept answers proofs (tr.foldl Ledger.after ledger) w' := by
  induction hrun generalizing ledger with
  | nil w => exact h
  | cons hstep _ ih =>
      have hnext := h.step hapart hstep (hanswers _ List.mem_cons_self)
      exact ih hnext fun t ht => hanswers t (List.mem_cons_of_mem _ ht)

/-- While the lock is held, the answer that is saved stays pending. -/
theorem Kept.pending_step {e : ProofEvent} {q : AccountsRequest}
    (h : Kept answers proofs ledger w) (hpending : ledger.pending = some q)
    (hstep : ProofStep proofs w e w') (hheld : w'.active.isSome = true) :
    (ledger.after ⟨w, e, w'⟩).pending = some q := by
  unfold Ledger.after
  split
  · rename_i answer now asked _ hphase
    -- A call that waits for Accounts has no answer in hand.
    obtain ⟨call, hactive, hcalling⟩ := Option.map_eq_some_iff.mp hphase
    have hnone := (h.call call hactive).isOpen (by rw [hcalling]; rfl)
    rw [hpending] at hnone
    cases hnone
  · rename_i now answer hlabel hphase
    obtain ⟨call, hactive, hcommitting⟩ := Option.map_eq_some_iff.mp hphase
    have hlabel : e = .statement now := hlabel
    subst hlabel
    simp only [ProofStep, ProofWorld.next] at hstep
    rw [show w.active = some call from hactive, Option.bind_some, ProofWorld.statement,
      hcommitting] at hstep
    cases hstep
    cases hheld
  · rename_i hlabel
    have hlabel : e = .abandon := hlabel
    subst hlabel
    simp only [ProofStep, ProofWorld.next, Option.map_eq_some_iff] at hstep
    obtain ⟨call, _, rfl⟩ := hstep
    cases hheld
  · exact hpending

/-- So it does over a run in which the lock is held. -/
theorem Kept.pending_run {tr : List ProofTransition} {q : AccountsRequest}
    (hapart : AnswersApart answers) (h : Kept answers proofs ledger w)
    (hpending : ledger.pending = some q) (hrun : Run (ProofStep proofs) w tr w')
    (hanswers : ∀ t ∈ tr, AnswersAs answers t) (hheld : ∀ t ∈ tr, t.post.active.isSome = true) :
    (tr.foldl Ledger.after ledger).pending = some q := by
  induction hrun generalizing ledger with
  | nil w => exact hpending
  | cons hstep _ ih =>
      have hnext := h.step hapart hstep (hanswers _ List.mem_cons_self)
      have hstill := h.pending_step hpending hstep (hheld _ List.mem_cons_self)
      apply ih hnext hstill
      · intro t ht
        exact hanswers t (List.mem_cons_of_mem _ ht)
      · intro t ht
        exact hheld t (List.mem_cons_of_mem _ ht)

end Kept

/-! ## The discipline -/

section Discipline

variable {proofs : StorageProofs} {w w' : ProofWorld}

/-- A refresh token is presented under its own key, by a statement of the lock holder. -/
theorem Presents.asks {e : ProofEvent} {refresh key : String} (hstep : ProofStep proofs w e w')
    (h : Presents ⟨w, e, w'⟩ refresh key) :
    ∃ call, w.active = some call ∧ call.phase.isPlain = true ∧
      key = proofs.refreshKey refresh := by
  obtain ⟨⟨now, rfl⟩, next, hnext, hphase⟩ := h
  simp only [ProofStep, ProofWorld.next, Option.bind_eq_some_iff] at hstep
  obtain ⟨call, hactive, hstep⟩ := hstep
  refine ⟨call, hactive, ?_⟩
  have hplainly : ∀ {phase : Phase}, phase.isPlain = true →
      phase ≠ .calling (.refreshProof refresh key) := by
    rintro phase hplain rfl
    cases hplain
  cases stated_of_statement hstep with
  | rolledBack hphase => cases hnext
  | led hbefore hleads =>
      cases hnext
      rcases hleads with ⟨q, rfl, hask⟩ | hplain
      · cases hphase
        cases hask
        refine ⟨?_, rfl⟩
        rcases hbefore with hbefore | hbefore <;> rw [hbefore] <;> rfl
      · exact absurd hphase (hplainly hplain)
  | saved hbefore =>
      cases hnext
      cases hphase
  | ended _ hbefore hplain _ =>
      cases hnext
      exact absurd hphase (hplainly hplain)
  | passed hbefore hplain =>
      cases hnext
      exact absurd hphase (hplainly hplain)
  | committed hbefore => cases hnext

/-- A call that waits for Accounts waits until the answer comes or the call is dropped. -/
theorem calling_step {e : ProofEvent} {call : ProofCall} {q : AccountsRequest}
    (hactive : w.active = some call) (hphase : call.phase = .calling q)
    (hstep : ProofStep proofs w e w') :
    w'.active = some call ∨ EndsRequest ⟨w, e, w'⟩ := by
  unfold ProofStep at hstep
  cases e with
  | call request =>
      cases hstep
      exact .inl hactive
  | withdraw request =>
      simp only [ProofWorld.next, Option.ite_none_right_eq_some, Option.some.injEq] at hstep
      obtain ⟨_, rfl⟩ := hstep
      exact .inl hactive
  | lock request =>
      simp only [ProofWorld.next, Option.ite_none_right_eq_some, hactive] at hstep
      cases hstep.1.1
  | statement now => simp [ProofWorld.next, hactive, ProofWorld.statement, hphase] at hstep
  | answer answer now => exact .inr (.inl ⟨answer, now, rfl⟩)
  | abandon => exact .inr (.inr rfl)
  | revoke byCustodian now =>
      obtain ⟨rfl, _⟩ := ProofWorld.invalidated_some hstep
      exact .inl hactive
  | endSignIns reason now =>
      obtain ⟨rfl, _⟩ := ProofWorld.invalidated_some hstep
      exact .inl hactive

variable {tr : List ProofTransition}

/-- Each presentation of a run carries the key of its refresh token. -/
theorem Presents.key_eq {t : ProofTransition} {refresh key : String}
    (hrun : Run (ProofStep proofs) w tr w') (ht : t ∈ tr) (h : Presents t refresh key) :
    key = proofs.refreshKey refresh := by
  obtain ⟨tr₁, tr₂, rfl⟩ := List.append_of_mem ht
  obtain ⟨_, hstep, _⟩ := hrun.split_mem
  obtain ⟨_, _, _, hkey⟩ := Presents.asks hstep h
  exact hkey

/-- Different tokens have different keys unless SHA-256 collides. -/
theorem refreshKey_inj {refresh refresh' : String}
    (h : proofs.refreshKey refresh = proofs.refreshKey refresh') :
    proofs.sha256 (utf8 refresh) = proofs.sha256 (utf8 refresh') := by
  have hencoded := String.append_right_inj _ |>.mp h
  have hbytes := Base64.encode_inj (String.ofList_injective hencoded)
  exact Vector.toList_inj.mp hbytes

/-- Between two presentations the first one is answered or dropped. -/
theorem exists_endsRequest {t t' : ProofTransition} {mid : List ProofTransition}
    {refresh refresh' key key' : String} (hrun : Run (ProofStep proofs) w tr w')
    (horder : InOrder tr t mid t') (h : Presents t refresh key) (h' : Presents t' refresh' key') :
    ∃ e ∈ mid, EndsRequest e := by
  obtain ⟨_, _, hmid, hstep⟩ := hrun.inOrder horder
  obtain ⟨_, call, hactive, hphase⟩ := h
  have hwaits := hmid.stable_unless (fun w => w.active = some call) EndsRequest
    (fun _ _ _ hcall hstep => calling_step hcall hphase hstep) hactive
  rcases hwaits with hstill | hends
  · -- The second presentation is not made by a call that waits for Accounts.
    obtain ⟨other, hother, hplain, _⟩ := Presents.asks hstep h'
    rw [hstill] at hother
    cases hother
    rw [hphase] at hplain
    cases hplain
  · exact hends

/-- Once its rotated pair is committed, a refresh token is spent. -/
theorem spent_of_committed {answers : AccountsRequest → IssuedProof → Prop} {ledger : Ledger}
    {refresh : String} {answered committed : ProofTransition} {mid rest : List ProofTransition}
    (hapart : AnswersApart answers) (h : Kept answers proofs ledger answered.pre)
    (hrun : Run (ProofStep proofs) answered.pre (answered :: (mid ++ committed :: rest)) w')
    (hanswers : ∀ t ∈ answered :: (mid ++ committed :: rest), AnswersAs answers t)
    (hrotates : Rotates answered refresh) (hheld : ∀ e ∈ mid, e.post.active.isSome = true)
    (hcommits : Commits committed) :
    ∃ ledger', Kept answers proofs ledger' committed.post ∧
      ∃ key, .refreshProof refresh key ∈ ledger'.spent := by
  obtain ⟨_, hstep, hafter⟩ := Run.cons_iff.mp hrun
  obtain ⟨hmid, hcommit, _⟩ := hafter.split_mem
  have hmem : ∀ t ∈ mid, AnswersAs answers t := by
    intro t ht
    exact hanswers t (List.mem_cons_of_mem _ (List.mem_append_left _ ht))
  have hsaved := h.step hapart hstep (hanswers _ List.mem_cons_self)
  obtain ⟨call, key, issued, now, next, row, proof, hpre, hcalling, hlabel, hpost, hsaving⟩ :=
    hrotates
  have hpending : (ledger.after answered).pending = some (.refreshProof refresh key) := by
    simp [Ledger.after, hpre, hcalling, hlabel, hpost, hsaving, Phase.isPlain]
  have hthen := hsaved.pending_run hapart hpending hmid hmem hheld
  have hbefore := hsaved.run hapart hmid hmem
  have hlast := hbefore.step hapart hcommit
    (hanswers _ (List.mem_cons_of_mem _ (List.mem_append_right _ List.mem_cons_self)))
  obtain ⟨call', answer, now', hpre', hcommitting, hlabel'⟩ := hcommits
  rw [Ledger.after_of_committing hpre' hcommitting hlabel'] at hlast
  exact ⟨_, hlast, key, Ledger.mem_ahead_of_pending hthen⟩

/-- **The calls of an account present each refresh token under one key, one token at a time, and
none again once its rotated pair has been committed.** -/
theorem run_refreshDiscipline {answers : AccountsRequest → IssuedProof → Prop}
    (hapart : AnswersApart answers) (hrun : Run (ProofStep proofs) .initial tr w')
    (hanswers : ∀ t ∈ tr, AnswersAs answers t) (hsha : Sha256Apart proofs tr) :
    RefreshDiscipline tr where
  oneKey := by
    intro t ht t' ht' refresh key key' h h'
    rw [h.key_eq hrun ht, h'.key_eq hrun ht']
  keysDiffer := by
    intro t ht t' ht' refresh refresh' key key' h h' hne heq
    rw [h.key_eq hrun ht, h'.key_eq hrun ht'] at heq
    exact hne (hsha t ht t' ht' _ _ _ _ h h' (refreshKey_inj heq))
  oneAtATime := by
    intro t mid t' horder refresh refresh' key key' h h'
    exact exists_endsRequest hrun horder h h'
  neverAgain := by
    intro before answered mid committed rest refresh htr hrotates hheld hcommits t ht key hpresents
    subst htr
    obtain ⟨hbefore, hstep, hafter⟩ := hrun.split_mem
    have hkept := Kept.initial.run hapart hbefore
      fun e he => hanswers e (List.mem_append_left _ he)
    obtain ⟨ledger, hcommitted, key', hspent⟩ :=
      spent_of_committed hapart hkept (.cons hstep hafter)
      (fun e he => hanswers e (List.mem_append_right _ he)) hrotates hheld hcommits
    -- The presentation comes from a world whose ledger still has the token.
    obtain ⟨tr₁, tr₂, rfl⟩ := List.append_of_mem ht
    obtain ⟨_, _, hrest⟩ := hafter.split_mem
    have hall : ∀ e ∈ tr₁ ++ t :: tr₂, AnswersAs answers e := by
      intro e he
      apply hanswers
      exact List.mem_append_right _ (List.mem_cons_of_mem _ (List.mem_append_right _
        (List.mem_cons_of_mem _ he)))
    obtain ⟨hbetween, hpresent, _⟩ := hrest.split_mem
    have hpre := hcommitted.run hapart hbetween fun e he => hall e (List.mem_append_left _ he)
    have hpost := hpre.step hapart hpresent (hall t (List.mem_append_right _ List.mem_cons_self))
    obtain ⟨_, call, hactive, hphase⟩ := hpresents
    have hfresh := (hpost.call call hactive).asked _ hphase
    apply hfresh.unpresented refresh key rfl key'
    exact Ledger.mem_after t (Ledger.mem_foldl_after tr₁ hspent)

end Discipline

/-- The first issuance for the account. -/
def sampleIssue : AccountsRequest :=
  .issueUserVerification sampleAccessToken "briefcase" briefcaseScopes
    ⟨sampleProofs.storageKey, sampleAccessToken, "none"⟩

/-- The answer to it: the pair of `expiringRow`. -/
def firstIssued : IssuedProof where
  proofId := "proof-1"
  scopes := briefcaseScopes
  proofToken := "sap_1"
  expiresAt := some (10 * microsPerSecond)
  proofRefreshToken := some "sapr_1"
  refreshExpiresAt := none

/-- The answer to the refresh of that pair. -/
def rotatedIssued : IssuedProof := { sampleIssued with proofId := "proof-1" }

/-- Accounts answers the two requests. -/
inductive SampleAnswers : AccountsRequest → IssuedProof → Prop where
  | issued : SampleAnswers sampleIssue firstIssued
  | rotated : SampleAnswers (.refreshProof "sapr_1" (sampleProofs.refreshKey "sapr_1"))
      rotatedIssued

theorem sampleAnswers_apart : AnswersApart SampleAnswers where
  token := by
    intro q q' issued issued' refresh h h' hrefresh hrefresh'
    cases h <;> cases h'
    · rfl
    · exact absurd (hrefresh.trans hrefresh'.symm) (by decide)
    · exact absurd (hrefresh.trans hrefresh'.symm) (by decide)
    · rfl
  proof := by
    intro q q' issued issued' hissue hissue' h h' _
    cases h with
    | issued =>
        cases h' with
        | issued => rfl
        | rotated => cases hissue'
    | rotated => cases hissue
  rotation := by
    intro q issued refresh key issued' h _ h'
    cases h' with
    | rotated => cases h <;> rfl
  named := by
    intro q issued h
    cases h <;> decide

/-- A step in which Accounts answers as in the sample and only the first refresh token is
presented. -/
def SampleStep (t : ProofTransition) : Prop :=
  AnswersAs SampleAnswers t ∧ ∀ refresh key, Presents t refresh key → refresh = "sapr_1"

/-- A step to a call that waits for no refresh is one. -/
theorem SampleStep.of_plain {w w' : ProofWorld} {e : ProofEvent}
    (hlabel : ∀ issued now, e ≠ .answer (.ok issued) now)
    (hasked : ∀ call refresh key, w'.active = some call →
      call.phase = .calling (.refreshProof refresh key) → refresh = "sapr_1") :
    SampleStep ⟨w, e, w'⟩ := by
  constructor
  · intro call asked issued now _ _ heq
    exact absurd heq (hlabel issued now)
  · rintro refresh key ⟨_, call, hactive, hphase⟩
    exact hasked call refresh key hactive hphase

/-- An answer of the sample is one. -/
theorem SampleStep.of_answer {w w' : ProofWorld} {call : ProofCall} {asked : AccountsRequest}
    {issued : IssuedProof} {now : Nat} (hactive : w.active = some call)
    (hphase : call.phase = .calling asked) (hanswer : SampleAnswers asked issued) :
    SampleStep ⟨w, .answer (.ok issued) now, w'⟩ := by
  constructor
  · rintro call' asked' issued' now' hactive' hphase' heq
    cases heq
    cases hactive.symm.trans hactive'
    cases hphase.symm.trans hphase'
    exact hanswer
  · rintro refresh key ⟨⟨now', heq⟩, _⟩
    cases heq

/-- A run of such steps. -/
def SampleRun (w w' : ProofWorld) : Prop :=
  ∃ tr, Run (ProofStep sampleProofs) w tr w' ∧ ∀ t ∈ tr, SampleStep t

theorem SampleRun.refl (w : ProofWorld) : SampleRun w w :=
  ⟨[], .nil w, fun _ ht => absurd ht List.not_mem_nil⟩

theorem SampleRun.step {w v w' : ProofWorld} {e : ProofEvent} (hstep : ProofStep sampleProofs w e v)
    (h : SampleStep ⟨w, e, v⟩) (hrest : SampleRun v w') : SampleRun w w' := by
  obtain ⟨tr, hrun, hall⟩ := hrest
  exact ⟨_, .cons hstep hrun, List.forall_mem_cons.mpr ⟨h, hall⟩⟩

/-- A request takes the lock. -/
theorem SampleRun.locked {row : Option ProofRow} (request : ProofRequest) {w' : ProofWorld}
    (hrest : SampleRun ⟨row, [], some ⟨request, .locked, none⟩⟩ w') :
    SampleRun ⟨row, [], none⟩ w' := by
  apply SampleRun.step (e := .call request) rfl
  · apply SampleStep.of_plain
    · intro issued now heq
      cases heq
    · intro call refresh key hactive
      cases hactive
  · apply SampleRun.step (e := .lock request) (v := ⟨row, [], some ⟨request, .locked, none⟩⟩)
    · simp [ProofStep, ProofWorld.next]
    · apply SampleStep.of_plain
      · intro issued now heq
        cases heq
      · rintro call refresh key ⟨⟩ ⟨⟩
    · exact hrest

/-- A statement of the lock holder that asks for nothing but the first rotation. -/
theorem SampleRun.statement {row row' : Option ProofRow} {call : ProofCall}
    {next : Option ProofCall} {w' : ProofWorld}
    (hstep : ProofStep sampleProofs ⟨row, [], some call⟩ (.statement 0) ⟨row', [], next⟩)
    (hasked : ∀ call refresh key, next = some call →
      call.phase = .calling (.refreshProof refresh key) → refresh = "sapr_1")
    (hrest : SampleRun ⟨row', [], next⟩ w') : SampleRun ⟨row, [], some call⟩ w' := by
  refine SampleRun.step hstep (SampleStep.of_plain ?_ hasked) hrest
  intro issued now heq
  cases heq

/-- Accounts answers, and the lock holder saves the pair and commits it. -/
theorem SampleRun.answered {row : Option ProofRow} {request : ProofRequest}
    {asked : AccountsRequest} {issued : IssuedProof} {saved : ProofRow} {proof : BriefcaseProof}
    {w' : ProofWorld} (hanswer : SampleAnswers asked issued)
    (hsave : sampleProofs.prepareSave issued 0 = .ok (saved, proof))
    (hrest : SampleRun ⟨some saved, [], none⟩ w') :
    SampleRun ⟨row, [], some ⟨request, .calling asked, none⟩⟩ w' := by
  have hreceived : ProofStep sampleProofs ⟨row, [], some ⟨request, .calling asked, none⟩⟩
      (.answer (.ok issued) 0) ⟨row, [], some ⟨request, .saving saved proof, none⟩⟩ := by
    simp [ProofStep, ProofWorld.next, StorageProofs.received, hsave, ProofWorld.continueWith]
  apply SampleRun.step hreceived
  · exact SampleStep.of_answer rfl rfl hanswer
  · refine @SampleRun.statement row row _ (some ⟨request, .committing (.ok proof), some saved⟩) _
      ?_ ?_ ?_
    · rfl
    · rintro call refresh key ⟨⟩ ⟨⟩
    · refine @SampleRun.statement row (some saved) _ none _ ?_ ?_ hrest
      · rfl
      · rintro call refresh key ⟨⟩

/-- The account approves, a refresh loses its answer, and the retry commits the rotated pair. -/
theorem run_refreshDiscipline_retry :
    ∃ tr row, Run (ProofStep sampleProofs) .initial tr ⟨some row, [], none⟩ ∧
      heldRefresh sampleProofs row = some "sapr_2" ∧ RefreshDiscipline tr := by
  let speak : ProofRequest := .briefcaseProof (some sampleAccessToken)
  obtain ⟨row, proof, hsave⟩ : ∃ row proof,
      sampleProofs.prepareSave rotatedIssued 0 = .ok (row, proof) := ⟨_, _, rfl⟩
  have hrefreshes : ∀ call refresh key, some refreshingCall = some call →
      call.phase = .calling (.refreshProof refresh key) → refresh = "sapr_1" := by
    rintro call refresh key ⟨⟩ ⟨⟩
    rfl
  have hrun : SampleRun .initial ⟨some row, [], none⟩ := by
    apply SampleRun.locked (.approve sampleAccessToken)
    refine @SampleRun.statement none none _ (some ⟨.approve sampleAccessToken,
      .calling sampleIssue, none⟩) _ ?_ ?_ ?_
    · rfl
    · rintro call refresh key ⟨⟩ ⟨⟩
    refine SampleRun.answered .issued (show sampleProofs.prepareSave firstIssued 0 =
      .ok (expiringRow, _) from rfl) ?_
    apply SampleRun.locked speak
    refine @SampleRun.statement (some expiringRow) (some expiringRow) _ (some refreshingCall) _ ?_
      hrefreshes ?_
    · rfl
    -- The answer is lost: the call is dropped and another one presents the token again.
    refine @SampleRun.step _ ⟨some expiringRow, [], none⟩ _ .abandon ?_ ?_ ?_
    · rfl
    · apply SampleStep.of_plain
      · intro issued now heq
        cases heq
      · rintro call refresh key ⟨⟩
    apply SampleRun.locked speak
    refine @SampleRun.statement (some expiringRow) (some expiringRow) _ (some refreshingCall) _ ?_
      hrefreshes ?_
    · rfl
    exact SampleRun.answered .rotated hsave (.refl _)
  obtain ⟨tr, htr, hall⟩ := hrun
  refine ⟨tr, row, htr, (prepareSave_spec hsave).2, ?_⟩
  apply run_refreshDiscipline sampleAnswers_apart htr
  · intro t ht
    exact (hall t ht).1
  · intro t ht t' ht' refresh refresh' key key' h h' _
    rw [(hall t ht).2 refresh key h, (hall t' ht').2 refresh' key' h']

end Waveform.Storage
