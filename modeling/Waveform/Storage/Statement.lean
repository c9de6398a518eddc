import Waveform.Storage.Proofs

/-!
# What a statement of the lock holder does

The calls read the account's row, ask Accounts, and write the row, in several branches. Here each
of them is described once, for the arguments about runs:

- `stored_leadsFrom`, `renew_leadsFrom`, `replace_leadsFrom`: a call asks only what the row it sees
  allows.
- `stated_of_statement`: the worlds that a statement of the lock holder leads to.
- `received_inv`, `prepareSave_spec`: what becomes of an answer.
-/

set_option autoImplicit false

namespace Waveform.Storage

open Waveform.Domain

variable (proofs : StorageProofs)

/-- The refresh token of a row, opened. -/
def heldRefresh (row : ProofRow) : Option String :=
  row.refreshCipher.bind fun cipher => proofs.vault.openSecret (proofs.context "refresh") cipher

/-- A request that a call may send with the row it sees. -/
inductive MayAsk (row : Option ProofRow) : AccountsRequest → Prop where
  | refresh {live : ProofRow} {refresh : String} (hrow : row = some live)
      (hheld : heldRefresh proofs live = some refresh) :
      MayAsk row (.refreshProof refresh (proofs.refreshKey refresh))
  | issue (subjectToken : AccessToken) :
      MayAsk row (.issueUserVerification subjectToken proofs.receivingApp briefcaseScopes
        ⟨proofs.storageKey, subjectToken, (row.map ProofRow.proofId).getD "none"⟩)

/-- The phases that neither wait for Accounts nor save its answer. -/
def Phase.isPlain : Phase → Bool
  | .calling _ => false
  | .saving _ _ => false
  | _ => true

/-- Where the first SELECT or `replace` leads: to a request that the row allows, or on without
one. -/
def LeadsFrom (row : Option ProofRow) (phase : Phase) : Prop :=
  (∃ q, phase = .calling q ∧ MayAsk proofs row q) ∨ phase.isPlain = true

variable {proofs}

theorem LeadsFrom.plain {row : Option ProofRow} {phase : Phase} (h : phase.isPlain = true) :
    LeadsFrom proofs row phase :=
  .inr h

theorem LeadsFrom.issue {row : Option ProofRow} {subjectToken : AccessToken} :
    LeadsFrom proofs row (proofs.issue subjectToken (row.map ProofRow.proofId)) :=
  .inl ⟨_, rfl, .issue subjectToken⟩

/-- A sealed refresh token that has not expired is the one of the row. -/
theorem LeadsFrom.presentRefresh {row : Option ProofRow} {live : ProofRow} {now : Nat}
    {cipher : Cipher ProofContext} {refresh : String}
    (hrow : row.filter ProofRow.active = some live)
    (hcipher : StorageProofs.refreshable live now = some cipher)
    (hopen : proofs.vault.openSecret (proofs.context "refresh") cipher = some refresh) :
    LeadsFrom proofs row (proofs.presentRefresh refresh) := by
  obtain ⟨hsome, _⟩ := Option.filter_eq_some_iff.mp hrow
  obtain ⟨hheld, _⟩ := Option.filter_eq_some_iff.mp hcipher
  refine .inl ⟨_, rfl, .refresh hsome ?_⟩
  rw [heldRefresh, hheld, Option.bind_some, hopen]

/-- `stored` presents the refresh token of the live row only. -/
theorem stored_leadsFrom {row : Option ProofRow} {now : Nat} {phase : Phase}
    (h : proofs.stored row now = .goto phase) : LeadsFrom proofs row phase := by
  unfold StorageProofs.stored at h
  split at h
  · cases h
    exact .plain rfl
  · rename_i live hrow
    split at h
    · split at h
      · cases h
        exact .plain rfl
      · cases h
    · split at h
      · cases h
        exact .plain rfl
      · rename_i cipher hcipher
        split at h
        · rename_i refresh hopen
          cases h
          exact .presentRefresh hrow hcipher hopen
        · cases h

/-- `renew` presents the refresh token of the live row only. -/
theorem renew_leadsFrom (row : Option ProofRow) (now : Nat) (refused : BriefcaseProof) :
    LeadsFrom proofs row (proofs.renew row now refused) := by
  unfold StorageProofs.renew
  split
  · exact .plain rfl
  · rename_i live hrow
    split
    · exact .plain rfl
    · split
      · split <;> exact .plain rfl
      · split
        · exact .plain rfl
        · rename_i cipher hcipher
          split
          · rename_i refresh hopen
            exact .presentRefresh hrow hcipher hopen
          · exact .plain rfl

/-- `replace` issues against the row it sees. -/
theorem replace_leadsFrom (row : Option ProofRow) (subjectToken : Option AccessToken) :
    LeadsFrom proofs row (proofs.replace row subjectToken) := by
  cases subjectToken with
  | none => exact .plain rfl
  | some subjectToken =>
      simp only [StorageProofs.replace]
      split
      · exact .plain rfl
      · exact .issue

theorem begin_leadsFrom {request : ProofRequest} {row : Option ProofRow} {now : Nat} {phase : Phase}
    (h : proofs.begin request row now = .goto phase) : LeadsFrom proofs row phase := by
  cases request with
  | briefcaseProof subjectToken => exact stored_leadsFrom h
  | renewRefusedProof subjectToken refused =>
      cases h
      exact renew_leadsFrom row now refused
  | approve subjectToken =>
      cases h
      exact .issue

variable (proofs)

/-- The worlds that a statement of the lock holder leads to. -/
inductive Stated (w : ProofWorld) (call : ProofCall) : ProofWorld → Prop where
  | rolledBack (hphase : call.phase = .locked) : Stated w call { w with active := none }
  | led {phase : Phase} (hphase : call.phase = .locked ∨ call.phase = .replacing)
      (hleads : LeadsFrom proofs (w.visible call) phase) :
      Stated w call { w with active := some { call with phase := phase } }
  | saved {row : ProofRow} {proof : BriefcaseProof} (hphase : call.phase = .saving row proof) :
      Stated w call { w with active := some { call with
        phase := .committing (.ok proof)
        written := some row } }
  | ended {reason : String} {next : AfterInvalidation} {row : ProofRow} {phase : Phase} (now : Nat)
      (hphase : call.phase = .invalidating reason next) (hplain : phase.isPlain = true)
      (hrow : w.visible call = some row) :
      Stated w call { w with active := some { call with
        phase := phase
        written := some (row.invalidate reason now) } }
  | passed {reason : String} {next : AfterInvalidation} {phase : Phase}
      (hphase : call.phase = .invalidating reason next) (hplain : phase.isPlain = true) :
      Stated w call { w with active := some { call with phase := phase } }
  | committed {answer : Except StorageAuthorityError BriefcaseProof}
      (hphase : call.phase = .committing answer) :
      Stated w call { w with row := w.visible call, active := none }

variable {proofs}

theorem stated_of_statement {w w' : ProofWorld} {call : ProofCall} {now : Nat}
    (h : w.statement proofs call now = some w') : Stated proofs w call w' := by
  unfold ProofWorld.statement at h
  cases hphase : call.phase with
  | locked =>
      simp only [hphase, Option.some.injEq] at h
      cases hbegin : proofs.begin call.request (w.visible call) now with
      | rollBack error =>
          rw [hbegin] at h
          cases h
          exact .rolledBack hphase
      | goto phase =>
          rw [hbegin] at h
          cases h
          exact .led (.inl hphase) (begin_leadsFrom hbegin)
  | calling asked => simp only [hphase, reduceCtorEq] at h
  | saving row proof =>
      simp only [hphase, Option.some.injEq] at h
      cases h
      exact .saved hphase
  | invalidating reason next =>
      simp only [hphase, Option.some.injEq] at h
      subst h
      cases hrow : w.visible call with
      | none => exact .passed hphase (by cases next <;> rfl)
      | some row =>
          by_cases hactive : row.active = true
          · simp only [hactive, if_true]
            exact .ended now hphase (by cases next <;> rfl) hrow
          · simp only [hactive, Bool.false_eq_true, if_false]
            exact .passed hphase (by cases next <;> rfl)
  | replacing =>
      simp only [hphase, Option.some.injEq] at h
      cases h
      exact .led (.inr hphase) (replace_leadsFrom _ _)
  | committing answer =>
      simp only [hphase, Option.some.injEq] at h
      cases h
      exact .committed hphase

/-- What the lock holder does with an answer: it saves what Accounts issued, or goes on without. -/
theorem received_inv {request : ProofRequest} {asked : AccountsRequest}
    {answer : Except ProofError IssuedProof} {now : Nat} {phase : Phase}
    (h : proofs.received request asked answer now = .goto phase) :
    phase.isPlain = true ∨ ∃ issued row proof, answer = .ok issued ∧
      proofs.prepareSave issued now = .ok (row, proof) ∧ phase = .saving row proof := by
  have hfail : ∀ {error : StorageAuthorityError},
      StorageProofs.failCall request asked error = .goto phase → phase.isPlain = true := by
    intro error hfailed
    unfold StorageProofs.failCall at hfailed
    split at hfailed <;> cases hfailed
    rfl
  unfold StorageProofs.received at h
  split at h
  · rename_i issued
    split at h
    · rename_i row proof hsave
      cases h
      exact .inr ⟨issued, row, proof, rfl, hsave, rfl⟩
    · exact .inl (hfail h)
  · split at h
    · cases h
      exact .inl rfl
    · split at h <;> cases h <;> exact .inl rfl
    · exact .inl (hfail h)

/-- The row that `save` writes holds the tokens that Accounts issued. -/
theorem prepareSave_spec {issued : IssuedProof} {now : Nat} {row : ProofRow}
    {proof : BriefcaseProof} (h : proofs.prepareSave issued now = .ok (row, proof)) :
    row.proofId = issued.proofId ∧ heldRefresh proofs row = issued.proofRefreshToken := by
  unfold StorageProofs.prepareSave at h
  split at h
  · cases h
    refine ⟨rfl, ?_⟩
    cases hrefresh : issued.proofRefreshToken with
    | none => rfl
    | some refresh => simp [heldRefresh, Vault.openSecret_sealSecret]
  · cases h

/-- An ended row keeps its proof id and holds no new refresh token. -/
theorem heldRefresh_invalidate {row : ProofRow} {reason refresh : String} {now : Nat}
    (h : heldRefresh proofs (row.invalidate reason now) = some refresh) :
    heldRefresh proofs row = some refresh := by
  unfold ProofRow.invalidate at h
  split at h
  · cases h
  · exact h

theorem ProofRow.invalidate_proofId (row : ProofRow) (reason : String) (now : Nat) :
    (row.invalidate reason now).proofId = row.proofId := by
  unfold ProofRow.invalidate
  split <;> rfl

end Waveform.Storage
