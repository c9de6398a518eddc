import Waveform.Storage.Revocation

/-!
# The requests of one call to Accounts

A call that needs a proof holds the lock until it commits or rolls back, and asks Accounts on its
way: it presents the refresh token it finds and, when that is refused, asks for a new proof. How
many requests are still ahead of it is read off its phase, and no statement and no answer adds one.

- `run_answers_le`: while one call holds the lock, it receives no more answers than were ahead of
  it, and so two at most.
-/

set_option autoImplicit false

namespace Waveform.Storage

open Waveform.Domain
open LabelledRun

/-- The requests to Accounts that may still be answered to a call in a phase. -/
def Phase.requestsLeft : Phase → Nat
  | .locked => 2
  | .calling (.refreshProof _ _) => 2
  | .calling (.issueUserVerification _ _ _ _) => 1
  | .saving _ _ => 0
  | .invalidating _ .replace => 1
  | .invalidating _ (.fail _) => 0
  | .replacing => 1
  | .committing _ => 0

/-- Those of the lock holder. -/
def ProofWorld.requestsLeft (w : ProofWorld) : Nat :=
  w.active.elim 0 fun call => call.phase.requestsLeft

/-- An answer of Accounts. -/
def ProofEvent.isAnswer : ProofEvent → Bool
  | .answer _ _ => true
  | _ => false

/-- A call takes the lock. -/
def ProofEvent.isLock : ProofEvent → Bool
  | .lock _ => true
  | _ => false

section Phases

variable {proofs : StorageProofs}

/-- No phase has more ahead of it than the first one. -/
theorem Phase.requestsLeft_le (phase : Phase) : phase.requestsLeft ≤ Phase.locked.requestsLeft := by
  cases phase with
  | locked => exact Nat.le_refl 2
  | calling asked =>
      cases asked with
      | issueUserVerification => exact Nat.le_succ 1
      | refreshProof => exact Nat.le_refl 2
  | saving row proof => exact Nat.zero_le 2
  | invalidating reason next =>
      cases next with
      | replace => exact Nat.le_succ 1
      | fail error => exact Nat.zero_le 2
  | replacing => exact Nat.le_succ 1
  | committing answer => exact Nat.zero_le 2

/-- A call that waits for an answer has that one ahead of it. -/
theorem calling_requestsLeft (asked : AccountsRequest) :
    1 ≤ (Phase.calling asked).requestsLeft := by
  cases asked with
  | issueUserVerification => exact Nat.le_refl 1
  | refreshProof => exact Nat.le_succ 1

/-- `replace` asks once at most. -/
theorem replace_requestsLeft (row : Option ProofRow) (subjectToken : Option AccessToken) :
    (proofs.replace row subjectToken).requestsLeft ≤ 1 := by
  cases subjectToken with
  | none => exact Nat.zero_le 1
  | some subjectToken =>
      simp only [StorageProofs.replace]
      split
      · exact Nat.zero_le 1
      · exact Nat.le_refl 1

/-- A failure after an answer leads to no further request. -/
theorem failCall_requestsLeft {request : ProofRequest} {asked : AccountsRequest}
    {error : StorageAuthorityError} {phase : Phase}
    (h : StorageProofs.failCall request asked error = .goto phase) : phase.requestsLeft = 0 := by
  unfold StorageProofs.failCall at h
  split at h <;> cases h
  rfl

/-- An answer uses up the request it answers. -/
theorem received_requestsLeft {request : ProofRequest} {asked : AccountsRequest}
    {answer : Except ProofError IssuedProof} {now : Nat} {phase : Phase}
    (h : proofs.received request asked answer now = .goto phase) :
    phase.requestsLeft + 1 ≤ (Phase.calling asked).requestsLeft := by
  have hasked := calling_requestsLeft asked
  have hfail : ∀ {error : StorageAuthorityError},
      StorageProofs.failCall request asked error = .goto phase →
      phase.requestsLeft + 1 ≤ (Phase.calling asked).requestsLeft := by
    intro error hfailed
    rw [failCall_requestsLeft hfailed]
    exact hasked
  unfold StorageProofs.received at h
  split at h
  · split at h
    · cases h
      exact hasked
    · exact hfail h
  · split at h
    -- Only a refused refresh goes on to a second request.
    · cases h
      exact Nat.le_refl 2
    · split at h
      · cases h
        exact hasked
      · cases h
        exact Nat.le_refl 2
    · exact hfail h

end Phases

section Runs

variable {proofs : StorageProofs} {w w' : ProofWorld}

/-- A statement of the lock holder adds no request. -/
theorem statement_requestsLeft {call : ProofCall} {now : Nat} (hactive : w.active = some call)
    (h : w.statement proofs call now = some w') : w'.requestsLeft ≤ w.requestsLeft := by
  have hleft : w.requestsLeft = call.phase.requestsLeft := by
    rw [ProofWorld.requestsLeft, hactive]; rfl
  rw [hleft]
  unfold ProofWorld.statement at h
  cases hphase : call.phase with
  | locked =>
      simp only [hphase, Option.some.injEq] at h
      subst h
      cases proofs.begin call.request (w.visible call) now with
      | rollBack error => exact Nat.zero_le 2
      | goto phase => exact phase.requestsLeft_le
  | calling asked => simp only [hphase, reduceCtorEq] at h
  | saving row proof =>
      simp only [hphase, Option.some.injEq] at h
      subst h
      exact Nat.le_refl 0
  | invalidating reason next =>
      simp only [hphase, Option.some.injEq] at h
      subst h
      cases next with
      | replace => exact Nat.le_refl 1
      | fail error => exact Nat.le_refl 0
  | replacing =>
      simp only [hphase, Option.some.injEq] at h
      subst h
      exact replace_requestsLeft _ _
  | committing answer =>
      simp only [hphase, Option.some.injEq] at h
      subst h
      exact Nat.le_refl 0

/-- **One step**: an answer uses up a request, and nothing but taking the lock adds any. -/
theorem step_requestsLeft {e : ProofEvent} (hstep : ProofStep proofs w e w')
    (hlock : e.isLock = false) :
    w'.requestsLeft + (if e.isAnswer then 1 else 0) ≤ w.requestsLeft := by
  unfold ProofStep at hstep
  cases e with
  | call request =>
      cases hstep
      exact Nat.le_refl _
  | withdraw request =>
      simp only [ProofWorld.next, Option.ite_none_right_eq_some, Option.some.injEq] at hstep
      obtain ⟨_, rfl⟩ := hstep
      exact Nat.le_refl _
  | lock request => cases hlock
  | statement now =>
      obtain ⟨call, hactive, hstatement⟩ := Option.bind_eq_some_iff.mp hstep
      exact statement_requestsLeft hactive hstatement
  | answer answer now =>
      obtain ⟨call, hactive, hanswer⟩ := Option.bind_eq_some_iff.mp hstep
      have hleft : w.requestsLeft = call.phase.requestsLeft := by
        rw [ProofWorld.requestsLeft, hactive]
        rfl
      rw [hleft]
      split at hanswer
      · rename_i asked hphase
        rw [hphase]
        cases hanswer
        cases hreceived : proofs.received call.request asked answer now with
        | rollBack error => exact calling_requestsLeft asked
        | goto phase => exact received_requestsLeft hreceived
      · cases hanswer
  | abandon =>
      obtain ⟨call, _, rfl⟩ := Option.map_eq_some_iff.mp hstep
      exact Nat.zero_le _
  | revoke byCustodian now =>
      obtain ⟨rfl, _⟩ := ProofWorld.invalidated_some hstep
      exact Nat.le_refl _
  | endSignIns reason now =>
      obtain ⟨rfl, _⟩ := ProofWorld.invalidated_some hstep
      exact Nat.le_refl _

/-- **A run while one call holds the lock** answers no more requests than were ahead of it. -/
theorem run_answers_le {tr : List ProofTransition} (hrun : Run (ProofStep proofs) w tr w')
    (hlock : ∀ t ∈ tr, t.label.isLock = false) :
    w'.requestsLeft + tr.countP (fun t => t.label.isAnswer) ≤ w.requestsLeft := by
  induction hrun with
  | nil w => exact Nat.le_refl _
  | @cons w w₁ w₂ e tr hstep _ ih =>
      obtain ⟨hfirst, hrest⟩ := List.forall_mem_cons.mp hlock
      rw [List.countP_cons, ← Nat.add_assoc]
      calc w₂.requestsLeft + tr.countP (fun t => t.label.isAnswer) + (if e.isAnswer then 1 else 0)
          ≤ w₁.requestsLeft + (if e.isAnswer then 1 else 0) := Nat.add_le_add_right (ih hrest) _
        _ ≤ w.requestsLeft := step_requestsLeft hstep hfirst

end Runs

end Waveform.Storage
