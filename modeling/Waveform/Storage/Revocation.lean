import Waveform.Storage.Proofs

/-!
# Revoking Briefcase access

A revocation sticks when no later step stores or returns a proof until the account approves again.
`revoke` is one UPDATE that neither takes the account's advisory lock nor touches a row that has
ended, so whether it sticks depends on where it falls: `revocationSticks_iff` says exactly when it
does. The row must be live or already ended by someone's decision, no call may be past the point
where it looks at the row again, and no approval may be under way.

- `Revoked.step`: what keeps a revocation once it has taken hold.
- `canYield_of_not_takes`: otherwise a speech request, or the call that is under way, can still end
  with a proof.
-/

set_option autoImplicit false

namespace Waveform.Storage

open Waveform.Domain LabelledRun

/-- The transitions of a run of the account's proof. -/
abbrev ProofTransition := Transition ProofWorld ProofEvent

/-- The account calls `approve`. -/
def ProofEvent.approves : ProofEvent → Bool
  | .call request => request.isApprove
  | _ => false

/-- A call commits with a proof in hand, which it returns or has stored. -/
def CommitsProof (t : ProofTransition) : Prop :=
  ∃ call proof now, t.pre.active = some call ∧ call.phase = .committing (.ok proof) ∧
    t.label = .statement now

/-- A live row is committed that was not there. -/
def StoresProof (t : ProofTransition) : Prop :=
  ∃ row, t.post.row = some row ∧ row.active = true ∧ t.pre.row ≠ some row

/-- After the revocation nothing stores or returns a proof until an approval is called. -/
def RevocationSticks (proofs : StorageProofs) (w : ProofWorld) : Prop :=
  ∀ tr w', Run (ProofStep proofs) w tr w' → (∀ t ∈ tr, t.label.approves = false) →
    ∀ t ∈ tr, ¬ CommitsProof t ∧ ¬ StoresProof t

/-- The call looks at the row again before it can have a proof, and is no approval. -/
def ProofCall.looksAgain (call : ProofCall) : Bool :=
  match call.phase with
  | .locked => !call.request.isApprove
  | .invalidating _ _ => true
  | .replacing => true
  | .committing (.error _) => true
  | .committing (.ok _) => false
  | .calling _ => false
  | .saving _ _ => false

/-- The condition on the world in which the UPDATE of `revoke` runs. -/
structure RevocationTakes (w : ProofWorld) : Prop where
  row : ∃ row, w.row = some row ∧ (row.active = true ∨ row.endedExplicitly = true)
  call : ∀ call, w.active = some call → call.looksAgain = true
  waiting : ∀ request ∈ w.waiting, request.isApprove = false

/-! ## A revocation that has taken hold -/

/-- The row has ended by someone's decision, no call has written anything or can have a proof
before it looks at the row again, and no approval waits. -/
structure Revoked (w : ProofWorld) : Prop where
  row : ∃ row, w.row = some row ∧ row.endedExplicitly = true
  call : ∀ call, w.active = some call → call.looksAgain = true ∧ call.written = none
  waiting : ∀ request ∈ w.waiting, request.isApprove = false

theorem ProofRow.active_eq_false {row : ProofRow} (h : row.endedExplicitly = true) :
    row.active = false := by
  unfold ProofRow.endedExplicitly at h
  simp only [Bool.and_eq_true, Bool.not_eq_true'] at h
  exact h.1

/-- An UPDATE does not match a row that has ended. -/
theorem ProofRow.invalidate_of_ended {row : ProofRow} (reason : String) (now : Nat)
    (h : row.active = false) : row.invalidate reason now = row := by
  unfold ProofRow.invalidate
  rw [h]
  rfl

/-- A revocation ends a live row explicitly. -/
theorem ProofRow.invalidate_endedExplicitly {row : ProofRow} (byCustodian : Bool) (now : Nat)
    (h : row.active = true ∨ row.endedExplicitly = true) :
    (row.invalidate (revokeReason byCustodian) now).endedExplicitly = true := by
  rcases h with hactive | hended
  · unfold ProofRow.invalidate
    rw [if_pos hactive]
    cases byCustodian <;> rfl
  · rw [invalidate_of_ended _ _ (active_eq_false hended)]
    exact hended

section Ended

variable (proofs : StorageProofs) {row : ProofRow} (h : row.endedExplicitly = true)

include h

/-- The first SELECT of a speech request finds no live row. -/
theorem StorageProofs.begin_of_ended {request : ProofRequest} (now : Nat)
    (hrequest : request.isApprove = false) :
    proofs.begin request (some row) now = .goto .replacing := by
  have hnone : (some row).filter ProofRow.active = none := by
    rw [Option.filter_some, ProofRow.active_eq_false h]
    rfl
  cases request with
  | briefcaseProof subjectToken => simp only [begin, stored, hnone]
  | renewRefusedProof subjectToken refused => simp only [begin, renew, hnone]
  | approve subjectToken => cases hrequest

/-- Nothing is issued after someone's decision. -/
theorem StorageProofs.replace_of_ended (subjectToken : Option AccessToken) :
    proofs.replace (some row) subjectToken = .committing (.error .notAuthorized) := by
  cases subjectToken with
  | none => rfl
  | some subjectToken => simp [replace, h]

end Ended

/-- Only the row, the waiting calls and the lock holder matter. -/
theorem Revoked.of_eq {w w' : ProofWorld} (h : Revoked w) (hrow : w'.row = w.row)
    (hcall : ∀ call, w'.active = some call → call.looksAgain = true ∧ call.written = none)
    (hwaiting : ∀ request ∈ w'.waiting, request ∈ w.waiting) : Revoked w' where
  row := by rw [hrow]; exact h.row
  call := hcall
  waiting request hrequest := h.waiting request (hwaiting request hrequest)

/-- **A step that calls no approval keeps a revocation**, and neither stores nor returns a proof. -/
theorem Revoked.step {proofs : StorageProofs} {w w' : ProofWorld} {e : ProofEvent}
    (h : Revoked w) (hstep : ProofStep proofs w e w') (hcall : e.approves = false) :
    Revoked w' ∧ w'.row = w.row ∧ ¬ CommitsProof ⟨w, e, w'⟩ := by
  obtain ⟨row, hrow, hended⟩ := h.row
  have hinactive := ProofRow.active_eq_false hended
  -- An UPDATE without the lock does not match the row.
  have hupdate : ∀ {reason : String} {now : Nat}, w.invalidated reason now = some w' →
      w' = w := by
    intro reason now hnext
    have hwritten : (w.active.any fun call => call.written.isSome) = false := by
      cases hactive : w.active with
      | none => rfl
      | some call => simp [(h.call call hactive).2]
    simp only [ProofWorld.invalidated, hrow, hwritten, Bool.false_eq_true, if_false,
      ProofRow.invalidate_of_ended _ _ hinactive, Option.some.injEq] at hnext
    rw [← hnext, ← hrow]
  -- Only a statement of the lock holder can commit.
  have hcommits : ∀ {label : ProofEvent}, (∀ now, label ≠ .statement now) →
      ¬ CommitsProof ⟨w, label, w'⟩ := by
    rintro label hlabel ⟨_, _, now, _, _, heq⟩
    exact hlabel now heq
  unfold ProofStep at hstep
  cases e with
  | call request =>
      cases hstep
      refine ⟨⟨h.row, h.call, ?_⟩, rfl, hcommits (by simp)⟩
      intro other hother
      rcases List.mem_cons.mp hother with rfl | hother
      · exact hcall
      · exact h.waiting other hother
  | withdraw request =>
      simp only [ProofWorld.next] at hstep
      split at hstep
      · cases hstep
        exact ⟨h.of_eq rfl h.call fun other hother => List.mem_of_mem_erase hother, rfl,
          hcommits (by simp)⟩
      · cases hstep
  | lock request =>
      simp only [ProofWorld.next] at hstep
      split at hstep
      · rename_i hfree
        cases hstep
        refine ⟨h.of_eq rfl ?_ fun other hother => List.mem_of_mem_erase hother, rfl,
          hcommits (by simp)⟩
        intro call hnew
        cases hnew
        have hrequest := h.waiting request hfree.2
        exact ⟨by simp [ProofCall.looksAgain, hrequest], rfl⟩
      · cases hstep
  | statement now =>
      cases hactive : w.active with
      | none => simp [ProofWorld.next, hactive] at hstep
      | some call =>
          obtain ⟨hlooks, hwritten⟩ := h.call call hactive
          have hvisible : w.visible call = some row := by
            simp [ProofWorld.visible, hwritten, hrow]
          simp only [ProofWorld.next, hactive, Option.bind_some, ProofWorld.statement] at hstep
          have hcommit : (∀ proof, call.phase ≠ .committing (.ok proof)) →
              ¬ CommitsProof ⟨w, .statement now, w'⟩ := by
            rintro hphase ⟨other, proof, _, hother, hok, _⟩
            rw [hactive] at hother
            cases hother
            exact hphase proof hok
          cases hphase : call.phase with
          | locked =>
              have hrequest : call.request.isApprove = false := by
                simpa [ProofCall.looksAgain, hphase] using hlooks
              simp only [hphase, hvisible, proofs.begin_of_ended hended now hrequest] at hstep
              cases hstep
              refine ⟨h.of_eq rfl ?_ fun _ hother => hother, rfl, hcommit (by simp [hphase])⟩
              intro other hnew
              cases hnew
              exact ⟨rfl, hwritten⟩
          | calling asked =>
              simp [ProofCall.looksAgain, hphase] at hlooks
          | saving row proof =>
              simp [ProofCall.looksAgain, hphase] at hlooks
          | invalidating reason next =>
              simp only [hphase, hvisible, hinactive, Bool.false_eq_true, if_false] at hstep
              cases hstep
              refine ⟨h.of_eq rfl ?_ fun _ hother => hother, rfl, hcommit (by simp [hphase])⟩
              intro other hnew
              cases hnew
              cases next <;> exact ⟨rfl, hwritten⟩
          | replacing =>
              simp only [hphase, hvisible, proofs.replace_of_ended hended] at hstep
              cases hstep
              refine ⟨h.of_eq rfl ?_ fun _ hother => hother, rfl, hcommit (by simp [hphase])⟩
              intro other hnew
              cases hnew
              exact ⟨rfl, hwritten⟩
          | committing answer =>
              cases answer with
              | ok proof => simp [ProofCall.looksAgain, hphase] at hlooks
              | error error =>
                  simp only [hphase, hvisible] at hstep
                  cases hstep
                  refine ⟨h.of_eq hrow.symm ?_ fun _ hother => hother, hrow.symm,
                    hcommit (by simp [hphase])⟩
                  intro other hnew
                  cases hnew
  | answer answer now =>
      cases hactive : w.active with
      | none => simp [ProofWorld.next, hactive] at hstep
      | some call =>
          obtain ⟨hlooks, _⟩ := h.call call hactive
          simp only [ProofWorld.next, hactive, Option.bind_some] at hstep
          cases hphase : call.phase with
          | calling asked => simp [ProofCall.looksAgain, hphase] at hlooks
          | locked => simp [hphase] at hstep
          | saving _ _ => simp [hphase] at hstep
          | invalidating _ _ => simp [hphase] at hstep
          | replacing => simp [hphase] at hstep
          | committing _ => simp [hphase] at hstep
  | abandon =>
      cases hactive : w.active with
      | none => simp [ProofWorld.next, hactive] at hstep
      | some call =>
          simp only [ProofWorld.next, hactive, Option.map_some] at hstep
          cases hstep
          refine ⟨h.of_eq rfl ?_ fun _ hother => hother, rfl, hcommits (by simp)⟩
          intro other hnew
          cases hnew
  | revoke byCustodian now =>
      rw [hupdate hstep]
      exact ⟨h, rfl, hcommits (by simp)⟩
  | endSignIns reason now =>
      rw [hupdate hstep]
      exact ⟨h, rfl, hcommits (by simp)⟩

/-- What a successful UPDATE of a revocation left. -/
theorem ProofWorld.invalidated_some {w w' : ProofWorld} {reason : String} {now : Nat}
    (h : w.invalidated reason now = some w') :
    w' = { w with row := w.row.map fun row => row.invalidate reason now } ∧
      (w.row.isSome = true → ∀ call, w.active = some call → call.written = none) := by
  unfold invalidated at h
  cases hrow : w.row with
  | none =>
      rw [hrow] at h
      cases h
      exact ⟨by rw [Option.map_none, ← hrow], fun hsome => by cases hsome⟩
  | some row =>
      simp only [hrow] at h
      split at h
      · cases h
      · rename_i hwritten
        cases h
        refine ⟨by rw [Option.map_some], ?_⟩
        intro _ call hactive
        simpa [hactive] using hwritten

/-- Where the condition holds, the revocation takes hold. -/
theorem RevocationTakes.revoked {proofs : StorageProofs} {w w' : ProofWorld}
    {byCustodian : Bool} {now : Nat} (h : RevocationTakes w)
    (hrevoke : ProofStep proofs w (.revoke byCustodian now) w') : Revoked w' := by
  obtain ⟨row, hrow, hstate⟩ := h.row
  obtain ⟨rfl, hwritten⟩ := ProofWorld.invalidated_some hrevoke
  refine ⟨⟨row.invalidate (revokeReason byCustodian) now, ?_, ?_⟩, ?_, h.waiting⟩
  · simp only [hrow, Option.map_some]
  · exact ProofRow.invalidate_endedExplicitly byCustodian now hstate
  · intro call hactive
    exact ⟨h.call call hactive, hwritten (by rw [hrow]; rfl) call hactive⟩

/-- A revocation that has taken hold sticks. -/
theorem Revoked.sticks {proofs : StorageProofs} {w : ProofWorld} (h : Revoked w) :
    RevocationSticks proofs w := by
  intro tr w' hrun hcalls t ht
  have hrestricted := hrun.restrict (fun t => t.label.approves = false) hcalls
  obtain ⟨hpre, ⟨hstep, hcall⟩, _⟩ := hrestricted.invariant_mem Revoked
    (fun _ _ _ hrevoked hok => (hrevoked.step hok.1 hok.2).1) h ht
  obtain ⟨_, hsame, hcommits⟩ := hpre.step hstep hcall
  refine ⟨hcommits, ?_⟩
  rintro ⟨row, hpost, _, hne⟩
  rw [hsame] at hpost
  exact hne hpost

/-! ## A revocation that does not take hold -/

/-- Some run without a new approval ends with a proof. -/
def CanYield (proofs : StorageProofs) (w : ProofWorld) : Prop :=
  ∃ tr w', Run (ProofStep proofs) w tr w' ∧ (∀ t ∈ tr, t.label.approves = false) ∧
    ∃ t ∈ tr, CommitsProof t

section CanYield

variable {proofs : StorageProofs} {w : ProofWorld}

theorem CanYield.not_sticks (h : CanYield proofs w) : ¬ RevocationSticks proofs w := by
  intro hsticks
  obtain ⟨tr, w', hrun, hcalls, t, ht, hcommits⟩ := h
  exact (hsticks tr w' hrun hcalls t ht).1 hcommits

theorem CanYield.of_step {w' : ProofWorld} (e : ProofEvent) (hcall : e.approves = false)
    (hstep : ProofStep proofs w e w') (h : CanYield proofs w') : CanYield proofs w := by
  obtain ⟨tr, w'', hrun, hcalls, t, ht, hcommits⟩ := h
  refine ⟨_, w'', .cons hstep hrun, ?_, t, List.mem_cons_of_mem _ ht, hcommits⟩
  intro other hother
  rcases List.mem_cons.mp hother with rfl | hother
  · exact hcall
  · exact hcalls other hother

/-- A proof that Accounts may issue. -/
def sampleIssued : IssuedProof where
  proofId := "proof-2"
  scopes := briefcaseScopes
  proofToken := "sap_2"
  expiresAt := some (3600 * microsPerSecond)
  proofRefreshToken := some "sapr_2"
  refreshExpiresAt := none

/-- An access token of the account. -/
def sampleAccessToken : AccessToken := ⟨"token", by decide⟩

/-- From each phase past its last look at the row the call can end with a proof. -/
theorem canYield_of_committing {call : ProofCall} {proof : BriefcaseProof}
    (hactive : w.active = some call) (hphase : call.phase = .committing (.ok proof)) :
    CanYield proofs w := by
  have hstep : ProofStep proofs w (.statement 0)
      { w with row := w.visible call, active := none } := by
    simp [ProofStep, ProofWorld.next, hactive, ProofWorld.statement, hphase]
  refine ⟨_, _, .single hstep, ?_, _, List.mem_singleton_self _, call, proof, 0, hactive, hphase,
    rfl⟩
  intro t ht
  rw [List.mem_singleton.mp ht]
  rfl

theorem canYield_of_saving {call : ProofCall} {row : ProofRow} {proof : BriefcaseProof}
    (hactive : w.active = some call) (hphase : call.phase = .saving row proof) :
    CanYield proofs w := by
  apply CanYield.of_step (.statement 0) rfl
  · simp [ProofStep, ProofWorld.next, hactive, ProofWorld.statement, hphase]
    rfl
  · exact canYield_of_committing rfl rfl

theorem canYield_of_calling {call : ProofCall} {asked : AccountsRequest}
    (hactive : w.active = some call) (hphase : call.phase = .calling asked) :
    CanYield proofs w := by
  obtain ⟨row, proof, hsave⟩ : ∃ row proof, proofs.prepareSave sampleIssued 0 = .ok (row, proof) :=
    ⟨_, _, rfl⟩
  apply CanYield.of_step (.answer (.ok sampleIssued) 0) rfl
  · simp [ProofStep, ProofWorld.next, hactive, hphase, StorageProofs.received, hsave,
      ProofWorld.continueWith]
    rfl
  · exact canYield_of_saving rfl rfl

/-- An approval that holds the lock can end with a proof. -/
theorem canYield_of_approve {call : ProofCall} (hactive : w.active = some call)
    (hphase : call.phase = .locked) (hrequest : call.request.isApprove = true) :
    CanYield proofs w := by
  cases hcall : call.request with
  | briefcaseProof _ => simp [hcall, ProofRequest.isApprove] at hrequest
  | renewRefusedProof _ _ => simp [hcall, ProofRequest.isApprove] at hrequest
  | approve subjectToken =>
      apply CanYield.of_step (.statement 0) rfl
      · simp [ProofStep, ProofWorld.next, hactive, ProofWorld.statement, hphase,
          StorageProofs.begin, hcall, ProofWorld.continueWith]
        rfl
      · exact canYield_of_calling rfl rfl

/-- A lock holder may lose its transaction. -/
theorem canYield_of_abandon (h : CanYield proofs { w with active := none }) :
    CanYield proofs w := by
  cases hactive : w.active with
  | none =>
      have hsame : { w with active := none } = w := by
        cases w
        simp_all
      rwa [hsame] at h
  | some call =>
      apply CanYield.of_step .abandon rfl _ h
      simp [ProofStep, ProofWorld.next, hactive]

/-- An approval that waits for the lock can end with a proof. -/
theorem canYield_of_waiting {request : ProofRequest} (hmem : request ∈ w.waiting)
    (happrove : request.isApprove = true) : CanYield proofs w := by
  apply canYield_of_abandon
  apply CanYield.of_step (.lock request) rfl
  · simp [ProofStep, ProofWorld.next, hmem]
    rfl
  · exact canYield_of_approve rfl rfl happrove

/-- When the row neither is live nor ended by someone's decision, a direct speech request is given
a new proof. -/
theorem canYield_of_row (hrow : ∀ row, w.row = some row →
    row.active = false ∧ row.endedExplicitly = false) : CanYield proofs w := by
  apply canYield_of_abandon
  have hlive : w.row.filter ProofRow.active = none := by
    cases h : w.row with
    | none => rfl
    | some row => rw [Option.filter_some, (hrow row h).1]; rfl
  have hended : w.row.any ProofRow.endedExplicitly = false := by
    cases h : w.row with
    | none => rfl
    | some row => exact (hrow row h).2
  apply CanYield.of_step (.call (.briefcaseProof (some sampleAccessToken))) rfl rfl
  apply CanYield.of_step (.lock (.briefcaseProof (some sampleAccessToken))) rfl
  · simp [ProofStep, ProofWorld.next]
    rfl
  apply CanYield.of_step (.statement 0) rfl
  · simp [ProofStep, ProofWorld.next, ProofWorld.statement, ProofWorld.visible,
      StorageProofs.begin, StorageProofs.stored, hlive, ProofWorld.continueWith]
    rfl
  apply CanYield.of_step (.statement 0) rfl
  · simp [ProofStep, ProofWorld.next, ProofWorld.statement, ProofWorld.visible,
      ProofRequest.subjectToken, StorageProofs.replace, hended, ProofWorld.continueWith]
    rfl
  exact canYield_of_calling rfl rfl

/-- **Where the condition fails, the revocation does not stick.** -/
theorem canYield_of_not_takes {w' : ProofWorld} {byCustodian : Bool} {now : Nat}
    (hrevoke : ProofStep proofs w (.revoke byCustodian now) w') (h : ¬ RevocationTakes w) :
    CanYield proofs w' := by
  obtain ⟨rfl, _⟩ := ProofWorld.invalidated_some hrevoke
  by_cases hwaiting : ∀ request ∈ w.waiting, request.isApprove = false
  swap
  · simp only [not_forall, Bool.not_eq_false] at hwaiting
    obtain ⟨request, hmem, happrove⟩ := hwaiting
    exact canYield_of_waiting hmem happrove
  by_cases hcall : ∀ call, w.active = some call → call.looksAgain = true
  swap
  · simp only [not_forall, Bool.not_eq_true] at hcall
    obtain ⟨call, hactive, hpast⟩ := hcall
    unfold ProofCall.looksAgain at hpast
    cases hphase : call.phase with
    | locked =>
        rw [hphase] at hpast
        exact canYield_of_approve hactive hphase (by simpa using hpast)
    | calling asked => exact canYield_of_calling hactive hphase
    | saving row proof => exact canYield_of_saving hactive hphase
    | invalidating reason next => simp [hphase] at hpast
    | replacing => simp [hphase] at hpast
    | committing answer =>
        cases answer with
        | ok proof => exact canYield_of_committing hactive hphase
        | error error => simp [hphase] at hpast
  · -- No call and no approval stands in the way, so it is the row.
    apply canYield_of_row
    intro row hrow
    cases hold : w.row with
    | none => simp [hold] at hrow
    | some old =>
        have hnot : ¬ (old.active = true ∨ old.endedExplicitly = true) :=
          fun hstate => h ⟨⟨old, hold, hstate⟩, hcall, hwaiting⟩
        simp only [not_or, Bool.not_eq_true] at hnot
        simp only [hold, Option.map_some, Option.some.injEq,
          ProofRow.invalidate_of_ended _ _ hnot.1] at hrow
        rw [← hrow]
        exact hnot

end CanYield

/-- **A revocation sticks exactly when its UPDATE finds the row live or ended by someone's decision,
no call past its last look at the row, and no approval under way.** -/
theorem revocationSticks_iff {proofs : StorageProofs} {w w' : ProofWorld} {byCustodian : Bool}
    {now : Nat} (hrevoke : ProofStep proofs w (.revoke byCustodian now) w') :
    RevocationSticks proofs w' ↔ RevocationTakes w := by
  constructor
  · intro hsticks
    by_contra hnot
    exact (canYield_of_not_takes hrevoke hnot).not_sticks hsticks
  · intro htakes
    exact (htakes.revoked hrevoke).sticks

/-- SHA-256 of the two refresh tokens below. -/
def sampleSha256 (bytes : List UInt8) : Vector UInt8 32 :=
  if bytes = utf8 "sapr_1" then
    #v[63, 104, 194, 85, 119, 64, 7, 220, 182, 228, 126, 33, 62, 217, 86, 198,
      70, 122, 32, 233, 94, 140, 245, 119, 197, 54, 83, 156, 94, 188, 12, 156]
  else
    #v[119, 227, 127, 227, 192, 49, 66, 255, 176, 185, 43, 186, 208, 187, 211, 48,
      61, 96, 148, 40, 127, 172, 98, 245, 47, 61, 11, 85, 155, 148, 241, 47]

/-- The store of one account's proofs. -/
def sampleProofs : StorageProofs where
  vault := ⟨Vector.replicate 32 7⟩
  receivingApp := "briefcase"
  storageKey := ⟨7, Uuid.seven_ne_nil⟩
  sha256 := sampleSha256

/-- A live row whose token is about to expire. -/
def expiringRow : ProofRow where
  proofId := "proof-1"
  scopes := briefcaseScopes
  tokenCipher := sampleProofs.vault.sealSecret "sap_1" (sampleProofs.context "token")
  tokenExpiresAt := 10 * microsPerSecond
  refreshCipher := some (sampleProofs.vault.sealSecret "sapr_1" (sampleProofs.context "refresh"))
  refreshExpiresAt := none
  updatedAt := 0
  invalidatedAt := none
  invalidatedReason := none

/-- With no call under way, revoking a live row sticks. -/
theorem revocationSticks_iff_expiringRow :
    RevocationSticks sampleProofs
      ⟨some (expiringRow.invalidate "revoked_by_account" 5), [], none⟩ := by
  have hrevoke : ProofStep sampleProofs ⟨some expiringRow, [], none⟩ (.revoke false 5)
      ⟨some (expiringRow.invalidate "revoked_by_account" 5), [], none⟩ := rfl
  refine (revocationSticks_iff hrevoke).mpr ⟨⟨expiringRow, rfl, .inl rfl⟩, ?_, ?_⟩
  · intro call hactive
    cases hactive
  · intro request hrequest
    cases hrequest

/-- A speech request that has found its token expiring and asks Accounts to refresh it. -/
def refreshingCall : ProofCall :=
  ⟨.briefcaseProof (some sampleAccessToken), sampleProofs.presentRefresh "sapr_1", none⟩

/-- The steps by which the request comes to that point. -/
theorem run_refreshingCall :
    ∃ tr, Run (ProofStep sampleProofs) ⟨some expiringRow, [], none⟩ tr
      ⟨some expiringRow, [], some refreshingCall⟩ := by
  let request : ProofRequest := .briefcaseProof (some sampleAccessToken)
  have hcall : ProofStep sampleProofs ⟨some expiringRow, [], none⟩ (.call request)
      ⟨some expiringRow, [request], none⟩ := rfl
  have hlock : ProofStep sampleProofs ⟨some expiringRow, [request], none⟩ (.lock request)
      ⟨some expiringRow, [], some ⟨request, .locked, none⟩⟩ := rfl
  have hstored : ProofStep sampleProofs
      ⟨some expiringRow, [], some ⟨request, .locked, none⟩⟩ (.statement 0)
      ⟨some expiringRow, [], some refreshingCall⟩ := rfl
  exact ⟨_, .cons hcall (.cons hlock (.single hstored))⟩

/-- **A revocation during a refresh does not stick**: the refresh that was under way stores the new
pair over the ended row. -/
theorem not_forall_revocationSticks :
    ¬ ∀ (proofs : StorageProofs) (w₀ w w' : ProofWorld) (tr : List ProofTransition)
      (byCustodian : Bool) (now : Nat), w₀.waiting = [] → w₀.active = none →
      Run (ProofStep proofs) w₀ tr w → ProofStep proofs w (.revoke byCustodian now) w' →
      RevocationSticks proofs w' := by
  intro h
  obtain ⟨tr, hrun⟩ := run_refreshingCall
  have hsticks := h sampleProofs _ _ _ tr false 5 rfl rfl hrun rfl
  have hyield : CanYield sampleProofs ⟨some (expiringRow.invalidate "revoked_by_account" 5), [],
      some refreshingCall⟩ := canYield_of_calling rfl rfl
  exact hyield.not_sticks hsticks

end Waveform.Storage
