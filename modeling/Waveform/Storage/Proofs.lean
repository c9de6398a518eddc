import Waveform.Library.Base64
import Waveform.Library.LabelledRun
import Waveform.Domain.Auth
import Waveform.Domain.Bytes

/-!
# The Briefcase proofs Waveform holds for an account

`StorageProofs` of the source, for one account: its row of `waveform_storage_proofs`, the calls
that use, refresh or replace the proof under the account's advisory lock, and the statements that
invalidate it without that lock.

A call is a sequence of steps, one for each database statement and each answer of Silicon Accounts,
so other statements can come between any two of them. The call's own writes stay uncommitted until
it ends, and while they touch a committed row, other statements on that row wait.
-/

set_option autoImplicit false

namespace Waveform.Storage

open Waveform.Domain LabelledRun

/-! ## The row -/

/-- What a sealed token is bound to: `storage-proof/{storage_key}/{receiving_app}/{part}`. -/
structure ProofContext where
  storageKey : ActorId
  receivingApp : String
  part : String
  deriving DecidableEq

/-- A row of `waveform_storage_proofs`, without its primary key. -/
structure ProofRow where
  proofId : String
  scopes : List String
  tokenCipher : Cipher ProofContext
  tokenExpiresAt : Nat
  refreshCipher : Option (Cipher ProofContext)
  refreshExpiresAt : Option Nat
  updatedAt : Nat
  invalidatedAt : Option Nat
  invalidatedReason : Option String

/-- `invalidated_at IS NULL`. -/
def ProofRow.active (row : ProofRow) : Bool := row.invalidatedAt.isNone

/-- The scopes Waveform asks for at Briefcase. -/
def briefcaseScopes : List String :=
  ["briefcase.uploads.reserve", "briefcase.uploads.commit", "briefcase.entries.list",
    "briefcase.files.read"]

/-- A proof token is replaced when it has less than this left. -/
def minimumRemaining : Nat := 60 * microsPerSecond

/-- Why access ended when someone decided it. -/
def explicitRevocations : List String :=
  ["revoked_by_account", "revoked_by_custodian", "revoked_at_accounts", "account_uuid_migrated"]

/-- `is_explicit`. -/
def isExplicit (reason : Option String) : Bool :=
  reason.any fun reason => explicitRevocations.contains reason

/-- The row ended by someone's decision. -/
def ProofRow.endedExplicitly (row : ProofRow) : Bool :=
  !row.active && isExplicit row.invalidatedReason

/-- The UPDATE that invalidates a live row and wipes its tokens; it does not match an ended row. -/
def ProofRow.invalidate (row : ProofRow) (reason : String) (now : Nat) : ProofRow :=
  if row.active then
    { row with
      tokenCipher := .wiped
      refreshCipher := none
      invalidatedAt := some now
      invalidatedReason := some reason
      updatedAt := now }
  else row

/-! ## What Silicon Accounts is asked and answers -/

/-- Why no Briefcase proof is available. -/
inductive StorageAuthorityError where
  | notAuthorized
  | refused
  | unavailable
  | timeout
  deriving DecidableEq

/-- Why Accounts gave no proof. -/
inductive ProofError where
  | refused (reason : Option String)
  | unavailable
  | timeout
  deriving DecidableEq

/-- A refusal because the account or the issuing app's owner revoked the proof on purpose. -/
def ProofError.isExplicitRevocation : ProofError → Bool
  | refused (some reason) => reason == "revoked_by_account" || reason == "revoked_by_owner"
  | _ => false

/-- `map_proof_error`. -/
def mapProofError : ProofError → StorageAuthorityError
  | .refused _ => .refused
  | .unavailable => .unavailable
  | .timeout => .timeout

/-- What Accounts answers to an issuance or a refresh. -/
structure IssuedProof where
  proofId : String
  scopes : List String
  proofToken : String
  expiresAt : Option Nat
  proofRefreshToken : Option String
  refreshExpiresAt : Option Nat

/-- What the idempotency key of an issuance is hashed from. -/
structure IssueKey where
  storageKey : ActorId
  subjectToken : AccessToken
  replacing : String
  deriving DecidableEq

/-- A request to Accounts, with its idempotency key. -/
inductive AccountsRequest where
  | issueUserVerification (subjectToken : AccessToken) (receivingApp : String)
      (scopes : List String) (key : IssueKey)
  | refreshProof (refreshToken : String) (key : String)
  deriving DecidableEq

/-! ## Calls -/

/-- A call that works on the account's proof under the advisory lock. -/
inductive ProofRequest where
  | briefcaseProof (subjectToken : Option AccessToken)
  | renewRefusedProof (subjectToken : Option AccessToken) (refused : BriefcaseProof)
  | approve (subjectToken : AccessToken)
  deriving DecidableEq

/-- The account approves. -/
def ProofRequest.isApprove : ProofRequest → Bool
  | approve _ => true
  | _ => false

/-- The caller's own access token, when the request carries it. -/
def ProofRequest.subjectToken : ProofRequest → Option AccessToken
  | briefcaseProof subjectToken => subjectToken
  | renewRefusedProof subjectToken _ => subjectToken
  | approve subjectToken => some subjectToken

/-- What a call does once it has invalidated the row. -/
inductive AfterInvalidation where
  | replace
  | fail (error : StorageAuthorityError)

/-- Where a call stands: the statement or the answer it is at. -/
inductive Phase where
  /-- The lock is taken and the first SELECT comes next. -/
  | locked
  | calling (request : AccountsRequest)
  | saving (row : ProofRow) (proof : BriefcaseProof)
  | invalidating (reason : String) (next : AfterInvalidation)
  /-- The SELECT of `latest` in `replace` comes next. -/
  | replacing
  | committing (answer : Except StorageAuthorityError BriefcaseProof)

/-- What a step of a call leads to: the next phase, or an early return that rolls back. -/
inductive Continuation where
  | goto (phase : Phase)
  | rollBack (error : StorageAuthorityError)

/-- The configuration of the store, the account it is asked about, and SHA-256. -/
structure StorageProofs where
  vault : Vault
  receivingApp : String
  storageKey : ActorId
  sha256 : List UInt8 → Vector UInt8 32

namespace StorageProofs

variable (proofs : StorageProofs)

/-- `context`. -/
def context (part : String) : ProofContext := ⟨proofs.storageKey, proofs.receivingApp, part⟩

/-- The idempotency key of a refresh: the same refresh token always yields the same key. -/
def refreshKey (refresh : String) : String :=
  "waveform-refresh-" ++ String.ofList (Base64.encode (proofs.sha256 (utf8 refresh)).toList)

/-- The request that presents a refresh token. -/
def presentRefresh (refresh : String) : Phase :=
  .calling (.refreshProof refresh (proofs.refreshKey refresh))

/-- The request that `issue` sends. -/
def issue (subjectToken : AccessToken) (replacing : Option String) : Phase :=
  .calling <| .issueUserVerification subjectToken proofs.receivingApp briefcaseScopes
    ⟨proofs.storageKey, subjectToken, replacing.getD "none"⟩

/-- What `save` prepares before its upsert: the row it writes and the proof it returns. -/
def prepareSave (issued : IssuedProof) (now : Nat) :
    Except StorageAuthorityError (ProofRow × BriefcaseProof) :=
  match issued.expiresAt, ProofToken.new? issued.proofToken with
  | some expiresAt, some token => .ok (
      { proofId := issued.proofId
        scopes := issued.scopes
        tokenCipher := proofs.vault.sealSecret token.exposeSecret (proofs.context "token")
        tokenExpiresAt := expiresAt
        refreshCipher := issued.proofRefreshToken.map fun refresh =>
          proofs.vault.sealSecret refresh (proofs.context "refresh")
        refreshExpiresAt := issued.refreshExpiresAt
        updatedAt := now
        invalidatedAt := none
        invalidatedReason := none },
      ⟨token, expiresAt⟩)
  | _, _ => .error .unavailable

/-- The stored token, opened. -/
def openToken (row : ProofRow) : Option BriefcaseProof := do
  let value ← proofs.vault.openSecret (proofs.context "token") row.tokenCipher
  let token ← ProofToken.new? value
  return ⟨token, row.tokenExpiresAt⟩

/-- The refresh token to present, when there is one that has not expired: still sealed. -/
def refreshable (row : ProofRow) (now : Nat) : Option (Cipher ProofContext) :=
  row.refreshCipher.filter fun _ => row.refreshExpiresAt.all (now < ·)

/-- `stored`, up to its request to Accounts or its invalidation; without a live row `replace`
follows. -/
def stored (row : Option ProofRow) (now : Nat) : Continuation :=
  match row.filter ProofRow.active with
  | none => .goto .replacing
  | some row =>
      if now + minimumRemaining < row.tokenExpiresAt then
        match proofs.openToken row with
        | some proof => .goto (.committing (.ok proof))
        | none => .rollBack .unavailable
      else match refreshable row now with
        | none => .goto (.invalidating "expired" .replace)
        | some cipher =>
            match proofs.vault.openSecret (proofs.context "refresh") cipher with
            | some refresh => .goto (proofs.presentRefresh refresh)
            | none => .rollBack .unavailable

/-- `renew`, up to its request to Accounts or its invalidation. Whatever it answers is
committed. -/
def renew (row : Option ProofRow) (now : Nat) (refused : BriefcaseProof) : Phase :=
  match row.filter ProofRow.active with
  | none => .replacing
  | some row =>
      match proofs.vault.openSecret (proofs.context "token") row.tokenCipher with
      | none => .committing (.error .unavailable)
      | some value =>
          if value ≠ refused.token.exposeSecret ∧ now + minimumRemaining < row.tokenExpiresAt then
            -- Another request already put a new proof in its place.
            match ProofToken.new? value with
            | some token => .committing (.ok ⟨token, row.tokenExpiresAt⟩)
            | none => .committing (.error .unavailable)
          else match refreshable row now with
            | none => .invalidating "proof_ended" .replace
            | some cipher =>
                match proofs.vault.openSecret (proofs.context "refresh") cipher with
                | some refresh => proofs.presentRefresh refresh
                | none => .committing (.error .unavailable)

/-- `replace`: nothing is issued after someone's decision, nor without the account's own token. -/
def replace (row : Option ProofRow) (subjectToken : Option AccessToken) : Phase :=
  match subjectToken with
  | none => .committing (.error .notAuthorized)
  | some subjectToken =>
      if row.any ProofRow.endedExplicitly then .committing (.error .notAuthorized)
      else proofs.issue subjectToken (row.map ProofRow.proofId)

/-- The first SELECT of a call. -/
def begin (request : ProofRequest) (row : Option ProofRow) (now : Nat) : Continuation :=
  match request with
  | .briefcaseProof _ => proofs.stored row now
  | .renewRefusedProof _ refused => .goto (proofs.renew row now refused)
  | .approve subjectToken => .goto (proofs.issue subjectToken (row.map ProofRow.proofId))

/-- An error after the answer of Accounts. `approve` and the refresh in `stored` return at once,
which rolls back; `replace` and `renew` commit. -/
def failCall (request : ProofRequest) (asked : AccountsRequest) (error : StorageAuthorityError) :
    Continuation :=
  match request, asked with
  | .approve _, _ => .rollBack error
  | .briefcaseProof _, .refreshProof _ _ => .rollBack error
  | _, _ => .goto (.committing (.error error))

/-- What a call does with the answer of Accounts. -/
def received (request : ProofRequest) (asked : AccountsRequest)
    (answer : Except ProofError IssuedProof) (now : Nat) : Continuation :=
  match answer with
  | .ok issued =>
      match proofs.prepareSave issued now with
      | .ok (row, proof) => .goto (.saving row proof)
      | .error error => failCall request asked error
  | .error error =>
      match request, asked, error with
      | .briefcaseProof _, .refreshProof _ _, .refused _ =>
          .goto <| .invalidating
            (if error.isExplicitRevocation then "revoked_at_accounts" else "refresh_refused")
            .replace
      | .renewRefusedProof _ _, .refreshProof _ _, .refused _ =>
          if error.isExplicitRevocation then
            .goto (.invalidating "revoked_at_accounts" (.fail .notAuthorized))
          else .goto (.invalidating "proof_ended" .replace)
      | _, _, _ => failCall request asked (mapProofError error)

end StorageProofs

/-! ## The account's proof and its calls -/

/-- The call that holds the advisory lock, with the row it has written and not committed. -/
structure ProofCall where
  request : ProofRequest
  phase : Phase
  written : Option ProofRow

/-- The committed row, the calls that wait for the lock and the call that holds it. -/
structure ProofWorld where
  row : Option ProofRow
  waiting : List ProofRequest
  active : Option ProofCall

/-- What can happen. `withdraw` and `abandon` are a dropped request or a failed statement. A revoke
is the account's or its custodian's; the webhooks end sign-ins for a reason of their own. -/
inductive ProofEvent where
  | call (request : ProofRequest)
  | withdraw (request : ProofRequest)
  | lock (request : ProofRequest)
  | statement (now : Nat)
  | answer (answer : Except ProofError IssuedProof) (now : Nat)
  | abandon
  | revoke (byCustodian : Bool) (now : Nat)
  | endSignIns (reason : String) (now : Nat)

/-- The reason that the revoke handler gives. -/
def revokeReason (byCustodian : Bool) : String :=
  if byCustodian then "revoked_by_custodian" else "revoked_by_account"

namespace ProofWorld

variable (proofs : StorageProofs)

/-- The row as the lock holder sees it. -/
def visible (w : ProofWorld) (call : ProofCall) : Option ProofRow := call.written <|> w.row

/-- The lock holder goes on, or rolls back and releases the lock. -/
def continueWith (w : ProofWorld) (call : ProofCall) : Continuation → ProofWorld
  | .goto phase => { w with active := some { call with phase := phase } }
  | .rollBack _ => { w with active := none }

/-- The next statement of the lock holder; nothing while it waits for Accounts. -/
def statement (w : ProofWorld) (call : ProofCall) (now : Nat) : Option ProofWorld :=
  match call.phase with
  | .locked => some (w.continueWith call (proofs.begin call.request (w.visible call) now))
  | .calling _ => none
  | .saving row proof =>
      some { w with active := some { call with
        phase := .committing (.ok proof)
        written := some row } }
  | .invalidating reason next =>
      let written := match w.visible call with
        | some row => if row.active then some (row.invalidate reason now) else call.written
        | none => call.written
      let phase := match next with
        | .replace => .replacing
        | .fail error => .committing (.error error)
      some { w with active := some { call with phase := phase, written := written } }
  | .replacing =>
      some (w.continueWith call
        (.goto (proofs.replace (w.visible call) call.request.subjectToken)))
  | .committing _ => some { w with row := w.visible call, active := none }

/-- An UPDATE without the advisory lock that invalidates the row: it waits for a call that has
written the committed row, and does not see a row that is not committed. -/
def invalidated (w : ProofWorld) (reason : String) (now : Nat) : Option ProofWorld :=
  match w.row with
  | none => some w
  | some row =>
      if w.active.any fun call => call.written.isSome then none
      else some { w with row := some (row.invalidate reason now) }

/-- The world after an event, when it can happen. -/
def next (w : ProofWorld) : ProofEvent → Option ProofWorld
  | .call request => some { w with waiting := request :: w.waiting }
  | .withdraw request =>
      if request ∈ w.waiting then some { w with waiting := w.waiting.erase request } else none
  | .lock request =>
      if w.active.isNone ∧ request ∈ w.waiting then
        some { w with
          waiting := w.waiting.erase request
          active := some ⟨request, .locked, none⟩ }
      else none
  | .statement now => w.active.bind fun call => w.statement proofs call now
  | .answer answer now => w.active.bind fun call =>
      match call.phase with
      | .calling asked =>
          some (w.continueWith call (proofs.received call.request asked answer now))
      | _ => none
  | .abandon => w.active.map fun _ => { w with active := none }
  | .revoke byCustodian now => w.invalidated (revokeReason byCustodian) now
  | .endSignIns reason now => w.invalidated reason now

end ProofWorld

/-- One step. -/
def ProofStep (proofs : StorageProofs) (w : ProofWorld) (e : ProofEvent) (w' : ProofWorld) :
    Prop :=
  w.next proofs e = some w'

end Waveform.Storage
