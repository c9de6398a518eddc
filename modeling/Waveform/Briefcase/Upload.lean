import Mathlib.Algebra.Group.Nat.Defs
import Waveform.Briefcase.Search
import Waveform.Domain.ValueText
import Waveform.Library.Community

/-!
# Storing generated audio in Briefcase

The audio of a request is stored in three steps: a place is reserved under the request's id, the
bytes are sent, and the upload is committed. Briefcase then names the entry it published, which is
looked up among the entries of Waveform's folder and compared with what was sent. An upload that an
earlier try left half done is taken up where it stands.

- `filename_inj`: no two requests have a file name in common.
- `upload`: the exchanges of `upload`, with the errors that end it.
- `runs_findFrom_of_findEntryFrom`: its search is the one that a file is looked up with.
- `upload_asks`: how often it asks.
-/

set_option autoImplicit false

namespace Waveform.Briefcase

open Waveform.Domain Waveform.Service
open Dialogue

/-! ## What is sent and answered -/

/-- An entry with all that an upload reads of it. -/
structure DriveEntry extends Entry where
  name : String
  parentId : Option Uuid
  contentType : Option String
  size : Option Nat
  originAppId : Option String
  deriving DecidableEq

/-- A page of such entries. -/
structure DrivePage where
  items : List DriveEntry
  nextCursor : Option String
  deriving DecidableEq

inductive UploadState where
  | reserved
  | receiving
  | staged
  | committed
  | other
  deriving DecidableEq

structure UploadStatus where
  operationId : Uuid
  uploadId : Uuid
  state : UploadState
  publishedEntryId : Option Uuid
  capability : Option String
  entry : Option DriveEntry
  deriving DecidableEq

structure ReserveBody where
  operationId : Uuid
  parentPath : String
  name : String
  contentType : String
  size : Nat
  sha256 : String
  deriving DecidableEq

/-- The requests of an upload. -/
inductive UploadCall where
  /-- `obo/uploads/reserve`. -/
  | reserve (proof : BriefcaseProof) (body : ReserveBody) (requestId : RequestId)
  /-- `obo/uploads/{upload_id}/content`, with the capability in place of a proof. -/
  | content (uploadId : Uuid) (capability : String) (bytes : List UInt8)
  /-- `obo/uploads/commit`. -/
  | commit (proof : BriefcaseProof) (operationId uploadId : Uuid) (requestId : RequestId)
  /-- `obo/entries/list`. -/
  | list (proof : BriefcaseProof) (path cursor : Option String) (limit : Nat)
      (requestId : RequestId)
  deriving DecidableEq

/-- The body of a success. -/
@[reducible] def UploadCall.Body : UploadCall → Type
  | reserve _ _ _ => UploadStatus
  | content _ _ _ => UploadStatus
  | commit _ _ _ _ => UploadStatus
  | list _ _ _ _ _ => DrivePage

/-- What comes back: nothing in time, nothing at all, a status that is no success, a success that
cannot be read, or one that can. -/
inductive WireAnswer (β : Type) where
  | timedOut
  | unreachable
  | refused (status : Nat)
  | unreadable
  | body (value : β)

@[reducible] def UploadAnswer (call : UploadCall) : Type := WireAnswer call.Body

/-- A program over these requests. -/
abbrev UploadProgram (α : Type) := Dialogue UploadCall UploadAnswer α

abbrev UploadExchange := Exchange UploadCall UploadAnswer

/-- The error of a status, by the kind of route. -/
def statusError (uploadRoute : Bool) : Nat → BriefcaseError
  | 401 => .unauthorized
  | 403 => .forbidden
  | 404 => if uploadRoute then .contractUnavailable else .notFound
  | 410 => .notFound
  | 405 => .contractUnavailable
  | 501 => .contractUnavailable
  | 408 => .timeout
  | 504 => .timeout
  | 413 => .mediaTooLarge
  | 415 => .unsupportedMediaType
  | _ => .unavailable

/-- `send`, and the reading of its body. -/
def received {β : Type} (uploadRoute : Bool) : WireAnswer β → Except BriefcaseError β
  | .timedOut => .error .timeout
  | .unreachable => .error .unavailable
  | .refused status => .error (statusError uploadRoute status)
  | .unreadable => .error .invalidResponse
  | .body value => .ok value

/-! ## The program -/

/-- `StoreGeneratedAudioRequest`, as the service makes it: the file is named after the request and
the start of its operation. -/
structure StoreGeneratedAudioRequest where
  proof : BriefcaseProof
  operationStartedAt : UtcDateTime
  audio : NormalizedAudio
  requestId : RequestId
  bits : requestId.asUuid < 2 ^ 128
  deriving DecidableEq

def StoreGeneratedAudioRequest.filename (request : StoreGeneratedAudioRequest) :
    GeneratedAudioFileName :=
  GeneratedAudioFileName.forRequest request.operationStartedAt request.requestId

/-- **The file name tells requests apart.** -/
theorem filename_inj {request other : StoreGeneratedAudioRequest}
    (h : request.filename.value = other.filename.value) :
    request.requestId.asUuid = other.requestId.asUuid := by
  have hchars : generatedFileName request.operationStartedAt request.requestId =
      generatedFileName other.operationStartedAt other.requestId := String.ofList_injective h
  unfold generatedFileName at hchars
  obtain ⟨hfront, _⟩ := List.append_inj hchars (by simp [Uuid.hyphenated])
  obtain ⟨_, hhyphenated⟩ := List.append_inj hfront (by simp)
  have hread := Uuid.parseStr?_hyphenated request.bits
  rw [hhyphenated, Uuid.parseStr?_hyphenated other.bits] at hread
  exact (Option.some.inj hread).symm

/-- What the adapter reads of its settings, and the two functions it calls. -/
structure BriefcaseHttp where
  permanentOrigin : Origin
  waveformAppId : String
  appFolder : String
  parse : String → Option Url
  sha256 : List UInt8 → Vector UInt8 32

/-- Bytes in hexadecimal, lower case. -/
def lowerHex (bytes : List UInt8) : String :=
  String.ofList (bytes.flatMap fun b => fixedDigits 16 2 b.toNat)

/-- `PAGE_SIZE`. -/
def pageSize : Nat := 100

section Programs

variable (http : BriefcaseHttp) (request : StoreGeneratedAudioRequest)

def reserveBody : ReserveBody where
  operationId := request.requestId.asUuid
  parentPath := ""
  name := request.filename.value
  contentType := "audio/mpeg"
  size := request.audio.bytes.length
  sha256 := lowerHex (http.sha256 request.audio.bytes).toList

/-- The reservation, when it is one of this operation. -/
def reserve : UploadProgram (Except BriefcaseError UploadStatus) :=
  .ask (.reserve request.proof (reserveBody http request) request.requestId) fun answer =>
    .done ((received true answer).bind fun reservation =>
      if reservation.operationId ≠ request.requestId.asUuid ∨ reservation.uploadId = Uuid.nil then
        .error .invalidResponse
      else .ok reservation)

/-- The bytes, unless Briefcase has them. -/
def transfer (reservation : UploadStatus) : UploadProgram (Except BriefcaseError UploadStatus) :=
  match reservation.state with
  | .reserved | .receiving =>
      match reservation.capability with
      | none => .done (.error .invalidResponse)
      | some capability =>
          .ask (.content reservation.uploadId capability request.audio.bytes) fun answer =>
            .done ((received true answer).bind fun staged =>
              if staged.operationId ≠ request.requestId.asUuid ∨
                staged.uploadId ≠ reservation.uploadId ∨
                  ¬ (staged.state = .staged ∨ staged.state = .committed) then
                .error .invalidResponse
              else .ok staged)
  -- An attempt before this one has sent them.
  | .staged | .committed => .done (.ok reservation)
  | .other => .done (.error .unavailable)

/-- What is committed must be this upload. -/
def checkCommitted (uploadId : Uuid) (committed : UploadStatus) :
    Except BriefcaseError UploadStatus :=
  if committed.operationId ≠ request.requestId.asUuid ∨ committed.uploadId ≠ uploadId ∨
      committed.state ≠ .committed then
    .error .invalidResponse
  else .ok committed

/-- The commit, unless the upload is committed. -/
def commit (uploadId : Uuid) (status : UploadStatus) :
    UploadProgram (Except BriefcaseError UploadStatus) :=
  if status.state = .committed then .done (checkCommitted request uploadId status)
  else
    .ask (.commit request.proof request.requestId.asUuid uploadId request.requestId) fun answer =>
      .done ((received true answer).bind (checkCommitted request uploadId))

/-- The loop of `find`, over entries with all that they say. -/
def findEntryFrom (path : Option String) (isMatch : DriveEntry → Bool) :
    Nat → Option String → List String → UploadProgram (Except BriefcaseError DriveEntry)
  | 0, _, _ => .done (.error .invalidResponse)
  | turns + 1, cursor, seen =>
      .ask (.list request.proof path cursor pageSize request.requestId) fun answer =>
        match received false answer with
        | .error error => .done (.error error)
        | .ok page =>
            match page.items.find? isMatch with
            | some entry => .done (.ok entry)
            | none =>
                match page.nextCursor with
                | some next =>
                    -- A cursor that comes back would not end.
                    if next ∈ seen then .done (.error .invalidResponse)
                    else findEntryFrom path isMatch turns (some next) (next :: seen)
                | none => .done (.error .notFound)

/-- The entry that was published: the one of the answer, or else the one of the folder. -/
def publishedEntry (published : Uuid) (committed : UploadStatus) :
    UploadProgram (Except BriefcaseError DriveEntry) :=
  match committed.entry.filter fun entry => entry.id == published with
  | some entry => .done (.ok entry)
  | none => findEntryFrom request (some http.appFolder)
      (fun entry => entry.id == published) maxPages none []

/-- What is published must be the file that was sent. -/
def checkEntry (entry : DriveEntry) : Bool :=
  !entry.isFolder && entry.isLive && entry.name == request.filename.value &&
    entry.contentType.all (· == "audio/mpeg") && entry.size.all (· == request.audio.bytes.length) &&
      entry.originAppId.all (· == http.waveformAppId)

/-- The permanent URL of the entry, of Briefcase's origin. -/
def entryUrl (entry : DriveEntry) : Except BriefcaseError BriefcaseFileUrl :=
  match (entry.permanentUrl.bind http.parse).bind BriefcaseFileUrl.new? with
  | none => .error .invalidResponse
  | some file => if urlOrigin file.url ≠ http.permanentOrigin then .error .invalidResponse
      else .ok file

/-- `upload`. -/
def upload : UploadProgram (Except BriefcaseError BriefcaseFileUrl) :=
  (reserve http request).andThen fun reservation =>
    (transfer request reservation).andThen fun status =>
      (commit request reservation.uploadId status).andThen fun committed =>
        match committed.publishedEntryId with
        | none => .done (.error .invalidResponse)
        | some published =>
            (publishedEntry http request published committed).andThen fun entry =>
              .done (if checkEntry http request entry then entryUrl http entry
                else .error .invalidResponse)

end Programs

/-! ## Both loops of `find` -/

/-- A page as a search reads it. -/
def DrivePage.asEntryPage (page : DrivePage) : EntryPage :=
  ⟨page.items.map DriveEntry.toEntry, page.nextCursor⟩

/-- The listing of an upload as a search has it. -/
def asLookup (Response : Type) : UploadExchange → Option (LookupExchange Response)
  | ⟨.list proof path cursor _ requestId, answer⟩ =>
      some ⟨.list proof path cursor requestId, (received false answer).map DrivePage.asEntryPage⟩
  | _ => none

/-- **Both loops are `find`**: what is found over entries with all that they say is found over what
a search reads of them, with the same requests. -/
theorem runs_findFrom_of_findEntryFrom {Response : Type} {request : StoreGeneratedAudioRequest}
    {path : Option String} {isMatch : Entry → Bool} {turns : Nat} {cursor : Option String}
    {seen : List String} {tr : List UploadExchange} {result : Except BriefcaseError DriveEntry}
    (h : Runs (findEntryFrom request path (fun entry => isMatch entry.toEntry) turns cursor seen)
      tr result) :
    Runs (findFrom request.proof request.requestId path isMatch turns cursor seen)
      (tr.filterMap (asLookup Response)) (result.map DriveEntry.toEntry) := by
  induction turns generalizing cursor seen tr with
  | zero =>
      cases h
      exact .done _
  | succ turns ih =>
      unfold findEntryFrom at h
      cases h with
      | ask answer hrest =>
          dsimp only at hrest
          unfold findFrom
          let listing : LookupCall := .list request.proof path cursor request.requestId
          let told : LookupAnswer Response listing :=
            (received false answer).map DrivePage.asEntryPage
          refine @Runs.ask _ (LookupAnswer Response) _ listing _ _ _ told ?_
          unfold told
          cases hreceived : received false answer with
          | error error =>
              rw [hreceived] at hrest
              cases hrest
              exact .done _
          | ok page =>
              rw [hreceived] at hrest
              dsimp only at hrest
              have hfound : page.asEntryPage.items.find? isMatch =
                  (page.items.find? fun entry => isMatch entry.toEntry).map DriveEntry.toEntry :=
                List.find?_map ..
              simp only [Except.map, hfound]
              cases hmatch : page.items.find? fun entry => isMatch entry.toEntry with
              | some entry =>
                  rw [hmatch] at hrest
                  cases hrest
                  exact .done _
              | none =>
                  rw [hmatch] at hrest
                  simp only [Option.map_none, DrivePage.asEntryPage]
                  cases hnext : page.nextCursor with
                  | none =>
                      simp only [hnext] at hrest
                      cases hrest
                      exact .done _
                  | some next =>
                      simp only [hnext] at hrest
                      dsimp only
                      split at hrest
                      · next hseen =>
                          rw [if_pos hseen]
                          cases hrest
                          exact .done _
                      · next hseen =>
                          rw [if_neg hseen]
                          exact ih hrest

/-! ## How often it asks -/

section Counting

variable {http : BriefcaseHttp} {request : StoreGeneratedAudioRequest}

theorem asksAtMost_done {α : Type} (a : α) (n : Nat) : AsksAtMost (.done a : UploadProgram α) n :=
  trivial

theorem findEntryFrom_asks {path : Option String} {isMatch : DriveEntry → Bool} {turns : Nat}
    {cursor : Option String} {seen : List String} :
    AsksAtMost (findEntryFrom request path isMatch turns cursor seen) turns := by
  induction turns generalizing cursor seen with
  | zero => exact asksAtMost_done _ 0
  | succ turns ih =>
      refine ⟨turns, rfl, fun answer => ?_⟩
      dsimp only
      split
      · exact asksAtMost_done _ turns
      · split
        · exact asksAtMost_done _ turns
        · split
          · split
            · exact asksAtMost_done _ turns
            · exact ih
          · exact asksAtMost_done _ turns

theorem asksAtMost_ask {α : Type} {call : UploadCall} {next : UploadAnswer call → α} :
    AsksAtMost (.ask call fun answer => .done (next answer) : UploadProgram α) 1 :=
  ⟨0, rfl, fun _ => asksAtMost_done _ 0⟩

theorem transfer_asks (reservation : UploadStatus) :
    AsksAtMost (transfer request reservation) 1 := by
  unfold transfer
  split
  · split
    · exact asksAtMost_done _ 1
    · exact asksAtMost_ask
  · split
    · exact asksAtMost_done _ 1
    · exact asksAtMost_ask
  · exact asksAtMost_done _ 1
  · exact asksAtMost_done _ 1
  · exact asksAtMost_done _ 1

theorem commit_asks (uploadId : Uuid) (status : UploadStatus) :
    AsksAtMost (commit request uploadId status) 1 := by
  unfold commit
  split
  · exact asksAtMost_done _ 1
  · exact asksAtMost_ask

theorem publishedEntry_asks (published : Uuid) (committed : UploadStatus) :
    AsksAtMost (publishedEntry http request published committed) maxPages := by
  unfold publishedEntry
  split
  · exact asksAtMost_done _ maxPages
  · exact findEntryFrom_asks

/-- The requests of an upload, at most. -/
def maxUploadCalls : Nat := 3 + maxPages

/-- **An upload asks three times, and once for each page it looks through.** -/
theorem upload_asks : AsksAtMost (upload http request) maxUploadCalls := by
  have hasks : AsksAtMost (upload http request) (1 + (1 + (1 + (maxPages + 0)))) := by
    refine asksAtMost_ask.andThen fun reservation =>
      (transfer_asks reservation).andThen fun status =>
      (commit_asks _ status).andThen fun committed => ?_
    split
    · exact asksAtMost_done _ _
    · exact (publishedEntry_asks _ committed).andThen fun entry => asksAtMost_done _ 0
  exact hasks.mono (Nat.le_refl _)

end Counting

end Waveform.Briefcase
