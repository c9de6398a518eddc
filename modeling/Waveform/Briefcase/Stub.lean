import Mathlib.Data.List.Sort
import Mathlib.Data.String.Basic
import Mathlib.Logic.Function.Basic
import Waveform.Briefcase.Upload
import Waveform.Domain.MediaTypeText
import Waveform.Library.Base64
import Waveform.Library.PercentEncoding
import Waveform.Library.Table
import Waveform.Library.Utf8

/-!
# Briefcase, as the repository stands in for it

The repository keeps a stand-in for Briefcase that answers the routes Waveform calls. It holds a
drive for each account and the uploads by account, app and operation. An upload is reserved once
under its operation, takes the bytes that it was reserved for, and is committed once they are there:
committing publishes a file in the app's folder.

- `Stub.handle`: the answer to a request and the state after it.
- `startOf_cursorOf`: a page starts where the cursor of the one before says.
-/

set_option autoImplicit false

namespace Waveform.Briefcase

open Waveform.Domain

/-- What `verify` finds out about the caller: the account, its public id, and the app that acts for
it. -/
structure Caller where
  owner : String
  ownerId : String
  app : String
  deriving DecidableEq

/-- An entry of a drive; a folder has no data. -/
structure StubEntry where
  id : Uuid
  kind : String
  name : String
  path : String
  parentId : Option Uuid
  contentType : Option String
  size : Option Nat
  originAppId : Option String
  deletedAt : Option String
  data : Option (List UInt8)
  deriving DecidableEq

/-- A drive, with its entries in the order they were made. -/
structure StubDrive where
  ownerId : String
  entries : List StubEntry
  deriving DecidableEq

structure StubUpload where
  operationId : Uuid
  uploadId : Uuid
  state : UploadState
  owner : String
  app : String
  folderId : Uuid
  name : String
  contentType : String
  size : Nat
  sha256 : String
  capability : String
  data : Option (List UInt8)
  publishedEntryId : Option Uuid
  deriving DecidableEq

/-- The uploads by `{owner}/{app}/{operation_id}`. -/
def StubUpload.key (upload : StubUpload) : String × String × Uuid :=
  (upload.owner, upload.app, upload.operationId)

/-- The drives, an empty one for an account without, and the uploads; `drawn` counts the random
values. -/
structure Stub where
  drives : String → StubDrive
  uploads : List StubUpload
  drawn : Nat

/-- The origin of permanent URLs, the digest, and the values of `uuid.uuid4` and
`secrets.token_urlsafe`. -/
structure StubSettings where
  origin : String
  sha256 : List UInt8 → Vector UInt8 32
  uuid4 : Nat → Uuid
  tokenUrlsafe : Nat → String

/-- The status of a refusal, or the body. -/
abbrev StubAnswer (β : Type) := Except Nat β

/-! ## Drives -/

/-- `by_path`. -/
def StubDrive.byPath (drive : StubDrive) (path : String) : Option StubEntry :=
  drive.entries.find? fun entry => decide (entry.path = path) && entry.deletedAt.isNone

/-- A path, by its last name and the names above it. -/
def joined : List String → String
  | [] => ""
  | [name] => name
  | name :: parents => joined parents ++ "/" ++ name

def newFolder (id : Uuid) (parentId : Option Uuid) (app name path : String) : StubEntry where
  id := id
  kind := "folder"
  name := name
  path := path
  parentId := parentId
  contentType := none
  size := none
  originAppId := some app
  deletedAt := none
  data := none

/-- `ensure_folder`, with the count of random values; the names are those of the path, the last one
first. -/
def ensureFolder (uuid4 : Nat → Uuid) (app : String) (drive : StubDrive) (drawn : Nat) :
    List String → (StubDrive × Nat) × Option StubEntry
  | [] => ((drive, drawn), none)
  | name :: parents =>
      match drive.byPath (joined (name :: parents)) with
      | some found => ((drive, drawn), some found)
      | none =>
          let ((drive, drawn), parent) := ensureFolder uuid4 app drive drawn parents
          let entry := newFolder (uuid4 drawn)
            (parent.map StubEntry.id) app name (joined (name :: parents))
          (({ drive with entries := drive.entries ++ [entry] }, drawn + 1), some entry)

/-- `visible`. -/
def visible (path app : String) : Bool :=
  path == "apps/" ++ app || ("apps/" ++ app ++ "/").toList.isPrefixOf path.toList

/-- `urllib.parse.quote`: what is no letter, digit or one of `_.-~` is escaped, but for the safe
bytes. -/
def quote (safe : List UInt8) (text : String) : String :=
  let unreserved := fun b : UInt8 =>
    (65 ≤ b.toNat && b.toNat ≤ 90) || (97 ≤ b.toNat && b.toNat ≤ 122) ||
      (48 ≤ b.toNat && b.toNat ≤ 57) ||
      b.toNat == 95 || b.toNat == 46 || b.toNat == 45 || b.toNat == 126
  asciiText (PercentEncoding.encode (fun b => !(unreserved b || safe.contains b)) (utf8 text))

/-- The parts of a path that are not empty. -/
def pathParts (path : String) : List String :=
  ((path.toList.splitOn '/').filter (! ·.isEmpty)).map String.ofList

/-- `permanent_url`. -/
def permanentUrl (origin ownerId path : String) : String :=
  origin ++ "/" ++ quote [58] ownerId ++ "/" ++ "/".intercalate ((pathParts path).map (quote []))

/-- `view`. -/
def StubEntry.view (entry : StubEntry) (origin ownerId : String) : DriveEntry where
  id := entry.id
  kind := entry.kind
  path := entry.path
  permanentUrl := some (permanentUrl origin ownerId entry.path)
  deletedAt := entry.deletedAt
  name := entry.name
  parentId := entry.parentId
  contentType := entry.contentType
  size := entry.size
  originAppId := entry.originAppId

/-- The drive with an entry changed in place, by its id. -/
def StubDrive.withEntry (drive : StubDrive) (entry : StubEntry) : StubDrive :=
  { drive with entries := Table.update StubEntry.id entry.id (fun _ => entry) drive.entries }

def newFile (id : Uuid) (folder : StubEntry) (name contentType : String) (data : List UInt8)
    (app : String) : StubEntry where
  id := id
  kind := "file"
  name := name
  path := folder.path ++ "/" ++ name
  parentId := some folder.id
  contentType := some contentType
  size := some data.length
  originAppId := some app
  deletedAt := none
  data := some data

/-- `publish`: an entry that has the path is overwritten. -/
def publish (uuid4 : Nat → Uuid) (drive : StubDrive) (drawn : Nat) (folder : StubEntry)
    (name contentType : String)
    (data : List UInt8) (app : String) : (StubDrive × Nat) × Uuid :=
  match drive.byPath (folder.path ++ "/" ++ name) with
  | some existing =>
      let entry := { existing with
        contentType := some contentType, size := some data.length, originAppId :=
          some app, data := some data }
      ((drive.withEntry entry, drawn), entry.id)
  | none =>
      let entry := newFile (uuid4 drawn) folder name contentType data app
      (({ drive with entries := drive.entries ++ [entry] }, drawn + 1), entry.id)

/-! ## Routes -/

/-- `upload_status`. -/
def StubUpload.status (upload : StubUpload) (capability : Option String) : UploadStatus where
  operationId := upload.operationId
  uploadId := upload.uploadId
  state := upload.state
  publishedEntryId := upload.publishedEntryId
  capability := capability
  entry := none

namespace Stub

variable (settings : StubSettings) (s : Stub)

def withDrive (owner : String) (drive : StubDrive) : Stub :=
  { s with drives := Function.update s.drives owner drive }

@[simp] theorem withDrive_self (owner : String) (drive : StubDrive) :
    (s.withDrive owner drive).drives owner = drive :=
  Function.update_self ..

theorem withDrive_of_ne {owner other : String} (drive : StubDrive) (h : other ≠ owner) :
    (s.withDrive owner drive).drives other = s.drives other := Function.update_of_ne h ..

/-- `drive`: the account's drive, under its public id of now. -/
def openDrive (caller : Caller) : Stub :=
  if caller.ownerId = "" then s
  else s.withDrive caller.owner { s.drives caller.owner with ownerId := caller.ownerId }

/-- The folder of the app, made where there is none. -/
def appFolder (caller : Caller) : Stub × Option StubEntry :=
  let ((drive, drawn), folder) :=
    ensureFolder settings.uuid4 caller.app (s.drives caller.owner) s.drawn [caller.app, "apps"]
  ({ s.withDrive caller.owner drive with drawn := drawn }, folder)

/-- 64 lower-case hexadecimal digits. -/
def isSha256 (text : String) : Bool :=
  text.toList.length == 64 && text.toList.all fun c => c.isDigit || ('a' ≤ c && c ≤ 'f')

/-- The folder an upload is reserved for. -/
def destination (caller : Caller) (folder : StubEntry) (folderPath : String) : Option StubEntry :=
  if folderPath = folder.path then some folder
  else ((s.drives caller.owner).byPath folderPath).filter fun entry => entry.kind == "folder"

def newUpload (caller : Caller) (body : ReserveBody) (folderId : Uuid) : StubUpload where
  operationId := body.operationId
  uploadId := settings.uuid4 s.drawn
  state := .reserved
  owner := caller.owner
  app := caller.app
  folderId := folderId
  name := body.name
  contentType := body.contentType
  size := body.size
  sha256 := body.sha256
  capability := "bcu_" ++ settings.tokenUrlsafe s.drawn
  data := none
  publishedEntryId := none

/-- A reserved upload with its capability, any other without. -/
def reservation (upload : StubUpload) : UploadStatus :=
  upload.status (if upload.state = .reserved then some upload.capability else none)

/-- `reserve`. -/
def reserve (caller : Caller) (body : ReserveBody) : StubAnswer UploadStatus × Stub :=
  let s := s.openDrive caller
  if !isSha256 body.sha256 then (.error 422, s)
  else
    let folderPath := if body.parentPath = "" then "apps/" ++ caller.app else body.parentPath
    if !visible folderPath caller.app then (.error 404, s)
    else
      let (s, folder) := s.appFolder settings caller
      match folder.bind fun folder => s.destination caller folder folderPath with
      | none => (.error 404, s)
      | some folder =>
          match Table.lookup StubUpload.key (caller.owner, caller.app, body.operationId)
            s.uploads with
          -- The operation has its upload; the rest of the body is not compared.
          | some upload => (.ok (reservation upload), s)
          | none =>
              let upload := newUpload settings s caller body folder.id
              (.ok (reservation upload),
                { s with uploads := Table.insert upload s.uploads, drawn := s.drawn + 1 })

/-- An upload with its bytes. -/
def staged (bytes : List UInt8) (upload : StubUpload) : StubUpload :=
  { upload with data := some bytes, state := .staged }

/-- `transfer`. -/
def transfer (uploadId : Uuid) (capability : String) (raw : List UInt8) :
    StubAnswer UploadStatus × Stub :=
  match Table.lookup StubUpload.uploadId uploadId s.uploads with
  | none => (.error 404, s)
  | some upload =>
      if capability ≠ upload.capability then (.error 404, s)
      else if raw.length ≠ upload.size ∨ lowerHex (settings.sha256 raw).toList ≠ upload.sha256
        then (.error 422, s)
      else
        (.ok ((staged raw upload).status none),
          { s with uploads := Table.update StubUpload.uploadId uploadId (staged raw) s.uploads })

/-- A committed upload. -/
def committed (entryId : Uuid) (upload : StubUpload) : StubUpload :=
  { upload with state := .committed, publishedEntryId := some entryId }

/-- `commit`. An upload that was staged has its bytes and its folder. -/
def commit (caller : Caller) (operationId uploadId : Uuid) : StubAnswer UploadStatus × Stub :=
  let s := s.openDrive caller
  match Table.lookup StubUpload.key (caller.owner, caller.app, operationId) s.uploads with
  | none => (.error 404, s)
  | some upload =>
      if upload.uploadId ≠ uploadId then (.error 404, s)
      else
        match upload.state with
        | .staged =>
            match upload.data, Table.lookup StubEntry.id upload.folderId
              (s.drives caller.owner).entries with
            | some data, some folder =>
                let ((drive, drawn), entryId) :=
                  publish settings.uuid4 (s.drives caller.owner) s.drawn folder
                  upload.name upload.contentType data caller.app
                (.ok ((committed entryId upload).status none),
                  { s.withDrive caller.owner drive with
                    uploads := Table.update StubUpload.key upload.key (committed entryId) s.uploads
                    drawn := drawn })
            -- A missing key raises.
            | _, _ => (.error 500, s)
        | .committed => (.ok (upload.status none), s)
        | _ => (.error 409, s)

/-- `urlsafe_b64encode` of a number in decimal. -/
def cursorOf (n : Nat) : String :=
  String.ofList (Base64.pad (Base64.encode (utf8 (String.ofList (decimal n)))))

/-- `int` of a text of digits. -/
def intOf (text : String) : Option Nat :=
  if text ≠ "" ∧ text.toList.all Char.isDigit then some (Nat.ofDigitChars 10 text.toList 0)
    else none

/-- Where a page starts; a cursor that is no number raises. -/
def startOf (cursor : Option String) : Option Nat :=
  match cursor with
  | none => some 0
  | some cursor =>
      if cursor = "" then some 0
      else (Base64.decode (Base64.unpad cursor.toList)).bind fun bytes => intOf (asciiText bytes)

theorem asciiText_utf8_decimal (n : Nat) :
    asciiText (utf8 (String.ofList (decimal n))) = String.ofList (decimal n) := by
  refine utf8_inj (utf8_asciiText fun b hb => ?_)
  rw [utf8, String.toList_ofList] at hb
  obtain ⟨c, hc, hb⟩ := List.mem_flatMap.mp hb
  have hdigit := isDigit_of_mem_decimal hc
  simp only [Char.isDigit, Bool.and_eq_true, decide_eq_true_eq] at hdigit
  have hlt : c.toNat < 128 := Nat.lt_of_le_of_lt hdigit.2 (by decide)
  rw [Utf8.utf8EncodeChar_ascii hlt] at hb
  rw [List.mem_singleton.mp hb, UInt8.toNat_ofNat']
  omega

theorem intOf_decimal (n : Nat) : intOf (String.ofList (decimal n)) = some n := by
  have hdigits : (String.ofList (decimal n)).toList.all Char.isDigit = true := by
    rw [String.toList_ofList, List.all_eq_true]
    exact fun c hc => isDigit_of_mem_decimal hc
  have hne : String.ofList (decimal n) ≠ "" := by
    rw [Ne, String.ofList_eq_empty_iff]
    simp [decimal]
  rw [intOf, if_pos ⟨hne, hdigits⟩, String.toList_ofList]
  exact congrArg some Nat.ofDigitChars_ten_toDigits

theorem cursorOf_ne_empty (n : Nat) : cursorOf n ≠ "" := by
  intro h
  have hpad : Base64.pad (Base64.encode (utf8 (String.ofList (decimal n)))) = [] := by
    rw [← String.toList_ofList (l := Base64.pad _)]
    exact congrArg String.toList h
  have hencode : Base64.encode (utf8 (String.ofList (decimal n))) = Base64.encode [] :=
    (List.append_eq_nil_iff.mp hpad).1
  have hutf8 : utf8 (String.ofList (decimal n)) = utf8 "" := Base64.encode_inj hencode
  have hdigits : decimal n = [] := by
    rw [← String.toList_ofList (l := decimal n), utf8_inj hutf8]
    rfl
  exact absurd hdigits (by simp [decimal])

/-- **A page starts where the cursor says.** -/
theorem startOf_cursorOf (n : Nat) : startOf (some (cursorOf n)) = some n := by
  rw [startOf, if_neg (cursorOf_ne_empty n), cursorOf, String.toList_ofList, Base64.unpad_pad,
    Base64.decode_encode]
  change intOf (asciiText _) = some n
  rw [asciiText_utf8_decimal]
  exact intOf_decimal n

/-- The entries that a listing of a folder shows, by name. -/
def children (caller : Caller) (parent : StubEntry) : List StubEntry :=
  ((s.drives caller.owner).entries.filter fun entry =>
    decide (entry.parentId = some parent.id) && entry.deletedAt.isNone &&
      visible entry.path caller.app).insertionSort
      fun a b => a.name ≤ b.name

/-- The folder that is listed: the one of the path, or else the app's. -/
def listed (caller : Caller) (folder : Option StubEntry) (path : Option String) :
    Option StubEntry :=
  let parent := match path with
    | some path => (s.drives caller.owner).byPath path
    | none => folder
  parent.filter fun parent => parent.kind == "folder" && visible parent.path caller.app

/-- `list_entries`. -/
def listEntries (caller : Caller) (path cursor : Option String) (limit : Nat) :
    StubAnswer DrivePage × Stub :=
  let s := s.openDrive caller
  if ¬ (1 ≤ limit ∧ limit ≤ 100) then (.error 422, s)
  else
    let (s, folder) := s.appFolder settings caller
    match s.listed caller folder path with
    | none => (.error 404, s)
    | some parent =>
        match startOf cursor with
        | none => (.error 500, s)
        | some start =>
            let shown := s.children caller parent
            let items := ((shown.drop start).take limit).map fun entry =>
              entry.view settings.origin (s.drives caller.owner).ownerId
            (.ok ⟨items, if start + limit < shown.length then some (cursorOf (start + limit))
              else none⟩, s)

/-- The answer to a request, and the state after it. A request may be refused before its route sees
it, with a status: by an injected failure, or because its proof is not accepted. -/
def handle (verdict : Except Nat Caller) : (call : UploadCall) → StubAnswer call.Body × Stub
  | .reserve _ body _ =>
      match verdict with
      | .error status => (.error status, s)
      | .ok caller => s.reserve settings caller body
  | .content uploadId capability raw =>
      match verdict with
      | .error status => (.error status, s)
      | .ok _ => s.transfer settings uploadId capability raw
  | .commit _ operationId uploadId _ =>
      match verdict with
      | .error status => (.error status, s)
      | .ok caller => s.commit settings caller operationId uploadId
  | .list _ path cursor limit _ =>
      match verdict with
      | .error status => (.error status, s)
      | .ok caller => s.listEntries settings caller path cursor limit

end Stub

end Waveform.Briefcase
