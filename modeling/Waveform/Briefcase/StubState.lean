import Waveform.Briefcase.Stub

/-!
# What Briefcase holds, as Waveform's uploads leave it

The stand-in serves Waveform's requests only. Then an entry is one of Waveform's two folders or the
file of an upload, no two entries share an id or a path, and an upload keeps the manifest that it
was reserved with.

- `Orderly`: what holds of the drives and the uploads.
- `Stub.Evolves`: what stays as it is from one state to a later one.
- `Orderly.entry_of_filePath`: a request's path names one entry, the live file of an upload.
-/

set_option autoImplicit false

namespace Waveform.Briefcase

open Waveform.Domain

/-- Waveform's adapter, the stand-in, and the account that a proof acts for. -/
structure Deployment where
  http : BriefcaseHttp
  settings : StubSettings
  ownerOf : BriefcaseProof → String

/-- Random values are all different, and no UUID is nil. -/
structure Deployment.Random (d : Deployment) : Prop where
  injective : Function.Injective d.settings.uuid4
  nonNil : ∀ n, d.settings.uuid4 n ≠ Uuid.nil

/-- The path of Waveform's folder. -/
def Deployment.appPath (d : Deployment) : String := joined [d.http.waveformAppId, "apps"]

/-! ## Paths -/

theorem joined_cons {name : String} {parents : List String} (h : parents ≠ []) :
    joined (name :: parents) = joined parents ++ "/" ++ name := by
  cases parents with
  | nil => exact absurd rfl h
  | cons parent parents => rfl

/-- A folder's path is shorter than that of what is in it. -/
theorem joined_length {name : String} {parents : List String} (h : parents ≠ []) :
    (joined parents).length < (joined (name :: parents)).length := by
  rw [joined_cons h, String.length_append, String.length_append]
  have hslash : "/".length = 1 := rfl
  omega

theorem joined_length_of_suffix {names parents : List String} (hne : names ≠ [])
    (h : names <:+ parents) :
    (joined names).length ≤ (joined parents).length := by
  induction parents with
  | nil => exact absurd (List.suffix_nil.mp h) hne
  | cons parent parents ih =>
      rcases List.suffix_cons_iff.mp h with rfl | h
      · exact Nat.le_refl _
      · have hparents : parents ≠ [] := by
          rintro rfl
          exact hne (List.suffix_nil.mp h)
        exact (ih h).trans (Nat.le_of_lt (joined_length hparents))

/-! ## Drives -/

section Drives

variable {uuid4 : Nat → Uuid} {drive : StubDrive} {drawn : Nat} {e entry : StubEntry}
  {path : String}

/-- The entry's folder is there, under a shorter path. -/
def InFolder (entries : List StubEntry) (e : StubEntry) : Prop :=
  ∀ id, e.parentId = some id → ∃ p ∈ entries, p.id = id ∧ p.path.length < e.path.length

/-- The entries are live, have ids that were drawn, share neither ids nor paths, and are in their
folders. -/
structure DriveTables (uuid4 : Nat → Uuid) (drive : StubDrive) (drawn : Nat) : Prop where
  live : ∀ e ∈ drive.entries, e.deletedAt = none
  drawn : ∀ e ∈ drive.entries, ∃ k, k < drawn ∧ e.id = uuid4 k
  ids : Table.Unique StubEntry.id drive.entries
  paths : Table.Unique StubEntry.path drive.entries
  folders : ∀ e ∈ drive.entries, InFolder drive.entries e

theorem byPath_eq_none (h : DriveTables uuid4 drive drawn) :
    drive.byPath path = none ↔ ∀ e ∈ drive.entries, e.path ≠ path := by
  unfold StubDrive.byPath
  rw [List.find?_eq_none]
  refine forall_congr' fun e => forall_congr' fun he => ?_
  rw [h.live e he]
  simp

theorem byPath_eq_some (h : DriveTables uuid4 drive drawn) :
    drive.byPath path = some entry ↔ entry ∈ drive.entries ∧ entry.path = path := by
  constructor
  · intro hfound
    refine ⟨List.mem_of_find?_eq_some hfound, ?_⟩
    have htest := List.find?_some hfound
    simp only [Bool.and_eq_true, decide_eq_true_eq] at htest
    exact htest.1
  · rintro ⟨hmem, hpath⟩
    cases hfound : drive.byPath path with
    | none => exact absurd hpath ((byPath_eq_none h).mp hfound entry hmem)
    | some found =>
        have htest := List.find?_some hfound
        simp only [Bool.and_eq_true, decide_eq_true_eq] at htest
        rw [h.paths.eq_of_mem (List.mem_of_find?_eq_some hfound) hmem (htest.1.trans hpath.symm)]

theorem DriveTables.mono {drawn' : Nat} (h : DriveTables uuid4 drive drawn) (hle : drawn ≤ drawn') :
    DriveTables uuid4 drive drawn' where
  live := h.live
  drawn e he := by
    obtain ⟨k, hk, hid⟩ := h.drawn e he
    exact ⟨k, Nat.lt_of_lt_of_le hk hle, hid⟩
  ids := h.ids
  paths := h.paths
  folders := h.folders

/-- The public id is no part of it. -/
theorem DriveTables.congr {drive' : StubDrive} (h : DriveTables uuid4 drive drawn)
    (hentries : drive'.entries = drive.entries) :
    DriveTables uuid4 drive' drawn := by
  obtain ⟨live, drawn, ids, paths, folders⟩ := h
  exact ⟨hentries ▸ live, hentries ▸ drawn, hentries ▸ ids, hentries ▸ paths, hentries ▸ folders⟩

theorem InFolder.mono {entries entries' : List StubEntry} (h : InFolder entries e)
    (hentries : ∀ p ∈ entries, p ∈ entries') :
    InFolder entries' e := by
  intro id hid
  obtain ⟨p, hp, hparent⟩ := h id hid
  exact ⟨p, hentries p hp, hparent⟩

theorem unique_append {Key : Type} {column : StubEntry → Key} {entries : List StubEntry}
    (h : Table.Unique column entries)
    (hnew : ∀ e ∈ entries, column e ≠ column entry) : Table.Unique column (entries ++ [entry]) := by
  unfold Table.Unique
  rw [List.map_append, List.nodup_append]
  refine ⟨h, List.nodup_singleton _, fun key hkey other hother heq => ?_⟩
  obtain ⟨e, he, rfl⟩ := List.mem_map.mp hkey
  exact hnew e he (heq.trans (List.mem_singleton.mp hother))

/-- A new entry, under the next random id and a path that is free. -/
theorem DriveTables.add (h : DriveTables uuid4 drive drawn) (hinj : Function.Injective uuid4)
    (hlive : entry.deletedAt = none) (hid : entry.id = uuid4 drawn)
    (hpath : drive.byPath entry.path = none)
    (hfolder : InFolder drive.entries entry) :
    DriveTables uuid4 { drive with entries := drive.entries ++ [entry] } (drawn + 1) where
  live e he := by
    rcases List.mem_append.mp he with he | he
    · exact h.live e he
    · rw [List.mem_singleton.mp he]
      exact hlive
  drawn e he := by
    rcases List.mem_append.mp he with he | he
    · obtain ⟨k, hk, hidk⟩ := h.drawn e he
      exact ⟨k, Nat.lt_succ_of_lt hk, hidk⟩
    · rw [List.mem_singleton.mp he]
      exact ⟨drawn, Nat.lt_succ_self drawn, hid⟩
  ids := by
    refine unique_append h.ids fun e he heq => ?_
    obtain ⟨k, hk, hidk⟩ := h.drawn e he
    have hsame := hinj (hidk.symm.trans (heq.trans hid))
    omega
  paths := unique_append h.paths ((byPath_eq_none h).mp hpath)
  folders e he := by
    rcases List.mem_append.mp he with he | he
    · exact (h.folders e he).mono fun p hp => List.mem_append_left _ hp
    · rw [List.mem_singleton.mp he]
      exact hfolder.mono fun p hp => List.mem_append_left _ hp

/-- What is in a drive after an entry was changed. -/
theorem mem_withEntry : e ∈ (drive.withEntry entry).entries ↔
    (e ∈ drive.entries ∧ e.id ≠ entry.id) ∨
    (e = entry ∧ ∃ e' ∈ drive.entries, e'.id = entry.id) := by
  unfold StubDrive.withEntry
  rw [Table.mem_update]
  constructor
  · rintro ⟨row, hrow, rfl⟩
    by_cases hid : row.id = entry.id
    · rw [if_pos hid]
      exact .inr ⟨rfl, row, hrow, hid⟩
    · rw [if_neg hid]
      exact .inl ⟨hrow, hid⟩
  · rintro (⟨he, hid⟩ | ⟨rfl, e', he', hid⟩)
    · exact ⟨e, he, if_neg hid⟩
    · exact ⟨e', he', if_pos hid⟩

/-- An entry keeps its id and path when it is overwritten. -/
theorem DriveTables.withEntry {existing : StubEntry} (h : DriveTables uuid4 drive drawn)
    (hmem : existing ∈ drive.entries)
    (hid : entry.id = existing.id) (hpath : entry.path = existing.path)
    (hparent : entry.parentId = existing.parentId)
    (hlive : entry.deletedAt = none) : DriveTables uuid4 (drive.withEntry entry) drawn := by
  have hchange : ∀ row ∈ drive.entries, row.id = entry.id → row = existing :=
    fun row hrow hrowid => h.ids.eq_of_mem hrow hmem (hrowid.trans hid)
  -- A folder is found under its id and path, changed or not.
  have hfolders : ∀ e, InFolder drive.entries e → InFolder (drive.withEntry entry).entries e := by
    intro e hfolder id hparentId
    obtain ⟨p, hp, hpid, hshorter⟩ := hfolder id hparentId
    by_cases hsame : p.id = entry.id
    · refine ⟨entry, mem_withEntry.mpr (.inr ⟨rfl, p, hp, hsame⟩), hsame.symm.trans hpid, ?_⟩
      rw [hpath, ← hchange p hp hsame]
      exact hshorter
    · exact ⟨p, mem_withEntry.mpr (.inl ⟨hp, hsame⟩), hpid, hshorter⟩
  refine ⟨fun e he => ?_, fun e he => ?_, ?_, ?_, fun e he => hfolders e ?_⟩
  · rcases mem_withEntry.mp he with ⟨he, _⟩ | ⟨rfl, _⟩
    · exact h.live e he
    · exact hlive
  · rcases mem_withEntry.mp he with ⟨he, _⟩ | ⟨rfl, _⟩
    · exact h.drawn e he
    · rw [hid]
      exact h.drawn existing hmem
  · have hsame : (drive.withEntry entry).entries.map StubEntry.id =
        drive.entries.map StubEntry.id := by
      unfold StubDrive.withEntry Table.update
      rw [List.map_map]
      refine List.map_congr_left fun row _ => ?_
      dsimp only [Function.comp]
      split
      · next heq => exact heq.symm
      · rfl
    unfold Table.Unique
    rw [hsame]
    exact h.ids
  · have hsame : (drive.withEntry entry).entries.map StubEntry.path =
        drive.entries.map StubEntry.path := by
      unfold StubDrive.withEntry Table.update
      rw [List.map_map]
      refine List.map_congr_left fun row hrow => ?_
      dsimp only [Function.comp]
      split
      · next heq => rw [hchange row hrow heq, hpath]
      · rfl
    unfold Table.Unique
    rw [hsame]
    exact h.paths
  · rcases mem_withEntry.mp he with ⟨he, _⟩ | ⟨rfl, _⟩
    · exact h.folders e he
    · have hfolder := h.folders existing hmem
      unfold InFolder at hfolder ⊢
      rw [hparent, hpath]
      exact hfolder

/-- What making sure of a folder leaves: what was there, and folders above a path. -/
structure Ensured (uuid4 : Nat → Uuid) (names : List String) (drive : StubDrive) (drawn : Nat)
    (drive' : StubDrive)
    (drawn' : Nat) (folder : Option StubEntry) : Prop where
  tables : DriveTables uuid4 drive' drawn'
  kept : ∀ e ∈ drive.entries, e ∈ drive'.entries
  added : ∀ e ∈ drive'.entries, e ∈ drive.entries ∨
    e.kind = "folder" ∧ ∃ above, above ≠ [] ∧ above <:+ names ∧ e.path = joined above
  ownerId : drive'.ownerId = drive.ownerId
  le : drawn ≤ drawn'
  outermost : names = [] → folder = none
  folder : names ≠ [] → ∃ f ∈ drive'.entries, folder = some f ∧ f.path = joined names

theorem ensureFolder_ensured (hinj : Function.Injective uuid4) (app : String) (names : List String)
    (h : DriveTables uuid4 drive drawn) :
    Ensured uuid4 names drive drawn (ensureFolder uuid4 app drive drawn names).1.1
      (ensureFolder uuid4 app drive drawn names).1.2
        (ensureFolder uuid4 app drive drawn names).2 := by
  induction names with
  | nil => exact ⟨h, fun e he => he, fun e he => .inl he, rfl, Nat.le_refl _, fun _ => rfl,
      fun hne => absurd rfl hne⟩
  | cons name parents ih =>
      cases hfound : drive.byPath (joined (name :: parents)) with
      | some found =>
          simp only [ensureFolder, hfound]
          obtain ⟨hmem, hpath⟩ := (byPath_eq_some h).mp hfound
          exact ⟨h, fun e he => he, fun e he => .inl he, rfl, Nat.le_refl _,
            fun hnil => absurd hnil (List.cons_ne_nil _ _), fun _ => ⟨found, hmem, rfl, hpath⟩⟩
      | none =>
          simp only [ensureFolder, hfound]
          revert ih
          generalize ensureFolder uuid4 app drive drawn parents = result
          obtain ⟨⟨drive₁, drawn₁⟩, parent⟩ := result
          intro ih
          -- No folder above the path has the path itself.
          have hfree : drive₁.byPath (joined (name :: parents)) = none := by
            rw [byPath_eq_none ih.tables]
            intro e he hpath
            rcases ih.added e he with he | ⟨_, above, hne, habove, hpath'⟩
            · exact (byPath_eq_none h).mp hfound e he hpath
            · have hparents : parents ≠ [] := by
                rintro rfl
                exact hne (List.suffix_nil.mp habove)
              have hle := joined_length_of_suffix hne habove
              have hlt := @joined_length name parents hparents
              rw [← hpath, hpath'] at hlt
              omega
          have hfolder : InFolder drive₁.entries
              (newFolder (uuid4 drawn₁) (parent.map StubEntry.id) app name
                (joined (name :: parents))) := by
            intro id hid
            by_cases hparents : parents = []
            · have hnone : parent = none := ih.outermost hparents
              subst hnone
              cases hid
            · obtain ⟨f, hf, rfl, hpath⟩ := ih.folder hparents
              refine ⟨f, hf, Option.some.inj hid, ?_⟩
              rw [hpath]
              exact joined_length hparents
          refine ⟨ih.tables.add hinj rfl rfl hfree hfolder,
            fun e he => List.mem_append_left _ (ih.kept e he),
            fun e he => ?_, ih.ownerId, Nat.le_succ_of_le ih.le,
            fun hnil => absurd hnil (List.cons_ne_nil _ _),
            fun _ => ⟨_, List.mem_append_right _ List.mem_cons_self, rfl, rfl⟩⟩
          rcases List.mem_append.mp he with he | he
          · rcases ih.added e he with he | ⟨hkind, above, hne, habove, hpath⟩
            · exact .inl he
            · exact .inr ⟨hkind, above, hne, habove.trans (List.suffix_cons name parents), hpath⟩
          · rw [List.mem_singleton.mp he]
            exact .inr ⟨rfl, name :: parents, List.cons_ne_nil _ _, List.suffix_refl _, rfl⟩

end Drives

/-! ## The state -/

section State

variable (d : Deployment) (started : List StoreGeneratedAudioRequest)

/-- The upload is one of the request's account, under the request's operation. -/
def Deployment.OfRequest (r : StoreGeneratedAudioRequest) (u : StubUpload) : Prop :=
  u.owner = d.ownerOf r.proof ∧ u.operationId = r.requestId.asUuid

/-- The bytes are those of a request of the upload. -/
def Deployment.Sent (u : StubUpload) (bytes : List UInt8) : Prop :=
  ∃ r ∈ started, d.OfRequest r u ∧ r.audio.bytes = bytes

/-- The upload has the manifest of a request. -/
structure Deployment.Manifest (r : StoreGeneratedAudioRequest) (u : StubUpload) : Prop where
  request : d.OfRequest r u
  name : u.name = r.filename.value
  size : u.size = r.audio.bytes.length
  sha256 : u.sha256 = lowerHex (d.http.sha256 r.audio.bytes).toList

/-- The entry is the file of the upload. -/
structure PublishedAs (u : StubUpload) (e : StubEntry) : Prop where
  kind : e.kind = "file"
  name : e.name = u.name
  path : e.path = d.appPath ++ "/" ++ u.name
  parent : e.parentId = some u.folderId
  contentType : e.contentType = some "audio/mpeg"
  size : e.size = some u.size
  app : e.originAppId = some d.http.waveformAppId
  data : ∃ bytes, e.data = some bytes ∧ bytes.length = u.size ∧ d.Sent started u bytes

/-- What holds of an upload and the drive that it is for. -/
structure UploadOk (drive : StubDrive) (u : StubUpload) : Prop where
  app : u.app = d.http.waveformAppId
  contentType : u.contentType = "audio/mpeg"
  manifest : ∃ r ∈ started, d.Manifest r u
  folder : ∃ f ∈ drive.entries, f.id = u.folderId ∧ f.kind = "folder" ∧ f.path = d.appPath
  state : u.state = .reserved ∨ u.state = .staged ∨ u.state = .committed
  staged : u.state ≠ .reserved → u.data ≠ none
  data : ∀ bytes, u.data = some bytes → bytes.length = u.size ∧ d.Sent started u bytes
  committed : u.state = .committed → u.publishedEntryId ≠ none
  published : ∀ id, u.publishedEntryId = some id → ∃ e ∈ drive.entries, e.id = id ∧
    PublishedAs d started u e

/-- An entry is one of Waveform's folders or published by an upload. -/
def EntryKind (uploads : List StubUpload) (owner : String) (e : StubEntry) : Prop :=
  (e.kind = "folder" ∧ (e.path = "apps" ∨ e.path = d.appPath)) ∨
    ∃ u ∈ uploads, u.owner = owner ∧ u.publishedEntryId = some e.id

/-- **The state is as Waveform's uploads leave it.** -/
structure Orderly (s : Stub) : Prop where
  tables : ∀ owner, DriveTables d.settings.uuid4 (s.drives owner) s.drawn
  kind : ∀ owner, ∀ e ∈ (s.drives owner).entries, EntryKind d s.uploads owner e
  upload : ∀ u ∈ s.uploads, UploadOk d started (s.drives u.owner) u
  drawn : ∀ u ∈ s.uploads, ∃ k, k < s.drawn ∧ u.uploadId = d.settings.uuid4 k
  keys : Table.Unique StubUpload.key s.uploads
  uploadIds : Table.Unique StubUpload.uploadId s.uploads

end State

/-- What stays of an upload. -/
structure StubUpload.Continues (u u' : StubUpload) : Prop where
  key : u'.key = u.key
  uploadId : u'.uploadId = u.uploadId
  name : u'.name = u.name
  size : u'.size = u.size
  sha256 : u'.sha256 = u.sha256
  capability : u'.capability = u.capability
  staged : u.state ≠ .reserved → u'.state ≠ .reserved
  published : ∀ id, u.publishedEntryId = some id → u'.publishedEntryId = some id

theorem StubUpload.Continues.refl (u : StubUpload) : u.Continues u :=
  ⟨rfl, rfl, rfl, rfl, rfl, rfl, fun h => h, fun _ h => h⟩

theorem StubUpload.Continues.trans {u v w : StubUpload} (h : u.Continues v) (h' : v.Continues w) :
    u.Continues w where
  key := h'.key.trans h.key
  uploadId := h'.uploadId.trans h.uploadId
  name := h'.name.trans h.name
  size := h'.size.trans h.size
  sha256 := h'.sha256.trans h.sha256
  capability := h'.capability.trans h.capability
  staged hstaged := h'.staged (h.staged hstaged)
  published id hid := h'.published id (h.published id hid)

/-- The entry is the same, but perhaps for its bytes. -/
def StubEntry.Same (e e' : StubEntry) : Prop := { e with data := e'.data } = e'

/-- Uploads and entries stay. -/
structure Stub.Evolves (s s' : Stub) : Prop where
  uploads : ∀ u ∈ s.uploads, ∃ u' ∈ s'.uploads, u.Continues u'
  entries : ∀ owner, ∀ e ∈ (s.drives owner).entries, ∃ e' ∈ (s'.drives owner).entries, e.Same e'

theorem Stub.Evolves.refl (s : Stub) : s.Evolves s where
  uploads u hu := ⟨u, hu, .refl u⟩
  entries _ e he := ⟨e, he, rfl⟩

theorem Stub.Evolves.trans {s s' s'' : Stub} (h : s.Evolves s') (h' : s'.Evolves s'') :
    s.Evolves s'' where
  uploads u hu := by
    obtain ⟨v, hv, hcontinues⟩ := h.uploads u hu
    obtain ⟨w, hw, hcontinues'⟩ := h'.uploads v hv
    exact ⟨w, hw, hcontinues.trans hcontinues'⟩
  entries owner e he := by
    obtain ⟨e', he', hsame⟩ := h.entries owner e he
    obtain ⟨e'', he'', hsame'⟩ := h'.entries owner e' he'
    refine ⟨e'', he'', ?_⟩
    unfold StubEntry.Same at hsame hsame' ⊢
    rw [← hsame', ← hsame]

section Rules

variable {d : Deployment} {started started' : List StoreGeneratedAudioRequest} {s s' : Stub}
  {u : StubUpload}
  {drive drive' : StubDrive} {e : StubEntry}

theorem Deployment.Sent.mono {bytes : List UInt8} (h : d.Sent started u bytes)
    (hstarted : ∀ r ∈ started, r ∈ started') :
    d.Sent started' u bytes := by
  obtain ⟨r, hr, hsent⟩ := h
  exact ⟨r, hstarted r hr, hsent⟩

theorem PublishedAs.mono (h : PublishedAs d started u e) (hstarted : ∀ r ∈ started, r ∈ started') :
    PublishedAs d started' u e := by
  obtain ⟨bytes, hdata, hlength, hsent⟩ := h.data
  exact { h with data := ⟨bytes, hdata, hlength, hsent.mono hstarted⟩ }

/-- More requests and more entries leave an upload as it is. -/
theorem UploadOk.mono (h : UploadOk d started drive u) (hstarted : ∀ r ∈ started, r ∈ started')
    (hentries : ∀ e ∈ drive.entries, e ∈ drive'.entries) : UploadOk d started' drive' u where
  app := h.app
  contentType := h.contentType
  manifest := by
    obtain ⟨r, hr, hmanifest⟩ := h.manifest
    exact ⟨r, hstarted r hr, hmanifest⟩
  folder := by
    obtain ⟨f, hf, hfolder⟩ := h.folder
    exact ⟨f, hentries f hf, hfolder⟩
  state := h.state
  staged := h.staged
  data bytes hbytes := ⟨(h.data bytes hbytes).1, (h.data bytes hbytes).2.mono hstarted⟩
  committed := h.committed
  published id hid := by
    obtain ⟨e, he, heid, hpublished⟩ := h.published id hid
    exact ⟨e, hentries e he, heid, hpublished.mono hstarted⟩

/-- A new request changes nothing that Briefcase holds. -/
theorem Orderly.mono (h : Orderly d started s) (hstarted : ∀ r ∈ started, r ∈ started') :
    Orderly d started' s :=
  { h with upload := fun u hu => (h.upload u hu).mono hstarted fun _ he => he }

/-- An upload of a request has the file name of its operation alone. -/
theorem key_of_name {v : StubUpload} (hu : UploadOk d started drive u)
    (hv : UploadOk d started drive' v)
    (howner : v.owner = u.owner) (hname : v.name = u.name) : v.key = u.key := by
  obtain ⟨r, _, hr⟩ := hu.manifest
  obtain ⟨r', _, hr'⟩ := hv.manifest
  have hsame : r'.filename.value = r.filename.value := hr'.name.symm.trans (hname.trans hr.name)
  have hid := filename_inj hsame
  unfold StubUpload.key
  rw [howner, hu.app, hv.app, hr.request.2, hr'.request.2, hid]

theorem appPath_length : "apps".length < d.appPath.length :=
  @joined_length d.http.waveformAppId ["apps"] (List.cons_ne_nil _ _)

/-- A file's path is no folder's. -/
theorem filePath_ne (name : String) :
    d.appPath ++ "/" ++ name ≠ "apps" ∧ d.appPath ++ "/" ++ name ≠ d.appPath := by
  have hlength : (d.appPath ++ "/" ++ name).length = d.appPath.length + 1 + name.length := by
    rw [String.length_append, String.length_append]
    rfl
  have happs := @appPath_length d
  constructor
  · intro h
    rw [h] at hlength
    omega
  · intro h
    rw [h] at hlength
    omega

theorem filePath_inj {name name' : String}
    (h : d.appPath ++ "/" ++ name = d.appPath ++ "/" ++ name') : name = name' := by
  have hchars := congrArg String.toList h
  simp only [String.toList_append] at hchars
  exact String.toList_inj.mp (List.append_cancel_left hchars)

/-- An upload's file is published by it alone, and is what its path finds. -/
theorem Orderly.entry_of_filePath (h : Orderly d started s) (hu : u ∈ s.uploads)
    (he : e ∈ (s.drives u.owner).entries)
    (hpath : e.path = d.appPath ++ "/" ++ u.name) : u.publishedEntryId = some e.id := by
  rcases h.kind u.owner e he with ⟨_, hfolder | hfolder⟩ | ⟨v, hv, howner, hpublished⟩
  · exact absurd (hpath.symm.trans hfolder) (filePath_ne u.name).1
  · exact absurd (hpath.symm.trans hfolder) (filePath_ne u.name).2
  · have hvOk := h.upload v hv
    obtain ⟨e', he', hid, hentry⟩ := hvOk.published e.id hpublished
    rw [howner] at he'
    have hsame : e' = e := (h.tables u.owner).ids.eq_of_mem he' he hid
    subst hsame
    have hname : v.name = u.name := filePath_inj (hentry.path.symm.trans hpath)
    have hkey := key_of_name (h.upload u hu) hvOk howner hname
    rw [← h.keys.eq_of_mem hv hu hkey]
    exact hpublished

/-- Where nothing but public ids differ. -/
theorem Orderly.congr (h : Orderly d started s)
    (hentries : ∀ owner, (s'.drives owner).entries = (s.drives owner).entries)
    (huploads : s'.uploads = s.uploads) (hdrawn : s'.drawn = s.drawn) : Orderly d started s' ∧
    s.Evolves s' := by
  constructor
  · refine ⟨fun owner => ?_, fun owner e he => ?_, fun u hu => ?_, ?_, ?_, ?_⟩
    · rw [hdrawn]
      exact (h.tables owner).congr (hentries owner)
    · rw [huploads]
      rw [hentries] at he
      exact h.kind owner e he
    · rw [huploads] at hu
      exact (h.upload u hu).mono (fun _ hr => hr) fun e he => by rwa [hentries]
    · rw [huploads, hdrawn]
      exact h.drawn
    · rw [huploads]
      exact h.keys
    · rw [huploads]
      exact h.uploadIds
  · refine ⟨fun u hu => ⟨u, by rwa [huploads], .refl u⟩,
      fun owner e he => ⟨e, by rwa [hentries], rfl⟩⟩

end Rules

end Waveform.Briefcase
