import Waveform.Briefcase.StubState
import Waveform.Library.Paging

/-!
# What Briefcase answers an upload

One lemma for each route: what a request of an upload leaves is orderly again and a later state of
the same uploads, and its answer says what an upload may rely on from then on.

- `Knows`: what an upload has been told, which stays true.
- `reserve_knows`, `transfer_knows`, `commit_knows`, `listEntries_shows`: the routes.
-/

set_option autoImplicit false

namespace Waveform.Briefcase

open Waveform.Domain

/-- What a status that Briefcase answered says of an upload of the request. -/
structure KnowsUpload (d : Deployment) (r : StoreGeneratedAudioRequest) (status : UploadStatus)
    (u : StubUpload) : Prop where
  request : d.OfRequest r u
  app : u.app = d.http.waveformAppId
  operationId : status.operationId = u.operationId
  uploadId : status.uploadId = u.uploadId
  entry : status.entry = none
  state : status.state = .reserved ∨ status.state = .staged ∨ status.state = .committed
  staged : status.state ≠ .reserved → u.state ≠ .reserved
  capability : status.state = .reserved → status.capability = some u.capability
  committed : status.state = .committed → ∃ id, status.publishedEntryId = some id
  published : ∀ id, status.publishedEntryId = some id → u.publishedEntryId = some id

/-- There is an upload of which the status says so. -/
def Knows (d : Deployment) (s : Stub) (r : StoreGeneratedAudioRequest) (status : UploadStatus) :
    Prop :=
  ∃ u ∈ s.uploads, KnowsUpload d r status u

section Steps

variable {d : Deployment} {started : List StoreGeneratedAudioRequest} {s s' : Stub} {u : StubUpload}
  {r : StoreGeneratedAudioRequest} {status : UploadStatus} {caller : Caller}

/-- What was told stays true. -/
theorem Knows.evolves (h : Knows d s r status) (hevolves : s.Evolves s') : Knows d s' r status := by
  obtain ⟨u, hu, hknows⟩ := h
  obtain ⟨u', hu', hcontinues⟩ := hevolves.uploads u hu
  have hkey : (u'.owner, u'.app, u'.operationId) = (u.owner, u.app, u.operationId) := hcontinues.key
  obtain ⟨howner, happ, hoperation⟩ : u'.owner = u.owner ∧ u'.app = u.app ∧
    u'.operationId = u.operationId := by
    simpa only [Prod.mk.injEq] using hkey
  refine ⟨u', hu', ⟨⟨howner.trans hknows.request.1, hoperation.trans hknows.request.2⟩,
    happ.trans hknows.app,
    hknows.operationId.trans hoperation.symm, hknows.uploadId.trans hcontinues.uploadId.symm,
    hknows.entry, hknows.state,
    fun hstate => hcontinues.staged (hknows.staged hstate), fun hstate => ?_, hknows.committed,
    fun id hid => hcontinues.published id (hknows.published id hid)⟩⟩
  rw [hknows.capability hstate, hcontinues.capability]

/-! ## The drive and its folder -/

theorem openDrive_entries (s : Stub) (caller : Caller) (owner : String) :
    ((s.openDrive caller).drives owner).entries = (s.drives owner).entries := by
  unfold Stub.openDrive
  split
  · rfl
  · by_cases howner : owner = caller.owner
    · subst howner
      rw [Stub.withDrive_self]
    · rw [Stub.withDrive_of_ne _ _ howner]

theorem openDrive_uploads (s : Stub) (caller : Caller) :
    (s.openDrive caller).uploads = s.uploads := by
  unfold Stub.openDrive
  split <;> rfl

theorem openDrive_drawn (s : Stub) (caller : Caller) : (s.openDrive caller).drawn = s.drawn := by
  unfold Stub.openDrive
  split <;> rfl

theorem openDrive_orderly (h : Orderly d started s) (caller : Caller) :
    Orderly d started (s.openDrive caller) ∧ s.Evolves (s.openDrive caller) :=
  h.congr (openDrive_entries s caller) (openDrive_uploads s caller) (openDrive_drawn s caller)

theorem mem_withDrive {owner other : String} {drive : StubDrive} {e : StubEntry} :
    e ∈ ((s.withDrive owner drive).drives other).entries ↔
      (other = owner ∧ e ∈ drive.entries) ∨ (other ≠ owner ∧ e ∈ (s.drives other).entries) := by
  by_cases hother : other = owner
  · subst hother
    rw [Stub.withDrive_self]
    simp
  · rw [Stub.withDrive_of_ne _ _ hother]
    simp [hother]

theorem openDrive_ownerId (s : Stub) (h : caller.ownerId ≠ "") :
    ((s.openDrive caller).drives caller.owner).ownerId = caller.ownerId := by
  unfold Stub.openDrive
  rw [if_neg h, Stub.withDrive_self]

/-- Waveform's folder is there. -/
structure HasFolder (d : Deployment) (s : Stub) (owner : String) (f : StubEntry) : Prop where
  mem : f ∈ (s.drives owner).entries
  kind : f.kind = "folder"
  path : f.path = d.appPath

/-- What is at the folder's path is a folder. -/
theorem Orderly.hasFolder {owner : String} {f : StubEntry} (h : Orderly d started s)
    (hf : f ∈ (s.drives owner).entries) (hpath : f.path = d.appPath) : HasFolder d s owner f := by
  refine ⟨hf, ?_, hpath⟩
  rcases h.kind owner f hf with ⟨hkind, _⟩ | ⟨v, hv, howner, hpublished⟩
  · exact hkind
  · obtain ⟨e', he', hid, hentry⟩ := (h.upload v hv).published f.id hpublished
    rw [howner] at he'
    have hsame : e' = f := (h.tables owner).ids.eq_of_mem he' hf hid
    subst hsame
    exact absurd (hentry.path.symm.trans hpath) (filePath_ne v.name).2

/-- **Making sure of the folder** makes at most the two folders. -/
theorem appFolder_orderly (h : Orderly d started s) (hrandom : d.Random)
    (happ : caller.app = d.http.waveformAppId) :
    Orderly d started (s.appFolder d.settings caller).1 ∧
    s.Evolves (s.appFolder d.settings caller).1 ∧
      ((s.appFolder d.settings caller).1.drives caller.owner).ownerId =
        (s.drives caller.owner).ownerId ∧
        ∃ f, HasFolder d (s.appFolder d.settings caller).1 caller.owner f ∧
          (s.appFolder d.settings caller).2 = some f := by
  have hensured := ensureFolder_ensured hrandom.injective caller.app [caller.app, "apps"]
    (h.tables caller.owner)
  unfold Stub.appFolder
  revert hensured
  generalize ensureFolder d.settings.uuid4 caller.app (s.drives caller.owner) s.drawn
    [caller.app, "apps"] = result
  obtain ⟨⟨drive, drawn⟩, folder⟩ := result
  intro hensured
  have happPath : joined [caller.app, "apps"] = d.appPath := by
    rw [happ]
    rfl
  have hkept : ∀ owner, ∀ e ∈ (s.drives owner).entries,
      e ∈ ((s.withDrive caller.owner drive).drives owner).entries := by
    intro owner e he
    rw [mem_withDrive]
    by_cases howner : owner = caller.owner
    · subst howner
      exact .inl ⟨rfl, hensured.kept e he⟩
    · exact .inr ⟨howner, he⟩
  have horderly : Orderly d started { s.withDrive caller.owner drive with drawn := drawn } := by
    refine ⟨fun owner => ?_, fun owner e he => ?_,
      fun u hu => (h.upload u hu).mono (fun _ hr => hr) (hkept u.owner),
      fun u hu => ?_, h.keys, h.uploadIds⟩
    · by_cases howner : owner = caller.owner
      · subst howner
        change DriveTables _ ((s.withDrive caller.owner drive).drives caller.owner) drawn
        rw [Stub.withDrive_self]
        exact hensured.tables
      · change DriveTables _ ((s.withDrive caller.owner drive).drives owner) drawn
        rw [Stub.withDrive_of_ne _ _ howner]
        exact (h.tables owner).mono hensured.le
    · rcases mem_withDrive.mp he with ⟨rfl, hmem⟩ | ⟨_, hmem⟩
      · -- What was made is at the end of the path: one of the two folders.
        rcases hensured.added e hmem with hmem | ⟨hkind, above, hne, habove, hpath⟩
        · exact h.kind _ e hmem
        · refine .inl ⟨hkind, ?_⟩
          rcases List.suffix_cons_iff.mp habove with rfl | habove
          · exact .inr (hpath.trans happPath)
          · rcases List.suffix_cons_iff.mp habove with rfl | habove
            · exact .inl hpath
            · exact absurd (List.suffix_nil.mp habove) hne
      · exact h.kind owner e hmem
    · obtain ⟨k, hk, hid⟩ := h.drawn u hu
      exact ⟨k, Nat.lt_of_lt_of_le hk hensured.le, hid⟩
  refine ⟨horderly, ⟨fun u hu => ⟨u, hu, .refl u⟩, fun owner e he => ⟨e, hkept owner e he, rfl⟩⟩,
    ?_, ?_⟩
  · change ((s.withDrive caller.owner drive).drives caller.owner).ownerId = _
    rw [Stub.withDrive_self]
    exact hensured.ownerId
  obtain ⟨f, hf, hfolder, hpath⟩ := hensured.folder (List.cons_ne_nil _ _)
  exact ⟨f, horderly.hasFolder (mem_withDrive.mpr (.inl ⟨rfl, hf⟩)) (hpath.trans happPath), hfolder⟩

/-! ## Reserving -/

theorem isSha256_lowerHex (digest : Vector UInt8 32) :
    Stub.isSha256 (lowerHex digest.toList) = true := by
  have hdigit : ∀ n, n < 16 →
      ((Nat.digitChar n).isDigit || ('a' ≤ Nat.digitChar n && Nat.digitChar n ≤ 'f')) = true := by
    have hall : ∀ i : Fin 16,
        ((Nat.digitChar i).isDigit || ('a' ≤ Nat.digitChar i && Nat.digitChar i ≤ 'f')) = true := by
      decide
    exact fun n hn => hall ⟨n, hn⟩
  have hlength : ∀ bytes : List UInt8, (bytes.flatMap fun b => fixedDigits 16 2 b.toNat).length =
      2 * bytes.length := by
    intro bytes
    induction bytes with
    | nil => rfl
    | cons b bytes ih =>
        rw [List.flatMap_cons, List.length_append, ih, fixedDigits_length, List.length_cons]
        omega
  unfold Stub.isSha256 lowerHex
  rw [String.toList_ofList, Bool.and_eq_true]
  constructor
  · rw [hlength, Vector.length_toList]
    rfl
  · refine List.all_eq_true.mpr fun c hc => ?_
    obtain ⟨b, _, hc⟩ := List.mem_flatMap.mp hc
    simp only [fixedDigits, List.nil_append, List.cons_append, List.mem_cons, List.not_mem_nil,
      or_false] at hc
    rcases hc with rfl | rfl
    · exact hdigit _ (Nat.mod_lt _ (by decide))
    · exact hdigit _ (Nat.mod_lt _ (by decide))

/-- What a reserved upload says. -/
theorem knows_reservation (hok : UploadOk d started (s.drives u.owner) u) (hu : u ∈ s.uploads)
    (hrequest : d.OfRequest r u) :
    Knows d s r (Stub.reservation u) := by
  refine ⟨u, hu, hrequest, hok.app, rfl, rfl, rfl, hok.state, fun hstate => hstate,
    fun hstate => if_pos hstate,
    fun hstate => Option.ne_none_iff_exists'.mp (hok.committed hstate), fun _ hid => hid⟩

/-- The next random id is no upload's. -/
theorem Orderly.uploadId_free (h : Orderly d started s) (hrandom : d.Random) :
    Table.lookup StubUpload.uploadId (d.settings.uuid4 s.drawn) s.uploads = none := by
  rw [Table.lookup_eq_none_iff]
  intro u hu hid
  obtain ⟨k, hk, hdrawn⟩ := h.drawn u hu
  have hsame := hrandom.injective (hdrawn.symm.trans hid)
  omega

/-- A place is reserved for an operation that has none. -/
theorem Orderly.insertUpload (h : Orderly d started s) (hrandom : d.Random)
    (hok : UploadOk d started (s.drives u.owner) u)
    (hid : u.uploadId = d.settings.uuid4 s.drawn)
    (hnew : Table.lookup StubUpload.key u.key s.uploads = none) :
    Orderly d started { s with uploads := Table.insert u s.uploads, drawn := s.drawn + 1 } where
  tables owner := (h.tables owner).mono (Nat.le_succ _)
  kind owner e he := by
    rcases h.kind owner e he with hfolder | ⟨v, hv, hpublished⟩
    · exact .inl hfolder
    · exact .inr ⟨v, Table.mem_insert.mpr (.inr hv), hpublished⟩
  upload v hv := by
    rcases Table.mem_insert.mp hv with rfl | hv
    · exact hok
    · exact h.upload v hv
  drawn v hv := by
    rcases Table.mem_insert.mp hv with rfl | hv
    · exact ⟨s.drawn, Nat.lt_succ_self _, hid⟩
    · obtain ⟨k, hk, hdrawn⟩ := h.drawn v hv
      exact ⟨k, Nat.lt_succ_of_lt hk, hdrawn⟩
  keys := h.keys.insert hnew
  uploadIds := h.uploadIds.insert (by rw [hid]; exact h.uploadId_free hrandom)

/-- **Reserving** answers with the one upload of the operation. -/
theorem reserve_knows (h : Orderly d started s) (hrandom : d.Random)
    (happ : caller.app = d.http.waveformAppId)
    (howner : caller.owner = d.ownerOf r.proof) (hr : r ∈ started) :
    Orderly d started (s.reserve d.settings caller (reserveBody d.http r)).2 ∧
      s.Evolves (s.reserve d.settings caller (reserveBody d.http r)).2 ∧
        ∃ status, (s.reserve d.settings caller (reserveBody d.http r)).1 = .ok status ∧
          Knows d (s.reserve d.settings caller (reserveBody d.http r)).2 r status := by
  obtain ⟨hopen, hopens⟩ := openDrive_orderly h caller
  have hsha : (!Stub.isSha256 (reserveBody d.http r).sha256) = false := by
    rw [reserveBody, isSha256_lowerHex]
    rfl
  have hvisible : (!visible ("apps/" ++ caller.app) caller.app) = false := by
    unfold visible
    rw [beq_self_eq_true]
    rfl
  have hparent : (reserveBody d.http r).parentPath = "" := rfl
  obtain ⟨hfolder, hmakes, _, f, hf, hfound⟩ := appFolder_orderly hopen hrandom happ
  unfold Stub.reserve
  simp only [hsha, hvisible, hparent, if_true, Bool.false_eq_true, if_false]
  revert hfolder hmakes hf hfound
  generalize (s.openDrive caller).appFolder d.settings caller = made
  obtain ⟨s₁, folder⟩ := made
  intro hfolder hmakes hf hfound
  dsimp only at hfolder hmakes hf hfound ⊢
  subst hfound
  have hpath : "apps/" ++ caller.app = f.path := by
    rw [hf.path, happ]
    rfl
  have hdestination : (some f).bind
      (fun folder => s₁.destination caller folder ("apps/" ++ caller.app)) = some f :=
    if_pos hpath
  rw [hdestination]
  cases hlookup : Table.lookup StubUpload.key (caller.owner, caller.app,
    (reserveBody d.http r).operationId) s₁.uploads with
  | some u =>
      -- A retry is answered with the upload that is there, whatever it says of its file.
      have hu := Table.mem_of_lookup hlookup
      have hkey := Table.column_of_lookup hlookup
      obtain ⟨huowner, _, huoperation⟩ :
          u.owner = caller.owner ∧ u.app = caller.app ∧ u.operationId = r.requestId.asUuid := by
        simpa only [StubUpload.key, Prod.mk.injEq, reserveBody] using hkey
      exact ⟨hfolder, hopens.trans hmakes, _, rfl,
        knows_reservation (hfolder.upload u hu) hu ⟨huowner.trans howner, huoperation⟩⟩
  | none =>
      have hok : UploadOk d started
        (s₁.drives (Stub.newUpload d.settings s₁ caller (reserveBody d.http r) f.id).owner)
          (Stub.newUpload d.settings s₁ caller (reserveBody d.http r) f.id) := by
        refine ⟨happ, rfl, ⟨r, hr, ⟨⟨howner, rfl⟩, rfl, rfl, rfl⟩⟩,
          ⟨f, hf.mem, rfl, hf.kind, hf.path⟩,
          .inl rfl, fun hstate => absurd rfl hstate, fun bytes hbytes => ?_, fun hstate => ?_,
          fun id hid => ?_⟩
        · cases hbytes
        · cases hstate
        · cases hid
      have horderly := hfolder.insertUpload hrandom hok rfl hlookup
      refine ⟨horderly, (hopens.trans hmakes).trans
        ⟨fun v hv => ⟨v, Table.mem_insert.mpr (.inr hv), .refl v⟩,
        fun _ e he => ⟨e, he, rfl⟩⟩, _, rfl, ?_⟩
      exact knows_reservation (horderly.upload _ (Table.mem_insert.mpr (.inl rfl)))
        (Table.mem_insert.mpr (.inl rfl))
        ⟨howner, rfl⟩

/-! ## Sending the bytes -/

/-- An upload that was changed, in a drive that has what the uploads need. -/
theorem Orderly.changeUpload {u' : StubUpload} (h : Orderly d started s) (hu : u ∈ s.uploads)
    (hcontinues : u.Continues u')
    (hmem : ∀ v, v ∈ s'.uploads ↔ v = u' ∨ v ∈ s.uploads ∧ v ≠ u)
    (hkeys : Table.Unique StubUpload.key s'.uploads)
    (hids : Table.Unique StubUpload.uploadId s'.uploads) (hdrawn : s.drawn ≤ s'.drawn)
    (htables : ∀ owner, DriveTables d.settings.uuid4 (s'.drives owner) s'.drawn)
    (hentries : ∀ owner, ∀ e' ∈ (s'.drives owner).entries,
      (∃ e ∈ (s.drives owner).entries, e.Same e') ∨
      (owner = u.owner ∧ u'.publishedEntryId = some e'.id))
    (hothers : ∀ v ∈ s.uploads, v ≠ u → UploadOk d started (s'.drives v.owner) v)
    (hok : UploadOk d started (s'.drives u'.owner) u') : Orderly d started s' where
  tables := htables
  kind owner e' he' := by
    have howner : u'.owner = u.owner := congrArg Prod.fst hcontinues.key
    rcases hentries owner e' he' with ⟨e, he, hsame⟩ | ⟨rfl, hpublished⟩
    · -- An entry from before was published by an upload that is still there, changed or not.
      have hid : e'.id = e.id := by rw [← hsame]
      rcases h.kind owner e he with hfolder | ⟨v, hv, hvowner, hpublished⟩
      · left
        rw [← hsame]
        exact hfolder
      · by_cases hvu : v = u
        · subst hvu
          refine .inr ⟨u', (hmem u').mpr (.inl rfl), howner.trans hvowner, ?_⟩
          rw [hid]
          exact hcontinues.published e.id hpublished
        · refine .inr ⟨v, (hmem v).mpr (.inr ⟨hv, hvu⟩), hvowner, ?_⟩
          rw [hid]
          exact hpublished
    · exact .inr ⟨u', (hmem u').mpr (.inl rfl), howner, hpublished⟩
  upload v hv := by
    rcases (hmem v).mp hv with rfl | ⟨hv, hne⟩
    · exact hok
    · exact hothers v hv hne
  drawn v hv := by
    have hold : ∃ w ∈ s.uploads, v.uploadId = w.uploadId := by
      rcases (hmem v).mp hv with rfl | ⟨hv, _⟩
      · exact ⟨u, hu, hcontinues.uploadId⟩
      · exact ⟨v, hv, rfl⟩
    obtain ⟨w, hw, hid⟩ := hold
    obtain ⟨k, hk, hdrawnId⟩ := h.drawn w hw
    exact ⟨k, Nat.lt_of_lt_of_le hk hdrawn, hid.trans hdrawnId⟩
  keys := hkeys
  uploadIds := hids

/-- What stays of the uploads when one of them continues. -/
theorem continues_of_mem {u' : StubUpload} (hcontinues : u.Continues u')
    (hmem : ∀ v, v ∈ s'.uploads ↔ v = u' ∨ v ∈ s.uploads ∧ v ≠ u) :
    ∀ v ∈ s.uploads, ∃ v' ∈ s'.uploads, v.Continues v' := by
  intro v hv
  by_cases hvu : v = u
  · subst hvu
    exact ⟨u', (hmem u').mpr (.inl rfl), hcontinues⟩
  · exact ⟨v, (hmem v).mpr (.inr ⟨hv, hvu⟩), .refl v⟩

theorem staged_continues (bytes : List UInt8) (u : StubUpload) :
    u.Continues (Stub.staged bytes u) where
  key := rfl
  uploadId := rfl
  name := rfl
  size := rfl
  sha256 := rfl
  capability := rfl
  staged _ := by
    intro hstate
    cases hstate
  published _ hid := hid

/-- The bytes that a request sends, for an upload of it. -/
theorem uploadOk_staged (h : UploadOk d started (s.drives u.owner) u) (hr : r ∈ started)
    (hrequest : d.OfRequest r u)
    (hsize : r.audio.bytes.length = u.size) :
    UploadOk d started (s.drives u.owner) (Stub.staged r.audio.bytes u) where
  app := h.app
  contentType := h.contentType
  manifest := by
    obtain ⟨q, hq, hmanifest⟩ := h.manifest
    exact ⟨q, hq, ⟨hmanifest.request, hmanifest.name, hmanifest.size, hmanifest.sha256⟩⟩
  folder := h.folder
  state := .inr (.inl rfl)
  staged _ := Option.some_ne_none _
  data bytes hbytes := by
    cases hbytes
    exact ⟨hsize, r, hr, hrequest, rfl⟩
  committed hstate := by cases hstate
  published id hid := by
    obtain ⟨e, he, heid, hentry⟩ := h.published id hid
    exact ⟨e, he, heid, ⟨hentry.kind, hentry.name, hentry.path, hentry.parent, hentry.contentType,
      hentry.size, hentry.app,
      hentry.data⟩⟩

/-- **Sending the bytes** stages them, for an upload of the request. -/
theorem transfer_knows {capability : String} (h : Orderly d started s) (hr : r ∈ started)
    (hu : u ∈ s.uploads)
    (hrequest : d.OfRequest r u) :
    Orderly d started (s.transfer d.settings u.uploadId capability r.audio.bytes).2 ∧
      s.Evolves (s.transfer d.settings u.uploadId capability r.audio.bytes).2 ∧
        (∀ status, (s.transfer d.settings u.uploadId capability r.audio.bytes).1 = .ok status →
          status.state = .staged ∧ status.uploadId = u.uploadId ∧
            Knows d (s.transfer d.settings u.uploadId capability r.audio.bytes).2 r status) ∧
          (capability = u.capability → r.audio.bytes.length = u.size →
            lowerHex (d.settings.sha256 r.audio.bytes).toList = u.sha256 →
              ∃ status, (s.transfer d.settings u.uploadId capability r.audio.bytes).1 =
                .ok status) := by
  have hlookup : Table.lookup StubUpload.uploadId u.uploadId s.uploads = some u :=
    (Table.lookup_eq_some_iff h.uploadIds).mpr ⟨hu, rfl⟩
  unfold Stub.transfer
  simp only [hlookup]
  by_cases hcapability : capability = u.capability
  · rw [if_neg (not_not_intro hcapability)]
    by_cases hmanifest : r.audio.bytes.length ≠ u.size ∨
      lowerHex (d.settings.sha256 r.audio.bytes).toList ≠ u.sha256
    · rw [if_pos hmanifest]
      refine ⟨h, .refl s, fun status hstatus => ?_, fun _ hsize hsha => ?_⟩
      · cases hstatus
      · rcases hmanifest with hmanifest | hmanifest
        · exact absurd hsize hmanifest
        · exact absurd hsha hmanifest
    · rw [if_neg hmanifest]
      rw [not_or, not_not, not_not] at hmanifest
      have hmem : ∀ v, v ∈ Table.update StubUpload.uploadId u.uploadId (Stub.staged r.audio.bytes)
        s.uploads ↔
          v = Stub.staged r.audio.bytes u ∨ v ∈ s.uploads ∧ v ≠ u :=
            fun v => Table.mem_update_of_mem h.uploadIds hu
      have hcontinues := staged_continues r.audio.bytes u
      have hok := uploadOk_staged (h.upload u hu) hr hrequest hmanifest.1
      refine ⟨?_, ⟨continues_of_mem hcontinues hmem, fun _ e he => ⟨e, he, rfl⟩⟩,
        fun status hstatus => ?_,
        fun _ _ _ => ⟨_, rfl⟩⟩
      · exact h.changeUpload hu hcontinues hmem (h.keys.update _ fun _ => rfl)
          (h.uploadIds.update _ fun _ => rfl)
          (Nat.le_refl _) h.tables (fun _ e he => .inl ⟨e, he, rfl⟩)
          (fun v hv _ => h.upload v hv) hok
      · cases hstatus
        refine ⟨rfl, rfl, _, (hmem _).mpr (.inl rfl), hrequest, hok.app, rfl, rfl, rfl,
          .inr (.inl rfl), fun _ => ?_,
          fun hstate => ?_, fun hstate => ?_, fun _ hid => hid⟩
        · intro hstate
          cases hstate
        · cases hstate
        · cases hstate
  · -- Without the capability nothing changes.
    rw [if_pos hcapability]
    refine ⟨h, .refl s, fun status hstatus => ?_, fun heq => absurd heq hcapability⟩
    cases hstatus

/-! ## Committing -/

/-- What publishing the file of an upload leaves in its drive. -/
structure Published (d : Deployment) (started : List StoreGeneratedAudioRequest) (s : Stub)
    (u : StubUpload)
    (drive : StubDrive) (drawn : Nat) (id : Uuid) : Prop where
  tables : DriveTables d.settings.uuid4 drive drawn
  le : s.drawn ≤ drawn
  stays : ∀ e ∈ (s.drives u.owner).entries, ∃ e' ∈ drive.entries, e.Same e'
  kept : ∀ e ∈ (s.drives u.owner).entries, e.path ≠ d.appPath ++ "/" ++ u.name → e ∈ drive.entries
  entries : ∀ e' ∈ drive.entries, (∃ e ∈ (s.drives u.owner).entries, e.Same e') ∨ e'.id = id
  entry : ∃ e ∈ drive.entries, e.id = id ∧ PublishedAs d started u e
  published : ∀ i, u.publishedEntryId = some i → i = id

/-- **Publishing** overwrites the file of the upload, or makes it. -/
theorem publish_published {f : StubEntry} {bytes : List UInt8} (h : Orderly d started s)
    (hrandom : d.Random)
    (hu : u ∈ s.uploads) (hin : f ∈ (s.drives u.owner).entries) (hf : f.id = u.folderId)
    (hpath : f.path = d.appPath)
    (hdata : u.data = some bytes) :
    Published d started s u
      (publish d.settings.uuid4 (s.drives u.owner) s.drawn f u.name u.contentType bytes
        d.http.waveformAppId).1.1
      (publish d.settings.uuid4 (s.drives u.owner) s.drawn f u.name u.contentType bytes
        d.http.waveformAppId).1.2
      (publish d.settings.uuid4 (s.drives u.owner) s.drawn f u.name u.contentType bytes
        d.http.waveformAppId).2 := by
  have hok := h.upload u hu
  obtain ⟨hlength, hsent⟩ := hok.data bytes hdata
  have htables := h.tables u.owner
  unfold publish
  rw [hpath]
  cases hfound : (s.drives u.owner).byPath (d.appPath ++ "/" ++ u.name) with
  | some existing =>
      obtain ⟨hmem, hexisting⟩ := (byPath_eq_some htables).mp hfound
      have hid := h.entry_of_filePath hu hmem hexisting
      -- What has the path is what the upload published before.
      have hbefore : PublishedAs d started u existing := by
        obtain ⟨e, he, heid, hentry⟩ := hok.published existing.id hid
        rw [← htables.ids.eq_of_mem he hmem heid]
        exact hentry
      have hsame : existing.Same { existing with
          contentType := some u.contentType, size := some bytes.length, originAppId :=
            some d.http.waveformAppId,
          data := some bytes } := by
        unfold StubEntry.Same
        rw [hok.contentType, ← hbefore.contentType, hlength, ← hbefore.size, ← hbefore.app]
      refine ⟨htables.withEntry hmem rfl rfl rfl (htables.live existing hmem), Nat.le_refl _,
        fun e he => ?_,
        fun e he hne => ?_, fun e' he' => ?_, ?_, fun i hi => ?_⟩
      · by_cases heq : e = existing
        · subst heq
          exact ⟨_, mem_withEntry.mpr (.inr ⟨rfl, e, hmem, rfl⟩), hsame⟩
        · exact ⟨e, mem_withEntry.mpr
            (.inl ⟨he, fun hsameId => heq (htables.ids.eq_of_mem he hmem hsameId)⟩), rfl⟩
      · refine mem_withEntry.mpr (.inl ⟨he, fun hsameId => hne ?_⟩)
        rw [htables.ids.eq_of_mem he hmem hsameId]
        exact hexisting
      · rcases mem_withEntry.mp he' with ⟨he', _⟩ | ⟨rfl, _⟩
        · exact .inl ⟨e', he', rfl⟩
        · exact .inr rfl
      · refine ⟨_, mem_withEntry.mpr (.inr ⟨rfl, existing, hmem, rfl⟩), rfl, ?_⟩
        exact ⟨hbefore.kind, hbefore.name, hbefore.path, hbefore.parent,
          congrArg some hok.contentType,
          congrArg some hlength, rfl, bytes, rfl, hlength, hsent⟩
      · exact Option.some.inj (hi.symm.trans hid)
  | none =>
      -- The upload has published nothing before, or it would be found.
      have hfree := (byPath_eq_none htables).mp hfound
      refine ⟨htables.add hrandom.injective rfl rfl ?_ (fun id hid => ?_), Nat.le_succ _,
        fun e he => ⟨e, List.mem_append_left _ he, rfl⟩, fun e he _ => List.mem_append_left _ he,
          fun e' he' => ?_,
        ⟨_, List.mem_append_right _ List.mem_cons_self, rfl, ?_⟩, fun i hi => ?_⟩
      · change (s.drives u.owner).byPath (f.path ++ "/" ++ u.name) = none
        rw [hpath]
        exact hfound
      · refine ⟨f, hin, Option.some.inj hid, ?_⟩
        change f.path.length < (f.path ++ "/" ++ u.name).length
        have hslash : "/".length = 1 := rfl
        rw [String.length_append, String.length_append]
        omega
      · rcases List.mem_append.mp he' with he' | he'
        · exact .inl ⟨e', he', rfl⟩
        · rw [List.mem_singleton.mp he']
          exact .inr rfl
      · refine ⟨rfl, rfl, ?_, congrArg some hf, congrArg some hok.contentType,
          congrArg some hlength, rfl, bytes, rfl, hlength,
          hsent⟩
        change f.path ++ "/" ++ u.name = _
        rw [hpath]
      · obtain ⟨e, he, _, hentry⟩ := hok.published i hi
        exact absurd hentry.path (hfree e he)

theorem committed_continues {id : Uuid} (hpublished : ∀ i, u.publishedEntryId = some i → i = id) :
    u.Continues (Stub.committed id u) where
  key := rfl
  uploadId := rfl
  name := rfl
  size := rfl
  sha256 := rfl
  capability := rfl
  staged _ := by
    intro hstate
    cases hstate
  published i hi := congrArg some (hpublished i hi).symm

/-- An upload whose file was published. -/
theorem uploadOk_committed {drive : StubDrive} {drawn : Nat} {id : Uuid}
    (h : UploadOk d started (s.drives u.owner) u)
    (hpublished : Published d started s u drive drawn id) (hdata : u.data ≠ none) :
    UploadOk d started drive (Stub.committed id u) where
  app := h.app
  contentType := h.contentType
  manifest := by
    obtain ⟨q, hq, hmanifest⟩ := h.manifest
    exact ⟨q, hq, ⟨hmanifest.request, hmanifest.name, hmanifest.size, hmanifest.sha256⟩⟩
  folder := by
    obtain ⟨f, hf, hid, hkind, hpath⟩ := h.folder
    refine ⟨f, hpublished.kept f hf fun hfile => ?_, hid, hkind, hpath⟩
    exact (filePath_ne u.name).2 (hfile.symm.trans hpath)
  state := .inr (.inr rfl)
  staged _ := hdata
  data bytes hbytes := h.data bytes hbytes
  committed _ := Option.some_ne_none _
  published i hi := by
    cases hi
    obtain ⟨e, he, heid, hentry⟩ := hpublished.entry
    exact ⟨e, he, heid, ⟨hentry.kind, hentry.name, hentry.path, hentry.parent, hentry.contentType,
      hentry.size, hentry.app,
      hentry.data⟩⟩

/-- The file of one upload is no other upload's. -/
theorem uploadOk_other {drive : StubDrive} {drawn : Nat} {id : Uuid} {v : StubUpload}
    (h : Orderly d started s)
    (hu : u ∈ s.uploads) (hv : v ∈ s.uploads) (hne : v ≠ u) (howner : v.owner = u.owner)
    (hpublished : Published d started s u drive drawn id) : UploadOk d started drive v := by
  have hok := h.upload v hv
  rw [howner] at hok
  refine { hok with folder := ?_, published := fun i hi => ?_ }
  · obtain ⟨f, hf, hid, hkind, hpath⟩ := hok.folder
    refine ⟨f, hpublished.kept f hf fun hfile => ?_, hid, hkind, hpath⟩
    exact (filePath_ne u.name).2 (hfile.symm.trans hpath)
  · obtain ⟨e, he, heid, hentry⟩ := hok.published i hi
    refine ⟨e, hpublished.kept e he fun hfile => hne ?_, heid, hentry⟩
    -- One path is one file name, and one file name one operation.
    have hname : v.name = u.name := filePath_inj (hentry.path.symm.trans hfile)
    exact h.keys.eq_of_mem hv hu (key_of_name (h.upload u hu) hok howner hname)

/-- The state after an upload is committed. -/
theorem Orderly.commitUpload {drive : StubDrive} {drawn : Nat} {id : Uuid} (h : Orderly d started s)
    (hu : u ∈ s.uploads)
    (hdata : u.data ≠ none) (hpublished : Published d started s u drive drawn id)
    (hdrives : ∀ owner, (s'.drives owner).entries =
      ((s.withDrive u.owner drive).drives owner).entries)
    (huploads : s'.uploads = Table.update StubUpload.key u.key (Stub.committed id) s.uploads)
    (hdrawn : s'.drawn = drawn) :
    Orderly d started s' ∧ s.Evolves s' ∧ Stub.committed id u ∈ s'.uploads := by
  have hself : (s'.drives u.owner).entries = drive.entries := by rw [hdrives, Stub.withDrive_self]
  have hother : ∀ owner, owner ≠ u.owner →
      (s'.drives owner).entries = (s.drives owner).entries := by
    intro owner hne
    rw [hdrives, Stub.withDrive_of_ne _ _ hne]
  have hmem : ∀ v, v ∈ s'.uploads ↔ v = Stub.committed id u ∨ v ∈ s.uploads ∧ v ≠ u := by
    intro v
    rw [huploads]
    exact Table.mem_update_of_mem h.keys hu
  have hcontinues := @committed_continues u id hpublished.published
  refine ⟨?_, ⟨continues_of_mem hcontinues hmem, fun owner e he => ?_⟩, (hmem _).mpr (.inl rfl)⟩
  · refine h.changeUpload hu hcontinues hmem ?_ ?_ (hdrawn ▸ hpublished.le) (fun owner => ?_)
      (fun owner e' he' => ?_)
      (fun v hv hne => ?_) ?_
    · rw [huploads]
      exact h.keys.update _ fun _ => rfl
    · rw [huploads]
      exact h.uploadIds.update _ fun _ => rfl
    · rw [hdrawn]
      by_cases howner : owner = u.owner
      · subst howner
        exact hpublished.tables.congr hself
      · exact ((h.tables owner).mono hpublished.le).congr (hother owner howner)
    · by_cases howner : owner = u.owner
      · subst howner
        rw [hself] at he'
        rcases hpublished.entries e' he' with hold | hid
        · exact .inl hold
        · exact .inr ⟨rfl, congrArg some hid.symm⟩
      · rw [hother owner howner] at he'
        exact .inl ⟨e', he', rfl⟩
    · by_cases howner : v.owner = u.owner
      · refine (uploadOk_other h hu hv hne howner hpublished).mono (fun _ hr => hr) fun e he => ?_
        rw [howner, hself]
        exact he
      · refine (h.upload v hv).mono (fun _ hr => hr) fun e he => ?_
        rw [hother v.owner howner]
        exact he
    · refine (uploadOk_committed (h.upload u hu) hpublished hdata).mono (fun _ hr => hr) fun e he =>
        ?_
      change e ∈ (s'.drives u.owner).entries
      rw [hself]
      exact he
  · by_cases howner : owner = u.owner
    · subst howner
      rw [hself]
      exact hpublished.stays e he
    · rw [hother owner howner]
      exact ⟨e, he, rfl⟩

/-- What a committed upload says. -/
theorem knows_committed {drive : StubDrive} (hok : UploadOk d started drive u) (hu : u ∈ s.uploads)
    (hstate : u.state = .committed) (hrequest : d.OfRequest r u) : Knows d s r (u.status none) := by
  refine ⟨u, hu, hrequest, hok.app, rfl, rfl, rfl, hok.state, fun h => h, fun hreserved => ?_,
    fun hcommitted => Option.ne_none_iff_exists'.mp (hok.committed hcommitted), fun _ hid => hid⟩
  cases hstate.symm.trans hreserved

/-- **Committing** publishes the file of a staged upload, and says which entry it is. -/
theorem commit_knows {operationId uploadId : Uuid} (h : Orderly d started s) (hrandom : d.Random)
    (happ : caller.app = d.http.waveformAppId) :
    Orderly d started (s.commit d.settings caller operationId uploadId).2 ∧
      s.Evolves (s.commit d.settings caller operationId uploadId).2 ∧
        (∀ status, (s.commit d.settings caller operationId uploadId).1 = .ok status →
          ∀ r : StoreGeneratedAudioRequest,
          caller.owner = d.ownerOf r.proof → operationId = r.requestId.asUuid →
            status.state = .committed ∧ status.uploadId = uploadId ∧
              Knows d (s.commit d.settings caller operationId uploadId).2 r status) ∧
          (∀ u ∈ s.uploads, u.key = (caller.owner, caller.app, operationId) →
            u.uploadId = uploadId →
            u.state ≠ .reserved → ∃ status, (s.commit d.settings caller operationId uploadId).1 =
              .ok status) := by
  obtain ⟨hopen, hopens⟩ := openDrive_orderly h caller
  have huploads := openDrive_uploads s caller
  unfold Stub.commit
  rw [← huploads]
  clear huploads
  revert hopen hopens
  generalize s.openDrive caller = s₁
  intro hopen hopens
  dsimp only
  cases hlookup : Table.lookup StubUpload.key (caller.owner, caller.app, operationId)
    s₁.uploads with
  | none =>
      refine ⟨hopen, hopens, fun status hstatus => ?_, fun u hu hkey => ?_⟩
      · cases hstatus
      · exact absurd hkey (Table.lookup_eq_none_iff.mp hlookup u hu)
  | some u =>
      have hu := Table.mem_of_lookup hlookup
      have hkey := Table.column_of_lookup hlookup
      obtain ⟨howner, _, hoperation⟩ : u.owner = caller.owner ∧ u.app = caller.app ∧
        u.operationId = operationId := by
        simpa only [StubUpload.key, Prod.mk.injEq] using hkey
      have hok := hopen.upload u hu
      have hone : ∀ v ∈ s₁.uploads, v.key = (caller.owner, caller.app, operationId) → v = u :=
        fun v hv hvkey => hopen.keys.eq_of_mem hv hu (hvkey.trans hkey.symm)
      dsimp only
      by_cases huploadId : u.uploadId ≠ uploadId
      · rw [if_pos huploadId]
        refine ⟨hopen, hopens, fun status hstatus => ?_, fun v hv hvkey hvid => ?_⟩
        · cases hstatus
        · rw [hone v hv hvkey] at hvid
          exact absurd hvid huploadId
      · rw [if_neg huploadId]
        rcases hok.state with hstate | hstate | hstate
        · -- Nothing to commit yet.
          rw [hstate]
          refine ⟨hopen, hopens, fun status hstatus => ?_, fun v hv hvkey _ hvstate => ?_⟩
          · cases hstatus
          · rw [hone v hv hvkey] at hvstate
            exact absurd hstate hvstate
        · -- The bytes are there: the file is published.
          have hdataNe : u.data ≠ none := hok.staged (by rw [hstate]; exact UploadState.noConfusion)
          obtain ⟨bytes, hdata⟩ := Option.ne_none_iff_exists'.mp hdataNe
          obtain ⟨f, hf, hfid, _, hfpath⟩ := hok.folder
          have hfolder : Table.lookup StubEntry.id u.folderId
              (s₁.drives caller.owner).entries = some f := by
            rw [← howner]
            exact (Table.lookup_eq_some_iff (hopen.tables u.owner).ids).mpr ⟨hf, hfid⟩
          simp only [hstate, hdata, hfolder]
          have hpublished := publish_published hopen hrandom hu hf hfid hfpath hdata
          rw [← howner, happ]
          revert hpublished
          generalize publish d.settings.uuid4 (s₁.drives u.owner) s₁.drawn f u.name
            u.contentType bytes
            d.http.waveformAppId = result
          obtain ⟨⟨drive, drawn⟩, id⟩ := result
          intro hpublished
          dsimp only at hpublished ⊢
          obtain ⟨horderly, hevolves, hmem⟩ := @Orderly.commitUpload d started s₁
            { s₁.withDrive u.owner drive with
              uploads := Table.update StubUpload.key u.key (Stub.committed id) s₁.uploads
              drawn := drawn }
            u drive drawn id hopen hu hdataNe hpublished (fun _ => rfl) rfl rfl
          refine ⟨horderly, hopens.trans hevolves, fun status hstatus r hcaller hrequest => ?_,
            fun _ _ _ _ _ => ⟨_, rfl⟩⟩
          cases hstatus
          exact ⟨rfl, not_not.mp huploadId, knows_committed (horderly.upload _ hmem) hmem rfl
            ⟨hcaller, hoperation.trans hrequest⟩⟩
        · -- A commit that comes again is answered as the first one was.
          rw [hstate]
          refine ⟨hopen, hopens, fun status hstatus r hcaller hrequest => ?_,
            fun _ _ _ _ _ => ⟨_, rfl⟩⟩
          cases hstatus
          exact ⟨hstate, not_not.mp huploadId,
            knows_committed hok hu hstate ⟨howner.trans hcaller, hoperation.trans hrequest⟩⟩

/-! ## Listing -/

/-- A page of a folder. -/
def Stub.pageAt (settings : StubSettings) (s : Stub) (caller : Caller) (parent : StubEntry)
    (start limit : Nat) : DrivePage where
  items := (Paging.page start limit (s.children caller parent)).map fun entry =>
    entry.view settings.origin (s.drives caller.owner).ownerId
  nextCursor := if start + limit < (s.children caller parent).length
    then some (Stub.cursorOf (start + limit)) else none

theorem mem_children {f e : StubEntry} :
    e ∈ s.children caller f ↔
      e ∈ (s.drives caller.owner).entries ∧ e.parentId = some f.id ∧ e.deletedAt = none ∧
        visible e.path caller.app = true := by
  unfold Stub.children
  rw [List.mem_insertionSort, List.mem_filter]
  simp only [Bool.and_eq_true, decide_eq_true_eq, Option.isNone_iff_eq_none, and_assoc]

/-- What Waveform's folder shows are files. -/
theorem Orderly.child_path {f e : StubEntry} (h : Orderly d started s)
    (hf : HasFolder d s caller.owner f) (he : e ∈ s.children caller f) :
    e.path = d.appPath ++ "/" ++ e.name := by
  obtain ⟨hmem, hparent, _, hvisible⟩ := mem_children.mp he
  rcases h.kind caller.owner e hmem with ⟨_, hpath | hpath⟩ | ⟨u, hu, howner, hpublished⟩
  · -- The outer folder is not shown.
    rw [hpath, visible, Bool.or_eq_true] at hvisible
    rcases hvisible with hvisible | hvisible
    · have hlength := congrArg String.length (eq_of_beq hvisible)
      rw [String.length_append] at hlength
      have happs : "apps".length = 4 ∧ "apps/".length = 5 := ⟨rfl, rfl⟩
      omega
    · have hprefix := (List.isPrefixOf_iff_prefix.mp hvisible).length_le
      simp only [String.toList_append, List.length_append, String.length_toList] at hprefix
      have happs : "apps".length = 4 ∧ "apps/".length = 5 := ⟨rfl, rfl⟩
      omega
  · -- The folder is in no folder of its own path.
    obtain ⟨p, hp, hid, hshorter⟩ := (h.tables caller.owner).folders e hmem f.id hparent
    have hsame := (h.tables caller.owner).ids.eq_of_mem hp hf.mem hid
    rw [hsame, hf.path, hpath] at hshorter
    exact absurd hshorter (Nat.lt_irrefl _)
  · obtain ⟨e', he', hid, hentry⟩ := (h.upload u hu).published e.id hpublished
    rw [howner] at he'
    rw [← (h.tables caller.owner).ids.eq_of_mem he' hmem hid, hentry.path, hentry.name]

/-- A folder is shown by name. -/
theorem Orderly.children_sorted {f : StubEntry} (h : Orderly d started s)
    (hf : HasFolder d s caller.owner f) : (s.children caller f).Pairwise fun a b =>
      a.name < b.name := by
  refine Paging.pairwise_lt (List.pairwise_insertionSort _ _) ?_
  have hnodup : (s.children caller f).Nodup := by
    refine (List.perm_insertionSort _ _).nodup_iff.mpr (List.Nodup.filter _ ?_)
    exact List.Nodup.of_map _ (h.tables caller.owner).ids
  refine hnodup.imp_of_mem fun ha hb hne hname => hne ?_
  refine (h.tables caller.owner).paths.eq_of_mem (mem_children.mp ha).1 (mem_children.mp hb).1 ?_
  rw [h.child_path hf ha, h.child_path hf hb, hname]

/-- What an upload has published is shown. -/
theorem Orderly.mem_children_of_published {f e : StubEntry} (h : Orderly d started s)
    (happ : caller.app = d.http.waveformAppId)
    (hf : HasFolder d s caller.owner f) (hu : u ∈ s.uploads) (howner : u.owner = caller.owner)
    (he : e ∈ (s.drives caller.owner).entries) (hentry : PublishedAs d started u e) :
    e ∈ s.children caller f := by
  obtain ⟨f', hf', hid, _, hpath⟩ := (h.upload u hu).folder
  rw [howner] at hf'
  have hsame := (h.tables caller.owner).paths.eq_of_mem hf' hf.mem (hpath.trans hf.path.symm)
  refine mem_children.mpr ⟨he, ?_, (h.tables caller.owner).live e he, ?_⟩
  · rw [hentry.parent, ← hid, hsame]
  · have happPath : d.appPath = "apps/" ++ caller.app := by
      rw [happ]
      rfl
    rw [visible, hentry.path, happPath, Bool.or_eq_true]
    refine .inr (List.isPrefixOf_iff_prefix.mpr ⟨u.name.toList, ?_⟩)
    simp only [String.toList_append]

/-- **Listing** shows entries of the account's drive, and pages of Waveform's folder. -/
theorem listEntries_shows {path cursor : Option String} {limit : Nat} (h : Orderly d started s)
    (hrandom : d.Random)
    (happ : caller.app = d.http.waveformAppId) :
    Orderly d started (s.listEntries d.settings caller path cursor limit).2 ∧
      s.Evolves (s.listEntries d.settings caller path cursor limit).2 ∧
        (∀ page, (s.listEntries d.settings caller path cursor limit).1 = .ok page → ∃ parent start,
          page = (s.listEntries d.settings caller path cursor limit).2.pageAt d.settings caller
            parent start limit ∧
            (caller.ownerId ≠ "" →
              ((s.listEntries d.settings caller path cursor limit).2.drives caller.owner).ownerId =
                caller.ownerId)) ∧
          (path = some d.appPath → 1 ≤ limit → limit ≤ 100 →
            ∀ start, Stub.startOf cursor = some start →
            ∃ f, HasFolder d (s.listEntries d.settings caller path cursor limit).2 caller.owner f ∧
              (s.listEntries d.settings caller path cursor limit).1 =
                .ok ((s.listEntries d.settings caller path cursor limit).2.pageAt d.settings caller
                  f start limit)) := by
  obtain ⟨hopen, hopens⟩ := openDrive_orderly h caller
  obtain ⟨hfolder, hmakes, hownerId, f, hf, hfound⟩ := appFolder_orderly hopen hrandom happ
  unfold Stub.listEntries
  dsimp only
  by_cases hlimit : ¬ (1 ≤ limit ∧ limit ≤ 100)
  · rw [if_pos hlimit]
    refine ⟨hopen, hopens, fun page hpage => ?_, fun _ hone hmax => absurd ⟨hone, hmax⟩ hlimit⟩
    cases hpage
  · rw [if_neg hlimit]
    have hnames : caller.ownerId ≠ "" →
        (((s.openDrive caller).appFolder d.settings caller).1.drives caller.owner).ownerId =
          caller.ownerId :=
      fun hne => hownerId.trans (openDrive_ownerId s hne)
    clear hownerId
    revert hfolder hmakes hf hfound hnames
    generalize (s.openDrive caller).appFolder d.settings caller = made
    obtain ⟨s₁, folder⟩ := made
    intro hfolder hmakes hf hfound hnames
    dsimp only at hfolder hmakes hnames hf hfound ⊢
    subst hfound
    have hevolves := hopens.trans hmakes
    -- Waveform's folder is what its path finds.
    have hlisted : path = some d.appPath → s₁.listed caller (some f) path = some f := by
      rintro rfl
      have hfinds : (s₁.drives caller.owner).byPath d.appPath = some f :=
        (byPath_eq_some (hfolder.tables caller.owner)).mpr ⟨hf.mem, hf.path⟩
      unfold Stub.listed
      dsimp only
      rw [hfinds, Option.filter_eq_some_iff]
      refine ⟨rfl, ?_⟩
      rw [hf.kind, hf.path, beq_self_eq_true, Bool.true_and, visible, Bool.or_eq_true]
      left
      rw [happ]
      exact beq_self_eq_true _
    cases hparent : s₁.listed caller (some f) path with
    | none =>
        refine ⟨hfolder, hevolves, fun page hpage => ?_, fun hpath => ?_⟩
        · cases hpage
        · rw [hlisted hpath] at hparent
          cases hparent
    | some found =>
        cases hstart : Stub.startOf cursor with
        | none =>
            refine ⟨hfolder, hevolves, fun page hpage => ?_, fun _ _ _ start hsome => ?_⟩
            · cases hpage
            · cases hsome
        | some start =>
            refine ⟨hfolder, hevolves, fun page hpage => ?_,
              fun hpath _ _ start' hsome => ⟨f, hf, ?_⟩⟩
            · cases hpage
              exact ⟨found, start, rfl, hnames⟩
            · rw [hlisted hpath] at hparent
              cases hparent
              cases hsome
              rfl

end Steps

/-! ## How many entries a request adds -/

/-- Making sure of a folder adds the folders above it at most. -/
theorem ensureFolder_length (uuid4 : Nat → Uuid) (app : String) (drive : StubDrive) (drawn : Nat)
    (names : List String) :
    (ensureFolder uuid4 app drive drawn names).1.1.entries.length ≤ drive.entries.length +
      names.length := by
  induction names with
  | nil => exact Nat.le_refl _
  | cons name parents ih =>
      cases hfound : drive.byPath (joined (name :: parents)) with
      | some found =>
          simp only [ensureFolder, hfound]
          exact Nat.le_add_right _ _
      | none =>
          simp only [ensureFolder, hfound]
          revert ih
          generalize ensureFolder uuid4 app drive drawn parents = result
          obtain ⟨⟨drive₁, drawn₁⟩, parent⟩ := result
          intro ih
          dsimp only at ih ⊢
          rw [List.length_append, List.length_singleton, List.length_cons]
          omega

/-- How many entries a request adds to any drive, at most. -/
def Grows (s s' : Stub) (n : Nat) : Prop :=
  ∀ owner, (s'.drives owner).entries.length ≤ (s.drives owner).entries.length + n

theorem openDrive_grows (s : Stub) (caller : Caller) : Grows s (s.openDrive caller) 0 := by
  intro owner
  rw [openDrive_entries]
  exact Nat.le_refl _

theorem withDrive_grows {s s' : Stub} {owner : String} {drive : StubDrive} {n : Nat}
    (h : drive.entries.length ≤ (s.drives owner).entries.length + n)
    (hdrives : s'.drives = (s.withDrive owner drive).drives) :
    Grows s s' n := by
  intro other
  rw [hdrives]
  by_cases hother : other = owner
  · subst hother
    rw [Stub.withDrive_self]
    exact h
  · rw [Stub.withDrive_of_ne _ _ hother]
    exact Nat.le_add_right _ _

theorem Grows.trans {s s' s'' : Stub} {n m : Nat} (h : Grows s s' n) (h' : Grows s' s'' m) :
    Grows s s'' (n + m) := by
  intro owner
  have hfirst := h owner
  have hsecond := h' owner
  omega

theorem appFolder_grows (settings : StubSettings) (s : Stub) (caller : Caller) :
    Grows s (s.appFolder settings caller).1 2 := by
  have hlength := ensureFolder_length settings.uuid4 caller.app (s.drives caller.owner) s.drawn
    [caller.app, "apps"]
  exact withDrive_grows hlength rfl

/-- **A request adds two entries at most** to any drive. -/
theorem handle_grows (settings : StubSettings) (s : Stub) (verdict : Except Nat Caller)
    (call : UploadCall) :
    Grows s (s.handle settings verdict call).2 2 := by
  have hnone : Grows s s 2 := fun owner => Nat.le_add_right _ _
  have hmono : ∀ {s' : Stub} {n : Nat}, n ≤ 2 → Grows s s' n → Grows s s' 2 :=
    fun hle h owner => (h owner).trans (Nat.add_le_add_left hle _)
  cases verdict with
  | error status => cases call <;> exact hnone
  | ok caller =>
      have hopen := openDrive_grows s caller
      have hfolder := hopen.trans (appFolder_grows settings (s.openDrive caller) caller)
      cases call with
      | reserve proof body requestId =>
          change Grows s (s.reserve settings caller body).2 2
          unfold Stub.reserve
          dsimp only
          generalize (if body.parentPath = "" then "apps/" ++ caller.app else body.parentPath) =
            folderPath
          split
          · exact hmono (Nat.zero_le _) hopen
          · split
            · exact hmono (Nat.zero_le _) hopen
            · split
              · exact hmono (Nat.le_refl _) hfolder
              · split
                · exact hmono (Nat.le_refl _) hfolder
                · exact hmono (Nat.le_refl _) hfolder
      | content uploadId capability bytes =>
          change Grows s (s.transfer settings uploadId capability bytes).2 2
          unfold Stub.transfer
          split
          · exact hnone
          · split
            · exact hnone
            · split
              · exact hnone
              · exact hnone
      | commit proof operationId uploadId requestId =>
          change Grows s (s.commit settings caller operationId uploadId).2 2
          have hpublish : ∀ (f : StubEntry) (u : StubUpload) (data : List UInt8),
              (publish settings.uuid4 ((s.openDrive caller).drives caller.owner)
                (s.openDrive caller).drawn f u.name
                u.contentType data caller.app).1.1.entries.length ≤
                  ((s.openDrive caller).drives caller.owner).entries.length + 1 := by
            intro f u data
            unfold publish
            split
            · unfold StubDrive.withEntry Table.update
              dsimp only
              rw [List.length_map]
              exact Nat.le_add_right _ _
            · dsimp only
              rw [List.length_append, List.length_singleton]
          unfold Stub.commit
          dsimp only
          split
          · exact hmono (Nat.zero_le _) hopen
          · split
            · exact hmono (Nat.zero_le _) hopen
            · split
              · split
                · exact hmono (Nat.le_succ 1) (hopen.trans (withDrive_grows (hpublish _ _ _) rfl))
                · exact hmono (Nat.zero_le _) hopen
              · exact hmono (Nat.zero_le _) hopen
              · exact hmono (Nat.zero_le _) hopen
      | list proof path cursor limit requestId =>
          change Grows s (s.listEntries settings caller path cursor limit).2 2
          unfold Stub.listEntries
          dsimp only
          split
          · exact hmono (Nat.zero_le _) hopen
          · split
            · exact hmono (Nat.le_refl _) hfolder
            · split
              · exact hmono (Nat.le_refl _) hfolder
              · exact hmono (Nat.le_refl _) hfolder

end Waveform.Briefcase
