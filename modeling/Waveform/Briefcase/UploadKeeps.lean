import Waveform.Briefcase.UploadRun
import Waveform.Library.Outcome

/-!
# What an upload may count on

An upload goes through its requests while others run: what it has been told by one answer still
holds at the next. Its last answer shows an entry that the upload of its request has published.
Where nothing gets in its way, each part succeeds: the search finds the entry, since files that are
added leave none behind.

- `Calm`: nothing gets in the way.
- `keeps_asked`: one request.
- `keeps_reserve`, `keeps_transfer`, `keeps_commit`, `keeps_findEntryFrom`: the parts.
- `keeps_upload`: the whole.
-/

set_option autoImplicit false

namespace Waveform.Briefcase

open Waveform.Domain Waveform.Service
open Dialogue

/-! ## When nothing gets in the way -/

section Calm

variable (d : Deployment)

/-- Both sides use one folder and one digest. -/
structure Deployment.Agrees : Prop where
  appFolder : d.http.appFolder = d.appPath
  sha256 : d.settings.sha256 = d.http.sha256

/-- Permanent URLs of files are read back, in the drive of an account with this public id. -/
structure ReadsBack (ownerId : String) : Prop where
  named : ownerId ≠ ""
  url : ∀ r : StoreGeneratedAudioRequest, ∃ file,
    (d.http.parse (permanentUrl d.settings.origin ownerId
      (d.appPath ++ "/" ++ r.filename.value))).bind
      BriefcaseFileUrl.new? = some file ∧ urlOrigin file.url = d.http.permanentOrigin

/-- Attempts of one request send the same file, and no drive has more entries than a search looks
through. -/
structure Fits (w : UploadWorld) : Prop where
  retries : ∀ r ∈ w.started, ∀ q ∈ w.started, d.ownerOf r.proof = d.ownerOf q.proof →
    r.requestId.asUuid = q.requestId.asUuid → r.filename.value = q.filename.value ∧
    r.audio.bytes = q.audio.bytes
  small : ∀ owner, (w.stub.drives owner).entries.length ≤ maxPages * pageSize

/-- Every request is answered with what its route says, and the attempts fit. -/
structure Calm (rely : UploadWorld → UploadWorld → Prop)
    (served : UploadWorld → UploadService → UploadExchange → UploadWorld → Prop) : Prop where
  agrees : d.Agrees
  answered : ∀ w service e w', served w service e w' →
    ∃ caller, service = .answered (.ok caller) ∧ ReadsBack d caller.ownerId
  fits : ∀ w w', rely w w' → Fits d w'

/-- A part of an upload ends with what it says of a success, and where all is calm with a
success. -/
def Ends {α : Type} (calm : Prop) (Post : UploadWorld → α → Prop) (w : UploadWorld)
    (result : Except BriefcaseError α) : Prop :=
  (∀ a, result = .ok a → Post w a) ∧ (calm → ∃ a, result = .ok a)

theorem ends_ok {α : Type} {calm : Prop} {Post : UploadWorld → α → Prop} {w : UploadWorld} {a : α}
    (h : Post w a) :
    Ends calm Post w (.ok a) := by
  refine ⟨fun b hb => ?_, fun _ => ⟨a, rfl⟩⟩
  cases hb
  exact h

/-- A part fails only where not all is calm. -/
theorem ends_error {α : Type} {calm : Prop} {Post : UploadWorld → α → Prop} {w : UploadWorld}
    {error : BriefcaseError}
    (h : ¬ calm) : Ends calm Post w (.error error) := by
  refine ⟨fun b hb => ?_, fun hcalm => absurd hcalm h⟩
  cases hb

end Calm

/-! ## The parts -/

section Parts

variable {d : Deployment} {r : StoreGeneratedAudioRequest} {rely : UploadWorld → UploadWorld → Prop}
  {served : UploadWorld → UploadService → UploadExchange → UploadWorld → Prop}
  {w w' w'' : UploadWorld}
  {status : UploadStatus}

/-- The answer of an exchange that is read is what its route says; where all is calm it is read. -/
theorem exchange_cases {service : UploadService} {call : UploadCall} {answer : UploadAnswer call}
    (hserves : ∀ w service e w', served w service e w' → serves d w service e w')
    (h : served w service ⟨call, answer⟩ w') :
    (∀ body, answer = .body body → ∃ caller, Verified d call (.ok caller) ∧
      (w.stub.handle d.settings (.ok caller) call).1 = .ok body ∧
      w' = w.handled d (.ok caller) call ∧
        (Calm d rely served → ReadsBack d caller.ownerId)) ∧
      (Calm d rely served → ∃ caller, Verified d call (.ok caller) ∧
        answer = wireAnswer (w.stub.handle d.settings (.ok caller) call).1 ∧
          w' = w.handled d (.ok caller) call) := by
  have hserved := hserves _ _ _ _ h
  constructor
  · rintro body rfl
    cases service with
    | answered verdict =>
        obtain ⟨hverified, hanswer, rfl⟩ := hserved
        cases verdict with
        | error status => cases call <;> cases hanswer
        | ok caller =>
            refine ⟨caller, hverified, ?_, rfl, fun hquiet => ?_⟩
            · dsimp only at hanswer
              cases hresult : (w.stub.handle d.settings (.ok caller) call).1 with
              | error status =>
                  rw [hresult] at hanswer
                  cases hanswer
              | ok value =>
                  rw [hresult] at hanswer
                  cases hanswer
                  rfl
            · obtain ⟨accepted, haccepted, hreads⟩ := hquiet.answered _ _ _ _ h
              cases haccepted
              exact hreads
    | unread verdict => exact absurd rfl (hserved.2.1 body)
    | lost => exact absurd rfl (hserved.1 body)
  · intro hcalm
    obtain ⟨caller, rfl, _⟩ := hcalm.answered _ _ _ _ h
    obtain ⟨hverified, hanswer, hw'⟩ := hserved
    exact ⟨caller, hverified, hanswer, hw'⟩

theorem received_eq_ok {β : Type} {uploadRoute : Bool} {answer : WireAnswer β} {body : β}
    (h : received uploadRoute answer = .ok body) : answer = .body body := by
  cases answer with
  | body value =>
      cases h
      rfl
  | timedOut => cases h
  | unreachable => cases h
  | refused status => cases h
  | unreadable => cases h

/-- Fewer entries and attempts fit too. -/
theorem Fits.before (h : Fits d w') (hrelies : Relies d w w') : Fits d w where
  retries r hr q hq := h.retries r (hrelies.started r hr) q (hrelies.started q hq)
  small owner := by
    refine Nat.le_trans ?_ (h.small owner)
    have hids := (hrelies.before.orderly.tables owner).ids
    unfold Table.Unique at hids
    rw [← List.length_map StubEntry.id, ← @List.length_map _ _ (w'.stub.drives owner).entries
      StubEntry.id]
    refine hids.length_le_of_subset fun id hid => ?_
    obtain ⟨e, he, rfl⟩ := List.mem_map.mp hid
    obtain ⟨e', he', hsame⟩ := hrelies.evolves.entries owner e he
    refine List.mem_map.mpr ⟨e', he', ?_⟩
    rw [← hsame]

/-! ## The search -/

section Search

variable {s s' : Stub} {started started' : List StoreGeneratedAudioRequest} {caller : Caller}
  {published : Uuid}
  {f : StubEntry} {start limit : Nat}

/-- The account of a request, as the folder is shown to it. -/
def Deployment.callerOf (d : Deployment) (r : StoreGeneratedAudioRequest) : Caller :=
  ⟨d.ownerOf r.proof, "", d.http.waveformAppId⟩

theorem children_congr {other : Caller} (howner : caller.owner = other.owner)
    (happ : caller.app = other.app) :
    s.children caller f = s.children other f := by
  unfold Stub.children
  rw [howner, happ]

/-- The published entry is shown, at a position or after it. -/
def Ahead (d : Deployment) (s : Stub) (r : StoreGeneratedAudioRequest) (published : Uuid)
    (start : Nat) : Prop :=
  ∃ f e, HasFolder d s (d.ownerOf r.proof) f ∧ e ∈ s.children (d.callerOf r) f ∧ e.id = published ∧
    start ≤ Paging.rank StubEntry.name (s.children (d.callerOf r) f) e.name

/-- What a folder shows it goes on to show. -/
theorem children_grow {f' e : StubEntry} (hevolves : s.Evolves s') (hfolder : f.Same f')
    (he : e ∈ s.children caller f) :
    ∃ e' ∈ s'.children caller f', e.Same e' := by
  obtain ⟨hmem, hparent, hlive, hvisible⟩ := mem_children.mp he
  obtain ⟨e', he', hsame⟩ := hevolves.entries caller.owner e hmem
  refine ⟨e', mem_children.mpr ⟨he', ?_⟩, hsame⟩
  rw [← hsame, ← hfolder]
  exact ⟨hparent, hlive, hvisible⟩

/-- **Files that are added** leave a reader's entry ahead. -/
theorem Ahead.evolves (h : Ahead d s r published start) (horderly : Orderly d started s)
    (hevolves : s.Evolves s') :
    Ahead d s' r published start := by
  obtain ⟨f, e, hf, he, hid, hstart⟩ := h
  obtain ⟨f', hf', hfolder⟩ := hevolves.entries _ f hf.mem
  obtain ⟨e', he', hsame⟩ := children_grow hevolves hfolder he
  have hkind : f'.kind = f.kind ∧ f'.path = f.path := by
    rw [← hfolder]
    exact ⟨rfl, rfl⟩
  have hname : e'.id = e.id ∧ e'.name = e.name := by
    rw [← hsame]
    exact ⟨rfl, rfl⟩
  refine ⟨f', e', ⟨hf', hkind.1.trans hf.kind, hkind.2.trans hf.path⟩, he', hname.1.trans hid, ?_⟩
  rw [hname.2]
  refine hstart.trans (Paging.rank_le_of_grows ?_ fun c hc => ?_)
  · exact (horderly.children_sorted hf).imp fun hlt => ne_of_lt hlt
  · obtain ⟨c', hc', hsame'⟩ := children_grow hevolves hfolder hc
    refine ⟨c', hc', ?_⟩
    rw [← hsame']

/-- The entry that an upload has published is shown. -/
theorem ahead_of_knows (horderly : Orderly d started s) (hknows : Knows d s r status)
    (hpublished : status.publishedEntryId = some published) : Ahead d s r published 0 := by
  obtain ⟨u, hu, hknown⟩ := hknows
  have hok := horderly.upload u hu
  obtain ⟨f, hf, _, hkind, hpath⟩ := hok.folder
  obtain ⟨e, he, hid, hentry⟩ := hok.published published (hknown.published published hpublished)
  rw [hknown.request.1] at hf he
  have hfolder : HasFolder d s (d.ownerOf r.proof) f := ⟨hf, hkind, hpath⟩
  exact ⟨f, e, hfolder, horderly.mem_children_of_published rfl hfolder hu hknown.request.1 he
    hentry, hid, Nat.zero_le _⟩

/-- **A page that does not show the entry** is not the last. -/
theorem ahead_of_not_found (horderly : Orderly d started s)
    (howner : caller.owner = d.ownerOf r.proof)
    (happ : caller.app = d.http.waveformAppId) (hf : HasFolder d s caller.owner f)
    (h : Ahead d s r published start)
    (hnone : (s.pageAt d.settings caller f start limit).items.find?
      (fun entry => entry.id == published) = none) :
    Ahead d s r published (start + limit) ∧
      (s.pageAt d.settings caller f start limit).nextCursor =
        some (Stub.cursorOf (start + limit)) := by
  obtain ⟨f', e, hf', he, hid, hstart⟩ := h
  rw [← howner] at hf'
  have hsame : f' = f := (horderly.tables caller.owner).paths.eq_of_mem hf'.mem hf.mem
    (hf'.path.trans hf.path.symm)
  subst hsame
  have hshown : s.children (d.callerOf r) f' = s.children caller f' :=
    children_congr howner.symm happ.symm
  have hnot : e ∉ Paging.page start limit (s.children caller f') := by
    intro hpage
    have hmissing := List.find?_eq_none.mp hnone _ (List.mem_map_of_mem hpage)
    exact hmissing (beq_iff_eq.mpr hid)
  rw [hshown] at he hstart
  obtain ⟨hrank, hmore⟩ := Paging.rank_of_not_mem_page (horderly.children_sorted hf') he hstart hnot
  refine ⟨⟨f', e, howner ▸ hf', ?_, hid, ?_⟩, if_pos hmore⟩
  · rw [hshown]
    exact he
  · rw [hshown]
    exact hrank

/-- A position that the entry is at or after is in the drive. -/
theorem Ahead.lt (h : Ahead d s r published start) :
    start < (s.drives (d.ownerOf r.proof)).entries.length := by
  obtain ⟨f, e, _, he, _, hstart⟩ := h
  refine Nat.lt_of_le_of_lt hstart (Nat.lt_of_lt_of_le (Paging.rank_lt_length he) ?_)
  unfold Stub.children
  rw [List.length_insertionSort]
  exact List.length_filter_le _ _

theorem cursorOf_inj {n m : Nat} (h : Stub.cursorOf n = Stub.cursorOf m) : n = m := by
  have hstart := Stub.startOf_cursorOf n
  rw [h, Stub.startOf_cursorOf] at hstart
  exact (Option.some.inj hstart).symm

end Search

/-! ## The programs -/

section Programs

variable (hrely : ∀ w w', rely w w' → Relies d w w')
  (hserves : ∀ w service e w', served w service e w' → serves d w service e w')

include hrely hserves

omit hrely in
/-- **One request**: what its route says of a success is checked, and where all is calm the check
passes. -/
theorem keeps_asked {α : Type} {call : UploadCall} {check : call.Body → Except BriefcaseError α}
    {Post : UploadWorld → α → Prop}
    (hmay : ∀ w₁, rely w w₁ → Honest d w₁ call)
    (hpost : ∀ w₁ caller body w₃ a, rely w w₁ → Verified d call (.ok caller) →
      (w₁.stub.handle d.settings (.ok caller) call).1 = .ok body →
      rely (w₁.handled d (.ok caller) call) w₃ →
        check body = .ok a → Post w₃ a)
    (hanswers : Calm d rely served → ∀ w₁ caller, rely w w₁ → Verified d call (.ok caller) →
      ∃ body, (w₁.stub.handle d.settings (.ok caller) call).1 = .ok body ∧
        ∃ a, check body = .ok a) :
    KeepsTo rely (Honest d) served (Ends (Calm d rely served) Post)
      (.ask call fun answer => .done ((received true answer).bind check)) w := by
  intro w₁ hw₁
  refine ⟨hmay w₁ hw₁, fun service answer w₂ h w₃ hw₃ => ?_⟩
  obtain ⟨hread, hcalm⟩ := exchange_cases hserves h
  constructor
  · intro a hok
    obtain ⟨body, hbody, hcheck⟩ := Except.bind_eq_ok.mp hok
    obtain ⟨caller, hverified, hhandled, rfl, _⟩ := hread body (received_eq_ok hbody)
    exact hpost w₁ caller body w₃ a hw₁ hverified hhandled hw₃ hcheck
  · intro hquiet
    obtain ⟨caller, hverified, hanswer, rfl⟩ := hcalm hquiet
    obtain ⟨body, hhandled, a, hcheck⟩ := hanswers hquiet w₁ caller hw₁ hverified
    have hbody : answer = .body body := by
      rw [hanswer]
      exact congrArg wireAnswer hhandled
    subst hbody
    exact ⟨a, hcheck⟩

/-- **The reservation** is that of the upload of the request. -/
theorem keeps_reserve (hrandom : d.Random) (hr : ∀ w', rely w w' → r ∈ w'.started) :
    KeepsTo rely (Honest d) served
      (Ends (Calm d rely served) fun w status => Knows d w.stub r status) (reserve d.http r) w := by
  unfold reserve
  refine keeps_asked hserves (fun w₁ hw₁ => ⟨r, hr w₁ hw₁, rfl, rfl⟩) ?_ ?_
  · intro w₁ caller body w₃ reservation hw₁ hverified hhandled hw₃ hcheck
    obtain ⟨happ, howner⟩ := hverified caller rfl
    obtain ⟨_, _, status, hstatus, hknows⟩ :=
      reserve_knows (hrely _ _ hw₁).after.orderly hrandom happ (howner r.proof rfl) (hr w₁ hw₁)
    split at hcheck
    · cases hcheck
    · cases hcheck
      have hsame : body = status := Except.ok.inj (hhandled.symm.trans hstatus)
      subst hsame
      exact hknows.evolves (hrely _ _ hw₃).evolves
  · intro _ w₁ caller hw₁ hverified
    obtain ⟨happ, howner⟩ := hverified caller rfl
    obtain ⟨horderly, _, status, hstatus, u, hu, hknows⟩ :=
      reserve_knows (hrely _ _ hw₁).after.orderly hrandom happ (howner r.proof rfl) (hr w₁ hw₁)
    -- The reservation is of this operation, and its id is a random one.
    refine ⟨status, hstatus, status, if_neg ?_⟩
    rintro (hoperation | hnil)
    · exact hoperation (hknows.operationId.trans hknows.request.2)
    · obtain ⟨k, _, hid⟩ := horderly.drawn u hu
      exact hrandom.nonNil k (hid.symm.trans (hknows.uploadId.symm.trans hnil))

/-- An upload that has its bytes, as a part of it was told. -/
structure Staged (d : Deployment) (r : StoreGeneratedAudioRequest) (uploadId : Uuid)
    (w : UploadWorld) (status : UploadStatus) :
    Prop where
  knows : Knows d w.stub r status
  state : status.state = .staged ∨ status.state = .committed
  uploadId : status.uploadId = uploadId

omit hrely hserves in
/-- What the attempts of one request send is what the upload was reserved for. -/
theorem manifest_of_fits {u : StubUpload} (hfits : Fits d w) (horderly : Orderly d w.started w.stub)
    (hr : r ∈ w.started)
    (hu : u ∈ w.stub.uploads) (hrequest : d.OfRequest r u) : d.Manifest r u := by
  obtain ⟨q, hq, hmanifest⟩ := (horderly.upload u hu).manifest
  obtain ⟨hname, hbytes⟩ := hfits.retries r hr q hq (hrequest.1.symm.trans hmanifest.request.1)
    (hrequest.2.symm.trans hmanifest.request.2)
  refine ⟨hrequest, hmanifest.name.trans hname.symm, ?_, ?_⟩
  · rw [hbytes]
    exact hmanifest.size
  · rw [hbytes]
    exact hmanifest.sha256

/-- A reserved upload is sent its bytes. -/
theorem keeps_sending (hr : ∀ w', rely w w' → r ∈ w'.started)
    (hknows : ∀ w', rely w w' → Knows d w'.stub r status)
    (hstate : status.state = .reserved) :
    KeepsTo rely (Honest d) served (Ends (Calm d rely served) (Staged d r status.uploadId))
      (transfer r status) w := by
  cases hcapability : status.capability with
  | none =>
      unfold transfer
      simp only [hstate, hcapability]
      intro w' hw'
      obtain ⟨u, _, hu⟩ := hknows w' hw'
      cases hcapability.symm.trans (hu.capability hstate)
  | some capability =>
      unfold transfer
      simp only [hstate, hcapability]
      refine keeps_asked hserves (fun w₁ hw₁ => ?_) ?_ ?_
      · obtain ⟨u, hu, hknown⟩ := hknows w₁ hw₁
        exact ⟨r, hr w₁ hw₁, u, hu, hknown.request, hknown.uploadId, rfl⟩
      · intro w₁ caller body w₃ staged hw₁ _ hhandled hw₃ hcheck
        obtain ⟨u, hu, hknown⟩ := hknows w₁ hw₁
        obtain ⟨_, _, hsays, _⟩ :=
          @transfer_knows d w₁.started w₁.stub u r capability (hrely _ _ hw₁).after.orderly
          (hr w₁ hw₁) hu hknown.request
        rw [← hknown.uploadId] at hsays
        obtain ⟨hstaged, huploadId, hknows'⟩ := hsays body hhandled
        split at hcheck
        · cases hcheck
        · cases hcheck
          exact ⟨hknows'.evolves (hrely _ _ hw₃).evolves, .inl hstaged, huploadId⟩
      · intro hquiet w₁ caller hw₁ _
        have hgood := (hrely _ _ hw₁).after
        obtain ⟨u, hu, hknown⟩ := hknows w₁ hw₁
        obtain ⟨_, _, hsays, hstages⟩ :=
          @transfer_knows d w₁.started w₁.stub u r capability hgood.orderly (hr w₁ hw₁) hu
            hknown.request
        rw [← hknown.uploadId] at hsays hstages
        -- The bytes are those that the upload was reserved for.
        have hmanifest := manifest_of_fits (hquiet.fits _ _ hw₁) hgood.orderly (hr w₁ hw₁) hu
          hknown.request
        obtain ⟨answered, hanswered⟩ :=
          hstages (Option.some.inj (hcapability.symm.trans (hknown.capability hstate)))
          hmanifest.size.symm (by rw [hquiet.agrees.sha256]; exact hmanifest.sha256.symm)
        obtain ⟨hstaged, huploadId, u', _, hknown'⟩ := hsays answered hanswered
        refine ⟨answered, hanswered, answered, if_neg ?_⟩
        rintro (hoperation | huploadId' | hstate')
        · exact hoperation (hknown'.operationId.trans hknown'.request.2)
        · exact huploadId' huploadId
        · exact hstate' (.inl hstaged)

/-- **The bytes** go to the upload that was reserved. -/
theorem keeps_transfer (hr : ∀ w', rely w w' → r ∈ w'.started)
    (hknows : ∀ w', rely w w' → Knows d w'.stub r status) :
    KeepsTo rely (Honest d) served (Ends (Calm d rely served) (Staged d r status.uploadId))
      (transfer r status) w := by
  -- An upload that has its bytes is left as it is.
  have hstays : ∀ w', rely w w' → status.state = .staged ∨ status.state = .committed →
      Ends (Calm d rely served) (Staged d r status.uploadId) w' (.ok status) := by
    intro w' hw' hstate
    exact ends_ok ⟨hknows w' hw', hstate, rfl⟩
  cases hstate : status.state with
  | reserved => exact keeps_sending hrely hserves hr hknows hstate
  | staged =>
      unfold transfer
      rw [hstate]
      exact fun w' hw' => hstays w' hw' (.inl hstate)
  | committed =>
      unfold transfer
      rw [hstate]
      exact fun w' hw' => hstays w' hw' (.inr hstate)
  | receiving =>
      -- Briefcase is never seen receiving: the bytes of a request are there at once.
      have hnever : ∀ w', ¬ rely w w' := by
        intro w' hw'
        obtain ⟨u, _, hu⟩ := hknows w' hw'
        rcases hu.state with h | h | h <;> cases hstate.symm.trans h
      unfold transfer
      rw [hstate]
      cases status.capability with
      | none => exact fun w' hw' => absurd hw' (hnever w')
      | some capability => exact fun w' hw' => absurd hw' (hnever w')
  | other =>
      unfold transfer
      rw [hstate]
      intro w' hw'
      obtain ⟨u, _, hu⟩ := hknows w' hw'
      rcases hu.state with h | h | h <;> cases hstate.symm.trans h

/-- An upload whose file is published, as a part of it was told. -/
def Committed (d : Deployment) (r : StoreGeneratedAudioRequest) (w : UploadWorld)
    (status : UploadStatus) : Prop :=
  Knows d w.stub r status ∧ status.state = .committed

omit hrely hserves in
theorem checkCommitted_ok {s : Stub} {uploadId : Uuid} {committed : UploadStatus}
    (hknows : Knows d s r committed)
    (huploadId : committed.uploadId = uploadId) (hstate : committed.state = .committed) :
    checkCommitted r uploadId committed = .ok committed := by
  obtain ⟨u, _, hu⟩ := hknows
  refine if_neg ?_
  rintro (hoperation | hid | hnot)
  · exact hoperation (hu.operationId.trans hu.request.2)
  · exact hid huploadId
  · exact hnot hstate

/-- **The commit** is that of the upload that has its bytes. -/
theorem keeps_commit {uploadId : Uuid} (hrandom : d.Random)
    (hstaged : ∀ w', rely w w' → Staged d r uploadId w' status) :
    KeepsTo rely (Honest d) served (Ends (Calm d rely served) (Committed d r))
      (commit r uploadId status) w := by
  unfold commit
  by_cases hstate : status.state = .committed
  · rw [if_pos hstate]
    intro w' hw'
    have hchecked := checkCommitted_ok (hstaged w' hw').knows (hstaged w' hw').uploadId hstate
    rw [hchecked]
    exact ends_ok ⟨(hstaged w' hw').knows, hstate⟩
  · rw [if_neg hstate]
    refine keeps_asked hserves (fun _ _ => trivial) ?_ ?_
    · intro w₁ caller body w₃ found hw₁ hverified hhandled hw₃ hcheck
      obtain ⟨happ, howner⟩ := hverified caller rfl
      obtain ⟨_, _, hsays, _⟩ :=
        @commit_knows d w₁.started w₁.stub caller r.requestId.asUuid uploadId
        (hrely _ _ hw₁).after.orderly hrandom happ
      obtain ⟨hcommitted, huploadId, hknows⟩ := hsays body hhandled r (howner r.proof rfl) rfl
      have hchecked := checkCommitted_ok hknows huploadId hcommitted
      have hsame : body = found := Except.ok.inj (hchecked.symm.trans hcheck)
      subst hsame
      exact ⟨hknows.evolves (hrely _ _ hw₃).evolves, hcommitted⟩
    · intro _ w₁ caller hw₁ hverified
      obtain ⟨happ, howner⟩ := hverified caller rfl
      obtain ⟨_, _, hsays, hcommits⟩ :=
        @commit_knows d w₁.started w₁.stub caller r.requestId.asUuid uploadId
        (hrely _ _ hw₁).after.orderly hrandom happ
      obtain ⟨⟨u, hu, hknown⟩, hhas, huploadId⟩ := hstaged w₁ hw₁
      have hkey : u.key = (caller.owner, caller.app, r.requestId.asUuid) := by
        unfold StubUpload.key
        rw [hknown.request.1, hknown.request.2, hknown.app, howner r.proof rfl, happ]
      have hnotReserved : u.state ≠ .reserved := by
        refine hknown.staged fun hreserved => ?_
        rcases hhas with hhas | hhas <;> cases hreserved.symm.trans hhas
      obtain ⟨answered, hanswered⟩ :=
        hcommits u hu hkey (hknown.uploadId.symm.trans huploadId) hnotReserved
      obtain ⟨hcommitted, huploadId', hknows⟩ := hsays answered hanswered r (howner r.proof rfl) rfl
      exact ⟨answered, hanswered, answered, checkCommitted_ok hknows huploadId' hcommitted⟩

/-- An entry with the published id, shown as the account's drive has it. -/
def Found (d : Deployment) (r : StoreGeneratedAudioRequest) (published : Uuid) (calm : Prop)
    (w : UploadWorld)
    (entry : DriveEntry) : Prop :=
  entry.id = published ∧ ∃ e ∈ (w.stub.drives (d.ownerOf r.proof)).entries, ∃ ownerId,
    entry = e.view d.settings.origin ownerId ∧ (calm → ReadsBack d ownerId)

omit hrely hserves in
theorem Found.evolves {published : Uuid} {calm : Prop} {entry : DriveEntry}
    (h : Found d r published calm w entry)
    (hevolves : w.stub.Evolves w'.stub) : Found d r published calm w' entry := by
  obtain ⟨hid, e, he, ownerId, hview, hreads⟩ := h
  obtain ⟨e', he', hsame⟩ := hevolves.entries _ e he
  refine ⟨hid, e', he', ownerId, ?_, hreads⟩
  rw [hview, ← hsame]
  rfl

/-- What a search that has come to a position may count on. -/
structure Searching (turns : Nat) (cursor : Option String) (seen : List String) (start : Nat) :
    Prop where
  cursor : Stub.startOf cursor = some start
  turns : start + turns * pageSize = maxPages * pageSize
  seen : ∀ c ∈ seen, ∃ n, n ≤ start ∧ c = Stub.cursorOf n

section Search

omit hrely hserves

variable {turns start : Nat} {cursor : Option String} {seen : List String}

theorem searching_first : Searching maxPages none [] 0 where
  cursor := rfl
  turns := Nat.zero_add _
  seen := List.forall_mem_nil _

/-- The cursor of the next page is a new one. -/
theorem Searching.next_not_mem (h : Searching turns cursor seen start) :
    Stub.cursorOf (start + pageSize) ∉ seen := by
  intro hmem
  obtain ⟨n, hn, hsame⟩ := h.seen _ hmem
  have hstart := cursorOf_inj hsame
  have hpageSize : 0 < pageSize := by decide
  omega

/-- The search goes on one page further. -/
theorem Searching.next (h : Searching (turns + 1) cursor seen start) :
    Searching turns (some (Stub.cursorOf (start + pageSize)))
    (Stub.cursorOf (start + pageSize) :: seen)
      (start + pageSize) where
  cursor := Stub.startOf_cursorOf _
  turns := by
    have hend := h.turns
    rw [Nat.succ_mul] at hend
    omega
  seen := by
    intro c hc
    rcases List.mem_cons.mp hc with rfl | hc
    · exact ⟨start + pageSize, Nat.le_refl _, rfl⟩
    · obtain ⟨n, hn, hsame⟩ := h.seen c hc
      exact ⟨n, hn.trans (Nat.le_add_right _ _), hsame⟩

end Search

/-- **The search** ends with the entry that it looks for, by induction on its turns. Where all is
calm, the entry is ahead of it. -/
theorem keeps_findEntryFrom {published : Uuid} {turns : Nat} {cursor : Option String}
    {seen : List String}
    (hrandom : d.Random)
    (hahead : Calm d rely served → ∃ start, Searching turns cursor seen start ∧
      ∀ w', rely w w' → Ahead d w'.stub r published start) :
    KeepsTo rely (Honest d) served
      (Ends (Calm d rely served) (Found d r published (Calm d rely served)))
      (findEntryFrom r (some d.http.appFolder) (fun entry => entry.id == published) turns cursor
        seen) w := by
  induction turns generalizing w cursor seen with
  | zero =>
      -- The whole drive has been looked through.
      intro w' hw'
      refine ends_error fun hquiet => ?_
      obtain ⟨start, hsearching, hstart⟩ := hahead hquiet
      have hlt := (hstart w' hw').lt
      have hsmall := (hquiet.fits _ _ hw').small (d.ownerOf r.proof)
      have hend := hsearching.turns
      omega
  | succ turns ih =>
      intro w₁ hw₁
      have hgood := (hrely _ _ hw₁).after
      refine ⟨trivial, fun service answer w₂ h => ?_⟩
      obtain ⟨hread, hcalm⟩ := exchange_cases hserves h
      have hpageSize : 1 ≤ pageSize ∧ pageSize ≤ 100 := by decide
      -- Where all is calm, what is read is the page from the position on.
      have hpage : Calm d rely served →
        ∃ start page caller f, Searching (turns + 1) cursor seen start ∧
          answer = .body page ∧ page = w₂.stub.pageAt d.settings caller f start pageSize ∧
            Orderly d w₂.started w₂.stub ∧ caller.owner = d.ownerOf r.proof ∧
            caller.app = d.http.waveformAppId ∧
              HasFolder d w₂.stub caller.owner f ∧ Ahead d w₂.stub r published start := by
        intro hquiet
        obtain ⟨start, hsearching, hstart⟩ := hahead hquiet
        obtain ⟨caller, hverified, hanswer, rfl⟩ := hcalm hquiet
        obtain ⟨happ, howner⟩ := hverified caller rfl
        obtain ⟨horderly, hevolves, _, hlists⟩ :=
          @listEntries_shows d w₁.started w₁.stub caller (some d.http.appFolder)
          cursor pageSize hgood.orderly hrandom happ
        obtain ⟨f, hf, hlisted⟩ :=
          hlists (congrArg some hquiet.agrees.appFolder) hpageSize.1 hpageSize.2 start
          hsearching.cursor
        refine ⟨start, _, caller, f, hsearching, ?_, rfl, horderly, howner r.proof rfl, happ, hf,
          (hstart w₁ hw₁).evolves hgood.orderly hevolves⟩
        rw [hanswer]
        exact congrArg wireAnswer hlisted
      dsimp only
      cases hreceived : received false answer with
      | error error =>
          intro w₃ hw₃
          refine ends_error fun hquiet => ?_
          obtain ⟨_, page, _, _, _, rfl, _⟩ := hpage hquiet
          cases hreceived
      | ok page =>
          have hbody := received_eq_ok hreceived
          dsimp only
          cases hfind : page.items.find? (fun entry => entry.id == published) with
          | some entry =>
              intro w₃ hw₃
              refine ends_ok ?_
              obtain ⟨caller, hverified, hhandled, rfl, hreads⟩ := hread page hbody
              obtain ⟨happ, howner⟩ := hverified caller rfl
              obtain ⟨_, _, hshows, _⟩ :=
                @listEntries_shows d w₁.started w₁.stub caller (some d.http.appFolder)
                cursor pageSize hgood.orderly hrandom happ
              obtain ⟨parent, start, rfl, hnamed⟩ := hshows page hhandled
              obtain ⟨e, he, hview⟩ := List.mem_map.mp (List.mem_of_find?_eq_some hfind)
              have hmem := (mem_children.mp (List.mem_of_mem_drop (List.mem_of_mem_take he))).1
              have hmatch : (entry.id == published) = true :=
                @List.find?_some _ (fun entry : DriveEntry => entry.id == published) entry _ hfind
              refine Found.evolves (w := w₁.handled d (.ok caller) _) ⟨beq_iff_eq.mp hmatch, e, ?_,
                _, hview.symm,
                fun hquiet => ?_⟩ (hrely _ _ hw₃).evolves
              · rw [← howner r.proof rfl]
                exact hmem
              · rw [hnamed (hreads hquiet).named]
                exact hreads hquiet
          | none =>
              -- The entry is on a later page.
              have hnext : Calm d rely served → ∃ start, Searching (turns + 1) cursor seen start ∧
                  Orderly d w₂.started w₂.stub ∧ Ahead d w₂.stub r published (start + pageSize) ∧
                    page.nextCursor = some (Stub.cursorOf (start + pageSize)) := by
                intro hquiet
                obtain ⟨start, page', caller, f, hsearching, hbody', rfl, horderly, howner, happ,
                  hf, hstart⟩ := hpage hquiet
                have hsame : page = _ := WireAnswer.body.inj (hbody.symm.trans hbody')
                subst hsame
                obtain ⟨hlater, hcursor⟩ := ahead_of_not_found horderly howner happ hf hstart hfind
                exact ⟨start, hsearching, horderly, hlater, hcursor⟩
              dsimp only
              cases hcursor : page.nextCursor with
              | none =>
                  intro w₃ hw₃
                  refine ends_error fun hquiet => ?_
                  obtain ⟨_, _, _, _, hsome⟩ := hnext hquiet
                  cases hcursor.symm.trans hsome
              | some next =>
                  dsimp only
                  by_cases hseen : next ∈ seen
                  · rw [if_pos hseen]
                    intro w₃ hw₃
                    refine ends_error fun hquiet => ?_
                    obtain ⟨start, hsearching, _, _, hsome⟩ := hnext hquiet
                    cases hcursor.symm.trans hsome
                    exact hsearching.next_not_mem hseen
                  · rw [if_neg hseen]
                    refine ih fun hquiet => ?_
                    obtain ⟨start, hsearching, horderly, hlater, hsome⟩ := hnext hquiet
                    cases hcursor.symm.trans hsome
                    exact ⟨start + pageSize, hsearching.next,
                      fun w₃ hw₃ => hlater.evolves horderly (hrely _ _ hw₃).evolves⟩

/-- **The published entry** is found in the folder. -/
theorem keeps_publishedEntry {published : Uuid} (hrandom : d.Random)
    (hcommitted : ∀ w', rely w w' → Committed d r w' status)
    (hpublished : status.publishedEntryId = some published) :
    KeepsTo rely (Honest d) served
      (Ends (Calm d rely served) (Found d r published (Calm d rely served)))
      (publishedEntry d.http r published status) w := by
  unfold publishedEntry
  cases hentry : status.entry.filter fun entry => entry.id == published with
  | some entry =>
      -- The answer to a commit has no entry.
      intro w' hw'
      obtain ⟨⟨u, _, hknown⟩, _⟩ := hcommitted w' hw'
      rw [hknown.entry] at hentry
      cases hentry
  | none =>
      refine keeps_findEntryFrom hrely hserves hrandom fun _ =>
        ⟨0, searching_first, fun w' hw' => ?_⟩
      exact ahead_of_knows (hrely _ _ hw').after.orderly (hcommitted w' hw').1 hpublished

/-- The URL names the file that the upload of the request has published. -/
structure StoredAt (d : Deployment) (r : StoreGeneratedAudioRequest) (w : UploadWorld)
    (file : BriefcaseFileUrl)
    (u : StubUpload) (e : StubEntry) : Prop where
  upload : u ∈ w.stub.uploads
  request : d.OfRequest r u
  published : u.publishedEntryId = some e.id
  entry : e ∈ (w.stub.drives (d.ownerOf r.proof)).entries
  name : e.name = r.filename.value
  size : e.size = some r.audio.bytes.length
  url : ∃ ownerId, d.http.parse (permanentUrl d.settings.origin ownerId e.path) = some file.url
  origin : urlOrigin file.url = d.http.permanentOrigin

/-- What an upload that has ended with a URL says. -/
def Stored (d : Deployment) (r : StoreGeneratedAudioRequest) (w : UploadWorld)
    (file : BriefcaseFileUrl) : Prop :=
  ∃ u e, StoredAt d r w file u e

omit hrely hserves in
theorem new?_url {url : Url} {file : BriefcaseFileUrl} (h : BriefcaseFileUrl.new? url = some file) :
    file.url = url := by
  unfold BriefcaseFileUrl.new? at h
  split at h
  · cases h
    rfl
  · cases h

omit hserves in
/-- **The last check** lets the file of the upload pass, and no other. -/
theorem keeps_checkEntry {published : Uuid} {entry : DriveEntry} (hrandom : d.Random)
    (hcommitted : ∀ w', rely w w' → Committed d r w' status)
    (hpublished : status.publishedEntryId = some published)
    (hr : ∀ w', rely w w' → r ∈ w'.started)
    (hfound : ∀ w', rely w w' → Found d r published (Calm d rely served) w' entry) :
    KeepsTo rely (Honest d) served (Ends (Calm d rely served) (Stored d r))
      (.done (if checkEntry d.http r entry then entryUrl d.http entry else .error .invalidResponse))
        w := by
  intro w' hw'
  have hgood := (hrely _ _ hw').after
  have hr' := hr w' hw'
  obtain ⟨⟨u, hu, hknown⟩, _⟩ := hcommitted w' hw'
  have hok := hgood.orderly.upload u hu
  obtain ⟨e, he, hid, hentry⟩ := hok.published published (hknown.published published hpublished)
  have hupublished : u.publishedEntryId = some e.id := by
    rw [hid]
    exact hknown.published published hpublished
  rw [hknown.request.1] at he
  obtain ⟨hentryId, e', he', ownerId, rfl, hreads⟩ := hfound w' hw'
  have hsame : e' = e := (hgood.orderly.tables _).ids.eq_of_mem he' he (hentryId.trans hid.symm)
  subst hsame
  constructor
  · -- A URL is that of the entry, whose size and name the check has compared.
    intro file hfile
    split at hfile
    · next hcheck =>
        simp only [checkEntry, Bool.and_eq_true] at hcheck
        obtain ⟨⟨⟨⟨⟨_, _⟩, hname⟩, _⟩, hsize⟩, _⟩ := hcheck
        have hsizeEq : u.size = r.audio.bytes.length := by
          change e'.size.all _ = true at hsize
          rw [hentry.size] at hsize
          exact beq_iff_eq.mp hsize
        unfold entryUrl at hfile
        split at hfile
        · cases hfile
        · next found hread =>
            split at hfile
            · cases hfile
            · next horigin =>
                cases hfile
                obtain ⟨url, hurl, hnew⟩ := Option.bind_eq_some_iff.mp hread
                refine ⟨u, e', hu, hknown.request, hupublished, he', beq_iff_eq.mp hname, ?_,
                  ⟨ownerId, ?_⟩,
                  not_not.mp horigin⟩
                · rw [hentry.size, hsizeEq]
                · rw [new?_url hnew]
                  exact hurl
    · cases hfile
  · -- The entry is the one that was published, so each part of the check holds.
    intro hquiet
    have hmanifest := manifest_of_fits (hquiet.fits _ _ hw') hgood.orderly hr' hu hknown.request
    obtain ⟨k, _, hdrawn⟩ := (hgood.orderly.tables _).drawn e' he'
    have hcheck : checkEntry d.http r (e'.view d.settings.origin ownerId) = true := by
      simp only [checkEntry, StubEntry.view, Entry.isFolder, Entry.isLive, hentry.kind, hentry.name,
        hentry.contentType,
        hentry.size, hentry.app, hmanifest.name, hmanifest.size,
        (hgood.orderly.tables _).live e' he', Option.isNone_none,
        Option.all_some, beq_self_eq_true, Bool.true_and, Bool.and_true, Bool.and_eq_true,
        bne_iff_ne, ne_eq]
      refine ⟨by decide, ?_⟩
      rw [hdrawn]
      exact hrandom.nonNil k
    obtain ⟨file, hfile, horigin⟩ := (hreads hquiet).url r
    refine ⟨file, ?_⟩
    have hpath : e'.path = d.appPath ++ "/" ++ r.filename.value := by
      rw [hentry.path, hmanifest.name]
    have hurl : ((e'.view d.settings.origin ownerId).permanentUrl.bind d.http.parse).bind
      BriefcaseFileUrl.new? =
        some file := by
      change (d.http.parse (permanentUrl d.settings.origin ownerId e'.path)).bind
        BriefcaseFileUrl.new? = some file
      rw [hpath]
      exact hfile
    rw [if_pos hcheck]
    unfold entryUrl
    rw [hurl]
    exact if_neg (not_not_intro horigin)

/-- A sequence whose first part succeeds where all is calm, with what stays true meanwhile. -/
theorem ends_andThen {α β : Type} {calm : Prop} {F : UploadWorld → Prop}
    {Mid : UploadWorld → α → Prop}
    {Post : UploadWorld → β → Prop} {p : UploadProgram (Except BriefcaseError α)}
    {f : α → UploadProgram (Except BriefcaseError β)} (hrandom : d.Random)
    (hstays : ∀ w w', Relies d w w' → F w → F w') (hF : ∀ w', rely w w' → F w')
    (hp : KeepsTo rely (Honest d) served (Ends calm Mid) p w)
    (hf : ∀ w a, (∀ w', rely w w' → F w' ∧ Mid w' a) →
      KeepsTo rely (Honest d) served (Ends calm Post) (f a) w) :
    KeepsTo rely (Honest d) served (Ends calm Post) (p.andThen f) w := by
  have hframed := hp.frame (fun w w' h => hstays w w' (hrely w w' h))
    (fun w w' service e w'' h hmay hserved =>
    hstays w' w'' ((reliable hrandom).serves (hrely w w' h).after hmay (hserves _ _ _ _ hserved)))
      hF
  refine hframed.andThen (fun w error hmid => ?_) fun w a hmid => hf w a fun w' hw' => ?_
  · refine ends_error fun hcalm => ?_
    obtain ⟨a, ha⟩ := hmid.2.2 hcalm
    cases ha
  · exact ⟨(hmid w' hw').1, (hmid w' hw').2.1 a rfl⟩

/-- **An upload** that ends with a URL has stored its file; where all is calm it ends so. -/
theorem keeps_upload (hrandom : d.Random) (hr : ∀ w', rely w w' → r ∈ w'.started) :
    KeepsTo rely (Honest d) served (Ends (Calm d rely served) (Stored d r))
      (upload d.http r) w := by
  have hstarted : ∀ w w', Relies d w w' → r ∈ w.started → r ∈ w'.started :=
    fun w w' h => h.started r
  refine ends_andThen hrely hserves hrandom hstarted hr (keeps_reserve hrely hserves hrandom hr)
    fun w reservation hreserved => ?_
  refine ends_andThen hrely hserves hrandom hstarted (fun w' hw' => (hreserved w' hw').1)
    (keeps_transfer hrely hserves (fun w' hw' => (hreserved w' hw').1) fun w' hw' =>
      (hreserved w' hw').2)
    fun w status hstaged => ?_
  refine ends_andThen hrely hserves hrandom hstarted (fun w' hw' => (hstaged w' hw').1)
    (keeps_commit hrely hserves hrandom fun w' hw' => (hstaged w' hw').2)
      fun w committed hcommitted => ?_
  cases hpublished : committed.publishedEntryId with
  | none =>
      intro w' hw'
      obtain ⟨_, ⟨u, _, hknown⟩, hstate⟩ := hcommitted w' hw'
      obtain ⟨id, hid⟩ := hknown.committed hstate
      cases hpublished.symm.trans hid
  | some published =>
      have hstays : ∀ w w', Relies d w w' → r ∈ w.started ∧ Committed d r w committed →
          r ∈ w'.started ∧ Committed d r w' committed :=
        fun w w' h hboth => ⟨h.started r hboth.1, hboth.2.1.evolves h.evolves, hboth.2.2⟩
      refine ends_andThen hrely hserves hrandom hstays hcommitted
        (keeps_publishedEntry hrely hserves hrandom (fun w' hw' => (hcommitted w' hw').2)
          hpublished) fun w entry hfound => ?_
      exact keeps_checkEntry hrely hrandom (fun w' hw' => (hfound w' hw').1.2) hpublished
        (fun w' hw' => (hfound w' hw').1.1) fun w' hw' => (hfound w' hw').2

end Programs

end Parts

end Waveform.Briefcase
