import Waveform.Briefcase.UploadKeeps

/-!
# One file for each request

The main results on storing generated audio, for every run of any number of attempts against one
Briefcase.

- `uploads_agree`: a URL that an attempt ends with names the one file of its request, and every file
  is the one of a request and holds what an attempt of that request has sent.
- `uploads_succeed`: an attempt whose requests were all answered ends with such a URL, after a
  bounded number of requests.
-/

set_option autoImplicit false

universe u

namespace Waveform.Briefcase

open Waveform.Domain Waveform.Service
open Dialogue LabelledRun

variable {Pid : Type u} {d : Deployment} {w w' : UploadWorld} {r q q' : StoreGeneratedAudioRequest}
  {e e' : StubEntry}

/-- The attempts and what they share. -/
abbrev UploadMembers (Pid : Type u) :=
  Members UploadCall UploadAnswer (Except BriefcaseError BriefcaseFileUrl) UploadWorld
    StoreGeneratedAudioRequest
    UploadService Pid

/-- No attempt has begun, and Briefcase holds nothing. -/
structure EmptyWorld (w : UploadWorld) : Prop where
  drives : ∀ owner, (w.stub.drives owner).entries = []
  uploads : w.stub.uploads = []
  wandering : w.wandering = []
  started : w.started = []

theorem EmptyWorld.good (h : EmptyWorld w) : GoodWorld d w := by
  refine ⟨⟨fun owner => ?_, fun owner e he => ?_, fun u hu => ?_, fun u hu => ?_, ?_, ?_⟩,
    fun call hcall => ?_⟩
  · refine ⟨fun e he => ?_, fun e he => ?_, ?_, ?_, fun e he => ?_⟩
    · rw [h.drives owner] at he
      cases he
    · rw [h.drives owner] at he
      cases he
    · rw [h.drives owner]
      exact List.nodup_nil
    · rw [h.drives owner]
      exact List.nodup_nil
    · rw [h.drives owner] at he
      cases he
  · rw [h.drives owner] at he
    cases he
  · rw [h.uploads] at hu
    cases hu
  · rw [h.uploads] at hu
    cases hu
  · rw [h.uploads]
    exact List.nodup_nil
  · rw [h.uploads]
    exact List.nodup_nil
  · rw [h.wandering] at hcall
    cases hcall

/-! ## Files -/

/-- The entry is the file of an attempt: it has its name and length, and bytes that an attempt of
the same request has sent. -/
structure FileOf (d : Deployment) (w : UploadWorld) (r : StoreGeneratedAudioRequest)
    (e : StubEntry) : Prop where
  attempt : r ∈ w.started
  entry : e ∈ (w.stub.drives (d.ownerOf r.proof)).entries
  live : e.deletedAt = none
  kind : e.kind = "file"
  path : e.path = d.appPath ++ "/" ++ r.filename.value
  size : e.size = some r.audio.bytes.length
  data : ∃ q ∈ w.started, d.ownerOf q.proof = d.ownerOf r.proof ∧
    q.requestId.asUuid = r.requestId.asUuid ∧
    e.data = some q.audio.bytes

/-- The URL is the permanent one of the entry, at Briefcase's origin. -/
structure NamedBy (d : Deployment) (file : BriefcaseFileUrl) (e : StubEntry) : Prop where
  url : ∃ ownerId, d.http.parse (permanentUrl d.settings.origin ownerId e.path) = some file.url
  origin : urlOrigin file.url = d.http.permanentOrigin

/-- What an upload has published is the file of each attempt of its name and length. -/
theorem fileOf_of_published {u : StubUpload} (hgood : GoodWorld d w) (hr : r ∈ w.started)
    (hrequest : d.OfRequest r u)
    (hname : u.name = r.filename.value) (hsize : u.size = r.audio.bytes.length)
    (he : e ∈ (w.stub.drives u.owner).entries) (hentry : PublishedAs d w.started u e) :
    FileOf d w r e := by
  refine ⟨hr, hrequest.1 ▸ he, (hgood.orderly.tables u.owner).live e he, hentry.kind, ?_, ?_, ?_⟩
  · rw [hentry.path, hname]
  · rw [hentry.size, hsize]
  · obtain ⟨bytes, hdata, _, q, hq, hsent, rfl⟩ := hentry.data
    exact ⟨q, hq, hsent.1.symm.trans hrequest.1, hsent.2.symm.trans hrequest.2, hdata⟩

/-- An entry that is no folder was published by an upload. -/
theorem published_of_entry {owner : String} (hgood : GoodWorld d w)
    (he : e ∈ (w.stub.drives owner).entries) :
    (e.kind = "folder" ∧ (e.path = "apps" ∨ e.path = d.appPath)) ∨
      ∃ u ∈ w.stub.uploads, u.owner = owner ∧ u.publishedEntryId = some e.id ∧
        PublishedAs d w.started u e := by
  rcases hgood.orderly.kind owner e he with hfolder | ⟨u, hu, howner, hpublished⟩
  · exact .inl hfolder
  · obtain ⟨e', he', hid, hentry⟩ := (hgood.orderly.upload u hu).published e.id hpublished
    rw [howner] at he'
    have hsame : e' = e := (hgood.orderly.tables owner).ids.eq_of_mem he' he hid
    subst hsame
    exact .inr ⟨u, hu, howner, hpublished, hentry⟩

/-- The file of an attempt was published by the upload of its request. -/
theorem FileOf.upload (h : FileOf d w r e) (hgood : GoodWorld d w) :
    ∃ u ∈ w.stub.uploads, d.OfRequest r u ∧ u.publishedEntryId = some e.id := by
  rcases published_of_entry hgood h.entry with ⟨hkind, _⟩ | ⟨u, hu, howner, hpublished, hentry⟩
  · rw [h.kind] at hkind
    exact absurd hkind (by decide)
  · -- The file name has the request's id in it.
    obtain ⟨q, _, hmanifest⟩ := (hgood.orderly.upload u hu).manifest
    have hname : u.name = r.filename.value := filePath_inj (hentry.path.symm.trans h.path)
    have hid := filename_inj (hmanifest.name.symm.trans hname)
    exact ⟨u, hu, ⟨howner, hmanifest.request.2.trans hid⟩, hpublished⟩

/-- **A request has one file**, whatever its attempts call it. -/
theorem FileOf.unique (h : FileOf d w q e) (h' : FileOf d w q' e') (hgood : GoodWorld d w)
    (howner : d.ownerOf q.proof = d.ownerOf q'.proof)
    (hid : q.requestId.asUuid = q'.requestId.asUuid) : e = e' := by
  obtain ⟨u, hu, hrequest, hpublished⟩ := h.upload hgood
  obtain ⟨u', hu', hrequest', hpublished'⟩ := h'.upload hgood
  have hkey : u.key = u'.key := by
    unfold StubUpload.key
    rw [hrequest.1, hrequest'.1, hrequest.2, hrequest'.2, (hgood.orderly.upload u hu).app,
      (hgood.orderly.upload u' hu').app, howner, hid]
  have hsame := hgood.orderly.keys.eq_of_mem hu hu' hkey
  subst hsame
  refine (hgood.orderly.tables _).ids.eq_of_mem h.entry (howner ▸ h'.entry) ?_
  exact Option.some.inj (hpublished.symm.trans hpublished')

/-- Every entry is one of Waveform's folders or the file of an attempt. -/
theorem folder_or_fileOf {owner : String} (hgood : GoodWorld d w)
    (he : e ∈ (w.stub.drives owner).entries) :
    (e.kind = "folder" ∧ (e.path = "apps" ∨ e.path = d.appPath)) ∨ ∃ q, d.ownerOf q.proof = owner ∧
    FileOf d w q e := by
  rcases published_of_entry hgood he with hfolder | ⟨u, hu, rfl, _, hentry⟩
  · exact .inl hfolder
  · obtain ⟨q, hq, hmanifest⟩ := (hgood.orderly.upload u hu).manifest
    exact .inr ⟨q, hmanifest.request.1.symm,
      fileOf_of_published hgood hq hmanifest.request hmanifest.name hmanifest.size he hentry⟩

/-- What an upload has stored is the file of its attempt, under its URL. -/
theorem Stored.fileOf {file : BriefcaseFileUrl} (h : Stored d r w file) (hgood : GoodWorld d w)
    (hr : r ∈ w.started) :
    ∃ e, FileOf d w r e ∧ NamedBy d file e := by
  obtain ⟨u, e, hstored⟩ := h
  obtain ⟨e', he', hid, hentry⟩ :=
    (hgood.orderly.upload u hstored.upload).published e.id hstored.published
  have hmem := he'
  rw [hstored.request.1] at hmem
  have hsame : e' = e := (hgood.orderly.tables _).ids.eq_of_mem hmem hstored.entry hid
  subst hsame
  refine ⟨e', fileOf_of_published hgood hr hstored.request ?_ ?_ he' hentry, hstored.url,
    hstored.origin⟩
  · exact hentry.name.symm.trans hstored.name
  · exact Option.some.inj (hentry.size.symm.trans hstored.size)

/-! ## Runs -/

section Runs

variable [DecidableEq Pid] {s t : UploadMembers Pid}
  {tr : List (Transition (UploadMembers Pid)
    (CommunityAction UploadCall UploadAnswer StoreGeneratedAudioRequest UploadService Pid))}

/-- What an attempt ends with. -/
def UploadEnds (d : Deployment) (calm : Prop) (r : StoreGeneratedAudioRequest) (w : UploadWorld)
    (result : Except BriefcaseError BriefcaseFileUrl) : Prop :=
  r ∈ w.started ∧ Ends calm (Stored d r) w result

/-- An attempt that has begun ends so. -/
theorem uploadEnds_program {rely : UploadWorld → UploadWorld → Prop}
    {served : UploadWorld → UploadService → UploadExchange → UploadWorld → Prop}
    (hrandom : d.Random)
    (hrely : ∀ w w', rely w w' → Relies d w w')
    (hserves : ∀ w service e w', served w service e w' → serves d w service e w') :
    KeepsTo rely (Honest d) served (UploadEnds d (Calm d rely served) r) (upload d.http r)
      ((briefcaseUploads d).starts w r) := by
  have hr : ∀ w', rely ((briefcaseUploads d).starts w r) w' → r ∈ w'.started :=
    fun w' h => (hrely _ _ h).started r List.mem_cons_self
  refine (keeps_upload hrely hserves hrandom hr).frame (fun w w' h => (hrely w w' h).started r)
    (fun w w' service e w'' h hmay hserved => ?_) hr
  exact ((reliable hrandom).serves (hrely w w' h).after hmay (hserves _ _ _ _ hserved)).started r

/-- **Every run** of attempts is one that they may rely on, and each ends as it should. -/
theorem uploads_run (hrandom : d.Random) (hempty : EmptyWorld s.shared)
    (hnone : ∀ pid, s.member pid = none)
    (hrun : Run (briefcaseUploads d).Step s tr t) :
    (∀ e ∈ tr, Relies d e.pre.shared e.post.shared) ∧ Relies d s.shared t.shared ∧
    GoodWorld d t.shared ∧
      (briefcaseUploads d).KeepsServed (Relies d) (Honest d) (fun _ => True)
        (UploadEnds d (Calm d (Relies d) (serves d))) t ∧
        ∀ pid m, t.member pid = some m → m.wasDropped = true →
          m.left = .done (briefcaseUploads d).dropped :=
  (reliable hrandom).run (fun r w _ => @uploadEnds_program d w r _ _ hrandom (fun _ _ h => h)
    fun _ _ _ _ h => h) hrun
    hempty.good hnone

/-- The request was answered by its route, for an account whose permanent URLs are read back. -/
def Answered (d : Deployment) (service : UploadService) : Prop :=
  ∃ caller, service = .answered (.ok caller) ∧ ReadsBack d caller.ownerId

/-- An attempt that was answered has stored its file when it ends. -/
theorem stored_of_answered {pid : Pid}
    {m : Member UploadCall UploadAnswer (Except BriefcaseError BriefcaseFileUrl)
      StoreGeneratedAudioRequest UploadService} {result : Except BriefcaseError BriefcaseFileUrl}
    (hrandom : d.Random) (hagrees : d.Agrees) (hempty : EmptyWorld s.shared)
    (hnone : ∀ pid, s.member pid = none)
    (hrun : Run (briefcaseUploads d).Step s tr t) (hfits : Fits d t.shared)
    (hm : t.member pid = some m)
    (hwas : m.wasDropped = false) (hanswered : ∀ x ∈ m.exchanges, Answered d x.1)
    (hleft : m.left = .done result) :
    m.command ∈ t.shared.started ∧ ∃ file, result = .ok file ∧
      Stored d m.command t.shared file := by
  obtain ⟨hsteps, _, hgood, _, _⟩ := uploads_run hrandom hempty hnone hrun
  have htrans : ∀ a b c, Relies d a b → Relies d b c → Relies d a c := fun _ _ _ => Relies.trans
  have hposts := Community.rely_post htrans (fun _ _ h => Relies.refl h.after) hrun hsteps
  -- Every state of the run fits, since the last one does.
  have hsteps' : ∀ e ∈ tr, Relies d e.pre.shared e.post.shared ∧ Fits d e.post.shared :=
    fun e he => ⟨hsteps e he, hfits.before (hposts e he)⟩
  have hcalm : Calm d (fun w w' => Relies d w w' ∧ Fits d w')
      (fun w service e w' => Answered d service ∧ serves d w service e w') :=
    ⟨hagrees, fun _ _ _ _ h => h.1, fun _ _ h => h.2⟩
  -- The rule again, with a rely that knows so and the exchanges that were answered.
  have hkeeps : (briefcaseUploads d).KeepsServed (fun w w' => Relies d w w' ∧ Fits d w') (Honest d)
    (Answered d)
      (UploadEnds d (Calm d (fun w w' => Relies d w w' ∧ Fits d w') fun w service e w' =>
        Answered d service ∧ serves d w service e w')) t := by
    refine Community.run_served (fun a b c h h' => ⟨h.1.trans h'.1, h'.2⟩)
      (fun a b h => ⟨Relies.refl h.1.before, h.2.before h.1⟩)
      (fun r w _ => uploadEnds_program hrandom (fun _ _ h => h.1) fun _ _ _ _ h => h.2) hrun hsteps'
        fun pid m hm => ?_
    cases (hnone pid).symm.trans hm
  have hends := hkeeps pid m hm hwas hanswered
  rw [hleft] at hends
  obtain ⟨hr, hstored, hsucceeds⟩ := hends t.shared ⟨Relies.refl hgood, hfits⟩
  obtain ⟨file, rfl⟩ := hsucceeds hcalm
  exact ⟨hr, file, rfl, hstored file rfl⟩

/-- **An attempt can be answered to its end**, by induction on how often it may ask. -/
theorem exists_answered_run {pid : Pid} {n : Nat} {caller : Caller}
    {m : Member UploadCall UploadAnswer (Except BriefcaseError BriefcaseFileUrl)
      StoreGeneratedAudioRequest UploadService}
    (hverified : ∀ call, Verified d call (.ok caller)) (hm : s.member pid = some m)
    (hasks : AsksAtMost m.left n) :
    ∃ tr t m' result, Run (briefcaseUploads d).Step s tr t ∧ t.member pid = some m' ∧
      m'.command = m.command ∧
      m'.wasDropped = m.wasDropped ∧ m'.left = .done result ∧
        (∀ x ∈ m'.exchanges, x ∈ m.exchanges ∨ x.1 = .answered (.ok caller)) ∧
          t.shared.started = s.shared.started ∧ Grows s.shared.stub t.shared.stub (2 * n) := by
  induction n generalizing s m with
  | zero =>
      cases hleft : m.left with
      | done result =>
          exact ⟨[], s, m, result, .nil s, hm, rfl, rfl, hleft, fun x hx => .inl hx, rfl,
            fun owner => Nat.le_refl _⟩
      | ask q next =>
          rw [hleft] at hasks
          obtain ⟨k, hk, _⟩ := hasks
          exact absurd hk.symm (Nat.succ_ne_zero k)
  | succ n ih =>
      cases hleft : m.left with
      | done result =>
          exact ⟨[], s, m, result, .nil s, hm, rfl, rfl, hleft, fun x hx => .inl hx, rfl,
            fun owner => Nat.le_add_right _ _⟩
      | ask q next =>
          rw [hleft] at hasks
          obtain ⟨k, hk, hnext⟩ := hasks
          cases Nat.succ.inj hk
          -- The next request is answered with what its route says.
          obtain ⟨answer, hanswer⟩ : ∃ answer : UploadAnswer q,
              answer = wireAnswer (s.shared.stub.handle d.settings (.ok caller) q).1 := ⟨_, rfl⟩
          have hstep : (briefcaseUploads d).Step s
            (.exchange pid (.answered (.ok caller)) ⟨q, answer⟩)
              (s.withMember pid { m with
                exchanges := m.exchanges ++ [(.answered (.ok caller), ⟨q, answer⟩)], left :=
                  next answer }
                (s.shared.handled d (.ok caller) q)) :=
                  .exchange hm hleft ⟨hverified q, hanswer, rfl⟩
          have hmember : (s.withMember pid { m with
              exchanges := m.exchanges ++ [(.answered (.ok caller), ⟨q, answer⟩)], left :=
                next answer }
              (s.shared.handled d (.ok caller) q)).member pid = some _ := Members.withMember_self
          obtain ⟨tr, t, m', result, hrun, hm', hcommand, hwas, hdone, hexchanges,
            hstarted, hgrows⟩ :=
            ih hmember (hnext answer)
          refine ⟨_, t, m', result, .cons hstep hrun, hm', hcommand, hwas, hdone, fun x hx => ?_,
            hstarted, ?_⟩
          · rcases hexchanges x hx with hx | hx
            · rcases List.mem_append.mp hx with hx | hx
              · exact .inl hx
              · rw [List.mem_singleton.mp hx]
                exact .inr rfl
            · exact .inr hx
          · have hboth := (handle_grows d.settings s.shared.stub (.ok caller) q).trans hgrows
            intro owner
            have hlength := hboth owner
            rw [Nat.mul_succ]
            omega

end Runs

/-! ## The sample's run -/

/-- URLs at the sample's origin. -/
def sampleParse (text : String) : Option Url :=
  if "https://files/".toList.isPrefixOf text.toList then
    some ⟨"https", "", none, some (.domain "files"), none, String.ofList (text.toList.drop 13),
      none, none⟩
  else none

/-- A deployment with one account, and a digest that tells nothing apart. -/
def uploadDeployment : Deployment where
  http := ⟨sampleOrigin, "waveform", "apps/waveform", sampleParse, fun _ => Vector.replicate 32 0⟩
  settings := ⟨"https://files", fun _ => Vector.replicate 32 0, Nat.succ,
    fun n => String.ofList (decimal n)⟩
  ownerOf _ := "me"

theorem sampleBytes_bounded : [(73 : UInt8), 68, 51, 1].length ≤ maxProviderAudioBytes := by decide

theorem sampleRequestId_bits : sampleRequestId.asUuid < 2 ^ 128 := by decide

def sampleUpload : StoreGeneratedAudioRequest :=
  ⟨sampleProof, .newYear, ⟨[73, 68, 51, 1], ⟨1200⟩, List.cons_ne_nil _ _, sampleBytes_bounded⟩,
    sampleRequestId,
    sampleRequestId_bits⟩

def sampleCaller : Caller := ⟨"me", "me", "waveform"⟩

theorem uploadDeployment_random : uploadDeployment.Random := ⟨Nat.succ_injective, Nat.succ_ne_zero⟩

theorem uploadDeployment_agrees : uploadDeployment.Agrees := ⟨by decide, rfl⟩

theorem sampleParse_of_prefix {text : String}
    (h : "https://files/".toList.isPrefixOf text.toList = true) :
    ∃ file, (sampleParse text).bind BriefcaseFileUrl.new? = some file ∧
      urlOrigin file.url = sampleOrigin := by
  unfold sampleParse
  rw [if_pos h, Option.bind_some]
  exact ⟨_, dif_pos rfl, rfl⟩

theorem permanentUrl_starts (ownerId path : String) :
    "https://files/".toList.isPrefixOf
      (permanentUrl "https://files" ownerId path).toList = true := by
  have hfront : "https://files/".toList = "https://files".toList ++ "/".toList := by decide
  rw [List.isPrefixOf_iff_prefix, hfront]
  unfold permanentUrl
  simp only [String.toList_append, List.append_assoc]
  exact (List.prefix_append_right_inj _).mpr (List.prefix_append _ _)

/-- Permanent URLs of the sample are read back. -/
theorem readsBack_sample : ReadsBack uploadDeployment "me" := by
  have hparse : uploadDeployment.http.parse = sampleParse := rfl
  have horigin : uploadDeployment.settings.origin = "https://files" := rfl
  refine ⟨by decide, fun r => ?_⟩
  rw [hparse, horigin]
  exact sampleParse_of_prefix (permanentUrl_starts _ _)

/-- Nothing has begun. -/
def sampleUploads : UploadMembers Unit := ⟨⟨⟨fun _ => ⟨"", []⟩, [], 0⟩, [], []⟩, fun _ => none⟩

theorem sampleUploads_empty : EmptyWorld sampleUploads.shared := ⟨fun _ => rfl, rfl, rfl, rfl⟩

/-- The sample's attempt, answered to its end. -/
theorem exists_sampleRun :
    ∃ tr t m result, Run (briefcaseUploads uploadDeployment).Step sampleUploads tr t ∧
    t.member () = some m ∧ m.command = sampleUpload ∧ m.wasDropped = false ∧ m.left = .done result ∧
      (∀ x ∈ m.exchanges, Answered uploadDeployment x.1) ∧ Fits uploadDeployment t.shared := by
  have hverified : ∀ call, Verified uploadDeployment call (.ok sampleCaller) := by
    rintro call caller hcaller
    cases hcaller
    exact ⟨rfl, fun proof _ => rfl⟩
  have hstart : (briefcaseUploads uploadDeployment).Step sampleUploads (.start () sampleUpload)
      (sampleUploads.withMember () ⟨sampleUpload, [], upload uploadDeployment.http sampleUpload,
        false⟩
        ((briefcaseUploads uploadDeployment).starts sampleUploads.shared sampleUpload)) :=
          .start rfl
  have hmember : (sampleUploads.withMember ()
    ⟨sampleUpload, [], upload uploadDeployment.http sampleUpload, false⟩
      ((briefcaseUploads uploadDeployment).starts sampleUploads.shared sampleUpload)).member () =
        some ⟨sampleUpload, [], upload uploadDeployment.http sampleUpload, false⟩ :=
          Members.withMember_self
  obtain ⟨tr, t, m, result, hrun, hm, hcommand, hwas, hleft, hexchanges, hstarted, hgrows⟩ :=
    exists_answered_run hverified hmember upload_asks
  refine ⟨_, t, m, result, .cons hstart hrun, hm, hcommand, hwas, hleft, fun x hx => ?_,
    ⟨fun r hr q hq _ _ => ?_, fun owner => ?_⟩⟩
  · rcases hexchanges x hx with hx | hx
    · cases hx
    · exact ⟨sampleCaller, hx, readsBack_sample⟩
  · have hone : t.shared.started = [sampleUpload] := hstarted
    rw [hone] at hr hq
    rw [List.mem_singleton.mp hr, List.mem_singleton.mp hq]
    exact ⟨rfl, rfl⟩
  · have hlength := hgrows owner
    have hbound : 0 + 2 * maxUploadCalls ≤ maxPages * pageSize := by decide
    exact hlength.trans hbound

/-! ## Main results -/

section Results

variable [DecidableEq Pid] {s t : UploadMembers Pid}
  {tr : List (Transition (UploadMembers Pid)
    (CommunityAction UploadCall UploadAnswer StoreGeneratedAudioRequest UploadService Pid))}

/-- **Attempts agree on one file.** In every run, whatever is lost, late, dropped or refused, a URL
that an attempt ends with names the file of its request, every entry is a folder of Waveform's or
the file of an attempt, and no request has two files. -/
theorem uploads_agree (hrandom : d.Random) (hempty : EmptyWorld s.shared)
    (hnone : ∀ pid, s.member pid = none)
    (hrun : Run (briefcaseUploads d).Step s tr t) :
    (∀ pid m file, t.member pid = some m → m.left = .done (.ok file) →
      ∃ e, FileOf d t.shared m.command e ∧ NamedBy d file e) ∧
    (∀ owner, ∀ e ∈ (t.shared.stub.drives owner).entries,
      (e.kind = "folder" ∧ (e.path = "apps" ∨ e.path = d.appPath)) ∨
      ∃ q, d.ownerOf q.proof = owner ∧ FileOf d t.shared q e) ∧
    ∀ q q' e e', FileOf d t.shared q e → FileOf d t.shared q' e' →
      d.ownerOf q.proof = d.ownerOf q'.proof →
      q.requestId.asUuid = q'.requestId.asUuid → e = e' := by
  obtain ⟨_, _, hgood, hkeeps, hdropped⟩ := uploads_run hrandom hempty hnone hrun
  refine ⟨fun pid m file hm hleft => ?_, fun owner e he => folder_or_fileOf hgood he,
    fun q q' e e' h h' howner hid => h.unique h' hgood howner hid⟩
  have hwas : m.wasDropped = false := by
    cases hwas : m.wasDropped with
    | false => rfl
    | true => cases hleft.symm.trans (hdropped pid m hm hwas)
  have hends := hkeeps pid m hm hwas fun _ _ => trivial
  rw [hleft] at hends
  obtain ⟨hr, hstored, _⟩ := hends t.shared (Relies.refl hgood)
  exact (hstored file rfl).fileOf hgood hr

/-- The sample's attempt ends with a URL of its file. -/
theorem uploads_agree_sample :
    ∃ tr t m file e, Run (briefcaseUploads uploadDeployment).Step sampleUploads tr t ∧
    t.member () = some m ∧ m.left = .done (.ok file) ∧
    FileOf uploadDeployment t.shared sampleUpload e ∧
      NamedBy uploadDeployment file e := by
  obtain ⟨tr, t, m, result, hrun, hm, hcommand, hwas, hleft, hanswered, hfits⟩ := exists_sampleRun
  obtain ⟨_, file, rfl, _⟩ :=
    stored_of_answered uploadDeployment_random uploadDeployment_agrees sampleUploads_empty
    (fun _ => rfl) hrun hfits hm hwas hanswered hleft
  obtain ⟨e, hfile, hnamed⟩ :=
    (uploads_agree uploadDeployment_random sampleUploads_empty (fun _ => rfl) hrun).1 () m
      file hm hleft
  rw [hcommand] at hfile
  exact ⟨tr, t, m, file, e, hrun, hm, hleft, hfile, hnamed⟩

/-- **An attempt that is answered succeeds**, whatever happens to the others: it ends, after a
bounded number of requests, with a URL of the file that holds what it has sent. -/
theorem uploads_succeed (hrandom : d.Random) (hagrees : d.Agrees) (hempty : EmptyWorld s.shared)
    (hnone : ∀ pid, s.member pid = none) (hrun : Run (briefcaseUploads d).Step s tr t)
    (hfits : Fits d t.shared) :
    ∀ pid m, t.member pid = some m → m.wasDropped = false → (∀ x ∈ m.exchanges, Answered d x.1) →
      m.exchanges.length ≤ maxUploadCalls ∧ ∀ result, m.left = .done result →
        ∃ file e, result = .ok file ∧ FileOf d t.shared m.command e ∧ NamedBy d file e ∧
          e.data = some m.command.audio.bytes := by
  intro pid m hm hwas hanswered
  obtain ⟨_, _, hgood, _, _⟩ := uploads_run hrandom hempty hnone hrun
  obtain ⟨k, _, hasks⟩ := Community.run_asks (fun r => upload_asks) hrun hnone pid m hm
  refine ⟨Nat.le_trans (Nat.le_add_right _ k) hasks, fun result hleft => ?_⟩
  obtain ⟨hr, file, rfl, hstored⟩ :=
    stored_of_answered hrandom hagrees hempty hnone hrun hfits hm hwas hanswered hleft
  obtain ⟨e, hfile, hnamed⟩ := hstored.fileOf hgood hr
  obtain ⟨q, hq, howner, hid, hdata⟩ := hfile.data
  refine ⟨file, e, rfl, hfile, hnamed, ?_⟩
  rw [hdata, (hfits.retries q hq m.command hr howner hid).2]

/-- The sample's attempt, and what its file holds. -/
theorem uploads_succeed_sample :
    ∃ tr t m file e, Run (briefcaseUploads uploadDeployment).Step sampleUploads tr t ∧
    t.member () = some m ∧ m.exchanges.length ≤ maxUploadCalls ∧ m.left = .done (.ok file) ∧
      FileOf uploadDeployment t.shared sampleUpload e ∧ NamedBy uploadDeployment file e ∧
        e.data = some [73, 68, 51, 1] := by
  obtain ⟨tr, t, m, result, hrun, hm, hcommand, hwas, hleft, hanswered, hfits⟩ := exists_sampleRun
  obtain ⟨hasks, hends⟩ := uploads_succeed uploadDeployment_random uploadDeployment_agrees
    sampleUploads_empty
    (fun _ => rfl) hrun hfits () m hm hwas hanswered
  obtain ⟨file, e, rfl, hfile, hnamed, hdata⟩ := hends result hleft
  rw [hcommand] at hfile hdata
  exact ⟨tr, t, m, file, e, hrun, hm, hasks, hleft, hfile, hnamed, hdata⟩

end Results

end Waveform.Briefcase
