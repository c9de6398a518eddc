import Waveform.Briefcase.DrivePath
import Waveform.Library.Dialogue
import Waveform.Storage.Proofs

/-!
# Looking a file up in Briefcase

Briefcase is asked for the entries of the file's folder page by page, with the caller's proof, until
one of them is the file; then that entry is read. Nothing is assumed of what Briefcase answers.

- `runs_find`: the pages that a search asks for, and what it may answer.
- `runs_openFile`: what is read is a live file that Briefcase listed under the path the URL names.
-/

set_option autoImplicit false

namespace Waveform.Briefcase

open Waveform.Domain Waveform.Service
open Dialogue

/-- What an entry listed by Briefcase says of itself. -/
structure Entry where
  id : Uuid
  kind : String
  path : String
  permanentUrl : Option String
  deletedAt : Option String
  deriving DecidableEq

namespace Entry

/-- `is_folder`. -/
def isFolder (entry : Entry) : Bool := entry.kind == "folder"

/-- `is_live`. -/
def isLive (entry : Entry) : Bool := entry.deletedAt.isNone && entry.id != Uuid.nil

end Entry

/-- A page of the entries of a folder. -/
structure EntryPage where
  items : List Entry
  nextCursor : Option String
  deriving DecidableEq

/-- The requests of a lookup. -/
inductive LookupCall where
  /-- `obo/entries/list`, `PAGE_SIZE` entries of the folder from the cursor on. -/
  | list (proof : BriefcaseProof) (path cursor : Option String) (requestId : RequestId)
  /-- `obo/files/read`, of the first byte when it only probes. -/
  | read (proof : BriefcaseProof) (entryId : Uuid) (requestId : RequestId) (probe : Bool)

/-- What they answer; `Response` is a response with its headers. -/
@[reducible] def LookupAnswer (Response : Type) : LookupCall → Type
  | .list _ _ _ _ => Except BriefcaseError EntryPage
  | .read _ _ _ _ => Except BriefcaseError Response

/-- A program over these requests. -/
abbrev LookupProgram (Response α : Type) := Dialogue LookupCall (LookupAnswer Response) α

/-- A request with its answer. -/
abbrev LookupExchange (Response : Type) := Exchange LookupCall (LookupAnswer Response)

/-- The pages of one search, at most. -/
def maxPages : Nat := 100

section Programs

variable {Response : Type} (proof : BriefcaseProof) (requestId : RequestId)

/-- The loop of `find`, with the turns that are left. -/
def findFrom (path : Option String) (isMatch : Entry → Bool) :
    Nat → Option String → List String → LookupProgram Response (Except BriefcaseError Entry)
  | 0, _, _ => .done (.error .invalidResponse)
  | turns + 1, cursor, seen =>
      .ask (.list proof path cursor requestId) fun
        | .error error => .done (.error error)
        | .ok page =>
            match page.items.find? isMatch with
            | some entry => .done (.ok entry)
            | none =>
                match page.nextCursor with
                | some next =>
                    if next ∈ seen then .done (.error .invalidResponse)
                    else findFrom path isMatch turns (some next) (next :: seen)
                | none => .done (.error .notFound)

/-- `find`. -/
def find (path : Option String) (isMatch : Entry → Bool) :
    LookupProgram Response (Except BriefcaseError Entry) :=
  findFrom proof requestId path isMatch maxPages none []

variable (parse : String → Option Url) (permanentOrigin : Origin)

/-- The live file of a path. -/
def isFileAt (path : String) (entry : Entry) : Bool :=
  entry.path == path && !entry.isFolder && entry.isLive

/-- The check of a listed permanent URL, where an entry has one. -/
def confirmEntry (path : String) (entry : Entry) : Except BriefcaseError Uuid :=
  match entry.permanentUrl with
  | none => .ok entry.id
  | some listed =>
      match (parse listed).bind BriefcaseFileUrl.new? with
      | none => .error .invalidResponse
      | some listed =>
          match relativePath permanentOrigin listed with
          | .error error => .error error
          | .ok listedPath => if listedPath ≠ path then .error .invalidResponse else .ok entry.id

/-- `resolve`. -/
def resolve (file : BriefcaseFileUrl) : LookupProgram Response (Except BriefcaseError Uuid) :=
  match relativePath permanentOrigin file with
  | .error error => .done (.error error)
  | .ok path =>
      (find proof requestId (parentPath path) (isFileAt path)).andThen fun entry =>
        .done (confirmEntry parse permanentOrigin path entry)

/-- `open`. -/
def openFile (file : BriefcaseFileUrl) (probe : Bool) :
    LookupProgram Response (Except BriefcaseError Response) :=
  (resolve proof requestId parse permanentOrigin file).andThen fun entryId =>
    .ask (.read proof entryId requestId probe) .done

end Programs

/-! ## Searches -/

/-- The requests of a search, by their cursors and answers. -/
abbrev PageAnswer := Option String × Except BriefcaseError EntryPage

/-- The exchange of one page. -/
def listExchange (Response : Type) (proof : BriefcaseProof) (requestId : RequestId)
    (path : Option String)
    (page : PageAnswer) : LookupExchange Response :=
  ⟨.list proof path page.1 requestId, page.2⟩

/-- Every page of a folder, from a cursor to the last one, without an entry that matches. -/
inductive Inspected (isMatch : Entry → Bool) : Option String → List PageAnswer → Prop where
  | last {cursor : Option String} {page : EntryPage}
      (hnone : ∀ entry ∈ page.items, isMatch entry = false)
      (hlast : page.nextCursor = none) : Inspected isMatch cursor [(cursor, .ok page)]
  | next {cursor : Option String} {page : EntryPage} {next : String} {pages : List PageAnswer}
      (hnone : ∀ entry ∈ page.items, isMatch entry = false) (hnext : page.nextCursor = some next)
      (hrest : Inspected isMatch (some next) pages) :
      Inspected isMatch cursor ((cursor, .ok page) :: pages)

/-- What a search asks for and answers, from a cursor on. -/
structure SearchRun (isMatch : Entry → Bool) (turns : Nat) (cursor : Option String)
    (seen : List String)
    (pages : List PageAnswer) (result : Except BriefcaseError Entry) : Prop where
  bounded : pages.length ≤ turns
  /-- No cursor is requested twice. -/
  once : (pages.map Prod.fst).Nodup
  fresh : ∀ page ∈ pages, page.1 = cursor ∨ ∃ next, page.1 = some next ∧ next ∉ seen
  /-- Not found, after every page or because Briefcase said so. -/
  notFound : result = .error .notFound →
    Inspected isMatch cursor pages ∨ ∃ asked, pages.getLast? = some (asked, .error .notFound)
  found : ∀ entry, result = .ok entry →
    ∃ asked page, pages.getLast? = some (asked, .ok page) ∧ entry ∈ page.items ∧
      isMatch entry = true

section Runs

variable {Response : Type} {proof : BriefcaseProof} {requestId : RequestId} {path : Option String}
  {isMatch : Entry → Bool}

/-- **The loop of a search**: by induction on the turns that are left. The cursor it asks for is one
it has seen. -/
theorem runs_findFrom {turns : Nat} {cursor : Option String} {seen : List String}
    (hseen : ∀ asked, cursor = some asked → asked ∈ seen) {tr : List (LookupExchange Response)}
    {result : Except BriefcaseError Entry}
    (hrun : Runs (findFrom proof requestId path isMatch turns cursor seen) tr result) :
    ∃ pages, tr = pages.map (listExchange Response proof requestId path) ∧
      SearchRun isMatch turns cursor seen pages result := by
  induction turns generalizing cursor seen tr with
  | zero =>
      obtain ⟨rfl, rfl⟩ := runs_done_iff.mp hrun
      refine ⟨[], rfl, Nat.le_refl 0, List.nodup_nil, List.forall_mem_nil _, ?_, ?_⟩
      · intro hresult
        cases hresult
      · intro entry hresult
        cases hresult
  | succ turns ih =>
      obtain ⟨answer, tr', rfl, hanswered⟩ := runs_ask_iff.mp hrun
      -- a search that ends with this page
      have hends : ∀ {result : Except BriefcaseError Entry},
          (result = .error .notFound → Inspected isMatch cursor [(cursor, answer)] ∨
            answer = .error .notFound) →
          (∀ entry, result = .ok entry → ∃ page, answer = .ok page ∧ entry ∈ page.items ∧
            isMatch entry = true) →
          SearchRun isMatch (turns + 1) cursor seen [(cursor, answer)] result := by
        intro result hnotFound hfound
        refine ⟨Nat.succ_le_succ (Nat.zero_le turns), List.nodup_singleton _, ?_, ?_, ?_⟩
        · intro page hpage
          rw [List.mem_singleton.mp hpage]
          exact .inl rfl
        · intro hresult
          rcases hnotFound hresult with hinspected | rfl
          · exact .inl hinspected
          · exact .inr ⟨cursor, rfl⟩
        · intro entry hresult
          obtain ⟨page, rfl, hentry⟩ := hfound entry hresult
          exact ⟨cursor, page, rfl, hentry⟩
      cases answer with
      | error error =>
          obtain ⟨rfl, rfl⟩ := runs_done_iff.mp hanswered
          refine ⟨[(cursor, .error error)], rfl, hends ?_ ?_⟩
          · intro hresult
            rw [Except.error.inj hresult]
            exact .inr rfl
          · intro entry hresult
            cases hresult
      | ok page =>
          change Runs (match page.items.find? isMatch with
            | some entry => .done (.ok entry)
            | none =>
                match page.nextCursor with
                | some next =>
                    if next ∈ seen then .done (.error .invalidResponse)
                    else findFrom proof requestId path isMatch turns (some next) (next :: seen)
                | none => .done (.error .notFound)) tr' result at hanswered
          cases hfind : page.items.find? isMatch with
          | some entry =>
              rw [hfind] at hanswered
              obtain ⟨rfl, rfl⟩ := runs_done_iff.mp hanswered
              refine ⟨[(cursor, .ok page)], rfl, hends ?_ ?_⟩
              · intro hresult
                cases hresult
              · intro other hresult
                obtain rfl := Except.ok.inj hresult
                exact ⟨page, rfl, List.mem_of_find?_eq_some hfind, List.find?_some hfind⟩
          | none =>
              have hnone : ∀ entry ∈ page.items, isMatch entry = false := by
                intro entry hentry
                exact Bool.eq_false_iff.mpr (List.find?_eq_none.mp hfind entry hentry)
              rw [hfind] at hanswered
              cases hcursor : page.nextCursor with
              | none =>
                  rw [hcursor] at hanswered
                  obtain ⟨rfl, rfl⟩ := runs_done_iff.mp hanswered
                  refine ⟨[(cursor, .ok page)], rfl, hends ?_ ?_⟩
                  · intro _
                    exact .inl (.last hnone hcursor)
                  · intro entry hresult
                    cases hresult
              | some next =>
                  rw [hcursor] at hanswered
                  by_cases hmem : next ∈ seen
                  · simp only [if_pos hmem] at hanswered
                    obtain ⟨rfl, rfl⟩ := runs_done_iff.mp hanswered
                    refine ⟨[(cursor, .ok page)], rfl, hends ?_ ?_⟩
                    · intro hresult
                      cases hresult
                    · intro entry hresult
                      cases hresult
                  · simp only [if_neg hmem] at hanswered
                    obtain ⟨pages, rfl, hrest⟩ := ih (fun asked hasked => by
                      rw [Option.some.inj hasked]
                      exact List.mem_cons_self) hanswered
                    refine ⟨(cursor, .ok page) :: pages, rfl, ?_⟩
                    have hfresh : ∀ other ∈ pages, ∃ asked, other.1 = some asked ∧
                        asked ∉ seen := by
                      intro other hother
                      rcases hrest.fresh other hother with hnext | ⟨asked, hasked, hnew⟩
                      · exact ⟨next, hnext, hmem⟩
                      · exact ⟨asked, hasked, fun hold => hnew (List.mem_cons_of_mem _ hold)⟩
                    refine ⟨Nat.succ_le_succ hrest.bounded, List.nodup_cons.mpr ⟨?_, hrest.once⟩,
                      ?_, ?_, ?_⟩
                    · intro hcursors
                      obtain ⟨other, hother, hsame⟩ := List.mem_map.mp hcursors
                      obtain ⟨asked, hasked, hnew⟩ := hfresh other hother
                      exact hnew (hseen asked (hsame.symm.trans hasked))
                    · exact List.forall_mem_cons.mpr
                        ⟨.inl rfl, fun other hother => .inr (hfresh other hother)⟩
                    · intro hresult
                      rcases hrest.notFound hresult with hinspected | ⟨asked, hlast⟩
                      · exact .inl (.next hnone hcursor hinspected)
                      · exact .inr ⟨asked, List.mem_getLast?_cons hlast⟩
                    · intro entry hresult
                      obtain ⟨asked, last, hlast, hentry⟩ := hrest.found entry hresult
                      exact ⟨asked, last, List.mem_getLast?_cons hlast, hentry⟩

/-- **A search**: at most `maxPages` pages, no cursor twice, and not found after the last page
only. -/
theorem runs_find {tr : List (LookupExchange Response)} {result : Except BriefcaseError Entry}
    (hrun : Runs (find proof requestId path isMatch) tr result) :
    ∃ pages, tr = pages.map (listExchange Response proof requestId path) ∧
      SearchRun isMatch maxPages none [] pages result :=
  runs_findFrom (fun _ hasked => by cases hasked) hrun

end Runs

/-! ## Reading a file -/

/-- An entry that stands for the file of a path. -/
structure EntryAt (parse : String → Option Url) (permanentOrigin : Origin) (path : String)
    (entry : Entry) : Prop where
  samePath : entry.path = path
  notFolder : entry.isFolder = false
  live : entry.isLive = true
  /-- A permanent URL that Briefcase lists for it is read as the same path. -/
  listed : ∀ text, entry.permanentUrl = some text →
    ∃ url, (parse text).bind BriefcaseFileUrl.new? = some url ∧
    relativePath permanentOrigin url = .ok path

section Reading

variable {Response : Type} {proof : BriefcaseProof} {requestId : RequestId}
  {parse : String → Option Url}
  {permanentOrigin : Origin}

theorem confirmEntry_eq_ok {path : String} {entry : Entry} {id : Uuid}
    (h : confirmEntry parse permanentOrigin path entry = .ok id) :
    id = entry.id ∧ ∀ text, entry.permanentUrl = some text →
    ∃ url, (parse text).bind BriefcaseFileUrl.new? = some url ∧
      relativePath permanentOrigin url = .ok path := by
  unfold confirmEntry at h
  split at h
  · next hnone =>
      refine ⟨(Except.ok.inj h).symm, fun text htext => ?_⟩
      cases hnone.symm.trans htext
  · next listed hlisted =>
      split at h
      · cases h
      · next url hurl =>
          split at h
          · cases h
          · next listedPath hpath =>
              split at h
              · cases h
              · next hsame =>
                  refine ⟨(Except.ok.inj h).symm, fun text htext => ⟨url, ?_, ?_⟩⟩
                  · rw [← hurl, Option.some.inj (htext.symm.trans hlisted)]
                  · rw [hpath, not_not.mp hsame]

/-- A URL that is refused asks for nothing. -/
theorem runs_openFile_refused {file : BriefcaseFileUrl} {error : BriefcaseError}
    (h : relativePath permanentOrigin file = .error error) {probe : Bool}
    {tr : List (LookupExchange Response)}
    {result : Except BriefcaseError Response}
    (hrun : Runs (openFile proof requestId parse permanentOrigin file probe) tr result) :
    tr = [] ∧ result = .error error := by
  unfold openFile resolve at hrun
  rw [h] at hrun
  exact runs_done_iff.mp hrun

/-- **Reading a file**: the entry that is read is one that Briefcase listed as the live file of the
path that the URL names, under the caller's proof. -/
theorem runs_openFile {file : BriefcaseFileUrl} {owner named : List String}
    (hnames : NamesFile permanentOrigin file owner named) {probe : Bool}
    {tr : List (LookupExchange Response)}
    {result : Except BriefcaseError Response}
    (hrun : Runs (openFile proof requestId parse permanentOrigin file probe) tr result) :
    ∃ pages found, SearchRun (isFileAt ("/".intercalate named)) maxPages none [] pages found ∧
      ((∃ error, result = .error error ∧
        tr = pages.map (listExchange Response proof requestId (folderOf named))) ∨
        ∃ entry, found = .ok entry ∧ EntryAt parse permanentOrigin ("/".intercalate named) entry ∧
          tr = pages.map (listExchange Response proof requestId (folderOf named)) ++
            [⟨.read proof entry.id requestId probe, result⟩]) := by
  unfold openFile resolve at hrun
  rw [hnames.relativePath] at hrun
  simp only [parentPath_intercalate hnames.names.path_ne_nil hnames.noSlash] at hrun
  rcases runs_andThen_iff.mp hrun with ⟨error, hresolve, rfl⟩ | ⟨tr₁, id, tr₂, rfl, hresolve, hread⟩
  · rcases runs_andThen_iff.mp hresolve with ⟨other, hfind, _⟩ |
      ⟨tr₁, entry, tr₂, rfl, hfind, hdone⟩
    · obtain ⟨pages, rfl, hsearch⟩ := runs_find hfind
      exact ⟨pages, _, hsearch, .inl ⟨error, rfl, rfl⟩⟩
    · obtain ⟨pages, rfl, hsearch⟩ := runs_find hfind
      obtain ⟨rfl, _⟩ := runs_done_iff.mp hdone
      rw [List.append_nil]
      exact ⟨pages, _, hsearch, .inl ⟨error, rfl, rfl⟩⟩
  · rcases runs_andThen_iff.mp hresolve with ⟨other, _, hother⟩ |
      ⟨tr₃, entry, tr₄, rfl, hfind, hdone⟩
    · cases hother
    · obtain ⟨pages, rfl, hsearch⟩ := runs_find hfind
      obtain ⟨rfl, hid⟩ := runs_done_iff.mp hdone
      obtain ⟨rfl, hlisted⟩ := confirmEntry_eq_ok hid.symm
      obtain ⟨answer, tr₅, rfl, hanswered⟩ := runs_ask_iff.mp hread
      obtain ⟨rfl, rfl⟩ := runs_done_iff.mp hanswered
      obtain ⟨_, page, _, _, hmatch⟩ := hsearch.found entry rfl
      obtain ⟨⟨hsame, hfolder⟩, hlive⟩ :
          (entry.path = "/".intercalate named ∧ entry.isFolder = false) ∧ entry.isLive = true := by
        simpa [isFileAt] using hmatch
      refine ⟨pages, _, hsearch, .inr ⟨entry, rfl, ⟨hsame, hfolder, hlive, hlisted⟩, ?_⟩⟩
      rw [List.append_nil]

/-- **Looking a file up**: the path that is read is the one the URL names after its owner part, in
the drive of the proof; URLs are told apart by these segments and by nothing else; a search is
bounded, asks for no cursor twice, and does not find a file only after its last page or where
Briefcase said so. -/
theorem lookup_reads_named_file :
    (∀ file path, relativePath permanentOrigin file = .ok path ↔
      ∃ owner named, NamesFile permanentOrigin file owner named ∧ path = "/".intercalate named) ∧
    (∀ file file' owner owner' named named', NamesFile permanentOrigin file owner named →
      NamesFile permanentOrigin file' owner' named' →
        (relativePath permanentOrigin file = relativePath permanentOrigin file' ↔ named = named')) ∧
    (∀ path isMatch tr result, Runs (@find Response proof requestId path isMatch) tr result →
      ∃ pages, tr = pages.map (listExchange Response proof requestId path) ∧
        SearchRun isMatch maxPages none [] pages result) ∧
    ∀ file owner named, NamesFile permanentOrigin file owner named →
      ∀ probe tr (result : Except BriefcaseError Response),
      Runs (openFile proof requestId parse permanentOrigin file probe) tr result →
        ∃ pages found, SearchRun (isFileAt ("/".intercalate named)) maxPages none [] pages found ∧
          ((∃ error, result = .error error ∧
            tr = pages.map (listExchange Response proof requestId (folderOf named))) ∨
            ∃ entry, found = .ok entry ∧
              EntryAt parse permanentOrigin ("/".intercalate named) entry ∧
              tr = pages.map (listExchange Response proof requestId (folderOf named)) ++
                [⟨.read proof entry.id requestId probe, result⟩]) :=
  ⟨fun _ _ => relativePath_eq_ok_iff, fun _ _ _ _ _ _ => relativePath_eq_iff,
    fun _ _ _ _ => runs_find,
    fun _ _ _ hnames _ _ _ => runs_openFile hnames⟩

end Reading

/-! ## The owner in a URL -/

/-- Permanent URLs of the sample deployment. -/
def sampleOrigin : Origin := ("https", some (.domain "files"), 443)

/-- The permanent URL of a file at the top of the drive of `owner`. -/
def sampleFile (owner : String) : BriefcaseFileUrl :=
  ⟨⟨"https", "", none, some (.domain "files"), none, "/" ++ owner ++ "/x", none, none⟩, rfl⟩

/-- The file as Briefcase lists it. -/
def sampleEntry : Entry := ⟨7, "file", "x", none, none⟩

/-- The proof of the account that asks. -/
def sampleProof : BriefcaseProof := ⟨⟨"sap_1", proofTokenValid_sap1⟩, 0⟩

def sampleRequestId : RequestId := ⟨1, Uuid.one_ne_nil⟩

/-- A text of these letters is read as it stands. -/
theorem namesFile_sample {owner : String}
    (hsegments : pathSegments (sampleFile owner).url = some [owner, "x"])
    (hpercent : PercentEncoding.percent ∉ utf8 owner) (hplain : PlainSegment owner)
    (howner : owner ≠ "org") :
    NamesFile sampleOrigin (sampleFile owner) [owner] ["x"] where
  origin := rfl
  decoded := by
    have hname : decodeSegment "x" = some "x" := decodeSegment_of_noPercent (by decide)
    unfold decodedSegments
    rw [hsegments, Option.bind_some, List.mapM_cons, decodeSegment_of_noPercent hpercent,
      List.mapM_cons, hname]
    rfl
  plain := by
    refine List.forall_mem_cons.mpr ⟨hplain, List.forall_mem_singleton.mpr ?_⟩
    exact refusedSegment_eq_false_iff.mp (by decide)
  names := .account owner "x" [] fun h => absurd h howner

theorem namesFile_mine : NamesFile sampleOrigin (sampleFile "me") ["me"] ["x"] :=
  namesFile_sample (by decide) (by decide) (refusedSegment_eq_false_iff.mp (by decide)) (by decide)

theorem namesFile_yours : NamesFile sampleOrigin (sampleFile "you") ["you"] ["x"] :=
  namesFile_sample (by decide) (by decide) (refusedSegment_eq_false_iff.mp (by decide)) (by decide)

/-- A lookup of the file, whoever its URL names. -/
theorem runs_resolve_sample {file : BriefcaseFileUrl} {owner : List String}
    (hnames : NamesFile sampleOrigin file owner ["x"]) :
    Runs (@resolve Unit sampleProof sampleRequestId (fun _ => none) sampleOrigin file)
      [⟨.list sampleProof none none sampleRequestId, .ok ⟨[sampleEntry], none⟩⟩] (.ok 7) := by
  have hpath : relativePath sampleOrigin file = .ok "x" := hnames.relativePath
  have hfound : sampleEntry.path = "x" ∧ isFileAt "x" sampleEntry = true := ⟨rfl, by decide⟩
  unfold resolve
  rw [hpath]
  refine runs_andThen_iff.mpr (.inr ⟨_, sampleEntry, [], (List.append_nil _).symm, ?_, .done _⟩)
  refine runs_ask_iff.mpr ⟨.ok ⟨[sampleEntry], none⟩, [], ?_, ?_⟩
  · rfl
  · exact .done _

/-- **A URL that names another owner is read in the caller's drive**: one entry is read for both.
And a search that Briefcase answers with not-found has not seen every page. -/
theorem owner_not_told_apart :
    (¬ ∀ (file file' : BriefcaseFileUrl) (owner owner' named named' : List String) (id : Uuid)
        (tr tr' : List (LookupExchange Unit)), NamesFile sampleOrigin file owner named →
      NamesFile sampleOrigin file' owner' named' → owner ≠ owner' →
      Runs (resolve sampleProof sampleRequestId (fun _ => none) sampleOrigin file) tr (.ok id) →
      ¬ Runs (resolve sampleProof sampleRequestId (fun _ => none) sampleOrigin file')
        tr' (.ok id)) ∧
    ¬ ∀ (isMatch : Entry → Bool) (tr : List (LookupExchange Unit)),
      Runs (find sampleProof sampleRequestId none isMatch) tr (.error .notFound) →
        ∃ pages, tr = pages.map (listExchange Unit sampleProof sampleRequestId none) ∧
          Inspected isMatch none pages := by
  refine ⟨fun h => ?_, fun h => ?_⟩
  · exact h _ _ _ _ _ _ _ _ _ namesFile_mine namesFile_yours (by decide)
      (runs_resolve_sample namesFile_mine)
      (runs_resolve_sample namesFile_yours)
  · have hrun : Runs (@find Unit sampleProof sampleRequestId none fun _ => false)
        [⟨.list sampleProof none none sampleRequestId, .error .notFound⟩] (.error .notFound) :=
      runs_ask_iff.mpr ⟨.error .notFound, [], rfl, .done _⟩
    obtain ⟨pages, hpages, hinspected⟩ := h _ _ hrun
    cases hinspected with
    | last hnone hlast => cases hpages
    | next hnone hnext hrest => cases hpages

/-- Two owners' URLs, and one path. -/
theorem lookup_reads_named_file_sample :
    relativePath sampleOrigin (sampleFile "me") = relativePath sampleOrigin (sampleFile "you") :=
  ((@lookup_reads_named_file Unit sampleProof sampleRequestId (fun _ => none) sampleOrigin).2.1
    _ _ _ _ _ _ namesFile_mine
    namesFile_yours).mpr rfl

end Waveform.Briefcase
