import Waveform.Providers.Gemini

/-!
# What becomes of the uploaded file

From the end of the upload on, the guard holds the file's name, and its `Drop` hands the deletion to
a spawned task. `run_until` takes the name out of the guard first, and waits for the deletion then.

- `ends_runUntil`: how the cleanup ends.
- `ends_finish`: how the rest of an attempt ends, once the file is uploaded.
- `cleanup_settled_iff`: the deletion is settled unless the attempt is dropped while it waits for
  it.
- `cleanup_abandoned`: a run that is dropped there.
-/

set_option autoImplicit false

namespace Waveform.Providers

open Dialogue Deadlines
open Domain (SttProviderRequest)

/-- What an attempt does apart from its cleanup, and the guard. -/
def ProviderOp.isQuiet : ProviderOp GeminiRequest → Bool
  | .exchange (.deleteFile _ _) => false
  | .spawnCleanup _ => false
  | .logCleanupFailure _ => false
  | _ => true

/-- The guard gets a name, or it is taken. -/
def ProviderOp.isHold : ProviderOp GeminiRequest → Bool
  | .hold _ => true
  | _ => false

/-- The work of an attempt. -/
def IsWork (op : ProviderOp GeminiRequest) : Prop := op.isQuiet = true ∧ op.isHold = false

/-- The file name that the guard holds after exchanges. -/
def guardHolds (tr : GeminiTrace) : Option String :=
  tr.foldl (fun held e => match e.query.op with
    | .hold name => name
    | _ => held) none

/-- The name that `upload_file` returned: the guard is made of it. -/
def uploadedName (tr : GeminiTrace) : Option String :=
  tr.findSome? fun e => match e.query.op with
    | .hold name => name
    | _ => none

/-- An operation is run to its answer, or to its own timeout, the innermost of its deadlines. -/
def RanOut {c : Call (ProviderOp GeminiRequest)} (reply : Reply ProviderAnswer c) : Prop :=
  match reply with
  | .done _ => True
  | .elapsed level => level.val = 0

namespace GeminiProvider

variable (provider : GeminiProvider)

/-- The request that deletes the file of that name. -/
def Deletes (name : String) (op : ProviderOp GeminiRequest) : Prop :=
  ∃ url, provider.url ("v1beta/" ++ name) = .ok url ∧
    op = .exchange (.deleteFile url provider.apiKey)

/-- `delete_file` answers at once, with an error: there is no request for that name. -/
def Refuses (name : String) : Prop := ∃ error, provider.deleteFile name = .done (.error error)

/-- The request that deletes the file was run to its answer or its own timeout. -/
def Deleted (name : String) (tr : GeminiTrace) : Prop :=
  ∃ e ∈ tr, provider.Deletes name e.query.op ∧ RanOut e.answer.reply

/-- The deletion of the file is settled at the end of a run: `delete_file` was run to its answer or
its own timeout, or the deletion was handed to a spawned task, at once or by the `Drop` of the guard
that holds the name still. As the server does, the request runs and is dropped in a runtime, which
takes the task. -/
inductive Settled (name : String) (tr : GeminiTrace) (ending : GeminiEnding) : Prop where
  | deleted (h : provider.Deleted name tr)
  | refused (h : provider.Refuses name)
      (hlogged : ∃ e ∈ tr, ∃ kind, e.query.op = .logCleanupFailure kind)
  | spawned (h : ∃ e ∈ tr, e.query.op = .spawnCleanup name)
  | guarded {waiting : Call (ProviderOp GeminiRequest)} (hdropped : ending = .dropped waiting)
      (hguard : guardHolds tr = some name)

end GeminiProvider

section Cleanup

variable {provider : GeminiProvider} {name : String} {deadline : Nat} {tr : GeminiTrace}

/-! ## The deletion -/

/-- `delete_file` answers at once, or it is the one request. -/
theorem deleteFile_cases (provider : GeminiProvider) (name : String) :
    provider.Refuses name ∨ ∃ url, provider.url ("v1beta/" ++ name) = .ok url ∧
      provider.deleteFile name =
        (executeWithoutRetry provider.sttHttp (.deleteFile url provider.apiKey)).andThen
        fun _ => .done (.ok ()) := by
  by_cases hvalid : validFileName name = true
  · cases hurl : provider.url ("v1beta/" ++ name) with
    | error error =>
        refine .inl ⟨error, ?_⟩
        rw [GeminiProvider.deleteFile, if_pos hvalid, GeminiProvider.withUrl, hurl]
    | ok url =>
        refine .inr ⟨url, rfl, ?_⟩
        rw [GeminiProvider.deleteFile, if_pos hvalid, GeminiProvider.withUrl_ok hurl]
  · refine .inl ⟨.invalidResponse, ?_⟩
    rw [GeminiProvider.deleteFile, if_neg hvalid]

/-- The one request of `delete_file`, under the deadline of the attempt. -/
theorem ends_deletion {url : Domain.Url}
    {ending : Ending (Call (ProviderOp GeminiRequest)) (Option (Except ProviderError Unit))}
    (h : Ends (timeoutAt deadline
      ((executeWithoutRetry provider.sttHttp (.deleteFile url provider.apiKey)).andThen
      fun _ => .done (.ok ()))) tr ending)
    (hdrop : ∀ c, ending = .dropped c → c.op.awaited = true) :
    (∃ c, ending = .dropped c ∧ c.op = .exchange (.deleteFile url provider.apiKey) ∧
      ∀ e ∈ tr, e.query.op = .now) ∨
      (∃ result, ending = .finished (some result) ∧
        ∃ e ∈ tr, e.query.op = .exchange (.deleteFile url provider.apiKey) ∧
          RanOut e.answer.reply) ∨
      ending = .finished none := by
  cases h with
  | dropped => exact absurd (hdrop _ rfl) Bool.false_ne_true
  | answered answer hrest =>
      obtain ⟨reply, ended⟩ := answer
      cases reply with
      | elapsed level =>
          cases hrest
          exact .inr (.inr rfl)
      | done now =>
          cases hrest with
          | dropped => exact .inl ⟨_, rfl, rfl, List.forall_mem_singleton.mpr rfl⟩
          | answered answer hrest =>
              obtain ⟨reply, answered⟩ := answer
              cases reply with
              | done answer =>
                  cases answer with
                  | ok response =>
                      cases hrest
                      exact .inr (.inl ⟨_, rfl, _, List.mem_cons_of_mem _ List.mem_cons_self,
                        rfl, trivial⟩)
                  | error failed =>
                      cases hrest
                      exact .inr (.inl ⟨_, rfl, _, List.mem_cons_of_mem _ List.mem_cons_self,
                        rfl, trivial⟩)
              | elapsed level =>
                  obtain ⟨level, hlevel⟩ := level
                  -- its own timeout is the innermost deadline, that of the attempt is the other one
                  cases level with
                  | zero =>
                      cases hrest
                      exact .inr (.inl ⟨_, rfl, _, List.mem_cons_of_mem _ List.mem_cons_self, rfl,
                        rfl⟩)
                  | succ level =>
                      cases hrest
                      exact .inr (.inr rfl)

/-- The deletion as a whole. -/
theorem ends_deleteFile {ending : Ending (Call (ProviderOp GeminiRequest))
    (Option (Except ProviderError Unit))}
    (h : Ends (timeoutAt deadline (provider.deleteFile name)) tr ending)
    (hdrop : ∀ c, ending = .dropped c → c.op.awaited = true) :
    (∃ c, ending = .dropped c ∧ provider.Deletes name c.op ∧ ∀ e ∈ tr, e.query.op = .now) ∨
      (∃ result, ending = .finished (some result) ∧ provider.Deleted name tr) ∨
      (∃ error, ending = .finished (some (.error error)) ∧ provider.Refuses name) ∨
      ending = .finished none := by
  rcases deleteFile_cases provider name with ⟨error, herror⟩ | ⟨url, hurl, hdelete⟩
  · rw [herror] at h
    cases h
    exact .inr (.inr (.inl ⟨error, rfl, error, herror⟩))
  · rw [hdelete] at h
    rcases ends_deletion h hdrop with ⟨c, hending, hop, hnow⟩ |
      ⟨result, hending, e, he, hop, hran⟩ | hending
    · exact .inl ⟨c, hending, ⟨url, hurl, hop⟩, hnow⟩
    · exact .inr (.inl ⟨result, hending, e, he, ⟨url, hurl, hop⟩, hran⟩)
    · exact .inr (.inr (.inr hending))

/-- The deletion came to its end, or was handed over, in the exchanges of a cleanup. -/
def CleanedUp (provider : GeminiProvider) (name : String) (tr : GeminiTrace) : Prop :=
  provider.Deleted name tr ∨
  (provider.Refuses name ∧ ∃ e ∈ tr, ∃ kind, e.query.op = .logCleanupFailure kind) ∨
    ∃ e ∈ tr, e.query.op = .spawnCleanup name

theorem CleanedUp.append_left {rest : GeminiTrace} (h : CleanedUp provider name rest)
    (tr : GeminiTrace) :
    CleanedUp provider name (tr ++ rest) := by
  rcases h with ⟨e, he, hdeleted⟩ | ⟨hrefuses, e, he, hlog⟩ | ⟨e, he, hspawn⟩
  · exact .inl ⟨e, List.mem_append_right tr he, hdeleted⟩
  · exact .inr (.inl ⟨hrefuses, e, List.mem_append_right tr he, hlog⟩)
  · exact .inr (.inr ⟨e, List.mem_append_right tr he, hspawn⟩)

/-- One operation that is not waited for is answered. -/
theorem ends_perform {op : ProviderOp GeminiRequest}
    {ending : Ending (Call (ProviderOp GeminiRequest)) (ProviderAnswer op)}
    (h : Ends (perform op : GeminiProgram (ProviderAnswer op)) tr ending) (hop : op.awaited = false)
    (hdrop : ∀ c, ending = .dropped c → c.op.awaited = true) :
    ∃ e, tr = [e] ∧ e.query.op = op ∧ ∃ answer, ending = .finished answer := by
  cases h with
  | dropped => exact absurd ((hdrop _ rfl).symm.trans hop) (by decide)
  | answered answer hrest =>
      obtain ⟨reply, ended⟩ := answer
      cases reply with
      | elapsed level => exact level.elim0
      | done own =>
          cases hrest
          exact ⟨_, rfl, rfl, own, rfl⟩

/-- What follows the deletion: a failure is logged, and what the deadline ended is handed over. -/
theorem ends_afterDeletion {result : Option (Except ProviderError Unit)}
    {ending : Ending (Call (ProviderOp GeminiRequest)) Unit}
    (h : Ends (GeminiProvider.afterDeletion name result) tr ending)
    (hdrop : ∀ c, ending = .dropped c → c.op.awaited = true) :
    ending = .finished () ∧
      (∀ error, result = some (.error error) →
        ∃ e ∈ tr, ∃ kind, e.query.op = .logCleanupFailure kind) ∧
      (result = none → ∃ e ∈ tr, e.query.op = .spawnCleanup name) := by
  match result with
  | some (.ok _) =>
      cases h
      exact ⟨rfl, fun error herror => (nomatch herror), fun hnone => nomatch hnone⟩
  | some (.error error) =>
      obtain ⟨e, rfl, hop, answer, rfl⟩ := ends_perform h rfl hdrop
      exact ⟨rfl, fun _ _ => ⟨e, List.mem_cons_self, _, hop⟩, fun hnone => nomatch hnone⟩
  | none =>
      rcases ends_perform_bind.mp h with ⟨rfl, rfl⟩ | ⟨_, logged, rest, rfl, hspawn⟩
      · exact absurd (hdrop _ rfl) Bool.false_ne_true
      · obtain ⟨e, rfl, hop, answer, rfl⟩ := ends_perform hspawn rfl hdrop
        exact ⟨rfl, fun error herror => (nomatch herror),
          fun _ => ⟨e, List.mem_cons_of_mem _ List.mem_cons_self, hop⟩⟩

/-- The deletion and what follows it. -/
theorem ends_deletionUntil {ending : Ending (Call (ProviderOp GeminiRequest)) Unit}
    (h : Ends ((timeoutAt deadline (provider.deleteFile name)).bind
      (GeminiProvider.afterDeletion name)) tr ending)
    (hdrop : ∀ c, ending = .dropped c → c.op.awaited = true) :
    (∃ c, ending = .dropped c ∧ provider.Deletes name c.op ∧ ∀ e ∈ tr, e.query.op = .now) ∨
      ending = .finished () ∧ CleanedUp provider name tr := by
  rcases ends_bind_iff.mp h with ⟨c, rfl, hdelete⟩ | ⟨result, tr₁, tr₂, rfl, hdelete, hlast⟩
  · rcases ends_deleteFile hdelete (fun _ hc => hdrop _ (by cases hc; rfl)) with
      ⟨c', hc, hdeletes, hnow⟩ | ⟨_, hfinished, -⟩ | ⟨_, hfinished, -⟩ | hfinished
    · cases hc
      exact .inl ⟨c, rfl, hdeletes, hnow⟩
    · cases hfinished
    · cases hfinished
    · cases hfinished
  · obtain ⟨rfl, hlogged, hspawned⟩ := ends_afterDeletion hlast hdrop
    refine .inr ⟨rfl, ?_⟩
    rcases ends_deleteFile hdelete (fun _ hc => nomatch hc) with
      ⟨_, hdropped, -⟩ | ⟨_, -, e, he, hdeleted⟩ | ⟨error, hfinished, hrefuses⟩ | hfinished
    · cases hdropped
    · exact .inl ⟨e, List.mem_append_left _ he, hdeleted⟩
    · cases hfinished
      exact CleanedUp.append_left (.inr (.inl ⟨hrefuses, hlogged error rfl⟩)) tr₁
    · cases hfinished
      exact CleanedUp.append_left (.inr (.inr (hspawned rfl))) tr₁

/-- **How the cleanup ends.** The guard's name is taken first. The cleanup is dropped while it waits
for the deletion, or it is over and the deletion is settled. -/
theorem ends_runUntil {ending : Ending (Call (ProviderOp GeminiRequest)) Unit}
    (h : Ends (provider.runUntil name deadline) tr ending)
    (hdrop : ∀ c, ending = .dropped c → c.op.awaited = true) :
    ∃ e rest, tr = e :: rest ∧ e.query.op = .hold none ∧
      ((∃ c, ending = .dropped c ∧ provider.Deletes name c.op ∧ ∀ e ∈ rest, e.query.op = .now) ∨
        ending = .finished () ∧ CleanedUp provider name rest) := by
  rcases ends_perform_bind.mp h with ⟨rfl, rfl⟩ | ⟨_, taken, rest, rfl, hclock⟩
  · exact absurd (hdrop _ rfl) Bool.false_ne_true
  refine ⟨_, rest, rfl, rfl, ?_⟩
  rcases ends_perform_bind.mp hclock with ⟨rfl, rfl⟩ | ⟨now, read, rest, rfl, hdecided⟩
  · exact absurd (hdrop _ rfl) Bool.false_ne_true
  by_cases hlate : deadline ≤ now
  · rw [if_pos hlate] at hdecided
    obtain ⟨e, rfl, hop, answer, rfl⟩ := ends_perform hdecided rfl hdrop
    exact .inr ⟨rfl, .inr (.inr ⟨e, List.mem_cons_of_mem _ List.mem_cons_self, hop⟩)⟩
  · rw [if_neg hlate] at hdecided
    rcases ends_deletionUntil hdecided hdrop with ⟨c, hending, hdeletes, hnow⟩ | ⟨hending, hcleaned⟩
    · exact .inl ⟨c, hending, hdeletes, List.forall_mem_cons.mpr ⟨rfl, hnow⟩⟩
    · exact .inr ⟨hending, hcleaned.append_left [_]⟩

/-! ## The work -/

theorem isWork_exchange {request : GeminiRequest}
    (h : ∀ url apiKey, request ≠ .deleteFile url apiKey) :
    IsWork (.exchange request) := by
  cases request with
  | deleteFile url apiKey => exact absurd rfl (h url apiKey)
  | startUpload _ _ _ _ _ | finalizeUpload _ _ _ _ | pollFile _ _ | interact _ _ _ =>
      exact ⟨rfl, rfl⟩

theorem asks_withUrl {α : Type} {P : Call (ProviderOp GeminiRequest) → Prop} {endpoint : String}
    {f : Domain.Url → GeminiProgram (Except ProviderError α)} (h : ∀ url, Asks P (f url)) :
    Asks P (provider.withUrl endpoint f) := by
  unfold GeminiProvider.withUrl
  cases provider.url endpoint with
  | ok url => exact h url
  | error error => trivial

/-- The upload is work. -/
theorem asks_uploadFile (request : SttProviderRequest) : Asks (fun c => IsWork c.op)
    (provider.uploadFile request) := by
  rw [GeminiProvider.uploadFile]
  refine asks_withUrl fun startUrl => ?_
  refine Asks.andThen (asks_executeWithoutRetry (isWork_exchange fun _ _ h => nomatch h) ⟨rfl, rfl⟩)
    fun start => ?_
  cases provider.uploadUrl start with
  | none => trivial
  | some uploadUrl =>
      exact Asks.andThen (asks_executeWithoutRetry (isWork_exchange fun _ _ h => nomatch h)
        ⟨rfl, rfl⟩) fun _ => trivial

theorem asks_pollFile (file : GeminiFile) (consumed : Bool) :
    Asks (fun c => IsWork c.op) (provider.pollFile file consumed) := by
  refine Asks.bind (Asks.perform ⟨rfl, rfl⟩) fun _ => asks_withUrl fun url => ?_
  exact Asks.andThen (asks_executeWithRetryBudget (isWork_exchange fun _ _ h => nomatch h)
    ⟨rfl, rfl⟩ ⟨rfl, rfl⟩
    fun _ => ⟨rfl, rfl⟩) fun _ => trivial

theorem asks_waitUntilActive (rounds : Nat) (file : GeminiFile) (consumed : Bool) :
    Asks (fun c => IsWork c.op) (provider.waitUntilActive rounds file consumed) := by
  induction rounds generalizing file consumed with
  | zero => trivial
  | succ rounds ih =>
      rw [GeminiProvider.waitUntilActive]
      split
      · trivial
      · split
        · trivial
        · split
          · refine Asks.bind (asks_pollFile file consumed) fun polled => ?_
            cases polled with
            | ok polled => exact ih polled.1 polled.2
            | error error => trivial
          · trivial

/-- What is done with the file is work. -/
theorem asks_useFile (rounds : Nat) (file : GeminiFile) (language : Option String) :
    Asks (fun c => IsWork c.op) (provider.useFile rounds file language) := by
  refine Asks.bind (asks_waitUntilActive rounds file false) fun waited => ?_
  match waited with
  | none => trivial
  | some (.error error) => trivial
  | some (.ok (active, consumed)) =>
      refine Asks.bind ?_ fun _ => trivial
      rw [GeminiProvider.transcribeFile]
      refine asks_withUrl fun url => ?_
      exact Asks.andThen (asks_executeWithRetryBudget (isWork_exchange fun _ _ h => nomatch h)
        ⟨rfl, rfl⟩ ⟨rfl, rfl⟩
        fun _ => ⟨rfl, rfl⟩) fun _ => trivial

/-- What a deadline is set on is work still. -/
theorem work_of_ends {α : Type} {p : GeminiProgram α} (h : Asks (fun c => IsWork c.op) p)
    {ending : Ending (Call (ProviderOp GeminiRequest)) (Option α)}
    (hends : Ends (timeoutAt deadline p) tr ending) :
    ∀ c ∈ asked tr ending, IsWork c.op :=
  (Asks.timeoutAt (fun _ _ hwork => hwork) h).of_ends hends

/-! ## An attempt from the upload on -/

/-- The cleanup in its place: it is dropped where the attempt is. -/
theorem ends_runUntil_bind {result : Option (Except ProviderError Domain.SttProviderResult)}
    {ending : GeminiEnding}
    (h : Ends ((provider.runUntil name deadline).bind fun _ => .done result) tr ending)
    (hdrop : ∀ c, ending = .dropped c → c.op.awaited = true) :
    ∃ e rest, tr = e :: rest ∧ e.query.op = .hold none ∧
      ((∃ c, ending = .dropped c ∧ provider.Deletes name c.op ∧ ∀ e ∈ rest, e.query.op = .now) ∨
        ending = .finished result ∧ CleanedUp provider name rest) := by
  rcases ends_bind_iff.mp h with ⟨c, rfl, hdropped⟩ | ⟨_, tr₁, tr₂, rfl, hfinished, hdone⟩
  · obtain ⟨e, rest, rfl, hhold, hcases⟩ :=
      ends_runUntil hdropped fun _ hc => hdrop _ (by cases hc; rfl)
    refine ⟨e, rest, rfl, hhold, ?_⟩
    rcases hcases with ⟨c', hc, hdeletes, hnow⟩ | ⟨hfinished, -⟩
    · cases hc
      exact .inl ⟨c, rfl, hdeletes, hnow⟩
    · cases hfinished
  · cases hdone
    obtain ⟨e, rest, rfl, hhold, hcases⟩ := ends_runUntil hfinished fun _ hc => nomatch hc
    rw [List.append_nil]
    refine ⟨e, rest, rfl, hhold, ?_⟩
    rcases hcases with ⟨_, hdropped, -⟩ | ⟨-, hcleaned⟩
    · cases hdropped
    · exact .inr ⟨rfl, hcleaned⟩

/-- **How the rest of an attempt ends.** It is dropped while the guard holds the name, or while the
cleanup waits for the deletion, or the cleanup is over. -/
theorem ends_finish {rounds : Nat} {file : GeminiFile} {language : Option String}
    {ending : GeminiEnding}
    (h : Ends (provider.finish rounds file language deadline) tr ending)
    (hexit : ending ≠ .finished none) (hdrop : ∀ c, ending = .dropped c → c.op.awaited = true) :
    ∃ e work, e.query.op = .hold (some file.name) ∧ (∀ e ∈ work, IsWork e.query.op) ∧
      ((tr = e :: work ∧ ∃ c, ending = .dropped c ∧ IsWork c.op) ∨
        ∃ e' rest, tr = e :: (work ++ e' :: rest) ∧ e'.query.op = .hold none ∧
          ((∃ c, ending = .dropped c ∧ provider.Deletes file.name c.op ∧
            ∀ e ∈ rest, e.query.op = .now) ∨
            (∃ result, ending = .finished result) ∧ CleanedUp provider file.name rest)) := by
  rcases ends_perform_bind.mp h with ⟨rfl, rfl⟩ | ⟨_, held, rest, rfl, hrest⟩
  · exact absurd (hdrop _ rfl) Bool.false_ne_true
  rcases ends_bind_iff.mp hrest with ⟨c, rfl, hdropped⟩ |
    ⟨result, work, cleanup, rfl, hfinished, hcleanup⟩
  · have hwork := work_of_ends (asks_useFile rounds file language) hdropped
    have htrace : ∀ e ∈ rest, IsWork e.query.op := fun e he =>
      hwork e.query (List.mem_append_left _ (List.mem_map_of_mem he))
    exact ⟨_, rest, rfl, htrace,
      .inl ⟨rfl, c, rfl, hwork c (List.mem_append_right _ (List.mem_singleton_self c))⟩⟩
  · have hwork := work_of_ends (asks_useFile rounds file language) hfinished
    have htrace : ∀ e ∈ work, IsWork e.query.op :=
      fun e he => hwork e.query (List.mem_map_of_mem he)
    have hclean : ∃ result, Ends ((provider.runUntil file.name deadline).bind fun _ => .done result)
        cleanup ending := by
      match result with
      | some none =>
          cases hcleanup
          exact absurd rfl hexit
      | some (some result) => exact ⟨_, hcleanup⟩
      | none => exact ⟨_, hcleanup⟩
    obtain ⟨result, hclean⟩ := hclean
    obtain ⟨e', rest, rfl, hhold, hcases⟩ := ends_runUntil_bind hclean hdrop
    refine ⟨_, work, rfl, htrace, .inr ⟨e', rest, rfl, hhold, ?_⟩⟩
    rcases hcases with hdropped | ⟨hending, hcleaned⟩
    · exact .inl hdropped
    · exact .inr ⟨⟨result, hending⟩, hcleaned⟩

/-- Work gives the guard nothing. -/
theorem uploadedName_work {work : GeminiTrace} (h : ∀ e ∈ work, IsWork e.query.op)
    (tr : GeminiTrace) :
    uploadedName (work ++ tr) = uploadedName tr := by
  induction work with
  | nil => rfl
  | cons e work ih =>
      obtain ⟨⟨-, hhold⟩, hrest⟩ := List.forall_mem_cons.mp h
      obtain ⟨⟨op, bounds⟩, answer⟩ := e
      cases op with
      | hold name => cases hhold
      | acquire | now | jitter | exchange _ | sleep _ | spawnCleanup _ | logCleanupFailure _ =>
          exact ih hrest

theorem guardHolds_work {work : GeminiTrace} (h : ∀ e ∈ work, IsWork e.query.op)
    (tr : GeminiTrace) :
    guardHolds (tr ++ work) = guardHolds tr := by
  unfold guardHolds
  rw [List.foldl_append]
  generalize tr.foldl _ none = held
  induction work generalizing held with
  | nil => rfl
  | cons e work ih =>
      obtain ⟨⟨-, hhold⟩, hrest⟩ := List.forall_mem_cons.mp h
      obtain ⟨⟨op, bounds⟩, answer⟩ := e
      cases op with
      | hold name => cases hhold
      | acquire | now | jitter | exchange _ | sleep _ | spawnCleanup _ | logCleanupFailure _ =>
          exact ih hrest held

/-- A guard that gets a name, or loses it, holds that from there on. -/
theorem guardHolds_hold {e : Exchange (Call (ProviderOp GeminiRequest))
    (Deadlines.Answer ProviderAnswer)}
    {held : Option String} (he : e.query.op = .hold held) (tr : GeminiTrace) :
    guardHolds (tr ++ [e]) = held := by
  unfold guardHolds
  rw [List.foldl_append, List.foldl_cons, List.foldl_nil, he]

/-- An attempt whose upload returned a name: work, the guard, and the rest. -/
theorem ends_uploaded {rounds : Nat} {request : SttProviderRequest} {ending : GeminiEnding}
    (h : Ends (provider.transcribeMedia rounds request) tr ending)
    (hname : uploadedName tr = some name)
    (hexit : ending ≠ .finished none) (hdrop : ∀ c, ending = .dropped c → c.op.awaited = true) :
    ∃ before e work, e.query.op = .hold (some name) ∧ (∀ e ∈ before, IsWork e.query.op) ∧
      (∀ e ∈ work, IsWork e.query.op) ∧
      ((tr = before ++ e :: work ∧ ∃ c, ending = .dropped c ∧ IsWork c.op) ∨
        ∃ e' rest, tr = before ++ e :: (work ++ e' :: rest) ∧ e'.query.op = .hold none ∧
          ((∃ c, ending = .dropped c ∧ provider.Deletes name c.op ∧ ∀ e ∈ rest, e.query.op = .now) ∨
            (∃ result, ending = .finished result) ∧ CleanedUp provider name rest)) := by
  rcases ends_transcribeMedia h with ⟨htr, -⟩ | ⟨acquired, started, ended, rest, rfl, hattempt⟩
  · rcases htr with rfl | ⟨answer, rfl⟩ <;> cases hname
  have hnone : ∀ tr : GeminiTrace, (∀ e ∈ tr, IsWork e.query.op) → uploadedName tr = none :=
    fun tr hwork => by
    rw [← List.append_nil tr, uploadedName_work hwork]
    rfl
  change uploadedName rest = some name at hname
  rcases ends_bind_iff.mp hattempt with ⟨c, rfl, hdropped⟩ |
    ⟨uploaded, upload, finish, rfl, hfinished, hrest⟩
  · have hwork := work_of_ends (asks_uploadFile request) hdropped
    rw [hnone rest fun e he =>
      hwork e.query (List.mem_append_left _ (List.mem_map_of_mem he))] at hname
    cases hname
  · have hasked := work_of_ends (asks_uploadFile request) hfinished
    have hupload : ∀ e ∈ upload, IsWork e.query.op :=
      fun e he => hasked e.query (List.mem_map_of_mem he)
    rw [uploadedName_work hupload] at hname
    cases huploaded : orTimeout uploaded with
    | error error =>
        rw [huploaded] at hrest
        cases hrest
        cases hname
    | ok file =>
        rw [huploaded] at hrest
        obtain ⟨e, work, he, hwork, hcases⟩ := ends_finish hrest hexit hdrop
        have hfile : file.name = name := by
          rcases hcases with ⟨rfl, -⟩ | ⟨e', rest, rfl, -⟩
          · rw [uploadedName, List.findSome?_cons, he] at hname
            exact Option.some.inj hname
          · rw [uploadedName, List.findSome?_cons, he] at hname
            exact Option.some.inj hname
        subst hfile
        have hbefore : ∀ e ∈ (⟨⟨.acquire, []⟩, ⟨.done true, acquired⟩⟩ ::
          ⟨⟨.now, []⟩, ⟨.done started, ended⟩⟩ :: upload :
            GeminiTrace), IsWork e.query.op :=
          List.forall_mem_cons.mpr ⟨⟨rfl, rfl⟩, List.forall_mem_cons.mpr ⟨⟨rfl, rfl⟩, hupload⟩⟩
        refine ⟨_, e, work, he, hbefore, hwork, ?_⟩
        rcases hcases with ⟨rfl, hguarded⟩ | ⟨e', rest, rfl, hcleanup⟩
        · exact .inl ⟨rfl, hguarded⟩
        · exact .inr ⟨e', rest, rfl, hcleanup⟩

/-! ## What is settled -/

theorem not_work_of_deletes {op : ProviderOp GeminiRequest} (h : provider.Deletes name op) :
    ¬IsWork op := by
  obtain ⟨url, -, rfl⟩ := h
  exact fun hwork => Bool.false_ne_true hwork.1

/-- Where an attempt has done nothing but its work and the guard's, the guard alone can settle the
deletion. -/
theorem not_settled {ending : GeminiEnding} (hquiet : ∀ e ∈ tr, e.query.op.isQuiet = true)
    (hguard : guardHolds tr = none) : ¬provider.Settled name tr ending := by
  intro hsettled
  cases hsettled with
  | deleted h =>
      obtain ⟨e, he, ⟨url, -, hop⟩, -⟩ := h
      have hcontra := hquiet e he
      rw [hop] at hcontra
      cases hcontra
  | refused _ hlogged =>
      obtain ⟨e, he, kind, hop⟩ := hlogged
      have hcontra := hquiet e he
      rw [hop] at hcontra
      cases hcontra
  | spawned h =>
      obtain ⟨e, he, hop⟩ := h
      have hcontra := hquiet e he
      rw [hop] at hcontra
      cases hcontra
  | guarded _ hheld =>
      rw [hguard] at hheld
      cases hheld

/-- A cleanup that is over settles the deletion. -/
theorem CleanedUp.settled {rest : GeminiTrace} (h : CleanedUp provider name rest)
    (before : GeminiTrace)
    (ending : GeminiEnding) : provider.Settled name (before ++ rest) ending := by
  rcases h.append_left before with hdeleted | ⟨hrefuses, hlogged⟩ | hspawned
  · exact .deleted hdeleted
  · exact .refused hrefuses hlogged
  · exact .spawned hspawned

end Cleanup

/-- Uploaded media is cleaned up unless the attempt is dropped while it waits for the deletion. In
every run in which `upload_file` returned a name, and however it ends, by its result or by being
dropped where it waits, the deletion of that file was run to an answer or its own timeout, or handed
to a spawned task, if and only if the attempt was not dropped while it waited for the answer to the
request that deletes the file. A run whose rounds are used up is no end. -/
theorem cleanup_settled_iff (provider : GeminiProvider) (rounds : Nat)
    (request : SttProviderRequest) {tr : GeminiTrace}
    {ending : GeminiEnding} {name : String}
    (h : Ends (provider.transcribeMedia rounds request) tr ending)
    (hname : uploadedName tr = some name) (hexit : ending ≠ .finished none)
    (hdrop : ∀ c, ending = .dropped c → c.op.awaited = true) :
    provider.Settled name tr ending ↔ ¬∃ c, ending = .dropped c ∧ provider.Deletes name c.op := by
  obtain ⟨before, e, work, he, hbefore, hwork, hcases⟩ := ends_uploaded h hname hexit hdrop
  rcases hcases with ⟨rfl, c, rfl, hc⟩ |
    ⟨e', rest, rfl, he', ⟨c, rfl, hdeletes, hnow⟩ | ⟨⟨result, rfl⟩, hcleaned⟩⟩
  · constructor
    · rintro - ⟨c', hc', hdeletes⟩
      cases hc'
      exact not_work_of_deletes hdeletes hc
    · intro _
      refine .guarded rfl ?_
      rw [List.append_cons, guardHolds_work hwork, guardHolds_hold he]
  · constructor
    · intro hsettled
      have hrest : ∀ e ∈ rest, IsWork e.query.op := fun e he => by
        rw [hnow e he]
        exact ⟨rfl, rfl⟩
      have hsplit : before ++ e :: (work ++ e' :: rest) = (before ++ e :: work ++ [e']) ++
          rest := by
        simp only [List.append_assoc, List.cons_append, List.nil_append]
      refine absurd hsettled (not_settled ?_ ?_)
      · refine List.forall_mem_append.mpr ⟨fun e he => (hbefore e he).1,
          List.forall_mem_cons.mpr ⟨?_, ?_⟩⟩
        · rw [he]
          rfl
        · refine List.forall_mem_append.mpr ⟨fun e he => (hwork e he).1,
            List.forall_mem_cons.mpr ⟨?_, ?_⟩⟩
          · rw [he']
            rfl
          · exact fun e he => (hrest e he).1
      · rw [hsplit, guardHolds_work hrest, guardHolds_hold he']
    · intro hnot
      exact absurd ⟨c, rfl, hdeletes⟩ hnot
  · constructor
    · rintro - ⟨c, hc, -⟩
      cases hc
    · intro _
      have hsplit : before ++ e :: (work ++ e' :: rest) = (before ++ e :: (work ++ [e'])) ++
          rest := by
        simp only [List.append_assoc, List.cons_append, List.nil_append]
      rw [hsplit]
      exact hcleaned.settled _ _

/-! ## A run that is dropped -/

section Dropped

variable {provider : GeminiProvider}

/-- An exchange under the deadline of the attempt that is answered. -/
theorem ends_executeWithoutRetry (config : ProviderHttpConfig) (request : GeminiRequest)
    (response : BoundedResponse)
    (deadline : Nat) :
    ∃ tr : GeminiTrace, Ends (timeoutAt deadline (executeWithoutRetry config request)) tr
        (.finished (some (.ok response))) ∧ ∀ e ∈ tr, e.query.op = .now ∨
        e.query.op = .exchange request :=
  ⟨[⟨⟨.now, [deadline]⟩, ⟨.done (0 : Nat), 0⟩⟩,
    ⟨⟨.exchange request, [0 + config.timeout, deadline]⟩,
    ⟨.done (.ok response), 0⟩⟩], .answered _ (.answered _ (.finished _)), by simp⟩

/-- The upload returns the file that is read out of an answer. -/
theorem ends_uploadFile {request : SttProviderRequest} {url target : Domain.Url}
    {start : BoundedResponse}
    {file : GeminiFile} (uploaded : BoundedResponse) (deadline : Nat)
    (hurl : provider.url "upload/v1beta/files" = .ok url)
    (htarget : provider.uploadUrl start = some target)
    (hfile : readFile (provider.text.parseFileEnvelope uploaded.body) = .ok file) :
    ∃ tr : GeminiTrace, Ends (timeoutAt deadline (provider.uploadFile request)) tr
      (.finished (some (.ok file))) := by
  rw [GeminiProvider.uploadFile, GeminiProvider.withUrl_ok hurl, Dialogue.andThen, timeoutAt_bind]
  obtain ⟨tr₁, hstart, -⟩ :=
    ends_executeWithoutRetry provider.sttHttp (.startUpload url provider.apiKey
    (toString request.media.bytes.length) (asMimeStr request.media.mediaType)
    (mediaFilename request.media.mediaType))
    start deadline
  obtain ⟨tr₂, hfinalize, -⟩ := ends_executeWithoutRetry provider.sttHttp (.finalizeUpload target
    (toString request.media.bytes.length) (asMimeStr request.media.mediaType) request.media.bytes)
      uploaded deadline
  refine ⟨tr₁ ++ (tr₂ ++ []), ends_bind_iff.mpr (.inr ⟨_, _, _, rfl, hstart, ?_⟩)⟩
  simp only [Option.elim, htarget]
  rw [Dialogue.andThen, timeoutAt_bind]
  refine ends_bind_iff.mpr (.inr ⟨_, _, _, rfl, hfinalize, ?_⟩)
  simp only [Option.elim, hfile]
  exact .finished _

/-- The cleanup comes to wait for the deletion, and is dropped there. -/
theorem ends_runUntil_dropped {name : String} {url : Domain.Url} (deadline : Nat)
    (hvalid : validFileName name = true)
    (hurl : provider.url ("v1beta/" ++ name) = .ok url) (hdeadline : 0 < deadline) :
    Ends (provider.runUntil name deadline)
      [⟨⟨.hold none, []⟩, ⟨.done (), 0⟩⟩, ⟨⟨.now, []⟩, ⟨.done (0 : Nat), 0⟩⟩,
        ⟨⟨.now, [deadline]⟩, ⟨.done (0 : Nat), 0⟩⟩]
      (.dropped ⟨.exchange (.deleteFile url provider.apiKey),
        [0 + provider.sttHttp.timeout, deadline]⟩) := by
  refine ends_perform_bind.mpr (.inr ⟨(), 0, _, rfl, ?_⟩)
  refine ends_perform_bind.mpr (.inr ⟨(0 : Nat), 0, _, rfl, ?_⟩)
  rw [if_neg (Nat.not_le_of_lt hdeadline), GeminiProvider.deleteFile, if_pos hvalid,
    GeminiProvider.withUrl_ok hurl]
  exact .answered _ (.dropped _ _)

/-- The deadline has passed when the cleanup begins. -/
theorem ends_runUntil_late (name : String) (deadline : Nat) :
    Ends (provider.runUntil name deadline)
      [⟨⟨.hold none, []⟩, ⟨.done (), 0⟩⟩, ⟨⟨.now, []⟩, ⟨.done deadline, 0⟩⟩,
        ⟨⟨.spawnCleanup name, []⟩, ⟨.done (), 0⟩⟩]
      (.finished ()) := by
  refine ends_perform_bind.mpr (.inr ⟨(), 0, _, rfl, ?_⟩)
  refine ends_perform_bind.mpr (.inr ⟨deadline, 0, _, rfl, ?_⟩)
  rw [if_pos (Nat.le_refl deadline)]
  exact .answered _ (.finished _)

/-- The result of an attempt whose file failed. -/
def fileFailed : Option (Except ProviderError Domain.SttProviderResult) :=
  some (.error (.new .rejected))

/-- A file that failed is cleaned up at once. -/
theorem ends_finish_failed {rounds : Nat} {file : GeminiFile} {language : Option String}
    {deadline : Nat}
    {tr : GeminiTrace} {ending : GeminiEnding} (hstate : file.state = "FAILED")
    (hcleanup : Ends ((provider.runUntil file.name deadline).bind fun _ => .done fileFailed)
      tr ending) :
    Ends (provider.finish (rounds + 1) file language deadline)
    (⟨⟨.hold (some file.name), []⟩, ⟨.done (), 0⟩⟩ :: tr)
      ending := by
  have hactive : ¬file.state = "ACTIVE" := by
    rw [hstate]
    decide
  have huse : provider.useFile (rounds + 1) file language = .done fileFailed := by
    rw [GeminiProvider.useFile, GeminiProvider.waitUntilActive, if_neg hactive, if_pos hstate]
    rfl
  refine ends_perform_bind.mpr (.inr ⟨(), 0, tr, rfl, ?_⟩)
  rw [huse]
  exact hcleanup

end Dropped

/-- What the provider of the samples answers to the upload: a file that failed. -/
def sampleFile : GeminiFile := ⟨"files/a", "u", "audio/mpeg", "FAILED"⟩

/-- The upload of the sample. -/
theorem ends_sampleUpload : ∃ upload : GeminiTrace, (∀ e ∈ upload, IsWork e.query.op) ∧
    Ends (timeoutAt (0 + sampleGemini.sttHttp.timeout)
      (sampleGemini.uploadFile sampleTranscription)) upload
      (.finished (some (.ok sampleFile))) := by
  obtain ⟨url, hurl⟩ := @sampleGemini_url "upload/v1beta/files" (by decide +kernel)
  have htarget : sampleGemini.uploadUrl ⟨some "https://gemini.test/u", []⟩ =
      some ⟨"https", "", none, some (.domain "gemini.test"), none, "/u", none, none⟩ := by
        decide +kernel
  have hfile : readFile (sampleGemini.text.parseFileEnvelope sampleFileBody) = .ok sampleFile := by
    rw [sampleGemini_file, readFile, validateFile, if_neg (by decide)]
    rfl
  obtain ⟨upload, hends⟩ := ends_uploadFile ⟨none, sampleFileBody⟩
    (0 + sampleGemini.sttHttp.timeout) hurl htarget hfile
  exact ⟨upload, fun e he => work_of_ends (asks_uploadFile sampleTranscription) hends e.query
    (List.mem_map_of_mem he),
    hends⟩

/-- An attempt of the sample, by its cleanup. -/
theorem ends_sampleAttempt {upload cleanup : GeminiTrace} {ending : GeminiEnding}
    (hupload : Ends (timeoutAt (0 + sampleGemini.sttHttp.timeout)
      (sampleGemini.uploadFile sampleTranscription)) upload
      (.finished (some (.ok sampleFile))))
    (hcleanup : Ends ((sampleGemini.runUntil "files/a" (0 + sampleGemini.sttHttp.timeout)).bind
      fun _ =>
      .done fileFailed) cleanup ending) :
    Ends (sampleGemini.transcribeMedia 6 sampleTranscription)
      (⟨⟨.acquire, []⟩, ⟨.done true, 0⟩⟩ :: ⟨⟨.now, []⟩, ⟨.done (0 : Nat), 0⟩⟩ ::
        (upload ++ ⟨⟨.hold (some "files/a"), []⟩, ⟨.done (), 0⟩⟩ :: cleanup)) ending := by
  refine ends_transcribeMedia_of_attempt (by decide) ?_
  refine ends_bind_iff.mpr (.inr ⟨_, upload, _, rfl, hupload, ?_⟩)
  exact ends_finish_failed rfl hcleanup

/-- The deadline has passed when the cleanup begins. -/
theorem cleanup_settled_iff_sample :
    ∃ (tr : GeminiTrace) (ending : GeminiEnding),
      Ends (sampleGemini.transcribeMedia 6 sampleTranscription) tr ending ∧
      uploadedName tr = some "files/a" ∧ sampleGemini.Settled "files/a" tr ending := by
  obtain ⟨upload, hwork, hupload⟩ := ends_sampleUpload
  have hlate : Ends (sampleGemini.runUntil "files/a" (0 + sampleGemini.sttHttp.timeout)) _ _ :=
    ends_runUntil_late "files/a" _
  have hcleanup := ends_bind_iff (f := fun _ => .done fileFailed) |>.mpr
    (.inr ⟨(), _, [], (List.append_nil _).symm, hlate, .finished _⟩)
  have hends := ends_sampleAttempt hupload hcleanup
  refine ⟨_, _, hends, uploadedName_work hwork _,
    (cleanup_settled_iff sampleGemini 6 sampleTranscription hends (uploadedName_work hwork _)
      ?_ ?_).mpr ?_⟩
  · rintro ⟨⟩
  · rintro c ⟨⟩
  · rintro ⟨c, ⟨⟩, -⟩

/-- The attempt is dropped while it waits for the deletion: the guard holds the name no longer, and
nothing else knows it. -/
theorem cleanup_abandoned :
    ∃ (tr : GeminiTrace) (ending : GeminiEnding),
      Ends (sampleGemini.transcribeMedia 6 sampleTranscription) tr ending ∧
      uploadedName tr = some "files/a" ∧ ending ≠ .finished none ∧
      (∀ c, ending = .dropped c → c.op.awaited = true) ∧
      ¬sampleGemini.Settled "files/a" tr ending := by
  obtain ⟨upload, hwork, hupload⟩ := ends_sampleUpload
  obtain ⟨fileUrl, hfileUrl⟩ := @sampleGemini_url ("v1beta/" ++ "files/a") (by decide +kernel)
  have hdropped := ends_runUntil_dropped (0 + sampleGemini.sttHttp.timeout)
    (by decide +kernel) hfileUrl
    (by decide +kernel)
  have hcleanup := ends_bind_iff (f := fun _ => .done fileFailed) |>.mpr (.inl ⟨_, rfl, hdropped⟩)
  refine ⟨_, _, ends_sampleAttempt hupload hcleanup, uploadedName_work hwork _, ?_, ?_,
    not_settled ?_ ?_⟩
  · rintro ⟨⟩
  · rintro c ⟨⟩
    rfl
  · refine List.forall_mem_cons.mpr
      ⟨rfl, List.forall_mem_cons.mpr ⟨rfl, List.forall_mem_append.mpr ⟨?_, ?_⟩⟩⟩
    · exact fun e he => (hwork e he).1
    · simp [ProviderOp.isQuiet]
  · unfold guardHolds
    rw [← List.cons_append, ← List.cons_append, List.foldl_append]
    rfl

end Waveform.Providers
