import Waveform.Providers.Gemini

/-!
# The retry budget of a transcription

A meter watches an attempt: it counts an exchange after a failed one as a retry, counts the posts of
the interaction and the pauses that are over. Deleting the file is not part of what is counted.

- `keeps_executeLoop`: an exchange with the retry budget, with the retry spent and not.
- `keeps_transcribeMedia`: the meter of an attempt.
- `asks_attempt`: what an attempt waits for stands under its deadline.
- `shared_retry_budget`: one retry, two posts, one deadline and an end.
-/

set_option autoImplicit false

namespace Waveform.Providers

open Dialogue Deadlines
open Domain (SttProviderRequest SttProviderResult)

/-- An exchange of the attempt itself. -/
def GeminiRequest.isWork : GeminiRequest → Bool
  | .deleteFile _ _ => false
  | _ => true

/-- The post of the interaction. -/
def GeminiRequest.isInteract : GeminiRequest → Bool
  | .interact _ _ _ => true
  | _ => false

/-- What is counted: whether the last exchange failed, the retries, the posts of the interaction,
and the pauses of the interval or more that are over. -/
structure Meter where
  failed : Bool
  retries : Nat
  posts : Nat
  pauses : Nat

/-- An attempt begins. -/
def Meter.zero : Meter := ⟨false, 0, 0, 0⟩

/-- An operation is started. -/
def Meter.start (g : Meter) : ProviderOp GeminiRequest → Meter
  | .exchange request =>
      if request.isWork = true then
        { g with
          retries := g.retries + g.failed.toNat
          posts := g.posts + request.isInteract.toNat }
      else g
  | _ => g

/-- An operation is answered, or ended without an answer. -/
def Meter.finish (g : Meter) : (op : ProviderOp GeminiRequest) → Option (ProviderAnswer op) → Meter
  | .exchange request, some (.ok _) => if request.isWork = true then { g with failed := false }
      else g
  | .exchange request, _ => if request.isWork = true then { g with failed := true } else g
  | .sleep duration, some _ => if filePollInterval ≤ duration then { g with pauses := g.pauses + 1 }
      else g
  | _, _ => g

/-- The meter as a monitor. -/
abbrev metering : Monitor (Call (ProviderOp GeminiRequest))
    (Deadlines.Answer ProviderAnswer) Meter :=
  monitor Meter.start Meter.finish

/-- One retry, and two posts. -/
structure Meter.Within (g : Meter) : Prop where
  retries : g.retries ≤ 1
  posts : g.posts ≤ 2

/-- A program keeps within. -/
abbrev KeepsWithin {α : Type} (p : GeminiProgram α) (g : Meter) (Post : Meter → α → Prop) : Prop :=
  Keeps metering Meter.Within p g Post

/-- The attempt goes on: nothing has failed for good, and a retry is paid for. -/
structure Meter.GoingOn (g : Meter) (consumed : Bool) (pauses : Nat) : Prop where
  failed : g.failed = false
  retries : g.retries ≤ consumed.toNat
  posts : g.posts = 0
  pauses : pauses ≤ g.pauses

theorem Meter.GoingOn.within {g : Meter} {consumed : Bool} {pauses : Nat}
    (h : g.GoingOn consumed pauses) : g.Within :=
  ⟨h.retries.trans (Bool.toNat_le consumed), by rw [h.posts]; exact Nat.zero_le 2⟩

/-- An exchange may be made once more with the retry that is left. -/
structure Meter.Ready (request : GeminiRequest) (g : Meter) (consumed : Bool) (pauses : Nat) :
    Prop where
  retries : g.retries + g.failed.toNat ≤ consumed.toNat
  posts : g.posts ≤ consumed.toNat
  others : request.isInteract = false → g.posts = 0
  pauses : pauses ≤ g.pauses

theorem Meter.GoingOn.ready {g : Meter} {consumed : Bool} {pauses : Nat}
    (h : g.GoingOn consumed pauses)
    (request : GeminiRequest) : Meter.Ready request g consumed pauses where
  retries := by rw [h.failed]; exact h.retries
  posts := by rw [h.posts]; exact Nat.zero_le _
  others := fun _ => h.posts
  pauses := h.pauses

/-- What an exchange leaves: with a response the attempt goes on, after an interaction it is
over. -/
def Exchanged (request : GeminiRequest) (pauses : Nat) (g : Meter) :
    Except ProviderError (BoundedResponse × Bool) → Prop
  | .ok (_, consumed) => request.isInteract = false → g.GoingOn consumed pauses
  | .error _ => True

section Exchanges

variable {config : ProviderHttpConfig} {parseRfc2822 : List Char → Option Int}
  {request : GeminiRequest} {g : Meter}
  {consumed : Bool} {pauses deadline : Nat}

/-- A wait is over. -/
theorem within_finish_none (g : Meter) (op : ProviderOp GeminiRequest) (h : g.Within) :
    (g.finish op none).Within := by
  cases op with
  | exchange request =>
      simp only [Meter.finish]
      split
      · exact ⟨h.retries, h.posts⟩
      · exact h
  | acquire | now | jitter | sleep _ | hold _ | spawnCleanup _ | logCleanupFailure _ => exact h

/-- The exchange that is started is paid for. -/
theorem Meter.Ready.start (h : Meter.Ready request g consumed pauses)
    (hwork : request.isWork = true) :
    g.start (.exchange request) =
        ⟨g.failed, g.retries + g.failed.toNat, g.posts + request.isInteract.toNat, g.pauses⟩ ∧
      (g.start (.exchange request)).Within := by
  have hstart : g.start (.exchange request) =
      ⟨g.failed, g.retries + g.failed.toNat, g.posts + request.isInteract.toNat, g.pauses⟩ :=
        if_pos hwork
  refine ⟨hstart, ?_⟩
  rw [hstart]
  exact ⟨h.retries.trans (Bool.toNat_le consumed),
    Nat.add_le_add (h.posts.trans (Bool.toNat_le consumed)) (Bool.toNat_le _)⟩

/-- A response. -/
theorem Meter.Ready.response (h : Meter.Ready request g consumed pauses)
    (hwork : request.isWork = true)
    (response : BoundedResponse) :
    ((g.start (.exchange request)).finish (.exchange request) (some (.ok response))).Within ∧
      Exchanged request pauses ((g.start (.exchange request)).finish (.exchange request)
        (some (.ok response)))
        (.ok (response, consumed)) := by
  obtain ⟨hstart, hwithin⟩ := h.start hwork
  rw [hstart] at hwithin ⊢
  simp only [Meter.finish, if_pos hwork]
  refine ⟨⟨hwithin.retries, hwithin.posts⟩, fun hother => ?_⟩
  refine ⟨rfl, h.retries, ?_, h.pauses⟩
  change g.posts + request.isInteract.toNat = 0
  rw [h.others hother, hother]
  rfl

/-- A failure. The retry is spent with it, so the exchange may be made again only where it was
there. -/
theorem Meter.Ready.failure (h : Meter.Ready request g consumed pauses)
    (hwork : request.isWork = true)
    (failed : FailedExchange) :
    ((g.start (.exchange request)).finish (.exchange request) (some (.error failed))).Within ∧
      (consumed = false →
        Meter.Ready request ((g.start (.exchange request)).finish (.exchange request)
          (some (.error failed))) true
          pauses) := by
  obtain ⟨hstart, hwithin⟩ := h.start hwork
  rw [hstart] at hwithin ⊢
  simp only [Meter.finish, if_pos hwork]
  refine ⟨⟨hwithin.retries, hwithin.posts⟩, ?_⟩
  rintro rfl
  have hretries : g.retries + g.failed.toNat = 0 := Nat.le_zero.mp h.retries
  have hposts : g.posts = 0 := Nat.le_zero.mp h.posts
  refine ⟨?_, ?_, fun hother => ?_, h.pauses⟩
  · change g.retries + g.failed.toNat + 1 ≤ 1
    rw [hretries]
  · change g.posts + request.isInteract.toNat ≤ 1
    rw [hposts, Nat.zero_add]
    exact Bool.toNat_le _
  · change g.posts + request.isInteract.toNat = 0
    rw [hposts, hother]
    rfl

/-- A pause leaves the exchange as it was. -/
theorem Meter.Ready.slept (h : Meter.Ready request g consumed pauses) (duration : Nat)
    (answer : Unit) :
    Meter.Ready request ((g.start (.sleep duration)).finish (.sleep duration) (some answer))
      consumed pauses := by
  change Meter.Ready request
    (if filePollInterval ≤ duration then { g with pauses := g.pauses + 1 } else g) consumed pauses
  split
  · exact ⟨h.retries, h.posts, h.others, h.pauses.trans (Nat.le_succ _)⟩
  · exact h

/-- With the retry spent there is one exchange. -/
theorem keeps_executeLoop_true (hwork : request.isWork = true)
    (h : Meter.Ready request g true pauses) :
    KeepsWithin (executeLoop config parseRfc2822 request deadline true) g fun g result =>
      g.Within ∧ Exchanged request pauses g result := by
  rw [executeLoop_true]
  refine Keeps.bind (Keeps.perform (h.start hwork).2 fun answer => ?_)
  cases answer with
  | ok response => exact h.response hwork response
  | error failed => exact ⟨(h.failure hwork failed).1, trivial⟩

/-- **An exchange with the retry budget.** Where the retry is left, a failure may spend it on a
second exchange. -/
theorem keeps_executeLoop (hwork : request.isWork = true)
    (h : Meter.Ready request g consumed pauses) :
    KeepsWithin (executeLoop config parseRfc2822 request deadline consumed) g fun g result =>
      g.Within ∧ Exchanged request pauses g result := by
  cases consumed with
  | true => exact keeps_executeLoop_true hwork h
  | false =>
      rw [executeLoop_false]
      refine Keeps.bind (Keeps.perform (h.start hwork).2 fun answer => ?_)
      cases answer with
      | ok response => exact h.response hwork response
      | error failed =>
          obtain ⟨hwithin, hready⟩ := h.failure hwork failed
          cases config.retry with
          | disabled => exact ⟨hwithin, trivial⟩
          | once delay =>
              by_cases hretry : failed.error.isRetryable = true
              · simp only [if_pos hretry]
                refine Keeps.bind (Keeps.perform hwithin fun jitter => ?_)
                refine Keeps.bind (Keeps.perform hwithin fun now => ?_)
                split
                · exact ⟨hwithin, trivial⟩
                · refine Keeps.bind (Keeps.perform hwithin fun answer => ?_)
                  exact keeps_executeLoop_true hwork ((hready rfl).slept _ answer)
              · simp only [if_neg hretry]
                exact ⟨hwithin, trivial⟩

/-- A program under a deadline that passed leaves a meter within. -/
theorem keeps_timeoutAt {α : Type} {p : GeminiProgram α} {P : Meter → α → Prop}
    (h : KeepsWithin p g P) : KeepsWithin (timeoutAt deadline p) g fun g result =>
      match result with
      | some a => P g a
      | none => g.Within :=
  Keeps.timeoutAt h within_finish_none

theorem keeps_executeWithRetryBudget (hwork : request.isWork = true)
    (h : Meter.GoingOn g consumed pauses) :
    KeepsWithin (executeWithRetryBudget config parseRfc2822 request consumed) g fun g result =>
      g.Within ∧ Exchanged request pauses g result := by
  refine Keeps.bind (Keeps.perform h.within fun now => ?_)
  refine Keeps.bind ((keeps_timeoutAt (keeps_executeLoop hwork (h.ready request))).mono fun g result
    hresult => ?_)
  cases result with
  | some result => exact hresult
  | none => exact ⟨hresult, trivial⟩

/-- An exchange of the attempt that is not repeated. -/
theorem keeps_executeWithoutRetry (hwork : request.isWork = true)
    (hother : request.isInteract = false)
    (h : g.GoingOn consumed pauses) :
    KeepsWithin (executeWithoutRetry config request) g fun g result =>
      match result with
      | .ok _ => g.GoingOn consumed pauses
      | .error _ => g.Within := by
  refine Keeps.bind (Keeps.perform h.within fun now => ?_)
  have hready := h.ready request
  refine Keeps.bind ((keeps_timeoutAt (P := fun g result => match result with
    | .ok _ => g.GoingOn consumed pauses
    | .error _ => g.Within) ?_).mono fun g result hresult => ?_)
  · refine Keeps.bind (Keeps.perform (hready.start hwork).2 fun answer => ?_)
    cases answer with
    | ok response => exact (hready.response hwork response).2 hother
    | error failed => exact (hready.failure hwork failed).1
  · cases result with
    | some result => exact hresult
    | none => exact hresult

end Exchanges

/-! ## The parts of an attempt -/

section Attempt

variable {provider : GeminiProvider} {g : Meter} {consumed : Bool} {pauses deadline : Nat}

/-- A URL that cannot be built is a failure. -/
theorem keeps_withUrl {α : Type} {endpoint : String}
    {f : Domain.Url → GeminiProgram (Except ProviderError α)}
    {Post : Meter → Except ProviderError α → Prop} (hurl : ∀ url, KeepsWithin (f url) g Post)
    (hfailed : ∀ error, Post g (.error error)) :
    KeepsWithin (provider.withUrl endpoint f) g Post := by
  unfold GeminiProvider.withUrl
  cases provider.url endpoint with
  | ok url => exact hurl url
  | error error => exact hfailed error

theorem keeps_uploadFile (request : SttProviderRequest) (h : g.GoingOn consumed pauses) :
    KeepsWithin (provider.uploadFile request) g fun g result =>
      match result with
      | .ok _ => g.GoingOn consumed pauses
      | .error _ => g.Within := by
  rw [GeminiProvider.uploadFile]
  refine keeps_withUrl (fun startUrl => ?_) fun error => h.within
  refine Keeps.bind ((keeps_executeWithoutRetry rfl rfl h).mono fun g start hstart => ?_)
  cases start with
  | error error => exact hstart
  | ok start =>
      simp only
      cases provider.uploadUrl start with
      | none => exact Meter.GoingOn.within hstart
      | some uploadUrl =>
          refine Keeps.bind
            ((keeps_executeWithoutRetry rfl rfl hstart).mono fun g uploaded huploaded => ?_)
          cases uploaded with
          | error error => exact huploaded
          | ok uploaded =>
              change match readFile (provider.text.parseFileEnvelope uploaded.body) with
                | .ok _ => g.GoingOn consumed pauses
                | .error _ => g.Within
              cases readFile (provider.text.parseFileEnvelope uploaded.body) with
              | ok file => exact huploaded
              | error error => exact Meter.GoingOn.within huploaded

/-- A pause of the interval is counted when it is over. -/
theorem Meter.finish_interval (g : Meter) (answer : Unit) :
    (g.start (.sleep filePollInterval)).finish (.sleep filePollInterval) (some answer) =
      { g with pauses := g.pauses + 1 } := by
  change (if filePollInterval ≤ filePollInterval then { g with pauses := g.pauses + 1 } else g) = _
  exact if_pos (Nat.le_refl filePollInterval)

/-- A round that goes on is a pause that is over. -/
theorem keeps_pollFile (file : GeminiFile) (h : g.GoingOn consumed pauses) :
    KeepsWithin (provider.pollFile file consumed) g fun g result =>
      match result with
      | .ok (_, consumed) => g.GoingOn consumed (pauses + 1)
      | .error _ => g.Within := by
  refine Keeps.bind (Keeps.perform h.within fun answer => ?_)
  have hslept : Meter.GoingOn { g with pauses := g.pauses + 1 } consumed (pauses + 1) :=
    ⟨h.failed, h.retries, h.posts, Nat.succ_le_succ h.pauses⟩
  rw [Meter.finish_interval]
  refine keeps_withUrl (fun url => ?_) fun error => hslept.within
  refine Keeps.bind ((keeps_executeWithRetryBudget rfl hslept).mono fun g answer hanswer => ?_)
  obtain ⟨hwithin, hexchanged⟩ := hanswer
  cases answer with
  | error error => exact hwithin
  | ok answer =>
      obtain ⟨response, left⟩ := answer
      change match (readFile (provider.text.parseFile response.body)).map fun file =>
        (file, left) with
        | .ok (_, consumed) => g.GoingOn consumed (pauses + 1)
        | .error _ => g.Within
      cases readFile (provider.text.parseFile response.body) with
      | ok file => exact hexchanged rfl
      | error error => exact hwithin

/-- **The loop that waits.** When the rounds are used up, each was a pause that is over. -/
theorem keeps_waitUntilActive (rounds : Nat) (file : GeminiFile) (h : g.GoingOn consumed pauses) :
    KeepsWithin (provider.waitUntilActive rounds file consumed) g fun g result =>
      match result with
      | some (.ok (_, consumed)) => g.GoingOn consumed pauses
      | some (.error _) => g.Within
      | none => g.Within ∧ pauses + rounds ≤ g.pauses := by
  induction rounds generalizing g file consumed pauses with
  | zero => exact ⟨h.within, h.pauses⟩
  | succ rounds ih =>
      rw [GeminiProvider.waitUntilActive]
      split
      · exact h
      · split
        · exact h.within
        · split
          · refine Keeps.bind ((keeps_pollFile file h).mono fun g result hpolled => ?_)
            cases result with
            | error error => exact hpolled
            | ok polled =>
                refine (ih polled.1 hpolled).mono fun g result hresult => ?_
                -- the round that is over counts for the pauses of the rest
                match result, hresult with
                | some (.ok _), hgoing => exact ⟨hgoing.failed, hgoing.retries, hgoing.posts,
                    (Nat.le_succ pauses).trans hgoing.pauses⟩
                | some (.error _), hwithin => exact hwithin
                | none, ⟨hwithin, hpauses⟩ => exact ⟨hwithin, by omega⟩
          · exact h.within

theorem keeps_transcribeFile (file : GeminiFile) (language : Option String)
    (h : g.GoingOn consumed pauses) :
    KeepsWithin (provider.transcribeFile file language consumed) g fun g _ => g.Within := by
  rw [GeminiProvider.transcribeFile]
  refine keeps_withUrl (fun url => ?_) fun error => h.within
  refine Keeps.bind ((keeps_executeWithRetryBudget rfl h).mono fun g answer hanswer => ?_)
  cases answer with
  | ok answer => exact hanswer.1
  | error error => exact hanswer.1

theorem keeps_useFile (rounds : Nat) (file : GeminiFile) (language : Option String)
    (h : g.GoingOn false pauses) :
    KeepsWithin (provider.useFile rounds file language) g fun g result =>
      g.Within ∧ (result = none → pauses + rounds ≤ g.pauses) := by
  refine Keeps.bind ((keeps_waitUntilActive rounds file h).mono fun g result hwaited => ?_)
  match result, hwaited with
  | none, ⟨hwithin, hpauses⟩ => exact ⟨hwithin, fun _ => hpauses⟩
  | some (.error error), hwithin => exact ⟨hwithin, fun hnone => nomatch hnone⟩
  | some (.ok (active, consumed)), hgoing =>
      exact Keeps.bind ((keeps_transcribeFile active language hgoing).mono fun g result hwithin =>
        ⟨hwithin, fun hnone => nomatch hnone⟩)

/-- The deletion is not counted. -/
theorem keeps_deleteFile (name : String) (h : g.Within) :
    KeepsWithin (provider.deleteFile name) g fun g _ => g.Within := by
  unfold GeminiProvider.deleteFile
  split
  · refine keeps_withUrl (fun url => ?_) fun error => h
    refine Keeps.bind ((Keeps.bind (Keeps.perform h fun now => ?_)).mono (P := fun g _ => g.Within)
      fun g answer hanswer => ?_)
    · refine Keeps.bind
        ((keeps_timeoutAt (P := fun g _ => g.Within) ?_).mono fun g result hresult => ?_)
      · refine Keeps.bind (Keeps.perform h fun answer => ?_)
        cases answer with
        | ok response => exact h
        | error failed => exact h
      · cases result with
        | some result => exact hresult
        | none => exact hresult
    · cases answer with
      | ok response => exact hanswer
      | error error => exact hanswer
  · exact h

theorem keeps_runUntil (name : String) (h : g.Within) :
    KeepsWithin (provider.runUntil name deadline) g fun g' _ => g'.Within := by
  refine Keeps.bind (Keeps.perform h fun _ => ?_)
  refine Keeps.bind (Keeps.perform h fun now => ?_)
  split
  · exact Keeps.perform h fun _ => h
  · refine Keeps.bind ((keeps_timeoutAt (keeps_deleteFile name h)).mono fun g result hresult => ?_)
    match result, hresult with
    | some (.ok _), hwithin => exact hwithin
    | some (.error error), hwithin => exact Keeps.perform hwithin fun _ => hwithin
    | none, hwithin =>
      exact Keeps.bind (Keeps.perform hwithin fun _ => Keeps.perform hwithin fun _ => hwithin)

theorem keeps_finish (rounds : Nat) (file : GeminiFile) (language : Option String)
    (h : g.GoingOn false pauses) :
    KeepsWithin (provider.finish rounds file language deadline) g fun g result =>
      g.Within ∧ (result = none → pauses + rounds ≤ g.pauses) := by
  refine Keeps.bind (Keeps.perform h.within fun _ => ?_)
  refine Keeps.bind
    ((keeps_timeoutAt (keeps_useFile rounds file language h)).mono fun g result hresult => ?_)
  match result, hresult with
  | some none, hnone => exact hnone
  | some (some result), ⟨hwithin, _⟩ =>
      exact Keeps.bind ((keeps_runUntil file.name hwithin).mono fun g _ hafter =>
        ⟨hafter, fun hnone => nomatch hnone⟩)
  | none, hwithin =>
      exact Keeps.bind ((keeps_runUntil file.name hwithin).mono fun g _ hafter =>
        ⟨hafter, fun hnone => nomatch hnone⟩)

/-- **The meter of an attempt.** It runs out of rounds only where each was a pause that is over. -/
theorem keeps_attempt (rounds : Nat) (request : SttProviderRequest) (started : Nat) :
    KeepsWithin (provider.attempt rounds request started) .zero fun g result =>
      g.Within ∧ (result = none → rounds ≤ g.pauses) := by
  have hzero : Meter.zero.GoingOn false 0 := ⟨rfl, Nat.le_refl 0, rfl, Nat.le_refl 0⟩
  refine Keeps.bind ((keeps_timeoutAt (keeps_uploadFile request hzero)).mono
    fun g uploaded huploaded => ?_)
  match uploaded, huploaded with
  | none, hwithin => exact ⟨hwithin, fun hnone => nomatch hnone⟩
  | some (.error error), hwithin => exact ⟨hwithin, fun hnone => nomatch hnone⟩
  | some (.ok file), hgoing =>
      refine (keeps_finish rounds file _ hgoing).mono fun g result hresult =>
        ⟨hresult.1, fun hnone => ?_⟩
      exact (Nat.zero_add rounds).symm.le.trans (hresult.2 hnone)

/-! ## What an attempt waits for -/

/-- A call that is waited for stands under the deadline. -/
def Bounded (deadline : Nat) (c : Call (ProviderOp GeminiRequest)) : Prop :=
  c.op.awaited = true → deadline ∈ c.bounds

/-- An operation that is not waited for. -/
theorem asks_perform {op : ProviderOp GeminiRequest} (h : op.awaited = false) :
    Asks (Bounded deadline) (perform op : GeminiProgram (ProviderAnswer op)) := by
  refine Asks.perform fun hawaited => ?_
  rw [h] at hawaited
  cases hawaited

/-- All that a program under the deadline waits for stands under it. -/
theorem asks_bounded {α : Type} (p : GeminiProgram α) :
    Asks (Bounded deadline) (timeoutAt deadline p) :=
  (asks_timeoutAt deadline p).mono fun _ hmem _ => hmem

theorem asks_runUntil (name : String) :
    Asks (Bounded deadline) (provider.runUntil name deadline) := by
  refine Asks.bind (asks_perform rfl) fun _ => Asks.bind (asks_perform rfl) fun now => ?_
  split
  · exact asks_perform rfl
  · refine Asks.bind (asks_bounded _) fun result => ?_
    match result with
    | some (.ok _) => trivial
    | some (.error error) => exact asks_perform rfl
    | none => exact Asks.bind (asks_perform rfl) fun _ => asks_perform rfl

/-- **What an attempt waits for stands under its deadline.** -/
theorem asks_attempt (rounds : Nat) (request : SttProviderRequest) (started : Nat) :
    Asks (Bounded (started + provider.sttHttp.timeout))
      (provider.attempt rounds request started) := by
  refine Asks.bind (asks_bounded _) fun uploaded => ?_
  cases orTimeout uploaded with
  | error error => trivial
  | ok file =>
      refine Asks.bind (asks_perform rfl) fun _ => Asks.bind (asks_bounded _) fun result => ?_
      match result with
      | some none => trivial
      | some (some result) => exact Asks.bind (asks_runUntil file.name) fun _ => trivial
      | none => exact Asks.bind (asks_runUntil file.name) fun _ => trivial

end Attempt

/-! ## The whole of it -/

/-- The meter at the end; what is waited for there has been started. -/
def meterAt (tr : GeminiTrace) : GeminiEnding → Meter
  | .finished _ => metering.after .zero tr
  | .dropped waiting => metering.start (metering.after .zero tr) waiting

/-- When the attempt started: the first reading of its clock. -/
def attemptStart (tr : GeminiTrace) : Option Nat :=
  tr.findSome? fun e => e.answer.done?.bind ((providerClock GeminiRequest).reads e.query.op)

theorem Meter.exchange_pauses (g : Meter) (request : GeminiRequest)
    (answer : Option (Except FailedExchange BoundedResponse)) :
    ((g.start (.exchange request)).finish (.exchange request) answer).pauses = g.pauses := by
  have hstart : (g.start (.exchange request)).pauses = g.pauses := by
    rw [Meter.start]
    split <;> rfl
  rw [← hstart]
  match answer with
  | some (.ok _) =>
      simp only [Meter.finish]
      split <;> rfl
  | some (.error _) =>
      simp only [Meter.finish]
      split <;> rfl
  | none =>
      simp only [Meter.finish]
      split <;> rfl

/-- A pause that the meter counts is a wait that is over. -/
theorem pauses_step {deadline : Nat}
    {e : Exchange (Call (ProviderOp GeminiRequest)) (Deadlines.Answer ProviderAnswer)}
    (h : Bounded deadline e.query) (g : Meter) (tr : GeminiTrace) :
    (metering.finish (metering.start g e.query) e.query e.answer).pauses +
        finishedWaits (providerClock GeminiRequest) filePollInterval deadline tr ≤
      g.pauses + finishedWaits (providerClock GeminiRequest) filePollInterval deadline
        (e :: tr) := by
  have hmore := finishedWaits_le_cons (providerClock GeminiRequest) filePollInterval deadline e tr
  obtain ⟨⟨op, bounds⟩, reply, ended⟩ := e
  cases op with
  | sleep duration =>
      cases reply with
      | elapsed level => exact Nat.add_le_add_left hmore _
      | done answer =>
          change (if filePollInterval ≤ duration then { g with pauses := g.pauses + 1 } else
            g).pauses + _ ≤ _
          by_cases hlong : filePollInterval ≤ duration
          · rw [if_pos hlong, finishedWaits_cons_of_wait hlong (h rfl) rfl]
            exact (Nat.add_right_comm g.pauses 1 _).le
          · rw [if_neg hlong]
            exact Nat.add_le_add_left hmore _
  | exchange request =>
      have hsame := g.exchange_pauses request (Answer.done? ⟨reply, ended⟩)
      exact Nat.add_le_add hsame.le hmore
  | acquire | now | jitter | hold _ | spawnCleanup _ | logCleanupFailure _ =>
    exact Nat.add_le_add_left hmore _

theorem pauses_le_finishedWaits {deadline : Nat} {tr : GeminiTrace}
    (h : ∀ e ∈ tr, Bounded deadline e.query)
    (g : Meter) : (metering.after g tr).pauses ≤
      g.pauses + finishedWaits (providerClock GeminiRequest) filePollInterval deadline tr := by
  induction tr generalizing g with
  | nil => exact Nat.le_refl _
  | cons e tr ih =>
      obtain ⟨hbounded, hrest⟩ := List.forall_mem_cons.mp h
      exact (ih hrest _).trans (pauses_step hbounded g tr)

/-- Until the attempt starts nothing is counted. -/
theorem meterAt_start (tr : GeminiTrace) (ending : GeminiEnding) (acquired started ended : Nat) :
    meterAt (⟨⟨.acquire, []⟩, ⟨.done true, acquired⟩⟩ :: ⟨⟨.now, []⟩, ⟨.done started, ended⟩⟩ :: tr)
      ending =
      meterAt tr ending := by
  cases ending with
  | finished result => rfl
  | dropped waiting => rfl

/-- The meter of an attempt that ends, or is dropped, is within. -/
theorem attempt_within {provider : GeminiProvider} {rounds : Nat} {request : SttProviderRequest}
    {started : Nat}
    {tr : GeminiTrace} {ending : GeminiEnding}
    (h : Ends (provider.attempt rounds request started) tr ending) :
    (meterAt tr ending).Within := by
  obtain ⟨-, hfinished, hdropped⟩ := (keeps_attempt rounds request started).of_ends h
  cases ending with
  | finished result => exact (hfinished result rfl).1
  | dropped waiting => exact hdropped waiting rfl

/-- **The rounds do not run out.** Each is a pause that is over before the deadline. -/
theorem attempt_returns {provider : GeminiProvider} {rounds : Nat} {request : SttProviderRequest}
    {started : Nat}
    {tr : GeminiTrace} {ending : GeminiEnding}
    (h : Ends (provider.attempt rounds request started) tr ending)
    (htimely : Timely (providerClock GeminiRequest) started tr)
    (hrounds : provider.sttHttp.timeout / filePollInterval + 2 ≤ rounds) :
    ending ≠ .finished none := by
  rintro rfl
  obtain ⟨-, hfinished, -⟩ := (keeps_attempt rounds request started).of_ends h
  have hpauses : rounds ≤ (metering.after .zero tr).pauses := (hfinished none rfl).2 rfl
  have hbounded : ∀ e ∈ tr, Bounded (started + provider.sttHttp.timeout) e.query := fun e he =>
    (asks_attempt rounds request started).of_ends h e.query (List.mem_map_of_mem he)
  have hcounted := pauses_le_finishedWaits hbounded .zero
  have hinterval : 0 < filePollInterval := by decide
  have hlong : provider.sttHttp.timeout < filePollInterval *
      (provider.sttHttp.timeout / filePollInterval + 1) :=
    Nat.lt_mul_div_succ _ hinterval
  have hzero : Meter.zero.pauses = 0 := rfl
  generalize provider.sttHttp.timeout / filePollInterval = pauses at hrounds hlong
  rcases htimely.count_waits (started + provider.sttHttp.timeout) hinterval with hnone | hbefore
  · omega
  · have hmany : pauses + 1 ≤ finishedWaits (providerClock GeminiRequest) filePollInterval
        (started + provider.sttHttp.timeout) tr - 1 := by omega
    have hmul := Nat.mul_le_mul_left filePollInterval hmany
    omega

/-- An attempt that has not started waits for nothing. -/
theorem not_awaited_before {tr : GeminiTrace} {ending : GeminiEnding}
    (htr : tr = [] ∨ ∃ answer, tr = [⟨⟨.acquire, []⟩, answer⟩])
    (hending : (∃ error, ending = .finished (some (.error error))) ∨
      ending = .dropped ⟨.acquire, []⟩ ∨
      ending = .dropped ⟨.now, []⟩) : ∀ c ∈ asked tr ending, c.op.awaited = false := by
  have hqueries : ∀ c ∈ tr.map Exchange.query, c.op.awaited = false := by
    rcases htr with rfl | ⟨answer, rfl⟩
    · exact List.forall_mem_nil _
    · exact List.forall_mem_singleton.mpr rfl
  rcases hending with ⟨error, rfl⟩ | rfl | rfl
  · exact hqueries
  · exact List.forall_mem_append.mpr ⟨hqueries, List.forall_mem_singleton.mpr rfl⟩
  · exact List.forall_mem_append.mpr ⟨hqueries, List.forall_mem_singleton.mpr rfl⟩

theorem meterAt_before {tr : GeminiTrace} {ending : GeminiEnding}
    (htr : tr = [] ∨ ∃ answer, tr = [⟨⟨.acquire, []⟩, answer⟩])
    (hending : (∃ error, ending = .finished (some (.error error))) ∨
      ending = .dropped ⟨.acquire, []⟩ ∨
      ending = .dropped ⟨.now, []⟩) : meterAt tr ending = .zero := by
  rcases htr with rfl | ⟨answer, rfl⟩
  · rcases hending with ⟨error, rfl⟩ | rfl | rfl <;> rfl
  · rcases hending with ⟨error, rfl⟩ | rfl | rfl <;> rfl

/-- One logical attempt shares its retry and its deadline. However its exchanges are answered and
wherever it is dropped, it makes at most one retry over all its stages and posts the interaction at
most twice, and whatever it waits for stands under the deadline that is the timeout after its start;
where waits take their time, the loop that waits for the file ends before the rounds do, that is for
every sequence of states. -/
theorem shared_retry_budget (provider : GeminiProvider) (rounds : Nat)
    (request : SttProviderRequest) {tr : GeminiTrace}
    {ending : GeminiEnding} (h : Ends (provider.transcribeMedia rounds request) tr ending) :
    (meterAt tr ending).retries ≤ 1 ∧ (meterAt tr ending).posts ≤ 2 ∧
      (∀ c ∈ asked tr ending, c.op.awaited = true →
        ∃ start, attemptStart tr = some start ∧ start + provider.sttHttp.timeout ∈ c.bounds) ∧
      ∀ now, Timely (providerClock GeminiRequest) now tr →
        provider.sttHttp.timeout / filePollInterval + 2 ≤ rounds → ending ≠ .finished none := by
  rcases ends_transcribeMedia h with ⟨htr, hending⟩ |
    ⟨acquired, started, ended, rest, rfl, hattempt⟩
  · rw [meterAt_before htr hending]
    refine ⟨Nat.zero_le 1, Nat.zero_le 2, fun c hc hawaited => ?_, fun now _ _ hnone => ?_⟩
    · rw [not_awaited_before htr hending c hc] at hawaited
      cases hawaited
    · rcases hending with ⟨error, rfl⟩ | rfl | rfl <;> cases hnone
  · obtain ⟨hretries, hposts⟩ := attempt_within hattempt
    have hbounded := (asks_attempt rounds request started).of_ends hattempt
    rw [meterAt_start]
    refine ⟨hretries, hposts, fun c hc hawaited => ⟨started, rfl, ?_⟩,
      fun now htimely hrounds => ?_⟩
    · rw [asked_cons, asked_cons] at hc
      rcases List.mem_cons.mp hc with rfl | hc
      · cases hawaited
      rcases List.mem_cons.mp hc with rfl | hc
      · cases hawaited
      exact hbounded c hc hawaited
    · obtain ⟨-, ⟨-, -, -, hread⟩, hrest⟩ := htimely
      rw [← hread started rfl] at hrest
      exact attempt_returns hattempt hrest hrounds

/-! ## A retried poll -/

/-- The file of the sample while it is processed. -/
def processingFile : GeminiFile := ⟨"files/a", "u", "audio/mpeg", "PROCESSING"⟩

/-- The provider of the samples with one retry, and with a file that is processed. -/
def pollingGemini : GeminiProvider :=
  { sampleGemini with
      text := { sampleGemini.text with parseFileEnvelope := fun _ => some processingFile }
      sttHttp := { sampleGemini.sttHttp with retry := .once (millis 100) } }

theorem pollingGemini_url {endpoint : String}
    (h : (sampleGemini.url endpoint).toOption.isSome = true) :
    ∃ url, pollingGemini.url endpoint = .ok url :=
  sampleGemini_url h

/-- The deadline of an attempt that starts at zero. -/
def pollingDeadline : Nat := 0 + pollingGemini.sttHttp.timeout

/-- The deadlines of an exchange that is begun at a time. -/
def pollingBounds (begun : Nat) : List Nat :=
  [begun + pollingGemini.sttHttp.timeout, pollingDeadline]

/-- The upload takes no time. -/
def uploadTrace (start target : Domain.Url) : GeminiTrace :=
  [⟨⟨.now, [pollingDeadline]⟩, ⟨.done (0 : Nat), 0⟩⟩,
    ⟨⟨.exchange (.startUpload start "key" "1" "audio/mpeg" "audio.mp3"), pollingBounds 0⟩,
      ⟨.done (.ok ⟨some "https://gemini.test/u", []⟩), 0⟩⟩,
    ⟨⟨.now, [pollingDeadline]⟩, ⟨.done (0 : Nat), 0⟩⟩,
    ⟨⟨.exchange (.finalizeUpload target "1" "audio/mpeg" [0]), pollingBounds 0⟩,
      ⟨.done (.ok ⟨none, []⟩), 0⟩⟩]

/-- The first poll fails after a pause; it is retried, and not answered before the deadline. -/
def retriedTrace (url : Domain.Url) : GeminiTrace :=
  [⟨⟨.sleep filePollInterval, [pollingDeadline]⟩, ⟨.done (), millis 250⟩⟩,
    ⟨⟨.now, [pollingDeadline]⟩, ⟨.done (millis 250), millis 250⟩⟩,
    ⟨⟨.exchange (.pollFile url "key"), pollingBounds (millis 250)⟩,
      ⟨.done (.error ⟨.new .unavailable, none, 0⟩), millis 250⟩⟩,
    ⟨⟨.jitter, pollingBounds (millis 250)⟩, ⟨.done 0, millis 250⟩⟩,
    ⟨⟨.now, pollingBounds (millis 250)⟩, ⟨.done (millis 250), millis 250⟩⟩,
    ⟨⟨.sleep (millis 100), pollingBounds (millis 250)⟩, ⟨.done (), millis 350⟩⟩,
    ⟨⟨.exchange (.pollFile url "key"), pollingBounds (millis 250)⟩,
      ⟨.elapsed ⟨1, Nat.lt_succ_self 1⟩, pollingDeadline⟩⟩]

/-- The cleanup begins at the deadline. -/
def lateTrace : GeminiTrace :=
  [⟨⟨.hold none, []⟩, ⟨.done (), pollingDeadline⟩⟩,
    ⟨⟨.now, []⟩, ⟨.done pollingDeadline, pollingDeadline⟩⟩,
    ⟨⟨.spawnCleanup "files/a", []⟩, ⟨.done (), pollingDeadline⟩⟩]

theorem ends_uploadTrace : ∃ start target, Ends
    (timeoutAt pollingDeadline (pollingGemini.uploadFile sampleTranscription))
    (uploadTrace start target) (.finished (some (.ok processingFile))) := by
  obtain ⟨url, hurl⟩ := @pollingGemini_url "upload/v1beta/files" (by decide +kernel)
  refine ⟨url, ⟨"https", "", none, some (.domain "gemini.test"), none, "/u", none, none⟩, ?_⟩
  have htarget : pollingGemini.uploadUrl ⟨some "https://gemini.test/u", []⟩ =
      some ⟨"https", "", none, some (.domain "gemini.test"), none, "/u", none, none⟩ := by
    decide +kernel
  rw [GeminiProvider.uploadFile, GeminiProvider.withUrl_ok hurl, Dialogue.andThen, timeoutAt_bind]
  refine ends_bind_iff.mpr (.inr ⟨some (.ok ⟨some "https://gemini.test/u", []⟩), [_, _], [_, _], rfl,
    .answered _ (.answered _ (.finished _)), ?_⟩)
  simp only [Option.elim, htarget]
  exact .answered _ (.answered _ (.finished _))

theorem ends_retriedTrace : ∃ url, Ends
    (timeoutAt pollingDeadline (pollingGemini.useFile 6 processingFile none)) (retriedTrace url)
    (.finished none) := by
  obtain ⟨url, hurl⟩ := @pollingGemini_url ("v1beta/" ++ "files/a") (by decide +kernel)
  refine ⟨url, ?_⟩
  rw [GeminiProvider.useFile, GeminiProvider.waitUntilActive, if_neg (by decide),
    if_neg (by decide), if_pos (by decide)]
  simp only [GeminiProvider.pollFile, processingFile, GeminiProvider.withUrl_ok hurl,
    executeWithRetryBudget, executeLoop_false, executeLoop_true]
  refine .answered _ (.answered _ (.answered _ (.answered _ (.answered _ (.answered _
    (.answered _ ?_))))))
  exact .finished _

theorem ends_lateTrace :
    Ends (pollingGemini.runUntil "files/a" pollingDeadline) lateTrace (.finished ()) := by
  refine ends_perform_bind.mpr (.inr ⟨(), pollingDeadline, _, rfl, ?_⟩)
  refine ends_perform_bind.mpr (.inr ⟨pollingDeadline, pollingDeadline, _, rfl, ?_⟩)
  rw [if_pos (Nat.le_refl pollingDeadline)]
  exact .answered _ (.finished _)

/-- The whole attempt. -/
def pollingTrace (start target url : Domain.Url) : GeminiTrace :=
  ⟨⟨.acquire, []⟩, ⟨.done true, 0⟩⟩ :: ⟨⟨.now, []⟩, ⟨.done (0 : Nat), 0⟩⟩ ::
    (uploadTrace start target ++
      ⟨⟨.hold (some "files/a"), []⟩, ⟨.done (), 0⟩⟩ :: (retriedTrace url ++ lateTrace))

theorem timely_pollingTrace (start target url : Domain.Url) :
    Timely (providerClock GeminiRequest) 0 (pollingTrace start target url) := by
  simp [pollingTrace, uploadTrace, retriedTrace, lateTrace, Timely, TimelyExchange, providerClock,
    pollingBounds, pollingDeadline, pollingGemini, sampleGemini, filePollInterval, millis]

theorem ends_pollingTrace : ∃ start target url, Ends
    (pollingGemini.transcribeMedia 6 sampleTranscription) (pollingTrace start target url)
    (.finished (some (.error (.new .timeout)))) := by
  obtain ⟨start, target, hupload⟩ := ends_uploadTrace
  obtain ⟨url, hpoll⟩ := ends_retriedTrace
  let late : Option (Except ProviderError SttProviderResult) := some (.error (.new .timeout))
  have hcleanup : Ends ((pollingGemini.runUntil "files/a" pollingDeadline).bind fun _ => .done late)
      lateTrace (.finished late) :=
    ends_bind_iff.mpr (.inr ⟨_, _, _, (List.append_nil _).symm, ends_lateTrace, .finished _⟩)
  have hfinish : Ends (pollingGemini.finish 6 processingFile none pollingDeadline)
      (⟨⟨.hold (some "files/a"), []⟩, ⟨.done (), 0⟩⟩ :: (retriedTrace url ++ lateTrace))
      (.finished late) :=
    ends_perform_bind.mpr (.inr ⟨(), 0, _, rfl,
      ends_bind_iff.mpr (.inr ⟨_, _, _, rfl, hpoll, hcleanup⟩)⟩)
  refine ⟨start, target, url, ends_transcribeMedia_of_attempt (by decide) ?_⟩
  exact ends_bind_iff.mpr (.inr ⟨_, _, _, rfl, hupload, hfinish⟩)

/-- One poll is retried after one pause, and the attempt ends at its deadline. -/
theorem shared_retry_budget_sample :
    ∃ (tr : GeminiTrace) (ending : GeminiEnding),
      Ends (pollingGemini.transcribeMedia 6 sampleTranscription) tr ending ∧
      (meterAt tr ending).retries = 1 ∧ (meterAt tr ending).pauses = 1 ∧
      (meterAt tr ending).retries ≤ 1 ∧ (meterAt tr ending).posts ≤ 2 ∧
      (∀ c ∈ asked tr ending, c.op.awaited = true →
        ∃ start, attemptStart tr = some start ∧ start + pollingGemini.sttHttp.timeout ∈ c.bounds) ∧
      ending ≠ .finished none := by
  obtain ⟨start, target, url, hends⟩ := ends_pollingTrace
  obtain ⟨hretries, hposts, hbounds, hreturns⟩ :=
    shared_retry_budget pollingGemini 6 sampleTranscription hends
  exact ⟨_, _, hends, rfl, rfl, hretries, hposts, hbounds,
    hreturns 0 (timely_pollingTrace start target url) (by decide +kernel)⟩

end Waveform.Providers
