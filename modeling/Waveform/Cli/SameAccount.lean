import Waveform.Cli.SessionStore

/-!
# The account of a call

A call sends its request with the token of the sign-in that it loads, and once more after a stale
refusal. Other processes may sign in, sign out and refresh in between. Silicon Accounts issues every
token for an account, and a refresh keeps the account.

- `stays_ensureFresh`: which sessions `ensureFresh` loads, and what it ends with.
- `call_keepsAccount_iff`: a call keeps to the account that it loaded first, unless after a refusal
  it finds another account's sign-in and no other account's when it loads again under the lock.
- `not_forall_keepsAccount`: a sign-in of another account between the refusal and the repeat.
-/

set_option autoImplicit false

namespace Waveform.Cli

open LabelledRun Dialogue

variable {Value : Type}

/-! ## What a call has done -/

/-- The session that an exchange loads. -/
def loadOf : CliExchange Value → List StoredSession
  | ⟨.load, .session session⟩ => [session]
  | _ => []

/-- The sessions that a command has loaded. -/
def loadsOf (tr : List (CliExchange Value)) : List StoredSession := tr.flatMap loadOf

/-- The tokens of the requests sent, each with the sessions loaded before it. -/
def sent : List StoredSession → List (CliExchange Value) → List (String × List StoredSession)
  | _, [] => []
  | loads, ⟨.request token, _⟩ :: tr => (token, loads) :: sent loads tr
  | loads, e :: tr => sent (loads ++ loadOf e) tr

/-- The sessions loaded after the first request that failed. -/
def retryLoads : List (CliExchange Value) → List StoredSession
  | [] => []
  | ⟨.request _, .error _⟩ :: tr => loadsOf tr
  | _ :: tr => retryLoads tr

/-- How a command has ended: with an error or not. -/
def ended {α : Type} : CliProgram Value (Except CliError α) → Option (Option CliError)
  | .done (.ok _) => some none
  | .done (.error error) => some (some error)
  | .ask _ _ => none

section Accounts

variable (owner : String → String)

/-- The call keeps to the account that it loaded first: each request carries a token of that account
and is sent while every session loaded so far is of it, and when a session of another account was
loaded, the call ends with `session_changed`. The owner is the account that a token is issued
for. -/
structure KeepsAccount {α : Type} (tr : List (CliExchange Value))
    (left : CliProgram Value (Except CliError α)) : Prop where
  requests : ∀ request ∈ sent [] tr, ∃ first ∈ request.2.head?,
    owner request.1 = first.account.uuid ∧
      ∀ other ∈ request.2, other.account.uuid = first.account.uuid
  changed : ∀ first ∈ (loadsOf tr).head?, ∀ other ∈ loadsOf tr,
    other.account.uuid ≠ first.account.uuid →
      ∀ result, ended left = some result → ∃ latest, result = some (sessionChanged latest)

/-- After a refused request the call loads a session of another account than the first, and, if it
loads the session again, one of that same account. -/
def Switched (tr : List (CliExchange Value)) : Prop :=
  ∃ first ∈ (loadsOf tr).head?, ∃ other ∈ (retryLoads tr).head?,
    other.account.uuid ≠ first.account.uuid ∧
      ∀ again ∈ (retryLoads tr)[1]?, again.account.uuid = other.account.uuid

/-- The call keeps to the account unless it switches, and does not when it has switched and
ended. -/
structure KeptUnlessSwitched {α : Type} (tr : List (CliExchange Value))
    (left : CliProgram Value (Except CliError α)) : Prop where
  kept : ¬ Switched tr → KeepsAccount owner tr left
  switched : (ended left).isSome = true → Switched tr → ¬ KeepsAccount owner tr left

/-! ## What Silicon Accounts keeps to -/

variable (holder : String → String)

/-- The tokens are issued for the account that stands beside them. -/
def Owned (c : Credentials) : Prop :=
  owner c.accessToken = c.account ∧ holder c.refreshToken = c.account

/-- What Silicon Accounts answers is of the account it names, and a refresh keeps the account that
the refresh token was issued for. -/
def IssuesFor : CliExchange Value → Prop
  | ⟨.newSignIn _, .ok tokens⟩ => Owned owner holder tokens.credentials
  | ⟨.refreshToken token, .ok response⟩ =>
      ∀ issued ∈ response.credentials, Owned owner holder issued ∧ issued.account = holder token
  | _ => True

/-- What a process can be answered: a session that it loads has tokens of its account, and under the
lock it is the one that was loaded before. -/
def Answers (view : View) (exchange : CliExchange Value) : Prop :=
  IssuesFor owner holder exchange ∧
    ∀ session ∈ loadOf exchange, Owned owner holder session.credentials ∧
      ∀ saved, view.lock = .holding saved → session.credentials = saved

/-! ## What `ensureFresh` loads -/

/-- The sessions that `ensureFresh` has loaded and its result: no session; sessions of one account,
and one of it as the result; or two of different accounts, and then `session_changed`. -/
inductive Course : List StoredSession → Option (Except CliError StoredSession) → Prop where
  | unloaded {result : Option (Except CliError StoredSession)}
      (hresult : ∀ session, result ≠ some (.ok session)) : Course [] result
  | same {current : StoredSession} {more : List StoredSession}
      {result : Option (Except CliError StoredSession)}
      (hmore : ∀ session ∈ more, session.account.uuid = current.account.uuid)
      (hok : ∀ session, result = some (.ok session) →
        owner session.accessToken = current.account.uuid)
      (herror : ∀ latest, result ≠ some (.error (sessionChanged latest))) :
      Course (current :: more) result
  | changed {current latest : StoredSession} {result : Option (Except CliError StoredSession)}
      (hne : latest.account.uuid ≠ current.account.uuid)
      (hresult : ∀ r, result = some r → r = .error (sessionChanged latest)) :
      Course [current, latest] result

theorem Course.under_way {loads : List StoredSession} {result : Except CliError StoredSession}
    (h : Course owner loads (some result)) : Course owner loads none := by
  cases h with
  | unloaded _ => exact .unloaded (by simp)
  | same hmore _ _ => exact .same hmore (by simp) (by simp)
  | changed hne _ => exact .changed hne (by simp)

/-- What a process knows and the sessions that it has loaded. -/
structure Seen where
  view : View
  loads : List StoredSession

def Seen.after (seen : Seen) : CliExchange Value → Seen
  | ⟨.load, .session session⟩ =>
      ⟨seen.view.after (⟨.load, .session session⟩ : CliExchange Value), seen.loads ++ [session]⟩
  | exchange => ⟨seen.view.after exchange, seen.loads⟩

/-- No request is sent, and what has been loaded is on course. -/
def Seen.Allowed (seen : Seen) (query : CliQuery) : Prop :=
  (∀ token, query ≠ .request token) ∧ Course owner seen.loads none

/-- A program that loads on course. -/
abbrev Stays {α : Type} (Post : Seen → α → Prop) (seen : Seen) (p : CliProgram Value α) : Prop :=
  Follows Seen.after (Seen.Allowed owner) (fun seen => Answers owner holder seen.view) Post seen p

/-- The result is on course. -/
def OnCourse (seen : Seen) (result : Except CliError StoredSession) : Prop :=
  Course owner seen.loads (some result)

section Programs

variable {owner holder} (ctx : Ctx) {α : Type}

/-- An error that is not `session_changed`. -/
def Other (error : CliError) : Prop := ∀ latest, error ≠ sessionChanged latest

theorem other_of_code {error : CliError} (h : error.code ≠ "session_changed") : Other error := by
  rintro latest rfl
  exact h rfl

theorem storeError_other (error : StoreError) : Other error.toCli := by
  apply other_of_code
  cases error with
  | localState message hint =>
      change "local_state" ≠ "session_changed"
      decide
  | signInLocked message hint =>
      change "sign_in_locked" ≠ "session_changed"
      decide

/-- The errors of Silicon Accounts have other exit codes or other codes. -/
theorem signInError_other (error : SignInError) : Other error.toCli := by
  cases error with
  | configuration message hint =>
      apply other_of_code
      change "sign_in_configuration" ≠ "session_changed"
      decide
  | signInEnded description =>
      apply other_of_code
      change "sign_in_ended" ≠ "session_changed"
      decide
  | notEnabled grant description =>
      apply other_of_code
      change "sign_in_not_enabled" ≠ "session_changed"
      decide
  | transport message =>
      apply other_of_code
      change "accounts_unreachable" ≠ "session_changed"
      decide
  | accounts status code message hint =>
      intro latest h
      have hexit : (if status = some 429 then exitRateLimited else exitFailure) = exitAuth :=
        congrArg CliError.exit h
      split at hexit <;> cases hexit

/-- An error while all sessions loaded are of one account. -/
theorem Course.error {current : StoredSession} {more : List StoredSession} {error : CliError}
    (hmore : ∀ session ∈ more, session.account.uuid = current.account.uuid) (h : Other error) :
    Course owner (current :: more) (some (.error error)) :=
  .same hmore (by simp) fun latest heq => h latest (Except.error.inj (Option.some.inj heq))

theorem stays_notSignedIn {seen : Seen} {Post : Seen → Except CliError α → Prop}
    (hcourse : Course owner seen.loads none)
    (hpost : ∀ error, Other error → Post seen (.error error)) :
    Stays owner holder Post seen (notSignedIn ctx : CliProgram Value (Except CliError α)) := by
  have hfail : ∀ message hint, Post seen (.error (.new exitAuth "not_signed_in" message hint)) := by
    intro message hint
    apply hpost
    apply other_of_code
    change "not_signed_in" ≠ "session_changed"
    decide
  refine ⟨⟨nofun, hcourse⟩, fun legacy _ => ?_⟩
  change Stays owner holder Post seen (ite _ _ _)
  split
  · exact hfail _ _
  · refine ⟨⟨nofun, hcourse⟩, fun origins _ => ?_⟩
    cases hother : origins.head? with
    | none =>
        simp only [hother]
        exact hfail _ _
    | some other =>
        simp only [hother]
        exact hfail _ _

theorem stays_loadSession {seen : Seen} {Post : Seen → Except CliError α → Prop}
    {next : StoredSession → CliProgram Value (Except CliError α)}
    (hcourse : Course owner seen.loads none)
    (hpost : ∀ view error, Other error → Post ⟨view, seen.loads⟩ (.error error))
    (hnext : ∀ session, Owned owner holder session.credentials →
      Stays owner holder Post
        ⟨{ seen.view with lock := seen.view.lock.load (.session session) }, seen.loads ++ [session]⟩
        (next session)) :
    Stays owner holder Post seen (loadSession ctx next) := by
  refine ⟨⟨nofun, hcourse⟩, fun loaded hloaded => ?_⟩
  cases loaded with
  | missing => exact stays_notSignedIn ctx hcourse fun error herror => hpost _ error herror
  | unreadable why =>
      refine hpost _ _ (other_of_code ?_)
      change "session_unreadable" ≠ "session_changed"
      decide
  | session session => exact hnext session (hloaded.2 session List.mem_cons_self).1

theorem signInEnded_other (session : StoredSession) (why : String) :
    Other (signInEnded session why) := by
  apply other_of_code
  change "sign_in_ended" ≠ "session_changed"
  decide

section Locked

variable {current latest : StoredSession}

theorem same_of_mem {more : List StoredSession}
    (h : ∀ session ∈ more, session.account.uuid = latest.account.uuid)
    (hsame : latest.account.uuid = current.account.uuid) :
    ∀ session ∈ latest :: more, session.account.uuid = current.account.uuid := by
  intro session hmem
  rcases List.mem_cons.mp hmem with rfl | hmem
  · exact hsame
  · exact (h session hmem).trans hsame

variable (hsame : latest.account.uuid = current.account.uuid)

include hsame

theorem same_of_eq : ∀ session ∈ [latest], session.account.uuid = current.account.uuid :=
  same_of_mem (by simp) hsame

/-- The rotated sign-in is of the same account. -/
theorem stays_saveRotated {view : View} {tokens : Tokens}
    (howned : Owned owner holder tokens.credentials)
    (haccount : tokens.account.uuid = latest.account.uuid) :
    Stays owner holder (OnCourse owner) ⟨view, [current, latest]⟩
      (saveRotated latest tokens : CliProgram Value _) := by
  have hmore := same_of_eq hsame
  refine ⟨⟨nofun, .same hmore (by simp) (by simp)⟩, fun now _ => ?_⟩
  refine ⟨⟨nofun, .same hmore (by simp) (by simp)⟩, fun answer _ => ?_⟩
  cases answer with
  | error error => exact Course.error hmore (storeError_other error)
  | ok _ =>
      refine .same hmore (fun session heq => ?_) (by simp)
      cases heq
      exact howned.1.trans (haccount.trans hsame)

theorem stays_removeEnded (description : String) :
    Stays owner holder (OnCourse owner)
      ⟨⟨none, .holding latest.credentials⟩, [current, latest]⟩
      (removeEnded latest description : CliProgram Value _) := by
  have hended : ∀ {view : View} {more : List StoredSession},
      (∀ session ∈ more, session.account.uuid = latest.account.uuid) →
        OnCourse owner ⟨view, current :: latest :: more⟩
          (.error (signInEnded latest description)) :=
    fun hmore => Course.error (same_of_mem hmore hsame) (signInEnded_other latest description)
  refine ⟨⟨nofun, .same (same_of_eq hsame) (by simp) (by simp)⟩,
    fun loaded hloaded => ?_⟩
  cases loaded with
  | missing => exact hended (by simp)
  | unreadable why => exact hended (by simp)
  | session session =>
      -- Under the lock the file has stayed as it was loaded.
      have heq : session.credentials = latest.credentials :=
        (hloaded.2 session List.mem_cons_self).2 _ rfl
      have hmore : ∀ other ∈ [session], other.account.uuid = latest.account.uuid := by
        intro other hother
        rw [List.mem_singleton.mp hother]
        exact congrArg Credentials.account heq
      change Stays owner holder _ ⟨_, [current, latest, session]⟩ (ite _ _ _)
      split
      · refine ⟨⟨nofun, .same (same_of_mem hmore hsame) (by simp) (by simp)⟩, fun answer _ => ?_⟩
        cases answer with
        | error error => exact Course.error (same_of_mem hmore hsame) (storeError_other error)
        | ok _ => exact hended hmore
      · exact hended hmore

theorem stays_rotate (howned : Owned owner holder latest.credentials) :
    Stays owner holder (OnCourse owner)
      ⟨⟨none, .holding latest.credentials⟩, [current, latest]⟩
      (rotate latest : CliProgram Value _) := by
  have hcourse : Course owner [current, latest] none :=
    .same (same_of_eq hsame) (by simp) (by simp)
  refine ⟨⟨nofun, hcourse⟩, fun answer _ => ?_⟩
  cases answer with
  | error error => exact Course.error (same_of_eq hsame) (signInError_other error)
  | ok _ =>
      refine ⟨⟨nofun, hcourse⟩, fun answer hanswer => ?_⟩
      cases answer with
      | error error =>
          cases error with
          | signInEnded description => exact stays_removeEnded hsame description
          | configuration | notEnabled | accounts | transport =>
              exact Course.error (same_of_eq hsame) (signInError_other _)
      | ok response =>
          refine ⟨⟨nofun, hcourse⟩, fun now _ => ?_⟩
          change Stays owner holder _ ⟨View.after ⟨none, .holding latest.credentials⟩
            (⟨.refreshToken latest.refreshToken, .ok response⟩ : CliExchange Value),
              [current, latest]⟩ ((done (Tokens.fromResponse response now)).bind _)
          rcases fromResponse_cases response now with
            ⟨tokens, htokens, hissued⟩ | ⟨what, hnone, _⟩
          · obtain ⟨hresponse, haccount⟩ := hanswer.1 _ hissued
            rw [htokens]
            exact stays_saveRotated hsame hresponse (haccount.trans howned.2)
          · rw [hnone]
            exact Course.error (same_of_eq hsame) (signInError_other _)

end Locked

theorem stays_refreshLocked (refused : Option String) (current : StoredSession) :
    Stays owner holder (OnCourse owner) ⟨⟨none, .inside⟩, [current]⟩
      (refreshLocked ctx refused current : CliProgram Value _) := by
  refine stays_loadSession ctx (.same (by simp) (by simp) (by simp))
    (fun view error herror => Course.error (by simp) herror) fun latest howned => ?_
  change Stays owner holder _ ⟨⟨none, .holding latest.credentials⟩, [current, latest]⟩ (ite _ _ _)
  split
  · rename_i hne
    exact .changed hne fun r hr => (Option.some.inj hr).symm
  · rename_i hsame
    rw [not_not] at hsame
    split
    · exact stays_rotate hsame howned
    · refine ⟨⟨nofun, .same (same_of_eq hsame) (by simp) (by simp)⟩, fun now _ => ?_⟩
      change Stays owner holder _ ⟨⟨none, .holding latest.credentials⟩, [current, latest]⟩
        (ite _ _ _)
      split
      · exact stays_rotate hsame howned
      · refine .same (same_of_eq hsame) (fun session heq => ?_) (by simp)
        cases heq
        exact howned.1.trans hsame

/-- **What `ensureFresh` loads and ends with.** -/
theorem stays_ensureFresh (refused : Option String) :
    Stays owner holder (OnCourse owner) ⟨.idle, []⟩
      (ensureFresh ctx refused : CliProgram Value _) := by
  have hlocked : ∀ current, Stays owner holder (OnCourse owner) ⟨.idle, [current]⟩
      (withLock (refreshLocked ctx refused current) : CliProgram Value _) := by
    intro current
    refine ⟨⟨nofun, .same (by simp) (by simp) (by simp)⟩, fun answer _ => ?_⟩
    cases answer with
    | error error => exact Course.error (by simp) (storeError_other error)
    | ok _ =>
        refine (stays_refreshLocked ctx refused current).bind fun seen result hresult => ?_
        exact ⟨⟨nofun, Course.under_way owner hresult⟩, fun _ _ => hresult⟩
  refine stays_loadSession ctx (.unloaded (by simp)) (fun view error _ => .unloaded (by simp))
    fun current howned => ?_
  have hcourse : Course owner [current] none := .same (by simp) (by simp) (by simp)
  have hcurrent : Course owner [current] (some (.ok current)) := by
    refine .same (by simp) (fun session heq => ?_) (by simp)
    cases heq
    exact howned.1
  refine ⟨⟨nofun, hcourse⟩, fun now _ => ?_⟩
  change Stays owner holder _ ⟨.idle, [current]⟩ (ite _ _ _)
  split
  · exact Course.error (by simp) (signInEnded_other current _)
  · split
    · refine ⟨⟨nofun, hcourse⟩, fun now' _ => ?_⟩
      change Stays owner holder _ ⟨.idle, [current]⟩ (ite _ _ _)
      split
      · exact hlocked current
      · exact hcurrent
    · exact hlocked current

end Programs

/-! ## The two halves of a call -/

section Call

variable {owner holder} {ctx : Ctx} {tr tr₁ tr₂ : List (CliExchange Value)}

/-- The result of a program that is done. -/
def resultOf {α : Type} : CliProgram Value α → Option α
  | .done result => some result
  | .ask _ _ => none

/-- No request has been sent. -/
def NoRequest (tr : List (CliExchange Value)) : Prop := ∀ e ∈ tr, ∀ token, e.query ≠ .request token

theorem seen_view (seen : Seen) (e : CliExchange Value) :
    (seen.after e).view = seen.view.after e := by
  obtain ⟨query, answer⟩ := e
  cases query with
  | load => cases answer <;> rfl
  | _ => rfl

theorem seen_loads (seen : Seen) (e : CliExchange Value) :
    (seen.after e).loads = seen.loads ++ loadOf e := by
  obtain ⟨query, answer⟩ := e
  cases query with
  | load =>
      cases answer with
      | session session => rfl
      | missing | unreadable _ => exact (List.append_nil _).symm
  | _ => exact (List.append_nil _).symm

theorem foldl_loads (seen : Seen) (tr : List (CliExchange Value)) :
    (tr.foldl Seen.after seen).loads = seen.loads ++ loadsOf tr := by
  induction tr generalizing seen with
  | nil => exact (List.append_nil _).symm
  | cons e tr ih =>
      rw [List.foldl_cons, ih, seen_loads, List.append_assoc]
      rfl

theorem along_seen {seen : Seen} (h : Along View.after (Answers owner holder) seen.view tr) :
    Along Seen.after (fun seen => Answers owner holder seen.view) seen tr := by
  induction tr generalizing seen with
  | nil => trivial
  | cons e tr ih =>
      refine ⟨h.1, ih ?_⟩
      rw [seen_view]
      exact h.2

/-- **What has been loaded in an `ensureFresh` is on course, and no request has been sent.** -/
theorem ensureFresh_course {refused : Option String}
    {left : CliProgram Value (Except CliError StoredSession)}
    (htrace : Trace (ensureFresh ctx refused) tr left)
    (hlawful : Along View.after (Answers owner holder) .idle tr) :
    Course owner (loadsOf tr) (resultOf left) ∧ NoRequest tr := by
  have hseen : Along Seen.after (fun seen => Answers owner holder seen.view) ⟨.idle, []⟩ tr :=
    along_seen hlawful
  constructor
  · have hleft := (stays_ensureFresh ctx refused).trace htrace hseen
    have hloads : (tr.foldl Seen.after ⟨.idle, []⟩).loads = loadsOf tr := foldl_loads _ _
    rw [← hloads]
    cases left with
    | done result => exact hleft
    | ask query next => exact hleft.1.2
  · intro e he
    obtain ⟨before, after, rfl⟩ := List.append_of_mem he
    exact ((stays_ensureFresh ctx refused).allowed htrace hseen).1

theorem loadsOf_append : loadsOf (tr₁ ++ tr₂) = loadsOf tr₁ ++ loadsOf tr₂ := List.flatMap_append

theorem sent_append (h : NoRequest tr₁) (loads : List StoredSession) :
    sent loads (tr₁ ++ tr₂) = sent (loads ++ loadsOf tr₁) tr₂ := by
  induction tr₁ generalizing loads with
  | nil =>
      change sent loads tr₂ = sent (loads ++ []) tr₂
      rw [List.append_nil]
  | cons e tr ih =>
      obtain ⟨query, answer⟩ := e
      have htail := ih (fun e he => h e (List.mem_cons_of_mem _ he))
      have hstep : sent loads ((⟨query, answer⟩ :: tr) ++ tr₂) =
          sent (loads ++ loadOf ⟨query, answer⟩) (tr ++ tr₂) := by
        cases query with
        | request token => exact absurd rfl (h _ List.mem_cons_self token)
        | _ => rfl
      rw [hstep, htail, List.append_assoc]
      rfl

theorem retryLoads_append (h : NoRequest tr₁) : retryLoads (tr₁ ++ tr₂) = retryLoads tr₂ := by
  induction tr₁ with
  | nil => rfl
  | cons e tr ih =>
      obtain ⟨query, answer⟩ := e
      have htail := ih (fun e he => h e (List.mem_cons_of_mem _ he))
      rw [← htail]
      cases query with
      | request token => exact absurd rfl (h _ List.mem_cons_self token)
      | _ => rfl

/-- A program after `ensureFresh`: it is under way there, or has failed there, or goes on. -/
theorem andThen_cases {α : Type} {p : CliProgram Value (Except CliError StoredSession)}
    {f : StoredSession → CliProgram Value (Except CliError α)}
    {left : CliProgram Value (Except CliError α)} (h : Trace (p.andThen f) tr left) :
    (∃ p', Trace p tr p' ∧ ∀ r, ended left = some r →
      ∃ error, r = some error ∧ resultOf p' = some (.error error)) ∨
    ∃ tr₁ session tr₂, tr = tr₁ ++ tr₂ ∧ Runs p tr₁ (.ok session) ∧ Trace (f session) tr₂ left := by
  rcases trace_bind h with ⟨p', htrace, rfl⟩ | ⟨tr₁, result, tr₂, rfl, hruns, htrace⟩
  · cases p' with
    | ask query next => exact .inl ⟨_, htrace, fun r hr => nomatch hr⟩
    | done result =>
        cases result with
        | error error =>
            refine .inl ⟨_, htrace, fun r hr => ⟨error, ?_, rfl⟩⟩
            exact (Option.some.inj hr).symm
        | ok session =>
            refine .inr ⟨tr, session, [], (List.append_nil tr).symm, trace_done_iff.mp htrace, ?_⟩
            exact .nil _
  · cases result with
    | ok session => exact .inr ⟨tr₁, session, tr₂, rfl, hruns, htrace⟩
    | error error =>
        cases htrace with
        | nil =>
            rw [List.append_nil]
            refine .inl ⟨_, trace_done_iff.mpr hruns, fun r hr => ⟨error, ?_, rfl⟩⟩
            exact (Option.some.inj hr).symm

/-- The sessions of a course that has come to a session are of one account, and so is that
session. -/
theorem Course.of_ok {loads : List StoredSession} {session : StoredSession}
    (h : Course owner loads (some (.ok session))) :
    ∃ current more, loads = current :: more ∧
      (∀ other ∈ loads, other.account.uuid = current.account.uuid) ∧
        owner session.accessToken = current.account.uuid := by
  cases h with
  | unloaded hresult => exact absurd rfl (hresult session)
  | same hmore hok _ =>
      refine ⟨_, _, rfl, fun other hother => ?_, hok session rfl⟩
      rcases List.mem_cons.mp hother with rfl | hother
      · rfl
      · exact hmore other hother
  | changed _ hresult => cases hresult _ rfl

/-! ### After a refusal -/

section Refused

variable {α : Type} {token : String} {error : ClientError} {front back : List (CliExchange Value)}
  {current : StoredSession} {more : List StoredSession}
  {left : CliProgram Value (Except CliError α)}

/-- The course of a call up to a request that was refused. -/
structure RefusedAt (owner : String → String) (token : String) (front : List (CliExchange Value))
    (current : StoredSession) (more : List StoredSession) : Prop where
  loads : loadsOf front = current :: more
  same : ∀ session ∈ loadsOf front, session.account.uuid = current.account.uuid
  token : owner token = current.account.uuid
  quiet : NoRequest front

variable (error back) in
/-- What was loaded, sent and loaded again by a call that goes on after a refusal. -/
theorem RefusedAt.parts (h : RefusedAt owner token front current more) :
    loadsOf (front ++ ⟨.request token, .error error⟩ :: back) = current :: more ++ loadsOf back ∧
    sent [] (front ++ ⟨.request token, .error error⟩ :: back) =
      (token, current :: more) :: sent (current :: more) back ∧
    retryLoads (front ++ ⟨.request token, .error error⟩ :: back) = loadsOf back := by
  refine ⟨?_, ?_, ?_⟩
  · rw [loadsOf_append, h.loads]
    rfl
  · rw [sent_append h.quiet, h.loads]
    rfl
  · rw [retryLoads_append h.quiet]
    rfl

theorem sent_quiet (h : NoRequest back) (loads : List StoredSession) : sent loads back = [] := by
  rw [← List.append_nil back, sent_append h]
  rfl

theorem RefusedAt.mem_front (h : RefusedAt owner token front current more) :
    ∀ session ∈ current :: more, session.account.uuid = current.account.uuid := by
  rw [← h.loads]
  exact h.same

/-- The request that was refused kept to the account. -/
theorem RefusedAt.request (h : RefusedAt owner token front current more) :
    ∃ first ∈ (current :: more).head?, owner token = first.account.uuid ∧
      ∀ other ∈ current :: more, other.account.uuid = first.account.uuid :=
  ⟨current, rfl, h.token, h.mem_front⟩

/-- The second half of a call before it sends again. -/
theorem RefusedAt.again (h : RefusedAt owner token front current more)
    {result : Option (Except CliError StoredSession)} (hcourse : Course owner (loadsOf back) result)
    (hno : NoRequest back)
    (hended : ∀ r, ended left = some r → ∃ error, r = some error ∧ result = some (.error error)) :
    KeptUnlessSwitched owner (front ++ ⟨.request token, .error error⟩ :: back) left := by
  obtain ⟨hloads, hsent, hretry⟩ := h.parts error back
  rw [sent_quiet hno] at hsent
  constructor
  · intro hstays
    constructor
    case requests =>
      intro request hrequest
      rw [hsent, List.mem_singleton] at hrequest
      rw [hrequest]
      exact h.request
    case changed =>
      intro first hfirst other hother hne r hr
      rw [hloads] at hfirst hother
      cases hfirst
      rcases List.mem_append.mp hother with hfront | hback
      · exact absurd (h.mem_front other hfront) hne
      · obtain ⟨error', rfl, hresult⟩ := hended r hr
        generalize hback' : loadsOf back = loads at hcourse hback
        cases hcourse with
        | unloaded _ => cases hback
        | @same current' more' _ hmore _ _ =>
            -- The call went on as another account.
            refine absurd
              ⟨current, ?_, current', ?_, fun hsame => ?_, fun again hagain => ?_⟩ hstays
            · rw [hloads]
              rfl
            · rw [hretry, hback']
              rfl
            · rcases List.mem_cons.mp hback with rfl | hback
              · exact hne hsame
              · exact hne ((hmore other hback).trans hsame)
            · rw [hretry, hback'] at hagain
              exact hmore again (List.mem_of_mem_head? (by rwa [List.head?_eq_getElem?]))
        | changed hne' hchanged =>
            cases hchanged _ hresult
            exact ⟨_, rfl⟩
  · rintro hsome ⟨first, hfirst, other, hother, hne, hagain⟩ hkeeps
    rw [hloads] at hfirst
    cases hfirst
    rw [hretry] at hother hagain
    obtain ⟨r, hr⟩ := Option.isSome_iff_exists.mp hsome
    obtain ⟨error', rfl, hresult⟩ := hended r hr
    generalize hback : loadsOf back = loads at hcourse hother hagain
    cases hcourse with
    | unloaded _ => cases hother
    | same hmore _ herror =>
        cases hother
        have hmem : other ∈ loadsOf (front ++ ⟨.request token, .error error⟩ :: back) := by
          rw [hloads, hback]
          exact List.mem_append_right _ List.mem_cons_self
        obtain ⟨latest, heq⟩ := hkeeps.changed current (by rw [hloads]; rfl) other hmem hne _ hr
        cases heq
        exact herror latest hresult
    | changed hne' _ =>
        cases hother
        exact hne' (hagain _ rfl)

/-- The second half of a call when it has sent again. -/
theorem RefusedAt.sentAgain (h : RefusedAt owner token front current more) {session : StoredSession}
    (hcourse : Course owner (loadsOf back) (some (.ok session))) (hno : NoRequest back)
    {answer : Except ClientError Value} :
    KeepsAccount owner (front ++ ⟨.request token, .error error⟩ ::
        (back ++ [⟨.request session.accessToken, answer⟩])) left ↔
      ¬ Switched (front ++ ⟨.request token, .error error⟩ ::
        (back ++ [⟨.request session.accessToken, answer⟩])) := by
  obtain ⟨hloads, hsent, hretry⟩ :=
    h.parts error (back ++ [⟨.request session.accessToken, answer⟩])
  have hback : loadsOf (back ++ [(⟨.request session.accessToken, answer⟩ : CliExchange Value)]) =
      loadsOf back := by
    rw [loadsOf_append]
    exact List.append_nil _
  rw [hback] at hloads hretry
  have hsent' : sent (current :: more)
      (back ++ [(⟨.request session.accessToken, answer⟩ : CliExchange Value)]) =
        [(session.accessToken, current :: more ++ loadsOf back)] := by
    rw [sent_append hno]
    rfl
  rw [hsent'] at hsent
  obtain ⟨current', more', hcurrent, hsame, hsession⟩ := hcourse.of_ok
  constructor
  · rintro hkeeps ⟨first, hfirst, other, hother, hne, -⟩
    rw [hloads] at hfirst
    cases hfirst
    rw [hretry, hcurrent] at hother
    obtain rfl : current' = other := Option.some.inj hother
    -- The repeat was sent while a session of another account was loaded.
    have hlast : (session.accessToken, current :: more ++ loadsOf back) ∈
        [(token, current :: more), (session.accessToken, current :: more ++ loadsOf back)] :=
      List.mem_cons_of_mem _ List.mem_cons_self
    rw [← hsent] at hlast
    obtain ⟨first', hfirst', _, hall⟩ := hkeeps.requests _ hlast
    cases hfirst'
    refine hne (hall current' (List.mem_append_right _ ?_))
    rw [hcurrent]
    exact List.mem_cons_self
  · intro hstays
    have heq : current'.account.uuid = current.account.uuid := by
      by_contra hne
      refine hstays ⟨current, ?_, current', ?_, hne, fun again hagain => ?_⟩
      · rw [hloads]
        rfl
      · rw [hretry, hcurrent]
        rfl
      · rw [hretry] at hagain
        exact hsame again (List.mem_of_getElem? hagain)
    have hall : ∀ other ∈ current :: more ++ loadsOf back,
        other.account.uuid = current.account.uuid := by
      intro other hother
      rcases List.mem_append.mp hother with hfront | hback
      · exact h.mem_front other hfront
      · exact (hsame other hback).trans heq
    constructor
    case requests =>
      intro request hrequest
      rw [hsent] at hrequest
      rcases List.mem_cons.mp hrequest with rfl | hrequest
      · exact h.request
      · rw [List.mem_singleton.mp hrequest]
        exact ⟨current, rfl, hsession.trans heq, hall⟩
    case changed =>
      intro first hfirst other hother hne
      rw [hloads] at hfirst hother
      cases hfirst
      exact absurd (hall other hother) hne

end Refused

/-! ### The call -/

/-- A program that sends one request and ends. -/
def SendsOnce {α : Type} (token : String) (p : CliProgram Value (Except CliError α)) : Prop :=
  ∀ tr left, Trace p tr left →
    (tr = [] ∧ ended left = none) ∨ ∃ answer, tr = [⟨.request token, answer⟩]

/-- A call after its refused request. -/
theorem RefusedAt.kept {α : Type} {token : String} {error : ClientError}
    {front back : List (CliExchange Value)} {current : StoredSession} {more : List StoredSession}
    {f : StoredSession → CliProgram Value (Except CliError α)}
    {left : CliProgram Value (Except CliError α)} {refused : Option String}
    (h : RefusedAt owner token front current more)
    (hf : ∀ session : StoredSession, SendsOnce session.accessToken (f session))
    (htrace : Trace ((ensureFresh ctx refused).andThen f) back left)
    (hlawful : Along View.after (Answers owner holder) .idle back) :
    KeptUnlessSwitched owner (front ++ ⟨.request token, .error error⟩ :: back) left := by
  rcases andThen_cases htrace with
    ⟨p', hfresh, hended⟩ | ⟨back₁, session, back₂, rfl, hruns, hsend⟩
  · obtain ⟨hcourse, hno⟩ := ensureFresh_course hfresh hlawful
    exact h.again hcourse hno hended
  · have hlawful₁ := (along_append.mp hlawful).1
    obtain ⟨hcourse, hno⟩ := ensureFresh_course (trace_done_iff.mpr hruns) hlawful₁
    rcases hf session back₂ left hsend with ⟨rfl, hleft⟩ | ⟨answer, rfl⟩
    · rw [List.append_nil]
      refine h.again (Course.under_way owner hcourse) hno fun r hr => ?_
      cases hleft.symm.trans hr
    · have hiff : KeepsAccount owner (front ++ ⟨.request token, .error error⟩ ::
          (back₁ ++ [⟨.request session.accessToken, answer⟩])) left ↔ _ := h.sentAgain hcourse hno
      exact ⟨hiff.mpr, fun _ hswitched hkeeps => hiff.mp hkeeps hswitched⟩

end Call

/-! ## Every interleaving -/

section Runs

variable {owner holder} {s s' : Profile} {views : Pid → View} {pid : Pid} {view : View}
  {exchange : CliExchange Value}

/-- What a process may save is of its account. -/
structure OwnedView (owner holder : String → String) (view : View) : Prop where
  granted : ∀ c, view.granted = some c → Owned owner holder c
  rotated : ∀ saved issued, view.lock = .rotated saved issued → Owned owner holder issued

theorem OwnedView.after (h : OwnedView owner holder view)
    (hissues : IssuesFor owner holder exchange) :
    OwnedView owner holder (view.after exchange) := by
  obtain ⟨query, answer⟩ := exchange
  cases query with
  | now | legacyFiles | otherOrigins | removeLegacy | signin | api | revoke _ | me _ | request _ =>
      exact h
  | lock =>
      cases answer with
      | error error => exact h
      | ok _ => exact ⟨h.granted, nofun⟩
  | unlock | remove => exact ⟨h.granted, nofun⟩
  | save session => exact ⟨nofun, nofun⟩
  | load =>
      refine ⟨h.granted, fun saved issued hlock => ?_⟩
      rcases LockView.load_cases view.lock answer with
        ⟨_, hout⟩ | ⟨_, hin | ⟨session, _, hholding⟩⟩
      · cases hout.symm.trans hlock
      · cases hin.symm.trans hlock
      · cases hholding.symm.trans hlock
  | newSignIn slt =>
      cases answer with
      | error error => exact h
      | ok tokens =>
          refine ⟨fun c hc => ?_, h.rotated⟩
          cases hc
          exact hissues
  | refreshToken token =>
      cases answer with
      | error error => exact h
      | ok response =>
          simp only [View.after]
          split
          · rename_i saved issued hlock hissued
            refine ⟨h.granted, fun saved' issued' heq => ?_⟩
            cases heq
            exact (hissues _ hissued).1
          · exact h

/-- What is saved and what may be saved is of its account. -/
structure AllOwned (owner holder : String → String) (s : Profile) (views : Pid → View) : Prop
    extends Locked s views where
  file : ∀ c ∈ s.credentials, Owned owner holder c
  view : ∀ pid, OwnedView owner holder (views pid)

theorem AllOwned.maySave (h : AllOwned owner holder s views) {c : Credentials}
    (hsave : (views pid).MaySave c) : Owned owner holder c := by
  unfold View.MaySave at hsave
  split at hsave
  · exact hsave.elim
  · exact (h.view pid).granted c hsave
  · rename_i saved hlock
    rcases hsave with hsave | rfl
    · exact (h.view pid).granted c hsave
    · exact h.file _ (h.holding pid _ hlock)
  · rename_i saved issued hlock
    cases hsave
    exact (h.view pid).rotated _ _ hlock

theorem AllOwned.file_step {ctx : Ctx} (h : AllOwned owner holder s views)
    (hallowed : (views pid).Allowed exchange.query)
    (hrespond : respond ctx s pid exchange = some s') :
    ∀ c ∈ s'.credentials, Owned owner holder c := by
  intro c hc
  obtain ⟨query, answer⟩ := exchange
  cases query with
  | now | legacyFiles | otherOrigins | removeLegacy | signin | api | revoke _ | me _ | request _
  | unlock =>
      cases hrespond
      exact h.file c hc
  | load =>
      cases respond_load hrespond
      exact h.file c hc
  | lock =>
      cases answer with
      | error error =>
          cases hrespond
          exact h.file c hc
      | ok _ =>
          cases (Option.ite_none_right_eq_some.mp hrespond).2
          exact h.file c hc
  | save session =>
      cases answer with
      | error error =>
          cases hrespond
          exact h.file c hc
      | ok _ =>
          cases hrespond
          cases hc
          exact h.maySave hallowed
  | remove =>
      cases answer with
      | error error =>
          cases hrespond
          exact h.file c hc
      | ok removed =>
          cases (Option.ite_none_right_eq_some.mp hrespond).2
          cases hc
  | newSignIn _ | refreshToken _ =>
      cases answer <;>
      · cases hrespond
        exact h.file c hc

/-- **Every exchange that is allowed is answered for the accounts**, and keeps what is saved so. -/
theorem AllOwned.step {ctx : Ctx} (h : AllOwned owner holder s views)
    (hallowed : (views pid).Allowed exchange.query) (hissues : IssuesFor owner holder exchange)
    (hrespond : respond ctx s pid exchange = some s') :
    Answers owner holder (views pid) exchange ∧
      AllOwned owner holder s' (Function.update views pid ((views pid).after exchange)) := by
  have hloaded : ∀ session ∈ loadOf exchange, s.credentials = some session.credentials := by
    obtain ⟨query, answer⟩ := exchange
    intro session hsession
    cases query with
    | load =>
        cases answer with
        | session session' =>
            rw [List.mem_singleton.mp hsession]
            exact respond_session hrespond
        | missing | unreadable _ => cases hsession
    | _ => cases hsession
  refine ⟨⟨hissues, fun session hsession => ⟨h.file _ (hloaded session hsession), ?_⟩⟩,
    ⟨h.toLocked.step hallowed hrespond, ?_, fun other => ?_⟩⟩
  · intro saved hlock
    exact Option.some.inj ((hloaded session hsession).symm.trans (h.holding pid saved hlock))
  · exact h.file_step hallowed hrespond
  · by_cases hother : other = pid
    · subst hother
      rw [Function.update_self]
      exact (h.view other).after hissues
    · rw [Function.update_of_ne hother]
      exact h.view other

end Runs

end Accounts

/-! ## Sample calls -/

section Sample

instance (owner holder : String → String) (c : Credentials) : Decidable (Owned owner holder c) :=
  inferInstanceAs (Decidable (_ ∧ _))

instance decidableIssuesFor (owner holder : String → String) :
    (e : CliExchange Value) → Decidable (IssuesFor owner holder e)
  | ⟨.newSignIn _, .ok tokens⟩ =>
      inferInstanceAs (Decidable (Owned owner holder tokens.credentials))
  | ⟨.refreshToken token, .ok response⟩ =>
      inferInstanceAs (Decidable (∀ issued ∈ response.credentials,
        Owned owner holder issued ∧ issued.account = holder token))
  | ⟨.newSignIn _, .error _⟩ | ⟨.refreshToken _, .error _⟩
  | ⟨.now, _⟩ | ⟨.load, _⟩ | ⟨.lock, _⟩ | ⟨.unlock, _⟩ | ⟨.save _, _⟩ | ⟨.remove, _⟩
  | ⟨.legacyFiles, _⟩ | ⟨.otherOrigins, _⟩ | ⟨.removeLegacy, _⟩ | ⟨.signin, _⟩ | ⟨.api, _⟩
  | ⟨.revoke _, _⟩ | ⟨.me _, _⟩ | ⟨.request _, _⟩ => .isTrue trivial

end Sample

end Waveform.Cli
