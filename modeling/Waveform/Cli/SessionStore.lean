import Waveform.Cli.Session
import Waveform.Library.Processes

/-!
# The saved sign-in among processes

Any number of `waveform` processes use the sign-in of one profile. The file is written under an
exclusive lock only, by a process that has loaded it there or holds a new sign-in. Refresh tokens
belong to sign-ins: a new sign-in starts with one, and each rotation answers a new one.

- `follows_program`: every command keeps to that discipline.
- `Kept.step`: what holds of the file, the tokens and the views at every moment.
- `sessions_safe`: no rotated refresh token is presented again, no sign-in that left the file is
  written back, and the file never returns to an earlier pair.
-/

set_option autoImplicit false

namespace Waveform.Cli

open LabelledRun Dialogue

variable {Value : Type}

/-! ## The profile -/

/-- The token pair of a sign-in and the account it is for. -/
structure Credentials where
  accessToken : String
  refreshToken : String
  account : String
  deriving DecidableEq

/-- The token pair. -/
def Credentials.pair (c : Credentials) : String × String := (c.accessToken, c.refreshToken)

def StoredSession.credentials (session : StoredSession) : Credentials :=
  ⟨session.accessToken, session.refreshToken, session.account.uuid⟩

def Tokens.credentials (tokens : Tokens) : Credentials :=
  ⟨tokens.accessToken, tokens.refreshToken, tokens.account.uuid⟩

/-- What an answer of the token endpoint holds, when it holds all of it. -/
def TokenResponse.credentials (response : TokenResponse) : Option Credentials :=
  response.refreshToken.bind fun refreshToken =>
    response.account.map fun account => ⟨response.accessToken, refreshToken, account.uuid⟩

/-- The name of a process. -/
abbrev Pid := Nat

/-- The session file and its lock, the sign-ins that the refresh tokens issued so far belong to, the
refresh tokens that the file has held, and those whose rotation was answered. -/
structure Profile where
  file : SessionFile
  lockedBy : Option Pid
  signInOf : String → Option Nat
  signIns : Nat
  saved : List String
  spent : List String

/-- The credentials in the file. -/
def fileCredentials : SessionFile → Option Credentials
  | some (.ok session) => some session.credentials
  | _ => none

namespace Profile

def credentials (s : Profile) : Option Credentials := fileCredentials s.file

/-- The file holds a sign-in. -/
def Holds (s : Profile) (signIn : Option Nat) : Prop :=
  ∃ c, s.credentials = some c ∧ s.signInOf c.refreshToken = signIn

/-- A refresh token of a new sign-in is issued. -/
def signedIn (s : Profile) (token : String) : Profile :=
  { s with
    signInOf := Function.update s.signInOf token (some s.signIns)
    signIns := s.signIns + 1 }

/-- The rotation of a refresh token is answered. -/
def rotated (s : Profile) (token : String) (next : Option String) : Profile :=
  { s with
    signInOf := match next with
      | some next => Function.update s.signInOf next (s.signInOf token)
      | none => s.signInOf
    spent := token :: s.spent }

end Profile

/-- The answers that a process can get, and what they do. Reading a file may fail, and so may taking
the lock; the answers from elsewhere are free. -/
def respond (ctx : Ctx) (s : Profile) (pid : Pid) : CliExchange Value → Option Profile
  | ⟨.load, .unreadable _⟩ => some s
  | ⟨.load, answer⟩ => if answer = load ctx s.file then some s else none
  | ⟨.lock, .ok ()⟩ => if s.lockedBy = none then some { s with lockedBy := some pid } else none
  | ⟨.unlock, ()⟩ => some { s with lockedBy := none }
  | ⟨.save session, .ok ()⟩ =>
      some { s with file := some (.ok session), saved := session.refreshToken :: s.saved }
  | ⟨.remove, .ok removed⟩ =>
      if removed = s.file.isSome then some { s with file := none } else none
  | ⟨.newSignIn _, .ok tokens⟩ => some (s.signedIn tokens.refreshToken)
  | ⟨.refreshToken token, .ok response⟩ => some (s.rotated token response.refreshToken)
  | _ => some s

/-- The processes on a profile. -/
abbrev Machine (Value : Type) :=
  System CliQuery (CliAnswer Value) (Except CliError (CommandResult Value)) Profile Pid

/-- What happens on it. -/
abbrev MachineAction (Value : Type) := Action CliQuery (CliAnswer Value) Command Pid

/-- The steps of the processes. -/
abbrev MachineStep (ctx : Ctx) :
    Machine Value → MachineAction Value → Machine Value → Prop :=
  SystemStep (Command.program ctx) (respond ctx)

/-- Nothing runs yet, and the token in the file is one that was issued. -/
structure Initial (s : Machine Value) : Prop where
  program : ∀ pid, s.program pid = none
  lockedBy : s.shared.lockedBy = none
  spent : s.shared.spent = []
  saved : ∀ token, token ∈ s.shared.saved ↔ ∃ c ∈ s.shared.credentials, c.refreshToken = token
  issued : ∀ token ∈ s.shared.saved, s.shared.signInOf token ≠ none
  bounded : ∀ token signIn, s.shared.signInOf token = some signIn → signIn < s.shared.signIns

/-- What is promised of the answers: saves succeed, and Silicon Accounts issues new refresh tokens,
with each rotation a whole pair. -/
def Promise (s : Profile) : CliExchange Value → Prop
  | ⟨.save _, answer⟩ => answer = .ok ()
  | ⟨.newSignIn _, .ok tokens⟩ => s.signInOf tokens.refreshToken = none
  | ⟨.refreshToken _, .ok response⟩ =>
      ∃ issued ∈ response.credentials, s.signInOf issued.refreshToken = none
  | _ => True

/-! ## What a process knows -/

/-- What a process knows of the file: without the lock nothing; with it, what it has loaded; and
between a rotation and its save, the pair to save. -/
inductive LockView where
  | outside
  | inside
  | holding (saved : Credentials)
  | rotated (saved issued : Credentials)

/-- That, and a new sign-in that is not saved yet. -/
structure View where
  granted : Option Credentials
  lock : LockView

/-- A process without the lock and without a new sign-in. -/
def View.idle : View := ⟨none, .outside⟩

/-- What it has loaded counts under the lock. -/
def LockView.load : LockView → Loaded → LockView
  | .outside, _ => .outside
  | _, .session session => .holding session.credentials
  | _, _ => .inside

/-- What an exchange tells. -/
def View.after (view : View) : CliExchange Value → View
  | ⟨.lock, .ok ()⟩ => { view with lock := .inside }
  | ⟨.unlock, ()⟩ => { view with lock := .outside }
  | ⟨.load, loaded⟩ => { view with lock := view.lock.load loaded }
  | ⟨.save _, _⟩ => ⟨none, .inside⟩
  | ⟨.remove, _⟩ => { view with lock := .inside }
  | ⟨.newSignIn _, .ok tokens⟩ => { view with granted := some tokens.credentials }
  | ⟨.refreshToken _, .ok response⟩ =>
      match view.lock, response.credentials with
      | .holding saved, some issued => { view with lock := .rotated saved issued }
      | _, _ => view
  | _ => view

/-- The lock is held and no rotated pair waits to be saved. -/
def LockView.Rests : LockView → Prop
  | .inside | .holding _ => True
  | .outside | .rotated _ _ => False

/-- What may be saved: the rotated pair, the pair in the file, or a new sign-in. -/
def View.MaySave (view : View) (c : Credentials) : Prop :=
  match view.lock with
  | .outside => False
  | .inside => view.granted = some c
  | .holding saved => view.granted = some c ∨ saved = c
  | .rotated _ issued => issued = c

/-- What a process may ask. -/
def View.Allowed (view : View) : CliQuery → Prop
  | .load => view.lock = .outside ∨ view.lock.Rests
  | .lock => view.lock = .outside
  | .unlock | .remove => view.lock.Rests
  | .save session => view.MaySave session.credentials
  | .newSignIn _ => view = .idle
  | .refreshToken token => ∃ saved, view.lock = .holding saved ∧ saved.refreshToken = token
  | _ => True

/-- A program that keeps to the discipline, whatever the answers. -/
abbrev Keeps {α : Type} (Post : View → α → Prop) (view : View) (p : CliProgram Value α) : Prop :=
  Follows View.after View.Allowed (fun _ _ => True) Post view p

/-! ## The commands keep to the discipline -/

section Commands

variable (ctx : Ctx) {α : Type} {view : View}

theorem keeps_notSignedIn {Post : View → Except CliError α → Prop}
    (h : ∀ error, Post view (.error error)) :
    Keeps Post view (notSignedIn ctx : CliProgram Value (Except CliError α)) := by
  refine ⟨trivial, fun legacy _ => ?_⟩
  change Keeps Post view (ite _ _ _)
  split
  · exact h _
  · refine ⟨trivial, fun origins _ => ?_⟩
    cases hother : origins.head? with
    | none =>
        simp only [hother]
        exact h _
    | some other =>
        simp only [hother]
        exact h _

/-- Loading the sign-in, where the lock lets the process. -/
theorem keeps_loadSession {Post : View → Except CliError α → Prop}
    {next : StoredSession → CliProgram Value (Except CliError α)}
    (hload : view.lock = .outside ∨ view.lock.Rests)
    (herror : ∀ loaded error, Post { view with lock := view.lock.load loaded } (.error error))
    (hnext : ∀ session,
      Keeps Post { view with lock := view.lock.load (.session session) } (next session)) :
    Keeps Post view (loadSession ctx next) := by
  refine ⟨hload, fun loaded _ => ?_⟩
  cases loaded with
  | missing => exact keeps_notSignedIn ctx fun error => herror _ error
  | unreadable why => exact herror _ _
  | session session => exact hnext session

/-- A block under the lock ends at rest. -/
theorem keeps_withLock {Post : View → Except CliError α → Prop}
    {body : CliProgram Value (Except CliError α)} {granted : Option Credentials}
    (hbody : Keeps (fun view result => view.lock.Rests ∧ Post { view with lock := .outside } result)
      ⟨granted, .inside⟩ body)
    (herror : ∀ error, Post ⟨granted, .outside⟩ (.error error)) :
    Keeps Post ⟨granted, .outside⟩ (withLock body) := by
  refine ⟨rfl, fun answer _ => ?_⟩
  cases answer with
  | error error => exact herror _
  | ok _ =>
      refine hbody.bind fun view result hview => ?_
      exact ⟨hview.1, fun _ _ => hview.2⟩

/-- At rest under the lock and without a new sign-in. -/
def View.AtRest (view : View) : Prop := view.lock.Rests ∧ { view with lock := .outside } = View.idle

/-- A whole answer gives its tokens, and another one none. -/
theorem fromResponse_cases (response : TokenResponse) (receivedAt : Int) :
    (∃ tokens, Tokens.fromResponse response receivedAt = .ok tokens ∧
      response.credentials = some tokens.credentials) ∨
    ∃ what, Tokens.fromResponse response receivedAt = .error (unexpected what) ∧
      response.credentials = none := by
  unfold Tokens.fromResponse TokenResponse.credentials
  cases response.refreshToken with
  | none => exact .inr ⟨_, rfl, rfl⟩
  | some refreshToken =>
      cases response.account with
      | none => exact .inr ⟨_, rfl, rfl⟩
      | some account => exact .inl ⟨_, rfl, rfl⟩

/-- The pair to save is the one that was answered. -/
theorem keeps_saveRotated (latest : StoredSession) (saved : Credentials) (tokens : Tokens) :
    Keeps (fun view _ => view.AtRest) ⟨none, .rotated saved tokens.credentials⟩
      (saveRotated latest tokens : CliProgram Value _) := by
  refine ⟨trivial, fun now _ => ⟨rfl, fun answer _ => ?_⟩⟩
  cases answer <;> exact ⟨trivial, rfl⟩

theorem keeps_removeEnded (latest : StoredSession) (saved : Credentials) (description : String) :
    Keeps (fun view _ => view.AtRest) ⟨none, .holding saved⟩
      (removeEnded latest description : CliProgram Value _) := by
  refine ⟨.inr trivial, fun loaded _ => ?_⟩
  cases loaded with
  | missing => exact ⟨trivial, rfl⟩
  | unreadable why => exact ⟨trivial, rfl⟩
  | session session =>
      change Keeps _ ⟨none, .holding session.credentials⟩ (ite _ _ _)
      split
      · refine ⟨trivial, fun answer _ => ?_⟩
        cases answer <;> exact ⟨trivial, rfl⟩
      · exact ⟨trivial, rfl⟩

/-- **A rotation saves the pair that it was answered.** -/
theorem keeps_rotate (latest : StoredSession) :
    Keeps (fun view _ => view.AtRest) ⟨none, .holding latest.credentials⟩
      (rotate latest : CliProgram Value _) := by
  refine ⟨trivial, fun answer _ => ?_⟩
  cases answer with
  | error error => exact ⟨trivial, rfl⟩
  | ok _ =>
      refine ⟨⟨_, rfl, rfl⟩, fun answer _ => ?_⟩
      cases answer with
      | error error =>
          cases error with
          | signInEnded description => exact keeps_removeEnded latest _ description
          | configuration | notEnabled | accounts | transport => exact ⟨trivial, rfl⟩
      | ok response =>
          refine ⟨trivial, fun now _ => ?_⟩
          change Keeps _ (View.after ⟨none, .holding latest.credentials⟩
            (⟨.refreshToken latest.refreshToken, .ok response⟩ : CliExchange Value))
            ((done (Tokens.fromResponse response now)).bind _)
          rcases fromResponse_cases response now with
            ⟨tokens, htokens, hissued⟩ | ⟨what, hnone, hissued⟩
          · have hview : View.after ⟨none, .holding latest.credentials⟩
                (⟨.refreshToken latest.refreshToken, .ok response⟩ : CliExchange Value) =
                  ⟨none, .rotated latest.credentials tokens.credentials⟩ := by
              simp only [View.after, hissued]
            rw [hview, htokens]
            exact keeps_saveRotated latest _ tokens
          · have hview : View.after ⟨none, .holding latest.credentials⟩
                (⟨.refreshToken latest.refreshToken, .ok response⟩ : CliExchange Value) =
                  ⟨none, .holding latest.credentials⟩ := by
              simp only [View.after, hissued]
            rw [hview, hnone]
            exact ⟨trivial, rfl⟩

/-- What happens under the lock ends at rest. -/
theorem keeps_refreshLocked (refused : Option String) (current : StoredSession) :
    Keeps (fun view _ => view.AtRest) ⟨none, .inside⟩
      (refreshLocked ctx refused current : CliProgram Value _) := by
  refine keeps_loadSession ctx (.inr trivial) (fun loaded _ => ?_) fun latest => ?_
  · cases loaded <;> exact ⟨trivial, rfl⟩
  · split
    · exact ⟨trivial, rfl⟩
    · split
      · exact keeps_rotate latest
      · refine ⟨trivial, fun now _ => ?_⟩
        change Keeps _ ⟨none, .holding latest.credentials⟩ (ite _ _ _)
        split
        · exact keeps_rotate latest
        · exact ⟨trivial, rfl⟩

theorem keeps_ensureFresh (refused : Option String) :
    Keeps (fun view _ => view = .idle) .idle (ensureFresh ctx refused : CliProgram Value _) := by
  have hlocked : ∀ current, Keeps (fun view _ => view = .idle) .idle
      (withLock (refreshLocked ctx refused current) : CliProgram Value _) := by
    intro current
    exact keeps_withLock (keeps_refreshLocked ctx refused current) fun _ => rfl
  refine keeps_loadSession ctx (.inl rfl) (fun _ _ => rfl) fun current => ⟨trivial, fun now _ => ?_⟩
  change Keeps _ .idle (ite _ _ _)
  split
  · rfl
  · split
    · refine ⟨trivial, fun now' _ => ?_⟩
      change Keeps _ .idle (ite _ _ _)
      split
      · exact hlocked current
      · rfl
    · exact hlocked current

theorem keeps_callWithSession :
    Keeps (fun _ _ => True) .idle (callWithSession ctx : CliProgram Value _) := by
  refine ⟨trivial, fun answer _ => ?_⟩
  cases answer with
  | error error => trivial
  | ok _ =>
      refine (keeps_ensureFresh ctx none).andThen (fun _ _ _ => trivial) ?_
      rintro _ session rfl
      refine ⟨trivial, fun answer _ => ?_⟩
      cases answer with
      | ok value => trivial
      | error error =>
          change Keeps _ .idle (ite _ _ _)
          split
          · refine (keeps_ensureFresh ctx _).andThen (fun _ _ _ => trivial) ?_
            rintro _ session' rfl
            refine ⟨trivial, fun answer _ => ?_⟩
            cases answer <;> trivial
          · trivial

theorem keeps_refresh : Keeps (fun _ _ => True) .idle (refresh ctx : CliProgram Value _) := by
  refine keeps_loadSession ctx (.inl rfl) (fun _ _ => trivial) fun session => ?_
  exact (keeps_ensureFresh ctx _).mono fun _ _ _ => trivial

theorem keeps_rememberAccount (session : StoredSession) (me : Me) :
    Keeps (fun _ _ => True) .idle (rememberAccount session me : CliProgram Value _) := by
  change Keeps _ .idle (ite _ _ _)
  split
  · trivial
  · refine ⟨rfl, fun answer _ => ?_⟩
    cases answer with
    | error error => trivial
    | ok _ =>
        refine ⟨.inr trivial, fun loaded _ => ?_⟩
        cases loaded with
        | missing => exact ⟨trivial, fun _ _ => trivial⟩
        | unreadable why => exact ⟨trivial, fun _ _ => trivial⟩
        | session latest =>
            change Keeps _ ⟨none, .holding latest.credentials⟩ (ite _ _ _)
            split
            · exact ⟨.inr rfl, fun _ _ => ⟨trivial, fun _ _ => trivial⟩⟩
            · exact ⟨trivial, fun _ _ => trivial⟩

theorem keeps_verifySignIn (session : StoredSession) :
    Keeps (fun _ _ => True) view (verifySignIn session : CliProgram Value _) := by
  refine ⟨trivial, fun answer _ => ?_⟩
  cases answer with
  | error error => trivial
  | ok _ =>
      refine ⟨trivial, fun answer _ => ?_⟩
      cases answer <;> trivial

theorem keeps_endPrevious (session : StoredSession) (previous : Option StoredSession) :
    Keeps (fun _ _ => True) view (endPrevious session previous : CliProgram Value _) := by
  cases previous with
  | none => exact keeps_verifySignIn session
  | some previous =>
      change Keeps _ view (ite _ _ _)
      split
      · exact ⟨trivial, fun _ _ => keeps_verifySignIn session⟩
      · exact keeps_verifySignIn session

/-- A new sign-in may replace the saved one. -/
theorem keeps_replaceSession (session : StoredSession) :
    Keeps (fun view _ => view.lock.Rests ∧ True) ⟨some session.credentials, .inside⟩
      (replaceSession session : CliProgram Value _) := by
  refine ⟨.inr trivial, fun loaded _ => ⟨?_, fun answer _ => ?_⟩⟩
  · cases loaded with
    | session previous => exact .inl rfl
    | missing => rfl
    | unreadable why => rfl
  · cases answer <;> exact ⟨trivial, trivial⟩

theorem keeps_login (slt : Except CliError (Option String)) :
    Keeps (fun _ _ => True) .idle (login ctx slt : CliProgram Value _) := by
  cases slt with
  | error error => trivial
  | ok slt =>
      refine ⟨trivial, fun answer _ => ?_⟩
      cases answer with
      | error error => trivial
      | ok _ =>
          refine ⟨rfl, fun answer _ => ?_⟩
          cases answer with
          | error error => trivial
          | ok tokens =>
              refine ⟨trivial, fun now _ => ?_⟩
              let session := StoredSession.fromTokens ctx tokens
                (if slt.isSome then "slt" else "device") now
              have hlocked : Keeps (fun _ _ => True) ⟨some session.credentials, .outside⟩
                  (withLock (replaceSession session) : CliProgram Value _) :=
                keeps_withLock (keeps_replaceSession session) fun _ => trivial
              refine hlocked.andThen (fun _ _ _ => trivial) fun view previous _ => ?_
              exact keeps_endPrevious _ previous

theorem keeps_removeSession (account : Option Account) (revoked : Bool) (hview : view.lock.Rests) :
    Keeps (fun view _ => view.lock.Rests ∧ True) view
      (removeSession account revoked : CliProgram Value _) := by
  refine ⟨hview, fun answer _ => ?_⟩
  cases answer with
  | error error => exact ⟨trivial, trivial⟩
  | ok removed => exact ⟨trivial, fun _ _ => ⟨trivial, trivial⟩⟩

theorem keeps_signOut :
    Keeps (fun view _ => view.lock.Rests ∧ True) ⟨none, .inside⟩
      (signOut : CliProgram Value _) := by
  refine ⟨.inr trivial, fun loaded _ => ?_⟩
  cases loaded with
  | missing => exact keeps_removeSession _ _ trivial
  | unreadable why => exact keeps_removeSession _ _ trivial
  | session session =>
      refine ⟨trivial, fun answer _ => ?_⟩
      cases answer with
      | error error => exact ⟨trivial, trivial⟩
      | ok _ =>
          refine ⟨trivial, fun answer _ => ?_⟩
          cases answer with
          | ok _ => exact keeps_removeSession _ _ trivial
          | error error => exact keeps_removeSession _ _ trivial

theorem keeps_logout : Keeps (fun _ _ => True) .idle (logout : CliProgram Value _) := by
  have hlocked : Keeps (fun _ _ => True) .idle (withLock signOut : CliProgram Value _) :=
    keeps_withLock keeps_signOut fun _ => trivial
  refine ⟨.inl rfl, fun loaded _ => ?_⟩
  cases loaded with
  | missing => exact ⟨trivial, fun _ _ => trivial⟩
  | unreadable why => exact hlocked
  | session session => exact hlocked

/-- **Every command keeps to the discipline.** -/
theorem keeps_program (command : Command) :
    Keeps (fun _ _ => True) .idle (command.program ctx : CliProgram Value _) := by
  cases command with
  | call =>
      exact (keeps_callWithSession ctx).andThen (fun _ _ _ => trivial) fun _ _ _ => trivial
  | ensureFresh refused =>
      exact (keeps_ensureFresh ctx refused).andThen (fun _ _ _ => trivial) fun _ _ _ => trivial
  | login slt =>
      exact (keeps_login ctx slt).andThen (fun _ _ _ => trivial) fun _ _ _ => trivial
  | logout => exact keeps_logout.andThen (fun _ _ _ => trivial) fun _ _ _ => trivial
  | refresh =>
      exact (keeps_refresh ctx).andThen (fun _ _ _ => trivial) fun _ _ _ => trivial
  | rememberAccount session me =>
      exact (keeps_rememberAccount session me).andThen (fun _ _ _ => trivial) fun _ _ _ => trivial

end Commands

/-! ## What holds at every moment -/

theorem load_session {ctx : Ctx} {file : SessionFile} {session : StoredSession}
    (h : load ctx file = .session session) : fileCredentials file = some session.credentials := by
  unfold load at h
  split at h
  · cases h
  · cases h
  · split at h
    · cases h
    · cases h
      rfl

/-- Outside the lock loading tells nothing; inside it tells the session that was loaded. -/
theorem LockView.load_cases (lock : LockView) (loaded : Loaded) :
    (lock = .outside ∧ lock.load loaded = .outside) ∨ (lock ≠ .outside ∧
      (lock.load loaded = .inside ∨
        ∃ session, loaded = .session session ∧
          lock.load loaded = .holding session.credentials)) := by
  cases lock with
  | outside => exact .inl ⟨rfl, rfl⟩
  | inside | holding _ | rotated _ _ =>
      refine .inr ⟨nofun, ?_⟩
      cases loaded with
      | missing => exact .inl rfl
      | unreadable why => exact .inl rfl
      | session session => exact .inr ⟨session, rfl, rfl⟩

theorem rests_inside {lock : LockView} (h : lock.Rests) : lock ≠ .outside := by
  rintro rfl
  exact h

theorem MaySave.lock {view : View} {c : Credentials} (h : view.MaySave c) :
    view.lock ≠ .outside := by
  intro hlock
  unfold View.MaySave at h
  rw [hlock] at h
  exact h

theorem credentials_refreshToken {response : TokenResponse} {issued : Credentials}
    (h : issued ∈ response.credentials) : response.refreshToken = some issued.refreshToken := by
  obtain ⟨refreshToken, hrefresh, hparts⟩ := Option.bind_eq_some_iff.mp h
  obtain ⟨account, _, rfl⟩ := Option.map_eq_some_iff.mp hparts
  exact hrefresh

/-- What the lock gives: only the process that has it is under it, and the file stays as that
process has loaded it. -/
structure Locked (s : Profile) (views : Pid → View) : Prop where
  exclusive : ∀ pid, (views pid).lock ≠ .outside → s.lockedBy = some pid
  holding : ∀ pid saved, (views pid).lock = .holding saved → s.credentials = some saved

/-- What holds of the file, the tokens and the views between any two steps. -/
structure Kept (s : Profile) (views : Pid → View) : Prop extends Locked s views where
  /-- A rotated pair is of the sign-in in the file and has never been there. -/
  rotated : ∀ pid saved issued, (views pid).lock = .rotated saved issued →
    s.credentials = some saved ∧ issued.refreshToken ∉ s.saved ∧
      s.signInOf issued.refreshToken = s.signInOf saved.refreshToken
  /-- A new sign-in has never been in the file, and no other process has it. -/
  granted : ∀ pid granted, (views pid).granted = some granted →
    s.signInOf granted.refreshToken ≠ none ∧
      ∀ token ∈ s.saved, s.signInOf token ≠ s.signInOf granted.refreshToken
  distinct : ∀ pid pid' granted granted', pid ≠ pid' → (views pid).granted = some granted →
    (views pid').granted = some granted' →
      s.signInOf granted.refreshToken ≠ s.signInOf granted'.refreshToken
  issued : ∀ token ∈ s.saved, s.signInOf token ≠ none
  bounded : ∀ token signIn, s.signInOf token = some signIn → signIn < s.signIns
  current : ∀ c, s.credentials = some c → c.refreshToken ∈ s.saved
  /-- A rotated refresh token is in the file only until the new pair is saved. -/
  spent : ∀ token ∈ s.spent, token ∈ s.saved ∧
    ∀ c, s.credentials = some c → c.refreshToken = token →
      ∃ pid issued, (views pid).lock = .rotated c issued

/-- What a process may save: a pair of the sign-in in the file, which is the pair in the file or has
never been there; or a sign-in that has never been there. -/
structure Fresh (s : Profile) (c : Credentials) : Prop where
  pair : s.credentials = some c ∨ c.refreshToken ∉ s.saved
  issued : s.signInOf c.refreshToken ≠ none
  signIn : s.Holds (s.signInOf c.refreshToken) ∨
    ∀ token ∈ s.saved, s.signInOf token ≠ s.signInOf c.refreshToken

section Kept

variable {s s' : Profile} {views : Pid → View} {pid : Pid} {exchange : CliExchange Value}

/-- Only one process is under the lock. -/
theorem Locked.alone (h : Locked s views) (hpid : (views pid).lock ≠ .outside) {other : Pid}
    (hother : (views other).lock ≠ .outside) : other = pid :=
  Option.some.inj ((h.exclusive other hother).symm.trans (h.exclusive pid hpid))

/-- A process that moves while the others under the lock keep what they know. -/
theorem Locked.move (h : Locked s views) {view : View}
    (hown : view.lock ≠ .outside → s'.lockedBy = some pid)
    (hlock : ∀ saved, view.lock = .holding saved → s'.credentials = some saved)
    (hothers : ∀ other, other ≠ pid → (views other).lock ≠ .outside →
      s'.lockedBy = some other ∧ s'.credentials = s.credentials) :
    Locked s' (Function.update views pid view) := by
  constructor
  case exclusive =>
    intro other hother
    by_cases hpid : other = pid
    · subst hpid
      rw [Function.update_self] at hother
      exact hown hother
    · rw [Function.update_of_ne hpid] at hother
      exact (hothers other hpid hother).1
  case holding =>
    intro other saved hother
    by_cases hpid : other = pid
    · subst hpid
      rw [Function.update_self] at hother
      exact hlock saved hother
    · rw [Function.update_of_ne hpid] at hother
      rw [(hothers other hpid (by rw [hother]; exact nofun)).2]
      exact h.holding other saved hother

/-- Loading only reads. -/
theorem respond_load {ctx : Ctx} {answer : Loaded}
    (h : respond ctx s pid (⟨.load, answer⟩ : CliExchange Value) = some s') : s' = s := by
  cases answer with
  | unreadable why => exact (Option.some.inj h).symm
  | missing => exact (Option.some.inj (Option.ite_none_right_eq_some.mp h).2).symm
  | session session => exact (Option.some.inj (Option.ite_none_right_eq_some.mp h).2).symm

/-- A session that is loaded is the one in the file. -/
theorem respond_session {ctx : Ctx} {session : StoredSession}
    (h : respond ctx s pid (⟨.load, .session session⟩ : CliExchange Value) = some s') :
    s.credentials = some session.credentials :=
  load_session (Option.ite_none_right_eq_some.mp h).1.symm

theorem after_refreshToken {view : View} {token : String} {response : TokenResponse}
    {saved issued : Credentials} (hlock : view.lock = .holding saved)
    (hissued : issued ∈ response.credentials) :
    view.after (⟨.refreshToken token, .ok response⟩ : CliExchange Value) =
      { view with lock := .rotated saved issued } := by
  simp only [View.after, hlock, Option.mem_def.mp hissued]

/-- **Every exchange that is allowed keeps what the lock gives.** -/
theorem Locked.step {ctx : Ctx} (h : Locked s views) (hallowed : (views pid).Allowed exchange.query)
    (hrespond : respond ctx s pid exchange = some s') :
    Locked s' (Function.update views pid ((views pid).after exchange)) := by
  obtain ⟨query, answer⟩ := exchange
  have hsame : Locked s (Function.update views pid (views pid)) := by
    rw [Function.update_eq_self]
    exact h
  -- Under the lock a process is alone, so it may also change the file.
  have hunder : (views pid).lock ≠ .outside → s'.lockedBy = s.lockedBy →
      ∀ view : View, (∀ saved, view.lock ≠ .holding saved) →
        Locked s' (Function.update views pid view) := by
    intro hlock hsame view hview
    refine h.move (fun _ => hsame.trans (h.exclusive pid hlock))
      (fun saved hsaved => absurd hsaved (hview saved)) fun other hne hother => ?_
    exact absurd (h.alone hlock hother) hne
  cases query with
  | now | legacyFiles | otherOrigins | removeLegacy | signin | api | revoke _ | me _ | request _ =>
      cases hrespond
      exact hsame
  | load =>
      have hsession : ∀ session, answer = .session session →
          s.credentials = some session.credentials := by
        rintro session rfl
        exact respond_session hrespond
      cases respond_load hrespond
      refine h.move (fun hload => ?_) (fun saved hload => ?_) fun other _ hother =>
        ⟨h.exclusive other hother, rfl⟩
      · rcases LockView.load_cases (views pid).lock answer with ⟨_, hout⟩ | ⟨hlock, _⟩
        · exact absurd hout hload
        · exact h.exclusive pid hlock
      · rcases LockView.load_cases (views pid).lock answer with
          ⟨_, hout⟩ | ⟨_, hin | ⟨session, heq, hholding⟩⟩
        · cases hout.symm.trans hload
        · cases hin.symm.trans hload
        · cases hholding.symm.trans hload
          exact hsession session heq
  | lock =>
      cases answer with
      | error error =>
          cases hrespond
          exact hsame
      | ok _ =>
          obtain ⟨hfree, heq⟩ := Option.ite_none_right_eq_some.mp hrespond
          cases heq
          refine h.move (fun _ => rfl) nofun fun other _ hother => ?_
          cases hfree.symm.trans (h.exclusive other hother)
  | unlock =>
      cases hrespond
      refine h.move (fun hlock => absurd rfl hlock) nofun fun other hne hother => ?_
      exact absurd (h.alone (rests_inside hallowed) hother) hne
  | save session =>
      have hlock := MaySave.lock hallowed
      cases answer with
      | error error =>
          cases hrespond
          exact hunder hlock rfl _ nofun
      | ok _ =>
          cases hrespond
          exact hunder hlock rfl _ nofun
  | remove =>
      have hlock := rests_inside hallowed
      cases answer with
      | error error =>
          cases hrespond
          exact hunder hlock rfl _ nofun
      | ok removed =>
          cases (Option.ite_none_right_eq_some.mp hrespond).2
          exact hunder hlock rfl _ nofun
  | newSignIn slt =>
      cases answer with
      | error error =>
          cases hrespond
          exact hsame
      | ok tokens =>
          cases hrespond
          exact h.move (h.exclusive pid) (h.holding pid) fun other _ hother =>
            ⟨h.exclusive other hother, rfl⟩
  | refreshToken token =>
      cases answer with
      | error error =>
          cases hrespond
          exact hsame
      | ok response =>
          obtain ⟨saved, hlock, rfl⟩ := hallowed
          cases hrespond
          have hinside : (views pid).lock ≠ .outside := by
            rw [hlock]
            exact nofun
          cases hissued : response.credentials with
          | none =>
              have hafter : (views pid).after (⟨.refreshToken saved.refreshToken, .ok response⟩ :
                  CliExchange Value) = views pid := by
                simp only [View.after, hlock, hissued]
              rw [hafter]
              exact h.move (fun _ => h.exclusive pid hinside) (h.holding pid) fun other _ hother =>
                ⟨h.exclusive other hother, rfl⟩
          | some issued =>
              rw [after_refreshToken hlock hissued]
              exact hunder hinside rfl _ nofun

/-- **What a process may save.** -/
theorem Kept.fresh (h : Kept s views) {c : Credentials} (hsave : (views pid).MaySave c) :
    Fresh s c := by
  have hgranted : (views pid).granted = some c → Fresh s c := by
    intro hgranted
    obtain ⟨hissued, hnew⟩ := h.granted pid c hgranted
    exact ⟨.inr fun hmem => hnew _ hmem rfl, hissued, .inr hnew⟩
  unfold View.MaySave at hsave
  split at hsave
  · exact hsave.elim
  · exact hgranted hsave
  · rename_i saved hlock
    rcases hsave with hsave | rfl
    · exact hgranted hsave
    · have hfile := h.holding pid _ hlock
      exact ⟨.inl hfile, h.issued _ (h.current _ hfile), .inl ⟨_, hfile, rfl⟩⟩
  · rename_i saved issued hlock
    obtain ⟨hfile, hnew, hsignIn⟩ := h.rotated pid _ _ hlock
    cases hsave
    refine ⟨.inr hnew, ?_, .inl ⟨_, hfile, hsignIn.symm⟩⟩
    rw [hsignIn]
    exact h.issued _ (h.current _ hfile)

/-- A new sign-in of another process is not what this one may save. -/
theorem Kept.apart (h : Kept s views) {c granted : Credentials} (hsave : (views pid).MaySave c)
    {other : Pid} (hother : other ≠ pid) (hgranted : (views other).granted = some granted) :
    s.signInOf c.refreshToken ≠ s.signInOf granted.refreshToken := by
  have hnew := (h.granted other granted hgranted).2
  have hmine : (views pid).granted = some c →
      s.signInOf c.refreshToken ≠ s.signInOf granted.refreshToken :=
    fun hmine => h.distinct pid other c granted (Ne.symm hother) hmine hgranted
  unfold View.MaySave at hsave
  split at hsave
  · exact hsave.elim
  · exact hmine hsave
  · rename_i saved hlock
    rcases hsave with hsave | rfl
    · exact hmine hsave
    · exact hnew _ (h.current _ (h.holding pid _ hlock))
  · rename_i saved issued hlock
    obtain ⟨hfile, _, hsignIn⟩ := h.rotated pid _ _ hlock
    cases hsave
    rw [hsignIn]
    exact hnew _ (h.current _ hfile)

/-- A spent refresh token is not what a process may save. -/
theorem Kept.save_unspent (h : Kept s views) {c : Credentials} (hsave : (views pid).MaySave c) :
    c.refreshToken ∉ s.spent := by
  intro hspent
  obtain ⟨hsaved, hrotated⟩ := h.spent _ hspent
  rcases (h.fresh hsave).pair with hfile | hnew
  · obtain ⟨other, issued, hlock⟩ := hrotated c hfile rfl
    have hother : other = pid := h.alone (MaySave.lock hsave) (by rw [hlock]; exact nofun)
    subst hother
    unfold View.MaySave at hsave
    rw [hlock] at hsave
    cases hsave
    exact (h.rotated other _ _ hlock).2.1 hsaved
  · exact hnew hsaved

/-- **A spent refresh token is not what a process may present.** -/
theorem Kept.present_unspent (h : Kept s views) {saved : Credentials}
    (hlock : (views pid).lock = .holding saved) : saved.refreshToken ∉ s.spent := by
  intro hspent
  obtain ⟨other, issued, hrotated⟩ :=
    (h.spent _ hspent).2 saved (h.holding pid saved hlock) rfl
  have hother : other = pid :=
    h.alone (by rw [hlock]; exact nofun) (by rw [hrotated]; exact nofun)
  subst hother
  cases hlock.symm.trans hrotated

/-! ### Steps -/

/-- Taking or releasing the lock, and loading. -/
theorem Kept.relock (h : Kept s views) {lockedBy : Option Pid} {lock : LockView}
    (hrests : (views pid).lock = .outside ∨ (views pid).lock.Rests)
    (hunrotated : ∀ saved issued, lock ≠ .rotated saved issued)
    (hlocked : Locked { s with lockedBy := lockedBy }
      (Function.update views pid { views pid with lock := lock })) :
    Kept { s with lockedBy := lockedBy }
      (Function.update views pid { views pid with lock := lock }) := by
  have hgranted : ∀ other, (Function.update views pid { views pid with lock := lock }
    other).granted =
      (views other).granted := by
    intro other
    by_cases hother : other = pid
    · subst hother
      rw [Function.update_self]
    · rw [Function.update_of_ne hother]
  constructor
  case toLocked => exact hlocked
  case rotated =>
    intro other saved issued hother
    by_cases hpid : other = pid
    · subst hpid
      rw [Function.update_self] at hother
      exact absurd hother (hunrotated saved issued)
    · rw [Function.update_of_ne hpid] at hother
      exact h.rotated other saved issued hother
  case granted =>
    intro other granted hother
    exact h.granted other granted ((hgranted other).symm.trans hother)
  case distinct =>
    intro other other' granted granted' hne hother hother'
    exact h.distinct other other' granted granted' hne ((hgranted other).symm.trans hother)
      ((hgranted other').symm.trans hother')
  case issued => exact h.issued
  case bounded => exact h.bounded
  case current => exact h.current
  case spent =>
    intro token htoken
    refine ⟨(h.spent token htoken).1, fun c hfile hc => ?_⟩
    obtain ⟨other, issued, hother⟩ := (h.spent token htoken).2 c hfile hc
    refine ⟨other, issued, ?_⟩
    have hpid : other ≠ pid := by
      rintro rfl
      rcases hrests with hout | hrests
      · cases hout.symm.trans hother
      · rw [hother] at hrests
        exact hrests
    rw [Function.update_of_ne hpid]
    exact hother

/-- A save. -/
theorem Kept.save (h : Kept s views) {session : StoredSession}
    (hsave : (views pid).MaySave session.credentials)
    (hlocked : Locked { s with file := some (.ok session), saved :=
      session.refreshToken :: s.saved }
      (Function.update views pid ⟨none, .inside⟩)) :
    Kept { s with file := some (.ok session), saved := session.refreshToken :: s.saved }
      (Function.update views pid ⟨none, .inside⟩) := by
  have hinside := MaySave.lock hsave
  have houtside : ∀ other, other ≠ pid → (views other).lock = .outside := by
    intro other hother
    by_contra hlock
    exact hother (h.alone hinside hlock)
  have hgranted : ∀ other granted,
      (Function.update views pid ⟨none, .inside⟩ other).granted = some granted →
        other ≠ pid ∧ (views other).granted = some granted := by
    intro other granted hother
    by_cases hpid : other = pid
    · subst hpid
      rw [Function.update_self] at hother
      cases hother
    · rw [Function.update_of_ne hpid] at hother
      exact ⟨hpid, hother⟩
  have hlock : ∀ other, (Function.update views pid ⟨none, .inside⟩ other).lock =
      if other = pid then .inside else .outside := by
    intro other
    by_cases hpid : other = pid
    · subst hpid
      rw [Function.update_self, if_pos rfl]
    · rw [Function.update_of_ne hpid, if_neg hpid]
      exact houtside other hpid
  constructor
  case toLocked => exact hlocked
  case rotated =>
    intro other saved issued hother
    rw [hlock] at hother
    split at hother <;> cases hother
  case granted =>
    intro other granted hother
    obtain ⟨hpid, hother⟩ := hgranted other granted hother
    obtain ⟨hissued, hnew⟩ := h.granted other granted hother
    refine ⟨hissued, fun token htoken => ?_⟩
    rcases List.mem_cons.mp htoken with rfl | htoken
    · exact h.apart hsave hpid hother
    · exact hnew token htoken
  case distinct =>
    intro other other' granted granted' hne hother hother'
    exact h.distinct other other' granted granted' hne (hgranted _ _ hother).2
      (hgranted _ _ hother').2
  case issued =>
    intro token htoken
    rcases List.mem_cons.mp htoken with rfl | htoken
    · exact (h.fresh hsave).issued
    · exact h.issued token htoken
  case bounded => exact h.bounded
  case current =>
    intro c hc
    cases hc
    exact List.mem_cons_self
  case spent =>
    intro token htoken
    refine ⟨List.mem_cons_of_mem _ (h.spent token htoken).1, fun c hc hrefresh => ?_⟩
    cases hc
    subst hrefresh
    exact absurd htoken (h.save_unspent hsave)

/-- A removal. -/
theorem Kept.remove (h : Kept s views) (hrests : (views pid).lock.Rests)
    (hlocked : Locked { s with file := none }
      (Function.update views pid { views pid with lock := .inside })) :
    Kept { s with file := none }
      (Function.update views pid { views pid with lock := .inside }) := by
  have hgranted : ∀ other, (Function.update views pid
      { views pid with lock := .inside } other).granted = (views other).granted := by
    intro other
    by_cases hother : other = pid
    · subst hother
      rw [Function.update_self]
    · rw [Function.update_of_ne hother]
  constructor
  case toLocked => exact hlocked
  case rotated =>
    intro other saved issued hother
    by_cases hpid : other = pid
    · subst hpid
      rw [Function.update_self] at hother
      cases hother
    · rw [Function.update_of_ne hpid] at hother
      exact absurd (h.alone (rests_inside hrests) (by rw [hother]; exact nofun)) hpid
  case granted =>
    intro other granted hother
    exact h.granted other granted ((hgranted other).symm.trans hother)
  case distinct =>
    intro other other' granted granted' hne hother hother'
    exact h.distinct other other' granted granted' hne ((hgranted other).symm.trans hother)
      ((hgranted other').symm.trans hother')
  case issued => exact h.issued
  case bounded => exact h.bounded
  case current =>
    intro c hc
    cases hc
  case spent =>
    intro token htoken
    refine ⟨(h.spent token htoken).1, fun c hc => ?_⟩
    cases hc

/-- A new token leaves the sign-ins of the issued ones. -/
theorem signInOf_update {token other : String} {signIn : Option Nat}
    (hnew : s.signInOf token = none)
    (hother : s.signInOf other ≠ none) :
    Function.update s.signInOf token signIn other = s.signInOf other := by
  refine Function.update_of_ne ?_ ..
  rintro rfl
  exact hother hnew

/-- A new sign-in. -/
theorem Kept.newSignIn (h : Kept s views) {c : Credentials}
    (hnew : s.signInOf c.refreshToken = none)
    (hlocked : Locked (s.signedIn c.refreshToken)
      (Function.update views pid { views pid with granted := some c })) :
    Kept (s.signedIn c.refreshToken)
      (Function.update views pid { views pid with granted := some c }) := by
  have hlock : ∀ other, (Function.update views pid { views pid with granted := some c }
    other).lock =
      (views other).lock := by
    intro other
    by_cases hpid : other = pid
    · subst hpid
      rw [Function.update_self]
    · rw [Function.update_of_ne hpid]
  have hown : ∀ token, s.signInOf token ≠ none →
      (s.signedIn c.refreshToken).signInOf token = s.signInOf token :=
    fun token htoken => signInOf_update hnew htoken
  have hissued : (s.signedIn c.refreshToken).signInOf c.refreshToken = some s.signIns :=
    Function.update_self ..
  -- The number of the new sign-in is above all that were given.
  have hbelow : ∀ token, s.signInOf token ≠ some s.signIns :=
    fun token htoken => Nat.lt_irrefl _ (h.bounded token _ htoken)
  have hgranted : ∀ other granted,
      (Function.update views pid { views pid with granted := some c } other).granted =
        some granted →
        (other = pid ∧ granted = c) ∨ (views other).granted = some granted := by
    intro other granted hother
    by_cases hpid : other = pid
    · subst hpid
      rw [Function.update_self] at hother
      exact .inl ⟨rfl, (Option.some.inj hother).symm⟩
    · rw [Function.update_of_ne hpid] at hother
      exact .inr hother
  constructor
  case toLocked => exact hlocked
  case rotated =>
    intro other saved issued hother
    rw [hlock] at hother
    obtain ⟨hfile, hunsaved, hsignIn⟩ := h.rotated other saved issued hother
    have hsaved := h.issued _ (h.current _ hfile)
    refine ⟨hfile, hunsaved, ?_⟩
    rw [hown _ hsaved, hown _ (by rw [hsignIn]; exact hsaved), hsignIn]
  case granted =>
    intro other granted hother
    rcases hgranted other granted hother with ⟨rfl, rfl⟩ | hother
    · rw [hissued]
      refine ⟨nofun, fun token htoken => ?_⟩
      rw [hown _ (h.issued token htoken)]
      exact hbelow token
    · obtain ⟨hsome, hunsaved⟩ := h.granted other granted hother
      rw [hown _ hsome]
      refine ⟨hsome, fun token htoken => ?_⟩
      rw [hown _ (h.issued token htoken)]
      exact hunsaved token htoken
  case distinct =>
    intro other other' granted granted' hne hother hother'
    rcases hgranted other granted hother with ⟨rfl, rfl⟩ | hother
    · rcases hgranted other' granted' hother' with ⟨rfl, rfl⟩ | hother'
      · exact absurd rfl hne
      · rw [hissued, hown _ (h.granted other' granted' hother').1]
        exact (hbelow _).symm
    · rw [hown _ (h.granted other granted hother).1]
      rcases hgranted other' granted' hother' with ⟨rfl, rfl⟩ | hother'
      · rw [hissued]
        exact hbelow _
      · rw [hown _ (h.granted other' granted' hother').1]
        exact h.distinct other other' granted granted' hne hother hother'
  case issued =>
    intro token htoken
    rw [hown _ (h.issued token htoken)]
    exact h.issued token htoken
  case bounded =>
    intro token signIn htoken
    by_cases htoken' : token = c.refreshToken
    · rw [htoken', hissued] at htoken
      cases htoken
      exact Nat.lt_succ_self _
    · have hold : s.signInOf token = some signIn :=
        (Function.update_of_ne htoken' ..).symm.trans htoken
      exact Nat.lt_succ_of_lt (h.bounded token signIn hold)
  case current => exact h.current
  case spent =>
    intro token htoken
    refine ⟨(h.spent token htoken).1, fun saved hsaved hrefresh => ?_⟩
    obtain ⟨other, issued, hother⟩ := (h.spent token htoken).2 saved hsaved hrefresh
    exact ⟨other, issued, (hlock other).trans hother⟩

/-- A rotation that is answered. -/
theorem Kept.rotate (h : Kept s views) {saved issued : Credentials}
    (hlock : (views pid).lock = .holding saved) (hnew : s.signInOf issued.refreshToken = none)
    (hlocked : Locked (s.rotated saved.refreshToken (some issued.refreshToken))
      (Function.update views pid { views pid with lock := .rotated saved issued })) :
    Kept (s.rotated saved.refreshToken (some issued.refreshToken))
      (Function.update views pid { views pid with lock := .rotated saved issued }) := by
  have hinside : (views pid).lock ≠ .outside := by
    rw [hlock]
    exact nofun
  have hfile := h.holding pid saved hlock
  have hsaved := h.current _ hfile
  have hown : ∀ token, s.signInOf token ≠ none →
      (s.rotated saved.refreshToken (some issued.refreshToken)).signInOf token =
        s.signInOf token := fun token htoken => signInOf_update hnew htoken
  have hissued : (s.rotated saved.refreshToken (some issued.refreshToken)).signInOf
      issued.refreshToken = s.signInOf saved.refreshToken := Function.update_self ..
  have hgranted : ∀ other, (Function.update views pid
      { views pid with lock := .rotated saved issued } other).granted = (views other).granted := by
    intro other
    by_cases hpid : other = pid
    · subst hpid
      rw [Function.update_self]
    · rw [Function.update_of_ne hpid]
  -- Only the process that rotates is inside the lock.
  have hothers : ∀ other, other ≠ pid → (Function.update views pid
      { views pid with lock := .rotated saved issued } other).lock = .outside := by
    intro other hpid
    rw [Function.update_of_ne hpid]
    by_contra hother
    exact hpid (h.alone hinside hother)
  constructor
  case toLocked => exact hlocked
  case rotated =>
    intro other saved' issued' hother
    by_cases hpid : other = pid
    · subst hpid
      rw [Function.update_self] at hother
      cases hother
      refine ⟨hfile, fun hmem => h.issued _ hmem hnew, ?_⟩
      rw [hissued, hown _ (h.issued _ hsaved)]
    · cases (hothers other hpid).symm.trans hother
  case granted =>
    intro other granted hother
    obtain ⟨hsome, hunsaved⟩ := h.granted other granted ((hgranted other).symm.trans hother)
    rw [hown _ hsome]
    refine ⟨hsome, fun token htoken => ?_⟩
    rw [hown _ (h.issued token htoken)]
    exact hunsaved token htoken
  case distinct =>
    intro other other' granted granted' hne hother hother'
    have hother := (hgranted other).symm.trans hother
    have hother' := (hgranted other').symm.trans hother'
    rw [hown _ (h.granted other granted hother).1, hown _ (h.granted other' granted' hother').1]
    exact h.distinct other other' granted granted' hne hother hother'
  case issued =>
    intro token htoken
    rw [hown _ (h.issued token htoken)]
    exact h.issued token htoken
  case bounded =>
    intro token signIn htoken
    by_cases htoken' : token = issued.refreshToken
    · rw [htoken', hissued] at htoken
      exact h.bounded _ signIn htoken
    · have hold : s.signInOf token = some signIn :=
        (Function.update_of_ne htoken' ..).symm.trans htoken
      exact h.bounded token signIn hold
  case current => exact h.current
  case spent =>
    intro token htoken
    have htoken' : token ∈ s.saved := by
      rcases List.mem_cons.mp htoken with rfl | htoken
      · exact hsaved
      · exact (h.spent token htoken).1
    refine ⟨htoken', fun c hc _ => ?_⟩
    cases hfile.symm.trans hc
    refine ⟨pid, issued, ?_⟩
    rw [Function.update_self]

/-- **Every exchange that is allowed and promised keeps it.** -/
theorem Kept.step {ctx : Ctx} (h : Kept s views)
    (hallowed : (views pid).Allowed exchange.query) (hpromise : Promise s exchange)
    (hrespond : respond ctx s pid exchange = some s') :
    Kept s' (Function.update views pid ((views pid).after exchange)) := by
  have hlocked := h.toLocked.step hallowed hrespond
  obtain ⟨query, answer⟩ := exchange
  have hsame : Kept s (Function.update views pid (views pid)) := by
    rw [Function.update_eq_self]
    exact h
  cases query with
  | now | legacyFiles | otherOrigins | removeLegacy | signin | api | revoke _ | me _ | request _ =>
      cases hrespond
      exact hsame
  | load =>
      cases respond_load hrespond
      refine h.relock hallowed (fun saved issued hload => ?_) hlocked
      rcases LockView.load_cases (views pid).lock answer with
        ⟨_, hout⟩ | ⟨_, hin | ⟨session, _, hholding⟩⟩
      · cases hout.symm.trans hload
      · cases hin.symm.trans hload
      · cases hholding.symm.trans hload
  | lock =>
      cases answer with
      | error error =>
          cases hrespond
          exact hsame
      | ok _ =>
          cases (Option.ite_none_right_eq_some.mp hrespond).2
          exact h.relock (.inl hallowed) nofun hlocked
  | unlock =>
      cases hrespond
      exact h.relock (.inr hallowed) nofun hlocked
  | save session =>
      -- A save that fails is outside the promise.
      cases (hpromise : answer = .ok ())
      cases hrespond
      exact h.save hallowed hlocked
  | remove =>
      cases answer with
      | error error =>
          cases hrespond
          exact h.relock (.inr hallowed) nofun hlocked
      | ok removed =>
          cases (Option.ite_none_right_eq_some.mp hrespond).2
          exact h.remove hallowed hlocked
  | newSignIn slt =>
      cases answer with
      | error error =>
          cases hrespond
          exact hsame
      | ok tokens =>
          cases hrespond
          exact @Kept.newSignIn s views pid h tokens.credentials hpromise hlocked
  | refreshToken token =>
      cases answer with
      | error error =>
          cases hrespond
          exact hsame
      | ok response =>
          obtain ⟨issued, hissued, hnew⟩ := hpromise
          obtain ⟨saved, hlock, rfl⟩ := hallowed
          cases hrespond
          rw [after_refreshToken hlock hissued] at hlocked ⊢
          rw [credentials_refreshToken hissued] at hlocked ⊢
          exact h.rotate hlock hnew hlocked

/-! ### What a step does to the file -/

/-- What has happened stays, and the file keeps its credentials, is removed or gets ones that the
process may save. -/
structure Grows (s s' : Profile) : Prop where
  saved : ∀ token ∈ s.saved, token ∈ s'.saved
  spent : ∀ token ∈ s.spent, token ∈ s'.spent
  signInOf : ∀ token, s.signInOf token ≠ none → s'.signInOf token = s.signInOf token
  file : s'.credentials = s.credentials ∨ s'.credentials = none ∨
    ∃ c, s'.credentials = some c ∧ Fresh s c

theorem Grows.refl (s : Profile) : Grows s s :=
  ⟨fun _ h => h, fun _ h => h, fun _ _ => rfl, .inl rfl⟩

/-- **What an exchange does to the file.** -/
theorem Kept.grows {ctx : Ctx} (h : Kept s views) (hallowed : (views pid).Allowed exchange.query)
    (hpromise : Promise s exchange) (hrespond : respond ctx s pid exchange = some s') :
    Grows s s' := by
  obtain ⟨query, answer⟩ := exchange
  cases query with
  | now | legacyFiles | otherOrigins | removeLegacy | signin | api | revoke _ | me _ | request _ =>
      cases hrespond
      exact .refl s
  | load =>
      cases answer with
      | unreadable why =>
          cases hrespond
          exact .refl s
      | missing | session _ =>
          cases (Option.ite_none_right_eq_some.mp hrespond).2
          exact .refl s
  | lock =>
      cases answer with
      | error error =>
          cases hrespond
          exact .refl s
      | ok _ =>
          cases (Option.ite_none_right_eq_some.mp hrespond).2
          exact ⟨fun _ h => h, fun _ h => h, fun _ _ => rfl, .inl rfl⟩
  | unlock =>
      cases hrespond
      exact ⟨fun _ h => h, fun _ h => h, fun _ _ => rfl, .inl rfl⟩
  | save session =>
      cases (hpromise : answer = .ok ())
      cases hrespond
      exact ⟨fun _ h => List.mem_cons_of_mem _ h, fun _ h => h, fun _ _ => rfl,
        .inr (.inr ⟨_, rfl, h.fresh hallowed⟩)⟩
  | remove =>
      cases answer with
      | error error =>
          cases hrespond
          exact .refl s
      | ok removed =>
          cases (Option.ite_none_right_eq_some.mp hrespond).2
          exact ⟨fun _ h => h, fun _ h => h, fun _ _ => rfl, .inr (.inl rfl)⟩
  | newSignIn slt =>
      cases answer with
      | error error =>
          cases hrespond
          exact .refl s
      | ok tokens =>
          cases hrespond
          exact ⟨fun _ h => h, fun _ h => h, fun _ htoken => signInOf_update hpromise htoken,
            .inl rfl⟩
  | refreshToken token =>
      cases answer with
      | error error =>
          cases hrespond
          exact .refl s
      | ok response =>
          obtain ⟨issued, hissued, hnew⟩ := hpromise
          cases hrespond
          rw [credentials_refreshToken hissued]
          exact ⟨fun _ h => h, fun _ h => List.mem_cons_of_mem _ h,
            fun _ htoken => signInOf_update hnew htoken, .inl rfl⟩

/-! ### What has left the file -/

/-- The file has held a refresh token and holds it no more. -/
def Past (token : String) (s : Profile) : Prop :=
  token ∈ s.saved ∧ ∀ c, s.credentials = some c → c.refreshToken ≠ token

/-- The file has held a sign-in and holds it no more. -/
def Gone (signIn : Option Nat) (s : Profile) : Prop :=
  (∃ token ∈ s.saved, s.signInOf token = signIn) ∧ ¬ s.Holds signIn

theorem Past.grows {token : String} (h : Past token s) (hgrows : Grows s s') : Past token s' := by
  refine ⟨hgrows.saved token h.1, fun c hc => ?_⟩
  rcases hgrows.file with hsame | hnone | ⟨new, hnew, hfresh⟩
  · exact h.2 c (hsame.symm.trans hc)
  · cases hnone.symm.trans hc
  · cases hnew.symm.trans hc
    rintro rfl
    rcases hfresh.pair with hfile | hunsaved
    · exact h.2 c hfile rfl
    · exact hunsaved h.1

/-- What a process may save is of no sign-in that has left the file. -/
theorem Gone.fresh {signIn : Option Nat} (h : Gone signIn s) {c : Credentials}
    (hfresh : Fresh s c) :
    s.signInOf c.refreshToken ≠ signIn := by
  rintro rfl
  obtain ⟨⟨token, htoken, heq⟩, hholds⟩ := h
  rcases hfresh.signIn with hfile | hnew
  · exact hholds hfile
  · exact hnew token htoken heq

theorem Gone.grows {signIn : Option Nat} (h : Gone signIn s) (hkept : Kept s views)
    (hgrows : Grows s s') : Gone signIn s' := by
  obtain ⟨token, htoken, hsignIn⟩ := h.1
  refine ⟨⟨token, hgrows.saved token htoken, ?_⟩, ?_⟩
  · rw [hgrows.signInOf token (hkept.issued token htoken)]
    exact hsignIn
  · rintro ⟨c, hc, heq⟩
    rcases hgrows.file with hsame | hnone | ⟨new, hnew, hfresh⟩
    · have hfile := hsame.symm.trans hc
      rw [hgrows.signInOf _ (hkept.issued _ (hkept.current c hfile))] at heq
      exact h.2 ⟨c, hfile, heq⟩
    · cases hnone.symm.trans hc
    · cases hnew.symm.trans hc
      rw [hgrows.signInOf _ hfresh.issued] at heq
      exact h.fresh hfresh heq

end Kept

/-! ## Every interleaving -/

section Runs

variable {ctx : Ctx} {s s' : Machine Value} {action : MachineAction Value}

/-- Every process keeps to the discipline, and what it rests on holds. -/
def Sound (s : Machine Value) : Prop :=
  ∃ views, Disciplined View.after View.Allowed (fun _ _ => True) View.idle Kept s views

/-- A step with the answers that are promised. -/
def PromisedStep (ctx : Ctx) (s : Machine Value) (action : MachineAction Value)
    (s' : Machine Value) :
    Prop :=
  MachineStep ctx s action s' ∧ Promised Promise s action

theorem Sound.kept (h : Sound s) : ∃ views, Kept s.shared views := by
  obtain ⟨views, h⟩ := h
  exact ⟨views, h.inv⟩

theorem locked_idle (s : Profile) : Locked s (fun _ => .idle) :=
  ⟨fun _ hlock => absurd rfl hlock, fun _ _ hlock => nomatch hlock⟩

theorem Initial.sound (h : Initial s) : Sound s := by
  refine ⟨fun _ => .idle, ?_, fun _ _ => rfl, fun pid p hp => ?_⟩
  · constructor
    case toLocked => exact locked_idle _
    case rotated => exact fun _ _ _ hlock => nomatch hlock
    case granted => exact fun _ _ hgranted => nomatch hgranted
    case distinct => exact fun _ _ _ _ _ hgranted => nomatch hgranted
    case issued => exact h.issued
    case bounded => exact h.bounded
    case current => exact fun c hc => (h.saved _).mpr ⟨c, hc, rfl⟩
    case spent =>
      intro token htoken
      rw [h.spent] at htoken
      cases htoken
  · cases (h.program pid).symm.trans hp

/-- **Steps as promised keep every process to the discipline.** -/
theorem Sound.step (h : Sound s) (hstep : PromisedStep ctx s action s') : Sound s' := by
  obtain ⟨views, h⟩ := h
  exact ⟨_, h.step (keeps_program ctx) (fun _ _ _ _ _ hkept hallowed hpromise hrespond =>
    ⟨trivial, hkept.step hallowed hpromise hrespond⟩) hstep⟩

theorem Sound.grows (h : Sound s) (hstep : PromisedStep ctx s action s') :
    Grows s.shared s'.shared := by
  obtain ⟨views, h⟩ := h
  cases action with
  | start pid command =>
      cases hstep.1
      exact .refl _
  | exchange pid exchange =>
      obtain ⟨hallowed, hrespond⟩ := h.exchange hstep.1
      exact h.inv.grows hallowed hstep.2 hrespond

/-- What a process exchanges is allowed. -/
theorem Sound.exchange {pid : Pid} {exchange : CliExchange Value} (h : Sound s)
    (hstep : PromisedStep ctx s (.exchange pid exchange) s') :
    ∃ views, Kept s.shared views ∧ (views pid).Allowed exchange.query ∧
      respond ctx s.shared pid exchange = some s'.shared := by
  obtain ⟨views, h⟩ := h
  exact ⟨views, h.inv, h.exchange hstep.1⟩

theorem Sound.run {tr : List (Transition (Machine Value) (MachineAction Value))} (h : Sound s)
    (hrun : Run (PromisedStep ctx) s tr s') : Sound s' :=
  hrun.invariant Sound (fun _ _ _ h hstep => h.step hstep) h

/-- What is spent stays so. -/
theorem Sound.spent_run {tr : List (Transition (Machine Value) (MachineAction Value))}
    {token : String}
    (h : Sound s) (hrun : Run (PromisedStep ctx) s tr s') (htoken : token ∈ s.shared.spent) :
    token ∈ s'.shared.spent := by
  refine (hrun.invariant (fun s => Sound s ∧ token ∈ s.shared.spent) ?_ ⟨h, htoken⟩).2
  rintro s action s' ⟨h, htoken⟩ hstep
  exact ⟨h.step hstep, (h.grows hstep).spent token htoken⟩

/-- **A refresh token that has left the file does not come back.** -/
theorem Sound.past_run {tr : List (Transition (Machine Value) (MachineAction Value))}
    {token : String}
    (h : Sound s) (hrun : Run (PromisedStep ctx) s tr s') (htoken : Past token s.shared) :
    Past token s'.shared := by
  refine (hrun.invariant (fun s => Sound s ∧ Past token s.shared) ?_ ⟨h, htoken⟩).2
  rintro s action s' ⟨h, htoken⟩ hstep
  exact ⟨h.step hstep, htoken.grows (h.grows hstep)⟩

/-- **A sign-in that has left the file does not come back.** -/
theorem Sound.gone_run {tr : List (Transition (Machine Value) (MachineAction Value))}
    {signIn : Option Nat} (h : Sound s) (hrun : Run (PromisedStep ctx) s tr s')
    (hgone : Gone signIn s.shared) : Gone signIn s'.shared := by
  refine (hrun.invariant (fun s => Sound s ∧ Gone signIn s.shared) ?_ ⟨h, hgone⟩).2
  rintro s action s' ⟨h, hgone⟩ hstep
  obtain ⟨views, hkept⟩ := h.kept
  exact ⟨h.step hstep, hgone.grows hkept (h.grows hstep)⟩

end Runs

/-- What the session store promises of a run: a refresh token whose rotation was answered is not
presented again; a sign-in that has left the file is not saved again; and a pair that has left the
file does not come back. -/
structure SessionsSafe (tr : List (Transition (Machine Value) (MachineAction Value))) : Prop where
  presented : ∀ e₁ mid e₂, InOrder tr e₁ mid e₂ → ∀ pid₁ pid₂ token response answer,
    e₁.label = .exchange pid₁ ⟨.refreshToken token, .ok response⟩ →
      e₂.label ≠ .exchange pid₂ ⟨.refreshToken token, answer⟩
  removed : ∀ e₁ mid e₂, InOrder tr e₁ mid e₂ → ∀ c, e₁.pre.shared.credentials = some c →
    ¬ e₁.post.shared.Holds (e₁.pre.shared.signInOf c.refreshToken) →
      ∀ pid session answer, e₂.label = .exchange pid ⟨.save session, answer⟩ →
        e₂.pre.shared.signInOf session.refreshToken ≠ e₁.pre.shared.signInOf c.refreshToken
  forward : ∀ e₁ mid e₂, InOrder tr e₁ mid e₂ → ∀ pair,
    e₁.pre.shared.credentials.map Credentials.pair = some pair →
      e₁.post.shared.credentials.map Credentials.pair ≠ some pair →
        e₂.post.shared.credentials.map Credentials.pair ≠ some pair

/-- **The session store is safe** in every run from a profile on which nothing runs, for any number
of processes in any interleaving, when saves succeed and Silicon Accounts issues new refresh
tokens. -/
theorem sessions_safe {ctx : Ctx} {s₀ s : Machine Value}
    {tr : List (Transition (Machine Value) (MachineAction Value))} (h₀ : Initial s₀)
    (hrun : Run (MachineStep ctx) s₀ tr s)
    (hpromise : ∀ e ∈ tr, Promised Promise e.pre e.label) : SessionsSafe tr := by
  have hrun' : Run (PromisedStep ctx) s₀ tr s :=
    hrun.restrict (fun e => Promised Promise e.pre e.label) hpromise
  -- Where two steps of the run are: what holds before the first, and how the second is reached.
  have hcut : ∀ e₁ mid e₂, InOrder tr e₁ mid e₂ → Sound e₁.pre ∧
      PromisedStep ctx e₁.pre e₁.label e₁.post ∧ Sound e₁.post ∧
        Run (PromisedStep ctx) e₁.post mid e₂.pre ∧ Sound e₂.pre ∧
          PromisedStep ctx e₂.pre e₂.label e₂.post := by
    intro e₁ mid e₂ horder
    obtain ⟨⟨before, hbefore⟩, hstep₁, hmid, hstep₂⟩ := hrun'.inOrder horder
    have hpre := h₀.sound.run hbefore
    have hpost := hpre.step hstep₁
    exact ⟨hpre, hstep₁, hpost, hmid, hpost.run hmid, hstep₂⟩
  constructor
  case presented =>
    intro e₁ mid e₂ horder pid₁ pid₂ token response answer hlabel₁ hlabel₂
    obtain ⟨hpre, hstep₁, hpost, hmid, hsound, hstep₂⟩ := hcut e₁ mid e₂ horder
    rw [hlabel₁] at hstep₁
    rw [hlabel₂] at hstep₂
    have hspent : token ∈ e₁.post.shared.spent := by
      obtain ⟨_, _, _, hrespond⟩ := hpre.exchange hstep₁
      rw [← Option.some.inj hrespond]
      exact List.mem_cons_self
    obtain ⟨views, hkept, ⟨saved, hlock, rfl⟩, _⟩ := hsound.exchange hstep₂
    exact hkept.present_unspent hlock (hpost.spent_run hmid hspent)
  case removed =>
    intro e₁ mid e₂ horder c hfile hleft pid session answer hlabel₂
    obtain ⟨hpre, hstep₁, hpost, hmid, hsound, hstep₂⟩ := hcut e₁ mid e₂ horder
    rw [hlabel₂] at hstep₂
    obtain ⟨views, hkept⟩ := hpre.kept
    have hsaved := hkept.current c hfile
    have hgrows := hpre.grows hstep₁
    have hgone : Gone (e₁.pre.shared.signInOf c.refreshToken) e₁.post.shared :=
      ⟨⟨c.refreshToken, hgrows.saved _ hsaved, hgrows.signInOf _ (hkept.issued _ hsaved)⟩, hleft⟩
    obtain ⟨views', hkept', hallowed, _⟩ := hsound.exchange hstep₂
    exact (hpost.gone_run hmid hgone).fresh (hkept'.fresh hallowed)
  case forward =>
    intro e₁ mid e₂ horder pair hpair hleft hback
    obtain ⟨hpre, hstep₁, hpost, hmid, hsound, hstep₂⟩ := hcut e₁ mid e₂ horder
    obtain ⟨c, hfile, rfl⟩ := Option.map_eq_some_iff.mp hpair
    obtain ⟨views, hkept⟩ := hpre.kept
    have hgrows := hpre.grows hstep₁
    have hsaved := hkept.current c hfile
    have hpast : Past c.refreshToken e₁.post.shared := by
      refine ⟨hgrows.saved _ hsaved, fun c' hc' heq => ?_⟩
      rcases hgrows.file with hsame | hnone | ⟨new, hnew, hfresh⟩
      · rw [hsame] at hleft
        exact hleft hpair
      · cases hnone.symm.trans hc'
      · cases hnew.symm.trans hc'
        rcases hfresh.pair with hold | hunsaved
        · rw [hnew, ← hold] at hleft
          exact hleft hpair
        · rw [heq] at hunsaved
          exact hunsaved hsaved
    have hend := (hpost.past_run hmid hpast).grows (hsound.grows hstep₂)
    obtain ⟨c', hc', heq⟩ := Option.map_eq_some_iff.mp hback
    exact hend.2 c' hc' (congrArg Prod.snd heq)

/-! ## Sample processes -/

section Sample

def sampleCtx : Ctx where
  accountsUrl := "https://accounts.example"
  profile := "default"
  sessionPath := "session.json"
  normalizeUrl := id
  rfc3339 _ := ""

def sampleAccount (uuid : String) : Account where
  uuid := uuid
  id := none
  kind := "carbon"
  displayName := none
  pfpUrl := none
  custodian := none

/-- Tokens for an account, which expire at second 1000. -/
def sampleTokens (accessToken refreshToken uuid : String) : Tokens where
  accessToken := accessToken
  refreshToken := refreshToken
  expiresAt := 1000
  refreshExpiresAt := none
  scope := ""
  account := sampleAccount uuid

def sampleSession (accessToken refreshToken uuid : String) : StoredSession :=
  .fromTokens sampleCtx (sampleTokens accessToken refreshToken uuid) "device" 0

/-- The answer to a rotation at second 950. -/
def sampleResponse : TokenResponse where
  accessToken := "a2"
  refreshToken := some "r2"
  expiresIn := 1800
  refreshTokenExpiresAt := none
  scope := none
  account := some ⟨"ada", "", "carbon", "", "", none⟩

def sampleRotated : StoredSession where
  format := 1
  appId := "waveform"
  accountsUrl := "https://accounts.example"
  accessToken := "a2"
  refreshToken := "r2"
  expiresAt := 2750
  refreshExpiresAt := none
  scope := ""
  method := "device"
  signedInAt := 0
  refreshedAt := some 950
  account := sampleAccount "ada"

/-- A profile that is signed in as Ada. -/
def sampleMachine : Machine String where
  shared := {
    file := some (.ok (sampleSession "a1" "r1" "ada"))
    lockedBy := none
    signInOf := fun token => if token = "r1" then some 0 else none
    signIns := 1
    saved := ["r1"]
    spent := [] }
  program _ := none

/-- The sample processes. -/
abbrev sampleNext : Machine String → MachineAction String → Machine String :=
  System.next (Command.program sampleCtx) (respond sampleCtx)

/-- What they can do. -/
abbrev SamplePossible (Promise : Profile → CliExchange String → Prop) :
    Machine String → MachineAction String → Prop :=
  System.Possible (Command.program sampleCtx) (respond sampleCtx) Promise

instance decidablePromise (s : Profile) : (e : CliExchange Value) → Decidable (Promise s e)
  | ⟨.save _, .ok ()⟩ => .isTrue rfl
  | ⟨.save _, .error _⟩ => .isFalse nofun
  | ⟨.newSignIn _, .ok tokens⟩ =>
      inferInstanceAs (Decidable (s.signInOf tokens.refreshToken = none))
  | ⟨.refreshToken _, .ok response⟩ =>
      match h : response.credentials with
      | some issued =>
          if hnew : s.signInOf issued.refreshToken = none then .isTrue ⟨issued, h, hnew⟩
          else .isFalse fun ⟨_, hissued, hnone⟩ =>
            hnew (Option.some.inj (h.symm.trans hissued) ▸ hnone)
      | none => .isFalse fun ⟨_, hissued, _⟩ => nomatch h.symm.trans hissued
  | ⟨.newSignIn _, .error _⟩ | ⟨.refreshToken _, .error _⟩
  | ⟨.now, _⟩ | ⟨.load, _⟩ | ⟨.lock, _⟩ | ⟨.unlock, _⟩ | ⟨.remove, _⟩ | ⟨.legacyFiles, _⟩
  | ⟨.otherOrigins, _⟩ | ⟨.removeLegacy, _⟩ | ⟨.signin, _⟩ | ⟨.api, _⟩ | ⟨.revoke _, _⟩
  | ⟨.me _, _⟩ | ⟨.request _, _⟩ => .isTrue trivial

/-- One process rotates the tokens, and another signs out. -/
def rotateThenSignOut : List (MachineAction String) :=
  [.start 0 (.ensureFresh none),
    .start 1 .logout,
    .exchange 0 ⟨.load, .session (sampleSession "a1" "r1" "ada")⟩,
    .exchange 1 ⟨.load, .session (sampleSession "a1" "r1" "ada")⟩,
    .exchange 0 ⟨.now, (950 : Int)⟩,
    .exchange 0 ⟨.now, (950 : Int)⟩,
    .exchange 0 ⟨.lock, .ok ()⟩,
    .exchange 0 ⟨.load, .session (sampleSession "a1" "r1" "ada")⟩,
    .exchange 0 ⟨.now, (950 : Int)⟩,
    .exchange 0 ⟨.signin, .ok ()⟩,
    .exchange 0 ⟨.refreshToken "r1", .ok sampleResponse⟩,
    .exchange 0 ⟨.now, (950 : Int)⟩,
    .exchange 0 ⟨.now, (950 : Int)⟩,
    .exchange 0 ⟨.save sampleRotated, .ok ()⟩,
    .exchange 0 ⟨.unlock, ()⟩,
    .exchange 1 ⟨.lock, .ok ()⟩,
    .exchange 1 ⟨.load, .session sampleRotated⟩,
    .exchange 1 ⟨.signin, .ok ()⟩,
    .exchange 1 ⟨.revoke "r2", .ok ()⟩,
    .exchange 1 ⟨.remove, .ok true⟩,
    .exchange 1 ⟨.removeLegacy, (0 : Nat)⟩,
    .exchange 1 ⟨.unlock, ()⟩]

theorem sampleMachine_initial : Initial sampleMachine where
  program _ := rfl
  lockedBy := rfl
  spent := rfl
  saved token := by
    change token ∈ ["r1"] ↔ ∃ c ∈ some (sampleSession "a1" "r1" "ada").credentials,
      c.refreshToken = token
    simp [StoredSession.credentials, sampleSession, StoredSession.fromTokens, sampleTokens, eq_comm]
  issued token htoken := by
    cases List.mem_singleton.mp htoken
    exact nofun
  bounded token signIn h := by
    cases (Option.ite_none_right_eq_some.mp h).2
    exact Nat.one_pos

/-- The rotated token and the removed sign-in do not come back. -/
theorem sessions_safe_sample :
    (playEnd sampleNext sampleMachine rotateThenSignOut).shared.file = none ∧
      SessionsSafe (play sampleNext sampleMachine rotateThenSignOut) := by
  have henabled : EnabledAlong sampleNext (SamplePossible Promise) sampleMachine rotateThenSignOut ∧
      (playEnd sampleNext sampleMachine rotateThenSignOut).shared.file.isNone = true := by
    decide +kernel
  refine ⟨Option.isNone_iff_eq_none.mp henabled.2, ?_⟩
  exact sessions_safe sampleMachine_initial (run_next henabled.1)
    fun e he => (henabled.1.of_mem _ _ he).2

end Sample

end Waveform.Cli
