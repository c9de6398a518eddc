import Mathlib.Algebra.Group.Int.Defs
import Mathlib.Algebra.Group.Nat.Defs
import Waveform.Library.Dialogue

/-!
# Signing in and authenticated calls of the CLI

The saved sign-in is one file for each profile. The commands that use it are programs: they load,
save and remove the file, take and release the file lock, ask Silicon Accounts for tokens and send
requests to Waveform. Between any two of these steps other `waveform` processes may act.

- `ensureFresh`: the sign-in to use, refreshed under the lock when it is about to expire or Waveform
  refused it as stale.
- `callWithSession`: a call, repeated once after a stale refusal.
- `login`, `logout`, `refresh`, `rememberAccount`: the other commands that write the file.
-/

set_option autoImplicit false

namespace Waveform.Cli

/-! ## Errors -/

def exitFailure : Nat := 1
def exitInvalid : Nat := 2
def exitAuth : Nat := 3
def exitNotFound : Nat := 4
def exitConflict : Nat := 5
def exitRateLimited : Nat := 6

/-- `CARBON_SIGN_IN`. -/
def carbonSignIn : String := "waveform login"

/-- `SILICON_SIGN_IN`. -/
def siliconSignIn : String :=
  "silicon-accounts login --app waveform -q | waveform login --slt-stdin"

/-- A failure with what went wrong, why, and what to do next; its details are left out. -/
structure CliError where
  exit : Nat
  code : String
  message : String
  hint : Option String
  deriving DecidableEq

/-- `CliError::new`. -/
def CliError.new (exit : Nat) (code message hint : String) : CliError :=
  ⟨exit, code, message, if hint = "" then none else some hint⟩

/-- An error of the Waveform client, as far as the CLI reads it. -/
structure ClientError where
  status : Option Nat
  code : String
  message : String
  hint : Option String
  reason : Option String

/-- `is_stale_credential`: a refusal that a fresh access token can cure. -/
def ClientError.isStaleCredential (e : ClientError) : Bool :=
  e.status == some 401 &&
    e.reason.any (["token_expired", "sign_in_ended", "token_inactive",
      "unknown_signing_key"].contains ·)

/-- `From<silicon_waveform_client::Error> for CliError`. -/
def ClientError.toCli (e : ClientError) : CliError where
  exit :=
    match e.status with
    | some status =>
        if status ∈ [400, 406, 410, 413, 415, 422] then exitInvalid
        else if status = 401 ∨ status = 403 then exitAuth
        else if status = 404 then exitNotFound
        else if status = 409 then exitConflict
        else if status = 423 ∨ status = 429 then exitRateLimited
        else exitFailure
    | none => if e.code = "invalid_input" then exitInvalid else exitFailure
  code := e.code
  message := e.message
  hint := e.hint

/-- What can fail at the session store: the state directory, or the lock when another process has
held it for 30 seconds. -/
inductive StoreError where
  | localState (message hint : String)
  | signInLocked (message hint : String)

def StoreError.toCli : StoreError → CliError
  | .localState message hint => .new exitFailure "local_state" message hint
  | .signInLocked message hint => .new exitFailure "sign_in_locked" message hint

/-- `SignInError`, without the refusals of a new sign-in. -/
inductive SignInError where
  | configuration (message hint : String)
  | signInEnded (description : String)
  | notEnabled (grant description : String)
  | accounts (status : Option Nat) (code message : String) (hint : Option String)
  | transport (message : String)

/-- `From<SignInError> for CliError`. -/
def SignInError.toCli : SignInError → CliError
  | .configuration message hint => .new exitInvalid "sign_in_configuration" message hint
  | .signInEnded description =>
      .new exitAuth "sign_in_ended" ("Your Waveform sign-in ended: " ++ description)
        ("Sign in again: Carbons run `" ++ carbonSignIn ++ "`; Silicons run `" ++
          siliconSignIn ++ "`.")
  | .notEnabled grant description =>
      .new exitAuth "sign_in_not_enabled" description
        ("Waveform's sign-in setup at this Silicon Accounts must allow " ++ grant ++
          " (device_flow and public_client). Check ACCOUNTS_URL / --accounts-url: it must be the " ++
          "Silicon Accounts this Waveform uses.")
  | .accounts status code message hint =>
      .new (if status = some 429 then exitRateLimited else exitFailure) code message
        (hint.getD "Retry; if it keeps failing, report it with `waveform report`.")
  | .transport message =>
      .new exitFailure "accounts_unreachable" message
        ("Check the network and the Silicon Accounts URL (ACCOUNTS_URL or --accounts-url), " ++
          "then retry.")

/-! ## Tokens and the saved sign-in -/

/-- A reference to an account. -/
structure AccountRef where
  uuid : String
  id : Option String
  deriving DecidableEq

/-- An account of Silicon Accounts. -/
structure Account where
  uuid : String
  id : Option String
  kind : String
  displayName : Option String
  pfpUrl : Option String
  custodian : Option AccountRef
  deriving DecidableEq

/-- The id to show: the public id, or the uuid when the id is unknown. -/
def Account.label (account : Account) : String := account.id.getD account.uuid

/-- An account as the token endpoint writes it: an empty text stands for none. -/
structure TokenAccount where
  uuid : String
  id : String
  kind : String
  displayName : String
  pfpUrl : String
  custodian : Option (String × String)

/-- An answer of the token endpoint. -/
structure TokenResponse where
  accessToken : String
  refreshToken : Option String
  expiresIn : Nat
  refreshTokenExpiresAt : Option Int
  scope : Option String
  account : Option TokenAccount

/-- Waveform's tokens for one account, from a sign-in or a refresh. -/
structure Tokens where
  accessToken : String
  refreshToken : String
  expiresAt : Int
  refreshExpiresAt : Option Int
  scope : String
  account : Account

/-- `i64::MAX`. -/
def maxI64 : Int := 2 ^ 63 - 1

/-- `i64::saturating_add` of a number that is not negative. -/
def saturatingAdd (at' seconds : Int) : Int := min (at' + seconds) maxI64

/-- An answer without a part that it must have. -/
def unexpected (what : String) : SignInError :=
  .accounts none "unexpected_response"
    ("Silicon Accounts answered the sign-in without " ++ what ++ ".")
    (some "Retry; if it keeps happening, report it with `waveform report`.")

/-- An empty text is none. -/
def nonEmptyText (text : String) : Option String := if text = "" then none else some text

/-- `Tokens::from_response`. -/
def Tokens.fromResponse (response : TokenResponse) (receivedAt : Int) : Except SignInError Tokens :=
  match response.refreshToken with
  | none => .error (unexpected "a refresh token")
  | some refreshToken =>
      match response.account with
      | none => .error (unexpected "the account")
      | some account => .ok {
          accessToken := response.accessToken
          refreshToken := refreshToken
          expiresAt := saturatingAdd receivedAt (min response.expiresIn maxI64)
          refreshExpiresAt := response.refreshTokenExpiresAt
          scope := response.scope.getD ""
          account := {
            uuid := account.uuid
            id := nonEmptyText account.id
            kind := account.kind
            displayName := nonEmptyText account.displayName
            pfpUrl := nonEmptyText account.pfpUrl
            custodian := account.custodian.map fun (uuid, id) => ⟨uuid, nonEmptyText id⟩ } }

/-- One account's sign-in to Waveform. -/
structure StoredSession where
  format : Nat
  appId : String
  accountsUrl : String
  accessToken : String
  refreshToken : String
  expiresAt : Int
  refreshExpiresAt : Option Int
  scope : String
  method : String
  signedInAt : Int
  refreshedAt : Option Int
  account : Account
  deriving DecidableEq

/-- `FORMAT`. -/
def sessionFormat : Nat := 1

/-- `APP_ID`. -/
def appId : String := "waveform"

/-- `REFRESH_MARGIN_SECONDS`. -/
def refreshMarginSeconds : Int := 60

/-- Where a command runs. Trimming URLs and writing times are functions of libraries. -/
structure Ctx where
  accountsUrl : String
  profile : String
  sessionPath : String
  normalizeUrl : String → String
  rfc3339 : Int → String

namespace StoredSession

/-- `from_tokens`. -/
def fromTokens (ctx : Ctx) (tokens : Tokens) (method : String) (now : Int) : StoredSession where
  format := sessionFormat
  appId := Cli.appId
  accountsUrl := ctx.normalizeUrl ctx.accountsUrl
  accessToken := tokens.accessToken
  refreshToken := tokens.refreshToken
  expiresAt := tokens.expiresAt
  refreshExpiresAt := tokens.refreshExpiresAt
  scope := tokens.scope
  method := method
  signedInAt := now
  refreshedAt := none
  account := tokens.account

/-- The same sign-in after a refresh. -/
def rotated (session : StoredSession) (tokens : Tokens) (now : Int) : StoredSession :=
  { session with
    accessToken := tokens.accessToken
    refreshToken := tokens.refreshToken
    expiresAt := tokens.expiresAt
    refreshExpiresAt := tokens.refreshExpiresAt.or session.refreshExpiresAt
    scope := if tokens.scope = "" then session.scope else tokens.scope
    refreshedAt := some now
    account := tokens.account }

/-- `needs_refresh`. -/
def needsRefresh (session : StoredSession) (now : Int) : Bool :=
  session.expiresAt ≤ saturatingAdd now refreshMarginSeconds

/-- `ended`. -/
def ended (session : StoredSession) (now : Int) : Bool :=
  session.refreshExpiresAt.any (· ≤ now)

end StoredSession

/-- What the session file holds. -/
inductive Loaded where
  | missing
  | session (session : StoredSession)
  | unreadable (why : String)
  deriving DecidableEq

/-- The session file: its bytes are a sign-in, or no sign-in that this CLI wrote. -/
abbrev SessionFile := Option (Except String StoredSession)

/-- `SessionStore::load` of a file that can be read. -/
def load (ctx : Ctx) : SessionFile → Loaded
  | none => .missing
  | some (.error error) => .unreadable ("it is not a sign-in this CLI wrote (" ++ error ++ ")")
  | some (.ok session) =>
      if session.format ≠ sessionFormat ∨ session.appId ≠ appId ∨
          ctx.normalizeUrl session.accountsUrl ≠ ctx.normalizeUrl ctx.accountsUrl ∨
          session.accessToken = "" ∨ session.refreshToken = "" ∨ session.account.uuid = "" then
        .unreadable ("it was written for another format, app or Silicon Accounts, or it is " ++
          "incomplete")
      else .session session

/-! ## What the commands ask -/

/-- `GET /api/v1/me`, as far as the commands read it. -/
structure Me where
  account : Account

/-- The steps of a command that others can see or that read the time. -/
inductive CliQuery where
  | now
  | load
  | lock
  | unlock
  | save (session : StoredSession)
  | remove
  -- The files of earlier versions, and the other origins this profile is signed in to.
  | legacyFiles
  | otherOrigins
  | removeLegacy
  -- The clients of Silicon Accounts and of Waveform.
  | signin
  | api
  -- `exchange_slt` or the device flow.
  | newSignIn (slt : Option String)
  | refreshToken (token : String)
  | revoke (token : String)
  | me (accessToken : String)
  -- All requests of one call carry this access token.
  | request (accessToken : String)
  deriving DecidableEq

/-- What the steps answer; `Value` is what the call is for. -/
@[reducible] def CliAnswer (Value : Type) : CliQuery → Type
  | .now => Int
  | .load => Loaded
  | .lock => Except StoreError Unit
  | .unlock => Unit
  | .save _ => Except StoreError Unit
  | .remove => Except StoreError Bool
  | .legacyFiles => List String
  | .otherOrigins => List String
  | .removeLegacy => Nat
  | .signin => Except SignInError Unit
  | .api => Except CliError Unit
  | .newSignIn _ => Except CliError Tokens
  | .refreshToken _ => Except SignInError TokenResponse
  | .revoke _ => Except SignInError Unit
  | .me _ => Except ClientError Me
  | .request _ => Except ClientError Value

/-- A program of the CLI. -/
abbrev CliProgram (Value α : Type) := Dialogue CliQuery (CliAnswer Value) α

/-- A step with its answer. -/
abbrev CliExchange (Value : Type) := Dialogue.Exchange CliQuery (CliAnswer Value)

/-! ## The commands -/

section Commands

variable {Value α : Type} (ctx : Ctx)

/-- `Ctx::not_signed_in`. -/
def notSignedIn : CliProgram Value (Except CliError α) :=
  let message := "This machine is not signed in to Waveform (profile `" ++ ctx.profile ++
    "`, Silicon Accounts " ++ ctx.accountsUrl ++ ")."
  let fail := fun more : String => Dialogue.done (.error (.new exitAuth "not_signed_in"
    (message ++ more) ("Carbons: `" ++ carbonSignIn ++ "`. Silicons: `" ++ siliconSignIn ++ "`.")))
  .ask .legacyFiles fun legacy : List String =>
    if legacy ≠ [] then
      fail " A sign-in saved by an earlier Waveform version was found; it cannot be used any more."
    else
      .ask .otherOrigins fun origins : List String =>
        match origins.head? with
        | some other => fail (" This profile is signed in at " ++ other ++
            " instead; pass --accounts-url " ++ other ++ " (or ACCOUNTS_URL) to use it.")
        | none => fail ""

/-- `unreadable`. -/
def unreadable (why : String) : CliError :=
  .new exitAuth "session_unreadable"
    ("The saved sign-in " ++ ctx.sessionPath ++ " cannot be used: " ++ why ++ ".")
    ("Sign in again (Carbons: `" ++ carbonSignIn ++ "`; Silicons: `" ++ siliconSignIn ++
      "`); the new sign-in replaces it.")

/-- `ended`. -/
def signInEnded (session : StoredSession) (why : String) : CliError :=
  .new exitAuth "sign_in_ended"
    ("The Waveform sign-in of " ++ session.account.label ++ " ended: " ++ why)
    ("Sign in again: Carbons run `" ++ carbonSignIn ++ "`; Silicons run `" ++ siliconSignIn ++ "`.")

/-- The saved sign-in is another account's than when the command loaded it. -/
def sessionChanged (latest : StoredSession) : CliError :=
  .new exitAuth "session_changed"
    ("The saved sign-in changed while this command ran: this profile is now signed in as " ++
      latest.account.label ++ ".")
    "Run the command again."

/-- Runs under the exclusive lock, which is released when the block ends. -/
def withLock (body : CliProgram Value (Except CliError α)) : CliProgram Value (Except CliError α) :=
  .ask .lock fun
    | .error error => .done (.error error.toCli)
    | .ok () => body.bind fun result => .ask .unlock fun () => .done result

/-- The sign-in that is saved, or why it cannot be used. -/
def loadSession (next : StoredSession → CliProgram Value (Except CliError α)) :
    CliProgram Value (Except CliError α) :=
  .ask .load fun
    | .missing => notSignedIn ctx
    | .unreadable why => .done (.error (unreadable ctx why))
    | .session session => next session

/-- `SignIn::refresh`. -/
def signInRefresh (token : String) : CliProgram Value (Except SignInError Tokens) :=
  .ask (.refreshToken token) fun
    | .error error => .done (.error error)
    | .ok response => .ask .now fun now => .done (Tokens.fromResponse response now)

/-- The rotated sign-in is saved. -/
def saveRotated (latest : StoredSession) (tokens : Tokens) :
    CliProgram Value (Except CliError StoredSession) :=
  .ask .now fun now =>
    let rotated := latest.rotated tokens now
    .ask (.save rotated) fun
      | .error error => .done (.error error.toCli)
      | .ok () => .done (.ok rotated)

/-- A sign-in that ended is removed, unless the file holds another one. -/
def removeEnded (latest : StoredSession) (description : String) :
    CliProgram Value (Except CliError StoredSession) :=
  .ask .load fun
    | .session session =>
        if session.refreshToken = latest.refreshToken then
          .ask .remove fun
            | .error error => .done (.error error.toCli)
            | .ok _ => .done (.error (signInEnded latest description))
        else .done (.error (signInEnded latest description))
    | _ => .done (.error (signInEnded latest description))

/-- The rotation in `ensure_fresh`, under the lock. -/
def rotate (latest : StoredSession) : CliProgram Value (Except CliError StoredSession) :=
  .ask .signin fun
    | .error error => .done (.error error.toCli)
    | .ok () => (signInRefresh latest.refreshToken).bind fun
        | .ok tokens => saveRotated latest tokens
        | .error (.signInEnded description) => removeEnded latest description
        | .error error => .done (.error error.toCli)

/-- What `ensure_fresh` does under the lock. -/
def refreshLocked (refused : Option String) (current : StoredSession) :
    CliProgram Value (Except CliError StoredSession) :=
  loadSession ctx fun latest =>
    if latest.account.uuid ≠ current.account.uuid then .done (.error (sessionChanged latest))
    else if refused = some latest.accessToken then rotate latest
    else
      -- Another process may have refreshed in the meantime.
      .ask .now fun now =>
        if latest.needsRefresh now then rotate latest else .done (.ok latest)

/-- `ensure_fresh`. -/
def ensureFresh (refused : Option String) : CliProgram Value (Except CliError StoredSession) :=
  loadSession ctx fun current => .ask .now fun now =>
    if current.ended now then
      .done (.error (signInEnded current
        ("it expired at " ++ ctx.rfc3339 (current.refreshExpiresAt.getD 0) ++ ".")))
    else if refused.isNone then
      .ask .now fun now' =>
        if current.needsRefresh now' then withLock (refreshLocked ctx refused current)
        else .done (.ok current)
    else withLock (refreshLocked ctx refused current)

/-- `call_with_session`. -/
def callWithSession : CliProgram Value (Except CliError (Value × StoredSession)) :=
  .ask .api fun
    | .error error => .done (.error error)
    | .ok () => (ensureFresh ctx none).andThen fun session =>
        .ask (.request session.accessToken) fun
          | .ok value => .done (.ok (value, session))
          | .error error =>
              if error.isStaleCredential then
                (ensureFresh ctx (some session.accessToken)).andThen fun session =>
                  .ask (.request session.accessToken) fun
                    | .error error => .done (.error error.toCli)
                    | .ok value => .done (.ok (value, session))
              else .done (.error error.toCli)

/-- `refresh`. -/
def refresh : CliProgram Value (Except CliError StoredSession) :=
  loadSession ctx fun session => ensureFresh ctx (some session.accessToken)

/-- `remember_account`. -/
def rememberAccount (session : StoredSession) (me : Me) : CliProgram Value (Except CliError Unit) :=
  let account := me.account
  if account.uuid ≠ session.account.uuid ∨ (account.id = session.account.id ∧
      account.displayName = session.account.displayName ∧
      account.custodian = session.account.custodian) then
    .done (.ok ())
  else
    .ask .lock fun
      | .error _ => .done (.ok ())
      | .ok () => .ask .load fun
          | .session latest =>
              if latest.account.uuid = account.uuid then
                let updated := { latest with account := { latest.account with
                  id := account.id
                  displayName := account.displayName.or latest.account.displayName
                  custodian := account.custodian } }
                .ask (.save updated) fun _ => .ask .unlock fun () => .done (.ok ())
              else .ask .unlock fun () => .done (.ok ())
          | _ => .ask .unlock fun () => .done (.ok ())

/-- What `login` does under the lock: it saves the new sign-in and returns the replaced one. -/
def replaceSession (session : StoredSession) :
    CliProgram Value (Except CliError (Option StoredSession)) :=
  .ask .load fun loaded => .ask (.save session) fun
    | .error error => .done (.error error.toCli)
    | .ok () => .done (.ok (match loaded with
        | .session previous => some previous
        | _ => none))

/-- The end of `login`: whether Waveform accepts the new sign-in. -/
def verifySignIn (session : StoredSession) :
    CliProgram Value (Except CliError (StoredSession × Bool)) :=
  .ask .api fun
    | .error error => .done (.error error)
    | .ok () => .ask (.me session.accessToken) fun
        | .ok _ => .done (.ok (session, true))
        | .error _ => .done (.ok (session, false))

/-- The replaced sign-in is ended at Silicon Accounts; one that cannot be ended is only reported. -/
def endPrevious (session : StoredSession) (previous : Option StoredSession) :
    CliProgram Value (Except CliError (StoredSession × Bool)) :=
  match previous with
  | some previous =>
      if previous.refreshToken ≠ session.refreshToken then
        .ask (.revoke previous.refreshToken) fun _ => verifySignIn session
      else verifySignIn session
  | none => verifySignIn session

/-- `login`, with the short-lived token it has read. -/
def login (slt : Except CliError (Option String)) :
    CliProgram Value (Except CliError (StoredSession × Bool)) :=
  match slt with
  | .error error => .done (.error error)
  | .ok slt => .ask .signin fun
      | .error error => .done (.error error.toCli)
      | .ok () => .ask (.newSignIn slt) fun
          | .error error => .done (.error error)
          | .ok tokens => .ask .now fun now =>
              let session := StoredSession.fromTokens ctx tokens
                (if slt.isSome then "slt" else "device") now
              (withLock (replaceSession session)).andThen (endPrevious session)

/-- What `logout` reports. -/
structure SignedOut where
  signedOut : Bool
  account : Option Account
  revoked : Bool
  legacyFilesRemoved : Nat

/-- The end of `logout`, under the lock. -/
def removeSession (account : Option Account) (revoked : Bool) :
    CliProgram Value (Except CliError SignedOut) :=
  .ask .remove fun
    | .error error => .done (.error error.toCli)
    | .ok _ => .ask .removeLegacy fun legacy =>
        .done (.ok ⟨true, account, revoked, legacy⟩)

/-- What `logout` does under the lock. -/
def signOut : CliProgram Value (Except CliError SignedOut) :=
  .ask .load fun
    | .session session => .ask .signin fun
        | .error error => .done (.error error.toCli)
        | .ok () => .ask (.revoke session.refreshToken) fun
            | .ok () => removeSession (some session.account) true
            -- The sign-in is deleted from this machine anyway.
            | .error _ => removeSession (some session.account) false
    | _ => removeSession none false

/-- `logout`. -/
def logout : CliProgram Value (Except CliError SignedOut) :=
  .ask .load fun
    | .missing => .ask .removeLegacy fun legacy : Nat =>
        .done (.ok ⟨decide (legacy ≠ 0), none, false, legacy⟩)
    | _ => withLock signOut

end Commands

/-! ## Processes -/

/-- The commands that a process can run. -/
inductive Command where
  | call
  | ensureFresh (refused : Option String)
  | login (slt : Except CliError (Option String))
  | logout
  | refresh
  | rememberAccount (session : StoredSession) (me : Me)

/-- What a command ends with. -/
inductive CommandResult (Value : Type) where
  | called (value : Value) (session : StoredSession)
  | session (session : StoredSession)
  | signedIn (session : StoredSession) (verified : Bool)
  | signedOut (report : SignedOut)
  | remembered

/-- What a process runs. -/
def Command.program {Value : Type} (ctx : Ctx) :
    Command → CliProgram Value (Except CliError (CommandResult Value))
  | .call => (callWithSession ctx).andThen fun result => .done (.ok (.called result.1 result.2))
  | .ensureFresh refused =>
      (Cli.ensureFresh ctx refused).andThen fun session => .done (.ok (.session session))
  | .login slt =>
      (Cli.login ctx slt).andThen fun result => .done (.ok (.signedIn result.1 result.2))
  | .logout => Cli.logout.andThen fun report => .done (.ok (.signedOut report))
  | .refresh => (Cli.refresh ctx).andThen fun session => .done (.ok (.session session))
  | .rememberAccount session me =>
      (Cli.rememberAccount session me).andThen fun () => .done (.ok .remembered)

end Waveform.Cli
