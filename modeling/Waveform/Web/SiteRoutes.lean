import Waveform.Library.Dialogue
import Waveform.Web.Refresh
import Waveform.Web.ReturnPath

/-!
# The routes that set the session cookie

The web server answers API requests, refreshes and sign-outs, each from the session cookie that its
own request carried. An answer leaves the browser's cookie, sets a session or clears it. The
environment, the clock, Silicon Accounts and the service are asked along the way.

- `freshSession`: a session whose access token is good for a while.
- `apiHandle`, `refreshPost`, `refreshGet`, `signOutPost`: the routes.
- `handle_cookie`: a session is set only where the carried one was rotated, and cleared only by a
  sign-out, at the end of the sign-in or after a refusal.
-/

set_option autoImplicit false

namespace Waveform.Web

open Dialogue WhatwgUrl

/-! ## The site and its requests -/

/-- This site's origin, with the parts of its URL. -/
structure PublicUrl where
  text : String
  protocol : String
  hostname : String
  port : String

/-- The settings that the routes read. -/
structure SiteEnv where
  appApiUrl : String
  publicUrl : PublicUrl
  extraOrigins : List String
  production : Bool

def LOOPBACK : List String := ["localhost", "127.0.0.1", "[::1]"]

/-- `allowedOrigins`. -/
def SiteEnv.allowedOrigins (env : SiteEnv) : List String :=
  let own := env.publicUrl
  env.publicUrl.text :: env.extraOrigins ++
    if !env.production && LOOPBACK.contains own.hostname then
      ["localhost", "127.0.0.1"].map fun host =>
        own.protocol ++ "//" ++ host ++ if own.port = "" then "" else ":" ++ own.port
    else []

/-- A request, without its cookies: what the routes read of it. -/
structure SiteRequest where
  method : String
  pathname : List Char
  search : String
  returnTo : Option JsString
  origin : Option String
  secFetchSite : Option String
  secFetchMode : Option String
  accept : Option String
  hasBody : Bool

/-- `sameOriginProblem`: why a request that changes state is refused. -/
def sameOriginProblem (env : SiteEnv) (request : SiteRequest) : Option String :=
  let method := request.method.toUpper
  if method = "GET" ∨ method = "HEAD" ∨ method = "OPTIONS" then none
  else
    match request.origin with
    | none => some (method ++
        " requests must come from this site's own pages, and this one carried " ++
        "no Origin header.")
    | some origin =>
        if origin = "" ∨ origin = "null" then
          some (method ++ " requests must come from this site's own pages, and this one carried " ++
            "no Origin header.")
        else if !env.allowedOrigins.contains origin then
          some (method ++ " requests must come from this site's own pages, not from " ++
            origin ++ ".")
        else
          match request.secFetchSite with
          | none => none
          | some site =>
              if site ≠ "" ∧ site ≠ "same-origin" then
                some (method ++
                  " requests must come from this site's own pages (Sec-Fetch-Site was " ++
                  site ++ ").")
              else none

/-- The segments between slashes. -/
def segments : List Char → List (List Char)
  | [] => [[]]
  | c :: rest =>
      if c = '/' then [] :: segments rest
      else (segments rest).modifyHead (c :: ·)

/-- How many dots a segment stands for, when it has nothing but dots, plain or encoded. -/
def dotCount : List Char → Option Nat
  | [] => some 0
  | '.' :: rest => (dotCount rest).map (· + 1)
  | '%' :: '2' :: 'e' :: rest => (dotCount rest).map (· + 1)
  | '%' :: '2' :: 'E' :: rest => (dotCount rest).map (· + 1)
  | _ => none

/-- A backslash, or a slash or backslash that is encoded. -/
def hasEncodedSlash : List Char → Bool
  | [] => false
  | '\\' :: _ => true
  | '%' :: a :: b :: rest =>
      (a = '2' && (b = 'f' || b = 'F')) || (a = '5' && (b = 'c' || b = 'C')) ||
        hasEncodedSlash (a :: b :: rest)
  | _ :: rest => hasEncodedSlash rest

/-- `upstreamPath`: the service's path for what follows `/api/`, or none when a segment is empty, a
dot segment or could climb out of the service's path once decoded. -/
def upstreamPath (rest : List Char) : Option (List Char) :=
  if rest = [] then none
  else if (segments rest).any fun segment =>
      segment.isEmpty || (dotCount segment).any (· ≤ 2) || hasEncodedSlash segment then none
  else some rest

/-! ## Sessions and answers -/

section Routes

variable (numbers : JsNumbers)

/-- What the server does to the browser's session cookie. The age that it gives the cookie is left
to the browser, which may drop a cookie at any time. -/
inductive SetCookie where
  | keep
  | write (session : TokenSession numbers)
  | clear

/-- A text of the server's own, and a JSON value after it. -/
structure Message where
  text : String
  value : Option Json

/-- Where a redirect leads. -/
inductive Destination where
  | back (path : JsString)
  | hostedSignIn (returnTo : JsString)
  | signIn (reason error : Option String) (returnTo : Option JsString)
  | signedOut

/-- The body of an answer; the service's own is relayed. -/
inductive ReplyBody where
  | error (code : String) (message : Message) (hint : String)
  | signedIn (account : SessionAccount) (expiresAt : numbers.Number)
  | service (body : Option Json)
  | redirect (target : Destination)
  | empty

structure Reply where
  status : Nat
  body : ReplyBody numbers
  cookie : SetCookie numbers

/-- An answer of the app's service; its body is none when it is no JSON. -/
structure Upstream where
  status : Nat
  body : Option Json

/-- What the routes ask: the settings, the clock, `refreshSession`, the service and
`revokeSession`. -/
inductive SiteQuery where
  | serverEnv
  | now
  | refresh (session : StoredSession numbers)
  | upstream (url : String) (method : String) (token : Json) (streams : Bool)
  | revoke (session : StoredSession numbers)

@[reducible] def SiteAnswer : SiteQuery numbers → Type
  | .serverEnv => Except (List String) SiteEnv
  | .now => Nat
  | .refresh _ => RefreshOutcome numbers
  | .upstream _ _ _ _ => Except String Upstream
  | .revoke _ => Bool

/-- A program of the server. -/
abbrev SiteProgram (α : Type) := Dialogue (SiteQuery numbers) (SiteAnswer numbers) α

/-- A query with its answer. -/
abbrev SiteExchange := Exchange (SiteQuery numbers) (SiteAnswer numbers)

/-- What `freshSession` comes to. -/
inductive Freshness where
  | fresh (session : TokenSession numbers) (rotated : Bool)
  | signedOut (message : Message) (clear : Bool)
  | unavailable (status : Nat) (code : String) (message : Message)

variable {numbers}

/-- The session as a token answer has it. -/
def StoredSession.tokens (session : StoredSession numbers) : TokenSession numbers where
  accessToken := .string session.accessToken
  rt := .string session.rt
  ae := session.ae
  re := session.re
  scope := session.scope
  acct := session.acct

/-- `sessionFromCookie`, of a cookie that this server sealed: JSON has no numbers that are not
finite. -/
def sessionFromCookie (cookie : Option (TokenSession numbers)) (now : Nat) :
    Option (StoredSession numbers) :=
  match cookie with
  | some ⟨.string accessToken, .string rt, ae, re, scope, acct⟩ =>
      if numbers.isFinite ae && numbers.isFinite re && numbers.lt (numbers.ofNat now) re then
        some ⟨accessToken, rt, ae, re, scope, acct⟩
      else none
  | _ => none

/-- The lead times of `REFRESH_AHEAD`. -/
inductive Ahead where
  | page
  | keeper
  | api

def REFRESH_AHEAD : Ahead → Nat
  | .page => 2 * 60000
  | .keeper => 5 * 60000
  | .api => 30000

/-- The value is this text. -/
def isText (text : String) : Json → Bool
  | .string value => value == text
  | _ => false

/-- `signInEnded`. -/
def signInEnded (error : Json) : Bool :=
  isText "invalid_grant" error || isText "invalid_client" error ||
    isText "unauthorized_client" error

/-- A template that ends with a value, which must have a conversion. -/
def template (text : String) (value : Json) : Except TypeError Message :=
  if convertible value then .ok ⟨text, some value⟩ else .error .mk

/-- `freshSession`. -/
def freshSession (session : Option (StoredSession numbers)) (ahead : Ahead) :
    SiteProgram numbers (Except TypeError (Freshness numbers)) :=
  .ask .now fun now : Nat =>
    match session with
    | none => .done (.ok (.signedOut
        ⟨"This browser is not signed in (no session, or it ended).", none⟩ false))
    | some session =>
        if numbers.lt (numbers.ofNat (REFRESH_AHEAD ahead))
            (numbers.sub session.ae (numbers.ofNat now)) then
          .done (.ok (.fresh session.tokens false))
        else
          .ask (.refresh session) fun
            | .error error => .done (.error error)
            | .ok (.ok rotated) => .done (.ok (.fresh rotated true))
            | .ok (.failed _ error description) =>
                if isText "accounts_unreachable" error then
                  .done (.ok (.unavailable 502 "accounts_unreachable" ⟨"", some description⟩))
                else if signInEnded error then
                  .done ((template "Your sign-in ended: " description).map (.signedOut · true))
                -- A token that is still valid keeps working.
                else if numbers.lt (numbers.add (numbers.ofNat now) (numbers.ofNat 5000))
                    session.ae then
                  .done (.ok (.fresh session.tokens false))
                else
                  .done ((template "Refreshing the sign-in failed: " description).map
                    (.unavailable 503 "refresh_failed"))

/-! ## The routes -/

/-- What the browser is answered when a route throws. -/
def thrown : Reply numbers := ⟨500, .empty, .keep⟩

/-- `misconfigured`. -/
def misconfigured (problems : List String) : Reply numbers :=
  ⟨500, .error "misconfigured"
    ⟨"This site is not set up yet: " ++ String.intercalate " " problems, none⟩
    "The site's maintainers need to set the environment variables listed in its README (Environment).",
    .keep⟩

/-- The settings, or the answer that they are wrong. -/
def withEnv (next : SiteEnv → SiteProgram numbers (Reply numbers)) :
    SiteProgram numbers (Reply numbers) :=
  .ask .serverEnv fun
    | .error problems => .done (misconfigured problems)
    | .ok env => next env

/-- `readSession`. -/
def readSession (cookie : Option (TokenSession numbers))
    (next : Option (StoredSession numbers) → SiteProgram numbers (Reply numbers)) :
    SiteProgram numbers (Reply numbers) :=
  .ask .now fun now : Nat => next (sessionFromCookie cookie now)

def crossSite (problem hint : String) : Reply numbers :=
  ⟨403, .error "cross_site_request" ⟨problem, none⟩ hint, .keep⟩

/-- The cookie of a session that was rotated. -/
def written (session : TokenSession numbers) (rotated : Bool) : SetCookie numbers :=
  if rotated then .write session else .keep

def signedOutReply (message : Message) (clear : Bool) : Reply numbers :=
  ⟨401, .error "signed_out" message "Sign in again.", if clear then .clear else .keep⟩

def unavailableReply (status : Nat) (code : String) (message : Message) : Reply numbers :=
  ⟨status, .error code message "Wait a moment and try again.", .keep⟩

/-- The refusal has an error of the service's own. -/
def hasErrorCode (body : Option Json) : Bool :=
  match (body.bind (property "error")).bind (property "code") with
  | some (.string _) => true
  | _ => false

/-- What the service's answer becomes. -/
def relay (session : TokenSession numbers) (rotated : Bool) (method : String)
    (upstream : Upstream) : Reply numbers :=
  if upstream.status = 401 then
    ⟨401, if hasErrorCode upstream.body then .service upstream.body
      else .error "signed_out" ⟨"The service did not accept this sign-in.", none⟩ "Sign in again.",
      .clear⟩
  -- A response has no other status.
  else if 200 ≤ upstream.status ∧ upstream.status ≤ 599 then
    ⟨upstream.status, if method = "HEAD" ∨ upstream.status ∈ [204, 205, 304] then .empty
      else .service upstream.body, written session rotated⟩
  else thrown

/-- The service is called with the session. -/
def callService (env : SiteEnv) (request : SiteRequest) (path : List Char)
    (session : TokenSession numbers) (rotated : Bool) : SiteProgram numbers (Reply numbers) :=
  let method := request.method.toUpper
  .ask (.upstream (env.appApiUrl ++ "/" ++ String.ofList path ++ request.search) method
      session.accessToken (method ≠ "GET" && method ≠ "HEAD" && request.hasBody)) fun
    | .error reason => .done ⟨502, .error "service_unreachable"
        ⟨"This site could not reach its service for " ++ method ++ " /" ++
          String.ofList path ++ ": " ++
          reason ++ ".", none⟩ "Wait a moment and try again.", written session rotated⟩
    | .ok upstream => .done (relay session rotated method upstream)

/-- `handle`: the API proxy. -/
def apiHandle (cookie : Option (TokenSession numbers)) (request : SiteRequest) :
    SiteProgram numbers (Reply numbers) :=
  withEnv fun env =>
    let rest := if "/api/".toList.isPrefixOf request.pathname then request.pathname.drop 5 else []
    match upstreamPath rest with
    | none => .done ⟨400, .error "invalid_path"
        ⟨request.method.toUpper ++ " /api/" ++ String.ofList rest ++
          " has an empty, dot or encoded-slash segment, so it is not forwarded.", none⟩
        "Call /api/<the service's own path>, for example /api/v1/items.", .keep⟩
    | some path =>
        match sameOriginProblem env request with
        | some problem => .done (crossSite problem "Use this site's own pages.")
        | none => readSession cookie fun session => (freshSession session .api).bind fun
            | .error _ => .done thrown
            | .ok (.signedOut message clear) => .done (signedOutReply message clear)
            | .ok (.unavailable status code message) => .done (unavailableReply status code message)
            | .ok (.fresh session rotated) => callService env request path session rotated

/-- `POST /auth/refresh`; `validDate` is what `toISOString` can write. -/
def refreshPost (validDate : numbers.Number → Bool) (cookie : Option (TokenSession numbers))
    (request : SiteRequest) : SiteProgram numbers (Reply numbers) :=
  withEnv fun env =>
    match sameOriginProblem env request with
    | some problem => .done (crossSite problem "Refresh from this site's own pages.")
    | none => readSession cookie fun session => (freshSession session .keeper).bind fun
        | .error _ => .done thrown
        | .ok (.signedOut message clear) => .done (signedOutReply message clear)
        | .ok (.unavailable status code message) => .done (unavailableReply status code message)
        | .ok (.fresh session rotated) =>
            if validDate session.ae then
              .done ⟨200, .signedIn session.acct session.ae, written session rotated⟩
            else .done thrown

/-- `GET /auth/refresh`. -/
def refreshGet (outside : Outside) (cookie : Option (TokenSession numbers))
    (request : SiteRequest) :
    SiteProgram numbers (Reply numbers) :=
  withEnv fun _ =>
    let back := safeReturnPath outside request.returnTo
    let returnTo := if back = ascii "/".toList then none else some back
    readSession cookie fun session => (freshSession session .page).bind fun
      | .error _ => .done thrown
      | .ok (.fresh session rotated) =>
          .done ⟨303, .redirect (.back back), written session rotated⟩
      | .ok (.signedOut _ false) => .done ⟨303, .redirect (.hostedSignIn back), .keep⟩
      | .ok (.signedOut _ true) =>
          .done ⟨303, .redirect (.signIn (some "session_ended") none returnTo), .clear⟩
      | .ok (.unavailable _ _ _) =>
          .done ⟨303, .redirect (.signIn none (some "accounts_unreachable") returnTo), .keep⟩

/-- `String.prototype.includes`. -/
def includes (text part : String) : Bool := text.toList.tails.any (part.toList.isPrefixOf ·)

/-- The answer to a sign-out. -/
def signedOutPage (request : SiteRequest) : Reply numbers :=
  if includes (request.accept.getD "") "text/html" && request.secFetchMode == some "navigate" then
    ⟨303, .redirect .signedOut, .clear⟩
  else ⟨204, .empty, .clear⟩

/-- `POST /auth/sign-out`. -/
def signOutPost (cookie : Option (TokenSession numbers)) (request : SiteRequest) :
    SiteProgram numbers (Reply numbers) :=
  withEnv fun env =>
    match sameOriginProblem env request with
    | some problem => .done (crossSite problem "Sign out from this site's own account menu.")
    | none => readSession cookie fun session =>
        match session with
        | none => .done (signedOutPage request)
        | some session => .ask (.revoke session) fun _ => .done (signedOutPage request)

/-- The routes. -/
inductive Route where
  | api
  | refresh
  | refreshPage
  | signOut
  deriving DecidableEq

/-- What a route runs for a request with this session cookie. -/
def handle (outside : Outside) (validDate : numbers.Number → Bool) (route : Route)
    (cookie : Option (TokenSession numbers)) (request : SiteRequest) :
    SiteProgram numbers (Reply numbers) :=
  match route with
  | .api => apiHandle cookie request
  | .refresh => refreshPost validDate cookie request
  | .refreshPage => refreshGet outside cookie request
  | .signOut => signOutPost cookie request

/-! ## Which cookie a route sets -/

/-- A refresh of the carried session was answered with this one. -/
def RotatedTo (cookie : Option (TokenSession numbers)) (tr : List (SiteExchange numbers))
    (session : StoredSession numbers) (rotated : TokenSession numbers) : Prop :=
  (∃ now, sessionFromCookie cookie now = some session) ∧ ⟨.refresh session, .ok (.ok rotated)⟩ ∈ tr

/-- The route heard that the sign-in is over: Silicon Accounts ended it, or the service refused
it. -/
inductive HeardOver (tr : List (SiteExchange numbers)) : Prop where
  | ended (session : StoredSession numbers) (status : Nat) (error description : Json)
      (hasked : ⟨.refresh session, .ok (.failed status error description)⟩ ∈ tr)
      (hended : signInEnded error = true)
  | refused (url method : String) (token : Json) (streams : Bool) (upstream : Upstream)
      (hasked : ⟨.upstream url method token streams, .ok upstream⟩ ∈ tr)
      (hstatus : upstream.status = 401)

/-- Where the cookie of an answer comes from. -/
inductive CookieFrom (route : Route) (cookie : Option (TokenSession numbers))
    (tr : List (SiteExchange numbers)) : SetCookie numbers → Prop where
  | kept : CookieFrom route cookie tr .keep
  | rotated (session : StoredSession numbers) (rotated : TokenSession numbers)
      (hroute : route ≠ .signOut) (hrotated : RotatedTo cookie tr session rotated) :
      CookieFrom route cookie tr (.write rotated)
  | signedOut (hroute : route = .signOut) : CookieFrom route cookie tr .clear
  | heardOver (hover : HeardOver tr) : CookieFrom route cookie tr .clear

/-- What `freshSession` comes to, and how. -/
inductive FreshnessFrom (session : Option (StoredSession numbers))
    (tr : List (SiteExchange numbers)) :
    Except TypeError (Freshness numbers) → Prop where
  | still (session' : TokenSession numbers) : FreshnessFrom session tr (.ok (.fresh session' false))
  | rotated (session' : StoredSession numbers) (rotated : TokenSession numbers)
      (hsession : session = some session') (hasked : ⟨.refresh session', .ok (.ok rotated)⟩ ∈ tr) :
      FreshnessFrom session tr (.ok (.fresh rotated true))
  | absent (message : Message) : FreshnessFrom session tr (.ok (.signedOut message false))
  | ended (message : Message) (hover : HeardOver tr) :
      FreshnessFrom session tr (.ok (.signedOut message true))
  | unavailable (status : Nat) (code : String) (message : Message) :
      FreshnessFrom session tr (.ok (.unavailable status code message))
  | threw (error : TypeError) : FreshnessFrom session tr (.error error)

variable {session : Option (StoredSession numbers)} {tr tr' : List (SiteExchange numbers)}
  {ahead : Ahead} {cookie : Option (TokenSession numbers)} {request : SiteRequest}
  {reply : Reply numbers}

theorem HeardOver.mono (h : HeardOver tr) (hsub : tr ⊆ tr') : HeardOver tr' := by
  cases h with
  | ended session status error description hasked hended =>
      exact .ended session status error description (hsub hasked) hended
  | refused url method token streams upstream hasked hstatus =>
      exact .refused url method token streams upstream (hsub hasked) hstatus

theorem freshSession_from {result : Except TypeError (Freshness numbers)}
    (h : Runs (freshSession session ahead) tr result) : FreshnessFrom session tr result := by
  obtain ⟨now, rest, rfl, hrest⟩ := runs_ask_iff.mp h
  cases session with
  | none =>
      obtain ⟨_, rfl⟩ := runs_done_iff.mp hrest
      exact .absent _
  | some session =>
      dsimp only at hrest
      split at hrest
      · obtain ⟨_, rfl⟩ := runs_done_iff.mp hrest
        exact .still _
      · obtain ⟨outcome, rest', rfl, hrest'⟩ := runs_ask_iff.mp hrest
        cases outcome with
        | error error =>
            obtain ⟨_, rfl⟩ := runs_done_iff.mp hrest'
            exact .threw error
        | ok result =>
            cases result with
            | ok rotated =>
                obtain ⟨_, rfl⟩ := runs_done_iff.mp hrest'
                exact .rotated session rotated rfl (List.mem_cons_of_mem _ List.mem_cons_self)
            | failed status error description =>
                dsimp only at hrest'
                split at hrest'
                · obtain ⟨_, rfl⟩ := runs_done_iff.mp hrest'
                  exact .unavailable _ _ _
                · split at hrest'
                  · rename_i hended
                    obtain ⟨_, rfl⟩ := runs_done_iff.mp hrest'
                    unfold template
                    split
                    · exact .ended _ (.ended session status error description
                        (List.mem_cons_of_mem _ List.mem_cons_self) hended)
                    · exact .threw _
                  · split at hrest'
                    · obtain ⟨_, rfl⟩ := runs_done_iff.mp hrest'
                      exact .still _
                    · obtain ⟨_, rfl⟩ := runs_done_iff.mp hrest'
                      unfold template
                      split
                      · exact .unavailable _ _ _
                      · exact .threw _

variable {route : Route}

theorem CookieFrom.mono {change : SetCookie numbers} (h : CookieFrom route cookie tr change)
    (hsub : tr ⊆ tr') : CookieFrom route cookie tr' change := by
  cases h with
  | kept => exact .kept
  | rotated session rotated hroute hrotated =>
      exact .rotated session rotated hroute ⟨hrotated.1, hsub hrotated.2⟩
  | signedOut hroute => exact .signedOut hroute
  | heardOver hover => exact .heardOver (hover.mono hsub)

/-- Every answer of the program has its cookie from there. -/
def SetsFrom (route : Route) (cookie : Option (TokenSession numbers))
    (p : SiteProgram numbers (Reply numbers)) : Prop :=
  ∀ tr reply, Runs p tr reply → CookieFrom route cookie tr reply.cookie

theorem setsFrom_done (h : CookieFrom route cookie [] reply.cookie) :
    SetsFrom route cookie (.done reply) := by
  intro tr reply' hruns
  obtain ⟨rfl, rfl⟩ := runs_done_iff.mp hruns
  exact h

theorem setsFrom_ask {query : SiteQuery numbers}
    {next : SiteAnswer numbers query → SiteProgram numbers (Reply numbers)}
    (h : ∀ answer, SetsFrom route cookie (next answer)) :
    SetsFrom route cookie (.ask query next) := by
  intro tr reply hruns
  obtain ⟨answer, rest, rfl, hrest⟩ := runs_ask_iff.mp hruns
  exact (h answer rest reply hrest).mono (List.subset_cons_self _ _)

theorem setsFrom_withEnv {next : SiteEnv → SiteProgram numbers (Reply numbers)}
    (h : ∀ env, SetsFrom route cookie (next env)) : SetsFrom route cookie (withEnv next) := by
  refine setsFrom_ask fun answer => ?_
  cases answer with
  | error problems => exact setsFrom_done .kept
  | ok env => exact h env

/-- The rest of a route, once it has its session. -/
theorem setsFrom_fresh
    {next : Except TypeError (Freshness numbers) → SiteProgram numbers (Reply numbers)}
    (h : ∀ session : Option (StoredSession numbers),
      (∃ now, sessionFromCookie cookie now = session) →
      ∀ tr₁ result, FreshnessFrom session tr₁ result → ∀ tr₂ reply, Runs (next result) tr₂ reply →
        CookieFrom route cookie (tr₁ ++ tr₂) reply.cookie) :
    SetsFrom route cookie
      (readSession cookie fun session => (freshSession session ahead).bind next) := by
  intro tr reply hruns
  obtain ⟨now, rest, rfl, hrest⟩ := runs_ask_iff.mp hruns
  obtain ⟨tr₁, result, tr₂, rfl, hfresh, hnext⟩ := runs_bind_iff.mp hrest
  exact (h _ ⟨now, rfl⟩ tr₁ result (freshSession_from hfresh) tr₂ reply hnext).mono
    (List.subset_cons_self _ _)

/-- The cookie that a route gives with the session it has used. -/
theorem written_from {used : TokenSession numbers} {rotated : Bool} (hroute : route ≠ .signOut)
    (hsession : ∃ now, sessionFromCookie cookie now = session)
    (h : FreshnessFrom session tr (.ok (.fresh used rotated))) :
    CookieFrom route cookie tr (written used rotated) := by
  cases h with
  | still => exact .kept
  | rotated session' _ hsession' hasked =>
      obtain ⟨now, hnow⟩ := hsession
      exact .rotated session' used hroute ⟨⟨now, hnow.trans hsession'⟩, hasked⟩

/-- The cookie of a sign-in that is over, or that there is none of. -/
theorem signedOut_from {message : Message} {clear : Bool}
    (h : FreshnessFrom session tr (.ok (.signedOut message clear))) :
    CookieFrom route cookie tr (signedOutReply message clear).cookie := by
  cases h with
  | absent => exact .kept
  | ended _ hover => exact .heardOver hover

theorem callService_from {env : SiteEnv} {path : List Char} {used : TokenSession numbers}
    {rotated : Bool} {tr₂ : List (SiteExchange numbers)} (hroute : route ≠ .signOut)
    (hsession : ∃ now, sessionFromCookie cookie now = session)
    (h : FreshnessFrom session tr (.ok (.fresh used rotated)))
    (hruns : Runs (callService env request path used rotated) tr₂ reply) :
    CookieFrom route cookie (tr ++ tr₂) reply.cookie := by
  have hwritten : CookieFrom route cookie (tr ++ tr₂) (written used rotated) :=
    (written_from hroute hsession h).mono (List.subset_append_left _ _)
  obtain ⟨answer, rest, rfl, hrest⟩ := runs_ask_iff.mp hruns
  cases answer with
  | error reason =>
      obtain ⟨_, rfl⟩ := runs_done_iff.mp hrest
      exact hwritten
  | ok upstream =>
      obtain ⟨_, rfl⟩ := runs_done_iff.mp hrest
      unfold relay
      split
      · rename_i hstatus
        exact .heardOver (.refused _ _ _ _ upstream
          (List.mem_append_right _ List.mem_cons_self) hstatus)
      · split
        · exact hwritten
        · exact .kept

theorem apiHandle_from : SetsFrom .api cookie (apiHandle cookie request) := by
  refine setsFrom_withEnv fun env => ?_
  dsimp only
  split
  · exact setsFrom_done .kept
  · split
    · exact setsFrom_done .kept
    · refine setsFrom_fresh fun session hsession tr₁ result hfresh tr₂ reply hruns => ?_
      cases result with
      | error error =>
          obtain ⟨_, rfl⟩ := runs_done_iff.mp hruns
          exact .kept
      | ok freshness =>
          cases freshness with
          | signedOut message clear =>
              obtain ⟨_, rfl⟩ := runs_done_iff.mp hruns
              exact (signedOut_from hfresh).mono (List.subset_append_left _ _)
          | unavailable status code message =>
              obtain ⟨_, rfl⟩ := runs_done_iff.mp hruns
              exact .kept
          | fresh used rotated => exact callService_from nofun hsession hfresh hruns

theorem refreshPost_from {validDate : numbers.Number → Bool} :
    SetsFrom .refresh cookie (refreshPost validDate cookie request) := by
  refine setsFrom_withEnv fun env => ?_
  split
  · exact setsFrom_done .kept
  · refine setsFrom_fresh fun session hsession tr₁ result hfresh tr₂ reply hruns => ?_
    cases result with
    | error error =>
        obtain ⟨_, rfl⟩ := runs_done_iff.mp hruns
        exact .kept
    | ok freshness =>
        cases freshness with
        | signedOut message clear =>
            obtain ⟨_, rfl⟩ := runs_done_iff.mp hruns
            exact (signedOut_from hfresh).mono (List.subset_append_left _ _)
        | unavailable status code message =>
            obtain ⟨_, rfl⟩ := runs_done_iff.mp hruns
            exact .kept
        | fresh used rotated =>
            have hcookie : CookieFrom .refresh cookie tr₁ (written used rotated) :=
              written_from nofun hsession hfresh
            dsimp only at hruns
            split at hruns
            · obtain ⟨_, rfl⟩ := runs_done_iff.mp hruns
              exact hcookie.mono (List.subset_append_left _ _)
            · obtain ⟨_, rfl⟩ := runs_done_iff.mp hruns
              exact .kept

theorem refreshGet_from {outside : Outside} :
    SetsFrom .refreshPage cookie (refreshGet outside cookie request) := by
  refine setsFrom_withEnv fun env => ?_
  refine setsFrom_fresh fun session hsession tr₁ result hfresh tr₂ reply hruns => ?_
  cases result with
  | error error =>
      obtain ⟨_, rfl⟩ := runs_done_iff.mp hruns
      exact .kept
  | ok freshness =>
      cases freshness with
      | signedOut message clear =>
          have hcookie : CookieFrom .refreshPage cookie (tr₁ ++ tr₂)
              (signedOutReply message clear).cookie :=
            (signedOut_from hfresh).mono (List.subset_append_left _ _)
          cases clear <;>
          · obtain ⟨_, rfl⟩ := runs_done_iff.mp hruns
            exact hcookie
      | unavailable status code message =>
          obtain ⟨_, rfl⟩ := runs_done_iff.mp hruns
          exact .kept
      | fresh used rotated =>
          have hcookie : CookieFrom .refreshPage cookie tr₁ (written used rotated) :=
            written_from nofun hsession hfresh
          obtain ⟨_, rfl⟩ := runs_done_iff.mp hruns
          exact hcookie.mono (List.subset_append_left _ _)

theorem signOutPost_from : SetsFrom .signOut cookie (signOutPost cookie request) := by
  have hpage : SetsFrom .signOut cookie (.done (signedOutPage request)) := by
    refine setsFrom_done ?_
    unfold signedOutPage
    split <;> exact .signedOut rfl
  refine setsFrom_withEnv fun env => ?_
  split
  · exact setsFrom_done .kept
  · refine setsFrom_ask fun now => ?_
    dsimp only
    split
    · exact hpage
    · exact setsFrom_ask fun _ => hpage

/-- **Where the cookie of every answer comes from.** -/
theorem handle_cookie {outside : Outside} {validDate : numbers.Number → Bool}
    (h : Runs (handle outside validDate route cookie request) tr reply) :
    CookieFrom route cookie tr reply.cookie := by
  cases route with
  | api => exact apiHandle_from tr reply h
  | refresh => exact refreshPost_from tr reply h
  | refreshPage => exact refreshGet_from tr reply h
  | signOut => exact signOutPost_from tr reply h

end Routes

end Waveform.Web
