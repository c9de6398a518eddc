import Waveform.Library.Json
import Waveform.Library.SingleFlight

/-!
# The token endpoint, as the web server calls it

`tokenCall` turns an answer of the token endpoint into a result, an error or an exception: it reads
the properties of whatever JSON value the body is. Numbers, dates and the conversion of values to
numbers are those of the JavaScript engine, taken as a parameter; which values have no conversion is
not.

- `tokenCall_eq_error_iff`: a refresh throws exactly on the answers that are not `plain`.
-/

set_option autoImplicit false

namespace Waveform.Web

/-! ## JavaScript values -/

/-- The numbers of the engine. Values that are converted have a conversion. -/
structure JsNumbers where
  Number : Type
  ofNat : Nat → Number
  add : Number → Number → Number
  sub : Number → Number → Number
  mul : Number → Number → Number
  max : Number → Number → Number
  lt : Number → Number → Bool
  isFinite : Number → Bool
  /-- The conversion of a JSON value to a number. -/
  toNumber : Json → Number
  /-- `Date.parse` of the text of a JSON value. -/
  dateParse : Json → Number

/-- A property of a parsed value other than null; `JSON.parse` leaves one entry for each name. -/
def property (name : String) : Json → Option Json
  | .object entries => entries.lookup name
  | _ => none

/-- The value in a condition; `none` is `undefined`. A number that is no integer is not zero. -/
def truthy : Option Json → Bool
  | none => false
  | some .null => false
  | some (.bool value) => value
  | some (.int value) => value ≠ 0
  | some (.float _) => true
  | some (.string value) => value ≠ ""
  | some (.array _) => true
  | some (.object _) => true

/-- The operator `??`. -/
def orElse (value : Option Json) (default : Json) : Json :=
  match value with
  | none => default
  | some .null => default
  | some value => value

mutual

/-- The value can be converted to a text and a number: an object with a property `toString` of its
own, which in JSON is no function, has no conversion, and an array has one when its items have. -/
def convertible : Json → Bool
  | .array items => convertibleItems items
  | .object entries => (entries.lookup "toString").isNone
  | _ => true

/-- All items can be converted. -/
def convertibleItems : List Json → Bool
  | [] => true
  | item :: items => convertible item && convertibleItems items

end

/-- Whitespace that `String.prototype.trim` removes. -/
def isTrimmed (c : Char) : Bool :=
  (9 ≤ c.toNat && c.toNat ≤ 13) || (0x2000 ≤ c.toNat && c.toNat ≤ 0x200a) ||
    [0x20, 0xa0, 0x1680, 0x2028, 0x2029, 0x202f, 0x205f, 0x3000, 0xfeff].contains c.toNat

/-! ## Sessions -/

/-- The kinds of account. -/
inductive AccountKind where
  | carbon
  | silicon
  deriving DecidableEq

/-- What a session keeps of its account. -/
structure SessionAccount where
  uuid : String
  kind : AccountKind
  id : String
  displayName : String
  pfpUrl : Option String
  custodian : Option (String × String)
  deriving DecidableEq

/-- `accountFrom`: null when it is not an account. -/
def accountFrom (value : Option Json) : Option SessionAccount :=
  match value with
  | some (.object entries) => do
      let raw := Json.object entries
      let .string uuid ← property "uuid" raw | none
      let .string id ← property "id" raw | none
      let kind ← match property "kind" raw with
        | some (.string "carbon") => some .carbon
        | some (.string "silicon") => some .silicon
        | _ => none
      let displayName := match property "display_name" raw with
        | some (.string name) => if name.toList.all isTrimmed then id else name
        | _ => id
      let pfpUrl := match property "pfp_url" raw with
        | some (.string url) => if url = "" then none else some url
        | _ => none
      let custodian := match property "custodian" raw with
        | some custodian =>
            match property "uuid" custodian, property "id" custodian with
            | some (.string custodianUuid), some (.string custodianId) =>
                some (custodianUuid, custodianId)
            | _, _ => none
        | none => none
      return { uuid, kind, id, displayName, pfpUrl, custodian }
  | _ => none

section Tokens

variable (numbers : JsNumbers)

/-- What the session cookie holds; `at` in the source is `accessToken`. -/
structure StoredSession where
  accessToken : String
  rt : String
  ae : numbers.Number
  re : numbers.Number
  scope : Json
  acct : SessionAccount

/-- The session of a token answer. Its tokens are what the body has, whatever their type. -/
structure TokenSession where
  accessToken : Json
  rt : Json
  ae : numbers.Number
  re : numbers.Number
  scope : Json
  acct : SessionAccount

/-- An answer from the token endpoint: tokens, or the error. -/
inductive TokenResult where
  | ok (session : TokenSession numbers)
  | failed (status : Nat) (error : Json) (description : Json)

/-- A property of null was read, or a value without a conversion was converted. -/
inductive TypeError where
  | mk
  deriving DecidableEq

/-- What `fetch` comes to: it fails, which is how an unreachable server, a reset and the timeout of
20 seconds end, or there is an answer. A body that is cut off or is no JSON is `none`. -/
inductive TokenAnswer where
  | failed (reason : String)
  | answered (status : Nat) (body : Option Json)

/-- `response.ok`. -/
def responseOk (status : Nat) : Bool := 200 ≤ status && status ≤ 299

/-- 900 days. -/
def nineHundredDays : Nat := 900 * 24 * 60 * 60 * 1000

variable {numbers}

/-- When the access token expires. -/
def accessEnds (now : Nat) (expiresIn : Option Json) : Except TypeError numbers.Number :=
  let seconds := orElse expiresIn (.int 1800)
  if convertible seconds then
    .ok (numbers.add (numbers.ofNat now)
      (numbers.mul (numbers.max (numbers.ofNat 60) (numbers.toNumber seconds))
        (numbers.ofNat 1000)))
  else .error .mk

/-- When the refresh token ends, where the answer says so. -/
def refreshEnds (expiresAt : Option Json) : Except TypeError (Option numbers.Number) :=
  match expiresAt with
  | some value =>
      if truthy (some value) then
        if convertible value then
          let parsed := numbers.dateParse value
          .ok (if numbers.isFinite parsed then some parsed else none)
        else .error .mk
      else .ok none
  | none => .ok none

/-- `tokenCall` once it has a body other than null. -/
def readTokens (previous : Option (StoredSession numbers)) (now status : Nat) (body : Json) :
    Except TypeError (TokenResult numbers) :=
  if !responseOk status || !truthy (property "access_token" body) ||
      !truthy (property "refresh_token" body) then
    .ok (.failed status (orElse (property "error" body) (.string "token_failed"))
      (orElse (property "error_description" body)
        (.string ("The token endpoint answered HTTP " ++ toString status ++ "."))))
  else
    match accountFrom (property "account" body) <|> previous.map StoredSession.acct with
    | none =>
        .ok (.failed 502 (.string "token_failed") (.string
          "The token endpoint answered without the account the tokens belong to."))
    | some acct => do
        let ends ← refreshEnds (property "refresh_token_expires_at" body)
        let ae ← accessEnds now (property "expires_in" body)
        return .ok
          { accessToken := (property "access_token" body).getD .null
            rt := (property "refresh_token" body).getD .null
            ae := ae
            re := (ends <|> previous.map StoredSession.re).getD
              (numbers.add (numbers.ofNat now) (numbers.ofNat nineHundredDays))
            scope := orElse (property "scope" body)
              ((previous.map StoredSession.scope).getD (.string "profile"))
            acct := acct }

/-- `tokenCall` once it has an answer. -/
def tokenCall (accountsApiUrl : String) (previous : Option (StoredSession numbers)) (now : Nat) :
    TokenAnswer → Except TypeError (TokenResult numbers)
  | .failed reason =>
      .ok (.failed 502 (.string "accounts_unreachable")
        (.string ("Silicon Accounts could not be reached at " ++ accountsApiUrl ++ ": " ++ reason ++
          ".")))
  | .answered status body =>
      match body.getD (.object []) with
      -- Reading a property of null throws, which nothing here catches.
      | .null => .error .mk
      | body => readTokens previous now status body

/-- The times of a body with tokens can be converted. -/
def plainBody (status : Nat) (body : Json) : Bool :=
  (!responseOk status || !truthy (property "access_token" body) ||
      !truthy (property "refresh_token" body)) ||
    (!truthy (property "refresh_token_expires_at" body) ||
        (property "refresh_token_expires_at" body).all convertible) &&
      convertible (orElse (property "expires_in" body) (.int 1800))

/-- The answer can be read: its body is not null, and the times of a body with tokens can be
converted. -/
def TokenAnswer.plain : TokenAnswer → Bool
  | .failed _ => true
  | .answered status body =>
      match body.getD (.object []) with
      | .null => false
      | body => plainBody status body

/-! ## What throws -/

theorem refreshEnds_eq_error_iff {expiresAt : Option Json} {error : TypeError} :
    (refreshEnds expiresAt : Except TypeError (Option numbers.Number)) = .error error ↔
      (!truthy expiresAt || expiresAt.all convertible) = false := by
  cases expiresAt with
  | none => simp [refreshEnds, truthy]
  | some value =>
      cases htruthy : truthy (some value) with
      | false => simp [refreshEnds, htruthy]
      | true => cases hconvertible : convertible value <;> simp [refreshEnds, htruthy, hconvertible]

theorem accessEnds_eq_error_iff {now : Nat} {expiresIn : Option Json} {error : TypeError} :
    (accessEnds now expiresIn : Except TypeError numbers.Number) = .error error ↔
      convertible (orElse expiresIn (.int 1800)) = false := by
  cases hconvertible : convertible (orElse expiresIn (.int 1800)) <;>
    simp [accessEnds, hconvertible]

theorem readTokens_eq_error_iff {session : StoredSession numbers} {now status : Nat} {body : Json}
    {error : TypeError} :
    readTokens (some session) now status body = .error error ↔ plainBody status body = false := by
  rw [readTokens, plainBody]
  cases htokens : !responseOk status || !truthy (property "access_token" body) ||
      !truthy (property "refresh_token" body) with
  | true => simp
  | false =>
      -- The account is the one of the answer or the session's own.
      obtain ⟨acct, hacct⟩ : ∃ acct, (accountFrom (property "account" body) <|>
          (some session).map StoredSession.acct) = some acct := by
        cases accountFrom (property "account" body) with
        | none => exact ⟨session.acct, rfl⟩
        | some acct => exact ⟨acct, rfl⟩
      rw [if_neg Bool.false_ne_true, hacct, Bool.false_or, Bool.and_eq_false_iff,
        ← @refreshEnds_eq_error_iff numbers _ error, ← @accessEnds_eq_error_iff numbers now _ error]
      cases refreshEnds (property "refresh_token_expires_at" body) with
      | error other => simp [bind, Except.bind]
      | ok ends =>
          cases accessEnds now (property "expires_in" body) with
          | error other => simp [bind, Except.bind]
          | ok ae => simp [bind, Except.bind, pure, Except.pure]

/-- **A refresh throws exactly on an answer that cannot be read.** -/
theorem tokenCall_eq_error_iff {accountsApiUrl : String} {session : StoredSession numbers}
    {now : Nat}
    {answer : TokenAnswer} {error : TypeError} :
    tokenCall accountsApiUrl (some session) now answer = .error error ↔ answer.plain = false := by
  cases answer with
  | failed reason => simp [tokenCall, TokenAnswer.plain]
  | answered status body =>
      rw [tokenCall, TokenAnswer.plain]
      cases body.getD (.object []) with
      | null => simp
      | bool value => exact readTokens_eq_error_iff
      | int value => exact readTokens_eq_error_iff
      | float text => exact readTokens_eq_error_iff
      | string value => exact readTokens_eq_error_iff
      | array items => exact readTokens_eq_error_iff
      | object entries => exact readTokens_eq_error_iff

end Tokens

end Waveform.Web
