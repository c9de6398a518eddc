import Mathlib.Algebra.Order.Field.Rat
import Mathlib.Tactic.Linarith
import Waveform.Library.LabelledRun

/-!
# Signing keys

Calls of `verify_access_token` on one gateway, next to key sets that Accounts publishes. A call
reads the key set under the read lock, or waits for the write lock, looks again and fetches while it
holds it; a token of a key that is not in the set makes it ask once more. A fetch takes any time:
Accounts answers it with the set of some moment, and later it ends with that answer, fails or is
dropped with its call. Time is in seconds.

- `keys_rotate`: forced fetches start 30 seconds apart, a fetch that fails leaves the key set as it
  was, and while fetches succeed no token is refused whose key was published long enough before.
-/

set_option autoImplicit false

namespace Waveform.Accounts

open LabelledRun

/-! ## Key sets -/

/-- `JWKS_MAX_AGE`. -/
def jwksMaxAge : ℚ := 3600

/-- `JWKS_REFETCH_INTERVAL`. -/
def jwksRefetchInterval : ℚ := 30

/-- A published key: its id and the public key. -/
structure Jwk where
  kid : String
  x : String
  deriving DecidableEq

/-- A key set. -/
structure Jwks where
  keys : List Jwk
  deriving DecidableEq

/-- The set has a key of this id. -/
def Jwks.has (jwks : Jwks) (kid : String) : Bool := jwks.keys.any fun key => key.kid == kid

structure JwksState where
  keys : Option Jwks
  fetchedAt : Option ℚ
  lastForced : Option ℚ

namespace JwksState

/-- The last forced fetch started less than the interval before. -/
def recentlyForced (state : JwksState) (now : ℚ) : Bool :=
  state.lastForced.any fun forced => decide (now - forced < jwksRefetchInterval)

/-- What `key_set` returns under the read lock. -/
def readable (state : JwksState) (now : ℚ) (unknownKid : Bool) : Option Jwks :=
  match state.keys, state.fetchedAt with
  | some keys, some fetchedAt =>
      if !unknownKid && decide (now - fetchedAt < jwksMaxAge) then some keys else none
  | _, _ => none

/-- What `key_set` returns under the write lock without a fetch. -/
def usable (state : JwksState) (now : ℚ) (unknownKid : Bool) : Option Jwks :=
  match state.keys, state.fetchedAt with
  | some keys, some fetchedAt =>
      if (!unknownKid && decide (now - fetchedAt < jwksMaxAge)) ||
          (unknownKid && state.recentlyForced now) then some keys
      else none
  | _, _ => none

end JwksState

/-! ## Verifications -/

/-- What the token verification of the client library says. -/
inductive TokenResult where
  | valid
  | unknownKey
  | invalid
  deriving DecidableEq

/-- Where a verification is: about to read the key set, waiting for the write lock, fetching, or
over: with a result, refused as signed by an unknown key at a moment, the fetch that it made for the
token having taken a time, without a key set, or dropped. -/
inductive VerifyPhase where
  | reading (unknownKid : Bool)
  | waiting (unknownKid : Bool)
  | fetching
  | verified (result : TokenResult)
  | refused (moment took : ℚ)
  | unavailable
  | dropped
  deriving DecidableEq

namespace VerifyPhase

/-- The verification is not over. -/
def running : VerifyPhase → Bool
  | reading _ | waiting _ | fetching => true
  | verified _ | refused _ _ | unavailable | dropped => false

/-- The verification asks again for a key set, on account of an unknown key id. -/
def again : VerifyPhase → Bool
  | reading unknownKid | waiting unknownKid => unknownKid
  | _ => false

end VerifyPhase

structure VerifyCall where
  token : String
  phase : VerifyPhase
  deriving DecidableEq

/-- The call that holds the write lock, with its fetch. -/
structure KeyFetch where
  caller : Nat
  unknownKid : Bool
  started : ℚ
  answer : Option Jwks

/-- The gateway's key set and verifications, in the order they started, and what Accounts publishes,
with the moment since when it does. -/
structure SigningKeys where
  now : ℚ
  published : Jwks
  since : String → Option ℚ
  jwks : JwksState
  fetch : Option KeyFetch
  calls : List VerifyCall

inductive KeyAction where
  /-- Time passes. -/
  | tick (duration : ℚ)
  /-- Accounts publishes another key set. -/
  | publish (keys : Jwks)
  /-- A verification starts. -/
  | start (token : String)
  /-- A verification takes the read lock. -/
  | read (call : Nat)
  /-- A verification takes the write lock. -/
  | lock (call : Nat)
  /-- Accounts answers the fetch, or a retry of it. -/
  | serve
  /-- The fetch ends with its answer. -/
  | receive
  /-- The fetch fails or times out. -/
  | fail
  /-- A verification is dropped. -/
  | drop (call : Nat)

section Model

variable (verify : Jwks → String → TokenResult)

/-- `verify_access_token` once it has a key set. -/
def afterKeys (now took : ℚ) (unknownKid : Bool) (keys : Jwks) (token : String) : VerifyPhase :=
  match verify keys token with
  | .unknownKey => if unknownKid then .refused now took else .reading true
  | result => .verified result

namespace SigningKeys

/-- A call goes on to a phase. -/
def setPhase (s : SigningKeys) (i : Nat) (call : VerifyCall) (phase : VerifyPhase) : SigningKeys :=
  { s with calls := s.calls.set i { call with phase } }

/-- Since when the key ids are published after Accounts publishes a set. -/
def sinceAfter (s : SigningKeys) (keys : Jwks) (kid : String) : Option ℚ :=
  if keys.has kid then some ((s.since kid).getD s.now) else none

/-- The first block of `key_set`. -/
def readKeys (s : SigningKeys) (i : Nat) (call : VerifyCall) (unknownKid : Bool) : SigningKeys :=
  match s.jwks.readable s.now unknownKid with
  | some keys => s.setPhase i call (afterKeys verify s.now 0 unknownKid keys call.token)
  | none => s.setPhase i call (.waiting unknownKid)

/-- `key_set` from the write lock to the fetch. -/
def lockKeys (s : SigningKeys) (i : Nat) (call : VerifyCall) (unknownKid : Bool) : SigningKeys :=
  match s.jwks.usable s.now unknownKid with
  | some keys => s.setPhase i call (afterKeys verify s.now 0 unknownKid keys call.token)
  | none =>
      { s.setPhase i call .fetching with
        jwks := if unknownKid then { s.jwks with lastForced := some s.now } else s.jwks
        fetch := some ⟨i, unknownKid, s.now, none⟩ }

/-- `key_set` from a successful fetch on. -/
def receiveKeys (s : SigningKeys) (fetch : KeyFetch) (call : VerifyCall) (keys : Jwks) :
    SigningKeys :=
  { s.setPhase fetch.caller call
      (afterKeys verify s.now (s.now - fetch.started) fetch.unknownKid keys call.token) with
    jwks := { s.jwks with keys := some keys, fetchedAt := some s.now }
    fetch := none }

/-- `key_set` from a failed fetch on: a stale key set still verifies tokens of known keys. -/
def failFetch (s : SigningKeys) (fetch : KeyFetch) (call : VerifyCall) : SigningKeys :=
  let phase := match s.jwks.keys with
    | some keys => afterKeys verify s.now (s.now - fetch.started) fetch.unknownKid keys call.token
    | none => .unavailable
  { s.setPhase fetch.caller call phase with fetch := none }

/-- The state after an action. -/
def next (s : SigningKeys) : KeyAction → SigningKeys
  | .tick duration => { s with now := s.now + duration }
  | .publish keys => { s with published := keys, since := s.sinceAfter keys }
  | .start token => { s with calls := s.calls ++ [⟨token, .reading false⟩] }
  | .read i =>
      match s.calls[i]? with
      | some ⟨token, .reading unknownKid⟩ =>
          s.readKeys verify i ⟨token, .reading unknownKid⟩ unknownKid
      | _ => s
  | .lock i =>
      match s.calls[i]? with
      | some ⟨token, .waiting unknownKid⟩ =>
          s.lockKeys verify i ⟨token, .waiting unknownKid⟩ unknownKid
      | _ => s
  | .serve =>
      match s.fetch with
      | some fetch => { s with fetch := some { fetch with answer := some s.published } }
      | none => s
  | .receive =>
      match s.fetch with
      | some fetch =>
          match fetch.answer, s.calls[fetch.caller]? with
          | some keys, some call => s.receiveKeys verify fetch call keys
          | _, _ => s
      | none => s
  | .fail =>
      match s.fetch with
      | some fetch =>
          match s.calls[fetch.caller]? with
          | some call => s.failFetch verify fetch call
          | none => s
      | none => s
  | .drop i =>
      match s.calls[i]? with
      | some call =>
          { s.setPhase i call .dropped with
            fetch := s.fetch.filter fun fetch => decide (fetch.caller ≠ i) }
      | none => s

/-- When an action can be taken. The locks are free unless a call holds one through its fetch. -/
def Enabled (s : SigningKeys) : KeyAction → Prop
  | .tick duration => 0 ≤ duration
  | .publish _ => True
  | .start _ => True
  | .read i => s.fetch.isNone = true ∧ s.calls[i]?.any (fun call =>
      call.phase == .reading false || call.phase == .reading true) = true
  | .lock i => s.fetch.isNone = true ∧ s.calls[i]?.any (fun call =>
      call.phase == .waiting false || call.phase == .waiting true) = true
  | .serve => s.fetch.isSome = true
  | .receive => s.fetch.any (fun fetch =>
      fetch.answer.isSome && s.calls[fetch.caller]?.isSome) = true
  | .fail => s.fetch.any (fun fetch => s.calls[fetch.caller]?.isSome) = true
  | .drop i => s.calls[i]?.any (fun call => call.phase.running) = true

instance (s : SigningKeys) : (a : KeyAction) → Decidable (s.Enabled a)
  | .tick duration => inferInstanceAs (Decidable (0 ≤ duration))
  | .publish _ => .isTrue trivial
  | .start _ => .isTrue trivial
  | .read _ => inferInstanceAs (Decidable (_ ∧ _))
  | .lock _ => inferInstanceAs (Decidable (_ ∧ _))
  | .serve => inferInstanceAs (Decidable (_ = _))
  | .receive => inferInstanceAs (Decidable (_ = _))
  | .fail => inferInstanceAs (Decidable (_ = _))
  | .drop _ => inferInstanceAs (Decidable (_ = _))

/-- A step. -/
def Step (s : SigningKeys) (a : KeyAction) (s' : SigningKeys) : Prop :=
  s.Enabled a ∧ s' = s.next verify a

/-- The gateway has just started. -/
structure Init (s : SigningKeys) : Prop where
  jwks : s.jwks = ⟨none, none, none⟩
  fetch : s.fetch = none
  calls : s.calls = []
  since : ∀ kid, (s.since kid).isSome = s.published.has kid
  past : ∀ kid moment, s.since kid = some moment → moment ≤ s.now

end SigningKeys

/-- The transitions of a run. -/
abbrev KeyRun := List (Transition SigningKeys KeyAction)

/-- The transition starts a fetch on account of an unknown key id. -/
def StartsForced (e : Transition SigningKeys KeyAction) : Prop :=
  ∃ i started, e.label = .lock i ∧ e.post.fetch = some ⟨i, true, started, none⟩

/-- Every fetch that ended in the run ended with its answer. -/
def FetchesSucceed (tr : KeyRun) : Prop :=
  ∀ e ∈ tr, e.label ≠ .fail ∧
    ∀ i, e.label = .drop i → ∀ fetch, e.pre.fetch = some fetch → fetch.caller ≠ i

/-- A fetch that ended without its answer: when it started, and when it ended. -/
structure FailedFetch where
  started : ℚ
  ended : ℚ

/-- The fetch that ends without its answer in a transition: it fails, or it is dropped with its
call. -/
def failureOf (e : Transition SigningKeys KeyAction) : Option FailedFetch :=
  (e.pre.fetch.filter fun fetch => match e.label with
    | .fail => true
    | .drop i => decide (fetch.caller = i)
    | _ => false).map fun fetch => ⟨fetch.started, e.pre.now⟩

/-- The fetches of a run that ended without their answers. -/
def failures (tr : KeyRun) : List FailedFetch := tr.filterMap failureOf

/-- The fetches that had failed by a moment started an interval and a time before it, or longer. -/
def NoLateFailure (failed : List FailedFetch) (moment took : ℚ) : Prop :=
  ∀ f ∈ failed, f.ended ≤ moment → f.started + jwksRefetchInterval + took ≤ moment

/-- Forced fetches start an interval apart; a fetch that fails changes nothing of the key set, and
its call goes on with the set that is held; and while fetches succeed, a token is refused as signed
by an unknown key only within an interval and one fetch of the moment its key was published. For one
refusal no more is needed than that the fetches of the interval before it did not fail. -/
structure KeyRotation (tokenKid : String → Option String) (tr : KeyRun) (t : SigningKeys) :
    Prop where
  apart : ∀ first mid second, InOrder tr first mid second → StartsForced first →
    StartsForced second → first.pre.now + jwksRefetchInterval ≤ second.pre.now
  kept : ∀ e ∈ tr, e.label = .fail → e.post.jwks = e.pre.jwks ∧
    ∀ fetch call keys, e.pre.fetch = some fetch → e.pre.calls[fetch.caller]? = some call →
      e.pre.jwks.keys = some keys → e.post.calls[fetch.caller]? = some { call with
        phase := afterKeys verify e.pre.now (e.pre.now - fetch.started) fetch.unknownKid keys
          call.token }
  refused : FetchesSucceed tr → ∀ call ∈ t.calls, ∀ moment took, call.phase = .refused moment took →
    ∀ kid since, tokenKid call.token = some kid → t.since kid = some since →
      moment ≤ since + jwksRefetchInterval + took
  recent : ∀ call ∈ t.calls, ∀ moment took, call.phase = .refused moment took →
    NoLateFailure (failures tr) moment took →
      ∀ kid since, tokenKid call.token = some kid → t.since kid = some since →
        moment ≤ since + jwksRefetchInterval + took

end Model

end Waveform.Accounts
