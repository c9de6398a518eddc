import Waveform.Domain.MediaTypeText
import Waveform.Library.Deadlines
import Waveform.Providers.Endpoint

/-!
# Exchanges with a provider

`ProviderRuntime` makes an HTTP exchange once, or again after a transient failure when the one retry
of the attempt is still there. What the exchange is answered, the clock and the jitter are the
surroundings' (`ProviderOp`). Durations and instants are in nanoseconds.

- `retryDelay_le`: no retry waits longer than the cap.
- `executeLoop_true`, `executeLoop_false`: the loop, with the retry spent and not.
- `asks_executeWithoutRetry`, `asks_executeWithRetryBudget`: what they ask.
-/

set_option autoImplicit false

namespace Waveform.Providers

open Dialogue Deadlines

/-- A number of milliseconds. -/
def millis (n : Nat) : Nat := n * 1000000

/-- `PROVIDER_RETRY_MAX_JITTER`. -/
def providerRetryMaxJitter : Nat := millis 100

/-- `PROVIDER_RETRY_AFTER_CAP`. -/
def providerRetryAfterCap : Nat := millis 2000

/-- `MIN_RETRY_EXCHANGE_BUDGET`. -/
def minRetryExchangeBudget : Nat := millis 50

/-- `TransientRetry`. -/
inductive TransientRetry where
  | disabled
  | once (delay : Nat)

/-- `ProviderHttpConfig`, but for the limits on bodies and on simultaneous attempts. -/
structure ProviderHttpConfig where
  baseUrl : BaseUrl
  timeout : Nat
  retry : TransientRetry

/-- `BoundedResponse`, with the one header that is read. -/
structure BoundedResponse where
  uploadUrl : Option String
  body : List UInt8

/-- A failed exchange: its error, the `Retry-After` header, and the date when it is read. -/
structure FailedExchange where
  error : ProviderError
  retryAfter : Option String
  utcNow : Int

/-- What a provider's adapter does with its surroundings. `acquire` says whether there was a permit;
`hold`, which file name the cleanup guard holds from here on. A task is spawned, and a failure
logged, without waiting. -/
inductive ProviderOp (Request : Type) where
  | acquire
  | now
  | jitter
  | exchange (request : Request)
  | sleep (duration : Nat)
  | hold (name : Option String)
  | spawnCleanup (name : String)
  | logCleanupFailure (kind : ProviderErrorKind)

/-- What it is answered. -/
@[reducible] def ProviderAnswer {Request : Type} : ProviderOp Request → Type
  | .acquire => Bool
  | .now => Nat
  | .jitter => Fin (providerRetryMaxJitter + 1)
  | .exchange _ => Except FailedExchange BoundedResponse
  | .sleep _ => Unit
  | .hold _ => Unit
  | .spawnCleanup _ => Unit
  | .logCleanupFailure _ => Unit

/-- The program waits here, and may be dropped. -/
def ProviderOp.awaited {Request : Type} : ProviderOp Request → Bool
  | .exchange _ => true
  | .sleep _ => true
  | _ => false

/-- A sleep takes its time, and `now` reads the clock. -/
def providerClock (Request : Type) : Clock (@ProviderAnswer Request) where
  waits
    | .sleep duration => duration
    | _ => 0
  reads
    | .now, reading => some reading
    | _, _ => none

section Exchanges

variable {Request : Type}

/-- A program of a provider's adapter. -/
abbrev ProviderProgram (Request α : Type) := Program (@ProviderAnswer Request) α

/-- `try_acquire`. -/
def tryAcquire (apiKey : String) : ProviderProgram Request (Except ProviderError Unit) :=
  if apiKey = "" then .done (.error ⟨none, some "key_not_configured", .configuration⟩)
  else (perform ProviderOp.acquire).bind fun permit =>
    .done (if permit = true then .ok () else .error (.new .saturated))

/-- One HTTP exchange, with the body read: `execute_once`. -/
def executeOnce (request : Request) :
    ProviderProgram Request (Except FailedExchange BoundedResponse) :=
  perform (ProviderOp.exchange request)

/-- `Instant::now`. -/
def instantNow : ProviderProgram Request Nat :=
  perform ProviderOp.now

/-- `rand::random_range`, up to the largest jitter. -/
def randomJitter : ProviderProgram Request (Fin (providerRetryMaxJitter + 1)) :=
  perform ProviderOp.jitter

/-- `tokio::time::sleep`. -/
def sleep (duration : Nat) : ProviderProgram Request Unit :=
  perform (ProviderOp.sleep duration)

/-- `retry_delay`. -/
def retryDelay (base jitter : Nat) (retryAfter : Option Nat) : Nat :=
  max (min (min base providerRetryAfterCap + jitter) providerRetryAfterCap)
    (min (retryAfter.getD 0) providerRetryAfterCap)

/-- No retry waits longer than the cap. -/
theorem retryDelay_le (base jitter : Nat) (retryAfter : Option Nat) :
    retryDelay base jitter retryAfter ≤ providerRetryAfterCap :=
  max_le (min_le_right _ _) (min_le_right _ _)

/-- `retry_after`: seconds, or a date, of which the time that is left. -/
def retryAfter (parseRfc2822 : List Char → Option Int) (failed : FailedExchange) : Option Nat :=
  failed.retryAfter.bind fun header =>
    match Domain.parseUnsigned 64 (Domain.trim header.toList) with
    | some seconds => some (min (millis (1000 * seconds)) providerRetryAfterCap)
    | none => (parseRfc2822 (Domain.trim header.toList)).map fun target =>
        min (target - failed.utcNow).toNat providerRetryAfterCap

variable (config : ProviderHttpConfig) (parseRfc2822 : List Char → Option Int) (request : Request)

/-- The loop of `execute_with_retry_budget`, whose deadline is its own. It goes on with the retry
spent. -/
def executeLoop (deadline : Nat) (consumed : Bool) :
    ProviderProgram Request (Except ProviderError (BoundedResponse × Bool)) :=
  (executeOnce request).bind fun
    | .ok response => .done (.ok (response, consumed))
    | .error failed =>
        match config.retry with
        | .disabled => .done (.error failed.error)
        | .once delay =>
            if _h : failed.error.isRetryable = true ∧ consumed = false then
              randomJitter.bind fun jitter => instantNow.bind fun now =>
                if deadline - now ≤ retryDelay delay jitter (retryAfter parseRfc2822 failed) +
                  minRetryExchangeBudget then
                  .done (.error failed.error)
                else
                  (sleep (retryDelay delay jitter (retryAfter parseRfc2822 failed))).bind fun _ =>
                    executeLoop deadline true
            else .done (.error failed.error)
termination_by if consumed then 0 else 1
decreasing_by
  rw [_h.2]
  decide

/-- A deadline that has passed is a timeout. -/
def orTimeout {α : Type} : Option (Except ProviderError α) → Except ProviderError α
  | some result => result
  | none => .error (.new .timeout)

/-- `execute_with_retry_budget`; the budget that is left is returned with the response. -/
def executeWithRetryBudget (consumed : Bool) :
    ProviderProgram Request (Except ProviderError (BoundedResponse × Bool)) :=
  instantNow.bind fun now =>
    (timeoutAt (now + config.timeout)
      (executeLoop config parseRfc2822 request (now + config.timeout) consumed)).bind
      fun result => .done (orTimeout result)

/-- `execute_without_retry`. -/
def executeWithoutRetry : ProviderProgram Request (Except ProviderError BoundedResponse) :=
  instantNow.bind fun now =>
    (timeoutAt (now + config.timeout) ((executeOnce request).bind fun
      | .ok response => .done (.ok response)
      | .error failed => .done (.error failed.error))).bind fun result => .done (orTimeout result)

/-- Without a retry left a failure is the end. -/
theorem executeLoop_true (deadline : Nat) :
    executeLoop config parseRfc2822 request deadline true = (executeOnce request).bind fun
      | .ok response => .done (.ok (response, true))
      | .error failed => .done (.error failed.error) := by
  rw [executeLoop]
  congr 1
  funext answer
  cases answer with
  | ok response => rfl
  | error failed =>
      cases config.retry with
      | disabled => rfl
      | once delay => exact dif_neg fun h => nomatch h.2

/-- With the retry left, a failure that is transient may wait and go on without one. -/
theorem executeLoop_false (deadline : Nat) :
    executeLoop config parseRfc2822 request deadline false = (executeOnce request).bind fun
      | .ok response => .done (.ok (response, false))
      | .error failed =>
          match config.retry with
          | .disabled => .done (.error failed.error)
          | .once delay =>
              if failed.error.isRetryable = true then
                randomJitter.bind fun jitter => instantNow.bind fun now =>
                  if deadline - now ≤ retryDelay delay jitter (retryAfter parseRfc2822 failed) +
                    minRetryExchangeBudget
                  then .done (.error failed.error)
                  else
                    (sleep (retryDelay delay jitter (retryAfter parseRfc2822 failed))).bind fun _ =>
                      executeLoop config parseRfc2822 request deadline true
              else .done (.error failed.error) := by
  rw [executeLoop]
  congr 1
  funext answer
  cases answer with
  | ok response => rfl
  | error failed =>
      cases config.retry with
      | disabled => rfl
      | once delay =>
          by_cases h : failed.error.isRetryable = true
          · exact (dif_pos ⟨h, rfl⟩).trans (if_pos h).symm
          · exact (dif_neg fun hboth => h hboth.1).trans (if_neg h).symm

section Asked

variable {config parseRfc2822 request} {P : ProviderOp Request → Prop}

theorem asks_executeWithoutRetry (hexchange : P (.exchange request)) (hnow : P .now) :
    Asks (fun c => P c.op) (executeWithoutRetry config request) := by
  refine Asks.bind (Asks.perform hnow) fun now => Asks.bind (Asks.timeoutAt (fun _ _ h => h) ?_)
    fun _ => trivial
  refine Asks.bind (Asks.perform hexchange) fun answer => ?_
  cases answer with
  | ok response => trivial
  | error failed => trivial

theorem asks_executeLoop_true {deadline : Nat} (hexchange : P (.exchange request)) :
    Asks (fun c => P c.op) (executeLoop config parseRfc2822 request deadline true) := by
  rw [executeLoop_true]
  refine Asks.bind (Asks.perform hexchange) fun answer => ?_
  cases answer with
  | ok response => trivial
  | error failed => trivial

/-- With a retry there are the clock, the jitter and a pause besides the exchange. -/
theorem asks_executeLoop {deadline : Nat} {consumed : Bool} (hexchange : P (.exchange request))
    (hnow : P .now)
    (hjitter : P .jitter) (hsleep : ∀ duration, P (.sleep duration)) :
    Asks (fun c => P c.op) (executeLoop config parseRfc2822 request deadline consumed) := by
  cases consumed with
  | true => exact asks_executeLoop_true hexchange
  | false =>
      rw [executeLoop_false]
      refine Asks.bind (Asks.perform hexchange) fun answer => ?_
      cases answer with
      | ok response => trivial
      | error failed =>
          cases config.retry with
          | disabled => trivial
          | once delay =>
              by_cases hretry : failed.error.isRetryable = true
              · simp only [if_pos hretry]
                refine Asks.bind (Asks.perform hjitter) fun jitter =>
                  Asks.bind (Asks.perform hnow) fun now => ?_
                split
                · trivial
                · exact Asks.bind (Asks.perform (hsleep _)) fun _ => asks_executeLoop_true hexchange
              · simp only [if_neg hretry]
                trivial

theorem asks_executeWithRetryBudget {consumed : Bool} (hexchange : P (.exchange request))
    (hnow : P .now)
    (hjitter : P .jitter) (hsleep : ∀ duration, P (.sleep duration)) :
    Asks (fun c => P c.op) (executeWithRetryBudget config parseRfc2822 request consumed) := by
  refine Asks.bind (Asks.perform hnow) fun now => Asks.bind (Asks.timeoutAt (fun _ _ h => h) ?_)
    fun _ => trivial
  exact asks_executeLoop hexchange hnow hjitter hsleep

end Asked

end Exchanges

end Waveform.Providers
