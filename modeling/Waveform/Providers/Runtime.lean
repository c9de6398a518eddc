import Waveform.Domain.Media

/-!
# What the provider adapters share

The failures of a provider's exchange, without anything of the response's body, and the bounds that
one provider's requests are made under.
-/

set_option autoImplicit false

namespace Waveform.Providers

/-- `ProviderErrorKind`. -/
inductive ProviderErrorKind where
  | saturated
  | timeout
  | network
  | rateLimited
  | rejected
  | configuration
  | invalidResponse
  | unavailable
  deriving DecidableEq

/-- `ProviderError` of the adapters. -/
structure ProviderError where
  status : Option Nat
  reason : Option String
  kind : ProviderErrorKind
  deriving DecidableEq

/-- `ProviderError::new`. -/
def ProviderError.new (kind : ProviderErrorKind) : ProviderError := ⟨none, none, kind⟩

/-- `ProviderError::invalid_response`. -/
def ProviderError.invalidResponse : ProviderError := .new .invalidResponse

/-- `is_retryable`. -/
def ProviderError.isRetryable (error : ProviderError) : Bool :=
  match error.kind with
  | .timeout | .network | .rateLimited | .unavailable => true
  | .saturated | .rejected | .configuration | .invalidResponse => false

end Waveform.Providers
