import Waveform.Domain.Identity

/-!
# Credentials

The access token of an account and the proof token that Waveform presents at Briefcase. Both are
built only from values that pass their validation, so each carries that fact.
-/

set_option autoImplicit false

namespace Waveform.Domain

/-- `MAX_CREDENTIAL_LENGTH`. -/
def maxCredentialLength : Nat := 16384

/-- `PROOF_TOKEN_PREFIX`. -/
def proofTokenPrefix : String := "sap_"

/-- `OpaqueCredential::new`: not empty, bounded, and visible ASCII only. -/
def opaqueCredential (value : String) : Bool :=
  !value.isEmpty && decide (value.utf8ByteSize ≤ maxCredentialLength) &&
    value.toList.all fun c => decide (33 ≤ c.toNat) && decide (c.toNat ≤ 126)

/-- Silicon Accounts access token issued to Waveform. -/
structure AccessToken where
  exposeSecret : String
  valid : opaqueCredential exposeSecret = true
  deriving DecidableEq

/-- What `ProofToken::new` accepts. -/
def proofTokenValid (value : String) : Bool :=
  proofTokenPrefix.toList.isPrefixOf value.toList &&
    decide (proofTokenPrefix.utf8ByteSize < value.utf8ByteSize) && opaqueCredential value

/-- Silicon Accounts proof token. -/
structure ProofToken where
  exposeSecret : String
  valid : proofTokenValid exposeSecret = true
  deriving DecidableEq

theorem proofTokenValid_sap1 : proofTokenValid "sap_1" = true := by decide

/-- `ProofToken::new`. -/
def ProofToken.new? (value : String) : Option ProofToken :=
  if h : proofTokenValid value = true then some ⟨value, h⟩ else none

@[simp] theorem ProofToken.new?_exposeSecret (token : ProofToken) :
    ProofToken.new? token.exposeSecret = some token := by
  simp [ProofToken.new?, token.valid]

/-- A User verification proof Waveform holds for an account at Briefcase. -/
structure BriefcaseProof where
  token : ProofToken
  expiresAt : Nat
  deriving DecidableEq

/-- An account whose credential was accepted, and the app that called for it with a proof. -/
structure AuthorizedActor where
  actor : Actor
  originatingApplication : Option ApplicationId

/-- `is_delegated`. -/
def AuthorizedActor.isDelegated (authorization : AuthorizedActor) : Bool :=
  authorization.originatingApplication.isSome

/-! ## The vault -/

/-- A stored ciphertext: empty once it was wiped, or sealed under a key for a context. The
authenticated encryption is represented by its inputs, that is, taken to be sound; the random nonce
is left out, since nothing compares ciphertexts. -/
inductive Cipher (Context : Type) where
  | wiped
  | sealed (key : Vector UInt8 32) (context : Context) (value : String)

/-- Encryption key held outside PostgreSQL. -/
structure Vault where
  key : Vector UInt8 32

namespace Vault

variable {Context : Type}

/-- `seal`. -/
def sealSecret (vault : Vault) (value : String) (context : Context) : Cipher Context :=
  .sealed vault.key context value

/-- `open`: a wrong key or context and a wiped secret are refused. -/
def openSecret [DecidableEq Context] (vault : Vault) (context : Context) :
    Cipher Context → Option String
  | .wiped => none
  | .sealed key sealedFor value =>
      if key = vault.key ∧ sealedFor = context then some value else none

/-- What a vault sealed it opens again, for the same context only. -/
theorem openSecret_sealSecret [DecidableEq Context] (vault : Vault) (value : String)
    (context other : Context) :
    vault.openSecret other (vault.sealSecret value context) =
      if context = other then some value else none := by
  simp [sealSecret, openSecret]

end Vault

end Waveform.Domain
