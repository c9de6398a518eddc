import Mathlib.Data.List.Perm.Subperm

/-!
# Speech providers

The provider names, the two fixed chains, and `resolveOrder`, which completes a caller's preferred
prefix against a base order. The settings of an account complete an order of names in the same way,
so the algorithm is stated for any names.
-/

set_option autoImplicit false

namespace Waveform.Domain

/-- Canonical provider identifier. -/
inductive ProviderName where
  | gemini
  | elevenLabs
  | openAi
  | deepgram
  deriving DecidableEq, Repr

/-- Canonical public provider name. -/
def ProviderName.asStr : ProviderName → String
  | gemini => "gemini"
  | elevenLabs => "elevenlabs"
  | openAi => "openai"
  | deepgram => "deepgram"

/-- The provider of a public name. -/
def ProviderName.ofStr? : String → Option ProviderName
  | "gemini" => some gemini
  | "elevenlabs" => some elevenLabs
  | "openai" => some openAi
  | "deepgram" => some deepgram
  | _ => none

@[simp] theorem ProviderName.ofStr?_asStr (provider : ProviderName) :
    ProviderName.ofStr? provider.asStr = some provider := by
  cases provider <;> rfl

theorem ProviderName.asStr_injective : Function.Injective ProviderName.asStr := by
  intro provider other h
  have hname := congrArg ProviderName.ofStr? h
  rw [ofStr?_asStr, ofStr?_asStr] at hname
  exact Option.some.inj hname

/-- A public name belongs to one provider. -/
theorem ProviderName.ofStr?_eq_some {name : String} {provider : ProviderName} :
    ProviderName.ofStr? name = some provider ↔ name = provider.asStr := by
  constructor
  · intro h
    unfold ofStr? at h
    split at h <;> cases h <;> rfl
  · rintro rfl
    exact ofStr?_asStr provider

/-- Names are read one by one. -/
theorem ProviderName.mapM_ofStr?_eq_some {names : List String} {order : List ProviderName} :
    names.mapM ProviderName.ofStr? = some order ↔ names = order.map ProviderName.asStr := by
  induction names generalizing order with
  | nil =>
      cases order with
      | nil => simp
      | cons provider rest => simp
  | cons name names ih =>
      simp only [List.mapM_cons, Option.bind_eq_bind, Option.bind_eq_some_iff, Option.pure_def,
        Option.some.injEq,
        ofStr?_eq_some, ih]
      constructor
      · rintro ⟨provider, rfl, rest, rfl, rfl⟩
        rfl
      · intro h
        cases order with
        | nil => cases h
        | cons provider rest =>
            obtain ⟨hname, hnames⟩ := List.cons.inj h
            exact ⟨provider, hname, rest, hnames, rfl⟩

/-- Stable provider failure category. -/
inductive ProviderFailureKind where
  | saturated
  | timeout
  | network
  | rateLimited
  | unavailable
  | authentication
  | rejectedRequest
  | invalidResponse
  deriving DecidableEq, Repr

/-- Redacted provider failure. -/
structure ProviderError where
  status : Option Nat
  reason : Option String
  provider : ProviderName
  kind : ProviderFailureKind
  deriving DecidableEq

/-- `ProviderError::new`. -/
def ProviderError.new (provider : ProviderName) (kind : ProviderFailureKind) : ProviderError :=
  ⟨none, none, provider, kind⟩

/-- Required text-to-speech provider order. -/
def ttsProviderChain : List ProviderName := [.gemini, .elevenLabs, .openAi]

/-- Required speech-to-text provider order. -/
def sttProviderChain : List ProviderName := [.gemini, .openAi, .deepgram]

section Order

variable {α : Type} [DecidableEq α]

/-- The loop of `resolve_order` over the requested names: each must be in the base and new. -/
def takeRequested (base : List α) : List α → List α → Option (List α)
  | result, [] => some result
  | result, provider :: requested =>
      if !base.contains provider || result.contains provider then none
      else takeRequested base (result ++ [provider]) requested

/-- The loop of `resolve_order` over the base: what the request did not name follows in order. -/
def appendRemaining : List α → List α → List α
  | result, [] => result
  | result, provider :: base =>
      if result.contains provider then appendRemaining result base
      else appendRemaining (result ++ [provider]) base

/-- The algorithm that both `resolve_order` functions of the source share. -/
def completeOrder (requested base : List α) : Option (List α) :=
  if requested.length > base.length then none
  else (takeRequested base [] requested).map fun result => appendRemaining result base

/-- The requested names are taken when each is in the base and none repeats. -/
theorem takeRequested_eq_some {base result requested taken : List α} (hnodup : result.Nodup) :
    takeRequested base result requested = some taken ↔
      requested ⊆ base ∧ (result ++ requested).Nodup ∧ taken = result ++ requested := by
  induction requested generalizing result with
  | nil => simp [takeRequested, hnodup, eq_comm]
  | cons provider requested ih =>
      by_cases hbase : provider ∈ base
      swap
      · simp [takeRequested, hbase]
      by_cases hresult : provider ∈ result
      · have hrepeats : ¬ (result ++ provider :: requested).Nodup := by
          intro h
          exact (List.nodup_append.mp h).2.2 provider hresult provider List.mem_cons_self rfl
        simp [takeRequested, hbase, hresult, hrepeats]
      · have hnodup' : (result ++ [provider]).Nodup :=
          List.nodup_append.mpr ⟨hnodup, by simp, by
            intro a ha b hb heq
            rw [List.mem_singleton.mp hb] at heq
            exact hresult (heq ▸ ha)⟩
        have hguard : (!base.contains provider || result.contains provider) = false := by
          simp [hbase, hresult]
        simp only [takeRequested, hguard, Bool.false_eq_true, if_false, ih hnodup',
          List.append_assoc, List.cons_append, List.nil_append, List.cons_subset, hbase, true_and]

/-- What the request did not name follows in the order of the base. -/
theorem appendRemaining_eq {base result : List α} (hbase : base.Nodup) :
    appendRemaining result base = result ++ base.filter fun provider =>
      !result.contains provider := by
  induction base generalizing result with
  | nil => simp [appendRemaining]
  | cons provider base ih =>
      obtain ⟨hnot, hbase⟩ := List.nodup_cons.mp hbase
      by_cases hresult : provider ∈ result
      · simp [appendRemaining, hresult, ih hbase]
      · -- The provider just appended does not occur in the rest of the base.
        have hsame : (base.filter fun other => !(result ++ [provider]).contains other) =
            base.filter fun other => !result.contains other := by
          apply List.filter_congr
          intro other hother
          have hne : other ≠ provider := fun heq => hnot (heq ▸ hother)
          simp [hne]
        have hrest := @ih (result ++ [provider]) hbase
        rw [hsame] at hrest
        simp [appendRemaining, hresult, hrest]

/-- What a request leaves of a base. -/
def remaining (requested base : List α) : List α :=
  base.filter fun provider => !requested.contains provider

/-- **A prefix completes when it names providers of the base once each: the rest follows in the
base's order.** -/
theorem completeOrder_eq_some {requested base order : List α} (hbase : base.Nodup) :
    completeOrder requested base = some order ↔
      requested ⊆ base ∧ requested.Nodup ∧ order = requested ++ remaining requested base := by
  have htake : ∀ taken, takeRequested base [] requested = some taken ↔
      requested ⊆ base ∧ ([] ++ requested).Nodup ∧ taken = [] ++ requested :=
    fun _ => takeRequested_eq_some List.nodup_nil
  by_cases hlength : base.length < requested.length
  · have hnot : ¬ (requested ⊆ base ∧ requested.Nodup) := by
      rintro ⟨hsub, hnodup⟩
      have hle := (List.subperm_of_subset hnodup hsub).length_le
      omega
    simp only [completeOrder, gt_iff_lt, hlength, if_true]
    constructor
    · intro h
      cases h
    · rintro ⟨hsub, hnodup, _⟩
      exact absurd ⟨hsub, hnodup⟩ hnot
  · simp only [completeOrder, gt_iff_lt, hlength, if_false, Option.map_eq_some_iff, htake,
      List.nil_append]
    constructor
    · rintro ⟨taken, ⟨hsub, hnodup, rfl⟩, rfl⟩
      exact ⟨hsub, hnodup, appendRemaining_eq hbase⟩
    · rintro ⟨hsub, hnodup, rfl⟩
      exact ⟨requested, ⟨hsub, hnodup, rfl⟩, appendRemaining_eq hbase⟩

/-- A completed order has the providers of the base. -/
theorem append_remaining_perm {requested base : List α} (hbase : base.Nodup)
    (hsub : requested ⊆ base) (hnodup : requested.Nodup) :
    (requested ++ remaining requested base).Perm base := by
  have hfilter : (remaining requested base).Nodup := hbase.filter _
  have hdisjoint : ∀ a ∈ requested, ∀ b ∈ remaining requested base, a ≠ b := by
    rintro a ha b hb rfl
    simp [remaining, ha] at hb
  refine (List.perm_ext_iff_of_nodup (List.nodup_append.mpr ⟨hnodup, hfilter, hdisjoint⟩) hbase).mpr
    ?_
  intro a
  by_cases ha : a ∈ requested
  · simp [ha, hsub ha]
  · simp [remaining, ha]

section Renaming

variable {β : Type} [DecidableEq β] {f : α → β}

theorem contains_map (hf : Function.Injective f) (names : List α) (a : α) :
    (names.map f).contains (f a) = names.contains a := by
  rw [Bool.eq_iff_iff, List.contains_iff_mem, List.contains_iff_mem, List.mem_map_of_injective hf]

theorem takeRequested_map (hf : Function.Injective f) (base result requested : List α) :
    takeRequested (base.map f) (result.map f) (requested.map f) =
      (takeRequested base result requested).map (List.map f) := by
  induction requested generalizing result with
  | nil => rfl
  | cons provider requested ih =>
      have happend : result.map f ++ [f provider] = (result ++ [provider]).map f := by
        rw [List.map_append, List.map_singleton]
      simp only [List.map_cons, takeRequested, contains_map hf, happend, ih]
      split <;> rfl

theorem appendRemaining_map (hf : Function.Injective f) (base result : List α) :
    appendRemaining (result.map f) (base.map f) = (appendRemaining result base).map f := by
  induction base generalizing result with
  | nil => rfl
  | cons provider base ih =>
      have happend : result.map f ++ [f provider] = (result ++ [provider]).map f := by
        rw [List.map_append, List.map_singleton]
      simp only [List.map_cons, appendRemaining, contains_map hf, happend, ih]
      split <;> rfl

/-- **The algorithm does not depend on how the providers are named.** -/
theorem completeOrder_map (hf : Function.Injective f) (requested base : List α) :
    completeOrder (requested.map f) (base.map f) = (completeOrder requested base).map
      (List.map f) := by
  have htake := takeRequested_map hf base [] requested
  rw [List.map_nil] at htake
  simp only [completeOrder, List.length_map, htake]
  split
  · rfl
  · rw [Option.map_map, Option.map_map]
    congr 1
    funext result
    exact appendRemaining_map hf base result

end Renaming

end Order

/-- Completes a caller's preferred prefix against a configured provider order. -/
def resolveOrder (requested base : List ProviderName) : Option (List ProviderName) :=
  completeOrder requested base

end Waveform.Domain
