import Mathlib.Data.Set.List
import Waveform.Control.Settings
import Waveform.Library.Outcome

/-!
# Saved provider orders

An account saves an order as text, completed against the database default; a request reads it back
as providers of a fixed chain. Where the defaults hold the whole chain, so does every order that is
saved, whatever is updated: a saved order is never the reason that a request fails.

- `resolveOrder_map`: the settings and the domain complete an order alike.
- `WholeOrders.ensurePreferences`, `WholeOrders.updatePreferences`: what saving keeps.
- `WholeOrders.providerOrder`: what a request reads.
-/

set_option autoImplicit false

namespace Waveform.Control

open Waveform.Domain

/-- **The settings and the domain complete an order alike**, on every list of provider names. -/
theorem resolveOrder_map (requested base : List ProviderName) :
    resolveOrder (requested.map ProviderName.asStr) (base.map ProviderName.asStr) =
      match Domain.resolveOrder requested base with
      | some order => .ok (order.map ProviderName.asStr)
      | none => .error .invalidProviderOrder := by
  unfold resolveOrder Domain.resolveOrder
  rw [completeOrder_map ProviderName.asStr_injective]
  cases completeOrder requested base <;> rfl

namespace Settings

/-- The names of the whole chain of an operation, in some order. -/
def WholeChain (operation : SpeechOperation) (names : List String) : Prop :=
  names.Perm ((chain operation).map ProviderName.asStr)

/-- The orders of the defaults are whole. -/
def WholeDefaults (defaults : ProviderDefaults) : Prop :=
  WholeChain .tts defaults.ttsOrder ∧ WholeChain .stt defaults.sttOrder

/-- The orders of the defaults and of every row are whole. -/
structure WholeOrders (settings : Settings) : Prop where
  defaults : WholeDefaults settings.defaults
  rows : ∀ row ∈ settings.preferences, ∀ operation names, savedOrder row operation = some names →
    WholeChain operation names

/-- The names a request starts from. -/
def storedOrder (settings : Settings) (actor : ActorId) (operation : SpeechOperation) :
    List String :=
  ((settings.accountRow actor <|> settings.legacyRow actor).bind fun row =>
    savedOrder row operation).getD
    (settings.defaultOrder operation)

theorem WholeDefaults.order {settings : Settings} (h : WholeDefaults settings.defaults)
    (operation : SpeechOperation) :
    WholeChain operation (settings.defaultOrder operation) := by
  cases operation with
  | tts => exact h.1
  | stt => exact h.2

/-- An order completed against a whole one is whole. -/
theorem wholeChain_of_resolveOrder {operation : SpeechOperation}
    {requested base order : List String}
    (hbase : WholeChain operation base) (h : resolveOrder requested base = .ok order) :
    WholeChain operation order := by
  have hnames : ((chain operation).map ProviderName.asStr).Nodup :=
    (List.nodup_map_iff ProviderName.asStr_injective).mpr (chain_nodup operation)
  have hnodup : base.Nodup := hbase.nodup_iff.mpr hnames
  unfold resolveOrder at h
  split at h
  · next completed hcompleted =>
      obtain rfl := Except.ok.inj h
      obtain ⟨hsub, hrequested, rfl⟩ := (completeOrder_eq_some hnodup).mp hcompleted
      exact (append_remaining_perm hnodup hsub hrequested).trans hbase
  · cases h

section Saving

variable {settings : Settings} (h : settings.WholeOrders)

include h

theorem WholeOrders.legacyRow (actor : ActorId) (operation : SpeechOperation) {names : List String}
    (hsaved : ((settings.legacyRow actor).bind fun row => savedOrder row operation) = some names) :
    WholeChain operation names := by
  obtain ⟨row, hrow, hnames⟩ := Option.bind_eq_some_iff.mp hsaved
  have hmem := List.argmax_mem (Option.mem_def.mpr hrow)
  exact h.rows row (List.mem_of_mem_filter hmem) operation names hnames

/-- The row made on first use has the orders of the newest row from before. -/
theorem WholeOrders.ensurePreferences (actor : ActorId) (now : Nat) :
    (settings.ensurePreferences actor now).WholeOrders := by
  unfold Settings.ensurePreferences
  split
  · exact h
  · refine ⟨h.defaults, List.forall_mem_cons.mpr ⟨fun operation names hsaved => ?_, h.rows⟩⟩
    refine h.legacyRow actor operation ?_
    cases operation with
    | tts => exact hsaved
    | stt => exact hsaved

/-- What a body may write. -/
theorem WholeOrders.completedOrder (operation : SpeechOperation) {requested : Option (List String)}
    {written : Option (List String)}
    (hcompleted : Settings.completedOrder requested (settings.defaultOrder operation) = .ok written)
    {names : List String}
    (hnames : written = some names) : WholeChain operation names := by
  cases requested with
  | none =>
      cases hcompleted
      cases hnames
  | some order =>
      unfold Settings.completedOrder at hcompleted
      cases hresolved : resolveOrder order (settings.defaultOrder operation) with
      | error error =>
          simp only [hresolved] at hcompleted
          cases hcompleted
      | ok completed =>
          simp only [hresolved] at hcompleted
          cases hcompleted
          cases hnames
          exact wholeChain_of_resolveOrder (h.defaults.order operation) hresolved

/-- **An update keeps every saved order whole.** -/
theorem WholeOrders.updatePreferences {actor : ActorId} {body : Preferences} {now : Nat}
    {settings' : Settings}
    (hupdate : settings.updatePreferences actor body now = .ok settings') :
    settings'.WholeOrders := by
  unfold Settings.updatePreferences at hupdate
  split at hupdate
  · cases hupdate
  · cases htts : Settings.completedOrder body.ttsOrder settings.defaults.ttsOrder with
    | error error =>
        rw [htts] at hupdate
        cases hupdate
    | ok tts =>
        cases hstt : Settings.completedOrder body.sttOrder settings.defaults.sttOrder with
        | error error =>
            rw [htts, hstt] at hupdate
            cases hupdate
        | ok stt =>
            rw [htts, hstt] at hupdate
            obtain rfl := Except.ok.inj hupdate
            have hensured := h.ensurePreferences actor now
            refine ⟨hensured.defaults, fun row hrow operation names hsaved => ?_⟩
            obtain ⟨before, hbefore, rfl⟩ := List.mem_map.mp hrow
            split at hsaved
            · -- the updated row: each order is the written one or the one before
              cases operation with
              | tts =>
                  rcases Option.orElse_some_cases hsaved with hwritten | ⟨_, hkept⟩
                  · exact h.completedOrder .tts htts hwritten
                  · exact hensured.rows before hbefore .tts names hkept
              | stt =>
                  rcases Option.orElse_some_cases hsaved with hwritten | ⟨_, hkept⟩
                  · exact h.completedOrder .stt hstt hwritten
                  · exact hensured.rows before hbefore .stt names hkept
            · exact hensured.rows before hbefore operation names hsaved

/-- The stored names are whole. -/
theorem WholeOrders.storedOrder (actor : ActorId) (operation : SpeechOperation) :
    WholeChain operation (settings.storedOrder actor operation) := by
  unfold Settings.storedOrder
  cases hsaved : (settings.accountRow actor <|> settings.legacyRow actor).bind fun row =>
    savedOrder row operation with
  | none => exact h.defaults.order operation
  | some names =>
      obtain ⟨row, hrow, hnames⟩ := Option.bind_eq_some_iff.mp hsaved
      rcases Option.orElse_some_cases hrow with haccount | ⟨_, hlegacy⟩
      · exact h.rows row (List.mem_of_find?_eq_some haccount) operation names hnames
      · refine h.legacyRow actor operation ?_
        rw [hlegacy]
        exact hnames

end Saving

/-- A whole order is completed to itself. -/
theorem resolveOrder_of_perm {operation : SpeechOperation} {order : List ProviderName}
    (h : order.Perm (chain operation)) :
    Domain.resolveOrder order (chain operation) = some order := by
  have hnone : remaining order (chain operation) = [] := by
    refine List.filter_eq_nil_iff.mpr fun provider hprovider => ?_
    simp [h.symm.subset hprovider]
  have hnodup : order.Nodup := h.nodup_iff.mpr (chain_nodup operation)
  refine (completeOrder_eq_some (chain_nodup operation)).mpr ⟨h.subset, hnodup, ?_⟩
  rw [hnone, List.append_nil]

/-- **A request reads the stored order, whole.** -/
theorem WholeOrders.providerOrder {settings : Settings} (h : settings.WholeOrders) (actor : ActorId)
    (operation : SpeechOperation) :
    ∃ order, settings.providerOrder actor operation = some order ∧ order.Perm (chain operation) ∧
      order.map ProviderName.asStr = settings.storedOrder actor operation := by
  have hstored : WholeChain operation (settings.storedOrder actor operation) :=
    h.storedOrder actor operation
  -- every stored name is a provider's
  have hrange : settings.storedOrder actor operation ∈ Set.range (List.map ProviderName.asStr) := by
    rw [Set.range_list_map]
    intro name hname
    obtain ⟨provider, _, rfl⟩ := List.mem_map.mp (hstored.subset hname)
    exact ⟨provider, rfl⟩
  obtain ⟨order, hnames⟩ := hrange
  have hperm : order.Perm (chain operation) := by
    rw [← List.map_perm_map_iff ProviderName.asStr_injective, hnames]
    exact hstored
  refine ⟨order, ?_, hperm, hnames⟩
  have hparsed : (settings.storedOrder actor operation).mapM ProviderName.ofStr? = some order :=
    ProviderName.mapM_ofStr?_eq_some.mpr hnames.symm
  change (((settings.storedOrder actor operation).mapM ProviderName.ofStr?).bind fun parsed =>
    (Domain.resolveOrder parsed (chain operation)).bind fun order =>
      if order.length = parsed.length then some order else none) = some order
  rw [hparsed, Option.bind_some, resolveOrder_of_perm hperm, Option.bind_some, if_pos rfl]

end Settings

end Waveform.Control
