import Halquen.Domain.Gateway
import Halquen.Library.Listing
import Halquen.Protocol.Messages

/-!
# Model router

Choice of the model that answers a request which could not be resolved locally. A model is
eligible through one of its providers: enabled, configured, of a supported kind, of the privacy
class of the model, and permitted by the privacy settings. A manual selection takes the named
model if it is eligible; the automatic route takes the last eligible model in the order of a score
that the routing preset computes.

`select_characterized` says what every outcome means. The settings may also rule out every call,
which is an outcome of its own (`route_without_budget`).
-/

set_option autoImplicit false

namespace Halquen.Ai.Router

open Halquen.Domain.Ids Halquen.Domain.Gateway Halquen.Protocol.Messages
open Halquen.Library.Sql Halquen.Library.Listing

/-- What the router is asked. -/
structure RouteRequest where
  task : AiTaskType
  selection : ModelSelection
  containsPersonalContext : Bool
  deriving DecidableEq

/-- The model chosen, with the reason that the user is shown. -/
structure SelectedModel where
  providerId : ProviderId
  modelId : ModelId
  reasonCode : String
  deriving DecidableEq

/-- Why no model is chosen. -/
inductive RouteError where
  | aiDisabled | selectedModelIneligible | noEligibleModel
  deriving DecidableEq, Repr

/-- What the user is told of it. -/
def RouteError.message : RouteError → String
  | .aiDisabled => "AI model calls are disabled"
  | .selectedModelIneligible => "the selected model is unavailable or forbidden by privacy policy"
  | .noEligibleModel => "no eligible provider and model are configured"

/-- `provider_supported`: the providers for which there is an adapter. -/
def providerSupported : ProviderKind → Bool
  | .openAiCompatible | .openAi | .ollama | .lmStudio => true
  | .anthropic | .gemini => false

/-- `privacy_allowed`: the settings permit what the model would be sent. -/
def privacyAllowed (settings : ApplicationSettings) (privacy : PrivacyClass)
    (containsPersonalContext : Bool) : Bool :=
  match privacy with
  | .local => settings.allowLocalAi
  | .cloud =>
      settings.allowCloudAi && (!containsPersonalContext || settings.allowPersonalContext)

/-- Score on 32-bit integers. No intermediate value leaves their range (`natAbs_routeScore_le`). -/
def routeScore (preset : RoutingPreset) (model : AiModel) : Int :=
  let localBonus : Int := (if model.privacy == .local then 1 else 0) * 1000
  let defaultBonus : Int := (if model.isDefault then 1 else 0) * 100
  let priority := model.priority.toInt
  match preset with
  | .minimizeAiUsage | .preferLocal => localBonus + defaultBonus + priority
  | .minimizeCost => localBonus / 2 + defaultBonus + priority
  | .preferQuality => defaultBonus + priority * 2
  | .balanced | .custom => localBonus / 4 + defaultBonus + priority

/-- The closure `eligible` of the selection. -/
def eligible (settings : ApplicationSettings) (providers : List Provider) (request : RouteRequest)
    (model : AiModel) : Bool :=
  model.enabled && model.taskEligibility.contains request.task
    && providers.any fun provider =>
      provider.id == model.providerId && provider.enabled && provider.configured
        && providerSupported provider.kind && provider.privacy == model.privacy
        && privacyAllowed settings provider.privacy request.containsPersonalContext

/-- `select`: the model that the user names, or the best of those that are eligible. -/
def select (settings : ApplicationSettings) (providers : List Provider) (models : List AiModel)
    (request : RouteRequest) : Except RouteError SelectedModel :=
  if settings.maxModelCallsPerRequest = 0 then
    .error .aiDisabled
  else
    match request.selection with
    | .model modelId => do
        let model ← orError .selectedModelIneligible
          ((models.find? fun model => model.id == modelId).filter
            (eligible settings providers request))
        return ⟨model.providerId, model.id, "manual_selection_policy_validated"⟩
    | .automatic => do
        let candidates := models.filter (eligible settings providers request)
        let model ← orError .noEligibleModel (lastBy (routeScore settings.routingPreset) candidates)
        return ⟨model.providerId, model.id, "automatic_deterministic_route"⟩

theorem natAbs_routeScore_le (preset : RoutingPreset) (model : AiModel) :
    (routeScore preset model).natAbs ≤ 65536 + 1100 := by
  have hlower := Int16.le_toInt model.priority
  have hupper := Int16.toInt_lt model.priority
  unfold routeScore
  dsimp only
  cases preset <;> split <;> split <;> omega

/-! ## Eligible models -/

/-- The privacy settings permit a call of this class. -/
structure Permitted (settings : ApplicationSettings) (personal : Bool) (privacy : PrivacyClass) :
    Prop where
  local_allowed : privacy = .local → settings.allowLocalAi = true
  cloud_allowed : privacy = .cloud → settings.allowCloudAi = true
  personal_allowed : privacy = .cloud → personal = true → settings.allowPersonalContext = true

/-- The provider may serve the request with models of this class. -/
structure Serves (settings : ApplicationSettings) (request : RouteRequest) (model : AiModel)
    (provider : Provider) : Prop where
  owner : provider.id = model.providerId
  enabled : provider.enabled = true
  configured : provider.configured = true
  supported : provider.kind ∈ [.openAiCompatible, .openAi, .ollama, .lmStudio]
  privacy : provider.privacy = model.privacy
  permitted : Permitted settings request.containsPersonalContext provider.privacy

/-- A model that may answer the request. -/
structure Eligible (settings : ApplicationSettings) (providers : List Provider)
    (request : RouteRequest) (model : AiModel) : Prop where
  enabled : model.enabled = true
  task : request.task ∈ model.taskEligibility
  served : ∃ provider ∈ providers, Serves settings request model provider

section

variable {settings : ApplicationSettings} {providers : List Provider} {models : List AiModel}
  {request : RouteRequest}

theorem privacyAllowed_iff (settings : ApplicationSettings) (personal : Bool)
    (privacy : PrivacyClass) :
    privacyAllowed settings privacy personal = true ↔ Permitted settings personal privacy := by
  cases privacy with
  | «local» =>
      constructor
      · intro h
        exact ⟨fun _ => h, nofun, nofun⟩
      · intro h
        exact h.local_allowed rfl
  | cloud =>
      unfold privacyAllowed
      simp only [Bool.and_eq_true, Bool.or_eq_true, Bool.not_eq_true']
      constructor
      · rintro ⟨hcloud, hpersonal⟩
        refine ⟨nofun, fun _ => hcloud, fun _ htrue => ?_⟩
        exact hpersonal.resolve_left (by simp [htrue])
      · intro h
        refine ⟨h.cloud_allowed rfl, ?_⟩
        by_cases hpersonal : personal = true
        · exact .inr (h.personal_allowed rfl hpersonal)
        · exact .inl (by simpa using hpersonal)

theorem providerSupported_iff (kind : ProviderKind) :
    providerSupported kind = true ↔ kind ∈ [.openAiCompatible, .openAi, .ollama, .lmStudio] := by
  cases kind <;> decide

theorem eligible_iff (model : AiModel) :
    eligible settings providers request model = true ↔
      Eligible settings providers request model := by
  unfold eligible
  simp only [Bool.and_eq_true, List.any_eq_true, beq_iff_eq, List.contains_iff_mem,
    privacyAllowed_iff, providerSupported_iff]
  constructor
  · rintro ⟨⟨henabled, htask⟩, provider, hmem, h⟩
    obtain ⟨⟨⟨⟨⟨howner, hprovider⟩, hconfigured⟩, hsupported⟩, hprivacy⟩, hpermitted⟩ := h
    exact ⟨henabled, htask, provider, hmem, howner, hprovider, hconfigured, hsupported, hprivacy,
      hpermitted⟩
  · rintro ⟨henabled, htask, provider, hmem, h⟩
    exact ⟨⟨henabled, htask⟩, provider, hmem,
      ⟨⟨⟨⟨h.owner, h.enabled⟩, h.configured⟩, h.supported⟩, h.privacy⟩, h.permitted⟩

/-! ## Outcomes -/

theorem select_of_no_budget (h : settings.maxModelCallsPerRequest = 0) :
    select settings providers models request = .error .aiDisabled := by
  unfold select
  rw [if_pos h]

theorem select_manual {modelId : ModelId} (hbudget : settings.maxModelCallsPerRequest ≠ 0)
    (hselection : request.selection = .model modelId) :
    select settings providers models request =
      ((models.find? fun model => model.id == modelId).filter
        (eligible settings providers request)).elim (.error .selectedModelIneligible)
        fun model => .ok ⟨model.providerId, model.id, "manual_selection_policy_validated"⟩ := by
  unfold select
  rw [if_neg hbudget, hselection]
  dsimp only
  cases (models.find? fun model => model.id == modelId).filter
    (eligible settings providers request) <;> rfl

theorem select_automatic (hbudget : settings.maxModelCallsPerRequest ≠ 0)
    (hselection : request.selection = .automatic) :
    select settings providers models request =
      (lastBy (routeScore settings.routingPreset)
        (models.filter (eligible settings providers request))).elim (.error .noEligibleModel)
        fun model => .ok ⟨model.providerId, model.id, "automatic_deterministic_route"⟩ := by
  unfold select
  rw [if_neg hbudget, hselection]
  dsimp only
  cases lastBy (routeScore settings.routingPreset)
    (models.filter (eligible settings providers request)) <;> rfl

/-- Where identifiers are distinct, the search for one of them finds the model that carries it. -/
theorem find?_id_eq_some_iff (hids : (models.map AiModel.id).Nodup) (modelId : ModelId)
    (model : AiModel) :
    (models.find? fun model => model.id == modelId) = some model ↔
      model ∈ models ∧ model.id = modelId := by
  constructor
  · intro h
    exact ⟨List.mem_of_find?_eq_some h, by simpa using List.find?_some h⟩
  · rintro ⟨hmem, hid⟩
    cases hfind : models.find? fun model => model.id == modelId with
    | none => exact absurd hid (by simpa using List.find?_eq_none.mp hfind model hmem)
    | some found =>
        have hfound : found.id = modelId := by simpa using List.find?_some hfind
        have heq := List.inj_on_of_nodup_map hids (List.mem_of_find?_eq_some hfind) hmem
          (hfound.trans hid.symm)
        rw [heq]

/-- A manual selection reads the named model only. -/
theorem find?_id_congr {others : List AiModel} (hids : (models.map AiModel.id).Nodup)
    (hothers : (others.map AiModel.id).Nodup) {modelId : ModelId}
    (hsame : ∀ model : AiModel, model.id = modelId → (model ∈ others ↔ model ∈ models)) :
    (others.find? fun model => model.id == modelId) =
      models.find? fun model => model.id == modelId := by
  apply Option.ext
  intro model
  rw [find?_id_eq_some_iff hothers, find?_id_eq_some_iff hids]
  constructor
  · rintro ⟨hmem, hid⟩
    exact ⟨(hsame model hid).mp hmem, hid⟩
  · rintro ⟨hmem, hid⟩
    exact ⟨(hsame model hid).mpr hmem, hid⟩

/-- The outcome names an eligible model of the list, and a call is within the budget. -/
structure Routes (settings : ApplicationSettings) (providers : List Provider)
    (models : List AiModel) (request : RouteRequest) (selected : SelectedModel) (model : AiModel) :
    Prop where
  listed : model ∈ models
  model_id : selected.modelId = model.id
  provider_id : selected.providerId = model.providerId
  eligible : Eligible settings providers request model

theorem routes_of_manual {modelId : ModelId} {selected : SelectedModel}
    (hbudget : settings.maxModelCallsPerRequest ≠ 0)
    (hselection : request.selection = .model modelId)
    (h : select settings providers models request = .ok selected) :
    selected.modelId = modelId ∧
      ∃ model, Routes settings providers models request selected model := by
  rw [select_manual hbudget hselection] at h
  cases hfound : (models.find? fun model => model.id == modelId).filter
      (eligible settings providers request) with
  | none =>
      rw [hfound] at h
      cases h
  | some model =>
      rw [hfound] at h
      cases h
      obtain ⟨hfind, heligible⟩ := Option.filter_eq_some_iff.mp hfound
      have hid : model.id = modelId := by simpa using List.find?_some hfind
      exact ⟨hid, model, List.mem_of_find?_eq_some hfind, rfl, rfl,
        (eligible_iff model).mp heligible⟩

theorem routes_of_automatic {selected : SelectedModel}
    (hbudget : settings.maxModelCallsPerRequest ≠ 0)
    (hselection : request.selection = .automatic)
    (h : select settings providers models request = .ok selected) :
    ∃ model, Routes settings providers models request selected model ∧
      ∀ other ∈ models, Eligible settings providers request other →
        routeScore settings.routingPreset other ≤ routeScore settings.routingPreset model := by
  rw [select_automatic hbudget hselection] at h
  cases hlast : lastBy (routeScore settings.routingPreset)
      (models.filter (eligible settings providers request)) with
  | none =>
      rw [hlast] at h
      cases h
  | some model =>
      rw [hlast] at h
      cases h
      obtain ⟨hmem, hmax⟩ := lastBy_spec hlast
      obtain ⟨hlisted, heligible⟩ := List.mem_filter.mp hmem
      refine ⟨model, ⟨hlisted, rfl, rfl, (eligible_iff model).mp heligible⟩, ?_⟩
      intro other hother hother_eligible
      apply hmax
      exact List.mem_filter.mpr ⟨hother, (eligible_iff other).mpr hother_eligible⟩

theorem automatic_fails_iff (hbudget : settings.maxModelCallsPerRequest ≠ 0)
    (hselection : request.selection = .automatic) :
    select settings providers models request = .error .noEligibleModel ↔
      ∀ model ∈ models, ¬ Eligible settings providers request model := by
  rw [select_automatic hbudget hselection]
  cases hlast : lastBy (routeScore settings.routingPreset)
      (models.filter (eligible settings providers request)) with
  | none =>
      have hempty := (lastBy_eq_none_iff _ _).mp hlast
      simp only [Option.elim_none, true_iff]
      intro model hmodel heligible
      exact List.filter_eq_nil_iff.mp hempty model hmodel ((eligible_iff model).mpr heligible)
  | some model =>
      obtain ⟨hlisted, heligible⟩ := List.mem_filter.mp (lastBy_spec hlast).1
      simp only [Option.elim_some, reduceCtorEq, false_iff, not_forall, not_not]
      exact ⟨model, hlisted, (eligible_iff model).mp heligible⟩

end

/-- Every outcome of the router. A route is eligible and within the budget; a manual selection
returns the named model or fails, and reads no other model; an automatic route within the budget
fails only if no model is eligible, and otherwise takes one of maximal score. -/
theorem select_characterized (settings : ApplicationSettings) (providers : List Provider)
    (models : List AiModel) (request : RouteRequest) (hids : (models.map AiModel.id).Nodup) :
    (∀ selected, select settings providers models request = .ok selected →
      settings.maxModelCallsPerRequest ≠ 0 ∧
        ∃ model, Routes settings providers models request selected model) ∧
    (∀ modelId, request.selection = .model modelId →
      (∀ selected, select settings providers models request = .ok selected →
        selected.modelId = modelId) ∧
      ∀ others : List AiModel, (others.map AiModel.id).Nodup →
        (∀ model : AiModel, model.id = modelId → (model ∈ others ↔ model ∈ models)) →
        select settings providers others request = select settings providers models request) ∧
    (settings.maxModelCallsPerRequest = 0 →
      select settings providers models request = .error .aiDisabled) ∧
    (request.selection = .automatic → settings.maxModelCallsPerRequest ≠ 0 →
      (select settings providers models request = .error .noEligibleModel ↔
        ∀ model ∈ models, ¬ Eligible settings providers request model) ∧
      ((∃ model ∈ models, Eligible settings providers request model) →
        ∃ selected model, select settings providers models request = .ok selected ∧
          Routes settings providers models request selected model ∧
          ∀ other ∈ models, Eligible settings providers request other →
            routeScore settings.routingPreset other ≤
              routeScore settings.routingPreset model)) := by
  refine ⟨?_, ?_, select_of_no_budget, ?_⟩
  -- Whatever is selected is a route within the budget.
  · intro selected h
    by_cases hbudget : settings.maxModelCallsPerRequest = 0
    · rw [select_of_no_budget hbudget] at h
      cases h
    · refine ⟨hbudget, ?_⟩
      cases hselection : request.selection with
      | automatic =>
          obtain ⟨model, hroutes, -⟩ := routes_of_automatic hbudget hselection h
          exact ⟨model, hroutes⟩
      | model modelId => exact (routes_of_manual hbudget hselection h).2
  -- A model that the user names does not depend on the others.
  · intro modelId hselection
    by_cases hbudget : settings.maxModelCallsPerRequest = 0
    · simp [select_of_no_budget hbudget]
    · refine ⟨fun selected h => (routes_of_manual hbudget hselection h).1, ?_⟩
      intro others hothers hsame
      rw [select_manual hbudget hselection, select_manual hbudget hselection,
        find?_id_congr hids hothers hsame]
  -- The automatic choice fails without candidates only, and otherwise takes the best.
  · intro hselection hbudget
    have hfails : select settings providers models request = .error .noEligibleModel ↔ _ :=
      automatic_fails_iff hbudget hselection
    refine ⟨hfails, ?_⟩
    rintro ⟨model, hmodel, heligible⟩
    cases hselect : select settings providers models request with
    | ok selected =>
        obtain ⟨best, hroutes, hmax⟩ := routes_of_automatic hbudget hselection hselect
        exact ⟨selected, best, rfl, hroutes, hmax⟩
    | error e =>
        -- Within the budget the automatic route has one error only.
        have he : e = .noEligibleModel := by
          rw [select_automatic hbudget hselection] at hselect
          cases hlast : lastBy (routeScore settings.routingPreset)
              (models.filter (eligible settings providers request)) with
          | none =>
              rw [hlast] at hselect
              exact (Except.error.inj hselect).symm
          | some best =>
              rw [hlast] at hselect
              cases hselect
        rw [he] at hselect
        exact absurd heligible (hfails.mp hselect model hmodel)

/-- A provider on this machine; `localModel` is its model for conversations. -/
def localProvider : Provider where
  id := ⟨"provider_local", by decide⟩
  kind := .ollama
  name := "local"
  baseUrl := "http://127.0.0.1:11434"
  enabled := true
  privacy := .local
  configured := true
  credentialId := none
  status := .configured
  createdAtMs := 1
  updatedAtMs := 1

/-- A model of this computer. -/
def localModel : AiModel where
  id := ⟨"model_local", by decide⟩
  providerId := localProvider.id
  displayName := "model"
  providerModelId := "model"
  enabled := true
  contextLimit := some 8192
  privacy := .local
  priority := 0
  taskEligibility := [.conversation]
  isDefault := true

theorem select_characterized_local :
    (([localModel].map AiModel.id).Nodup) ∧
      (⟨.conversation, .automatic, false⟩ : RouteRequest).selection = .automatic ∧
      ∃ selected model, select .default [localProvider] [localModel]
          ⟨.conversation, .automatic, false⟩ = .ok selected ∧
        Routes .default [localProvider] [localModel] ⟨.conversation, .automatic, false⟩ selected
          model := by
  have hids : ([localModel].map AiModel.id).Nodup := by simp
  have hroute := (select_characterized .default [localProvider] [localModel]
    ⟨.conversation, .automatic, false⟩ hids).2.2.2 rfl (by decide)
  have heligible :
      Eligible .default [localProvider] ⟨.conversation, .automatic, false⟩ localModel :=
    (eligible_iff localModel).mp (by decide)
  obtain ⟨selected, model, hselect, hroutes, -⟩ := hroute.2 ⟨localModel, by simp, heligible⟩
  exact ⟨hids, rfl, selected, model, hselect, hroutes⟩

/-- With no model call in the budget the automatic route fails, but not for the lack of an
eligible model. -/
theorem route_without_budget :
    ¬ (select { ApplicationSettings.default with maxModelCallsPerRequest := 0 } [] []
          ⟨.conversation, .automatic, false⟩ = .error .noEligibleModel ↔
        ∀ model ∈ ([] : List AiModel), ¬ Eligible
          { ApplicationSettings.default with maxModelCallsPerRequest := 0 } []
          ⟨.conversation, .automatic, false⟩ model) := by
  intro h
  have hfails := h.mpr (by simp)
  rw [select_of_no_budget rfl] at hfails
  cases hfails

end Halquen.Ai.Router
