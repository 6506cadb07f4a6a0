import Halquen.Ai.Router
import Halquen.Library.Ranking

/-!
# Preference for local models

Two routing presets prefer local models: a model on this machine gets a bonus of 1000 on top of its
priority and of 100 for the default of its provider. Priorities range from -1000 to 1000, so the
bonus does not decide between any two models. `prefers_local_iff` says exactly when no cloud model
is chosen although a local one could answer; `cloud_before_local` is a pair of models for which the
preference fails.
-/

set_option autoImplicit false

namespace Halquen.Ai.Preference

open Halquen.Domain.Ids Halquen.Domain.Gateway Halquen.Protocol.Messages
open Halquen.Ai.Router Halquen.Library.Sql Halquen.Library.Listing Halquen.Library.Ranking

/-- Weight of a model apart from where it runs. -/
def weight (model : AiModel) : Int :=
  (if model.isDefault then 100 else 0) + model.priority.toInt

/-- Every eligible cloud model weighs less than some eligible local model with its bonus, or as
much as one that is listed after it. -/
def CloudOutweighed (settings : ApplicationSettings) (providers : List Provider)
    (models : List AiModel) (request : RouteRequest) : Prop :=
  ∀ before cloud after, models = before ++ cloud :: after →
    Eligible settings providers request cloud → cloud.privacy = .cloud →
    ∃ model, Eligible settings providers request model ∧ model.privacy = .local ∧
      (model ∈ models ∧ weight cloud < 1000 + weight model ∨
        model ∈ after ∧ weight cloud = 1000 + weight model)

section Scores

variable {settings : ApplicationSettings}
  (hpreset : settings.routingPreset = .preferLocal ∨ settings.routingPreset = .minimizeAiUsage)

include hpreset

theorem routeScore_local {model : AiModel} (h : model.privacy = .local) :
    routeScore settings.routingPreset model = 1000 + weight model := by
  rcases hpreset with hp | hp <;> rw [hp] <;> simp [routeScore, weight, h] <;> omega

theorem routeScore_cloud {model : AiModel} (h : model.privacy = .cloud) :
    routeScore settings.routingPreset model = weight model := by
  rcases hpreset with hp | hp <;> rw [hp] <;> simp [routeScore, weight, h]

end Scores

section Routes

variable {settings : ApplicationSettings} {providers : List Provider} {models : List AiModel}
  {request : RouteRequest}

/-- The automatic route takes the last one of the best eligible models of the list. -/
theorem select_split {selected : SelectedModel} (hselection : request.selection = .automatic)
    (h : select settings providers models request = .ok selected) :
    ∃ before model after, models = before ++ model :: after ∧ selected.modelId = model.id ∧
      Eligible settings providers request model ∧
      (∀ other ∈ models, Eligible settings providers request other →
        routeScore settings.routingPreset other ≤ routeScore settings.routingPreset model) ∧
      ∀ other ∈ after, Eligible settings providers request other →
        routeScore settings.routingPreset other < routeScore settings.routingPreset model := by
  -- Without a budget nothing is selected.
  by_cases hbudget : settings.maxModelCallsPerRequest = 0
  · rw [select_of_no_budget hbudget] at h
    cases h
  rw [select_automatic hbudget hselection] at h
  cases hlast : lastBy (routeScore settings.routingPreset)
      (models.filter (eligible settings providers request)) with
  | none =>
      rw [hlast] at h
      cases h
  | some model =>
      rw [hlast] at h
      cases h
      obtain ⟨hmem, hmax⟩ := lastBy_spec hlast
      obtain ⟨front, back, hsplit, -, hback⟩ := lastBy_split hlast
      -- The split of the candidates comes from one of the list.
      obtain ⟨before, rest, hmodels, -, hrest⟩ := List.filter_eq_append_iff.mp hsplit
      obtain ⟨skipped, after, hrestSplit, -, -, hafter⟩ := List.filter_eq_cons_iff.mp hrest
      refine ⟨before ++ skipped, model, after, ?_, rfl, ?_, ?_, ?_⟩
      · rw [hmodels, hrestSplit, List.append_assoc]
      · exact (eligible_iff model).mp (List.mem_filter.mp hmem).2
      · intro other hother hothers
        apply hmax
        exact List.mem_filter.mpr ⟨hother, (eligible_iff other).mpr hothers⟩
      · intro other hother hothers
        apply hback
        rw [← hafter]
        exact List.mem_filter.mpr ⟨hother, (eligible_iff other).mpr hothers⟩

end Routes

/-- The router chooses no cloud model. -/
def NeverCloud (settings : ApplicationSettings) (providers : List Provider)
    (models : List AiModel) (request : RouteRequest) : Prop :=
  ∀ selected, select settings providers models request = .ok selected →
    ∀ model ∈ models, model.id = selected.modelId → model.privacy ≠ .cloud

/-- An eligible model belongs to a local provider. -/
def LocalCandidate (settings : ApplicationSettings) (providers : List Provider)
    (request : RouteRequest) (model : AiModel) : Prop :=
  Eligible settings providers request model ∧
    ∃ provider ∈ providers, Serves settings request model provider ∧ provider.privacy = .local

theorem LocalCandidate.privacy {settings : ApplicationSettings} {providers : List Provider}
    {request : RouteRequest} {model : AiModel}
    (h : LocalCandidate settings providers request model) : model.privacy = .local := by
  obtain ⟨-, provider, -, hserves, hlocal⟩ := h
  exact hserves.privacy.symm.trans hlocal

/-- Where a local model could answer, the presets that prefer local models choose no cloud model
exactly when no call is in the budget or every eligible cloud model is outweighed. -/
theorem prefers_local_iff (settings : ApplicationSettings) (providers : List Provider)
    (models : List AiModel) (request : RouteRequest)
    (hpreset : settings.routingPreset = .preferLocal ∨ settings.routingPreset = .minimizeAiUsage)
    (hselection : request.selection = .automatic) (hids : (models.map AiModel.id).Nodup)
    (hlocal : ∃ model ∈ models, LocalCandidate settings providers request model) :
    NeverCloud settings providers models request ↔
      settings.maxModelCallsPerRequest = 0 ∨
        CloudOutweighed settings providers models request := by
  by_cases hbudget : settings.maxModelCallsPerRequest = 0
  · simp [NeverCloud, hbudget, select_of_no_budget]
  obtain ⟨found, hfound, hcandidate⟩ := hlocal
  obtain ⟨selected, -, hselect, -⟩ :=
    ((select_characterized settings providers models request hids).2.2.2 hselection hbudget).2
      ⟨found, hfound, hcandidate.1⟩
  obtain ⟨before, best, after, hsplit, hid, heligible, hmax, hafter⟩ :=
    select_split hselection hselect
  have hbest : best ∈ models := by simp [hsplit]
  constructor
  -- The best candidate is local, and by its place it outweighs every cloud model.
  · intro hnever
    right
    have hbestLocal : best.privacy = .local := by
      have hne := hnever selected hselect best hbest hid.symm
      cases hprivacy : best.privacy with
      | «local» => rfl
      | cloud => exact absurd hprivacy hne
    intro front cloud back hmodels hcloudEligible hcloud
    refine ⟨best, heligible, hbestLocal, ?_⟩
    have hcloudMem : cloud ∈ models := by simp [hmodels]
    have hle := hmax cloud hcloudMem hcloudEligible
    rw [routeScore_cloud hpreset hcloud, routeScore_local hpreset hbestLocal] at hle
    -- A tie is won by the later model, and the best one won.
    rcases lt_or_eq_of_le hle with hlt | heq
    · exact .inl ⟨hbest, hlt⟩
    · right
      refine ⟨?_, heq⟩
      have hnot : cloud ∉ after := by
        intro hmem
        have hlt := hafter cloud hmem hcloudEligible
        rw [routeScore_cloud hpreset hcloud, routeScore_local hpreset hbestLocal] at hlt
        omega
      have hne : cloud ≠ best := by
        rintro rfl
        rw [hcloud] at hbestLocal
        cases hbestLocal
      exact mem_after_of_split (hsplit.symm.trans hmodels) hne hnot
  · rintro (hzero | houtweighed)
    · exact absurd hzero hbudget
    -- A cloud model that were selected would be the best one, which a local one outweighs.
    · intro selected' hselect' model hmodel hmodelId hcloud
      rw [hselect] at hselect'
      cases hselect'
      have hsame : model = best := List.inj_on_of_nodup_map hids hmodel hbest
        (hmodelId.trans hid)
      rw [hsame] at hcloud
      obtain ⟨other, hother, hlocal, hwins⟩ := houtweighed before best after hsplit heligible hcloud
      rcases hwins with ⟨hmem, hlt⟩ | ⟨hmem, heq⟩
      · have hle := hmax other hmem hother
        rw [routeScore_cloud hpreset hcloud, routeScore_local hpreset hlocal] at hle
        omega
      · have hlt := hafter other hmem hother
        rw [routeScore_cloud hpreset hcloud, routeScore_local hpreset hlocal] at hlt
        omega

/-! ## A cloud model before a local one -/

/-- A provider in the cloud; `cloudModel` is its default model, of the highest priority. -/
def cloudProvider : Provider where
  id := ⟨"provider_cloud", by decide⟩
  kind := .openAi
  name := "cloud"
  baseUrl := "https://api.example.invalid/v1"
  enabled := true
  privacy := .cloud
  configured := true
  credentialId := some "credential:cloud"
  status := .configured
  createdAtMs := 1
  updatedAtMs := 1

/-- A model in the cloud. -/
def cloudModel : AiModel where
  id := ⟨"model_cloud", by decide⟩
  providerId := cloudProvider.id
  displayName := "model"
  providerModelId := "model"
  enabled := true
  contextLimit := some 8192
  privacy := .cloud
  priority := 1000
  taskEligibility := [.conversation]
  isDefault := true

/-- The local model, not made the default of its provider. -/
def plainLocalModel : AiModel := { localModel with isDefault := false }

/-- Settings that prefer local models and permit the cloud. -/
def preferLocalSettings : ApplicationSettings :=
  { ApplicationSettings.default with allowCloudAi := true, routingPreset := .preferLocal }

/-- A request that any model may answer. -/
def conversation : RouteRequest := ⟨.conversation, .automatic, false⟩

theorem localCandidate_plainLocalModel :
    LocalCandidate preferLocalSettings [localProvider, cloudProvider] conversation
      plainLocalModel := by
  have heligible : Eligible preferLocalSettings [localProvider, cloudProvider] conversation
      plainLocalModel := (eligible_iff plainLocalModel).mp (by decide)
  obtain ⟨provider, hprovider, hserves⟩ := heligible.served
  exact ⟨heligible, provider, hprovider, hserves, hserves.privacy⟩

theorem prefers_local_plain :
    NeverCloud preferLocalSettings [localProvider, cloudProvider] [plainLocalModel, cloudModel]
        conversation ↔
      preferLocalSettings.maxModelCallsPerRequest = 0 ∨
        CloudOutweighed preferLocalSettings [localProvider, cloudProvider]
          [plainLocalModel, cloudModel] conversation :=
  prefers_local_iff preferLocalSettings [localProvider, cloudProvider]
    [plainLocalModel, cloudModel] conversation (.inl rfl) rfl (by decide)
    ⟨plainLocalModel, by simp, localCandidate_plainLocalModel⟩

/-- The default cloud model of priority 1000 is chosen before a local model of priority 0. -/
theorem cloud_before_local :
    ¬ ∀ (settings : ApplicationSettings) (providers : List Provider) (models : List AiModel)
      (request : RouteRequest), settings.validate = .ok () →
      settings.routingPreset = .preferLocal ∨ settings.routingPreset = .minimizeAiUsage →
      request.selection = .automatic → (models.map AiModel.id).Nodup →
      (∀ model ∈ models, -1000 ≤ model.priority.toInt ∧ model.priority.toInt ≤ 1000) →
      (∃ model ∈ models, LocalCandidate settings providers request model) →
      NeverCloud settings providers models request := by
  intro h
  have hnever := h preferLocalSettings [localProvider, cloudProvider]
    [plainLocalModel, cloudModel] conversation (by decide) (.inl rfl) rfl (by decide)
    (by decide) ⟨plainLocalModel, by simp, localCandidate_plainLocalModel⟩
  have hselect : select preferLocalSettings [localProvider, cloudProvider]
      [plainLocalModel, cloudModel] conversation =
        .ok ⟨cloudModel.providerId, cloudModel.id, "automatic_deterministic_route"⟩ := by
    decide
  exact hnever _ hselect cloudModel (by simp) rfl rfl

end Halquen.Ai.Preference
