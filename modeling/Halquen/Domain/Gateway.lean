import Halquen.Domain.Security

/-!
# Providers, models and cached responses

The records of the AI gateway: the settings that bound it, providers and their models, and the
entries of the response cache.
-/

set_option autoImplicit false

namespace Halquen.Domain.Gateway

open Halquen.Library.Rules Halquen.Domain.Ids Halquen.Domain.Capability Halquen.Domain.Security

/-! ## Settings -/

/-- What the user wants of the automatic choice of a model. -/
inductive RoutingPreset where
  | balanced | minimizeAiUsage | minimizeCost | preferLocal | preferQuality | custom
  deriving DecidableEq, Repr

/-- The settings that the user can change, as they are stored in one row. -/
structure ApplicationSettings where
  language : String
  allowCloudAi : Bool
  allowLocalAi : Bool
  allowPersonalContext : Bool
  routingPreset : RoutingPreset
  maxModelCallsPerRequest : UInt8
  maxContextTokens : UInt32
  maxOutputTokens : UInt32
  preferCachedLocal : Bool
  personalInstructions : String
  conversationRetentionDays : UInt16
  episodicRetentionDays : UInt16
  logRetentionDays : UInt16
  logMaxTotalMb : UInt16
  deriving DecidableEq

/-- Settings of a new database: cloud models and personal context are off. -/
def ApplicationSettings.default : ApplicationSettings where
  language := "system"
  allowCloudAi := false
  allowLocalAi := true
  allowPersonalContext := false
  routingPreset := .balanced
  maxModelCallsPerRequest := 1
  maxContextTokens := 8192
  maxOutputTokens := 2048
  preferCachedLocal := true
  personalInstructions := ""
  conversationRetentionDays := 90
  episodicRetentionDays := 30
  logRetentionDays := 7
  logMaxTotalMb := 32

/-- The field of the settings that a check refuses. -/
inductive SettingsValidationError where
  | invalidLanguage | personalInstructionsTooLong | invalidModelCallBudget | invalidContextBudget
  | invalidOutputBudget | invalidRetention | invalidLogLimit
  deriving DecidableEq, Repr

/-- The checks of the settings, in their order: the first that fails is reported. -/
def ApplicationSettings.validate (settings : ApplicationSettings) :
    Except SettingsValidationError Unit :=
  firstFailure
    [ rule (isBlank settings.language || decide (32 < settings.language.utf8ByteSize))
        .invalidLanguage,
      rule (decide (8000 < settings.personalInstructions.utf8ByteSize))
        .personalInstructionsTooLong,
      rule (decide (3 < settings.maxModelCallsPerRequest)) .invalidModelCallBudget,
      rule (!decide (256 ≤ settings.maxContextTokens ∧ settings.maxContextTokens ≤ 131072))
        .invalidContextBudget,
      rule (!decide (64 ≤ settings.maxOutputTokens ∧ settings.maxOutputTokens ≤ 16384))
        .invalidOutputBudget,
      rule (!decide (1 ≤ settings.conversationRetentionDays
            ∧ settings.conversationRetentionDays ≤ 3650)
          || !decide (1 ≤ settings.episodicRetentionDays ∧ settings.episodicRetentionDays ≤ 3650)
          || !decide (1 ≤ settings.logRetentionDays ∧ settings.logRetentionDays ≤ 365))
        .invalidRetention,
      rule (!decide (1 ≤ settings.logMaxTotalMb ∧ settings.logMaxTotalMb ≤ 1024))
        .invalidLogLimit ]

theorem ApplicationSettings.validate_default : default.validate = .ok () := by decide

/-! ## Providers and models -/

/-- Kinds of providers, which decide how a provider is spoken to. -/
inductive ProviderKind where
  | openAiCompatible | openAi | ollama | lmStudio | anthropic | gemini
  deriving DecidableEq, Repr

/-- Whether what is sent to a provider or model leaves the computer. -/
inductive PrivacyClass where
  | «local» | cloud
  deriving DecidableEq, Repr

/-- What the last attempt to reach a provider has shown. -/
inductive ProviderStatus where
  | configured | connected | unavailable | authenticationFailed | rateLimited
  | endpointUnreachable | unsupported
  deriving DecidableEq, Repr

/-- A configured provider of models. Its API key is kept elsewhere. -/
structure Provider where
  id : ProviderId
  kind : ProviderKind
  name : String
  baseUrl : String
  enabled : Bool
  privacy : PrivacyClass
  configured : Bool
  credentialId : Option String
  status : ProviderStatus
  createdAtMs : Int
  updatedAtMs : Int
  deriving DecidableEq

/-- What a model is asked for. -/
inductive AiTaskType where
  | conversation | memoryInterpretation | consolidation
  deriving DecidableEq, Repr

/-- A model of a provider, with what routing needs to know of it. -/
structure AiModel where
  id : ModelId
  providerId : ProviderId
  displayName : String
  providerModelId : String
  enabled : Bool
  contextLimit : Option UInt32
  privacy : PrivacyClass
  priority : Int16
  taskEligibility : List AiTaskType
  isDefault : Bool
  deriving DecidableEq

/-! ## Response cache -/

/-- A stored response that may answer the same request again. -/
structure CachedResponse where
  id : CacheEntryId
  normalizedRequest : String
  response : String
  contextKey : String
  confidencePermille : UInt16
  priorityPermille : UInt16
  trust : TrustClass
  validUntilMs : Option Int
  reusable : Bool
  createdAtMs : Int
  lastUsedAtMs : Option Int
  usageCount : UInt64
  successCount : UInt64
  correctionCount : UInt64
  originalProviderId : Option ProviderId
  originalModelId : Option ModelId
  estimatedTokensAvoided : UInt64
  deriving DecidableEq

/-- What the user says of a stored response. -/
inductive ResponseFeedback where
  | useful | wrong | doNotRemember | alwaysUse | prefer
  deriving DecidableEq, Repr

/-! ## Context of a provider call -/

/-- Why an item is part of the context of a model call. -/
inductive ContextCategory where
  | currentRequest | personalPreference | relevantMemory | recentConversation | externalUntrusted
  deriving DecidableEq, Repr

end Halquen.Domain.Gateway
