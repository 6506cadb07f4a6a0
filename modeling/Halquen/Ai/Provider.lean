import Halquen.Domain.Gateway
import Halquen.Library.Listing

/-!
# Provider adapters

What is checked of a provider before anything is sent to it: that its kind has an adapter, and that
its base URL leads to a permitted endpoint. URLs are parsed and joined by a library that is a
parameter.
-/

set_option autoImplicit false

namespace Halquen.Ai.Provider

open Halquen.Domain.Gateway Halquen.Library.Listing

/-- Why a call of a provider fails. -/
inductive AiError where
  | disabled | noEligibleRoute | unsupportedProvider | invalidEndpoint | credentialUnavailable
  | authenticationFailed | rateLimited | endpointUnavailable | invalidResponse | responseTooLarge
  | requestFailed
  deriving DecidableEq, Repr

/-! ## Endpoints -/

/-- A parsed URL. -/
structure Url where
  scheme : String
  username : String
  password : Option String
  hostStr : Option String
  port : Option UInt16
  path : String
  query : Option String
  fragment : Option String
  deriving DecidableEq

/-- The operations of the URL library that the adapter uses. -/
structure UrlLibrary where
  parse : String → Option Url
  setPath : Url → String → Url
  join : Url → String → Option Url

/-- `ensure_supported`: the providers that speak the one wire format that is implemented. -/
def ensureSupported (kind : ProviderKind) : Except AiError Unit :=
  match kind with
  | .openAiCompatible | .openAi | .ollama | .lmStudio => .ok ()
  | _ => .error .unsupportedProvider

/-- `is_loopback`: the host is one of three spellings of this computer. -/
def isLoopback (url : Url) : Bool :=
  url.hostStr == some "localhost" || url.hostStr == some "127.0.0.1" || url.hostStr == some "::1"

/-- `endpoint`: the base URL must be bare and encrypted, or local and in plain HTTP; the suffix is
joined to it as to a directory. -/
def endpoint (urls : UrlLibrary) (provider : Domain.Gateway.Provider) (suffix : String) :
    Except AiError Url := do
  let base ← orError .invalidEndpoint (urls.parse provider.baseUrl)
  rejectIf (base.username != "" || base.password.isSome || base.query.isSome
    || base.fragment.isSome) .invalidEndpoint
  rejectIf (!(base.scheme == "https"
    || (base.scheme == "http" && provider.privacy == .local && isLoopback base))) .invalidEndpoint
  let directory :=
    if base.path.toList.getLast? == some '/' then base else urls.setPath base (base.path ++ "/")
  orError .invalidEndpoint (urls.join directory suffix)

/-- `validate_provider`: what a provider must satisfy before it is called. -/
def validateProvider (urls : UrlLibrary) (provider : Domain.Gateway.Provider) :
    Except AiError Unit := do
  ensureSupported provider.kind
  let _ ← endpoint urls provider "models"
  return ()

end Halquen.Ai.Provider
