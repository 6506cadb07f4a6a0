import Halquen.Ai.Provider
import Halquen.Ai.Secret
import Halquen.Library.Custody
import Halquen.Library.History
import Halquen.Service.State
import Halquen.Storage.Providers

/-!
# Providers and their secrets

A provider has a row in a table and, if it needs one, a key in the secret store of the operating
system. The two have no common transaction: a request changes the store first, then the table, and
writes back what it found in the store if the table refuses. A request that fails leaves both as
they were (`handle_cases`), and the store has a key exactly under the references of the rows
(`stores_consistent`).
-/

set_option autoImplicit false

namespace Halquen.Service.Providers

open Halquen.Domain.Ids Halquen.Domain.Gateway Halquen.Ai.Provider Halquen.Ai.Secret
open Halquen.Library.Action Halquen.Library.Action.Act Halquen.Library.Custody
open Halquen.Library.History Halquen.Library.Run Halquen.Library.Sql
open Halquen.Service.State
open Halquen.Storage.Providers
open Halquen.Storage.Grants (StorageError)

/-! ## Requests -/

/-- The table of providers, and the secret store. -/
structure Stores where
  rows : List ProviderRow
  secrets : Secrets

/-- The stores of a new installation. -/
def Stores.fresh : Stores := ⟨[], fun _ => none⟩

/-- What goes wrong around a request: the database refuses the lookup or the statement, and the
secret store has an outage when the old secret is retrieved, when the store is changed, or when the
change is taken back. -/
structure Faults where
  lookupRefused : Bool
  statementRefused : Bool
  retrieval : Option Outage
  change : Option Outage
  restore : Option Outage

/-- A request during which nothing fails. -/
def Faults.none : Faults := ⟨false, false, .none, .none, .none⟩

/-- A provider as a client asks for it. What is absent of the key leaves the stored key alone. -/
structure ProviderUpsert where
  id : Option ProviderId
  kind : ProviderKind
  name : String
  baseUrl : String
  enabled : Bool
  privacy : PrivacyClass
  apiKey : Option String
  clearApiKey : Bool

/-- A request, with the identifier it may generate, its time, and the reply of the provider. -/
inductive Request where
  | upsertProvider (input : ProviderUpsert) (generated : ProviderId) (nowMs : Int)
  | removeProvider (providerId : ProviderId)
  | testProvider (providerId : ProviderId)
      (client : Provider → Option String → Except AiError String) (nowMs : Int)

/-- What a test of a provider has shown. -/
structure ProviderTestStatus where
  providerId : ProviderId
  status : ProviderStatus
  message : String

/-- What the service answers to a request about providers. -/
inductive Reply where
  | providerSaved (provider : Provider)
  | providerRemoved (removed : Bool)
  | providerTest (result : ProviderTestStatus)

/-- A request with what fails during it. -/
structure Input where
  request : Request
  faults : Faults

/-! ## The secret store -/

/-- `secret_store_error`. -/
def secretStoreError : Failure :=
  failure .secretStoreUnavailable
    "OS credential storage is unavailable; the secret was not stored"

/-- An operation of the secret store. -/
def secretly {α : Type} (m : Act Secrets SecretError α) : Act Stores SecretError α :=
  within Stores.secrets (fun s secrets => { s with secrets }) m

/-- `capture_secret`: the secret before a change, so that it can be put back. -/
def captureSecret (outage : Option Outage) (credentialId : String) :
    Act Stores Failure (Option String) := do
  match ← attempt (secretly (retrieve outage credentialId)) with
  | .ok secret => return some secret
  | .error .notFound => return none
  | .error _ => throw secretStoreError

/-- A secret is stored, or the request fails. -/
def storeSecret (outage : Option Outage) (credentialId secret : String) : Act Stores Failure Unit :=
  mapError (fun _ => secretStoreError) (secretly (store outage credentialId secret))

/-- Deletes a secret, if there is one. -/
def deleteSecret (outage : Option Outage) (credentialId : String) : Act Stores Failure Unit := do
  match ← attempt (secretly (delete outage credentialId)) with
  | .ok () | .error .notFound => return ()
  | .error _ => throw secretStoreError

/-- `restore_secret`: the secret is put back as it was, or deleted if there was none. -/
def restoreSecret (outage : Option Outage) (credentialId : String) :
    Option String → Act Stores Failure Unit
  | some secret => storeSecret outage credentialId secret
  | none => deleteSecret outage credentialId

/-! ## Handlers -/

/-- A credential that is empty, over 8192 bytes long, or has a NUL. -/
def unacceptableKey (value : String) : Bool :=
  value == "" || decide (8192 < value.utf8ByteSize) || value.toList.contains (Char.ofNat 0)

/-- The reference under which a provider's key is kept. -/
def reference (id : String) : String := "provider:" ++ id

section

variable (input : ProviderUpsert) (id : ProviderId) (previous : Option Provider)

/-- The reference that the stored provider has. -/
def previousCredentialId : Option String := previous.bind Provider.credentialId

/-- A new key is stored under the old reference, if there is one. -/
def replacementReference : String := (previousCredentialId previous).getD (reference id.asStr)

/-- The reference that the provider will have. -/
def ProviderUpsert.credentialId : Option String :=
  if input.apiKey.isSome then some (replacementReference id previous)
  else if input.clearApiKey then none
  else previousCredentialId previous

/-- The reference whose secret a request changes. -/
def ProviderUpsert.mutationReference : Option String :=
  if input.apiKey.isSome then some (replacementReference id previous)
  else if input.clearApiKey then previousCredentialId previous
  else none

/-- The provider that a request asks for. -/
def ProviderUpsert.intoProvider (nowMs : Int) : Provider where
  id := id
  kind := input.kind
  name := input.name
  baseUrl := input.baseUrl
  enabled := input.enabled
  privacy := input.privacy
  configured := configured (input.credentialId id previous) input.privacy
  credentialId := input.credentialId id previous
  status := .configured
  createdAtMs := previous.elim nowMs Provider.createdAtMs
  updatedAtMs := nowMs

end

/-- A provider whose kind has no adapter is saved as such. -/
def admitProvider (urls : UrlLibrary) (provider : Provider) : Except Failure Provider :=
  match validateProvider urls provider with
  | .ok () => .ok provider
  | .error .unsupportedProvider => .ok { provider with status := .unsupported }
  | .error _ => .error (validation "provider endpoint is not permitted")

/-- `sanitized_ai_error`: nothing of the cause is told. -/
def sanitizedAiError : AiError → String
  | .disabled => "AI is disabled by settings."
  | .noEligibleRoute => "No eligible provider/model route is configured."
  | .unsupportedProvider => "This provider adapter is not implemented yet."
  | .invalidEndpoint => "The provider endpoint is invalid."
  | .credentialUnavailable => "The provider credential is unavailable."
  | .authenticationFailed => "Provider authentication failed."
  | .rateLimited => "The provider rate limit was reached."
  | .endpointUnavailable => "The provider endpoint is unreachable."
  | .invalidResponse => "The provider returned an invalid response."
  | .responseTooLarge => "The provider response exceeded the safe size limit."
  | .requestFailed => "The provider request failed."

/-- `provider_status_for_error`. -/
def providerStatusForError : AiError → ProviderStatus
  | .authenticationFailed | .credentialUnavailable => .authenticationFailed
  | .rateLimited => .rateLimited
  | .unsupportedProvider => .unsupported
  | .endpointUnavailable | .invalidEndpoint => .endpointUnreachable
  | _ => .unavailable

section

variable (faults : Faults)

/-- The stored provider of an identifier. -/
def findProvider (id : ProviderId) : Act Stores Failure (Option Provider) := do
  require (!faults.lookupRefused) internalError
  mapError (fun _ => internalError) (reads fun s => Storage.Providers.provider s.rows id)

/-- The secret under a reference, where there is a reference. -/
def captureAt : Option String → Act Stores Failure (Option String)
  | none => pure none
  | some credentialId => captureSecret faults.retrieval credentialId

/-- Stores the secret under the reference, or deletes what is there. -/
def changeAt : Option String → Option String → Act Stores Failure Unit
  | none, _ => pure ()
  | some credentialId, some secret => storeSecret faults.change credentialId secret
  | some credentialId, none => deleteSecret faults.change credentialId

/-- Puts a secret back, if a reference was touched. -/
def restoreAt (previousSecret : Option String) : Option String → Act Stores Failure Unit
  | none => pure ()
  | some credentialId => restoreSecret faults.restore credentialId previousSecret

/-- A statement. Where it fails, the secret that was there before is written back. -/
def orRestore {α : Type} (credentialId previousSecret : Option String)
    (statement : Act Stores StorageError α) : Act Stores Failure α := do
  match ← attempt statement with
  | .ok value => return value
  | .error _ =>
      restoreAt faults previousSecret credentialId
      throw internalError

/-- The row of a provider is written, or nothing is. -/
def saveRow (provider : Provider) : Act Stores StorageError Unit := do
  require (!faults.statementRefused) .database
  let rows ← reads fun s => Storage.Providers.upsertProvider s.rows provider
  modify fun s => { s with rows := rows }

/-- The deletion of the row, and whether there was one. -/
def deleteRow (providerId : ProviderId) : Act Stores StorageError Bool := do
  require (!faults.statementRefused) .database
  let outcome ← gets fun s => Storage.Providers.removeProvider s.rows providerId
  modify fun s => { s with rows := outcome.2 }
  return outcome.1

/-- `upsert_provider`: the secret is changed first and put back if the row cannot be written. -/
def upsertProvider (urls : UrlLibrary) (input : ProviderUpsert) (generated : ProviderId)
    (nowMs : Int) : Act Stores Failure Provider := do
  require (!input.apiKey.any unacceptableKey)
    (validation "provider credential is empty or too large")
  let id := input.id.getD generated
  let previous ← findProvider faults id
  let provider ← ofExcept (admitProvider urls (input.intoProvider id previous nowMs))
  let mutation := input.mutationReference id previous
  let previousSecret ← captureAt faults mutation
  changeAt faults mutation input.apiKey
  orRestore faults mutation previousSecret (saveRow faults provider)
  return provider

/-- `remove_provider`: the secret is deleted first and put back if the row stays. -/
def removeProvider (providerId : ProviderId) : Act Stores Failure Bool := do
  let provider ← findProvider faults providerId
  let credentialId := previousCredentialId provider
  let previousSecret ← captureAt faults credentialId
  changeAt faults credentialId none
  let removed ← orRestore faults credentialId previousSecret (deleteRow faults providerId)
  if !removed then
    restoreAt faults previousSecret credentialId
  return removed

/-- The key of a provider, where it has one. -/
def providerCredential (provider : Provider) : Act Stores Failure (Option String) :=
  match provider.credentialId with
  | none => pure none
  | some credentialId => do
      let secret ← mapError (fun _ => secretStoreError)
        (secretly (retrieve faults.retrieval credentialId))
      return some secret

/-- `test_provider`: the outcome is stored with the provider. -/
def testProvider (providerId : ProviderId)
    (client : Provider → Option String → Except AiError String) (nowMs : Int) :
    Act Stores Failure ProviderTestStatus := do
  let provider ← orThrow notFound (← findProvider faults providerId)
  let credential ← providerCredential faults provider
  let (status, message) := match client provider credential with
    | .ok message => (ProviderStatus.connected, message)
    | .error error => (providerStatusForError error, sanitizedAiError error)
  mapError (fun _ => internalError)
    (saveRow faults { provider with status := status, updatedAtMs := nowMs })
  return ⟨provider.id, status, message⟩

end

/-- The requests about providers. -/
def handle (urls : UrlLibrary) (input : Input) : Act Stores Failure Reply :=
  match input.request with
  | .upsertProvider provider generated nowMs => do
      return .providerSaved (← upsertProvider input.faults urls provider generated nowMs)
  | .removeProvider providerId => do
      return .providerRemoved (← removeProvider input.faults providerId)
  | .testProvider providerId client nowMs => do
      return .providerTest (← testProvider input.faults providerId client nowMs)

/-- One request. -/
def step (urls : UrlLibrary) (s : Stores) (input : Input) : Stores := (handle urls input s).2

/-! ## Operations of the secret store -/

/-- The stores with this secret, or none, under the reference. -/
def Stores.entrust (s : Stores) (credentialId secret : Option String) : Stores :=
  { s with secrets := credentialId.elim s.secrets fun c => Function.update s.secrets c secret }

/-- What was captured under a reference takes back every change there. -/
theorem entrust_captured (s : Stores) (credentialId secret : Option String) :
    (s.entrust credentialId secret).entrust credentialId (credentialId.bind s.secrets) = s := by
  cases credentialId with
  | none => rfl
  | some c => exact congrArg (Stores.mk s.rows) (update_update_self c s.secrets secret)

/-- A store performs nothing, or an update. -/
theorem storeSecret_cases (outage : Option Outage) (credentialId secret : String) (s : Stores) :
    Post (storeSecret outage credentialId secret) s
      fun r s' => Atomic s (· = s.entrust (some credentialId) (some secret)) r s' ∧
        (outage = none → ∃ u, r = .ok u) := by
  cases outage with
  | some reason => exact ⟨atomic_error _, nofun⟩
  | none => exact ⟨atomic_ok () rfl, fun _ => ⟨(), rfl⟩⟩

/-- A secret is deleted or nothing happens. -/
theorem deleteSecret_cases (outage : Option Outage) (credentialId : String) (s : Stores) :
    Post (deleteSecret outage credentialId) s
      fun r s' => Atomic s (· = s.entrust (some credentialId) none) r s' ∧
        (outage = none → ∃ u, r = .ok u) := by
  simp only [deleteSecret, secretly, delete, reach, post_bind, post_attempt, post_within]
  cases outage with
  | some reason =>
      refine ⟨?_, by simp⟩
      cases reason <;> exact atomic_error _
  | none =>
      simp only [post_pure, next_ok, post_bind, post_gets]
      cases hfound : s.secrets credentialId with
      | none =>
          -- There is nothing to delete, and the update changes nothing.
          have hsame : Function.update s.secrets credentialId none = s.secrets := by
            rw [← hfound, Function.update_eq_self]
          refine ⟨atomic_ok () ?_, fun _ => ⟨(), rfl⟩⟩
          exact (congrArg (Stores.mk s.rows) hsame).symm
      | some secret => exact ⟨atomic_ok () rfl, fun _ => ⟨(), rfl⟩⟩

/-- Looking at a secret changes nothing. -/
theorem captureSecret_cases (outage : Option Outage) (credentialId : String) (s : Stores) :
    Post (captureSecret outage credentialId) s fun r s' => s' = s ∧
      ∀ captured, r = .ok captured → captured = s.secrets credentialId := by
  simp only [captureSecret, secretly, retrieve, reach, post_bind, post_attempt, post_within]
  cases outage with
  | some reason =>
      cases reason <;>
      · refine ⟨rfl, fun captured h => ?_⟩
        cases h
  | none =>
      simp only [post_pure, next_ok, post_bind, post_gets]
      cases s.secrets credentialId with
      | none => exact ⟨rfl, fun captured h => (Except.ok.inj h).symm⟩
      | some secret => exact ⟨rfl, fun captured h => (Except.ok.inj h).symm⟩

section

variable {faults : Faults}

theorem captureAt_cases (credentialId : Option String) (s : Stores) :
    Post (captureAt faults credentialId) s fun r s' => s' = s ∧
      ∀ captured, r = .ok captured → captured = credentialId.bind s.secrets := by
  cases credentialId with
  | none => exact ⟨rfl, fun captured h => (Except.ok.inj h).symm⟩
  | some c => exact captureSecret_cases faults.retrieval c s

/-- A secret is changed or nothing happens. -/
theorem changeAt_cases (credentialId secret : Option String) (s : Stores) :
    Post (changeAt faults credentialId secret) s
      (Atomic s (· = s.entrust credentialId secret)) := by
  cases credentialId with
  | none => exact atomic_ok () rfl
  | some c =>
      cases secret with
      | none => exact (deleteSecret_cases faults.change c s).mono fun _ _ h => h.1
      | some secret => exact (storeSecret_cases faults.change c secret s).mono fun _ _ h => h.1

/-- What is written back without an outage is there afterwards. -/
theorem restoreAt_spec (hrestore : faults.restore = none)
    (credentialId previousSecret : Option String) (s : Stores) :
    Post (restoreAt faults previousSecret credentialId) s fun r s' =>
      r = .ok () ∧ s' = s.entrust credentialId previousSecret := by
  have hperformed : ∀ c, Post (restoreSecret faults.restore c previousSecret) s fun r s' =>
      Atomic s (· = s.entrust (some c) previousSecret) r s' ∧
        (faults.restore = none → ∃ u, r = .ok u) := by
    intro c
    cases previousSecret with
    | none => exact deleteSecret_cases faults.restore c s
    | some secret => exact storeSecret_cases faults.restore c secret s
  cases credentialId with
  | none => exact ⟨rfl, rfl⟩
  | some c =>
      apply (hperformed c).mono
      rintro r s' ⟨hcases, hok⟩
      obtain ⟨⟨⟩, rfl⟩ := hok hrestore
      exact ⟨rfl, hcases.effect_of_ok⟩

/-- A statement fails and takes the change of the secret back, or ends as it does. -/
theorem orRestore_cases {α : Type} (hrestore : faults.restore = none)
    {statement : Act Stores StorageError α} {s : Stores} {Q : α → Stores → Prop}
    {credentialId secret : Option String}
    (hstatement : Post statement (s.entrust credentialId secret)
      (Settled (s.entrust credentialId secret) Q)) :
    Post (orRestore faults credentialId (credentialId.bind s.secrets) statement)
      (s.entrust credentialId secret) (Settled s Q) := by
  simp only [orRestore, post_bind, post_attempt]
  apply hstatement.mono
  intro r s' h
  cases r with
  | ok a => exact h
  | error e =>
      obtain rfl : s' = s.entrust credentialId secret := h
      simp only [next_ok, post_bind]
      apply (restoreAt_spec hrestore credentialId (credentialId.bind s.secrets) _).mono
      rintro r s' ⟨rfl, rfl⟩
      rw [next_ok, post_throw]
      exact entrust_captured s credentialId secret

end

/-! ## Custody of the secrets -/

/-- The store has a key exactly under the references of the rows. -/
def Consistent (s : Stores) : Prop :=
  Guards ProviderRow.id ProviderRow.credentialId reference s.rows s.secrets

/-- What a request does to consistent stores. -/
def Kept (s s' : Stores) : Prop := Consistent s → Consistent s'

/-- Different providers have different references. -/
theorem reference_injective : Function.Injective reference := by
  intro a b h
  exact (String.append_right_inj "provider:").mp h

theorem consistent_fresh : Consistent .fresh := guards_empty

section

variable {s : Stores} {id : ProviderId} {previous : Option Provider}

/-- The provider that is found has its own reference, and the store a key under it, or neither. -/
theorem Consistent.found (h : Consistent s)
    (hfound : Storage.Providers.provider s.rows id = .ok previous) :
    (∀ c, previousCredentialId previous = some c → c = reference id.asStr) ∧
      (s.secrets (reference id.asStr)).isSome = (previousCredentialId previous).isSome := by
  -- The row under the identifier is the one that was found.
  have hrow : ∀ row ∈ s.rows, row.id = id.asStr →
      row.credentialId = previousCredentialId previous := by
    intro row hmem hid
    cases previous with
    | none => exact absurd hid (provider_eq_none hfound row hmem)
    | some found =>
        obtain ⟨-, row', hmem', hid', hcredential⟩ := provider_spec hfound
        rw [h.unique.eq_of_mem hmem hmem' (hid.trans hid'.symm)]
        exact hcredential
  have hexists : ∀ c, previousCredentialId previous = some c →
      ∃ row ∈ s.rows, row.id = id.asStr ∧ row.credentialId = some c := by
    intro c hc
    cases previous with
    | none => cases hc
    | some found =>
        obtain ⟨-, row, hmem, hid, hcredential⟩ := provider_spec hfound
        exact ⟨row, hmem, hid, hcredential.trans hc⟩
  -- A credential is named after the provider it belongs to.
  have hown : ∀ c, previousCredentialId previous = some c → c = reference id.asStr := by
    intro c hc
    obtain ⟨row, hmem, hid, hcredential⟩ := hexists c hc
    rw [← hid]
    exact h.own row hmem c hcredential
  refine ⟨hown, Bool.eq_iff_iff.mpr ?_⟩
  -- A secret is held for the reference exactly when its row names it.
  rw [h.held]
  constructor
  · rintro ⟨row, hmem, hcredential⟩
    have hid := reference_injective (h.own row hmem _ hcredential)
    rw [← hrow row hmem hid.symm, hcredential]
    rfl
  · intro hsome
    obtain ⟨c, hc⟩ := Option.isSome_iff_exists.mp hsome
    obtain ⟨row, hmem, -, hcredential⟩ := hexists c hc
    exact ⟨row, hmem, hcredential.trans (congrArg some (hown c hc))⟩

/-- The key and the reference that a request leaves belong together. -/
theorem Consistent.entrusted (h : Consistent s)
    (hfound : Storage.Providers.provider s.rows id = .ok previous) (input : ProviderUpsert) :
    (∀ c, input.credentialId id previous = some c → c = reference id.asStr) ∧
      AwayFrom (reference id.asStr) s.secrets
        (s.entrust (input.mutationReference id previous) input.apiKey).secrets ∧
      ((s.entrust (input.mutationReference id previous) input.apiKey).secrets
        (reference id.asStr)).isSome = (input.credentialId id previous).isSome := by
  obtain ⟨hown, hheld⟩ := h.found hfound
  -- An old credential that is replaced keeps its reference.
  have hreplacement : replacementReference id previous = reference id.asStr := by
    unfold replacementReference
    cases hprevious : previousCredentialId previous with
    | none => rfl
    | some c => exact hown c hprevious
  unfold ProviderUpsert.credentialId ProviderUpsert.mutationReference
  rw [hreplacement]
  cases hkey : input.apiKey with
  -- A new key takes the place of the old one.
  | some key =>
      refine ⟨fun c hc => (Option.some.inj hc).symm, awayFrom_update _ _ _, ?_⟩
      show (Function.update s.secrets _ (some key) _).isSome = true
      rw [Function.update_self]
      rfl
  | none =>
      cases input.clearApiKey with
      -- Nothing was asked of the secret.
      | false => exact ⟨hown, awayFrom_refl _ _, hheld⟩
      -- The secret is cleared, if there was one.
      | true =>
          refine ⟨nofun, ?_⟩
          cases hprevious : previousCredentialId previous with
          | none =>
              rw [hprevious] at hheld
              exact ⟨awayFrom_refl _ _, hheld⟩
          | some c =>
              obtain rfl := hown c hprevious
              refine ⟨awayFrom_update _ _ _, ?_⟩
              exact congrArg Option.isSome (Function.update_self _ _ _)

/-- The stores after the upsert of a provider's row. -/
def Stores.saved (s : Stores) (provider : Provider) : Stores :=
  { s with
    rows := upsertRow ProviderRow.id (.ofProvider provider)
      (ProviderRow.ofProvider provider).replacedBy s.rows }

/-- A row that is saved with its own reference or none, and its key. -/
theorem Consistent.save (h : Consistent s) {provider : Provider} {secrets : Secrets}
    (hown : ∀ c, provider.credentialId = some c → c = reference provider.id.asStr)
    (haway : AwayFrom (reference provider.id.asStr) s.secrets secrets)
    (hheld : (secrets (reference provider.id.asStr)).isSome = provider.credentialId.isSome) :
    Consistent (Stores.saved ⟨s.rows, secrets⟩ provider) := by
  apply Guards.upsert h reference_injective
  · exact fun old hold => ⟨hold, rfl⟩
  · exact hown
  · exact haway
  · exact hheld

end

/-! ## Outcomes of the requests -/

section

variable {faults : Faults}

theorem findProvider_cases (id : ProviderId) (s : Stores) :
    Post (findProvider faults id) s fun r s' => s' = s ∧
      ∀ found, r = .ok found → Storage.Providers.provider s.rows id = .ok found := by
  simp only [findProvider, post_bind, post_require, next_ok, next_error, post_mapError, post_reads]
  constructor
  · refine fun _ => ⟨trivial, fun found h => ?_⟩
    cases hlookup : Storage.Providers.provider s.rows id with
    | ok previous =>
        rw [hlookup] at h
        cases h
        rfl
    | error e =>
        rw [hlookup] at h
        cases h
  · intro _
    exact ⟨trivial, by simp⟩

/-- A row is written or nothing happens. -/
theorem saveRow_cases (provider : Provider) (s : Stores) :
    Post (saveRow faults provider) s (Settled s fun _ s' => s' = s.saved provider) := by
  simp only [saveRow, post_bind, post_require, next_ok, next_error, post_reads]
  refine ⟨fun _ => ?_, fun _ => rfl⟩
  cases hsaved : Storage.Providers.upsertProvider s.rows provider with
  | error e => rfl
  | ok rows =>
      rw [next_ok, post_modify, upsertProvider_spec hsaved]
      rfl

/-- The condition of the statements about one provider. -/
def underId (id : ProviderId) (row : ProviderRow) : Truth := eq (some row.id) (some id.asStr)

/-- The row of a provider is deleted, and whether there was one is returned. -/
def Deleted (id : ProviderId) (s : Stores) (removed : Bool) (s' : Stores) : Prop :=
  s' = ⟨deleteRows (underId id) s.rows, s.secrets⟩ ∧
    removed = (changes (underId id) s.rows == 1)

theorem deleteRow_cases (providerId : ProviderId) (s : Stores) :
    Post (deleteRow faults providerId) s (Settled s (Deleted providerId s)) := by
  simp only [deleteRow, post_bind, post_require, next_ok, next_error, post_gets, post_modify,
    post_pure]
  exact ⟨fun _ => ⟨rfl, rfl⟩, fun _ => rfl⟩

/-- The identifier and the reference of a provider are those of the request. -/
theorem admitProvider_spec {urls : UrlLibrary} {provider admitted : Provider}
    (h : admitProvider urls provider = .ok admitted) :
    admitted.id = provider.id ∧ admitted.credentialId = provider.credentialId := by
  unfold admitProvider at h
  split at h
  · cases h
    exact ⟨rfl, rfl⟩
  · cases h
    exact ⟨rfl, rfl⟩
  · cases h

/-- Row and secret are changed together, or both are as they were. -/
theorem upsertProvider_cases (hrestore : faults.restore = none) (urls : UrlLibrary)
    (input : ProviderUpsert) (generated : ProviderId) (nowMs : Int) (s : Stores) :
    Post (upsertProvider faults urls input generated nowMs) s (Atomic s (Kept s)) := by
  simp only [upsertProvider, post_bind, post_require, next_ok, next_error]
  refine ⟨fun _ => ?_, fun _ => atomic_error _⟩
  generalize input.id.getD generated = id
  -- Up to the change of the secret, a failure leaves both stores as they are.
  apply (findProvider_cases id s).mono
  rintro (e | previous) s' ⟨rfl, hfound⟩
  · exact atomic_error e
  simp only [next_ok, post_bind, post_ofExcept]
  cases hadmitted : admitProvider urls (input.intoProvider id previous nowMs) with
  | error e => exact atomic_error e
  | ok provider =>
      obtain ⟨hid, hcredential⟩ := admitProvider_spec hadmitted
      simp only [next_ok, post_bind]
      apply (captureAt_cases (input.mutationReference id previous) s').mono
      rintro (e | captured) s ⟨rfl, hcaptured⟩
      · exact atomic_error e
      obtain rfl := hcaptured captured rfl
      simp only [next_ok, post_bind]
      apply (changeAt_cases (input.mutationReference id previous) input.apiKey s).mono
      rintro r s₁ (⟨e, rfl, rfl⟩ | ⟨⟨⟨⟩, rfl⟩, rfl⟩)
      · exact atomic_error e
      simp only [next_ok, post_bind]
      -- The row is saved beside the changed secret, or the secret is written back.
      apply (orRestore_cases hrestore (saveRow_cases provider _)).mono
      rintro (e | u) s' h
      · obtain rfl : s' = s := h
        exact atomic_error e
      · obtain rfl : s' = _ := h
        refine atomic_ok provider fun hconsistent => ?_
        obtain ⟨hown, haway, hheld⟩ := hconsistent.entrusted (hfound previous rfl) input
        have hkey : provider.id = id := hid
        have hreference : provider.credentialId = input.credentialId id previous := hcredential
        -- Both writes went through, and the row and the secret agree.
        apply Consistent.save hconsistent
        · rw [hreference, hkey]
          exact hown
        · rw [hkey]
          exact haway
        · rw [hreference, hkey]
          exact hheld

/-- A removal that finds the row deletes it. -/
theorem Consistent.changes_of_credential {s : Stores} (h : Consistent s) {id : ProviderId}
    {previous : Option Provider} (hfound : Storage.Providers.provider s.rows id = .ok previous)
    {c : String} (hc : previousCredentialId previous = some c) :
    changes (underId id) s.rows = 1 := by
  cases previous with
  | none => cases hc
  | some found =>
      obtain ⟨-, row, hmem, hid, -⟩ := provider_spec hfound
      apply (changes_eq_one_iff h.unique (k := id.asStr) fun r hr => ?_).mpr
      · refine ⟨row, hmem, ?_⟩
        simp [underId, hid]
      · simpa [underId] using hr

/-- Without row and secret the others stay consistent. -/
theorem Consistent.remove {s : Stores} (h : Consistent s) {id : ProviderId}
    {previous : Option Provider} (hfound : Storage.Providers.provider s.rows id = .ok previous) :
    Consistent ⟨deleteRows (underId id) s.rows,
      (s.entrust (previousCredentialId previous) none).secrets⟩ := by
  obtain ⟨hown, hheld⟩ := h.found hfound
  have hcond : ∀ row : ProviderRow, holds (underId id row) = true ↔ row.id = id.asStr := by
    intro row
    simp [underId]
  cases hprevious : previousCredentialId previous with
  | none =>
      rw [hprevious] at hheld
      exact Guards.delete h reference_injective hcond (awayFrom_refl _ _)
        (Option.isSome_eq_false_iff.mp hheld |> Option.isNone_iff_eq_none.mp)
  | some c =>
      obtain rfl := hown c hprevious
      exact Guards.delete h reference_injective hcond (awayFrom_update _ _ _)
        (Function.update_self _ _ _)

/-- Row and secret are removed together, or both are as they were. -/
theorem removeProvider_cases (hrestore : faults.restore = none) (providerId : ProviderId)
    (s : Stores) : Post (removeProvider faults providerId) s (Atomic s (Kept s)) := by
  simp only [removeProvider, post_bind]
  -- Up to the change of the secret, a failure leaves both stores as they are.
  apply (findProvider_cases providerId s).mono
  rintro (e | previous) s' ⟨rfl, hfound⟩
  · exact atomic_error e
  have hprevious := hfound previous rfl
  simp only [next_ok, post_bind]
  apply (captureAt_cases (previousCredentialId previous) s').mono
  rintro (e | captured) s ⟨rfl, hcaptured⟩
  · exact atomic_error e
  obtain rfl := hcaptured captured rfl
  simp only [next_ok, post_bind]
  apply (changeAt_cases (previousCredentialId previous) none s).mono
  rintro r s₁ (⟨e, rfl, rfl⟩ | ⟨⟨⟨⟩, rfl⟩, rfl⟩)
  · exact atomic_error e
  simp only [next_ok, post_bind]
  apply (orRestore_cases hrestore (Q := Deleted providerId (s.entrust _ none))
    (deleteRow_cases providerId _)).mono
  rintro (e | removed) s' h
  · obtain rfl : s' = s := h
    exact atomic_error e
  obtain ⟨rfl, rfl⟩ := h
  rw [next_ok]
  by_cases hone : changes (underId providerId) s.rows = 1
  · -- The row was deleted, and nothing is written back.
    have hremoved : (changes (underId providerId) s.rows == 1) = true := beq_iff_eq.mpr hone
    show Post _ _ _
    simp only [Stores.entrust, hremoved]
    exact atomic_ok true fun hconsistent => hconsistent.remove hprevious
  -- No row was deleted, so there was no credential, and the restoration writes nothing new.
  · have hremoved : (changes (underId providerId) s.rows == 1) = false := beq_false_of_ne hone
    simp only [Stores.entrust, hremoved]
    apply (restoreAt_spec hrestore _ _ _).bind
    · rintro a s' ⟨-, rfl⟩
      refine atomic_ok false fun hconsistent => ?_
      cases hcredential : previousCredentialId previous with
      | some c => exact absurd (hconsistent.changes_of_credential hprevious hcredential) hone
      | none =>
          have hconsistent' := hconsistent.remove hprevious
          rw [hcredential] at hconsistent'
          exact hconsistent'
    · rintro e s' ⟨herror, -⟩
      cases herror

theorem providerCredential_cases (provider : Provider) (s : Stores) :
    Post (providerCredential faults provider) s fun _ s' => s' = s := by
  unfold providerCredential
  cases provider.credentialId with
  | none => rfl
  | some c =>
      simp only [secretly, retrieve, reach, post_bind, post_mapError, post_within]
      cases faults.retrieval with
      | some reason => rfl
      | none =>
          simp only [post_pure, next_ok, post_bind, post_gets]
          cases s.secrets c <;> rfl

/-- A test changes the status of the provider at most. -/
theorem testProvider_cases (providerId : ProviderId)
    (client : Provider → Option String → Except AiError String) (nowMs : Int) (s : Stores) :
    Post (testProvider faults providerId client nowMs) s (Atomic s (Kept s)) := by
  simp only [testProvider, post_bind]
  apply (findProvider_cases providerId s).mono
  rintro (e | previous) s' ⟨rfl, hfound⟩
  · exact atomic_error e
  cases previous with
  | none => exact atomic_error _
  | some provider =>
      simp only [next_ok, post_orThrow_some, post_bind]
      apply (providerCredential_cases provider s').mono
      rintro (e | credential) s rfl
      · exact atomic_error e
      simp only [next_ok, post_bind, post_mapError]
      generalize client provider credential = reply
      apply (saveRow_cases _ s).mono
      rintro (e | u) s' h
      · obtain rfl : s' = s := h
        exact atomic_error _
      · obtain rfl : s' = _ := h
        refine atomic_ok _ fun hconsistent => ?_
        have hprovider := hfound (some provider) rfl
        obtain ⟨hid, -⟩ := provider_spec hprovider
        obtain ⟨hown, hheld⟩ := hconsistent.found hprovider
        rw [← hid] at hown hheld
        exact Consistent.save hconsistent hown (awayFrom_refl _ _) hheld

end

/-- A request fails and leaves both stores as they were, or keeps the custody. -/
theorem handle_cases {urls : UrlLibrary} {input : Input} (hrestore : input.faults.restore = none)
    (s : Stores) : Post (handle urls input) s (Atomic s (Kept s)) := by
  unfold handle
  cases input.request with
  | upsertProvider provider generated nowMs =>
      exact post_atomic_map (upsertProvider_cases hrestore urls provider generated nowMs s) _
  | removeProvider providerId =>
      exact post_atomic_map (removeProvider_cases hrestore providerId s) _
  | testProvider providerId client nowMs =>
      exact post_atomic_map (testProvider_cases providerId client nowMs s) _

/-! ## Runs -/

/-- In a run in which no restoration fails, the secret store has a key exactly under the references
of the rows, and no two rows have the same reference. A request that fails leaves both stores as
they were. -/
theorem stores_consistent (urls : UrlLibrary) :
    (∀ inputs : List Input, (∀ input ∈ inputs, input.faults.restore = none) →
      (∀ r, ((run (step urls) .fresh inputs).secrets r).isSome = true ↔
        ∃ row ∈ (run (step urls) .fresh inputs).rows, row.credentialId = some r) ∧
      ((run (step urls) .fresh inputs).rows.filterMap ProviderRow.credentialId).Nodup) ∧
    ∀ (input : Input) (s : Stores) (e : Failure), input.faults.restore = none →
      (handle urls input s).1 = .error e → (handle urls input s).2 = s := by
  constructor
  · intro inputs hrestore
    have hconsistent : Consistent (run (step urls) .fresh inputs) := by
      refine run_invariant_of (C := fun input => input.faults.restore = none) ?_ consistent_fresh
        hrestore
      intro s input hinput hs
      exact (handle_cases hinput s).keeps (P := Consistent) hs fun hkept => hkept hs
    exact ⟨hconsistent.held, hconsistent.nodup reference_injective⟩
  · intro input s e hrestore herror
    have hcases : Atomic s (Kept s) (handle urls input s).1 (handle urls input s).2 :=
      handle_cases hrestore s
    rw [herror] at hcases
    exact hcases.unchanged_of_error

/-! ### A run with failures -/

/-- A URL library that knows one address. -/
def oneAddress : UrlLibrary where
  parse text :=
    if text = "https://provider.example/v1" then
      some ⟨"https", "", none, some "provider.example", none, "/v1", none, none⟩
    else none
  setPath url path := { url with path }
  join url suffix := some { url with path := url.path ++ suffix }

/-- The upsert of one provider with this key. -/
def keyed (apiKey : Option String) (faults : Faults) : Input :=
  let id : ProviderId := ⟨"provider-1", by decide⟩
  ⟨.upsertProvider ⟨some id, .openAiCompatible, "Provider", "https://provider.example/v1", true,
    .cloud, apiKey, false⟩ id 0, faults⟩

/-- The database refuses the statement. -/
def refused : Faults := { Faults.none with statementRefused := true }

/-- A provider is saved with a key. A second key is stored and taken back, since the database
refuses the row; a third one is not stored. -/
def keyChanges : List Input :=
  [keyed (some "first") .none, keyed (some "second") refused,
    keyed (some "third") { Faults.none with change := some .unavailable }]

/-- The stores with the first key. -/
def keptFirst : Stores := step oneAddress .fresh (keyed (some "first") .none)

theorem stores_consistent_failing :
    (run (step oneAddress) .fresh keyChanges).secrets "provider:provider-1" = some "first" ∧
      ((∀ r, ((run (step oneAddress) .fresh keyChanges).secrets r).isSome = true ↔
          ∃ row ∈ (run (step oneAddress) .fresh keyChanges).rows, row.credentialId = some r) ∧
        ((run (step oneAddress) .fresh keyChanges).rows.filterMap
          ProviderRow.credentialId).Nodup) ∧
      (handle oneAddress (keyed (some "second") refused) keptFirst).2 = keptFirst := by
  have hrefused : (handle oneAddress (keyed (some "second") refused) keptFirst).1 =
      .error internalError := by rfl
  exact ⟨by decide,
    (stores_consistent oneAddress).1 keyChanges (by simp [keyChanges, keyed, refused, Faults.none]),
    (stores_consistent oneAddress).2 (keyed (some "second") refused) keptFirst _ rfl hrefused⟩

end Halquen.Service.Providers
