import Halquen.Domain.Gateway
import Halquen.Storage.Agents

/-!
# The table of providers

Rows of `ai_providers`. A provider that was saved reads back as it was written
(`providerFromRow_ofProvider`), and an upsert that succeeds leaves the time of creation of the row
that it replaces. It leaves a table readable that was (`readable_upsertProvider`).
-/

set_option autoImplicit false

namespace Halquen.Storage.Providers

open Halquen.Domain.Ids Halquen.Domain.Capability Halquen.Domain.Gateway
open Halquen.Library.Sql Halquen.Library.TextCodec Halquen.Library.Listing
open Halquen.Storage.Grants Halquen.Storage.Labels Halquen.Storage.Agents

/-! ## Columns -/

/-- The text of a kind in its column. -/
def providerKind : ProviderKind → String
  | .openAiCompatible => "open_ai_compatible"
  | .openAi => "open_ai"
  | .ollama => "ollama"
  | .lmStudio => "lm_studio"
  | .anthropic => "anthropic"
  | .gemini => "gemini"

/-- The kind of a text. -/
def parseProviderKind : String → Option ProviderKind :=
  parseVariant [.openAiCompatible, .openAi, .ollama, .lmStudio, .anthropic, .gemini] providerKind

/-- The text of a privacy class in its column. -/
def privacyClass : PrivacyClass → String
  | .«local» => "local"
  | .cloud => "cloud"

/-- The privacy class of a text. -/
def parsePrivacyClass : String → Option PrivacyClass :=
  parseVariant [.«local», .cloud] privacyClass

/-- The text of a status in its column. -/
def providerStatus : ProviderStatus → String
  | .configured => "configured"
  | .connected => "connected"
  | .unavailable => "unavailable"
  | .authenticationFailed => "authentication_failed"
  | .rateLimited => "rate_limited"
  | .endpointUnreachable => "endpoint_unreachable"
  | .unsupported => "unsupported"

/-- The status of a text. -/
def parseProviderStatus : String → Option ProviderStatus :=
  parseVariant [.configured, .connected, .unavailable, .authenticationFailed, .rateLimited,
    .endpointUnreachable, .unsupported] providerStatus

/-- A row of `ai_providers`. -/
structure ProviderRow where
  id : String
  providerKind : String
  name : String
  baseUrl : String
  enabled : Int
  privacyClass : String
  credentialId : Option String
  status : String
  createdAtMs : Int
  updatedAtMs : Int
  deriving DecidableEq

/-- Columns written for a provider. -/
def ProviderRow.ofProvider (provider : Provider) : ProviderRow where
  id := provider.id.asStr
  providerKind := Providers.providerKind provider.kind
  name := provider.name
  baseUrl := provider.baseUrl
  enabled := boolColumn provider.enabled
  privacyClass := Providers.privacyClass provider.privacy
  credentialId := provider.credentialId
  status := providerStatus provider.status
  createdAtMs := provider.createdAtMs
  updatedAtMs := provider.updatedAtMs

/-- A provider is configured if it has a credential or needs none. -/
def configured (credentialId : Option String) (privacy : PrivacyClass) : Bool :=
  credentialId.isSome || privacy == .local

/-- Reads a row; a column that does not convert is an error of the query. -/
def providerFromRow (row : ProviderRow) : Except StorageError Provider :=
  orError .database do
    let privacy ← parsePrivacyClass row.privacyClass
    let id ← parseId _ row.id
    let kind ← parseProviderKind row.providerKind
    let status ← parseProviderStatus row.status
    some {
      id, kind, privacy, status
      name := row.name
      baseUrl := row.baseUrl
      enabled := parseBool row.enabled
      configured := configured row.credentialId privacy
      credentialId := row.credentialId
      createdAtMs := row.createdAtMs
      updatedAtMs := row.updatedAtMs }

/-- Column constraints of the schema. -/
def ProviderRow.checks (row : ProviderRow) : Bool :=
  (parseProviderKind row.providerKind).isSome
    && lengthWithin row.name 128
    && lengthWithin row.baseUrl 2048
    && (row.enabled == 0 || row.enabled == 1)
    && (parsePrivacyClass row.privacyClass).isSome
    && (parseProviderStatus row.status).isSome

/-! ## Statements -/

/-- `ORDER BY name COLLATE NOCASE, id`. -/
def providerKey (row : ProviderRow) : (String ×ₗ Nat) ×ₗ String :=
  toLex (nocaseKey row.name, row.id)

/-- `list_providers`: all of them, by name. -/
def listProviders (rows : List ProviderRow) : Except StorageError (List Provider) :=
  (orderBy providerKey rows).mapM providerFromRow

/-- `provider`: the provider of an identifier. -/
def provider (rows : List ProviderRow) (id : ProviderId) : Except StorageError (Option Provider) :=
  match (select (fun row => eq (some row.id) (some id.asStr)) rows).head? with
  | none => .ok none
  | some row => (providerFromRow row).map some

/-- `ON CONFLICT(id) DO UPDATE`: every column but the time of creation is replaced. -/
def ProviderRow.replacedBy (row old : ProviderRow) : ProviderRow :=
  { row with id := old.id, createdAtMs := old.createdAtMs }

/-- Upsert of a provider. The column of the credential is `UNIQUE`. -/
def upsertProvider (rows : List ProviderRow) (provider : Provider) :
    Except StorageError (List ProviderRow) := do
  rejectIf (isBlank provider.name || decide (128 < provider.name.utf8ByteSize)
      || isBlank provider.baseUrl || decide (2048 < provider.baseUrl.utf8ByteSize))
    (.invalidInteraction "provider metadata is outside accepted bounds")
  let row := ProviderRow.ofProvider provider
  rejectIf (!(row.checks && rows.all fun old =>
    old.id == row.id || old.credentialId.isNone || old.credentialId != row.credentialId)) .database
  return upsertRow ProviderRow.id row row.replacedBy rows

/-- `remove_provider`. -/
def removeProvider (rows : List ProviderRow) (id : ProviderId) : Bool × List ProviderRow :=
  let cond := fun row : ProviderRow => eq (some row.id) (some id.asStr)
  (changes cond rows == 1, deleteRows cond rows)

/-! ## Rows and providers -/

/-- Each column reads what it writes. -/
theorem parseProviderKind_encode (kind : ProviderKind) :
    parseProviderKind (providerKind kind) = some kind := by
  apply parseVariant_encode
  · intro a b h
    cases a <;> cases b <;> first | rfl | simp [providerKind] at h
  · cases kind <;> simp

theorem parsePrivacyClass_encode (privacy : PrivacyClass) :
    parsePrivacyClass (privacyClass privacy) = some privacy := by
  apply parseVariant_encode
  · intro a b h
    cases a <;> cases b <;> first | rfl | simp [privacyClass] at h
  · cases privacy <;> simp

theorem parseProviderStatus_encode (status : ProviderStatus) :
    parseProviderStatus (providerStatus status) = some status := by
  apply parseVariant_encode
  · intro a b h
    cases a <;> cases b <;> first | rfl | simp [providerStatus] at h
  · cases status <;> simp

/-- A row reads back as the provider, which is configured as its credential and privacy say. -/
theorem providerFromRow_ofProvider (provider : Provider) :
    providerFromRow (.ofProvider provider) =
      .ok { provider with configured := configured provider.credentialId provider.privacy } := by
  unfold providerFromRow
  rw [orError_eq_ok_iff]
  simp only [ProviderRow.ofProvider]
  rw [parsePrivacyClass_encode, parseId_asStr, parseProviderKind_encode,
    parseProviderStatus_encode, parseBool_column]
  rfl

/-- A row that can be read keeps its identifier and its reference. -/
theorem providerFromRow_spec {row : ProviderRow} {provider : Provider}
    (h : providerFromRow row = .ok provider) :
    provider.id.asStr = row.id ∧ provider.credentialId = row.credentialId := by
  unfold providerFromRow at h
  rw [orError_eq_ok_iff] at h
  obtain ⟨privacy, -, h⟩ := Option.bind_eq_some_iff.mp h
  obtain ⟨id, hid, h⟩ := Option.bind_eq_some_iff.mp h
  -- The other columns.
  iterate 2 obtain ⟨_, -, h⟩ := Option.bind_eq_some_iff.mp h
  cases h
  exact ⟨asStr_of_parseId hid, rfl⟩

/-- The provider that is found has the identifier asked for, and the credential of its row. -/
theorem provider_spec {rows : List ProviderRow} {id : ProviderId} {found : Provider}
    (h : provider rows id = .ok (some found)) :
    found.id = id ∧ ∃ row ∈ rows, row.id = id.asStr ∧ row.credentialId = found.credentialId := by
  unfold provider at h
  split at h
  · cases h
  · rename_i row hrow
    have hmem := List.mem_of_mem_head? hrow
    rw [mem_select, holds_eq] at hmem
    obtain ⟨hrows, -, hid⟩ := hmem
    cases hread : providerFromRow row with
    | error e =>
        rw [hread] at h
        cases h
    | ok value =>
        rw [hread] at h
        cases h
        obtain ⟨hsame, hcredential⟩ := providerFromRow_spec hread
        have hkey : row.id = id.asStr := Option.some.inj hid
        exact ⟨TypedId.ext (hsame.trans hkey), row, hrows, hkey, hcredential.symm⟩

/-- Where no provider is found there is no row. -/
theorem provider_eq_none {rows : List ProviderRow} {id : ProviderId}
    (h : provider rows id = .ok none) : ∀ row ∈ rows, row.id ≠ id.asStr := by
  intro row hrow hid
  unfold provider at h
  split at h
  · rename_i hnone
    rw [List.head?_eq_none_iff] at hnone
    have hmem : row ∈ select (fun row => eq (some row.id) (some id.asStr)) rows := by
      rw [mem_select, holds_eq, hid]
      exact ⟨hrow, rfl, rfl⟩
    rw [hnone] at hmem
    cases hmem
  · rename_i row' _
    cases hread : providerFromRow row' with
    | error e =>
        rw [hread] at h
        cases h
    | ok value =>
        rw [hread] at h
        cases h

/-- A provider that is saved is written over the row of its identifier. -/
theorem upsertProvider_spec {rows rows' : List ProviderRow} {provider : Provider}
    (h : upsertProvider rows provider = .ok rows') :
    rows' = upsertRow ProviderRow.id (.ofProvider provider)
      (ProviderRow.ofProvider provider).replacedBy rows := by
  simp only [upsertProvider, except_bind_eq_ok_iff] at h
  obtain ⟨-, -, -, -, heq⟩ := h
  exact (Except.ok.inj heq).symm

/-- A provider that replaces another one is written like one that was created earlier. -/
theorem replacedBy_ofProvider (provider : Provider) {old : ProviderRow}
    (hid : old.id = provider.id.asStr) : (ProviderRow.ofProvider provider).replacedBy old =
      .ofProvider { provider with createdAtMs := old.createdAtMs } := by
  simp [ProviderRow.replacedBy, ProviderRow.ofProvider, hid]

/-- Saving a provider leaves the table readable. -/
theorem readable_upsertProvider {rows rows' : List ProviderRow} {provider : Provider}
    (hrows : Readable providerFromRow rows) (h : upsertProvider rows provider = .ok rows') :
    Readable providerFromRow rows' := by
  rw [upsertProvider_spec h]
  apply hrows.upsert ⟨_, providerFromRow_ofProvider provider⟩
  intro old _ hid
  rw [replacedBy_ofProvider provider hid]
  exact ⟨_, providerFromRow_ofProvider _⟩

/-- All providers of a readable table are listed. -/
theorem exists_listProviders {rows : List ProviderRow} (h : Readable providerFromRow rows) :
    ∃ values, listProviders rows = .ok values := by
  apply (exists_mapM_eq_ok_iff _ _).mpr
  intro r hr
  exact h r ((perm_orderBy providerKey rows).mem_iff.mp hr)

end Halquen.Storage.Providers
