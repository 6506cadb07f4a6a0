import Halquen.Capabilities.Executable
import Halquen.Library.Run
import Halquen.Protocol.Messages
import Halquen.Storage.Applications
import Halquen.Storage.Providers

/-!
# Upserted values and listings

A value that an upsert accepts under a new identifier is listed, for each of the four tables whose
rows are written and read column by column. Permission grants, resource labels and registered
applications come back as they are. An agent comes back with its executable for the canonical path
of its identity, so that it is equal in every field, and its identity can still be verified, only
if the executable was written as the canonical path (`upserts_listed`). No listing of a table that
was filled by upserts fails (`listings_succeed`).
-/

set_option autoImplicit false

namespace Halquen.Storage.RoundTrips

open Halquen.Domain.Ids Halquen.Domain.Security Halquen.Domain.Agent Halquen.Domain.Application
open Halquen.Capabilities.Executable Halquen.Protocol.Messages
open Halquen.Library.TextCodec Halquen.Library.Listing Halquen.Library.Run
open Halquen.Storage.Grants Halquen.Storage.Labels Halquen.Storage.Agents
open Halquen.Storage.Applications
open Halquen.Storage.Providers (listProviders upsertProvider readable_upsertProvider
  exists_listProviders)

/-! ## Tables filled by upserts -/

/-- The table after some values were saved, one after another. A value that is refused changes
nothing. -/
def saved {ρ α ε : Type} (save : List ρ → α → Except ε (List ρ)) (values : List α) : List ρ :=
  run (fun rows value => (save rows value).toOption.getD rows) [] values

/-- If every upsert leaves a readable table readable, the table always is. -/
theorem readable_saved {ρ α β ε δ : Type} {save : List ρ → α → Except ε (List ρ)}
    {read : ρ → Except δ β}
    (hsave : ∀ rows rows' value, Readable read rows → save rows value = .ok rows' →
      Readable read rows') (values : List α) : Readable read (saved save values) := by
  apply run_invariant (I := Readable read)
  · intro rows value h
    cases hsaved : save rows value with
    | ok rows' => exact hsave rows rows' value h hsaved
    | error e => exact h
  · intro r hr
    cases hr

section

variable {serde : ScopeCodec} {codec : ArgumentsCodec}

/-- No listing of a table that was filled by upserts fails. -/
theorem listings_succeed (hserde : serde.Lawful) (hcodec : codec.Lawful) (limit : Nat) :
    (∀ grants, ∃ values, listPermissionGrants serde (saved (upsertPermissionGrant serde) grants)
      limit = .ok values) ∧
    (∀ labels, ∃ values, listResourceLabels (saved upsertLabelRow labels) limit = .ok values) ∧
    (∀ applications, ∃ values, listRegisteredApplications codec
      (saved (upsertRegisteredApplication codec) applications) limit = .ok values) ∧
    (∀ agents, ∃ values,
      listAgents codec (saved (upsertAgent codec) agents) limit = .ok values) ∧
    ∀ providers, ∃ values, listProviders (saved upsertProvider providers) = .ok values := by
  refine ⟨fun grants => ?_, fun labels => ?_, fun applications => ?_, fun agents => ?_,
    fun providers => ?_⟩
  · refine Readable.exists_list (readable_saved ?_ grants) _
    exact fun _ _ _ hrows h => readable_upsertPermissionGrant hserde hrows h
  · refine Readable.exists_list (readable_saved ?_ labels) _
    exact fun _ _ _ hrows h => readable_upsertLabelRow hrows h
  · refine Readable.exists_list (readable_saved ?_ applications) _
    exact fun _ _ _ hrows h => readable_upsertRegisteredApplication hcodec hrows h
  · refine Readable.exists_list (readable_saved ?_ agents) _
    exact fun _ _ _ hrows h => readable_upsertAgent hcodec hrows h
  · apply exists_listProviders
    exact readable_saved (fun _ _ _ hrows h => readable_upsertProvider hrows h) providers

/-! ## Agents of the service -/

/-- The identity of a valid agent is valid. -/
theorem validIdentity_of_validate {agent : AgentConfiguration} (h : agent.validate = .ok ())
    {identity : ExecutableIdentity} (hidentity : agent.executableIdentity = some identity) :
    identity.validate = .ok () := by
  unfold AgentConfiguration.validate at h
  split at h
  · cases h
  · rename_i hrules
    simp only [Bool.or_eq_true, not_or] at hrules
    obtain ⟨⟨⟨⟨⟨-, hvalid⟩, -⟩, -⟩, -⟩, -⟩ := hrules
    rw [hidentity] at hvalid
    cases hvalidate : identity.validate with
    | ok u => rfl
    | error e => simp [hvalidate] at hvalid

/-- The configuration that is built for an inspected executable. Its identity on record is the one
that was found exactly if the path is normalized. -/
theorem identity_onRecord_iff {F : FileSystem} (hF : F.Canonical)
    {input : AgentConfigurationUpsert} {nowMs : Int} {identity : ExecutableIdentity}
    {fresh : AgentId}
    (hinspect : inspectExecutable F input.executable input.ownership input.sha256Hex =
      .ok identity) : asStored (input.intoConfiguration nowMs (some identity) fresh) =
        input.intoConfiguration nowMs (some identity) fresh ↔ Normalized input.executable := by
  rw [asStored_eq_iff, ← canonicalPath_eq_iff hF hinspect]
  constructor
  · intro h
    exact h identity rfl
  · rintro h _ ⟨⟩
    exact h

/-- The accepted values of each table under new identifiers, where the listing reaches them: grants,
labels and applications are listed as they are; an agent is, if its executable is written as the
canonical path of its identity. An agent that the service builds from an inspected executable is
listed as it is, and its stored identity verifies as long as the files stay as they are, exactly
if the path of the executable is normalized. -/
theorem upserts_listed (hserde : serde.Lawful) (hcodec : codec.Lawful) :
    (∀ (rows rows' : List GrantRow) (grant : PermissionGrant) (limit : Nat),
      upsertPermissionGrant serde rows grant = .ok rows' →
      (∀ r ∈ rows, r.id ≠ grant.id.asStr) →
        (Listed (fun g => g.id.asStr) (listPermissionGrants serde rows' limit) grant ↔
          Reaches claimKey (permissionFromRow serde) (min limit 200) rows
            (.ofGrant serde grant))) ∧
    (∀ (rows rows' : List LabelRow) (label : ResourceLabel) (limit : Nat),
      upsertLabelRow rows label = .ok rows' →
      (∀ r ∈ rows, r.id ≠ label.id.asStr) →
        (Listed (fun l => l.id.asStr) (listResourceLabels rows' limit) label ↔
          Reaches labelRowKey resourceLabelFromRow (min limit 200) rows (.ofLabel label))) ∧
    (∀ (rows rows' : List ApplicationRow) (application : RegisteredApplication) (limit : Nat),
      upsertRegisteredApplication codec rows application = .ok rows' →
      (∀ r ∈ rows, r.entityId ≠ application.entityId.asStr) →
        (Listed (fun a => a.entityId.asStr) (listRegisteredApplications codec rows' limit)
            application ↔
          Reaches applicationKey (applicationFromRow codec) (min limit 200) rows
            (.ofApplication codec application))) ∧
    (∀ (rows rows' : List AgentRow) (agent : AgentConfiguration) (limit : Nat),
      upsertAgent codec rows agent = .ok rows' →
      (∀ r ∈ rows, r.id ≠ agent.id.asStr) →
        (Listed (fun a => a.id.asStr) (listAgents codec rows' limit) agent ↔
          (∀ identity ∈ agent.executableIdentity, identity.canonicalPath = agent.executable) ∧
            Reaches agentKey (agentFromRow codec) (min limit 100) rows (.ofAgent codec agent))) ∧
    ∀ (F : FileSystem), F.Canonical →
      ∀ (rows rows' : List AgentRow) (input : AgentConfigurationUpsert) (nowMs : Int)
        (identity : ExecutableIdentity) (fresh : AgentId) (agent : AgentConfiguration)
        (limit : Nat),
      inspectExecutable F input.executable input.ownership input.sha256Hex = .ok identity →
      input.intoConfiguration nowMs (some identity) fresh = agent →
      upsertAgent codec rows agent = .ok rows' →
      (∀ r ∈ rows, r.id ≠ agent.id.asStr) →
      Reaches agentKey (agentFromRow codec) (min limit 100) rows (.ofAgent codec agent) →
        (Listed (fun a => a.id.asStr) (listAgents codec rows' limit) agent ↔
          Normalized input.executable) ∧
        ∃ stored, Listed (fun a => a.id.asStr) (listAgents codec rows' limit) stored ∧
          stored.id = agent.id ∧ ∃ expected, stored.executableIdentity = some expected ∧
            ((∃ path, verifyExecutable F expected stored.ownership = .ok path) ↔
              Normalized input.executable) := by
  refine ⟨?_, ?_, ?_, ?_, ?_⟩
  · intro rows rows' grant limit h hfresh
    exact grant_listed_iff hserde h hfresh limit
  · intro rows rows' label limit h hfresh
    exact label_listed_iff h hfresh limit
  · intro rows rows' application limit h hfresh
    exact application_listed_iff hcodec h hfresh limit
  · intro rows rows' agent limit h hfresh
    rw [asStored_listed_iff hcodec h hfresh limit agent rfl, asStored_eq_iff]
  · intro F hF rows rows' input nowMs identity fresh agent limit hinspect hagent h hfresh hreaches
    -- What is listed is the agent as it is stored, with its executable for the canonical path.
    have hlisted := asStored_listed_iff hcodec h hfresh limit
    constructor
    · rw [hlisted agent rfl, and_iff_left hreaches, ← hagent]
      exact identity_onRecord_iff hF hinspect
    · have hstored := (hlisted (asStored agent) rfl).mpr ⟨rfl, hreaches⟩
      refine ⟨asStored agent, hstored, rfl, ?_⟩
      subst hagent
      have hvalid := validIdentity_of_validate (upsertAgent_spec h).1 rfl
      refine ⟨{ identity with canonicalPath := input.executable }, rfl, ?_⟩
      exact (verifyExecutable_isOk_iff hinspect hvalid).trans (canonicalPath_eq_iff hF hinspect)

end

/-! ## An agent in `/usr/bin` -/

/-- The metadata of a directory of the system, owned by the administrator. -/
def directory : Metadata := ⟨false, true, false, 0o755, 0, 1, 2, 4096, 0, 0⟩

/-- The metadata of an executable of the system. -/
def program : Metadata := ⟨true, false, false, 0o755, 0, 1, 11, 35208, 1700000000, 0⟩

/-- A file system with one program in it. -/
def fileAt (path : String) : Option Metadata :=
  if path = "/usr/bin/true" then some program
  else if path = "/" ∨ path = "/usr" ∨ path = "/usr/bin" then some directory
  else none

/-- The only program is `/usr/bin/true`; there are no links. -/
def plainFiles : FileSystem where
  symlinkMetadata := fileAt
  metadata := fileAt
  canonicalize path :=
    if components path = components "/usr/bin/true" then some "/usr/bin/true" else none
  contents _ := none
  digest _ := ""
  currentUid := some 1000

theorem plainFiles_canonical : plainFiles.Canonical := by
  intro path canonical h
  simp only [plainFiles] at h
  split at h
  · cases h
    decide
  · cases h

/-- A request to register the program under a given path. -/
def registration (executable : String) : AgentConfigurationUpsert where
  id := none
  name := "helper"
  transport := .cli
  executable := executable
  arguments := []
  socketPath := none
  sandbox := .bubblewrap
  ownership := .rootOnly
  sha256Hex := none
  resourceLimits := .default
  enabled := true
  timeoutMs := 1000
  maxStdoutBytes := 4096
  maxStderrBytes := 4096

/-- What the inspection of the program finds. -/
def found : ExecutableIdentity := ⟨"/usr/bin/true", 1, 11, 0, 35208, 1700000000, 0, none⟩

/-- The agent as the service builds it from the request. -/
def configured (executable : String) : AgentConfiguration :=
  (registration executable).intoConfiguration 0 (some found) (.generate .agent ⟨0, 0, 0⟩)

/-- A writer of argument lists that knows only the empty one. -/
noncomputable def noArguments : ArgumentsCodec := .tabulated [([], "[]")]

theorem noArguments_lawful : noArguments.Lawful :=
  Codec.tabulated_lawful ⟨by decide, by decide⟩

/-- A writer of scopes that knows none. -/
noncomputable def noScopes : ScopeCodec := .tabulated []

theorem noScopes_lawful : noScopes.Lawful :=
  Codec.tabulated_lawful ⟨by simp, by simp⟩

/-- Both spellings of the path lead to the same file. -/
theorem inspected : ∀ executable ∈ ["/usr/bin/true", "/usr//bin/true"],
    inspectExecutable plainFiles executable .rootOnly none = .ok found := by
  decide

/-- The agent can be saved under both. -/
theorem upserted : ∀ executable ∈ ["/usr/bin/true", "/usr//bin/true"],
    upsertAgent noArguments [] (configured executable) =
      .ok [.ofAgent noArguments (configured executable)] := by
  decide

/-- In an empty table every listing reaches the row. -/
theorem reaches_first {agent : AgentConfiguration} (hvalid : agent.validate = .ok ()) :
    Reaches agentKey (agentFromRow noArguments) (min 100 100) []
      (.ofAgent noArguments agent) := by
  have hread := agentFromRow_ofAgent noArguments_lawful (bounded_of_validate hvalid)
  have hempty : Readable (agentFromRow noArguments) [] := by simp [Readable]
  exact (hempty.reaches_iff ⟨_, hread⟩ _).mpr (by simp)

/-- An agent whose executable is written as its canonical path. -/
theorem upserts_listed_canonical :
    Listed (fun a => a.id.asStr)
        (listAgents noArguments [.ofAgent noArguments (configured "/usr/bin/true")] 100)
        (configured "/usr/bin/true") := by
  have hupsert := upserted "/usr/bin/true" (by simp)
  have hreaches := reaches_first (upsertAgent_spec hupsert).1
  have hall := (upserts_listed noScopes_lawful noArguments_lawful).2.2.2.2 plainFiles
    plainFiles_canonical [] _ (registration "/usr/bin/true") 0 found (.generate .agent ⟨0, 0, 0⟩)
    (configured "/usr/bin/true") 100 (inspected "/usr/bin/true" (by simp)) rfl hupsert (by simp)
    hreaches
  exact hall.1.mpr (by decide)

/-- An agent is registered with a doubled slash in its path. The list returns it with another
canonical path than the one that was found, and under that the identity does not verify. -/
theorem canonical_path_lost :
    ¬ ∀ (codec : ArgumentsCodec), codec.Lawful → ∀ (F : FileSystem), F.Canonical →
      ∀ (input : AgentConfigurationUpsert) (nowMs : Int) (identity : ExecutableIdentity)
        (fresh : AgentId) (rows : List AgentRow),
      inspectExecutable F input.executable input.ownership input.sha256Hex = .ok identity →
      upsertAgent codec [] (input.intoConfiguration nowMs (some identity) fresh) = .ok rows →
        Listed (fun a => a.id.asStr) (listAgents codec rows 100)
          (input.intoConfiguration nowMs (some identity) fresh) ∧
        ∃ stored path expected, Listed (fun a => a.id.asStr) (listAgents codec rows 100) stored ∧
          stored.executableIdentity = some expected ∧
            verifyExecutable F expected stored.ownership = .ok path := by
  intro h
  have hupsert := upserted "/usr//bin/true" (by simp)
  obtain ⟨hlisted, -⟩ := h noArguments noArguments_lawful plainFiles plainFiles_canonical
    (registration "/usr//bin/true") 0 found (.generate .agent ⟨0, 0, 0⟩) _
    (inspected "/usr//bin/true" (by simp)) hupsert
  have hstored := ((asStored_listed_iff noArguments_lawful hupsert (by simp) 100
    (configured "/usr//bin/true") rfl).mp hlisted).1
  exact absurd hstored (by decide)

end Halquen.Storage.RoundTrips
