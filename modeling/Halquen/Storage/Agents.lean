import Halquen.Domain.Agent
import Halquen.Library.Listing
import Halquen.Storage.Labels

/-!
# The table of agent configurations

Rows of `agent_configurations` hold text and integers; the arguments are JSON text, written and read
by a codec that is a parameter. The executable and the canonical path of its identity share one
column, which holds the executable: a row reads back as the configuration with its executable in
the place of the canonical path (`agentFromRow_ofAgent`).
-/

set_option autoImplicit false

namespace Halquen.Storage.Agents

open Halquen.Domain.Ids Halquen.Domain.Agent
open Halquen.Library.Sql Halquen.Library.TextCodec Halquen.Library.Listing
open Halquen.Storage.Grants Halquen.Storage.Labels

/-- JSON text of argument lists. -/
abbrev ArgumentsCodec := Codec (List String)

/-! ## Columns -/

/-- The text of a transport in its column. -/
def agentTransport : AgentTransport → String
  | .cli => "cli"
  | .unixSocket => "unix_socket"

/-- The transport of a text. -/
def parseAgentTransport : String → Option AgentTransport :=
  parseVariant [.cli, .unixSocket] agentTransport

/-- The text of a sandbox in its column. -/
def sandboxBackend : SandboxBackend → String
  | .bubblewrap => "bubblewrap"
  | .unavailable => "unavailable"
  | .unsafeUnsandboxed => "unsafe_unsandboxed"

/-- The sandbox of a text. -/
def parseSandboxBackend : String → Option SandboxBackend :=
  parseVariant [.bubblewrap, .unavailable, .unsafeUnsandboxed] sandboxBackend

/-- The text of an ownership in its column. -/
def executableOwnership : ExecutableOwnership → String
  | .rootOnly => "root_only"
  | .rootOrCurrentUser => "root_or_current_user"

/-- The ownership of a text. -/
def parseExecutableOwnership : String → Option ExecutableOwnership :=
  parseVariant [.rootOnly, .rootOrCurrentUser] executableOwnership

/-- `i64::try_from(value).is_ok()`. -/
def fitsInteger (value : Nat) : Bool := decide ((value : Int) < 2 ^ 63)

/-- A column of 64-bit unsigned integers. -/
def parseU64 (value : Int) : Option UInt64 :=
  if 0 ≤ value ∧ value < 2 ^ 64 then some (UInt64.ofNat value.toNat) else none

/-- Columns of unsigned values without a fixed width in the configuration. -/
def parseNat32 (value : Int) : Option Nat := (parseU32 value).map UInt32.toNat

/-- A column that holds no negative number. -/
def parseNat64 (value : Int) : Option Nat := (parseU64 value).map UInt64.toNat

/-- A truth value is stored as an integer. -/
def boolColumn (value : Bool) : Int := if value then 1 else 0

/-- A column that holds a truth value. -/
def parseBool (value : Int) : Bool := value != 0

/-- The columns of an executable's identity. The path is that of the executable. -/
def identityFromColumns (executable : String)
    (device inode ownerUid size seconds nanoseconds : Option Int) (sha256Hex : Option String) :
    Option ExecutableIdentity := do
  let device ← device.bind parseU64
  let inode ← inode.bind parseU64
  let ownerUid ← ownerUid.bind parseU32
  let size ← size.bind parseU64
  let modifiedSeconds ← seconds
  let modifiedNanoseconds ← nanoseconds
  some {
    canonicalPath := executable
    device, inode, ownerUid, size, modifiedSeconds, modifiedNanoseconds, sha256Hex }

/-- A row of `agent_configurations`. -/
structure AgentRow where
  id : String
  name : String
  transport : String
  executable : String
  argumentsJson : String
  socketPath : Option String
  sandbox : String
  executableOwnership : String
  executableDevice : Option Int
  executableInode : Option Int
  executableOwnerUid : Option Int
  executableSize : Option Int
  executableMtimeSeconds : Option Int
  executableMtimeNanoseconds : Option Int
  executableSha256Hex : Option String
  cpuSeconds : Int
  memoryBytes : Int
  processCount : Int
  fileSizeBytes : Int
  openFiles : Int
  tempBytes : Int
  enabled : Int
  timeoutMs : Int
  maxStdoutBytes : Int
  maxStderrBytes : Int
  createdAtMs : Int
  updatedAtMs : Int
  deriving DecidableEq

/-- Columns written for a configuration. -/
def AgentRow.ofAgent (codec : ArgumentsCodec) (agent : AgentConfiguration) : AgentRow where
  id := agent.id.asStr
  name := agent.name
  transport := agentTransport agent.transport
  executable := agent.executable
  argumentsJson := codec.toText agent.arguments
  socketPath := agent.socketPath
  sandbox := sandboxBackend agent.sandbox
  executableOwnership := Agents.executableOwnership agent.ownership
  executableDevice := agent.executableIdentity.map fun identity => identity.device.toNat
  executableInode := agent.executableIdentity.map fun identity => identity.inode.toNat
  executableOwnerUid := agent.executableIdentity.map fun identity => identity.ownerUid.toNat
  executableSize := agent.executableIdentity.map fun identity => identity.size.toNat
  executableMtimeSeconds := agent.executableIdentity.map ExecutableIdentity.modifiedSeconds
  executableMtimeNanoseconds := agent.executableIdentity.map ExecutableIdentity.modifiedNanoseconds
  executableSha256Hex := agent.executableIdentity.bind ExecutableIdentity.sha256Hex
  cpuSeconds := agent.resourceLimits.cpuSeconds
  memoryBytes := agent.resourceLimits.memoryBytes
  processCount := agent.resourceLimits.processCount
  fileSizeBytes := agent.resourceLimits.fileSizeBytes
  openFiles := agent.resourceLimits.openFiles
  tempBytes := agent.resourceLimits.tempBytes
  enabled := boolColumn agent.enabled
  timeoutMs := agent.timeoutMs
  maxStdoutBytes := agent.maxStdoutBytes
  maxStderrBytes := agent.maxStderrBytes
  createdAtMs := agent.createdAtMs
  updatedAtMs := agent.updatedAtMs

/-- An agent without a device on record has no identity. -/
def AgentRow.identity (row : AgentRow) : Option (Option ExecutableIdentity) :=
  match row.executableDevice with
  | none => some none
  | some device =>
      (identityFromColumns row.executable (some device) row.executableInode row.executableOwnerUid
        row.executableSize row.executableMtimeSeconds row.executableMtimeNanoseconds
        row.executableSha256Hex).map some

/-- Reads a row; a column that does not convert is an error of the query. -/
def agentFromRow (codec : ArgumentsCodec) (row : AgentRow) :
    Except StorageError AgentConfiguration :=
  orError .database do
    let executableIdentity ← row.identity
    let timeoutMs ← parseNat64 row.timeoutMs
    let id ← parseId _ row.id
    let transport ← parseAgentTransport row.transport
    let arguments ← codec.fromText row.argumentsJson
    let sandbox ← parseSandboxBackend row.sandbox
    let ownership ← parseExecutableOwnership row.executableOwnership
    let cpuSeconds ← parseNat32 row.cpuSeconds
    let memoryBytes ← parseNat64 row.memoryBytes
    let processCount ← parseNat32 row.processCount
    let fileSizeBytes ← parseNat64 row.fileSizeBytes
    let openFiles ← parseNat32 row.openFiles
    let tempBytes ← parseNat64 row.tempBytes
    let maxStdoutBytes ← parseNat32 row.maxStdoutBytes
    let maxStderrBytes ← parseNat32 row.maxStderrBytes
    some {
      id, transport, arguments, sandbox, ownership, executableIdentity, timeoutMs, maxStdoutBytes
      maxStderrBytes
      name := row.name
      executable := row.executable
      socketPath := row.socketPath
      resourceLimits := {
        cpuSeconds, memoryBytes, processCount, fileSizeBytes, openFiles, tempBytes }
      enabled := parseBool row.enabled
      createdAtMs := row.createdAtMs
      updatedAtMs := row.updatedAtMs }

/-- `column BETWEEN low AND high`. -/
def between (low high value : Int) : Bool := decide (low ≤ value) && decide (value ≤ high)

/-- Column constraints of the schema. JSON validity is what serialisation gives. -/
def AgentRow.checks (row : AgentRow) : Bool :=
  lengthWithin row.name 128
    && (row.transport == "cli" || row.transport == "unix_socket")
    && decide (sqlLength row.executable ≤ 1024)
    && decide (sqlLength row.argumentsJson ≤ 32768)
    && row.socketPath.all (fun path => decide (sqlLength path ≤ 1024))
    && (row.sandbox == "bubblewrap" || row.sandbox == "unavailable"
      || row.sandbox == "unsafe_unsandboxed")
    && (row.enabled == 0 || row.enabled == 1)
    && between 100 300000 row.timeoutMs
    && between 1024 1048576 row.maxStdoutBytes
    && between 1024 1048576 row.maxStderrBytes
    && decide (row.createdAtMs ≤ row.updatedAtMs)
    && (row.executableOwnership == "root_only"
      || row.executableOwnership == "root_or_current_user")
    && row.executableSha256Hex.all (fun hash => decide (sqlLength hash = 64))
    && between 1 300 row.cpuSeconds
    && between 16777216 8589934592 row.memoryBytes
    && between 1 1024 row.processCount
    && between 1024 1073741824 row.fileSizeBytes
    && between 16 4096 row.openFiles
    && between 1048576 1073741824 row.tempBytes

/-! ## Statements -/

/-- `ON CONFLICT(id) DO UPDATE`: every column but the time of creation is replaced. -/
def AgentRow.replacedBy (row old : AgentRow) : AgentRow :=
  { row with id := old.id, createdAtMs := old.createdAtMs }

/-- Unsigned values of a configuration that are written as they are. -/
def unsignedValues (agent : AgentConfiguration) : List Nat :=
  agent.executableIdentity.elim [] (fun identity =>
      [identity.device.toNat, identity.inode.toNat, identity.size.toNat])
    ++ [agent.resourceLimits.memoryBytes, agent.resourceLimits.fileSizeBytes,
      agent.resourceLimits.tempBytes]

/-- `upsert_agent`: a valid agent is written over the row of its identifier. -/
def upsertAgent (codec : ArgumentsCodec) (rows : List AgentRow) (agent : AgentConfiguration) :
    Except StorageError (List AgentRow) := do
  rejectIf (!(agent.validate matches .ok _)) (.invalidInteraction "invalid agent configuration")
  rejectIf (!fitsInteger agent.timeoutMs)
    (.invalidInteraction "agent timeout exceeds SQLite range")
  rejectIf (!(unsignedValues agent).all fitsInteger)
    (.invalidInteraction "numeric value exceeds SQLite range")
  let row := AgentRow.ofAgent codec agent
  rejectIf (!(row.checks && rows.all fun old => old.id != row.id || (row.replacedBy old).checks))
    .database
  return upsertRow AgentRow.id row row.replacedBy rows

/-- `ORDER BY name COLLATE NOCASE, id`. -/
def agentKey (row : AgentRow) : (String ×ₗ Nat) ×ₗ String := toLex (nocaseKey row.name, row.id)

/-- `list_agents`: at most a hundred, by name. -/
def listAgents (codec : ArgumentsCodec) (rows : List AgentRow) (limit : Nat) :
    Except StorageError (List AgentConfiguration) :=
  listRows agentKey (agentFromRow codec) (min limit 100) rows

/-- `remove_agent`. -/
def removeAgent (rows : List AgentRow) (id : AgentId) : Bool × List AgentRow :=
  let cond := fun row : AgentRow => eq (some row.id) (some id.asStr)
  (changes cond rows == 1, deleteRows cond rows)

/-! ## Rows written from configurations -/

/-- Each column reads what it writes. -/
theorem parseAgentTransport_encode (transport : AgentTransport) :
    parseAgentTransport (agentTransport transport) = some transport := by
  apply parseVariant_encode
  · intro a b h
    cases a <;> cases b <;> first | rfl | simp [agentTransport] at h
  · cases transport <;> simp

theorem parseSandboxBackend_encode (sandbox : SandboxBackend) :
    parseSandboxBackend (sandboxBackend sandbox) = some sandbox := by
  apply parseVariant_encode
  · intro a b h
    cases a <;> cases b <;> first | rfl | simp [sandboxBackend] at h
  · cases sandbox <;> simp

theorem parseExecutableOwnership_encode (ownership : ExecutableOwnership) :
    parseExecutableOwnership (executableOwnership ownership) = some ownership := by
  apply parseVariant_encode
  · intro a b h
    cases a <;> cases b <;> first | rfl | simp [executableOwnership] at h
  · cases ownership <;> simp

@[simp]
theorem parseU64_toNat (n : UInt64) : parseU64 (n.toNat : Int) = some n := by
  have hlt := n.toNat_lt
  have hrange : (0 : Int) ≤ n.toNat ∧ (n.toNat : Int) < 2 ^ 64 := by omega
  unfold parseU64
  rw [if_pos hrange]
  simp

@[simp]
theorem parseBool_column (value : Bool) : parseBool (boolColumn value) = value := by
  cases value <;> rfl

/-- A value below the bound of its column is read as it was written. -/
theorem parseNat32_natCast {n : Nat} (h : n < 2 ^ 32) : parseNat32 (n : Int) = some n := by
  have hsame : (UInt32.ofNat n).toNat = n := by
    rw [UInt32.toNat_ofNat', Nat.mod_eq_of_lt h]
  have hread := parseU32_toNat (UInt32.ofNat n)
  rw [hsame] at hread
  rw [parseNat32, hread, Option.map_some, hsame]

theorem parseNat64_natCast {n : Nat} (h : n < 2 ^ 64) : parseNat64 (n : Int) = some n := by
  have hsame : (UInt64.ofNat n).toNat = n := by
    rw [UInt64.toNat_ofNat', Nat.mod_eq_of_lt h]
  have hread := parseU64_toNat (UInt64.ofNat n)
  rw [hsame] at hread
  rw [parseNat64, hread, Option.map_some, hsame]

/-- An identity is read back from its columns, with the executable for its path. -/
theorem identityFromColumns_encode (executable : String) (identity : ExecutableIdentity) :
    identityFromColumns executable (some identity.device.toNat) (some identity.inode.toNat)
      (some identity.ownerUid.toNat) (some identity.size.toNat) (some identity.modifiedSeconds)
      (some identity.modifiedNanoseconds) identity.sha256Hex =
        some { identity with canonicalPath := executable } := by
  have hdevice : (some (identity.device.toNat : Int)).bind parseU64 = some identity.device := by
    rw [Option.bind_some, parseU64_toNat]
  have hinode : (some (identity.inode.toNat : Int)).bind parseU64 = some identity.inode := by
    rw [Option.bind_some, parseU64_toNat]
  have howner : (some (identity.ownerUid.toNat : Int)).bind parseU32 = some identity.ownerUid := by
    rw [Option.bind_some, parseU32_toNat]
  have hsize : (some (identity.size.toNat : Int)).bind parseU64 = some identity.size := by
    rw [Option.bind_some, parseU64_toNat]
  unfold identityFromColumns
  rw [hdevice, hinode, howner, hsize]
  rfl

/-- What is read back: the executable stands for the canonical path. -/
def asStored (agent : AgentConfiguration) : AgentConfiguration :=
  { agent with executableIdentity := agent.executableIdentity.map fun identity =>
      { identity with canonicalPath := agent.executable } }

/-- An agent is stored as it is if the path of its identity is its executable. -/
theorem asStored_eq_iff (agent : AgentConfiguration) :
    asStored agent = agent ↔
      ∀ identity ∈ agent.executableIdentity, identity.canonicalPath = agent.executable := by
  cases agent with
  | mk id name transport executable arguments socketPath sandbox ownership executableIdentity =>
    cases executableIdentity with
    | none => simp [asStored]
    | some identity =>
        cases identity
        simp [asStored, eq_comm]

/-- The bounds of a valid configuration are far below those of the columns. -/
def Bounded (agent : AgentConfiguration) : Prop :=
  agent.resourceLimits.validate = true ∧ agent.timeoutMs ≤ 300000 ∧
    agent.maxStdoutBytes ≤ 1048576 ∧ agent.maxStderrBytes ≤ 1048576

/-- A valid agent fits the columns. -/
theorem bounded_of_validate {agent : AgentConfiguration} (h : agent.validate = .ok ()) :
    Bounded agent := by
  unfold AgentConfiguration.validate at h
  split at h
  · cases h
  · rename_i hrules
    simp only [Bool.or_eq_true, not_or, Bool.not_eq_true', Bool.not_eq_false, within,
      Bool.and_eq_true, decide_eq_true_eq] at hrules
    obtain ⟨⟨⟨⟨⟨⟨-, hlimits⟩, -⟩, htimeout⟩, hstdout⟩, hstderr⟩, -⟩ := hrules
    exact ⟨hlimits, htimeout.2, hstdout.2, hstderr.2⟩

theorem identity_ofAgent (codec : ArgumentsCodec) (agent : AgentConfiguration) :
    (AgentRow.ofAgent codec agent).identity = some (asStored agent).executableIdentity := by
  unfold AgentRow.identity asStored
  cases h : agent.executableIdentity with
  | none => simp [AgentRow.ofAgent, h]
  | some identity =>
      simp only [AgentRow.ofAgent, h, Option.map_some, Option.bind_some]
      rw [identityFromColumns_encode]
      rfl

/-- A row reads back as the configuration with its executable for the canonical path. -/
theorem agentFromRow_ofAgent {codec : ArgumentsCodec} (hcodec : codec.Lawful)
    {agent : AgentConfiguration} (hbounded : Bounded agent) :
    agentFromRow codec (.ofAgent codec agent) = .ok (asStored agent) := by
  obtain ⟨hlimits, htimeout, hstdout, hstderr⟩ := hbounded
  simp only [AgentResourceLimits.validate, within, Bool.and_eq_true, decide_eq_true_eq] at hlimits
  have hcpu : agent.resourceLimits.cpuSeconds < 2 ^ 32 := by omega
  have hmemory : agent.resourceLimits.memoryBytes < 2 ^ 64 := by omega
  have hprocess : agent.resourceLimits.processCount < 2 ^ 32 := by omega
  have hfile : agent.resourceLimits.fileSizeBytes < 2 ^ 64 := by omega
  have hopen : agent.resourceLimits.openFiles < 2 ^ 32 := by omega
  have htemp : agent.resourceLimits.tempBytes < 2 ^ 64 := by omega
  have htimeout : agent.timeoutMs < 2 ^ 64 := by omega
  have hstdout : agent.maxStdoutBytes < 2 ^ 32 := by omega
  have hstderr : agent.maxStderrBytes < 2 ^ 32 := by omega
  unfold agentFromRow
  rw [orError_eq_ok_iff, identity_ofAgent]
  simp only [AgentRow.ofAgent]
  rw [parseNat64_natCast htimeout, parseId_asStr, parseAgentTransport_encode,
    hcodec agent.arguments, parseSandboxBackend_encode, parseExecutableOwnership_encode,
    parseNat32_natCast hcpu, parseNat64_natCast hmemory, parseNat32_natCast hprocess,
    parseNat64_natCast hfile, parseNat32_natCast hopen, parseNat64_natCast htemp,
    parseNat32_natCast hstdout, parseNat32_natCast hstderr, parseBool_column]
  rfl

theorem id_of_agentFromRow {codec : ArgumentsCodec} {row : AgentRow} {agent : AgentConfiguration}
    (h : agentFromRow codec row = .ok agent) : agent.id.asStr = row.id := by
  unfold agentFromRow at h
  rw [orError_eq_ok_iff] at h
  obtain ⟨identity, -, h⟩ := Option.bind_eq_some_iff.mp h
  obtain ⟨timeoutMs, -, h⟩ := Option.bind_eq_some_iff.mp h
  obtain ⟨id, hid, h⟩ := Option.bind_eq_some_iff.mp h
  -- The other columns.
  iterate 12 obtain ⟨_, -, h⟩ := Option.bind_eq_some_iff.mp h
  cases h
  exact asStr_of_parseId hid

/-! ## Listed configurations -/

variable {codec : ArgumentsCodec} {rows rows' : List AgentRow} {agent : AgentConfiguration}

/-- An agent that is saved is written over the row of its identifier. -/
theorem upsertAgent_spec (h : upsertAgent codec rows agent = .ok rows') :
    agent.validate = .ok () ∧ rows' = upsertRow AgentRow.id (.ofAgent codec agent)
      (AgentRow.ofAgent codec agent).replacedBy rows := by
  simp only [upsertAgent, except_bind_eq_ok_iff, rejectIf_eq_ok_iff] at h
  obtain ⟨-, hvalid, -, -, -, -, -, -, heq⟩ := h
  refine ⟨?_, (Except.ok.inj heq).symm⟩
  cases hvalidate : agent.validate with
  | ok u => rfl
  | error e => simp [hvalidate] at hvalid

/-- A configuration that replaces another one is written like one that was created earlier. -/
theorem replacedBy_ofAgent (agent : AgentConfiguration) {old : AgentRow}
    (hid : old.id = agent.id.asStr) : (AgentRow.ofAgent codec agent).replacedBy old =
      .ofAgent codec { agent with createdAtMs := old.createdAtMs } := by
  simp [AgentRow.replacedBy, AgentRow.ofAgent, hid]

/-- Saving an agent leaves the table readable. -/
theorem readable_upsertAgent (hcodec : codec.Lawful) (hrows : Readable (agentFromRow codec) rows)
    (h : upsertAgent codec rows agent = .ok rows') : Readable (agentFromRow codec) rows' := by
  obtain ⟨hvalid, rfl⟩ := upsertAgent_spec h
  have hbounded := bounded_of_validate hvalid
  apply hrows.upsert ⟨_, agentFromRow_ofAgent hcodec hbounded⟩
  intro old _ hid
  rw [replacedBy_ofAgent agent hid]
  -- The time of creation is not among the bounds.
  exact ⟨_, agentFromRow_ofAgent hcodec hbounded⟩

/-- A configuration under a new identifier is listed as it is stored, where the listing reaches
it. -/
theorem asStored_listed_iff (hcodec : codec.Lawful) (h : upsertAgent codec rows agent = .ok rows')
    (hfresh : ∀ r ∈ rows, r.id ≠ agent.id.asStr) (limit : Nat) (listed : AgentConfiguration)
    (hlisted : listed.id = agent.id) :
    Listed (fun a => a.id.asStr) (listAgents codec rows' limit) listed ↔
      asStored agent = listed ∧
        Reaches agentKey (agentFromRow codec) (min limit 100) rows (.ofAgent codec agent) := by
  obtain ⟨hvalid, rfl⟩ := upsertAgent_spec h
  have hnew : ∀ r ∈ rows, r.id ≠ (AgentRow.ofAgent codec agent).id := hfresh
  have hident : ∀ r w, agentFromRow codec r = .ok w → w.id.asStr = AgentRow.id r :=
    fun _ _ => id_of_agentFromRow
  have hkey : ∀ r ∈ rows, agentKey r ≠ agentKey (.ofAgent codec agent) := by
    intro r hr heq
    exact hfresh r hr (congrArg (fun key => (ofLex key).2) heq)
  rw [upsertRow_of_fresh hnew]
  exact listed_append_iff hident hnew hkey
    (agentFromRow_ofAgent hcodec (bounded_of_validate hvalid))
    (congrArg TypedId.asStr hlisted) _

end Halquen.Storage.Agents
