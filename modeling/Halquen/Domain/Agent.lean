import Halquen.Domain.Security

/-!
# Agents and sessions

Configuration of an agent process, with the bounds under which it may run, and the session records
of agents and of the daemon. `AgentConfiguration.validate` performs the checks of the source.
-/

set_option autoImplicit false

namespace Halquen.Domain.Agent

open Halquen.Domain.Ids Halquen.Domain.Capability Halquen.Domain.Security

/-- Who may own an executable and the directories above it. -/
inductive ExecutableOwnership where
  | rootOnly | rootOrCurrentUser
  deriving DecidableEq, Repr

/-- What identifies the executable file that was inspected. -/
structure ExecutableIdentity where
  canonicalPath : String
  device : UInt64
  inode : UInt64
  ownerUid : UInt32
  size : UInt64
  modifiedSeconds : Int
  modifiedNanoseconds : Int
  sha256Hex : Option String
  deriving DecidableEq

/-- `value.starts_with('/')`. -/
def isAbsolute (value : String) : Bool := value.toList.head? == some '/'

/-- A digit of a hash as it is stored. -/
def isLowerHex (c : Char) : Bool := c.isDigit || ('a' ≤ c && c ≤ 'f')

/-- `ExecutableIdentity::validate`: an absolute path of at most 1024 bytes, a time within its second
and a hash of 64 lower-case digits, if there is one. -/
def ExecutableIdentity.validate (identity : ExecutableIdentity) :
    Except SecurityValidationError Unit :=
  if !isAbsolute identity.canonicalPath
      || decide (1024 < identity.canonicalPath.utf8ByteSize)
      || !(decide (0 ≤ identity.modifiedNanoseconds)
        && decide (identity.modifiedNanoseconds < 1000000000))
      || identity.sha256Hex.any (fun hash =>
        hash.utf8ByteSize != 64 || !hash.toList.all isLowerHex) then
    .error .invalidExecutableIdentity
  else
    .ok ()

/-- How an agent is spoken to. -/
inductive AgentTransport where
  | cli | unixSocket
  deriving DecidableEq, Repr

/-- What an agent process is confined by. -/
inductive SandboxBackend where
  | bubblewrap | unavailable | unsafeUnsandboxed
  deriving DecidableEq, Repr

/-- Limits under which an agent process runs. -/
structure AgentResourceLimits where
  cpuSeconds : Nat
  memoryBytes : Nat
  processCount : Nat
  fileSizeBytes : Nat
  openFiles : Nat
  tempBytes : Nat
  deriving DecidableEq, Repr

/-- `(low..=high).contains(&value)`. -/
def within (low high value : Nat) : Bool := decide (low ≤ value) && decide (value ≤ high)

/-- Every limit is within the bounds that the code has for it. -/
def AgentResourceLimits.validate (limits : AgentResourceLimits) : Bool :=
  within 1 300 limits.cpuSeconds
    && within (16 * 1024 * 1024) (8 * 1024 * 1024 * 1024) limits.memoryBytes
    && within 1 1024 limits.processCount
    && within 1024 (1024 * 1024 * 1024) limits.fileSizeBytes
    && within 16 4096 limits.openFiles
    && within (1024 * 1024) (1024 * 1024 * 1024) limits.tempBytes

/-- Limits of an agent for which none were given. -/
def AgentResourceLimits.default : AgentResourceLimits where
  cpuSeconds := 30
  memoryBytes := 512 * 1024 * 1024
  processCount := 64
  fileSizeBytes := 16 * 1024 * 1024
  openFiles := 128
  tempBytes := 64 * 1024 * 1024

/-- The default limits pass their own check. -/
example : AgentResourceLimits.default.validate = true := by decide

/-- An agent that the user has configured. -/
structure AgentConfiguration where
  id : AgentId
  name : String
  transport : AgentTransport
  executable : String
  arguments : List String
  socketPath : Option String
  sandbox : SandboxBackend
  ownership : ExecutableOwnership
  executableIdentity : Option ExecutableIdentity
  resourceLimits : AgentResourceLimits
  enabled : Bool
  timeoutMs : Nat
  maxStdoutBytes : Nat
  maxStderrBytes : Nat
  createdAtMs : Int
  updatedAtMs : Int
  deriving DecidableEq

/-- What is required of an agent that is a program. -/
def AgentConfiguration.cliValid (agent : AgentConfiguration) : Bool :=
  agent.transport != .cli
    || (isAbsolute agent.executable && decide (agent.executable.utf8ByteSize ≤ 1024)
      && decide (agent.arguments.length ≤ 32)
      && agent.arguments.all fun argument => decide (argument.utf8ByteSize ≤ 1024))

/-- What is required of an agent behind a socket. -/
def AgentConfiguration.socketValid (agent : AgentConfiguration) : Bool :=
  agent.transport != .unixSocket
    || agent.socketPath.any fun path => isAbsolute path && decide (path.utf8ByteSize ≤ 1024)

/-- The check of a configuration before it is stored, and after it is read. -/
def AgentConfiguration.validate (agent : AgentConfiguration) :
    Except SecurityValidationError Unit :=
  if isBlank agent.name
      || decide (128 < agent.name.utf8ByteSize)
      || !agent.cliValid
      || !agent.socketValid
      || !agent.resourceLimits.validate
      || agent.executableIdentity.any (fun identity => !(identity.validate matches .ok _))
      || !within 100 300000 agent.timeoutMs
      || !within 1024 1048576 agent.maxStdoutBytes
      || !within 1024 1048576 agent.maxStderrBytes
      || decide (agent.updatedAtMs < agent.createdAtMs) then
    .error .invalidAgentConfiguration
  else
    .ok ()

/-- How far an agent session has come. -/
inductive AgentSessionStatus where
  | running | completed | failed | timedOut | crashed
  deriving DecidableEq, Repr

/-- One run of an agent, from its start to its end. -/
structure AgentSession where
  id : AgentSessionId
  agentId : AgentId
  instanceId : AgentInstanceId
  daemonSessionId : DaemonSessionId
  status : AgentSessionStatus
  startedAtMs : Int
  endedAtMs : Option Int
  deriving DecidableEq

/-- One run of the daemon. It has no end while it goes on, or where it was interrupted. -/
structure DaemonSession where
  id : DaemonSessionId
  startedAtMs : Int
  endedAtMs : Option Int
  deriving DecidableEq

end Halquen.Domain.Agent
