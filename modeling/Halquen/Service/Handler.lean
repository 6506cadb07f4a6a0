import Halquen.Library.Run
import Halquen.Service.Agents
import Halquen.Service.Chat
import Halquen.Service.SecurityService

/-!
# Runs of the service

The daemon answers one request at a time. Between requests it may be started again, after a regular
end or without one: the tables stay, and the confirmations that wait in memory are lost. `after` is
the state that a run has reached, from a database without rows.
-/

set_option autoImplicit false

namespace Halquen.Service.Handler

open Halquen.Domain.Ids Halquen.Domain.Capability Halquen.Policy.Engine Halquen.Protocol.Messages
open Halquen.Domain.Agent Halquen.Capabilities.Executor
open Halquen.Library.Action Halquen.Library.Action.Act Halquen.Library.Run
open Halquen.Service.State Halquen.Service.Proposals Halquen.Service.Confirmations
open Halquen.Service.MemoryService Halquen.Service.Chat Halquen.Service.SecurityService
open Halquen.Service.Agents
open Halquen.Storage.Sqlite

section

variable (W : World)

/-- `HalquenService::handle`. -/
def handle (envelope : RequestEnvelope) : Operation ProtocolResponse :=
  match envelope.request with
  | .evaluateAction action => evaluateAction W action
  | .dryRunAction action => dryRunAction W action
  | .executeAction action => executeAction W action
  | .chat request => chat W request envelope.requestId
  | .updateMemoryState update => updateMemoryState W update
  | .restoreMemoryRevision memoryId revisionId => restoreMemoryRevision W memoryId revisionId
  | .confirmAction confirmationId allow persistence expiresAtMs =>
      confirmAction W confirmationId allow persistence expiresAtMs
  | .updateSecurityProfile profile => updateSecurityProfile W profile
  | .upsertPermissionGrant grant => upsertPermissionGrant W grant
  | .revokePermissionGrant permissionId => revokePermissionGrant W permissionId
  | .upsertResourceLabel label => upsertResourceLabel W label
  | .removeResourceLabel resourceLabelId => removeResourceLabel W resourceLabelId
  | .upsertAgent agent => upsertAgent W agent
  | .removeAgent agentId => removeAgent W agentId
  | .runAgent request => runAgent W request

/-- What a new process keeps in memory. -/
def ServiceData.started (data : ServiceData) (registry : CapabilityRegistry)
    (policy : PolicyEngine) (daemonSessionId : DaemonSessionId) : ServiceData :=
  { data with registry, policy, daemonSessionId, pendingConfirmations := fun _ => none }

/-- `HalquenService::from_parts`. A daemon session that cannot be stored is passed over. -/
def fromParts (registry : CapabilityRegistry) (policy : PolicyEngine) : Operation Unit := do
  let id ← generate W .daemonSession
  let startedAtMs ← now W
  let _ ← attempt (query W .beginDaemonSession
    (onSessions (Storage.Sessions.beginDaemonSession ⟨id, startedAtMs, none⟩)))
  modify fun s => { s with data := ServiceData.started s.data registry policy id }

/-- The regular end of the daemon. -/
def shutDown : Operation Unit := do
  let id ← gets fun s => s.data.daemonSessionId
  let nowMs ← now W
  let _ ← attempt (query W .finishDaemonSession
    (onSessions (Storage.Sessions.finishDaemonSession id nowMs)))
  return ()

/-- What happens to the service. -/
inductive Input where
  | request (envelope : RequestEnvelope)
  | restart (regular : Bool) (registry : CapabilityRegistry) (policy : PolicyEngine)

/-- The end of one daemon, if it ends regularly, and the start of the next. -/
def restart (regular : Bool) (registry : CapabilityRegistry) (policy : PolicyEngine) :
    Operation Unit :=
  if regular then do
    shutDown W
    fromParts W registry policy
  else
    fromParts W registry policy

/-- What an input does to the state. -/
def step (s : ServiceState) : Input → ServiceState
  | .request envelope => (handle W envelope s).2
  | .restart regular registry policy => (restart W regular registry policy s).2

/-- Before the first start. -/
def blank (registry : CapabilityRegistry) (policy : PolicyEngine) : ServiceState where
  data := {
    registry, policy
    database := .empty
    daemonSessionId := .generate .daemonSession (W.stamp 0)
    pendingConfirmations := fun _ => none
    history := [] }
  consulted := 0
  calls := fun _ => 0

/-- The service on an empty database. -/
def initial (registry : CapabilityRegistry) (policy : PolicyEngine) : ServiceState :=
  (fromParts W registry policy (blank W registry policy)).2

/-- The state after these inputs. -/
def after (registry : CapabilityRegistry) (policy : PolicyEngine) (inputs : List Input) :
    ServiceState :=
  run (step W) (initial W registry policy) inputs

end

end Halquen.Service.Handler
