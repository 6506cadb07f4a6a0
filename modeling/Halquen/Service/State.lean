import Halquen.Ai.Agent
import Halquen.Capabilities.Executor
import Halquen.Protocol.Messages
import Halquen.Service.ChatParser
import Halquen.Service.Context
import Halquen.Storage.Sqlite

/-!
# State of the service

The daemon's requests are computations on `ServiceState`: the data that the service holds, the
number of times that it has consulted its environment, and the number of calls of each storage
method. The environment is a `World`: clock readings, stamps of generated identifiers, replies of
the executor and of agent processes, and the plan of the storage calls that fail.

`ServiceData.history` is a record of what the service does beyond its tables: claims, executor
invocations, confirmations issued and refused writes, in order. No request reads it.

The primitives come with the facts that the proofs about requests use: which of them leave the data
as it is (`Quiet`), and the two outcomes of a storage call (`post_call`).
-/

set_option autoImplicit false

namespace Halquen.Service.State

open Halquen.Domain.Ids Halquen.Domain.Capability Halquen.Domain.Security Halquen.Domain.Agent
open Halquen.Domain.Interaction Halquen.Policy.Engine Halquen.Capabilities.Executor
open Halquen.Audit.Receipt Halquen.Protocol.Messages Halquen.Ai.Agent
open Halquen.Library.Action Halquen.Library.Action.Act
open Halquen.Service.ChatParser
open Halquen.Storage.Grants (GrantRow ScopeCodec StorageError)
open Halquen.Storage.Interaction (InteractionTables)
open Halquen.Storage.Memory (Statement)
open Halquen.Storage.Agents (ArgumentsCodec)
open Halquen.Storage.Sqlite (Database)

/-! ## Environment -/

/-- What the configured executor does within the deadline of the capability. -/
inductive ExecutorReply where
  | completed (code : ExecutionResultCode)
  | rejected (error : ExecutionError)
  | timedOut
  deriving DecidableEq

/-- The two executors of the daemon. -/
inductive ExecutorKind where
  | configured | dryRun
  deriving DecidableEq, Repr

/-- Methods of the storage layer that requests call. -/
inductive DbMethod where
  | securityProfile | activePermissionGrantForProposal | resourceLabelFor | listAgents
  | listAgentSessions | recentIntentUsage | preferenceByKey | memoryHead | memoryRevision
  | updateSecurityProfile | upsertPermissionGrant | revokePermission | claimPermissionForProposal
  | upsertResourceLabel | removeResourceLabel | upsertAgent | removeAgent | beginDaemonSession
  | finishDaemonSession | beginAgentSession | finishAgentSession | appendAudit | recordExecution
  | persistMemoryRevision | setMemoryState | ensureChatSession | appendChatMessage
  | appendActivity | addUsage | recordIntentUsage | recordCorrection
  deriving DecidableEq, Repr

/-- Methods that write. -/
def DbMethod.isWrite : DbMethod → Bool
  | .securityProfile | .activePermissionGrantForProposal | .resourceLabelFor | .listAgents
  | .listAgentSessions | .recentIntentUsage | .preferenceByKey | .memoryHead
  | .memoryRevision => false
  | _ => true

/-- The environment of a run. The functions that take a number answer the consultation of that
number. `respond` is the part of a chat that no local intent resolves, the response cache and the
AI gateway: it may do anything with the tables of the interaction and has access to no other. -/
structure World where
  serde : ScopeCodec
  arguments : ArgumentsCodec
  decodeOutput : WireDecoder
  tables : TextTables
  clock : Nat → Int
  stamp : Nat → Stamp
  fails : DbMethod → Nat → Bool
  failsStatement : Nat → Statement → Bool
  execute : Nat → ExecutionAuthorization → ExecutorReply
  startAgent : Nat → AgentConfiguration → AgentExecutionIdentity → String →
    List AgentCapabilityView → Except AgentHostError Unit
  agentOutput : Nat → Except AgentHostError (List UInt8)
  completeAgent : Nat → List AgentBrokerProposalResult → Except AgentHostError Nat
  inspectExecutable : Nat → String → ExecutableOwnership → Option String →
    Option ExecutableIdentity
  resolveBehaviour : List IntentUsageEvent → Int → IntentResolution
  formatScore : Nat → String
  elapsedMs : Nat → UInt64
  respond : Nat → ChatRequest → ChatSession → ChatMessage → String →
    Act InteractionTables ProtocolErrorBody ChatResult

/-- An environment in which nothing fails: the clock advances with every consultation, stamps are
numbered, and every application is launched. No agent can be run. -/
def World.steady (serde : ScopeCodec) : World where
  serde := serde
  arguments := ⟨String.join, fun _ => none⟩
  decodeOutput := fun _ => none
  tables := ⟨List.map Char.toLower, Char.isAlphanum⟩
  clock n := n
  stamp n := ⟨0, 0, Fin.ofNat _ n⟩
  fails _ _ := false
  failsStatement _ _ := false
  execute _ _ := .completed .launched
  startAgent _ _ _ _ _ := .error .sandboxUnavailable
  agentOutput _ := .error .processFailed
  completeAgent _ _ := .error .processFailed
  inspectExecutable _ _ _ _ := none
  resolveBehaviour _ _ := .unknown
  formatScore _ := ""
  elapsedMs _ := 0
  respond _ _ _ _ _ := throw ⟨.internal, "internal core operation failed"⟩

/-- An application that requests of concrete runs name. -/
def telegram : EntityId := ⟨"app:telegram", validate_telegram⟩

/-! ## Data -/

/-- A launch that waits for the user's answer. -/
structure PendingConfirmation where
  requestExecutionId : ExecutionId
  proposal : ActionProposal
  title : String
  expiresAtMs : Int
  sessionId : Option ChatSessionId
  deriving DecidableEq

/-- What the service does beyond its tables. -/
inductive Effect where
  | claimed (row : GrantRow) (atMs : Int)
  | invoked (executor : ExecutorKind) (authorization : ExecutionAuthorization)
      (reply : ExecutorReply)
  | issued (confirmationId : String)
  | refused (method : DbMethod)
  deriving DecidableEq

/-- What a daemon holds: its registries, its database and the confirmations that wait. The history
is a record for the proofs. -/
structure ServiceData where
  registry : CapabilityRegistry
  policy : PolicyEngine
  database : Database
  daemonSessionId : DaemonSessionId
  pendingConfirmations : String → Option PendingConfirmation
  history : List Effect

/-- The data with the number of questions asked of the world and of calls of each database
method. -/
structure ServiceState where
  data : ServiceData
  consulted : Nat
  calls : DbMethod → Nat

/-- How a request ends without a response. -/
inductive Failure where
  | error (body : ProtocolErrorBody)
  | panicked
  deriving DecidableEq

/-- A computation of the service. -/
abbrev Operation (α : Type) := Act ServiceState Failure α

/-! ## Error bodies -/

/-- A failure of a request, with the code and the text that the client reads. -/
def failure (code : ProtocolErrorCode) (message : String) : Failure := .error ⟨code, message⟩

/-- `internal_error`: nothing of the cause is told. -/
def internalError : Failure := failure .internal "internal core operation failed"

/-- `validation`. -/
def validation (message : String) : Failure := failure .validation message

/-- `not_found`. -/
def notFound : Failure := failure .notFound "requested item was not found"

/-- `confirmation_expired`. -/
def confirmationExpired : Failure :=
  failure .confirmationExpired "confirmation was already used, cancelled or expired"

/-- `invalid_action_context`. -/
def invalidActionContext : Failure :=
  failure .invalidAction "action provenance or resource context is invalid"

/-! ## Primitives -/

/-- The data with another database. -/
def ServiceData.withDatabase (data : ServiceData) (database : Database) : ServiceData :=
  { data with database := database }

/-- The data with more effects on record. -/
def ServiceData.note (data : ServiceData) (effects : List Effect) : ServiceData :=
  { data with history := data.history ++ effects }

/-- The data with other rows of grants. -/
def ServiceData.withGrants (data : ServiceData) (rows : List GrantRow) : ServiceData :=
  data.withDatabase { data.database with
    sessions := { data.database.sessions with grants := rows } }

/-- The data with other conversations and usage. -/
def ServiceData.withInteraction (data : ServiceData) (t : InteractionTables) : ServiceData :=
  data.withDatabase { data.database with interaction := t }

/-- The data with one confirmation set or taken away. -/
def ServiceData.setPending (data : ServiceData) (confirmationId : String)
    (pending : Option PendingConfirmation) : ServiceData :=
  { data with pendingConfirmations :=
      Function.update data.pendingConfirmations confirmationId pending }

/-- The data after an execution has been recorded. -/
def ServiceData.recorded (data : ServiceData) (receipt : ExecutionReceipt)
    (records : List AuditRecord) : ServiceData :=
  data.withDatabase { data.database with audit := data.database.audit.record receipt records }

/-- The state after more consultations. -/
def ServiceState.advance (s : ServiceState) (n : Nat) : ServiceState :=
  { s with consulted := s.consulted + n }

/-- The state after one question to the world. -/
def ServiceState.next (s : ServiceState) : ServiceState := s.advance 1

section

variable (W : World)

/-- One consultation of the environment. -/
def consult {α : Type} (f : Nat → α) : Operation α := fun s => (.ok (f s.consulted), s.next)

/-- `now_ms`: the time, asked of the world. -/
def now : Operation Int := consult W.clock

/-- A fresh identifier, stamped by the world. -/
def generate (kind : GeneratedKind) : Operation (TypedId (.generated kind)) :=
  consult fun n => .generate kind (W.stamp n)

/-- Something that the history records. -/
def record (effects : List Effect) : Operation Unit := fun s =>
  (.ok (), { s with data := s.data.note effects })

/-- Call of a storage method, which the plan of failing calls may refuse. -/
def call {α : Type} (method : DbMethod) (action : Act Database StorageError α) :
    Act ServiceState StorageError α := fun s =>
  let outcome :=
    if W.fails method (s.calls method) then (.error .database, s.data.database)
    else action s.data.database
  let refusal :=
    if method.isWrite && (outcome.1 matches .error _) then [Effect.refused method] else []
  (outcome.1, {
    data := (s.data.withDatabase outcome.2).note refusal
    consulted := s.consulted
    calls := Function.update s.calls method (s.calls method + 1) })

/-- A storage call whose failure is an internal error of the request. -/
def query {α : Type} (method : DbMethod) (action : Act Database StorageError α) : Operation α :=
  mapError (fun _ => internalError) (call W method action)

/-- A reading method. -/
def read {α : Type} (method : DbMethod) (f : Database → Except StorageError α) : Operation α :=
  query W method (reads f)

/-- Reply of an executor. The dry-run executor answers at once. -/
def executorReply (executor : ExecutorKind) (authorization : ExecutionAuthorization) :
    Operation ExecutorReply :=
  match executor with
  | .configured => consult fun n => W.execute n authorization
  | .dryRun => return match dryRunExecute authorization with
      | .ok code => .completed code
      | .error e => .rejected e

/-- An execution, which is noted with its authorization and the reply. -/
def execute (executor : ExecutorKind) (authorization : ExecutionAuthorization) :
    Operation ExecutorReply := do
  let reply ← executorReply W executor authorization
  record [.invoked executor authorization reply]
  return reply

end

/-! ## Facts about the primitives -/

/-- Nothing has changed but the number of consultations and of calls of reading methods. -/
structure Quiet (s s' : ServiceState) : Prop where
  data : s'.data = s.data
  consulted : s.consulted ≤ s'.consulted
  calls : ∀ m, m.isWrite = true → s'.calls m = s.calls m

instance : IsPreorder ServiceState Quiet where
  refl _ := ⟨rfl, Nat.le_refl _, fun _ _ => rfl⟩
  trans _ _ _ h h' :=
    ⟨h'.data.trans h.data, Nat.le_trans h.consulted h'.consulted,
      fun m hm => (h'.calls m hm).trans (h.calls m hm)⟩

section

variable {W : World} {α : Type}

theorem keeps_quiet_consult (f : Nat → α) : Keeps Quiet (consult f) :=
  fun s => ⟨rfl, Nat.le_succ s.consulted, fun _ _ => rfl⟩

theorem keeps_quiet_now : Keeps Quiet (now W) := keeps_quiet_consult _

theorem keeps_quiet_generate (kind : GeneratedKind) : Keeps Quiet (generate W kind) :=
  keeps_quiet_consult _

@[simp]
theorem post_consult {f : Nat → α} {s : ServiceState} {Q : Except Failure α → ServiceState → Prop} :
    Post (consult f) s Q ↔ Q (.ok (f s.consulted)) s.next := Iff.rfl

@[simp]
theorem post_now {s : ServiceState} {Q : Except Failure Int → ServiceState → Prop} :
    Post (now W) s Q ↔ Q (.ok (W.clock s.consulted)) s.next := Iff.rfl

@[simp]
theorem post_generate {kind : GeneratedKind} {s : ServiceState}
    {Q : Except Failure (TypedId (.generated kind)) → ServiceState → Prop} :
    Post (generate W kind) s Q ↔ Q (.ok (.generate kind (W.stamp s.consulted))) s.next := Iff.rfl

@[simp]
theorem returns_now {s : ServiceState} {Q : Int → ServiceState → Prop} :
    Returns (now W) s Q ↔ Q (W.clock s.consulted) s.next := by
  simp [Returns]

@[simp]
theorem returns_generate {kind : GeneratedKind} {s : ServiceState}
    {Q : TypedId (.generated kind) → ServiceState → Prop} :
    Returns (generate W kind) s Q ↔ Q (.generate kind (W.stamp s.consulted)) s.next := by
  simp [Returns]

@[simp]
theorem post_record {effects : List Effect} {s : ServiceState}
    {Q : Except Failure Unit → ServiceState → Prop} :
    Post (record effects) s Q ↔ Q (.ok ()) { s with data := s.data.note effects } := Iff.rfl

@[simp]
theorem ServiceState.data_next (s : ServiceState) : s.next.data = s.data := rfl

@[simp]
theorem ServiceState.consulted_next (s : ServiceState) : s.next.consulted = s.consulted + 1 := rfl

theorem ServiceState.next_advance (s : ServiceState) (n : Nat) :
    s.next.advance n = s.advance (n + 1) := by
  simp only [next, advance, Nat.add_assoc, Nat.add_comm 1 n]

/-- A question to the world is quiet. -/
theorem quiet_advance (s : ServiceState) (n : Nat) : Quiet s (s.advance n) :=
  ⟨rfl, Nat.le_add_right _ _, fun _ _ => rfl⟩

/-- The state after a call of a method that has left the database in this condition. -/
def ServiceState.called (s : ServiceState) (method : DbMethod) (database : Database)
    (effects : List Effect) : ServiceState where
  data := (s.data.withDatabase database).note effects
  consulted := s.consulted
  calls := Function.update s.calls method (s.calls method + 1)

/-- The two outcomes of a storage call: what the method does, or a planned failure. -/
theorem post_call {method : DbMethod} {action : Act Database StorageError α} {s : ServiceState}
    {Q : Except StorageError α → ServiceState → Prop} :
    Post (call W method action) s Q ↔
      (W.fails method (s.calls method) = true →
        Q (.error .database) (s.called method s.data.database
          (if method.isWrite then [.refused method] else []))) ∧
      (W.fails method (s.calls method) = false →
        Post action s.data.database fun r d =>
          Q r (s.called method d
            (if method.isWrite && (r matches .error _) then [.refused method] else []))) := by
  unfold Post call
  cases hfails : W.fails method (s.calls method) <;>
    simp [ServiceState.called]

/-- A query fails where the world says so, and has its effect elsewhere. -/
theorem post_query {method : DbMethod} {action : Act Database StorageError α} {s : ServiceState}
    {Q : Except Failure α → ServiceState → Prop} :
    Post (query W method action) s Q ↔
      (W.fails method (s.calls method) = true →
        Q (.error internalError) (s.called method s.data.database
          (if method.isWrite then [.refused method] else []))) ∧
      (W.fails method (s.calls method) = false →
        Post action s.data.database fun r d =>
          Q (r.mapError fun _ => internalError) (s.called method d
            (if method.isWrite && (r matches .error _) then [.refused method] else []))) := by
  rw [query, post_mapError, post_call]
  rfl

/-- A call that succeeds has done what the method does. -/
theorem returns_query {method : DbMethod} {action : Act Database StorageError α} {s : ServiceState}
    {Q : α → ServiceState → Prop}
    (h : Returns action s.data.database fun a d => Q a (s.called method d [])) :
    Returns (query W method action) s Q := by
  rw [Returns, post_query]
  constructor
  · intro _ a ha
    cases ha
  · refine fun _ => Post.mono h fun r d hr a ha => ?_
    cases r with
    | error e => cases ha
    | ok b =>
        cases ha
        simpa using hr a rfl

/-- A reading is quiet. -/
theorem keeps_quiet_read {method : DbMethod} (hmethod : method.isWrite = false)
    (f : Database → Except StorageError α) : Keeps Quiet (read W method f) := by
  intro s
  change Post (read W method f) s fun _ s' => Quiet s s'
  rw [read, post_query]
  have hquiet : Quiet s (s.called method s.data.database []) := by
    refine ⟨by simp [ServiceState.called, ServiceData.withDatabase, ServiceData.note],
      Nat.le_refl _, fun m hm => ?_⟩
    have hne : m ≠ method := fun h => by
      rw [h, hmethod] at hm
      cases hm
    exact Function.update_of_ne hne _ _
  simp only [hmethod, Bool.false_and, Bool.false_eq_true, if_false]
  exact ⟨fun _ => hquiet, fun _ => hquiet⟩

/-- The two outcomes of a reading call: what the method reads, or a planned failure. -/
theorem post_read {method : DbMethod} (hmethod : method.isWrite = false)
    {f : Database → Except StorageError α} {s : ServiceState}
    {Q : Except Failure α → ServiceState → Prop} :
    Post (read W method f) s Q ↔
      (W.fails method (s.calls method) = true →
        Q (.error internalError) (s.called method s.data.database [])) ∧
      (W.fails method (s.calls method) = false →
        Q ((f s.data.database).mapError fun _ => internalError)
          (s.called method s.data.database [])) := by
  rw [read, post_query, post_reads]
  simp only [hmethod, Bool.false_and, Bool.false_eq_true, if_false]

/-- A reading method returns what it reads, unless its call fails. -/
theorem returns_read {method : DbMethod} (hmethod : method.isWrite = false)
    (f : Database → Except StorageError α) (s : ServiceState) :
    Returns (read W method f) s fun a s' =>
      f s.data.database = .ok a ∧ s'.data = s.data ∧ s'.consulted = s.consulted := by
  have hquiet := (keeps_quiet_read (W := W) hmethod f).post s
  have hread : Post (read W method f) s fun r s' =>
      (∀ a, r = .ok a → f s.data.database = .ok a) ∧ s'.consulted = s.consulted := by
    rw [read, post_query]
    constructor
    · intro _
      exact ⟨fun a ha => (nomatch ha), rfl⟩
    · intro _
      rw [post_reads]
      refine ⟨fun a ha => ?_, rfl⟩
      cases hf : f s.data.database with
      | error e =>
          rw [hf] at ha
          cases ha
      | ok b =>
          rw [hf] at ha
          cases ha
          rfl
  exact Post.mono (hquiet.and hread) fun r s' h a ha => ⟨h.2.1 a ha, h.1.data, h.2.2⟩

end

end Halquen.Service.State
