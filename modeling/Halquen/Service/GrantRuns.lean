import Halquen.Service.Walk
import Halquen.Storage.GrantUse

/-!
# The service as a connection to the grants

Whatever a request does to the session tables is a list of operations on the grants, and an upsert
among them is the one that the request asks for or one under a fresh identifier (`operates_step`).
What holds over all runs of such operations therefore holds over all runs of the service: a grant
that no request replaces is stored under its own columns (`tracked_after`).
-/

set_option autoImplicit false

namespace Halquen.Service.GrantRuns

open Halquen.Domain.Ids Halquen.Domain.Capability Halquen.Domain.Security Halquen.Domain.Agent
open Halquen.Domain.Interaction Halquen.Policy.Engine Halquen.Capabilities.Executor
open Halquen.Audit.Receipt Halquen.Memory.Semantic Halquen.Protocol.Messages Halquen.Ai.Agent
open Halquen.Library.Action Halquen.Library.Action.Act Halquen.Library.Run Halquen.Library.Sql
open Halquen.Service.Context Halquen.Service.State Halquen.Service.Proposals
open Halquen.Service.Confirmations Halquen.Service.MemoryService Halquen.Service.Chat
open Halquen.Service.ChatParser Halquen.Service.SecurityService Halquen.Service.Agents
open Halquen.Service.Handler Halquen.Service.Walk
open Halquen.Storage.Grants Halquen.Storage.Sessions Halquen.Storage.GrantUse Halquen.Storage.Sqlite

/-- An upsert is asked for, or it is of a grant whose identifier is generated in between. -/
def Confined (W : World) (asked : Option PermissionId) (lo hi : Nat) (operation : GrantOperation) :
    Prop :=
  ∀ grant, operation = .upsert grant → asked = some grant.id ∨
    ∃ n, lo ≤ n ∧ n < hi ∧ grant.id = .generate .permission (W.stamp n)

/-- The session tables have changed by operations on the grants. -/
structure Operates (W : World) (asked : Option PermissionId) (s s' : ServiceState) : Prop where
  consulted : s.consulted ≤ s'.consulted
  operations : ∃ operations : List GrantOperation,
    s'.data.database.sessions =
        run (GrantOperation.perform W.serde) s.data.database.sessions operations ∧
      ∀ operation ∈ operations, Confined W asked s.consulted s'.consulted operation

section

variable {W : World} {asked : Option PermissionId} {α : Type}

/-- Identifiers confined to an interval are confined to a larger one. -/
theorem Confined.mono {lo lo' hi hi' : Nat} {operation : GrantOperation}
    (h : Confined W asked lo hi operation) (hlo : lo' ≤ lo) (hhi : hi ≤ hi') :
    Confined W asked lo' hi' operation := by
  intro grant hgrant
  rcases h grant hgrant with hasked | ⟨n, hn, hn', hid⟩
  · exact .inl hasked
  · exact .inr ⟨n, Nat.le_trans hlo hn, Nat.lt_of_lt_of_le hn' hhi, hid⟩

instance : IsPreorder ServiceState (Operates W asked) where
  refl _ := ⟨Nat.le_refl _, [], rfl, by simp⟩
  trans s s₁ s' h h' := by
    obtain ⟨hle, operations, hrun, hconfined⟩ := h
    obtain ⟨hle', operations', hrun', hconfined'⟩ := h'
    refine ⟨Nat.le_trans hle hle', operations ++ operations', ?_, ?_⟩
    · rw [hrun', hrun, run_append]
    · intro operation hoperation
      rcases List.mem_append.mp hoperation with hmem | hmem
      · exact (hconfined operation hmem).mono (Nat.le_refl _) hle'
      · exact (hconfined' operation hmem).mono hle (Nat.le_refl _)

/-- The session tables are as they were. -/
theorem operates_of_same {s s' : ServiceState} (hconsulted : s.consulted ≤ s'.consulted)
    (hsessions : s'.data.database.sessions = s.data.database.sessions) : Operates W asked s s' :=
  ⟨hconsulted, [], hsessions, by simp⟩

/-- What is quiet does nothing to the grants. -/
theorem operates_of_quiet (s s' : ServiceState) (h : Quiet s s') : Operates W asked s s' :=
  operates_of_same h.consulted (by rw [h.data])

/-- The operation stores a grant as a whole. -/
def Upserts : GrantOperation → Prop
  | .upsert _ => True
  | _ => False

/-- One operation that is no upsert. -/
theorem operates_of_perform {s s' : ServiceState} (hconsulted : s.consulted ≤ s'.consulted)
    (operation : GrantOperation) (hother : ¬ Upserts operation)
    (hsessions : s'.data.database.sessions =
      operation.perform W.serde s.data.database.sessions) : Operates W asked s s' := by
  refine ⟨hconsulted, [operation], hsessions, fun o ho grant hgrant => ?_⟩
  rw [← List.mem_singleton.mp ho, hgrant] at hother
  exact absurd trivial hother

/-! ## Storage methods -/

/-- The method leaves the session tables alone. -/
def SameSessions (d d' : Database) : Prop := d'.sessions = d.sessions

instance : IsPreorder Database SameSessions where
  refl _ := rfl
  trans _ _ _ h h' := h'.trans h

/-- Nor does a method that leaves the sessions with their grants alone. -/
theorem keeps_operates_call {method : DbMethod} {action : Act Database StorageError α}
    (h : Keeps SameSessions action) : Keeps (Operates W asked) (call W method action) :=
  keeps_call_of (fun _ _ _ _ hsame _ => operates_of_same (Nat.le_refl _) hsame) h

theorem keeps_operates_query {method : DbMethod} {action : Act Database StorageError α}
    (h : Keeps SameSessions action) : Keeps (Operates W asked) (query W method action) :=
  (keeps_operates_call h).mapError _

theorem keeps_operates_onAudit {method : DbMethod}
    (m : Act Storage.Audit.AuditTables StorageError α) :
    Keeps (Operates W asked) (query W method (onAudit m)) :=
  keeps_operates_query fun _ => rfl

/-- A call on the session tables that does what one operation does. -/
theorem keeps_operates_sessions {method : DbMethod} {m : Act SessionTables StorageError α}
    (operation : GrantOperation) (hother : ¬ Upserts operation)
    (hperform : ∀ t, (m t).2 = operation.perform W.serde t) :
    Keeps (Operates W asked) (query W method (onSessions m)) := by
  intro s
  change Post (query W method (onSessions m)) s fun _ s' => Operates W asked s s'
  rw [post_query]
  constructor
  · intro _
    exact operates_of_same (Nat.le_refl _) rfl
  · intro _
    rw [post_onSessions]
    exact operates_of_perform (Nat.le_refl _) operation hother (hperform _)

/-- A call on the grants that does what one operation does. -/
theorem keeps_operates_grants {method : DbMethod}
    {f : List GrantRow → Except StorageError α × List GrantRow}
    (operation : GrantOperation) (hother : ¬ Upserts operation)
    (hperform : ∀ t : SessionTables,
      { t with grants := (f t.grants).2 } = operation.perform W.serde t) :
    Keeps (Operates W asked) (query W method (onGrants f)) := by
  intro s
  change Post (query W method (onGrants f)) s fun _ s' => Operates W asked s s'
  rw [post_query]
  constructor
  · intro _
    exact operates_of_same (Nat.le_refl _) rfl
  · intro _
    rw [post_onGrants]
    exact operates_of_perform (Nat.le_refl _) operation hother (hperform _)

/-- A grant is stored under the identifier that was just generated, or under the one that the
request asks for. -/
theorem operates_saveGrant {grant : PermissionGrant} {s : ServiceState}
    (hid : asked = some grant.id ∨ grant.id = .generate .permission (W.stamp s.consulted)) :
    Post (query W .upsertPermissionGrant (saveGrant W.serde grant)) s.next fun _ s' =>
      Operates W asked s s' := by
  rw [post_query]
  constructor
  · intro _
    exact operates_of_same (Nat.le_succ _) rfl
  · intro _
    rw [saveGrant, post_onGrants]
    refine ⟨Nat.le_succ _, [.upsert grant], rfl, fun o ho grant' hgrant' => ?_⟩
    rw [List.mem_singleton.mp ho] at hgrant'
    cases hgrant'
    exact hid.imp id fun hfresh => ⟨s.consulted, Nat.le_refl _, Nat.lt_succ_self _, hfresh⟩

/-! ## Requests -/

/-- The pipeline saves, revokes and claims, each as one operation. -/
theorem pipeline_operates : Pipeline W asked (Operates W asked) where
  unsaved _ _ hconsulted hdatabase _ := operates_of_same hconsulted (by rw [hdatabase])
  elsewhere h := keeps_operates_call (h.mono fun _ _ helsewhere => helsewhere.sessions)
  responded _ _ := operates_of_same (Nat.le_succ _) rfl
  saved _ _ := operates_saveGrant
  revoked id nowMs :=
    keeps_operates_grants (.revoke id nowMs) False.elim fun _ => rfl
  claimed proposal sessionId nowMs :=
    keeps_operates_grants (.claim proposal (permissionSession proposal sessionId)
      (permissionAgent proposal) nowMs) False.elim fun _ => rfl
  appended _ _ := keeps_operates_onAudit _
  recorded _ _ _ := keeps_operates_onAudit _

/-- Writing the memory does nothing to the grants. -/
theorem writing_operates : Writing W (Operates W asked) where
  stated _ _ _ _ := keeps_operates_query fun _ => rfl
  persisted _ _ _ _ :=
    have hbasics := basics_of_pipeline pipeline_operates
    (keeps_generate hbasics _).bind fun _ => (keeps_gets _).bind fun _ =>
      keeps_operates_query fun _ => rfl

/-- The sessions of agents may revoke. -/
theorem attendance_operates : Attendance W (fun _ => True) (Operates W asked) where
  quiet := operates_of_quiet
  generates _ := trivial
  begun session :=
    keeps_operates_sessions (.beginAgentSession session) False.elim
      fun _ => rfl
  finished id status endedAtMs :=
    keeps_operates_sessions (.finishAgentSession id status endedAtMs)
      False.elim fun _ => rfl
  noted _ _ _ _ := keeps_operates_onAudit _

/-- So may the start and the end of a daemon. -/
theorem starting_operates : Starting W (Operates W asked) where
  quiet := operates_of_quiet
  begun session :=
    keeps_operates_sessions (.beginDaemonSession session) False.elim
      fun _ => rfl
  finished id endedAtMs :=
    keeps_operates_sessions (.finishDaemonSession id endedAtMs)
      False.elim fun _ => rfl
  started _ _ _ _ := operates_of_same (Nat.le_refl _) rfl

end

section

variable {W : World}

/-! ## Steps and runs -/

/-- The identifier under which an input asks for a grant to be stored. -/
def askedGrant : Input → Option PermissionId
  | .request envelope => askedBy envelope.request
  | .restart .. => none

/-- Every request and every restart is a sequence of operations on the grants. -/
theorem operates_step (s : ServiceState) (input : Input) :
    Operates W (askedGrant input) s (step W s input) := by
  cases input with
  | request envelope =>
      exact keeps_handle envelope (requests_of_pipeline pipeline_operates)
        (fun _ => writing_operates) (fun _ => attendance_operates) s
  | restart regular registry policy =>
      exact keeps_restart starting_operates regular registry policy s

/-- The world is asked more and more questions. -/
theorem consulted_le_run (s : ServiceState) (inputs : List Input) :
    s.consulted ≤ (run (step W) s inputs).consulted := by
  induction inputs generalizing s with
  | nil => exact Nat.le_refl _
  | cons input inputs ih => exact Nat.le_trans (operates_step s input).consulted (ih _)

/-- An operation of a step spares a grant that is neither asked for nor generated. -/
theorem spares_of_confined {g : PermissionId} {asked : Option PermissionId} {lo hi : Nat}
    {operation : GrantOperation} (h : Confined W asked lo hi operation) (hasked : asked ≠ some g)
    (hfresh : ∀ n, lo ≤ n → n < hi → .generate .permission (W.stamp n) ≠ g) :
    operation.Spares g := by
  intro grant hgrant hid
  rcases h grant hgrant with hsome | ⟨n, hlo, hhi, hgenerated⟩
  · rw [hid] at hsome
    exact hasked hsome
  · exact hfresh n hlo hhi (hgenerated.symm.trans hid)

/-- What the service does while it generates no identifier of the grant and stores no other grant
under it leaves the grant stored under its own columns. -/
theorem tracked_of_operates {g : PermissionId} {row : GrantRow} {asked : Option PermissionId}
    {s s' : ServiceState} (h : Tracked g row s.data.database.sessions)
    (hoperates : Operates W asked s s') (hasked : asked ≠ some g)
    (hfresh : ∀ n, s.consulted ≤ n → n < s'.consulted →
      .generate .permission (W.stamp n) ≠ g) : Tracked g row s'.data.database.sessions := by
  obtain ⟨-, operations, hrun, hconfined⟩ := hoperates
  rw [hrun]
  apply tracked_run h
  intro operation hoperation
  exact spares_of_confined (hconfined operation hoperation) hasked hfresh

/-- In a run in which no request replaces a grant and no identifier is generated twice, the grant
stays stored under its own columns. -/
theorem tracked_after {g : PermissionId} {row : GrantRow} {s : ServiceState}
    (h : Tracked g row s.data.database.sessions) {inputs : List Input}
    (hasked : ∀ input ∈ inputs, askedGrant input ≠ some g)
    (hfresh : ∀ n, s.consulted ≤ n → n < (run (step W) s inputs).consulted →
      .generate .permission (W.stamp n) ≠ g) :
    Tracked g row (run (step W) s inputs).data.database.sessions := by
  induction inputs generalizing s with
  | nil => exact h
  | cons input inputs ih =>
      have hstep := operates_step (W := W) s input
      have hend : (step W s input).consulted ≤ (run (step W) s (input :: inputs)).consulted :=
        consulted_le_run _ inputs
      apply ih
      · apply tracked_of_operates h hstep (hasked input (by simp))
        intro n hn hn'
        exact hfresh n hn (Nat.lt_of_lt_of_le hn' hend)
      · intro i hi
        exact hasked i (List.mem_cons_of_mem input hi)
      · intro n hn hn'
        exact hfresh n (Nat.le_trans hstep.consulted hn) hn'

end

end Halquen.Service.GrantRuns
