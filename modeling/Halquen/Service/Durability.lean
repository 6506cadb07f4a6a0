import Halquen.Service.Evolution
import Halquen.Service.SingleUse

/-!
# Durability of execution records

An executor is invoked before the record of its execution is written. The record is therefore on
disk at the end of the request exactly if that write is not refused and, on the path of
confirmations, the write of the intent usage that stands before it is not refused either
(`invocation_on_record`).
-/

set_option autoImplicit false

namespace Halquen.Service.Durability

open Halquen.Domain.Ids Halquen.Domain.Capability Halquen.Domain.Security Halquen.Domain.Interaction
open Halquen.Policy.Engine Halquen.Policy.Authorization Halquen.Capabilities.Executor
open Halquen.Audit.Receipt Halquen.Protocol.Messages
open Halquen.Library.Action Halquen.Library.Action.Act Halquen.Library.Rules
open Halquen.Service.State Halquen.Service.Proposals Halquen.Service.Confirmations
open Halquen.Service.Handler Halquen.Service.SingleUse
open Halquen.Storage.Audit Halquen.Storage.Interaction Halquen.Storage.Sqlite

/-- The audit trail has a record about the execution. -/
def OnRecord (t : AuditTables) (x : ExecutionId) : Prop :=
  ∃ record ∈ t.auditRecords, record.event.subject = x.asStr

instance (t : AuditTables) (x : ExecutionId) : Decidable (OnRecord t x) :=
  inferInstanceAs (Decidable (∃ record ∈ t.auditRecords, _))

/-- An executor was invoked between the two states. -/
def Invoked (d d' : ServiceData) (authorization : ExecutionAuthorization) (reply : ExecutorReply) :
    Prop :=
  ∃ effects executor, d'.history = d.history ++ effects ∧
    .invoked executor authorization reply ∈ effects

/-- The identifiers that are generated up to this consultation are in no table, and no two are
equal. They are made of the time, the process and a counter. -/
structure NewIdentifiers (W : World) (s : ServiceState) (hi : Nat) : Prop where
  distinct : ∀ m n, s.consulted ≤ m → m < n → n < hi →
    (TypedId.generate .audit (W.stamp m)) ≠ .generate .audit (W.stamp n)
  records : ∀ n, s.consulted ≤ n → n < hi →
    s.data.database.audit.Fresh (.generate .audit (W.stamp n))
  executions : ∀ n, s.consulted ≤ n → n < hi → ∀ e ∈ s.data.database.audit.executions,
    e.executionId ≠ .generate .execution (W.stamp n)
  subjects : ∀ n, s.consulted ≤ n → n < hi →
    ¬ OnRecord s.data.database.audit (.generate .execution (W.stamp n))
  uses : ∀ n, s.consulted ≤ n → n < hi →
    ∀ row ∈ s.data.database.interaction.intentUsageEvents,
      row.id ≠ .generate .behaviourEvent (W.stamp n)

section

variable {W : World}

/-! ## The write of the record -/

theorem version_pos {descriptor : CapabilityDescriptor} (h : descriptor.validate = .ok ()) :
    0 < descriptor.version.toNat := by
  rw [CapabilityDescriptor.validate, firstFailure_eq_ok_iff] at h
  simp only [silent_cons, rule_eq_none_iff, beq_eq_false_iff_ne] at h
  have hne : descriptor.version ≠ 0 := h.2.1
  rw [Nat.pos_iff_ne_zero]
  intro hzero
  exact hne (UInt32.toNat_inj.mp hzero)

/-- Records under generated identifiers can be added. -/
theorem appendable_of_written {s : ServiceState} {lo hi hi' : Nat} (hnew : NewIdentifiers W s hi')
    {events : List AuditEvent} {records : List AuditRecord} (hlo : s.consulted ≤ lo)
    (hhi : hi ≤ hi')
    (hwritten : Written W lo hi events records) : s.data.database.audit.Appendable records := by
  obtain ⟨ticks, hsorted, hbounds, hids⟩ := hwritten.stamps
  have hwithin : ∀ n ∈ ticks, s.consulted ≤ n ∧ n < hi' := fun n hn =>
    ⟨Nat.le_trans hlo (hbounds n hn).1, Nat.lt_of_lt_of_le (hbounds n hn).2 hhi⟩
  constructor
  · rw [hids, List.Nodup, List.pairwise_map]
    -- The ticks increase, and identifiers of different ticks differ.
    refine List.Pairwise.imp_of_mem ?_ hsorted
    intro m n hm hn hlt
    exact hnew.distinct m n (hwithin m hm).1 hlt (hwithin n hn).2
  · intro record hrecord
    have hid : record.id ∈ records.map AuditRecord.id := List.mem_map_of_mem hrecord
    rw [hids] at hid
    obtain ⟨n, hn, heq⟩ := List.mem_map.mp hid
    rw [← heq]
    exact hnew.records n (hwithin n hn).1 (hwithin n hn).2

/-- The execution is on record if and only if the write of its record did not fail. -/
theorem onRecord_finished_iff {s : ServiceState} {lo hi hi' : Nat} (hnew : NewIdentifiers W s hi')
    (hstart : s.consulted < hi') {p : Prepared} (hvalid : p.descriptor.validate = .ok ())
    (hid : p.executionId = .generate .execution (W.stamp s.consulted)) {events : List AuditEvent}
    (hevents : ∃ event ∈ events, event.subject = p.executionId.asStr) {settled : Settlement}
    (hlo : s.consulted ≤ lo) (hhi : hi ≤ hi') {fails : Bool} {d d' : ServiceData}
    (hd : d.database.audit = s.data.database.audit) {r : Except Failure ExecutionReceipt}
    (h : Finished W p events settled lo hi fails d r d') :
    OnRecord d'.database.audit p.executionId ↔ fails = false := by
  cases h with
  | recorded finishedAtMs records hwritten hfails hadmits =>
      -- The records were written, and one of them is about this execution.
      refine iff_of_true ?_ hfails
      obtain ⟨event, hevent, hsubject⟩ := hevents
      rw [← hwritten.events] at hevent
      obtain ⟨record, hrecord, rfl⟩ := List.mem_map.mp hevent
      exact ⟨record, List.mem_append_right _ hrecord, hsubject⟩
  | unrecorded finishedAtMs records hwritten hrefused =>
      -- The new identifiers are not in the tables, so the tables take the receipt and its records.
      have hadmits : d.database.audit.Admits (p.receipt settled finishedAtMs) := by
        refine ⟨version_pos hvalid, Int.le_max_right _ _, ?_⟩
        rw [hd]
        change ∀ e ∈ s.data.database.audit.executions, e.executionId ≠ p.executionId
        rw [hid]
        exact hnew.executions s.consulted (Nat.le_refl _) hstart
      have happendable : d.database.audit.Appendable records := by
        rw [hd]
        exact appendable_of_written hnew hlo hhi hwritten
      -- Nothing but a failing call can have refused the write.
      have hfails : fails = true := hrefused.resolve_right fun hnot => hnot ⟨hadmits, happendable⟩
      refine iff_of_false ?_ (by simp [hfails])
      change ¬ OnRecord d.database.audit p.executionId
      rw [hd, hid]
      exact hnew.subjects s.consulted (Nat.le_refl _) hstart

/-! ## Invocations -/

section

variable {quiet : Effect → Prop}
  (hquiet : ∀ executor authorization reply, ¬ quiet (.invoked executor authorization reply))
include hquiet

theorem not_invoked_of_forall {d d' : ServiceData} {effects : List Effect}
    (hhistory : d'.history = d.history ++ effects) (hall : ∀ e ∈ effects, quiet e)
    {authorization : ExecutionAuthorization} {reply : ExecutorReply} :
    ¬ Invoked d d' authorization reply := by
  rintro ⟨effects', executor, hhistory', hmem⟩
  rw [hhistory] at hhistory'
  rw [← List.append_cancel_left hhistory'] at hmem
  exact hquiet _ _ _ (hall _ hmem)

/-- The one invocation among these effects. -/
theorem invoked_iff_of_forall {d d' : ServiceData} {before after : List Effect}
    {executor : ExecutorKind} {authorization : ExecutionAuthorization} {reply : ExecutorReply}
    (hhistory :
      d'.history = d.history ++ (before ++ .invoked executor authorization reply :: after))
    (hbefore : ∀ e ∈ before, quiet e) (hafter : ∀ e ∈ after, quiet e)
    {authorization' : ExecutionAuthorization} {reply' : ExecutorReply} :
    Invoked d d' authorization' reply' ↔ authorization' = authorization ∧ reply' = reply := by
  constructor
  · rintro ⟨effects, executor', hhistory', hmem⟩
    rw [hhistory] at hhistory'
    rw [← List.append_cancel_left hhistory', List.mem_append, List.mem_cons] at hmem
    rcases hmem with hmem | heq | hmem
    · exact absurd (hbefore _ hmem) (hquiet _ _ _)
    · injection heq with _ hauthorization hreply
      exact ⟨hauthorization, hreply⟩
    · exact absurd (hafter _ hmem) (hquiet _ _ _)
  · rintro ⟨rfl, rfl⟩
    exact ⟨_, executor, hhistory, by simp⟩

end

theorem not_invoked_of_idle {d d' : ServiceData} {effects : List Effect}
    (hhistory : d'.history = d.history ++ effects) (hidle : ∀ e ∈ effects, Idle e)
    {authorization : ExecutionAuthorization} {reply : ExecutorReply} :
    ¬ Invoked d d' authorization reply :=
  not_invoked_of_forall (fun _ _ _ => id) hhistory hidle

theorem eq_of_invoked {d d' : ServiceData} {before after : List Effect} {executor : ExecutorKind}
    {authorization authorization' : ExecutionAuthorization} {reply reply' : ExecutorReply}
    (hhistory :
      d'.history = d.history ++ (before ++ .invoked executor authorization reply :: after))
    (hbefore : ∀ e ∈ before, Idle e) (hafter : ∀ e ∈ after, Idle e)
    (h : Invoked d d' authorization' reply') :
    authorization' = authorization ∧ reply' = reply :=
  (invoked_iff_of_forall (fun _ _ _ => id) hhistory hbefore hafter).mp h

theorem not_invoked_of_stopped {d d' : ServiceData} (h : Stopped d d')
    {authorization : ExecutionAuthorization} {reply : ExecutorReply} :
    ¬ Invoked d d' authorization reply := by
  obtain ⟨rows, effects, rfl, hidle⟩ := h.data
  exact not_invoked_of_idle rfl hidle

theorem subject_requestedEvents (p : Prepared) (rest : List AuditEvent) :
    ∃ event ∈ p.requestedEvents ++ rest, event.subject = p.executionId.asStr :=
  ⟨_, List.mem_append_left _ (List.mem_cons_self ..), rfl⟩

/-- An invocation by `perform` is on record if and only if the write did not fail. -/
theorem onRecord_performed_iff {s s₁ s' : ServiceState} {hi : Nat} (hnew : NewIdentifiers W s hi)
    (hstart : s.consulted < hi) (hhi : s'.consulted ≤ hi) (hquiet : Quiet s s₁)
    {asked : ActionProposal} {sessionId : Option ChatSessionId} {p : Prepared}
    (hp : Prepares W PolicyEngine.authorizeProposal asked sessionId s p)
    {executor : ExecutorKind} {r : Except Failure ExecutionReceipt}
    (h : Performed W p sessionId executor s₁ r s') {authorization : ExecutionAuthorization}
    {reply : ExecutorReply} (hinvoked : Invoked s.data s'.data authorization reply) :
    OnRecord s'.data.database.audit authorization.executionId ↔
      W.fails .recordExecution (s.calls .recordExecution) = false := by
  rw [Performed, hquiet.data] at h
  rcases h with ⟨-, hstopped⟩ | ⟨d, events, settled, hacted, hfinished⟩
  · exact (not_invoked_of_stopped hstopped hinvoked).elim
  obtain ⟨rest, hrest, hidle⟩ := history_finished hfinished
  cases hacted with
  | blocked => exact (not_invoked_of_idle hrest hidle hinvoked).elim
  | executed authorization' reply' claimed hauthorization hclaim =>
      obtain ⟨rows, effects, rfl, hclaimed⟩ := hclaim.stopped.data
      have hhistory : s'.data.history =
          s.data.history ++ (effects ++ .invoked executor authorization' reply' :: rest) := by
        rw [hrest]
        simp [ServiceData.note, ServiceData.withGrants, ServiceData.withDatabase]
      obtain ⟨rfl, rfl⟩ := eq_of_invoked hhistory hclaimed hidle hinvoked
      have hvalid := (CapabilityRegistry.valid_of_get hp.descriptor).1
      rw [(hp.coherent.carries authorization hauthorization).1, ← hquiet.calls _ rfl]
      refine onRecord_finished_iff hnew hstart hvalid hp.executionId ?_ hquiet.consulted hhi ?_
        hfinished
      · rw [List.append_assoc]
        exact subject_requestedEvents p _
      · rfl

/-- New identifiers keep the use of an application from being refused by the tables. -/
theorem fails_of_usageRefused {s s₁ : ServiceState} {hi hi' : Nat}
    (hnew : NewIdentifiers W s hi') (hle : s.consulted ≤ s₁.consulted) (hhi : hi ≤ hi')
    (htables : s₁.data.database.interaction = s.data.database.interaction)
    {app : EntityId} (h : UsageRefused W s₁ hi app) :
    W.fails .recordIntentUsage (s₁.calls .recordIntentUsage) = true := by
  rcases h with hfails | ⟨n, createdAtMs, e, hn, hn', herror⟩
  · exact hfails
  · rw [htables, recordIntentUsage_ok rfl rfl] at herror
    · cases herror
    · exact hnew.uses n (Nat.le_trans hle hn) (Nat.lt_of_lt_of_le hn' hhi)

/-- An invocation by `performConfirmed` is on record if and only if neither the write nor the write
of the intent usage before it failed. -/
theorem onRecord_performedConfirmed_iff {s s₁ s' : ServiceState} {hi : Nat}
    (hnew : NewIdentifiers W s hi) (hstart : s.consulted < hi) (hhi : s'.consulted ≤ hi)
    {asked : ActionProposal} {sessionId : Option ChatSessionId} {p : Prepared}
    (hp : Prepares W PolicyEngine.authorizeConfirmedProposalOnce asked sessionId s p)
    {authorization : ExecutionAuthorization}
    (hauthorization : p.evaluation.authorization = some authorization)
    {rows : List Storage.Grants.GrantRow} (hdata : s₁.data = s.data.withGrants rows)
    (hle : s.consulted ≤ s₁.consulted)
    (hcalls : ∀ m, m.isWrite = true → m ≠ .upsertPermissionGrant → s₁.calls m = s.calls m)
    {r : Except Failure ExecutionReceipt} (h : PerformedConfirmed W p authorization s₁ r s')
    {authorization' : ExecutionAuthorization} {reply' : ExecutorReply}
    (hinvoked : Invoked s.data s'.data authorization' reply') :
    OnRecord s'.data.database.audit authorization'.executionId ↔
      W.fails .recordExecution (s.calls .recordExecution) = false ∧
        ((openedApp authorization'.action.arguments reply').isSome = true →
          W.fails .recordIntentUsage (s.calls .recordIntentUsage) = false) := by
  obtain ⟨hexecution, -, haction, -⟩ := hp.coherent_confirmed.carries authorization hauthorization
  have hvalid := (CapabilityRegistry.valid_of_get hp.descriptor).1
  rw [← hcalls .recordExecution rfl (by decide), ← hcalls .recordIntentUsage rfl (by decide)]
  obtain ⟨reply, t, ⟨-, hlost, app, happ, s₂, hle₂, hcalls₂, hdatabase₂, hrefused⟩ |
    ⟨hused, hfinished⟩⟩ := h
  · -- The use of the application was refused, and the execution is lost.
    have hhistory : s'.data.history = s.data.history ++
        ([] ++ .invoked .configured authorization reply :: [.refused .recordIntentUsage]) := by
      rw [hlost, hdata]
      simp [ServiceData.note, ServiceData.withGrants, ServiceData.withInteraction,
        ServiceData.withDatabase]
    obtain ⟨rfl, rfl⟩ := eq_of_invoked hhistory (by simp) (by simp [Idle]) hinvoked
    have htables : s₂.data.database.interaction = s.data.database.interaction := by
      rw [hdatabase₂, hdata]
      rfl
    have hfails := fails_of_usageRefused hnew (Nat.le_trans hle hle₂) hhi htables hrefused
    refine iff_of_false ?_ ?_
    -- The identifier of the execution is new, so nothing is on record about it.
    · rw [hlost, hdata, hexecution, hp.executionId]
      exact hnew.subjects s.consulted (Nat.le_refl _) hstart
    · rintro ⟨-, hclaim⟩
      rw [hcalls₂] at hfails
      rw [haction, ← hp.proposal, Option.isSome_of_mem happ, hfails] at hclaim
      cases hclaim rfl
  -- The use was recorded, and the write of the records decides.
  · obtain ⟨rest, hrest, hidle⟩ := history_finished hfinished
    have hhistory : s'.data.history = s.data.history ++
        ([] ++ .invoked .configured authorization reply :: rest) := by
      rw [hrest, hdata]
      simp [ServiceData.note, ServiceData.withGrants, ServiceData.withInteraction,
        ServiceData.withDatabase]
    obtain ⟨rfl, rfl⟩ := eq_of_invoked hhistory (by simp) hidle hinvoked
    have haudit : ((s₁.data.note [.invoked .configured authorization' reply']).withInteraction
        t).database.audit = s.data.database.audit := by
      rw [hdata]
      rfl
    rw [hexecution,
      onRecord_finished_iff hnew hstart hvalid hp.executionId ?_ hle hhi haudit hfinished]
    · refine (and_iff_left ?_).symm
      intro hsome
      obtain ⟨app, happ⟩ := Option.isSome_iff_exists.mp hsome
      rw [haction, ← hp.proposal] at happ
      exact hused app happ
    · rw [confirmedEvents, List.append_assoc]
      exact subject_requestedEvents p _

/-! ## Both pipelines -/

/-- The evaluation of an accepted confirmation begins after the clock has been read. -/
theorem newIdentifiers_taken {s : ServiceState} {hi : Nat} (h : NewIdentifiers W s hi)
    (c : String) : NewIdentifiers W (taken s c) hi where
  distinct m n hm := h.distinct m n (Nat.le_trans (Nat.le_succ _) hm)
  records n hn := h.records n (Nat.le_trans (Nat.le_succ _) hn)
  executions n hn := h.executions n (Nat.le_trans (Nat.le_succ _) hn)
  subjects n hn := h.subjects n (Nat.le_trans (Nat.le_succ _) hn)
  uses n hn := h.uses n (Nat.le_trans (Nat.le_succ _) hn)

theorem onRecord_processProposal_iff {s : ServiceState} {hi : Nat} (hnew : NewIdentifiers W s hi)
    (hstart : s.consulted < hi) (proposal : ActionProposal) (sessionId : Option ChatSessionId)
    (simulate : Bool) {authorization : ExecutionAuthorization} {reply : ExecutorReply} :
    Post (processProposal W proposal sessionId simulate) s fun _ s' =>
      s'.consulted ≤ hi → Invoked s.data s'.data authorization reply →
        (OnRecord s'.data.database.audit authorization.executionId ↔
          W.fails .recordExecution (s.calls .recordExecution) = false) := by
  rw [processProposal, post_bind]
  refine Post.mono (prepare_spec _ proposal sessionId s) ?_
  rintro (e | p) s₁ ⟨hquiet, hprepares⟩
  · intro _ hinvoked
    rw [hquiet.data] at hinvoked
    exact (not_invoked_of_idle (List.append_nil _).symm (by simp) hinvoked).elim
  · rw [next_ok, post_bind]
    refine Post.mono (perform_spec p sessionId simulate s₁) ?_
    intro r s' hperformed
    have hrecorded : s'.consulted ≤ hi → Invoked s.data s'.data authorization reply →
        (OnRecord s'.data.database.audit authorization.executionId ↔
          W.fails .recordExecution (s.calls .recordExecution) = false) := fun hhi hinvoked =>
      onRecord_performed_iff hnew hstart hhi hquiet (hprepares p rfl) hperformed.1 hinvoked
    cases r with
    | error e => exact hrecorded
    | ok receipt => exact hrecorded

theorem onRecord_answered_iff {s s' : ServiceState} {hi : Nat} (hnew : NewIdentifiers W s hi)
    (hstart : s.consulted + 1 < hi) (hhi : s'.consulted ≤ hi) {c : String} {allow : Bool}
    {r : Except Failure ProtocolResponse} (h : Answered W c allow s r s')
    {authorization : ExecutionAuthorization} {reply : ExecutorReply}
    (hinvoked : Invoked s.data s'.data authorization reply) :
    OnRecord s'.data.database.audit authorization.executionId ↔
      W.fails .recordExecution (s.calls .recordExecution) = false ∧
        ((openedApp authorization.action.arguments reply).isSome = true →
          W.fails .recordIntentUsage (s.calls .recordIntentUsage) = false) := by
  rcases h with ⟨-, -, rfl⟩ | ⟨pending, hwaiting, hanswered⟩
  · exact (not_invoked_of_idle (List.append_nil _).symm (by simp) hinvoked).elim
  rcases hanswered with ⟨-, -, rfl⟩ | ⟨-, ⟨-, hallowed⟩ | ⟨-, record, -, hrefused⟩⟩
  · exact (not_invoked_of_idle (List.append_nil _).symm (by simp) hinvoked).elim
  · rcases hallowed with ⟨-, hstopped⟩ |
      ⟨p, authorization', rows, s₁, r₁, hp, hauthorization, hdata, hle, hcalls, hperformed, -⟩
    · exact (not_invoked_of_stopped hstopped hinvoked).elim
    · exact onRecord_performedConfirmed_iff (newIdentifiers_taken hnew c) hstart hhi hp
        hauthorization hdata hle hcalls hperformed hinvoked
  · rcases hrefused with ⟨-, -, hdata⟩ | ⟨-, hdata⟩
    · have hhistory : s'.data.history = s.data.history ++ [] := by
        rw [hdata]
        exact (List.append_nil _).symm
      exact (not_invoked_of_idle hhistory (by simp) hinvoked).elim
    · have hhistory : s'.data.history = s.data.history ++ [.refused .appendAudit] := by
        rw [hdata]
        rfl
      exact (not_invoked_of_idle hhistory (by simp [Idle]) hinvoked).elim

/-- Whenever a request of either pipeline invokes an executor, the trail has a record of that
execution when the request returns, if and only if the write of the record does not fail and, for a
confirmed launch that was completed, the write of its use does not fail either. -/
theorem invocation_on_record (W : World) (s : ServiceState) (hi : Nat)
    (hnew : NewIdentifiers W s hi) (hroom : s.consulted + 1 < hi) :
    (∀ proposal sessionId simulate authorization reply,
      let s' := (processProposal W proposal sessionId simulate s).2
      s'.consulted ≤ hi → Invoked s.data s'.data authorization reply →
        (OnRecord s'.data.database.audit authorization.executionId ↔
          W.fails .recordExecution (s.calls .recordExecution) = false)) ∧
    (∀ c allow persistence expiresAtMs authorization reply,
      let s' := (confirmAction W c allow persistence expiresAtMs s).2
      s'.consulted ≤ hi → Invoked s.data s'.data authorization reply →
        (OnRecord s'.data.database.audit authorization.executionId ↔
          W.fails .recordExecution (s.calls .recordExecution) = false ∧
            ((openedApp authorization.action.arguments reply).isSome = true →
              W.fails .recordIntentUsage (s.calls .recordIntentUsage) = false))) := by
  constructor
  · intro proposal sessionId simulate authorization reply s' hhi hinvoked
    exact onRecord_processProposal_iff hnew (Nat.lt_of_succ_lt hroom) proposal sessionId simulate
      hhi hinvoked
  · intro c allow persistence expiresAtMs authorization reply s' hhi hinvoked
    exact onRecord_answered_iff hnew hroom hhi
      (confirmAction_spec c allow persistence expiresAtMs s) hinvoked

end

/-! ## A launch with its record and one without -/

/-- The user's own proposal to open the application. -/
def launchProposal : ActionProposal where
  action := ⟨openAppDescriptor.id, .openApp telegram⟩
  context := (ActionContext.trustedUser none).withResource
    ⟨.application, telegram.asStr, .«public»⟩

/-- Authorization of the first launch of a run. -/
def launchAuthorization : ExecutionAuthorization where
  executionId := .generate .execution ⟨0, 0, 2⟩
  descriptor := openAppDescriptor
  action := launchProposal.action
  grantedScopes := []

/-- The service on an empty database. -/
def firstState : ServiceState := initial (.steady (.listed [])) .launching .new

theorem newIdentifiers_firstState : NewIdentifiers (.steady (.listed [])) firstState 40 := by
  have haudit : firstState.data.database.audit = .empty := by decide
  have hinteraction : firstState.data.database.interaction = .empty := by decide
  constructor
  · intro m n _ hlt hn
    have hdistinct : ∀ m < 40, ∀ n < 40, m < n →
        (TypedId.generate .audit ((World.steady (.listed [])).stamp m)) ≠
          .generate .audit ((World.steady (.listed [])).stamp n) := by decide
    exact hdistinct m (Nat.lt_trans hlt hn) n hn hlt
  · intro n _ _
    rw [haudit]
    simp [AuditTables.Fresh, AuditTables.empty]
  · simp [haudit, AuditTables.empty]
  · simp [haudit, OnRecord, AuditTables.empty]
  · simp [hinteraction, InteractionTables.empty]

theorem invocation_on_record_launch :
    OnRecord (processProposal (.steady (.listed [])) launchProposal none false
      firstState).2.data.database.audit launchAuthorization.executionId :=
  ((invocation_on_record (.steady (.listed [])) firstState 40 newIdentifiers_firstState
    (by decide +kernel)).1 launchProposal none false launchAuthorization (.completed .launched)
      (by decide +kernel)
      ⟨[.invoked .configured launchAuthorization (.completed .launched)], .configured,
        by decide +kernel, List.mem_singleton_self _⟩).mpr rfl

/-- Every write of an intent usage fails. -/
def forgetfulWorld : World :=
  { World.steady (.listed []) with fails := fun method _ => method == .recordIntentUsage }

/-- Authorization of the launch that `acceptance` confirms. -/
def acceptedAuthorization : ExecutionAuthorization :=
  { launchAuthorization with executionId := .generate .execution ⟨0, 0, 28⟩ }

theorem launch_off_record :
    ¬ ∀ (W : World) (registry : CapabilityRegistry) (policy : PolicyEngine)
      (before : List Input) (c : String) (allow : Bool) (persistence : ConfirmationPersistence)
      (expiresAtMs : Option Int) (authorization : ExecutionAuthorization) (reply : ExecutorReply),
      let s := after W registry policy before
      let s' := (confirmAction W c allow persistence expiresAtMs s).2
      Invoked s.data s'.data authorization reply →
        OnRecord s'.data.database.audit authorization.executionId := by
  intro h
  have hlaunched : ¬ OnRecord (confirmAction forgetfulWorld waitingId true .once none
      (after forgetfulWorld .launching .new waitingRun)).2.data.database.audit
        acceptedAuthorization.executionId := by decide +kernel
  exact hlaunched (h forgetfulWorld .launching .new waitingRun waitingId true .once none
    acceptedAuthorization (.completed .launched)
    ⟨[.invoked .configured acceptedAuthorization (.completed .launched),
      .refused .recordIntentUsage], .configured, by decide +kernel, List.mem_cons_self ..⟩)

end Halquen.Service.Durability
