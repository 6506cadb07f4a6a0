import Halquen.Service.Durability

/-!
# Reports of launches

Opening an application ends with a receipt, a usage event and an answer to the user. The receipt
follows the reply of the executor. On the path of a chat the event and the answer follow the outcome
of the policy, and on the path of a confirmation the answer follows the acceptance: after a failed
or timed-out launch they say what the receipt does not
(`reported_iff_completed`).
-/

set_option autoImplicit false

namespace Halquen.Service.LaunchReports

open Halquen.Domain.Ids Halquen.Domain.Capability Halquen.Domain.Security Halquen.Domain.Interaction
open Halquen.Policy.Engine Halquen.Policy.Authorization Halquen.Capabilities.Executor
open Halquen.Audit.Receipt Halquen.Protocol.Messages
open Halquen.Library.Action Halquen.Library.Action.Act
open Halquen.Service.State Halquen.Service.Proposals Halquen.Service.Confirmations
open Halquen.Service.Chat Halquen.Service.Evolution Halquen.Service.Handler
open Halquen.Service.Durability
open Halquen.Storage.Grants (StorageError GrantRow)
open Halquen.Storage.Audit Halquen.Storage.Interaction Halquen.Storage.Sqlite

/-! ## Usage events -/

/-- No usage event was stored. -/
structure SameUses (s s' : ServiceState) : Prop where
  calls : s'.calls .recordIntentUsage = s.calls .recordIntentUsage
  uses : s'.data.database.interaction.intentUsageEvents =
    s.data.database.interaction.intentUsageEvents

instance : IsPreorder ServiceState SameUses where
  refl _ := ⟨rfl, rfl⟩
  trans _ _ _ h h' := ⟨h'.calls.trans h.calls, h'.uses.trans h.uses⟩

/-- One successful use of the application was stored, and no other usage event. -/
structure RecordedUse (app : EntityId) (s s' : ServiceState) : Prop where
  calls : s'.calls .recordIntentUsage = s.calls .recordIntentUsage + 1
  event : ∃ id createdAtMs t,
    t.intentUsageEvents = s.data.database.interaction.intentUsageEvents ∧
      (recordIntentUsage (usageEvent id app .success createdAtMs) t).1 = .ok () ∧
        s'.data.database.interaction.intentUsageEvents =
          (recordIntentUsage (usageEvent id app .success createdAtMs) t).2.intentUsageEvents

/-- Where the uses are the same none was recorded. -/
theorem not_recordedUse {app : EntityId} {s s' : ServiceState} (h : SameUses s s') :
    ¬ RecordedUse app s s' := by
  intro hrecorded
  have hcalls := hrecorded.calls
  rw [h.calls] at hcalls
  exact Nat.succ_ne_self _ hcalls.symm

/-- A use is recorded after steps that record none. -/
theorem RecordedUse.after {app : EntityId} {s s₁ s' : ServiceState} (h : RecordedUse app s₁ s')
    (hbefore : SameUses s s₁) : RecordedUse app s s' := by
  obtain ⟨id, createdAtMs, t, ht, hok, hs'⟩ := h.event
  exact ⟨by rw [h.calls, hbefore.calls], id, createdAtMs, t, ht.trans hbefore.uses, hok, hs'⟩

/-- A use stays recorded before steps that record none. -/
theorem RecordedUse.before {app : EntityId} {s s₁ s' : ServiceState} (h : RecordedUse app s s₁)
    (hafter : SameUses s₁ s') : RecordedUse app s s' := by
  obtain ⟨id, createdAtMs, t, ht, hok, hs₁⟩ := h.event
  exact ⟨by rw [hafter.calls, h.calls], id, createdAtMs, t, ht, hok, hafter.uses.trans hs₁⟩

/-- The database keeps the usage events. -/
def KeepsUses (d d' : Database) : Prop :=
  d'.interaction.intentUsageEvents = d.interaction.intentUsageEvents

section

variable {W : World} {α : Type}

theorem sameUses_of_quiet (s s' : ServiceState) (h : Quiet s s') : SameUses s s' :=
  ⟨h.calls _ rfl, by rw [h.data]⟩

theorem keeps_sameUses_consult (f : Nat → α) : Keeps SameUses (consult f) :=
  (keeps_quiet_consult f).mono sameUses_of_quiet

theorem keeps_sameUses_record (effects : List Effect) : Keeps SameUses (record effects) :=
  fun _ => ⟨rfl, rfl⟩

/-- Only one method records a use. -/
theorem keeps_sameUses_query {method : DbMethod} (hmethod : method ≠ .recordIntentUsage)
    {action : Act Database StorageError α} (h : Keeps KeepsUses action) :
    Keeps SameUses (query W method action) := by
  intro s
  change Post (query W method action) s fun _ s' => SameUses s s'
  rw [post_query]
  have hcalls : Function.update s.calls method (s.calls method + 1) .recordIntentUsage =
      s.calls .recordIntentUsage := Function.update_of_ne hmethod.symm _ _
  constructor
  · intro _
    exact ⟨hcalls, rfl⟩
  · intro _
    exact (h.post s.data.database).mono fun r d hd => ⟨hcalls, hd⟩

theorem keepsUses_onAudit (m : Act AuditTables StorageError α) : Keeps KeepsUses (onAudit m) :=
  fun _ => rfl

theorem keepsUses_onGrants (f : List GrantRow → Except StorageError α × List GrantRow) :
    Keeps KeepsUses (onGrants f) := fun _ => rfl

theorem keeps_sameUses_auditRecords (createdAtMs : Int) (events : List AuditEvent) :
    Keeps SameUses (auditRecords W createdAtMs events) := by
  induction events with
  | nil => exact keeps_pure _
  | cons event events ih =>
      exact (keeps_sameUses_consult _).bind fun _ => ih.bind fun _ => keeps_pure _

theorem keeps_sameUses_recordNow (event : AuditEvent) : Keeps SameUses (recordNow W event) :=
  (keeps_sameUses_consult _).bind fun _ => (keeps_sameUses_consult _).bind fun _ => keeps_pure _

theorem keeps_sameUses_claimDeciding (p : Prepared) (sessionId : Option ChatSessionId) :
    Keeps SameUses (claimDeciding W p sessionId) := by
  refine Keeps.ite (fun _ => ?_) fun _ => keeps_pure _
  refine Keeps.bind ?_ fun _ => keeps_require _ _
  refine (keeps_gets _).bind fun rows => ?_
  refine (keeps_sameUses_query (by decide) (keepsUses_onGrants _)).bind fun claimed => ?_
  exact (keeps_sameUses_record _).bind fun _ => keeps_pure _

theorem keeps_sameUses_execute (executor : ExecutorKind) (authorization : ExecutionAuthorization) :
    Keeps SameUses (execute W executor authorization) := by
  refine Keeps.bind ?_ fun reply => (keeps_sameUses_record _).bind fun _ => keeps_pure _
  cases executor with
  | configured => exact keeps_sameUses_consult _
  | dryRun => exact keeps_pure _

theorem keeps_sameUses_finishExecution (p : Prepared) (records : List AuditRecord)
    (settled : Settlement) : Keeps SameUses (finishExecution W p records settled) :=
  (keeps_sameUses_consult _).bind fun _ =>
    (keeps_sameUses_query (by decide) (keepsUses_onAudit _)).bind fun _ => keeps_pure _

/-- Processing a proposal stores no usage event. -/
theorem keeps_sameUses_perform (p : Prepared) (sessionId : Option ChatSessionId) (simulate : Bool) :
    Keeps SameUses (perform W p sessionId simulate) := by
  refine (keeps_sameUses_auditRecords _ _).bind fun requested => ?_
  cases p.evaluation.authorization with
  | some authorization =>
      refine (keeps_sameUses_claimDeciding p sessionId).bind fun _ => ?_
      refine (keeps_sameUses_auditRecords _ _).bind fun authorized => ?_
      refine (keeps_sameUses_execute _ _).bind fun reply => ?_
      exact (keeps_sameUses_recordNow _).bind fun _ => keeps_sameUses_finishExecution _ _ _
  | none => exact (keeps_sameUses_recordNow _).bind fun _ => keeps_sameUses_finishExecution _ _ _

/-- A use that is recorded without an error is stored. -/
theorem returns_recordUse (app : EntityId) (s : ServiceState) :
    Returns (recordUse W app) s fun _ s' => RecordedUse app s s' ∧
      s'.data = s.data.withInteraction s'.data.database.interaction := by
  rw [recordUse, returns_bind, returns_generate, returns_bind, returns_now]
  refine returns_query ?_
  change Post (onInteraction _) _ _
  rw [post_onInteraction]
  intro u hu
  refine ⟨⟨?_, _, _, s.data.database.interaction, rfl, hu, rfl⟩, ?_⟩
  · change Function.update s.calls DbMethod.recordIntentUsage _ DbMethod.recordIntentUsage = _
    rw [Function.update_self]
    rfl
  · simp [ServiceState.called, ServiceData.withDatabase, ServiceData.withInteraction,
      ServiceData.note]

/-! ## Steps beside the launch -/

/-- An effect that is not the invocation of an executor. -/
def Uninvoked : Effect → Prop
  | .invoked .. => False
  | .claimed .. | .issued _ | .refused _ => True

/-- Neither a usage event nor an execution was stored, and no executor was invoked. -/
structure Aside (s s' : ServiceState) : Prop extends SameUses s s' where
  executions : s'.data.database.audit.executions = s.data.database.audit.executions
  history : ∃ effects, s'.data.history = s.data.history ++ effects ∧ ∀ e ∈ effects, Uninvoked e

instance : IsPreorder ServiceState Aside where
  refl _ := ⟨⟨rfl, rfl⟩, rfl, [], (List.append_nil _).symm, by simp⟩
  trans _ _ _ h h' := by
    obtain ⟨effects, hhistory, huninvoked⟩ := h.history
    obtain ⟨effects', hhistory', huninvoked'⟩ := h'.history
    refine ⟨trans_of SameUses h.toSameUses h'.toSameUses, h'.executions.trans h.executions,
      effects ++ effects', ?_, ?_⟩
    · rw [hhistory', hhistory, List.append_assoc]
    · intro e he
      exact (List.mem_append.mp he).elim (huninvoked e) (huninvoked' e)

theorem aside_of_quiet (s s' : ServiceState) (h : Quiet s s') : Aside s s' :=
  ⟨sameUses_of_quiet s s' h, by rw [h.data], [], by rw [h.data, List.append_nil], by simp⟩

/-- A method that leaves the usage events and the executions alone. -/
theorem keeps_aside_query {method : DbMethod} (hmethod : method ≠ .recordIntentUsage)
    {action : Act Database StorageError α} (huses : Keeps KeepsUses action)
    (hexecutions : Keeps (fun d d' => d'.audit.executions = d.audit.executions) action) :
    Keeps Aside (query W method action) := by
  intro s
  change Post (query W method action) s fun _ s' => Aside s s'
  refine Post.mono (Q := fun _ s' => SameUses s s' ∧
    s'.data.database.audit.executions = s.data.database.audit.executions ∧
      ∃ effects, s'.data.history = s.data.history ++ effects ∧ ∀ e ∈ effects, Uninvoked e) ?_
    fun _ _ h => ⟨h.1, h.2.1, h.2.2⟩
  refine ((keeps_sameUses_query hmethod huses).post s).and ?_
  rw [post_query]
  have huninvoked : ∀ (cond : Bool), ∀ e ∈ (if cond then [Effect.refused method] else []),
      Uninvoked e := by
    intro cond e he
    cases cond <;> simp at he
    rw [he]
    trivial
  constructor
  · intro _
    exact ⟨rfl, _, rfl, huninvoked _⟩
  · intro _
    exact (hexecutions.post s.data.database).mono fun r d hd => ⟨hd, _, rfl, huninvoked _⟩

/-- A method on the tables of the interaction that stores no usage event. -/
theorem keeps_aside_interaction {method : DbMethod} (hmethod : method ≠ .recordIntentUsage)
    {action : Act InteractionTables StorageError α}
    (h : Keeps (fun t t' => t'.intentUsageEvents = t.intentUsageEvents) action) :
    Keeps Aside (query W method (onInteraction action)) :=
  keeps_aside_query hmethod (fun d => h d.interaction) fun _ => rfl

instance : IsPreorder InteractionTables fun t t' => t'.intentUsageEvents = t.intentUsageEvents where
  refl _ := rfl
  trans _ _ _ h h' := h'.trans h

theorem keeps_aside_activity (sessionId : Option ChatSessionId) (correlationId : String)
    (kind : ActivityKind) (summary : String) (detail : Option String) :
    Keeps Aside (activity W sessionId correlationId kind summary detail) := by
  refine ((keeps_quiet_generate _).mono aside_of_quiet).bind fun id => ?_
  refine (keeps_quiet_now.mono aside_of_quiet).bind fun createdAtMs => ?_
  apply keeps_aside_interaction (by decide)
  refine (keeps_require _ _).bind fun _ => (keeps_gets _).bind fun _ => ?_
  exact (keeps_require _ _).bind fun _ => (keeps_orThrow _ _).bind fun _ =>
    keeps_modify fun _ => rfl

theorem keeps_aside_countUsage (delta : UsageStats) : Keeps Aside (countUsage W delta) := by
  apply keeps_aside_interaction (by decide)
  refine (keeps_require _ _).bind fun _ => (keeps_gets _).bind fun _ => ?_
  exact (keeps_require _ _).bind fun _ => keeps_modify fun _ => rfl

theorem keeps_aside_answer (session : ChatSession) (userMessage : ChatMessage) (content : String)
    (route : ChatRoute) (confirmation : Option ConfirmationPrompt) :
    Keeps Aside (answer W session userMessage content route confirmation) := by
  refine Keeps.bind ?_ fun message => Keeps.bind ?_ fun _ => keeps_pure _
  · refine ((keeps_quiet_generate _).mono aside_of_quiet).bind fun _ => ?_
    refine ((keeps_quiet_consult _).mono aside_of_quiet).bind fun _ => ?_
    exact (keeps_quiet_now.mono aside_of_quiet).bind fun _ => keeps_pure _
  · apply keeps_aside_interaction (by decide)
    refine (keeps_require _ _).bind fun _ => (keeps_require _ _).bind fun _ => ?_
    apply Keeps.transaction
    refine (keeps_gets _).bind fun _ => (keeps_require _ _).bind fun _ => ?_
    exact (keeps_orThrow _ _).bind fun _ => keeps_modify fun _ => rfl

theorem keeps_aside_issueConfirmation (proposal : ActionProposal) (receipt : ExecutionReceipt)
    (session : ChatSession) (displayName : String) :
    Keeps Aside (issueConfirmation W proposal receipt session displayName) := by
  refine ((keeps_quiet_consult _).mono aside_of_quiet).bind fun confirmationId => ?_
  refine (keeps_quiet_now.mono aside_of_quiet).bind fun nowMs => ?_
  refine Keeps.bind ?_ fun _ => keeps_pure _
  exact keeps_modify fun s => ⟨⟨rfl, rfl⟩, rfl, [.issued confirmationId], rfl, by simp [Uninvoked]⟩

/-! ## The path of a chat -/

/-- Status of the receipt after a reply of the executor. -/
def replyStatus (reply : ExecutorReply) : ExecutionStatus := (settlement proposalTexts reply).status

/-- The executor neither rejected the request nor exceeded its time. -/
def Completed (reply : ExecutorReply) : Prop := ∃ code, reply = .completed code

/-- The receipt of a launch that the policy has not allowed. -/
structure Blocked (s s' : ServiceState) (receipt : ExecutionReceipt) : Prop where
  status : receipt.status = .notExecuted
  executions : s'.data.database.audit.executions = s.data.database.audit.executions ++ [receipt]
  history : ∃ effects, s'.data.history = s.data.history ++ effects ∧ ∀ e ∈ effects, Uninvoked e

/-- The receipt of a launch, and the one invocation behind it. -/
structure Executed (s s' : ServiceState) (receipt : ExecutionReceipt)
    (authorization : ExecutionAuthorization) (reply : ExecutorReply) : Prop where
  status : receipt.status = replyStatus reply
  executions : s'.data.database.audit.executions = s.data.database.audit.executions ++ [receipt]
  history : ∃ before after, s'.data.history =
      s.data.history ++ (before ++ .invoked .configured authorization reply :: after) ∧
    (∀ e ∈ before, Uninvoked e) ∧ ∀ e ∈ after, Uninvoked e

/-- A blocked proposal may stand between steps aside. -/
theorem Blocked.aside {s s₁ s₂ s' : ServiceState} {receipt : ExecutionReceipt}
    (h : Blocked s₁ s₂ receipt) (hbefore : Aside s s₁) (hafter : Aside s₂ s') :
    Blocked s s' receipt := by
  obtain ⟨effects, hhistory, huninvoked⟩ := h.history
  obtain ⟨before, hbefore', hb⟩ := hbefore.history
  obtain ⟨after, hafter', ha⟩ := hafter.history
  refine ⟨h.status, ?_, before ++ effects ++ after, ?_, ?_⟩
  · rw [hafter.executions, h.executions, hbefore.executions]
  · rw [hafter', hhistory, hbefore']
    simp only [List.append_assoc]
  · intro e he
    rw [List.mem_append, List.mem_append] at he
    rcases he with (he | he) | he
    · exact hb e he
    · exact huninvoked e he
    · exact ha e he

/-- So may one that was executed. -/
theorem Executed.aside {s s₁ s₂ s' : ServiceState} {receipt : ExecutionReceipt}
    {authorization : ExecutionAuthorization} {reply : ExecutorReply}
    (h : Executed s₁ s₂ receipt authorization reply) (hbefore : Aside s s₁) (hafter : Aside s₂ s') :
    Executed s s' receipt authorization reply := by
  obtain ⟨before, after, hhistory, hb, ha⟩ := h.history
  obtain ⟨before', hbefore', hb'⟩ := hbefore.history
  obtain ⟨after', hafter', ha'⟩ := hafter.history
  refine ⟨h.status, ?_, before' ++ before, after ++ after', ?_, ?_, ?_⟩
  · rw [hafter.executions, h.executions, hbefore.executions]
  · rw [hafter', hhistory, hbefore']
    simp only [List.append_assoc, List.cons_append]
  · intro e he
    exact (List.mem_append.mp he).elim (hb' e) (hb e)
  · intro e he
    exact (List.mem_append.mp he).elim (ha e) (ha' e)

/-- Nothing is invoked behind the receipt of a blocked launch. -/
theorem not_invoked_of_blocked {s s' : ServiceState} {receipt : ExecutionReceipt}
    (h : Blocked s s' receipt) {authorization : ExecutionAuthorization} {reply : ExecutorReply} :
    ¬ Invoked s.data s'.data authorization reply := by
  obtain ⟨effects, hhistory, huninvoked⟩ := h.history
  exact not_invoked_of_forall (fun _ _ _ => id) hhistory huninvoked

/-- An execution invokes what it was authorized for, and nothing else. -/
theorem invoked_of_executed {s s' : ServiceState} {receipt : ExecutionReceipt}
    {authorization : ExecutionAuthorization} {reply : ExecutorReply}
    (h : Executed s s' receipt authorization reply) {authorization' : ExecutionAuthorization}
    {reply' : ExecutorReply} :
    Invoked s.data s'.data authorization' reply' ↔
      authorization' = authorization ∧ reply' = reply := by
  obtain ⟨before, after, hhistory, hb, ha⟩ := h.history
  exact invoked_iff_of_forall (fun _ _ _ => id) hhistory hb ha

/-- How the execution of a proposal ends with a response. -/
theorem returns_executeProposal (proposal : ActionProposal) (sessionId : Option ChatSessionId)
    (s : ServiceState) :
    Returns (executeProposal W proposal sessionId) s fun response s' =>
      SameUses s s' ∧ ∃ decision receipt, response = .execution decision receipt ∧
        (decision.outcome ≠ .allow ∧ Blocked s s' receipt ∨
          decision.outcome = .allow ∧ ∃ authorization reply,
            Executed s s' receipt authorization reply) := by
  rw [executeProposal, processProposal, returns_bind]
  refine Post.mono (prepare_spec PolicyEngine.authorizeProposal proposal sessionId s) ?_
  rintro r s₁ ⟨hquiet, hprepares⟩ p rfl
  have hcoherent := (hprepares p rfl).coherent
  rw [returns_bind]
  refine Post.mono (((keeps_sameUses_perform p sessionId false).post s₁).and
    (perform_spec p sessionId false s₁)) ?_
  rintro r s' ⟨hsame, hperformed, -⟩ receipt rfl
  rw [returns_pure]
  refine ⟨trans_of SameUses (sameUses_of_quiet _ _ hquiet) hsame, _, receipt, rfl, ?_⟩
  rcases hperformed with ⟨⟨e, he⟩, -⟩ | ⟨d, events, settled, hacted, hfinished⟩
  · cases he
  rw [hquiet.data] at hacted
  generalize hdata : s'.data = d' at hfinished
  cases hfinished with
  | recorded finishedAtMs records hwritten hfails hadmits =>
      cases hacted with
      -- Nothing was authorized: the decision is not to allow.
      | blocked hblocked =>
          refine .inl ⟨fun hallow => ?_, rfl, ?_, [], ?_, by simp⟩
          · have hsome := hcoherent.isSome_iff.mpr hallow
            rw [hblocked] at hsome
            cases hsome
          · rw [hdata]
            rfl
          · rw [hdata, List.append_nil]
            rfl
      -- The executor was called once, after the claim of a grant if one was needed.
      | executed authorization reply claimed hauthorization hclaim =>
          refine .inr ⟨hcoherent.isSome_iff.mp (by rw [hauthorization]; rfl), authorization, reply,
            rfl, ?_, ?_⟩
          · rw [hdata]
            cases hclaim <;> rfl
          · rw [hdata]
            cases hclaim with
            | unneeded => exact ⟨[], [], rfl, by simp, by simp⟩
            | claimed id row rows =>
                refine ⟨[.claimed row p.startedAtMs], [], ?_, by simp [Uninvoked], by simp⟩
                simp [ServiceData.recorded, ServiceData.withDatabase, ServiceData.note,
                  ServiceData.withGrants, executorFor]

/-- The answer in a chat reports a completed launch. -/
def reportsLaunch (content : String) : Bool :=
  "Launch request completed for ".toList.isPrefixOf content.toList

/-- The answer reports a launch unless it was simulated. -/
theorem reportsLaunch_openedContent (displayName : String) (status : ExecutionStatus) :
    reportsLaunch (openedContent displayName status) = true ↔ status ≠ .dryRunSucceeded := by
  unfold openedContent reportsLaunch
  split
  · rename_i hdry
    simp [hdry, String.toList_append, List.isPrefixOf]
  · rename_i hdry
    simp [hdry, String.toList_append, List.isPrefixOf]

/-- What opening an application leaves behind: a blocked launch, or a launch and its usage event. -/
def Opens (app : EntityId) (displayName : String) (s s' : ServiceState)
    (receipt : ExecutionReceipt) (content : String) : Prop :=
  (Blocked s s' receipt ∧ SameUses s s' ∧ reportsLaunch content = false) ∨
    ∃ authorization reply, Executed s s' receipt authorization reply ∧ RecordedUse app s s' ∧
      content = openedContent displayName receipt.status

theorem Opens.aside {app : EntityId} {displayName : String} {s s₁ s₂ s' : ServiceState}
    {receipt : ExecutionReceipt} {content : String}
    (h : Opens app displayName s₁ s₂ receipt content) (hbefore : Aside s s₁)
    (hafter : Aside s₂ s') : Opens app displayName s s' receipt content := by
  rcases h with ⟨hblocked, huses, hcontent⟩ | ⟨authorization, reply, hexecuted, huse, hcontent⟩
  · refine .inl ⟨hblocked.aside hbefore hafter, ?_, hcontent⟩
    exact trans_of SameUses hbefore.toSameUses (trans_of SameUses huses hafter.toSameUses)
  · refine .inr ⟨authorization, reply, hexecuted.aside hbefore hafter, ?_, hcontent⟩
    exact (huse.after hbefore.toSameUses).before hafter.toSameUses

/-- An opening that is answered was blocked or executed. -/
theorem returns_executeOpen (app : EntityId) (displayName : String) (session : ChatSession)
    (correlationId : String) (s : ServiceState) :
    Returns (executeOpen W app displayName session correlationId) s fun result s' =>
      ∃ receipt, Opens app displayName s s' receipt result.1 := by
  rw [executeOpen, returns_bind]
  refine Post.mono ((keeps_quiet_proposeOpen correlationId app).post s) ?_
  rintro r s₁ hquiet proposal rfl
  rw [returns_bind]
  refine (returns_executeProposal proposal (some session.id) s₁).mono ?_
  rintro response s₂ ⟨hsame, decision, receipt, rfl, hend⟩
  have hbefore : Aside s s₁ := aside_of_quiet _ _ hquiet
  rcases hend with ⟨hne, hblocked⟩ | ⟨hallow, authorization, reply, hexecuted⟩
  · -- Nothing was launched: the answer asks for a confirmation or denies.
    cases houtcome : decision.outcome with
    | allow => exact absurd houtcome hne
    | confirm =>
        simp only [answerExecution, houtcome]
        rw [returns_bind]
        refine Post.mono ((keeps_aside_issueConfirmation proposal receipt session displayName).post
          s₂) ?_
        rintro r s₃ hissued prompt rfl
        rw [returns_bind]
        refine Post.mono ((keeps_aside_activity (W := W) _ _ _ _ _).post s₃) ?_
        rintro r s' hactivity u rfl
        rw [returns_pure]
        have hopens : Opens app displayName s₁ s₂ receipt
            "Confirmation is required before this action can run." :=
          .inl ⟨hblocked, hsame, by decide⟩
        exact ⟨receipt, hopens.aside hbefore (trans_of Aside hissued hactivity)⟩
    | deny =>
        simp only [answerExecution, houtcome]
        rw [returns_pure]
        have hopens : Opens app displayName s₁ s₂ receipt "Halquen denied this action." :=
          .inl ⟨hblocked, hsame, by decide⟩
        exact ⟨receipt, hopens.aside hbefore (refl_of Aside s₂)⟩
  -- The action was executed: its use is recorded before the answer.
  · simp only [answerExecution, hallow]
    rw [returns_bind]
    refine (returns_recordUse app s₂).mono ?_
    rintro u s₃ ⟨huse, hdata₃⟩
    rw [returns_bind]
    refine Post.mono ((keeps_aside_activity (W := W) _ _ _ _ _).post s₃) ?_
    rintro r s' hactivity v rfl
    rw [returns_pure]
    have hexecuted₃ : Executed s₁ s₃ receipt authorization reply := by
      refine ⟨hexecuted.status, ?_, ?_⟩
      · rw [hdata₃]
        exact hexecuted.executions
      · rw [hdata₃]
        exact hexecuted.history
    have hopens : Opens app displayName s₁ s₃ receipt (openedContent displayName receipt.status) :=
      .inr ⟨authorization, reply, hexecuted₃, huse.after hsame, rfl⟩
    exact ⟨receipt, hopens.aside hbefore hactivity⟩

theorem returns_consult {f : Nat → α} {s : ServiceState} {Q : α → ServiceState → Prop} :
    Returns (consult f) s Q ↔ Q (f s.consulted) s.next := by
  simp [Returns]

theorem returns_answer (session : ChatSession) (userMessage : ChatMessage) (content : String)
    (route : ChatRoute) (confirmation : Option ConfirmationPrompt) (s : ServiceState) :
    Returns (answer W session userMessage content route confirmation) s fun response _ =>
      ∃ message, response = .chat ⟨session, userMessage, message, confirmation⟩ ∧
        message.content = content := by
  simp only [answer, assistantMessage, finishChat, returns_bind, returns_generate, returns_consult,
    returns_now, returns_pure]
  refine returns_query ?_
  intro u hu
  exact ⟨_, rfl, rfl⟩

/-- A chat that opens an application is answered with what came of it. -/
theorem returns_openApp (displayName : String) (entityId : EntityId) (session : ChatSession)
    (userMessage : ChatMessage) (correlationId : String) (s : ServiceState) :
    Returns (openApp W displayName entityId session userMessage correlationId) s fun response s' =>
      let target := aliased W displayName entityId
        (Storage.Memory.preferenceByKey s.data.database.memory displayName)
      ∃ receipt message prompt, response = .chat ⟨session, userMessage, message, prompt⟩ ∧
        Opens target.2 target.1 s s' receipt message.content := by
  rw [openApp, returns_bind]
  refine Post.mono (((keeps_quiet_read rfl _).post s).and (returns_read rfl _ s)) ?_
  rintro r s₁ ⟨hquiet, hread⟩ preferred rfl
  -- The name is looked up among the preferences before it is opened.
  obtain ⟨hpreferred, -⟩ := hread preferred rfl
  cases hpreferred
  rw [returns_bind]
  refine (returns_executeOpen _ _ session correlationId s₁).mono ?_
  rintro result s₂ ⟨receipt, hopens⟩
  rw [returns_bind]
  refine Post.mono ((keeps_aside_countUsage (W := W) oneLocalResolution).post s₂) ?_
  rintro r s₃ hcounted u rfl
  rw [returns_bind]
  refine Post.mono ((keeps_aside_activity (W := W) _ _ _ _ _).post s₃) ?_
  rintro r s₄ hactivity v rfl
  refine Post.mono (((keeps_aside_answer (W := W) session userMessage result.1 .localCapability
    result.2).post s₄).and (returns_answer session userMessage result.1 .localCapability result.2
      s₄)) ?_
  rintro r s' ⟨hanswered, hresponse⟩ response rfl
  obtain ⟨message, rfl, hcontent⟩ := hresponse response rfl
  -- What follows the execution counts usage, notes the activity and stores the answer.
  have hafter : Aside s₂ s' := trans_of Aside hcounted (trans_of Aside hactivity hanswered)
  refine ⟨receipt, message, result.2, rfl, ?_⟩
  rw [hcontent]
  exact hopens.aside (aside_of_quiet _ _ hquiet) hafter

/-- The claim on the three observations: the receipt, the usage event and the answer. -/
def Faithful (app : EntityId) (s s' : ServiceState) (receipt : ExecutionReceipt) (reported : Bool) :
    Prop :=
  (RecordedUse app s s' ↔ receipt.status = .dryRunSucceeded ∨ receipt.status = .succeeded) ∧
    (reported = true → receipt.status = .succeeded)

/-- The receipt records a success if the executor has completed. -/
theorem replyStatus_succeeds (reply : ExecutorReply) :
    (replyStatus reply = .dryRunSucceeded ∨ replyStatus reply = .succeeded) ↔ Completed reply := by
  cases reply with
  | completed code => cases code <;> simp [replyStatus, settlement, resultStatus, Completed]
  | rejected error => simp [replyStatus, settlement, Completed]
  | timedOut => simp [replyStatus, settlement, Completed]

/-- The report is faithful if every invocation was completed. -/
theorem opens_faithful_iff {app : EntityId} {displayName : String} {s s' : ServiceState}
    {receipt : ExecutionReceipt} {content : String}
    (h : Opens app displayName s s' receipt content) :
    Faithful app s s' receipt (reportsLaunch content) ↔
      ∀ authorization reply, Invoked s.data s'.data authorization reply → Completed reply := by
  rcases h with ⟨hblocked, huses, hcontent⟩ | ⟨authorization, reply, hexecuted, huse, rfl⟩
  · refine iff_of_true ⟨iff_of_false (not_recordedUse huses) ?_, ?_⟩ ?_
    · simp [hblocked.status]
    · simp [hcontent]
    · intro authorization reply hinvoked
      exact absurd hinvoked (not_invoked_of_blocked hblocked)
  · have hinvoked : (∀ authorization' reply', Invoked s.data s'.data authorization' reply' →
        Completed reply') ↔ Completed reply := by
      constructor
      · exact fun h => h authorization reply ((invoked_of_executed hexecuted).mpr ⟨rfl, rfl⟩)
      · intro h authorization' reply' hinvoked
        rw [((invoked_of_executed hexecuted).mp hinvoked).2]
        exact h
    rw [hinvoked, ← replyStatus_succeeds, ← hexecuted.status]
    constructor
    · exact fun h => h.1.mp huse
    · intro hcompleted
      refine ⟨iff_of_true huse hcompleted, fun hreported => ?_⟩
      exact hcompleted.resolve_left ((reportsLaunch_openedContent _ _).mp hreported)

/-! ## The path of a confirmation -/

/-- The answer to a confirmation reports a completed launch. -/
def reportsConfirmedLaunch (message : String) : Bool :=
  ": confirmed execution completed".toList.isSuffixOf message.toList

/-- The message reports a launch unless it was simulated. -/
theorem reportsConfirmedLaunch_confirmationMessage (title : String) (status : ExecutionStatus) :
    reportsConfirmedLaunch (confirmationMessage title status) = true ↔
      status ≠ .dryRunSucceeded := by
  unfold confirmationMessage reportsConfirmedLaunch
  split
  · rename_i hdry
    simp [hdry, String.toList_append, List.isSuffixOf, List.isPrefixOf]
  · rename_i hdry
    simp [hdry, String.toList_append, List.isSuffixOf, List.isPrefixOf]

theorem keeps_aside_rememberConfirmation (pending : PendingConfirmation) (startedAtMs : Int)
    (persistence : ConfirmationPersistence) (expiresAtMs : Option Int) :
    Keeps Aside (rememberConfirmation W pending startedAtMs persistence expiresAtMs) := by
  refine Keeps.ite (fun _ => keeps_pure _) fun _ => ?_
  refine (keeps_ofExcept _).bind fun terms => ?_
  refine ((keeps_quiet_generate _).mono aside_of_quiet).bind fun id => ?_
  exact keeps_aside_query (by decide) (fun _ => rfl) fun _ => rfl

theorem keeps_aside_takePending (confirmationId : String) :
    Keeps Aside (takePending confirmationId) := by
  refine (keeps_gets _).bind fun found => (keeps_orThrow _ _).bind fun pending => ?_
  refine Keeps.bind ?_ fun _ => keeps_pure _
  exact keeps_modify fun s => ⟨⟨rfl, rfl⟩, rfl, [], (List.append_nil _).symm, by simp⟩

/-- What a confirmed launch leaves behind: one usage event if it was completed. -/
def Confirms (arguments : ActionArguments) (s s' : ServiceState) (receipt : ExecutionReceipt)
    : Prop :=
  ∃ authorization reply, Executed s s' receipt authorization reply ∧
    match openedApp arguments reply with
    | some app => RecordedUse app s s'
    | none => SameUses s s'

theorem Confirms.after {arguments : ActionArguments} {s s₁ s' : ServiceState}
    {receipt : ExecutionReceipt} (h : Confirms arguments s₁ s' receipt) (hbefore : Aside s s₁) :
    Confirms arguments s s' receipt := by
  obtain ⟨authorization, reply, hexecuted, huses⟩ := h
  refine ⟨authorization, reply, hexecuted.aside hbefore (refl_of Aside s'), ?_⟩
  cases hopened : openedApp arguments reply with
  | none =>
      rw [hopened] at huses
      exact trans_of SameUses hbefore.toSameUses huses
  | some app =>
      rw [hopened] at huses
      exact RecordedUse.after huses hbefore.toSameUses

/-- Storing the use of the application that was opened changes the usage events alone. -/
theorem returns_recordOpened (arguments : ActionArguments) (reply : ExecutorReply)
    (s : ServiceState) :
    Returns (recordOpened W arguments reply) s fun _ s' =>
      (match openedApp arguments reply with
        | some app => RecordedUse app s s'
        | none => SameUses s s') ∧
      s'.data = s.data.withInteraction s'.data.database.interaction := by
  unfold recordOpened
  cases openedApp arguments reply with
  | some app => exact returns_recordUse app s
  | none =>
      rw [returns_pure]
      exact ⟨refl_of SameUses s, rfl⟩

/-- The receipt that is returned is the one stored. -/
theorem returns_finishExecution (p : Prepared) (records : List AuditRecord) (settled : Settlement)
    (s : ServiceState) :
    Returns (finishExecution W p records settled) s fun receipt s' =>
      receipt.status = settled.status ∧
        s'.data.database.audit.executions = s.data.database.audit.executions ++ [receipt] ∧
        s'.data.history = s.data.history := by
  simp only [finishExecution, returns_bind, returns_now, returns_pure]
  refine returns_query ?_
  change Post (onAudit _) _ _
  rw [post_onAudit]
  refine Post.mono (recordExecution_spec _ _ records) ?_
  rintro r t (⟨rfl, -, -, rfl⟩ | ⟨rfl, -, rfl⟩) u hu
  · exact ⟨rfl, rfl, List.append_nil _⟩
  · cases hu

/-- A confirmed execution that is answered has its receipt stored. -/
theorem returns_performConfirmed (p : Prepared) (authorization : ExecutionAuthorization)
    (s : ServiceState) :
    Returns (performConfirmed W p authorization) s fun receipt s' =>
      Confirms p.proposal.action.arguments s s' receipt := by
  rw [performConfirmed, Returns, post_bind]
  refine post_auditRecords fun records hrecords => ?_
  rw [next_ok, post_bind]
  refine post_execute fun reply s₁ hdata₁ hconsulted₁ hcalls₁ => ?_
  rw [next_ok, post_bind]
  refine post_recordNow fun terminal hterminal => ?_
  rw [next_ok, post_bind]
  refine Post.mono (returns_recordOpened p.proposal.action.arguments reply (s₁.advance 2)) ?_
  rintro (e | u) s₂ hopened
  · intro receipt hreceipt
    cases hreceipt
  obtain ⟨huses, hdata₂⟩ := hopened u rfl
  rw [next_ok]
  have hdata : (s₁.advance 2).data = s.data.note [.invoked .configured authorization reply] :=
    hdata₁
  -- Neither the records nor the executor touch the uses.
  have hsame : SameUses s (s₁.advance 2) := by
    refine ⟨congrFun hcalls₁ _, ?_⟩
    rw [hdata]
    rfl
  rw [hdata] at hdata₂
  refine Post.mono (((keeps_sameUses_finishExecution (W := W) p (records ++ [terminal])
    (settlement confirmationTexts reply)).post s₂).and (returns_finishExecution p
      (records ++ [terminal]) (settlement confirmationTexts reply) s₂)) ?_
  rintro r s' ⟨hafter, hreceipt⟩ receipt rfl
  obtain ⟨hstatus, hexecutions, hhistory⟩ := hreceipt receipt rfl
  refine ⟨authorization, reply, ⟨?_, ?_, [], [], ?_, by simp, by simp⟩, ?_⟩
  · rw [hstatus]
    cases reply <;> rfl
  · rw [hexecutions, hdata₂]
    rfl
  · rw [hhistory, hdata₂]
    rfl
  -- A use is recorded exactly when the reply opened an application.
  · cases hopened : openedApp p.proposal.action.arguments reply with
    | none =>
        rw [hopened] at huses
        exact trans_of SameUses hsame (trans_of SameUses huses hafter)
    | some app =>
        rw [hopened] at huses
        exact (RecordedUse.after huses hsame).before hafter

/-- An accepted confirmation that is answered has launched, and its answer goes by the status. -/
theorem returns_allowConfirmation (pending : PendingConfirmation)
    (persistence : ConfirmationPersistence) (expiresAtMs : Option Int) (s : ServiceState) :
    Returns (allowConfirmation W pending persistence expiresAtMs) s fun response s' =>
      ∃ receipt executionId, Confirms pending.proposal.action.arguments s s' receipt ∧
        response = .confirmation
          ⟨some executionId, true, confirmationMessage pending.title receipt.status⟩ := by
  rw [allowConfirmation, returns_bind]
  refine Post.mono (prepare_spec _ _ _ s) ?_
  rintro r s₁ ⟨hquiet, hprepares⟩ p rfl
  have hproposal := (hprepares p rfl).proposal
  rw [returns_bind, returns_orThrow]
  intro authorization hauthorization
  rw [returns_bind]
  refine Post.mono ((keeps_aside_rememberConfirmation pending p.startedAtMs persistence
    expiresAtMs).post s₁) ?_
  rintro r s₂ hremembered u rfl
  rw [returns_bind]
  refine (returns_performConfirmed p authorization s₂).mono ?_
  rintro receipt s' hconfirms
  rw [returns_pure]
  refine ⟨receipt, p.executionId, ?_, rfl⟩
  rw [← hproposal]
  exact hconfirms.after (trans_of Aside (aside_of_quiet _ _ hquiet) hremembered)

/-- A confirmation that is answered was pending, and its proposal was performed. -/
theorem returns_confirmAction (confirmationId : String) (persistence : ConfirmationPersistence)
    (expiresAtMs : Option Int) (s : ServiceState) :
    Returns (confirmAction W confirmationId true persistence expiresAtMs) s fun response s' =>
      ∃ pending receipt executionId,
        s.data.pendingConfirmations confirmationId = some pending ∧
        Confirms pending.proposal.action.arguments s s' receipt ∧
        response = .confirmation
          ⟨some executionId, true, confirmationMessage pending.title receipt.status⟩ := by
  rw [confirmAction, returns_bind]
  have htaken : Returns (takePending confirmationId) s fun pending _ =>
      s.data.pendingConfirmations confirmationId = some pending := by
    simp only [takePending, returns_bind, returns_gets, returns_orThrow, returns_modify,
      returns_pure]
    exact fun _ h => h
  refine Post.mono (((keeps_aside_takePending confirmationId).post s).and htaken) ?_
  rintro r s₁ ⟨haside, hpending⟩ pending rfl
  rw [returns_bind, returns_now, returns_bind, returns_require]
  intro _
  refine (returns_allowConfirmation pending persistence expiresAtMs s₁.next).mono ?_
  rintro response s' ⟨receipt, executionId, hconfirms, rfl⟩
  refine ⟨pending, receipt, executionId, hpending pending rfl, ?_, rfl⟩
  exact hconfirms.after (trans_of Aside haside (aside_of_quiet _ _ (quiet_advance s₁ 1)))

/-- The report of a confirmation is faithful if the invocation was completed. -/
theorem confirms_faithful_iff {app : EntityId} {title : String} {s s' : ServiceState}
    {receipt : ExecutionReceipt} (h : Confirms (.openApp app) s s' receipt) :
    Faithful app s s' receipt
        (reportsConfirmedLaunch (confirmationMessage title receipt.status)) ↔
      ∀ authorization reply, Invoked s.data s'.data authorization reply → Completed reply := by
  obtain ⟨authorization, reply, hexecuted, huses⟩ := h
  have hinvoked : (∀ authorization' reply', Invoked s.data s'.data authorization' reply' →
      Completed reply') ↔ Completed reply := by
    constructor
    · exact fun h => h authorization reply ((invoked_of_executed hexecuted).mpr ⟨rfl, rfl⟩)
    · intro h authorization' reply' hinvoked
      rw [((invoked_of_executed hexecuted).mp hinvoked).2]
      exact h
  rw [hinvoked]
  unfold Faithful
  rw [reportsConfirmedLaunch_confirmationMessage, hexecuted.status, replyStatus_succeeds]
  cases reply with
  | completed code =>
      refine iff_of_true ⟨iff_of_true huses ⟨code, rfl⟩, ?_⟩ ⟨code, rfl⟩
      cases code <;> simp [replyStatus, settlement, resultStatus]
  | rejected error =>
      refine iff_of_false (fun h => ?_) (by simp [Completed])
      simpa [replyStatus, settlement] using h.2
  | timedOut =>
      refine iff_of_false (fun h => ?_) (by simp [Completed])
      simpa [replyStatus, settlement] using h.2

end

/-- On both paths, for every state and every outcome of the executor: an answered request to open an
application has one receipt; the usage event and the answer agree with its status if and only if the
executor, where it was invoked, has completed the request. -/
theorem reported_iff_completed (W : World) (s s' : ServiceState) :
    (∀ (displayName : String) (entityId : EntityId) (session : ChatSession)
      (userMessage : ChatMessage) (correlationId : String) (result : ChatResult),
      openApp W displayName entityId session userMessage correlationId s =
        (.ok (.chat result), s') →
        let target := aliased W displayName entityId
          (Storage.Memory.preferenceByKey s.data.database.memory displayName)
        ∃ receipt, s'.data.database.audit.executions =
            s.data.database.audit.executions ++ [receipt] ∧
          (Faithful target.2 s s' receipt (reportsLaunch result.assistantMessage.content) ↔
            ∀ authorization reply, Invoked s.data s'.data authorization reply →
              Completed reply)) ∧
    ∀ (confirmationId : String) (persistence : ConfirmationPersistence) (expiresAtMs : Option Int)
      (pending : PendingConfirmation) (app : EntityId) (result : ConfirmationResult),
      s.data.pendingConfirmations confirmationId = some pending →
      pending.proposal.action.arguments = .openApp app →
      confirmAction W confirmationId true persistence expiresAtMs s =
        (.ok (.confirmation result), s') →
        ∃ receipt, s'.data.database.audit.executions =
            s.data.database.audit.executions ++ [receipt] ∧
          (Faithful app s s' receipt (reportsConfirmedLaunch result.message) ↔
            ∀ authorization reply, Invoked s.data s'.data authorization reply →
              Completed reply) := by
  constructor
  -- The launch from the chat.
  · intro displayName entityId session userMessage correlationId result hopen target
    obtain ⟨receipt, message, prompt, hresponse, hopens⟩ :=
      (returns_openApp displayName entityId session userMessage correlationId s).of_eq hopen
    cases hresponse
    refine ⟨receipt, ?_, opens_faithful_iff hopens⟩
    rcases hopens with ⟨hblocked, -⟩ | ⟨authorization, reply, hexecuted, -⟩
    · exact hblocked.executions
    · exact hexecuted.executions
  -- The launch after a confirmation.
  · intro confirmationId persistence expiresAtMs pending app result hpending harguments hconfirm
    obtain ⟨pending', receipt, executionId, hpending', hconfirms, hresponse⟩ :=
      (returns_confirmAction confirmationId persistence expiresAtMs s).of_eq hconfirm
    rw [hpending] at hpending'
    cases hpending'
    cases hresponse
    rw [harguments] at hconfirms
    refine ⟨receipt, ?_, confirms_faithful_iff hconfirms⟩
    obtain ⟨authorization, reply, hexecuted, -⟩ := hconfirms
    exact hexecuted.executions

/-! ## A launch that times out -/

/-- The executor never answers in time. -/
def slowWorld : World := { World.steady (.listed []) with execute := fun _ _ => .timedOut }

/-- A session has begun. -/
def greeted : ServiceState := after slowWorld .launching .new
  [.request ⟨"request:1", .chat ⟨none, "hello", .automatic⟩⟩]

/-- A conversation that has begun. -/
def greetedSession : ChatSession := ⟨.generate .chatSession ⟨0, 0, 3⟩, "hello", 2, 2⟩

/-- The user asks for an application. -/
def slowLaunch : Except Failure ProtocolResponse × ServiceState :=
  openApp slowWorld "telegram" telegram greetedSession
    (userMessageOf (.generate .chatMessage ⟨0, 0, 9⟩) greetedSession.id "open telegram" 8)
    "request:2" greeted

/-- The answer reports the launch, and the receipt says that it timed out. -/
def misreports : Except Failure ProtocolResponse × ServiceState → Bool
  | (.ok (.chat result), s') => reportsLaunch result.assistantMessage.content &&
      decide (s'.data.database.audit.executions.map ExecutionReceipt.status = [.timedOut])
  | _ => false

theorem reported_iff_completed_slow :
    ∃ result receipt, slowLaunch.1 = .ok (.chat result) ∧
      (Faithful telegram greeted slowLaunch.2 receipt
          (reportsLaunch result.assistantMessage.content) ↔
        ∀ authorization reply, Invoked greeted.data slowLaunch.2.data authorization reply →
          Completed reply) := by
  have hmisreports : misreports slowLaunch = true := by decide +kernel
  have htarget : (aliased slowWorld "telegram" telegram (Storage.Memory.preferenceByKey
      greeted.data.database.memory "telegram")).2 = telegram := by decide +kernel
  cases hlaunch : slowLaunch with
  | mk r s' =>
      rw [hlaunch] at hmisreports
      unfold misreports at hmisreports
      split at hmisreports
      · rename_i result s'' heq
        cases heq
        obtain ⟨receipt, -, hiff⟩ := (reported_iff_completed slowWorld greeted s').1 "telegram"
          telegram greetedSession _ "request:2" result hlaunch
        rw [htarget] at hiff
        exact ⟨result, receipt, rfl, hiff⟩
      · cases hmisreports

/-- The answer in the chat need not agree with the receipt. -/
theorem timed_out_launch_reported :
    ¬ ∀ (W : World) (s s' : ServiceState) (displayName : String) (entityId : EntityId)
      (session : ChatSession) (userMessage : ChatMessage) (correlationId : String)
      (result : ChatResult),
      openApp W displayName entityId session userMessage correlationId s =
        (.ok (.chat result), s') →
        let target := aliased W displayName entityId
          (Storage.Memory.preferenceByKey s.data.database.memory displayName)
        ∃ receipt, s'.data.database.audit.executions =
            s.data.database.audit.executions ++ [receipt] ∧
          Faithful target.2 s s' receipt (reportsLaunch result.assistantMessage.content) := by
  intro h
  have hmisreports : misreports slowLaunch = true := by decide +kernel
  have hnone : greeted.data.database.audit.executions = [] := by decide +kernel
  cases hlaunch : slowLaunch with
  | mk r s' =>
      rw [hlaunch] at hmisreports
      unfold misreports at hmisreports
      split at hmisreports
      · rename_i result s'' heq
        cases heq
        rw [Bool.and_eq_true, decide_eq_true_eq] at hmisreports
        obtain ⟨receipt, hexecutions, hfaithful⟩ := h slowWorld greeted s' "telegram" telegram
          greetedSession _ "request:2" result hlaunch
        have hsucceeded := hfaithful.2 hmisreports.1
        rw [hexecutions, hnone] at hmisreports
        simp [hsucceeded] at hmisreports
      · cases hmisreports

end Halquen.Service.LaunchReports
