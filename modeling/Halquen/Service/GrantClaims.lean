import Halquen.Service.Durability
import Halquen.Service.GrantLookup
import Halquen.Storage.GrantUse

/-!
# Claims between decision and execution

A decision that rests on a grant is followed by a claim before the executor runs. Between the two
other connections may change the table. Whatever they do, an execution rests on exactly one claim,
of an Allow grant for exactly this scope and binding; it is the grant that was looked up for the
decision as long as nothing has changed and no grant has expired in between (`deciding_claim`).
-/

set_option autoImplicit false

namespace Halquen.Service.GrantClaims

open Halquen.Domain.Ids Halquen.Domain.Capability Halquen.Domain.Security
open Halquen.Policy.Engine Halquen.Policy.Specification Halquen.Capabilities.Executor
open Halquen.Audit.Receipt Halquen.Protocol.Messages
open Halquen.Library.Action Halquen.Library.Action.Act Halquen.Library.Run Halquen.Library.Sql
open Halquen.Library.TextCodec
open Halquen.Service.Context Halquen.Service.GrantLookup Halquen.Service.State
open Halquen.Service.Proposals
open Halquen.Service.SecurityService Halquen.Service.Handler Halquen.Service.Durability
open Halquen.Storage.Audit Halquen.Storage.Grants Halquen.Storage.GrantUse Halquen.Storage.Sessions
open Halquen.Storage.Sqlite

/-- Query with which a proposal looks for grants at a time. -/
def queryAt (W : World) (proposal : ActionProposal) (sessionId : Option ChatSessionId)
    (nowMs : Int) : GrantQuery :=
  .ofProposal W.serde proposal (permissionSession proposal sessionId) (permissionAgent proposal)
    nowMs

/-- The state after operations of other connections. -/
def interleave (W : World) (others : List GrantOperation) (s : ServiceState) : ServiceState :=
  { s with data := s.data.withDatabase { s.data.database with
      sessions := run (GrantOperation.perform W.serde) s.data.database.sessions others } }

/-- The grants that a decision may rest on stand still until the claim: the table is as it was, the
clock has not gone back, and no Allow grant for the proposal has expired in between. -/
structure Undisturbed (W : World) (proposal : ActionProposal) (sessionId : Option ChatSessionId)
    (rows rows' : List GrantRow) (startedAtMs decidedAtMs : Int) : Prop where
  unchanged : rows' = rows
  forward : startedAtMs ≤ decidedAtMs
  lasting : ∀ row ∈ rows, row.effect = "allow" →
    holds (activeFor (queryAt W proposal sessionId startedAtMs) row) = true →
      ∀ expiry ∈ row.expiresAtMs, decidedAtMs ≤ expiry

section

variable {W : World} {proposal : ActionProposal} {sessionId : Option ChatSessionId}

/-- The filter depends on the time through the expiry alone. -/
theorem active_of_active {row : GrantRow} {nowMs nowMs' : Int}
    (h : holds (activeFor (queryAt W proposal sessionId nowMs) row) = true)
    (hexpiry : ∀ expiry ∈ row.expiresAtMs, nowMs' ≤ expiry) :
    holds (activeFor (queryAt W proposal sessionId nowMs') row) = true := by
  rw [holds_activeFor] at h ⊢
  exact ⟨h.1, h.2.1, h.2.2.1, hexpiry, h.2.2.2.2⟩

theorem expiry_of_active {row : GrantRow} {nowMs : Int}
    (h : holds (activeFor (queryAt W proposal sessionId nowMs) row) = true) :
    ∀ expiry ∈ row.expiresAtMs, nowMs ≤ expiry := by
  rw [holds_activeFor] at h
  exact h.2.2.2.1

/-- In an undisturbed table the claim selects the grant that was looked up. -/
theorem id_eq_of_undisturbed {rows rows' : List GrantRow} {startedAtMs decidedAtMs : Int}
    (h : Undisturbed W proposal sessionId rows rows' startedAtMs decidedAtMs)
    {decided row : GrantRow}
    (hdecided : lookupRow (queryAt W proposal sessionId decidedAtMs) rows = some decided)
    (heffect : decided.effect = "allow")
    (hrow : claimRow (queryAt W proposal sessionId startedAtMs) rows' = some row) :
    row.id = decided.id := by
  rw [h.unchanged] at hrow
  obtain ⟨hdmem, hdleast⟩ := firstBy_spec hdecided
  obtain ⟨hrmem, hrleast⟩ := firstBy_spec hrow
  rw [mem_select] at hdmem
  rw [mem_select, holds_and, holds_eq] at hrmem
  obtain ⟨hrstored, ⟨-, hreffect⟩, hractive⟩ := hrmem
  have hreffect := Option.some.inj hreffect
  -- Either grant is a candidate of the other query.
  have hrlooked : row ∈ select (activeFor (queryAt W proposal sessionId decidedAtMs)) rows := by
    rw [mem_select]
    exact ⟨hrstored, active_of_active hractive (h.lasting row hrstored hreffect hractive)⟩
  have hdclaimed : decided ∈ select (fun row => (eq (some row.effect) (some "allow")).and
      (activeFor (queryAt W proposal sessionId startedAtMs) row)) rows := by
    rw [mem_select, holds_and, holds_eq]
    refine ⟨hdmem.1, ⟨rfl, congrArg some heffect⟩,
      active_of_active hdmem.2 fun expiry hexpiry => ?_⟩
    exact le_trans h.forward (expiry_of_active hdmem.2 expiry hexpiry)
  -- Each of the two is the first of its query, so their keys are the same.
  have hle := hdleast row hrlooked
  have hge := hrleast decided hdclaimed
  have hallow : ∀ r : GrantRow, r.effect = "allow" → lookupKey r = toLex (1, claimKey r) := by
    intro r hr
    simp [lookupKey, claimKey, hr]
  rw [hallow row hreffect, hallow decided heffect, Prod.Lex.toLex_le_toLex] at hle
  have hkeys : claimKey row = claimKey decided := le_antisymm hge (by simpa using hle)
  exact congrArg Prod.snd hkeys

/-- The grant on which a decision rests was looked up for it. -/
theorem lookup_of_reason {d : Database} {timestamp : Int} {context : PolicyContext}
    (hcontext : contextAt W d proposal sessionId timestamp = .ok context)
    (hgrant : ∃ g, ExactGrant context proposal .allow g) :
    ∃ decided, lookupRow (queryAt W proposal sessionId timestamp) d.sessions.grants = some decided ∧
      decided.effect = "allow" := by
  obtain ⟨g, hg⟩ := hgrant
  unfold contextAt at hcontext
  cases hlookup : lookupRow (queryAt W proposal sessionId timestamp) d.sessions.grants with
  | none =>
      rw [activePermissionGrantForProposal_of_none hlookup] at hcontext
      cases hcontext
      have hmem := hg.mem
      simp [contextFor_eq] at hmem
  | some decided =>
      refine ⟨decided, rfl, ?_⟩
      rw [activePermissionGrantForProposal_of_some hlookup] at hcontext
      cases hread : permissionFromRow W.serde decided with
      | error e =>
          simp only [hread] at hcontext
          cases hcontext
      | ok g' =>
          simp only [hread] at hcontext
          cases hcontext
          have hmem := hg.mem
          obtain rfl : g = g' := by
            simpa [contextFor_eq, PolicyContext.addPermissionGrant, Except.map] using hmem
          rw [← effect_of_permissionFromRow hread, hg.effect_eq]
          rfl

/-- What a claim that succeeds has selected. -/
structure Selected (W : World) (proposal : ActionProposal) (sessionId : Option ChatSessionId)
    (nowMs : Int) (rows : List GrantRow) (row : GrantRow) : Prop where
  stored : row ∈ rows
  effect : row.effect = "allow"
  active : holds (activeFor (queryAt W proposal sessionId nowMs) row) = true

theorem selected_of_claimRow {rows : List GrantRow} {nowMs : Int} {row : GrantRow}
    (h : claimRow (queryAt W proposal sessionId nowMs) rows = some row) :
    Selected W proposal sessionId nowMs rows row := by
  obtain ⟨hmem, -⟩ := firstBy_spec h
  rw [mem_select, holds_and, holds_eq] at hmem
  exact ⟨hmem.1, Option.some.inj hmem.2.1.2, hmem.2.2⟩

/-- Writing the record of an execution adds at most its refusal to the history. -/
theorem refusals_finished {p : Prepared} {events : List AuditEvent} {settled : Settlement}
    {lo hi : Nat} {fails : Bool} {d d' : ServiceData} {r : Except Failure ExecutionReceipt}
    (h : Finished W p events settled lo hi fails d r d') :
    ∃ rest, d'.history = d.history ++ rest ∧ ∀ e ∈ rest, e = .refused .recordExecution := by
  cases h with
  | recorded => exact ⟨[], (List.append_nil _).symm, by simp⟩
  | unrecorded => exact ⟨[.refused .recordExecution], rfl, by simp⟩

/-- An execution that rests on a grant makes one claim, then the one invocation. -/
theorem effects_of_perform {p : Prepared} {simulate : Bool} {s : ServiceState}
    {effects : List Effect} {executor : ExecutorKind} {authorization : ExecutionAuthorization}
    {reply : ExecutorReply} (hreason : p.evaluation.decision.reason = .persistentExactAllow)
    (hhistory : (perform W p sessionId simulate s).2.data.history = s.data.history ++ effects)
    (hinvoked : .invoked executor authorization reply ∈ effects) :
    ∃ row rest, effects = .claimed row p.startedAtMs ::
        .invoked executor authorization reply :: rest ∧
      (∀ e ∈ rest, e = .refused .recordExecution) ∧
      claimRow (queryAt W p.proposal sessionId p.startedAtMs) s.data.database.sessions.grants =
        some row := by
  have hperformed := (perform_spec (W := W) p sessionId simulate s).1
  generalize perform W p sessionId simulate s = result at hhistory hperformed
  rcases hperformed with ⟨-, hstopped⟩ | ⟨d, events, settled, hacted, hfinished⟩
  · -- An early end has invoked nothing.
    obtain ⟨rows, idle, hdata, hidle⟩ := hstopped.data
    rw [hdata] at hhistory
    have heq : idle = effects := List.append_cancel_left hhistory
    exact absurd (hidle _ (heq ▸ hinvoked)) id
  obtain ⟨rest, hrest, hrefused⟩ := refusals_finished hfinished
  rw [hhistory] at hrest
  cases hacted with
  | blocked =>
      have heq : effects = rest := List.append_cancel_left hrest
      exact absurd (hrefused _ (heq ▸ hinvoked)) (by simp)
  | executed authorization' reply' claimed hauthorization hclaim =>
      cases hclaim with
      -- The decision rests on a grant, so a use has to be claimed.
      | unneeded hne => exact absurd hreason hne
      | claimed id row rows _ hclaim hrow =>
          have happend : s.data.history ++ effects = s.data.history ++
            (.claimed row p.startedAtMs ::
              .invoked (executorFor simulate) authorization' reply' :: rest) := by
            simpa [ServiceData.note, ServiceData.withGrants, ServiceData.withDatabase] using hrest
          obtain rfl := List.append_cancel_left happend
          simp only [List.mem_cons, reduceCtorEq, false_or, Effect.invoked.injEq] at hinvoked
          -- Only the executor's own entry is an invocation; what follows are refusals.
          rcases hinvoked with ⟨rfl, rfl, rfl⟩ | hlater
          · exact ⟨row, rest, rfl, hrefused, hrow⟩
          · exact absurd (hrefused _ hlater) (by simp)

/-- The grant on which an evaluation rests is exact. -/
theorem exactGrant_of_authorizeProposal {engine : PolicyEngine} {c : CapabilityDescriptor}
    {x : ExecutionId} {context : PolicyContext}
    (hreason : (engine.authorizeProposal c proposal x context).decision.reason =
      .persistentExactAllow) : ∃ g, ExactGrant context proposal .allow g := by
  unfold PolicyEngine.authorizeProposal at hreason
  split at hreason
  · cases hreason
  · apply exactGrant_of_reason engine c proposal context
    simp only at hreason
    split at hreason <;> exact hreason

/-- Whatever other connections do between the decision and the claim, an execution whose decision
rests on a grant has made one claim before, of an active Allow grant of exactly this scope and
binding. If the table is undisturbed, it is the grant that was looked up for the decision. -/
theorem deciding_claim {simulate : Bool} {s s₁ : ServiceState} {p : Prepared}
    {others : List GrantOperation} {effects : List Effect} {executor : ExecutorKind}
    {authorization : ExecutionAuthorization} {reply : ExecutorReply}
    (hprepare : prepare W PolicyEngine.authorizeProposal proposal sessionId s = (.ok p, s₁))
    (hreason : p.evaluation.decision.reason = .persistentExactAllow)
    (hhistory : (perform W p sessionId simulate (interleave W others s₁)).2.data.history =
      s₁.data.history ++ effects)
    (hinvoked : .invoked executor authorization reply ∈ effects) :
    let rows := s.data.database.sessions.grants
    let rows' := (interleave W others s₁).data.database.sessions.grants
    ∃ row decided rest,
      effects = .claimed row p.startedAtMs :: .invoked executor authorization reply :: rest ∧
      (∀ e ∈ rest, e = .refused .recordExecution) ∧
      Selected W proposal sessionId p.startedAtMs rows' row ∧
      lookupRow (queryAt W proposal sessionId (W.clock (s.consulted + 3))) rows = some decided ∧
      (Undisturbed W proposal sessionId rows rows' p.startedAtMs (W.clock (s.consulted + 3)) →
        row.id = decided.id) := by
  intro rows rows'
  have hprepared := (prepare_spec (W := W) PolicyEngine.authorizeProposal proposal sessionId s).2 p
    (by rw [hprepare])
  obtain ⟨context, hcontext, heval⟩ := hprepared.evaluation
  rw [heval] at hreason
  obtain ⟨decided, hdecided, hallow⟩ :=
    lookup_of_reason hcontext (exactGrant_of_authorizeProposal hreason)
  rw [← heval] at hreason
  obtain ⟨row, rest, heffects, hrefused, hrow⟩ := effects_of_perform hreason hhistory hinvoked
  rw [hprepared.proposal] at hrow
  exact ⟨row, decided, rest, heffects, hrefused, selected_of_claimRow hrow, hdecided,
    fun hundisturbed => id_eq_of_undisturbed hundisturbed hdecided hallow hrow⟩

end

/-- Over any operations of any number of connections, a grant that they do not replace is used at
most as often as its limit leaves, never after it was revoked, and claimed only for its exact scope
and binding before it expires. An execution whose decision rests on a grant has made exactly one
claim before, of an active Allow grant of this scope and binding, and of the grant that was looked
up for the decision if the table is undisturbed in between. -/
theorem grant_claims (W : World) (hserde : W.serde.Lawful) (t : SessionTables)
    (hkeys : UniqueKey GrantRow.id t.grants) (grant : PermissionGrant)
    (hstored : GrantRow.ofGrant W.serde grant ∈ t.grants) (operations : List GrantOperation)
    (hspares : ∀ o ∈ operations, o.Spares grant.id) :
    let reached := run (GrantOperation.perform W.serde) t
    (∀ limit ∈ grant.useLimit,
      usesOf W.serde grant.id t operations ≤ limit.toNat - grant.useCount.toNat) ∧
    (∀ before operation rest, operations = before ++ operation :: rest →
      operation.Uses W.serde (reached before) grant.id →
        (∀ early late, before = early ++ late → ∀ row ∈ (reached early).grants,
          row.id = grant.id.asStr → row.revokedAtMs = none) ∧
        (∀ nowMs, .revoke grant.id nowMs ∉ before) ∧
        ∀ proposal session agentId nowMs, operation = .claim proposal session agentId nowMs →
          BoundTo grant proposal session agentId ∧ ∀ expiry ∈ grant.expiresAtMs, nowMs ≤ expiry) ∧
    ∀ proposal sessionId simulate s p s₁ others effects executor authorization reply,
      prepare W PolicyEngine.authorizeProposal proposal sessionId s = (.ok p, s₁) →
      p.evaluation.decision.reason = .persistentExactAllow →
      (perform W p sessionId simulate (interleave W others s₁)).2.data.history =
        s₁.data.history ++ effects →
      .invoked executor authorization reply ∈ effects →
        let rows := s.data.database.sessions.grants
        let rows' := (interleave W others s₁).data.database.sessions.grants
        ∃ row decided rest,
          effects = .claimed row p.startedAtMs :: .invoked executor authorization reply :: rest ∧
          (∀ e ∈ rest, e = .refused .recordExecution) ∧
          Selected W proposal sessionId p.startedAtMs rows' row ∧
          lookupRow (queryAt W proposal sessionId (W.clock (s.consulted + 3))) rows =
            some decided ∧
          (Undisturbed W proposal sessionId rows rows' p.startedAtMs
            (W.clock (s.consulted + 3)) → row.id = decided.id) := by
  intro reached
  refine ⟨fun limit hlimit => ?_, ?_, ?_⟩
  -- The bound by the limit.
  · have hrow : (GrantRow.ofGrant W.serde grant).useLimit = some (limit.toNat : Int) := by
      rw [Option.mem_def] at hlimit
      simp [GrantRow.ofGrant, hlimit]
    have hbound : usesOf W.serde grant.id t operations ≤ _ :=
      uses_le_limit hkeys hstored rfl hrow hspares
    simp only [GrantRow.ofGrant] at hbound
    omega
  · rintro before operation rest rfl hused
    have hbefore : ∀ o ∈ before, o.Spares grant.id := fun o ho =>
      hspares o (List.mem_append_left _ ho)
    have hoperation : operation.Spares grant.id := hspares operation (by simp)
    refine ⟨?_, ?_, ?_⟩
    -- No use after the row was revoked.
    · rintro early late rfl row hrow hid
      by_contra hrevoked
      have hearly : Tracked grant.id (.ofGrant W.serde grant) (reached early) :=
        tracked_run ⟨hkeys, _, hstored, rfl, refl_of Follows _⟩ fun o ho =>
          hbefore o (List.mem_append_left _ ho)
      rw [show reached (early ++ late) = run _ (reached early) late from run_append ..] at hused
      apply no_use_after_revocation hearly.keys hrow hid hrevoked _ hoperation hused
      exact fun o ho => hbefore o (List.mem_append_right _ ho)
    -- No use after a revocation was asked for.
    · intro nowMs hmem
      obtain ⟨early, late, rfl⟩ := List.append_of_mem hmem
      refine
        no_use_after_revoke hkeys hstored rfl (fun o ho => ?_) (fun o ho => ?_) hoperation hused
      · exact hbefore o (List.mem_append_left _ ho)
      · exact hbefore o (List.mem_append_right _ (List.mem_cons_of_mem _ ho))
    -- A use is bound to what the grant was given for, and comes before it expires.
    · rintro proposal session agentId nowMs rfl
      obtain ⟨hbound, hexpiry, -⟩ := claim_within_binding hserde hkeys hstored hbefore hused
      exact ⟨hbound, hexpiry⟩
  · intro proposal sessionId simulate s p s₁ others effects executor authorization reply
    exact deciding_claim

/-- A grant for one launch. -/
def onceTelegram : PermissionGrant :=
  { launchTelegramGrant ⟨"permission:once", by decide⟩ .allow 2 with
    lifetime := .once, useLimit := some 1 }

/-- The grant is the only row. -/
noncomputable def onceTables : SessionTables where
  grants := [.ofGrant launchTelegramSerde onceTelegram]
  daemonSessions := []
  agentSessions := []

/-- Of two claims one succeeds at most. -/
theorem grant_claims_once :
    usesOf launchTelegramSerde onceTelegram.id onceTables
      [.claim launchTelegram none none 5, .claim launchTelegram none none 6] ≤ 1 :=
  (grant_claims (.steady launchTelegramSerde) launchTelegramSerde_lawful onceTables
    (List.nodup_singleton _) onceTelegram (List.mem_cons_self ..)
    [.claim launchTelegram none none 5, .claim launchTelegram none none 6]
    (by simp [GrantOperation.Spares])).1 1 rfl

/-! ## A grant that expires between claim and decision -/

/-- Knows the scope of the launch. -/
def launchWorld : World :=
  .steady (.listed [(.fromProposal launchProposal, telegramScopeJson "public")])

/-- The request for a grant of a launch. -/
def allowLaunch (lifetime : PermissionLifetime) (expiresAtMs : Option Int) :
    PermissionGrantUpsert where
  id := none
  effect := .allow
  lifetime := lifetime
  capabilityId := openAppDescriptor.id
  arguments := .openApp telegram
  resources := launchProposal.context.resources
  destination := none
  session := none
  agentId := none
  expiresAtMs := expiresAtMs

/-- A launch that is allowed always, and once more until the time at which the next proposal will
start. -/
def expiringRun : List Input := [
  .request ⟨"request:1", .updateSecurityProfile .strict⟩,
  .request ⟨"request:2", .upsertPermissionGrant (allowLaunch .always none)⟩,
  .request ⟨"request:3", .upsertPermissionGrant (allowLaunch .until (some 9))⟩]

/-- The state after this. -/
def expiringState : ServiceState := after launchWorld .launching .new expiringRun

/-- The grant that is stored last. -/
def expiringGrant : PermissionGrant :=
  grantOf (allowLaunch .until (some 9)) (.generate .permission ⟨0, 0, 6⟩) (none, some 9, none) 5

/-- The launch claims the grant that is stored last. -/
def expiringEffects : List Effect := [
  .claimed (.ofGrant launchWorld.serde expiringGrant) 9,
  .invoked .configured { launchAuthorization with executionId := .generate .execution ⟨0, 0, 7⟩ }
    (.completed .launched)]

/-- The decision rests on a grant, and these are the effects of the execution. -/
def hasExpiringEffects : Except Failure Prepared × ServiceState → Bool
  | (.ok p, s₁) =>
      decide (p.evaluation.decision.reason = .persistentExactAllow) &&
        decide ((perform launchWorld p none false s₁).2.data.history =
          s₁.data.history ++ expiringEffects)
  | (.error _, _) => false

/-- Although no other connection does anything and the clock does not go back, the claim need not be
of the grant that was looked up for the decision: the claim is for the time at which the proposal
started, and the lookup came later. -/
theorem claim_of_expired_grant :
    ¬ ∀ (W : World) (proposal : ActionProposal) (sessionId : Option ChatSessionId) (simulate : Bool)
      (s : ServiceState) (p : Prepared) (s₁ : ServiceState) (others : List GrantOperation)
      (effects : List Effect) (executor : ExecutorKind) (authorization : ExecutionAuthorization)
      (reply : ExecutorReply),
      (∀ m n, m ≤ n → W.clock m ≤ W.clock n) →
      prepare W PolicyEngine.authorizeProposal proposal sessionId s = (.ok p, s₁) →
      p.evaluation.decision.reason = .persistentExactAllow →
      (perform W p sessionId simulate (interleave W others s₁)).2.data.history =
        s₁.data.history ++ effects →
      .invoked executor authorization reply ∈ effects →
        ∃ row decided, .claimed row p.startedAtMs ∈ effects ∧
          lookupRow (queryAt W proposal sessionId (W.clock (s.consulted + 3)))
            s.data.database.sessions.grants = some decided ∧ row.id = decided.id := by
  intro h
  -- The grant that decides, and the effects of a run in which it expires before the claim.
  have hlookup : (lookupRow (queryAt launchWorld launchProposal none
      (launchWorld.clock (expiringState.consulted + 3)))
        expiringState.data.database.sessions.grants).map GrantRow.id =
          some "permission:0:0:4" := by decide +kernel
  have heffects : hasExpiringEffects (prepare launchWorld PolicyEngine.authorizeProposal
    launchProposal none expiringState) = true := by decide +kernel
  cases hprepare : prepare launchWorld PolicyEngine.authorizeProposal launchProposal none
      expiringState with
  | mk r s₁ =>
      rw [hprepare] at heffects
      cases r with
      | error e => cases heffects
      | ok p =>
          simp only [hasExpiringEffects, Bool.and_eq_true, decide_eq_true_eq] at heffects
          obtain ⟨row, decided, hclaimed, hdecided, hid⟩ := h launchWorld launchProposal none false
            expiringState p s₁ [] expiringEffects .configured _ _ (fun m n => Int.ofNat_le.mpr)
            hprepare heffects.1 heffects.2 (List.mem_cons_of_mem _ (List.mem_cons_self ..))
          rw [hdecided] at hlookup
          simp only [expiringEffects, List.mem_cons, Effect.claimed.injEq, reduceCtorEq,
            List.not_mem_nil, or_false] at hclaimed
          obtain ⟨rfl, -⟩ := hclaimed
          -- The row that was claimed is another one.
          rw [Option.some.inj hlookup] at hid
          exact absurd hid (by decide)

end Halquen.Service.GrantClaims
