import Halquen.Policy.Specification
import Halquen.Service.Evolution

/-!
# Confirmations are used once

A confirmation is settled by the first call that names it after it was issued: its entry is gone,
and as long as no identifier is issued twice it never comes back (`settled_run`). Over a whole run
the calls that name a confirmation therefore invoke an executor at most once
(`confirmation_single_use`).
-/

set_option autoImplicit false

namespace Halquen.Service.SingleUse

open Halquen.Domain.Ids Halquen.Domain.Security Halquen.Policy.Engine Halquen.Policy.Authorization
open Halquen.Policy.Specification Halquen.Capabilities.Executor
open Halquen.Audit.Receipt Halquen.Protocol.Messages
open Halquen.Library.Action Halquen.Library.Action.Act Halquen.Library.Run
open Halquen.Service.State Halquen.Service.Proposals Halquen.Service.Confirmations
open Halquen.Service.Handler Halquen.Service.Ledger Halquen.Service.Evolution

/-! ## Invocations by a call -/

/-- Number of invocations of executors. -/
def launches (history : List Effect) : Nat :=
  history.countP fun
    | .invoked .. => true
    | _ => false

@[simp]
theorem launches_append (effects effects' : List Effect) :
    launches (effects ++ effects') = launches effects + launches effects' := List.countP_append

theorem launches_of_idle {effects : List Effect} (h : ∀ e ∈ effects, Idle e) :
    launches effects = 0 := by
  refine List.countP_eq_zero.mpr fun e he => ?_
  cases e with
  | invoked => exact (h _ he).elim
  | claimed | issued | refused => simp

/-- The input is a call of `confirm_action` that names the confirmation. -/
def confirms (c : String) : Input → Bool
  | .request envelope =>
      match envelope.request with
      | .confirmAction confirmationId _ _ _ => confirmationId == c
      | _ => false
  | .restart .. => false

section

variable {W : World}

theorem launches_stopped {d d' : ServiceData} (h : Stopped d d') :
    launches d'.history = launches d.history ∧
      d'.pendingConfirmations = d.pendingConfirmations := by
  obtain ⟨rows, effects, rfl, hidle⟩ := h.data
  refine ⟨?_, rfl⟩
  change launches (d.history ++ effects) = _
  rw [launches_append, launches_of_idle hidle, Nat.add_zero]

theorem launches_performedConfirmed {p : Prepared} {authorization : ExecutionAuthorization}
    {s s' : ServiceState} {r : Except Failure ExecutionReceipt}
    (h : PerformedConfirmed W p authorization s r s') :
    launches s'.data.history = launches s.data.history + 1 ∧
      s'.data.pendingConfirmations = s.data.pendingConfirmations := by
  obtain ⟨reply, t, ⟨-, hdata, -⟩ | ⟨-, hfinished⟩⟩ := h
  · rw [hdata]
    refine ⟨?_, rfl⟩
    change launches (s.data.history ++ [_] ++ [_]) = _
    simp [launches]
  · generalize hd' : s'.data = d' at hfinished
    cases hfinished with
    | recorded =>
        refine ⟨?_, rfl⟩
        change launches (s.data.history ++ [_]) = _
        simp [launches]
    | unrecorded =>
        refine ⟨?_, rfl⟩
        change launches (s.data.history ++ [_] ++ [_]) = _
        simp [launches]

/-- A call that names a confirmation takes its entry out, and invokes an executor at most once: if
it does, the confirmation was accepted in time and the policy did not deny the proposal. -/
theorem answered_effects {c : String} {allow : Bool} {s s' : ServiceState}
    {r : Except Failure ProtocolResponse} (h : Answered W c allow s r s') :
    s'.data.pendingConfirmations c = none ∧
      (launches s'.data.history = launches s.data.history ∨
        launches s'.data.history = launches s.data.history + 1 ∧ allow = true ∧
          ∃ pending p authorization, s.data.pendingConfirmations c = some pending ∧
            W.clock s.consulted ≤ pending.expiresAtMs ∧
            Prepares W PolicyEngine.authorizeConfirmedProposalOnce pending.proposal
              pending.sessionId (taken s c) p ∧
            p.evaluation.authorization = some authorization) := by
  -- The confirmation is taken before anything else happens.
  have hgone : (taken s c).data.pendingConfirmations c = none := Function.update_self ..
  rcases h with ⟨hnone, -, rfl⟩ | ⟨pending, hwaiting, hanswered⟩
  · exact ⟨hnone, .inl rfl⟩
  -- It has expired, it is allowed, or it is refused.
  rcases hanswered with ⟨-, -, rfl⟩ | ⟨hlive, ⟨hallow, hallowed⟩ | ⟨-, record, -, hrefused⟩⟩
  · exact ⟨hgone, .inl rfl⟩
  -- Allowed: the request stops early, or the executor is called once.
  · rcases hallowed with ⟨-, hstopped⟩ |
      ⟨p, authorization, rows, s₁, r₁, hp, hauthorization, hdata₁, -, -, hperformed, -⟩
    · obtain ⟨hlaunches, hpending⟩ := launches_stopped hstopped
      rw [hpending]
      exact ⟨hgone, .inl hlaunches⟩
    · obtain ⟨hlaunches, hpending⟩ := launches_performedConfirmed hperformed
      rw [hpending, hlaunches, hdata₁]
      exact ⟨hgone, .inr ⟨rfl, hallow, pending, p, authorization, hwaiting, hlive, hp,
        hauthorization⟩⟩
  · rcases hrefused with ⟨-, -, hdata⟩ | ⟨-, hdata⟩
    · rw [hdata]
      exact ⟨hgone, .inl rfl⟩
    · rw [hdata]
      refine ⟨hgone, .inl ?_⟩
      change launches (s.data.history ++ [_]) = _
      simp [launches]

/-! ## Settled confirmations -/

/-- Every waiting confirmation was issued. -/
def Announced (d : ServiceData) : Prop :=
  ∀ c pending, d.pendingConfirmations c = some pending → c ∈ issuedIds d.history

/-- The confirmation was issued and waits no more. -/
structure Settled (c : String) (d : ServiceData) : Prop where
  issued : c ∈ issuedIds d.history
  gone : d.pendingConfirmations c = none

/-- What a step issues. -/
theorem issued_ledgerStep {d d' : ServiceData} (h : LedgerStep d d') :
    ∃ ids, issuedIds d'.history = issuedIds d.history ++ ids ∧
      ∀ c pending, d'.pendingConfirmations c = some pending →
        d.pendingConfirmations c = some pending ∨ c ∈ ids := by
  cases h with
  | quiet effects hmemory haudit hpending hhistory hidle =>
      refine ⟨[], ?_, fun c pending hc => .inl (hpending c pending hc)⟩
      rw [hhistory, issuedIds_append, issuedIds_of_idle hidle]
  | noted record hmemory haudit hforeign hpending hhistory =>
      refine ⟨[], ?_, fun c pending hc => .inl ?_⟩
      · rw [hhistory, List.append_nil]
      · rwa [hpending] at hc
  | recorded receipt records invoked effects hmemory hrecords haudit hpending hhistory hinvokes =>
      refine ⟨[], ?_, fun c pending hc => .inl ?_⟩
      · rw [hhistory, issuedIds_append, hinvokes.unissued]
      · rwa [hpending] at hc
  -- The one step that issues a confirmation.
  | awaiting receipt records confirmationId pending hmemory hrecords hawaiting hstatus hrequest
      hproposal haudit hpending hhistory =>
      refine ⟨[confirmationId], ?_, fun c q hc => ?_⟩
      · rw [hhistory, issuedIds_append]
        rfl
      · rw [hpending, Function.update_apply] at hc
        split at hc
        · rename_i heq
          exact .inr (List.mem_singleton.mpr heq)
        · exact .inl hc
  | refused record confirmationId pending hmemory hwaiting hevent haudit hpending hhistory =>
      refine ⟨[], ?_, fun c q hc => .inl ?_⟩
      · rw [hhistory, List.append_nil]
      · rw [hpending, Function.update_apply] at hc
        split at hc
        · cases hc
        · exact hc
  | lost effects hmemory hpending hhistory hunissued hlost =>
      refine ⟨[], ?_, fun c pending hc => .inl (hpending c pending hc)⟩
      rw [hhistory, issuedIds_append, hunissued]

theorem announced_step {d d' : ServiceData} (hstep : LedgerStep d d') (h : Announced d) :
    Announced d' := by
  intro c pending hc
  obtain ⟨ids, hissued, hpending⟩ := issued_ledgerStep hstep
  rw [hissued]
  rcases hpending c pending hc with hold | hnew
  · exact List.mem_append_left _ (h c pending hold)
  · exact List.mem_append_right _ hnew

theorem announced_evolves {d d' : ServiceData} (h : Relation.ReflTransGen LedgerStep d d')
    (hd : Announced d) : Announced d' := by
  induction h with
  | refl => exact hd
  | tail _ hlast ih => exact announced_step hlast ih

theorem announced_after (registry : CapabilityRegistry) (policy : PolicyEngine)
    (inputs : List Input) : Announced (after W registry policy inputs).data :=
  invariant_after (fun _ _ => announced_step) (fun c pending hc => by cases hc) inputs

/-- Identifiers that were issued stay issued. -/
theorem issued_evolves {d d' : ServiceData} (h : Relation.ReflTransGen LedgerStep d d') :
    issuedIds d.history <+: issuedIds d'.history := by
  induction h with
  | refl => exact List.prefix_rfl
  | tail _ hlast ih =>
      obtain ⟨ids, hissued, -⟩ := issued_ledgerStep hlast
      exact ih.trans ⟨ids, hissued.symm⟩

/-- A settled confirmation stays settled, as long as no identifier is issued twice. -/
theorem settled_evolves {c : String} {d d' : ServiceData}
    (h : Relation.ReflTransGen LedgerStep d d') (hdistinct : (issuedIds d'.history).Nodup)
    (hc : Settled c d) : Settled c d' := by
  induction h with
  | refl => exact hc
  | tail _ hlast ih =>
      obtain ⟨ids, hissued, hpending⟩ := issued_ledgerStep hlast
      rw [hissued] at hdistinct
      have hbefore := ih (List.Nodup.of_append_left hdistinct)
      refine ⟨?_, ?_⟩
      · rw [hissued]
        exact List.mem_append_left _ hbefore.issued
      · rw [Option.eq_none_iff_forall_ne_some]
        intro pending hwaits
        rcases hpending c pending hwaits with hold | hnew
        · rw [hbefore.gone] at hold
          cases hold
        · exact List.disjoint_of_nodup_append hdistinct hbefore.issued hnew

theorem evolves_run (s : ServiceState) (inputs : List Input) :
    Evolves s (run (step W) s inputs) := run_related evolves_step s inputs

theorem settled_run {c : String} {s : ServiceState} (inputs : List Input)
    (hdistinct : (issuedIds (run (step W) s inputs).data.history).Nodup)
    (hc : Settled c s.data) : Settled c (run (step W) s inputs).data :=
  settled_evolves (evolves_run s inputs) hdistinct hc

/-! ## Calls that name a confirmation -/

theorem eq_of_confirms {c : String} {input : Input} (h : confirms c input = true) :
    ∃ requestId allow persistence expiresAtMs,
      input = .request ⟨requestId, .confirmAction c allow persistence expiresAtMs⟩ := by
  cases input with
  | restart => cases h
  | request envelope =>
      obtain ⟨requestId, request⟩ := envelope
      cases request with
      | confirmAction confirmationId allow persistence expiresAtMs =>
          obtain rfl : confirmationId = c := by simpa [confirms] using h
          exact ⟨requestId, allow, persistence, expiresAtMs, rfl⟩
      | _ => cases h

theorem answered_step {c : String} {input : Input} (h : confirms c input = true)
    (s : ServiceState) : ∃ allow r, Answered W c allow s r (step W s input) := by
  obtain ⟨requestId, allow, persistence, expiresAtMs, rfl⟩ := eq_of_confirms h
  exact ⟨allow, _, confirmAction_spec c allow persistence expiresAtMs s⟩

/-- The first call after the confirmation was issued settles it. -/
theorem settled_step {c : String} {input : Input} (h : confirms c input = true) {s : ServiceState}
    (hissued : c ∈ issuedIds s.data.history) : Settled c (step W s input).data := by
  obtain ⟨allow, r, hanswered⟩ := answered_step (W := W) h s
  exact ⟨(issued_evolves (evolves_step s input)).subset hissued, (answered_effects hanswered).1⟩

/-- Invocations of executors that a call naming the confirmation adds. -/
def invokedFor (W : World) (c : String) (s : ServiceState) (input : Input) : Nat :=
  if confirms c input then
    launches (step W s input).data.history - launches s.data.history
  else 0

/-- A call that invokes an executor has found the entry of the confirmation. -/
theorem invokedFor_cases (c : String) (s : ServiceState) (input : Input) :
    invokedFor W c s input = 0 ∨
      invokedFor W c s input = 1 ∧ confirms c input = true ∧
        s.data.pendingConfirmations c ≠ none := by
  unfold invokedFor
  split
  · rename_i h
    obtain ⟨allow, r, hanswered⟩ := answered_step (W := W) h s
    rcases (answered_effects hanswered).2 with hsame | ⟨hone, -, pending, -, -, hwaiting, -⟩
    · exact .inl (by omega)
    · exact .inr ⟨by omega, h, by simp [hwaiting]⟩
  · exact .inl rfl

theorem invokedFor_settled {c : String} {s : ServiceState} (hc : Settled c s.data) (input : Input) :
    invokedFor W c s input = 0 := by
  rcases invokedFor_cases (W := W) c s input with hzero | ⟨-, -, hwaiting⟩
  · exact hzero
  · exact absurd hc.gone hwaiting

/-- Calls that name a settled confirmation invoke nothing. -/
theorem spent_settled {c : String} {s : ServiceState} (inputs : List Input)
    (hdistinct : (issuedIds (run (step W) s inputs).data.history).Nodup)
    (hc : Settled c s.data) : spent (step W) (invokedFor W c) s inputs = 0 := by
  induction inputs generalizing s with
  | nil => rfl
  | cons input inputs ih =>
      have hprefix := issued_evolves (evolves_run (W := W) (step W s input) inputs)
      have hnext : Settled c (step W s input).data :=
        settled_evolves (evolves_step s input) (hdistinct.sublist hprefix.sublist) hc
      rw [spent, invokedFor_settled hc, ih hdistinct hnext]

/-- All calls of a run that name a confirmation invoke an executor at most once. -/
theorem spent_le_one {c : String} {s : ServiceState} (inputs : List Input)
    (hdistinct : (issuedIds (run (step W) s inputs).data.history).Nodup)
    (hannounced : Announced s.data) : spent (step W) (invokedFor W c) s inputs ≤ 1 := by
  induction inputs generalizing s with
  | nil => exact Nat.zero_le _
  | cons input inputs ih =>
      rw [spent]
      rcases invokedFor_cases (W := W) c s input with hzero | ⟨hone, hconfirms, hwaiting⟩
      · rw [hzero, Nat.zero_add]
        exact ih hdistinct (announced_evolves (evolves_step s input) hannounced)
      · obtain ⟨pending, hpending⟩ := Option.ne_none_iff_exists'.mp hwaiting
        have hsettled : Settled c (step W s input).data :=
          settled_step hconfirms (hannounced c pending hpending)
        rw [hone, spent_settled inputs hdistinct hsettled]

/-- The policy does not deny the proposal in this state, at the time that the call reads. -/
def Undenied (W : World) (s : ServiceState) (pending : PendingConfirmation) : Prop :=
  ∃ descriptor context,
    s.data.registry.get pending.proposal.action.capabilityId = some descriptor ∧
    contextAt W s.data.database pending.proposal pending.sessionId (W.clock (s.consulted + 4)) =
      .ok context ∧
    (s.data.policy.evaluateProposal descriptor pending.proposal context).outcome ≠ .deny

theorem undenied_of_prepares {c : String} {s : ServiceState} {pending : PendingConfirmation}
    {p : Prepared} {authorization : ExecutionAuthorization}
    (hp : Prepares W PolicyEngine.authorizeConfirmedProposalOnce pending.proposal
      pending.sessionId (taken s c) p)
    (hauthorization : p.evaluation.authorization = some authorization) : Undenied W s pending := by
  obtain ⟨context, hcontext, heq⟩ := hp.evaluation
  refine ⟨p.descriptor, context, hp.descriptor, hcontext, ?_⟩
  rw [heq] at hauthorization
  have hsome := ((authorizeConfirmedProposalOnce_spec _ _ _ _ _).2.mp
    (Option.isSome_of_eq_some hauthorization)).2
  rw [PolicyEngine.evaluateProposal, Ne, outcome_decide_eq_deny_iff, not_not]
  exact hsome

/-- No identifier has been issued twice before the end of such a run either. -/
theorem distinct_before {registry : CapabilityRegistry} {policy : PolicyEngine}
    {before rest : List Input}
    (h : (issuedIds (after W registry policy (before ++ rest)).data.history).Nodup) :
    (issuedIds (after W registry policy before).data.history).Nodup := by
  rw [after, run_append] at h
  exact h.sublist (issued_evolves (evolves_run _ rest)).sublist

/-- A call that names an issued confirmation settles it for the rest of the run. -/
theorem settled_after {c : String} {registry : CapabilityRegistry} {policy : PolicyEngine}
    {before between : List Input} {call : Input}
    (hdistinct : (issuedIds
      (after W registry policy (before ++ call :: between)).data.history).Nodup)
    (hconfirms : confirms c call = true)
    (hissued : c ∈ issuedIds (after W registry policy before).data.history) :
    Settled c (after W registry policy (before ++ call :: between)).data := by
  rw [after, run_append, run_cons] at hdistinct ⊢
  exact settled_run between hdistinct (settled_step hconfirms hissued)

/-- In every run in which no confirmation identifier is issued twice: the calls that name a
confirmation invoke an executor at most once; a call invokes one only if it accepts the
confirmation, reads a clock that is not past its expiry, meets no denial of the stored proposal and
is the first call since the confirmation was issued; and every later call answers that the
confirmation has expired and changes nothing. -/
theorem confirmation_single_use (W : World) (registry : CapabilityRegistry) (policy : PolicyEngine)
    (inputs : List Input)
    (hdistinct : (issuedIds (after W registry policy inputs).data.history).Nodup) (c : String) :
    spent (step W) (invokedFor W c) (initial W registry policy) inputs ≤ 1 ∧
    (∀ before call rest, inputs = before ++ call :: rest →
      let s := after W registry policy before
      invokedFor W c s call ≠ 0 →
        (∃ requestId persistence expiresAtMs pending,
          call = .request ⟨requestId, .confirmAction c true persistence expiresAtMs⟩ ∧
          s.data.pendingConfirmations c = some pending ∧
          W.clock s.consulted ≤ pending.expiresAtMs ∧ Undenied W s pending) ∧
        ∀ earlier call' between, before = earlier ++ call' :: between → confirms c call' = true →
          c ∉ issuedIds (after W registry policy earlier).data.history) ∧
    (∀ before call between requestId allow persistence expiresAtMs rest,
      inputs = before ++ call :: (between ++
        .request ⟨requestId, .confirmAction c allow persistence expiresAtMs⟩ :: rest) →
      confirms c call = true →
      c ∈ issuedIds (after W registry policy before).data.history →
      let s := after W registry policy (before ++ call :: between)
      handle W ⟨requestId, .confirmAction c allow persistence expiresAtMs⟩ s =
        (.error confirmationExpired, s)) := by
  refine ⟨spent_le_one inputs hdistinct (announced_after registry policy []), ?_, ?_⟩
  -- The call that invokes is a confirmation in time, the first one since it was issued.
  · rintro before call rest rfl s hinvoked
    have hdistinct' : (issuedIds s.data.history).Nodup := distinct_before hdistinct
    constructor
    · obtain ⟨-, hconfirms, -⟩ := (invokedFor_cases (W := W) c s call).resolve_left hinvoked
      obtain ⟨requestId, allow, persistence, expiresAtMs, rfl⟩ := eq_of_confirms hconfirms
      have hanswered := confirmAction_spec (W := W) c allow persistence expiresAtMs s
      rcases (answered_effects hanswered).2 with
        hsame | ⟨-, rfl, pending, p, authorization, hwaiting, hlive, hp, hauthorization⟩
      · refine absurd ?_ hinvoked
        rw [invokedFor, if_pos hconfirms]
        exact Nat.sub_eq_zero_of_le (Nat.le_of_eq hsame)
      · exact ⟨requestId, persistence, expiresAtMs, pending, rfl, hwaiting, hlive,
          undenied_of_prepares hp hauthorization⟩
    · rintro earlier call' between rfl hconfirms hissued
      exact hinvoked (invokedFor_settled (settled_after hdistinct' hconfirms hissued) call)
  -- A later call finds the confirmation gone.
  · rintro before call between requestId allow persistence expiresAtMs rest rfl hconfirms hissued s
    rw [← List.cons_append, ← List.append_assoc] at hdistinct
    have hsettled : Settled c s.data :=
      settled_after (distinct_before hdistinct) hconfirms hissued
    rcases confirmAction_spec (W := W) c allow persistence expiresAtMs s with
      ⟨-, hr, hs⟩ | ⟨pending, hwaiting, -⟩
    · exact Prod.ext hr hs
    · rw [hsettled.gone] at hwaiting
      cases hwaiting

end

/-! ## A confirmation that is accepted twice -/

/-- A launch that waits for its confirmation. -/
def waitingRun : List Input := [
  .request ⟨"request:1", .updateSecurityProfile .strict⟩,
  .request ⟨"request:2", .chat ⟨none, "open telegram", .automatic⟩⟩]

/-- Identifier of the confirmation for which `waitingRun` waits. -/
def waitingId : String := "confirmation:proposal:0:0:18"

/-- The request that accepts the confirmation. -/
def acceptance : RequestEnvelope := ⟨"request:3", .confirmAction waitingId true .once none⟩

theorem confirmation_single_use_replayed :
    let s := after (.steady (.listed [])) .launching .new (waitingRun ++ [.request acceptance])
    handle (.steady (.listed [])) acceptance s = (.error confirmationExpired, s) :=
  (confirmation_single_use (.steady (.listed [])) .launching .new
    (waitingRun ++ [.request acceptance, .request acceptance]) (by decide +kernel) waitingId).2.2
    waitingRun (.request acceptance) [] "request:3" true .once none [] rfl rfl (by decide +kernel)

end Halquen.Service.SingleUse
