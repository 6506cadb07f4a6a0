import Halquen.Domain.Capability
import Halquen.Memory.Semantic
import Mathlib.Data.List.Dedup
import Mathlib.Data.List.Perm.Subperm

/-!
# Promotion of procedures

The validator that decides whether a procedure may be proposed to the policy. It accepts exactly if
the candidate is well formed and the evidence that is supplied authorizes the one that is referenced
(`evaluate_eq_eligible_iff`): each reference once, each piece of evidence once, the same identifiers
on both sides, and one piece with independent authority.
-/

set_option autoImplicit false

namespace Halquen.Memory.Procedural

open Halquen.Domain.Ids Halquen.Domain.Capability Halquen.Domain.Security
open Halquen.Memory.Semantic

/-- A procedure that behaviour or a model suggests. -/
structure ProceduralCandidate where
  name : String
  capabilities : List CapabilityId
  steps : List ActionRequest
  evidenceIds : List EvidenceId
  deriving DecidableEq

/-- What the gate says of a candidate. -/
inductive PromotionDecision where
  | eligibleForPolicyReview | insufficientIndependentAuthority | invalidCandidate
  deriving DecidableEq, Repr

/-! ## The validator -/

/-- The supplied evidence as a map, by its entries; `none` where an identifier comes again. -/
def supply (supplied : List Evidence) : List Evidence → Option (List Evidence)
  | [] => some supplied
  | item :: rest =>
      if supplied.any fun e => e.id == item.id then none else supply (supplied ++ [item]) rest

/-- The first check: what the candidate itself lacks. -/
def ProceduralCandidate.malformed (candidate : ProceduralCandidate) : Bool :=
  isBlank candidate.name
    || candidate.capabilities.isEmpty
    || candidate.steps.isEmpty
    || candidate.evidenceIds.isEmpty
    || candidate.steps.any fun step => !candidate.capabilities.contains step.capabilityId

/-- The second check: references that come again, or differ from the supplied evidence. -/
def mismatched (evidenceIds : List EvidenceId) (supplied : List Evidence) : Bool :=
  let referenced := evidenceIds.dedup
  referenced.length != evidenceIds.length
    || supplied.length != referenced.length
    || referenced.any fun id => !supplied.any fun e => e.id == id

/-- `ProceduralPromotionGate::evaluate`: the candidate and the evidence are checked first, and then
independent authority is required. -/
def evaluate (candidate : ProceduralCandidate) (evidence : List Evidence) : PromotionDecision :=
  if candidate.malformed then .invalidCandidate
  else
    match supply [] evidence with
    | none => .invalidCandidate
    | some supplied =>
        if mismatched candidate.evidenceIds supplied then .invalidCandidate
        else if candidate.evidenceIds.any fun id => (supplied.find? fun e => e.id == id).any
            fun e => e.trust.independentlyAuthorizesProceduralMemory then
          .eligibleForPolicyReview
        else .insufficientIndependentAuthority

/-! ## What it accepts -/

/-- Name, capabilities and steps of a candidate are valid. -/
structure ProceduralCandidate.WellFormed (candidate : ProceduralCandidate) : Prop where
  name : isBlank candidate.name = false
  capabilities : candidate.capabilities ≠ []
  steps : candidate.steps ≠ []
  covered : ∀ step ∈ candidate.steps, step.capabilityId ∈ candidate.capabilities

/-- The evidence is what the references name, and has independent authority. -/
structure Authorizes (evidence : List Evidence) (ids : List EvidenceId) : Prop where
  nonempty : ids ≠ []
  referencedOnce : ids.Nodup
  suppliedOnce : (evidence.map Evidence.id).Nodup
  same : ∀ id, id ∈ evidence.map Evidence.id ↔ id ∈ ids
  authority : ∃ e ∈ evidence, e.trust.independentlyAuthorizesProceduralMemory = true

theorem supply_eq_some_iff (evidence : List Evidence) {supplied supplied' : List Evidence}
    (h : (supplied.map Evidence.id).Nodup) :
    supply supplied evidence = some supplied' ↔
      ((supplied ++ evidence).map Evidence.id).Nodup ∧ supplied' = supplied ++ evidence := by
  induction evidence generalizing supplied with
  | nil =>
      rw [List.append_nil, supply, Option.some.injEq, eq_comm]
      exact (and_iff_right h).symm
  | cons item rest ih =>
      have hsplit : supplied ++ item :: rest = (supplied ++ [item]) ++ rest := by simp
      rw [supply]
      split
      -- Evidence that is there already is refused, and would stand twice.
      · rename_i hagain
        obtain ⟨e, he, hid⟩ := List.any_eq_true.mp hagain
        constructor
        · intro hnone
          cases hnone
        · rintro ⟨hnodup, -⟩
          rw [List.map_append, List.nodup_append] at hnodup
          exact absurd (beq_iff_eq.mp hid)
            (hnodup.2.2 e.id (List.mem_map_of_mem he) item.id (by simp))
      -- New evidence is added, and the rest goes on from there.
      · rename_i hnew
        rw [hsplit]
        apply ih
        rw [List.map_append, List.nodup_append]
        refine ⟨h, List.nodup_singleton _, ?_⟩
        intro id hid id' hid'
        obtain ⟨e, he, rfl⟩ := List.mem_map.mp hid
        obtain rfl := List.mem_singleton.mp hid'
        intro heq
        exact hnew (List.any_eq_true.mpr ⟨e, he, beq_iff_eq.mpr heq⟩)

theorem length_dedup_eq_iff (ids : List EvidenceId) :
    ids.dedup.length = ids.length ↔ ids.Nodup := by
  constructor
  · intro h
    have heq := (List.dedup_sublist ids).eq_of_length h
    exact List.dedup_eq_self.mp heq
  · intro h
    rw [h.dedup]

/-- As many pieces of evidence as references, each of which is supplied. -/
theorem same_iff {evidence : List Evidence} {ids : List EvidenceId} (hids : ids.Nodup)
    (hevidence : (evidence.map Evidence.id).Nodup) :
    (∀ id, id ∈ evidence.map Evidence.id ↔ id ∈ ids) ↔
      evidence.length = ids.length ∧ ∀ id ∈ ids, id ∈ evidence.map Evidence.id := by
  constructor
  · intro h
    have hperm : (evidence.map Evidence.id).Perm ids :=
      (List.perm_ext_iff_of_nodup hevidence hids).mpr h
    refine ⟨?_, fun id hid => (h id).mpr hid⟩
    rw [← hperm.length_eq, List.length_map]
  · rintro ⟨hlength, hsupplied⟩ id
    have hperm : ids.Perm (evidence.map Evidence.id) := by
      apply (List.subperm_of_subset hids hsupplied).perm_of_length_le
      rw [List.length_map, hlength]
    exact hperm.symm.mem_iff

/-- Looking the references up finds all of the evidence. -/
theorem authority_iff {evidence : List Evidence} {ids : List EvidenceId}
    (hevidence : (evidence.map Evidence.id).Nodup)
    (hsame : ∀ id, id ∈ evidence.map Evidence.id ↔ id ∈ ids) :
    (ids.any fun id => (evidence.find? fun e => e.id == id).any
        fun e => e.trust.independentlyAuthorizesProceduralMemory) = true ↔
      ∃ e ∈ evidence, e.trust.independentlyAuthorizesProceduralMemory = true := by
  rw [List.any_eq_true]
  constructor
  · rintro ⟨id, -, hid⟩
    obtain ⟨e, hfound, htrust⟩ := (Option.any_eq_true _ _).mp hid
    exact ⟨e, List.mem_of_find?_eq_some hfound, htrust⟩
  · rintro ⟨e, he, htrust⟩
    refine ⟨e.id, (hsame e.id).mp (List.mem_map_of_mem he), ?_⟩
    obtain ⟨found, hfound⟩ : ∃ found, evidence.find? (fun r => r.id == e.id) = some found := by
      apply Option.isSome_iff_exists.mp
      rw [List.find?_isSome]
      exact ⟨e, he, beq_self_eq_true _⟩
    have hid := List.find?_some hfound
    have hsame : found = e := List.inj_on_of_nodup_map hevidence
      (List.mem_of_find?_eq_some hfound) he (beq_iff_eq.mp hid)
    rw [hfound, hsame]
    exact htrust

theorem malformed_eq_false_iff (candidate : ProceduralCandidate) :
    candidate.malformed = false ↔ candidate.WellFormed ∧ candidate.evidenceIds ≠ [] := by
  simp only [ProceduralCandidate.malformed, Bool.or_eq_false_iff, List.isEmpty_eq_false_iff,
    List.any_eq_false, Bool.not_eq_true, Bool.not_eq_false', List.contains_eq_mem,
    decide_eq_true_eq]
  constructor
  · rintro ⟨⟨⟨⟨hname, hcapabilities⟩, hsteps⟩, hids⟩, hcovered⟩
    exact ⟨⟨hname, hcapabilities, hsteps, hcovered⟩, hids⟩
  · rintro ⟨⟨hname, hcapabilities, hsteps, hcovered⟩, hids⟩
    exact ⟨⟨⟨⟨hname, hcapabilities⟩, hsteps⟩, hids⟩, hcovered⟩

theorem mismatched_eq_false_iff {evidence : List Evidence} (ids : List EvidenceId)
    (hevidence : (evidence.map Evidence.id).Nodup) :
    mismatched ids evidence = false ↔
      ids.Nodup ∧ ∀ id, id ∈ evidence.map Evidence.id ↔ id ∈ ids := by
  have hsupplied : (ids.dedup.any fun id => !evidence.any fun e => e.id == id) = false ↔
      ∀ id ∈ ids, id ∈ evidence.map Evidence.id := by
    simp [List.any_eq_false]
  simp only [mismatched, Bool.or_eq_false_iff, bne_eq_false_iff_eq, hsupplied,
    length_dedup_eq_iff, and_assoc]
  constructor
  · rintro ⟨hids, hlength, hall⟩
    rw [hids.dedup] at hlength
    exact ⟨hids, (same_iff hids hevidence).mpr ⟨hlength, hall⟩⟩
  · rintro ⟨hids, hsame⟩
    obtain ⟨hlength, hall⟩ := (same_iff hids hevidence).mp hsame
    rw [hids.dedup]
    exact ⟨hids, hlength, hall⟩

/-- The validator accepts a well formed candidate whose references the evidence authorizes. -/
theorem evaluate_eq_eligible_iff (candidate : ProceduralCandidate) (evidence : List Evidence) :
    evaluate candidate evidence = .eligibleForPolicyReview ↔
      candidate.WellFormed ∧ Authorizes evidence candidate.evidenceIds := by
  have hempty : (List.map Evidence.id []).Nodup := List.nodup_nil
  unfold evaluate
  split
  -- The guards of the source in their order, each with what its failure contradicts.
  · rename_i hmalformed
    refine iff_of_false (by simp) fun h => ?_
    have hformed := (malformed_eq_false_iff candidate).mpr ⟨h.1, h.2.nonempty⟩
    rw [hmalformed] at hformed
    cases hformed
  · rename_i hformed
    obtain ⟨hformed, hids⟩ :=
      (malformed_eq_false_iff candidate).mp (Bool.eq_false_of_not_eq_true hformed)
    split
    · rename_i hnone
      refine iff_of_false (by simp) fun h => ?_
      have hsome := (supply_eq_some_iff evidence hempty).mpr ⟨h.2.suppliedOnce, rfl⟩
      rw [hnone] at hsome
      cases hsome
    · rename_i supplied hsupply
      obtain ⟨hsupplied, rfl⟩ := (supply_eq_some_iff evidence hempty).mp hsupply
      rw [List.nil_append] at hsupplied
      split
      · rename_i hmismatched
        refine iff_of_false (by simp) fun h => ?_
        have hsame := (mismatched_eq_false_iff candidate.evidenceIds hsupplied).mpr
          ⟨h.2.referencedOnce, h.2.same⟩
        rw [hmismatched] at hsame
        cases hsame
      -- Past the guards the evidence is that of the references, and its authority decides.
      · rename_i hmatched
        obtain ⟨honce, hsame⟩ := (mismatched_eq_false_iff candidate.evidenceIds hsupplied).mp
          (Bool.eq_false_of_not_eq_true hmatched)
        have hauthority := authority_iff hsupplied hsame
        split
        · rename_i hany
          exact iff_of_true rfl
            ⟨hformed, hids, honce, hsupplied, hsame, hauthority.mp hany⟩
        · rename_i hany
          exact iff_of_false (by simp) fun h => hany (hauthority.mpr h.2.authority)

end Halquen.Memory.Procedural
