import Halquen.Policy.Specification

/-!
# Resources that are added to a context

Validation refuses a context with more than sixteen resources, and a context is built by adding
them one at a time. The builder stops at the same bound, but without a refusal: what does not fit
is left out, and the context stays valid (`validate_addResources_iff`). Nothing is lost exactly if
the context is refused anyway or everything behind the bound repeats what fits
(`added_resources_iff`); a classification that is only added behind the bound is not seen by the
rules of the engine.
-/

set_option autoImplicit false

namespace Halquen.Policy.AddedResources

open Halquen.Domain.Ids Halquen.Domain.Capability Halquen.Domain.Security
open Halquen.Library.Rules Halquen.Policy.Engine Halquen.Policy.Specification

section

variable (context : ActionContext) (resources : List ResourceDescriptor)

/-- Calls of `with_resource`, one after the other. -/
def addResources : ActionContext := resources.foldl ActionContext.withResource context

/-- How many resources the context still takes. -/
def room : Nat := maxActionResources - context.resources.length

/-- The resources that are added before the bound is reached. -/
def fitting : List ResourceDescriptor := resources.take (room context)

/-- The resources behind the bound. -/
def overflow : List ResourceDescriptor := resources.drop (room context)

/-- An identifier that validation accepts. -/
def Bounded (resource : ResourceDescriptor) : Prop :=
  isBlank resource.identifier = false ∧ resource.identifier.utf8ByteSize ≤ 1024

/-- The context is valid, and so is each resource that fits. -/
def Admissible : Prop :=
  context.validate = .ok () ∧ ∀ resource ∈ fitting context resources, Bounded resource

/-- Each added resource is in the context, or the context is refused. -/
def Kept : Prop :=
  (∀ resource ∈ resources, resource ∈ (addResources context resources).resources) ∨
    (addResources context resources).validate ≠ .ok ()

/-- The engine sees the classification of each added resource in an accepted proposal. -/
def Inspected : Prop :=
  ∀ (action : ActionRequest) (proposal : ActionProposal),
    ActionProposal.new action (addResources context resources) = .ok proposal →
      ∀ resource ∈ resources, hasResource proposal resource.classification = true

/-! ## What is kept -/

variable {context} in
theorem fitting_cons (hroom : context.resources.length < maxActionResources)
    (resource : ResourceDescriptor) :
    fitting context (resource :: resources) =
      resource ::
        fitting { context with resources := context.resources ++ [resource] } resources := by
  have hnext : room context = maxActionResources - (context.resources.length + 1) + 1 := by
    rw [room]
    omega
  rw [fitting, fitting, hnext, List.take_succ_cons, room, List.length_append,
    List.length_singleton]

/-- What does not fit is left out. -/
theorem addResources_eq :
    addResources context resources =
      { context with resources := context.resources ++ fitting context resources } := by
  induction resources generalizing context with
  | nil =>
      rw [fitting, List.take_nil, List.append_nil]
      rfl
  | cons resource resources ih =>
      rw [addResources, List.foldl_cons]
      show addResources (context.withResource resource) resources = _
      rw [ih, ActionContext.withResource]
      split
      · rename_i hroom
        rw [fitting_cons resources hroom, List.append_assoc, List.singleton_append]
      · rename_i hfull
        have hnone : room context = 0 := Nat.sub_eq_zero_of_le (Nat.le_of_not_lt hfull)
        simp only [fitting, hnone, List.take_zero]

theorem resources_addResources :
    (addResources context resources).resources =
      context.resources ++ fitting context resources := by
  rw [addResources_eq]

theorem bounded_iff (resource : ResourceDescriptor) :
    (isBlank resource.identifier || decide (1024 < resource.identifier.utf8ByteSize)) = false ↔
      Bounded resource := by
  rw [Bool.or_eq_false_iff, decide_eq_false_iff_not, Nat.not_lt]
  rfl

/-- Resources are judged apart from the rest of the context, by their number and one by one. -/
theorem validate_append_iff (more : List ResourceDescriptor) :
    { context with resources := context.resources ++ more }.validate = .ok () ↔
      context.validate = .ok () ∧ (∀ resource ∈ more, Bounded resource) ∧
        context.resources.length + more.length ≤ maxActionResources := by
  have horigin : { context with resources := context.resources ++ more }.originFailure =
      context.originFailure := rfl
  simp only [ActionContext.validate, firstFailure_eq_ok_iff, silent_cons, silent_nil,
    rule_eq_none_iff, horigin, Bool.or_eq_false_iff, decide_eq_false_iff_not, Nat.not_lt,
    List.any_append, List.length_append]
  have hmore : (more.any fun resource => isBlank resource.identifier ||
      decide (1024 < resource.identifier.utf8ByteSize)) = false ↔
        ∀ resource ∈ more, Bounded resource := by
    rw [List.any_eq_false]
    exact forall₂_congr fun resource _ => by rw [Bool.not_eq_true, bounded_iff]
  rw [hmore]
  constructor
  · rintro ⟨⟨hhops, hsize⟩, ⟨hids, hbefore, hbounded⟩, hrest⟩
    exact ⟨⟨⟨hhops, by omega⟩, ⟨hids, hbefore⟩, hrest⟩, hbounded, hsize⟩
  · rintro ⟨⟨⟨hhops, -⟩, ⟨hids, hbefore⟩, hrest⟩, hbounded, hsize⟩
    exact ⟨⟨hhops, hsize⟩, ⟨hids, hbefore, hbounded⟩, hrest⟩

/-- The resources behind the bound play no part in the validation. -/
theorem validate_addResources_iff :
    (addResources context resources).validate = .ok () ↔ Admissible context resources := by
  rw [addResources_eq, validate_append_iff, Admissible]
  constructor
  · rintro ⟨hvalid, hbounded, -⟩
    exact ⟨hvalid, hbounded⟩
  · rintro ⟨hvalid, hbounded⟩
    refine ⟨hvalid, hbounded, ?_⟩
    have hself := (validate_append_iff context []).mp (by rwa [List.append_nil])
    have hsize : context.resources.length ≤ maxActionResources := hself.2.2
    have hfit : (fitting context resources).length ≤ room context := List.length_take_le _ _
    rw [room] at hfit
    omega

/-- An added resource fits or is behind the bound. -/
theorem mem_fitting_or_overflow {resource : ResourceDescriptor} (h : resource ∈ resources) :
    resource ∈ fitting context resources ∨ resource ∈ overflow context resources := by
  rw [fitting, overflow, ← List.mem_append, List.take_append_drop]
  exact h

theorem kept_iff :
    Kept context resources ↔
      (Admissible context resources → ∀ resource ∈ overflow context resources,
        resource ∈ context.resources ++ fitting context resources) := by
  rw [Kept, ne_eq, validate_addResources_iff, resources_addResources, or_iff_not_imp_right,
    not_not]
  refine imp_congr_right fun _ => ⟨fun h resource hover => ?_, fun h resource hmem => ?_⟩
  · exact h resource (List.mem_of_mem_drop hover)
  · rcases mem_fitting_or_overflow context resources hmem with hfit | hover
    · exact List.mem_append_right _ hfit
    · exact h resource hover

theorem new_eq_ok_iff (action : ActionRequest) (proposal : ActionProposal) :
    ActionProposal.new action context = .ok proposal ↔
      context.validate = .ok () ∧ proposal = ⟨action, context⟩ := by
  unfold ActionProposal.new
  cases context.validate with
  | error e => simp [bind, Except.bind]
  | ok u => simp [bind, Except.bind, eq_comm]

theorem inspected_iff :
    Inspected context resources ↔
      (Admissible context resources → ∀ resource ∈ overflow context resources,
        ∃ kept ∈ context.resources ++ fitting context resources,
          kept.classification = resource.classification) := by
  constructor
  · intro h hadmissible resource hover
    have hvalid := (validate_addResources_iff context resources).mpr hadmissible
    have hseen := h ⟨openAppDescriptor.id, .none⟩ _ ((new_eq_ok_iff _ _ _).mpr ⟨hvalid, rfl⟩)
      resource (List.mem_of_mem_drop hover)
    rw [hasResource_iff, resources_addResources] at hseen
    exact hseen
  · intro h action proposal hnew resource hmem
    obtain ⟨hvalid, rfl⟩ := (new_eq_ok_iff _ _ _).mp hnew
    rw [hasResource_iff, resources_addResources]
    rcases mem_fitting_or_overflow context resources hmem with hfit | hover
    · exact ⟨resource, List.mem_append_right _ hfit, rfl⟩
    · exact h ((validate_addResources_iff context resources).mp hvalid) resource hover

/-- For every context and all resources that are added to it: none is lost from a context that is
accepted exactly if each resource behind the bound repeats one that fits, and the engine sees every
classification exactly if each classification behind the bound is repeated there. -/
theorem added_resources_iff :
    (Kept context resources ↔
        (Admissible context resources → ∀ resource ∈ overflow context resources,
          resource ∈ context.resources ++ fitting context resources)) ∧
      (Inspected context resources ↔
        (Admissible context resources → ∀ resource ∈ overflow context resources,
          ∃ kept ∈ context.resources ++ fitting context resources,
            kept.classification = resource.classification)) ∧
      (Kept context resources → Inspected context resources) ∧
      (context.resources.length + resources.length ≤ maxActionResources →
        Kept context resources) := by
  refine ⟨kept_iff context resources, inspected_iff context resources, fun hkept => ?_,
    fun hsize => ?_⟩
  · rw [inspected_iff]
    intro hadmissible resource hover
    exact ⟨resource, (kept_iff context resources).mp hkept hadmissible resource hover, rfl⟩
  · rw [kept_iff]
    have hroom : resources.length ≤ room context := by
      rw [room]
      omega
    intro _ resource hover
    rw [overflow, List.drop_eq_nil_of_le hroom] at hover
    cases hover

end

/-! ## A resource too many -/

/-- A resource that may be touched. -/
def note : ResourceDescriptor := ⟨.application, "app:notes", .public⟩

/-- A resource that may not. -/
def vault : ResourceDescriptor := ⟨.application, "app:vault", .secret⟩

/-- Sixteen public resources and a secret one. -/
def seventeen : List ResourceDescriptor := List.replicate 16 note ++ [vault]

/-- A launch in which resources are added to the context. -/
def launchWith (resources : List ResourceDescriptor) : ActionProposal where
  action := ⟨openAppDescriptor.id, .openApp ⟨"app:telegram", validate_telegram⟩⟩
  context := addResources (.trustedUser none) resources

/-- The secret resource is lost. If it is added first, the launch has to be confirmed; added last,
it leaves the launch allowed. -/
theorem resource_dropped :
    (¬ ∀ (context : ActionContext) (resources : List ResourceDescriptor),
      Kept context resources ∧ Inspected context resources) ∧
      (PolicyEngine.new.decide openAppDescriptor (launchWith (vault :: List.replicate 16 note))
        .default).outcome = .confirm ∧
      (PolicyEngine.new.decide openAppDescriptor (launchWith seventeen) .default).outcome =
        .allow := by
  refine ⟨fun h => ?_, by decide, by decide⟩
  rcases (h (.trustedUser none) seventeen).1 with hkept | hrefused
  · have hlost : vault ∉ (addResources (.trustedUser none) seventeen).resources := by
      decide
    exact hlost (hkept vault (List.mem_append_right _ List.mem_cons_self))
  · exact hrefused (by decide)

end Halquen.Policy.AddedResources
