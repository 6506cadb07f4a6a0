import Halquen.Policy.Engine

/-!
# Registry and executors

The registry of capabilities is an ordered list of descriptors that carries its own invariant:
strictly increasing identifiers and valid descriptors only. `CapabilityRegistry.register` keeps it.

An executor receives an authorization and reports a result code or an error. Whatever the
configured executor does, it starts with `validateAuthorization`; the dry-run executor does
nothing else.
-/

set_option autoImplicit false

namespace Halquen.Capabilities.Executor

open Halquen.Domain.Ids Halquen.Domain.Capability Halquen.Policy.Engine

/-! ## Registry -/

/-- Why a capability is not registered. -/
inductive RegistryError where
  | alreadyRegistered (id : CapabilityId)
  | invalidDescriptor (error : CapabilityValidationError)
  deriving DecidableEq

/-- Registered capabilities, ordered by identifier. -/
structure CapabilityRegistry where
  capabilities : List CapabilityDescriptor
  sorted : capabilities.Pairwise fun a b => a.id.asStr < b.id.asStr
  valid : ∀ c ∈ capabilities, c.validate = .ok ()

/-- The registry without capabilities. -/
def CapabilityRegistry.new : CapabilityRegistry := ⟨[], .nil, by simp⟩

/-- `CapabilityRegistry::get`. -/
def CapabilityRegistry.get (registry : CapabilityRegistry) (id : CapabilityId) :
    Option CapabilityDescriptor :=
  registry.capabilities.find? fun c => c.id == id

/-- Position-preserving insertion of a descriptor into an ordered list. -/
def insertDescriptor (c : CapabilityDescriptor) :
    List CapabilityDescriptor → List CapabilityDescriptor
  | [] => [c]
  | d :: ds => if c.id.asStr < d.id.asStr then c :: d :: ds else d :: insertDescriptor c ds

theorem mem_insertDescriptor (c d : CapabilityDescriptor) (ds : List CapabilityDescriptor) :
    d ∈ insertDescriptor c ds ↔ d = c ∨ d ∈ ds := by
  induction ds with
  | nil => simp [insertDescriptor]
  | cons e ds ih =>
      unfold insertDescriptor
      split
      · simp
      · simp only [List.mem_cons, ih]
        exact or_left_comm

theorem pairwise_insertDescriptor (c : CapabilityDescriptor) (ds : List CapabilityDescriptor)
    (hds : ds.Pairwise fun a b => a.id.asStr < b.id.asStr) (hnew : ∀ d ∈ ds, d.id ≠ c.id) :
    (insertDescriptor c ds).Pairwise fun a b => a.id.asStr < b.id.asStr := by
  induction ds with
  | nil => simp [insertDescriptor]
  | cons e ds ih =>
      obtain ⟨he, hrest⟩ := List.pairwise_cons.mp hds
      unfold insertDescriptor
      split
      · rename_i hlt
        refine List.pairwise_cons.mpr ⟨?_, hds⟩
        intro d hd
        rcases List.mem_cons.mp hd with rfl | hd
        · exact hlt
        · exact lt_trans hlt (he d hd)
      · rename_i hnlt
        have hne : e.id.asStr ≠ c.id.asStr := fun h => hnew e (by simp) (TypedId.ext h)
        have hlt : e.id.asStr < c.id.asStr := lt_of_le_of_ne (not_lt.mp hnlt) hne
        refine List.pairwise_cons.mpr ⟨?_, ih hrest fun d hd => hnew d (by simp [hd])⟩
        intro d hd
        rcases (mem_insertDescriptor c d ds).mp hd with rfl | hd
        · exact hlt
        · exact he d hd

theorem notMem_of_get_eq_none {registry : CapabilityRegistry} {id : CapabilityId}
    (h : registry.get id = none) : ∀ d ∈ registry.capabilities, d.id ≠ id := by
  simpa [CapabilityRegistry.get] using h

/-- Registration of a valid descriptor under a new identifier. -/
def CapabilityRegistry.register (registry : CapabilityRegistry) (c : CapabilityDescriptor) :
    Except RegistryError CapabilityRegistry :=
  match hvalid : c.validate with
  | .error e => .error (.invalidDescriptor e)
  | .ok () =>
      match hget : registry.get c.id with
      | some _ => .error (.alreadyRegistered c.id)
      | none => .ok {
          capabilities := insertDescriptor c registry.capabilities
          sorted := pairwise_insertDescriptor c _ registry.sorted (notMem_of_get_eq_none hget)
          valid := by
            intro d hd
            rcases (mem_insertDescriptor c d _).mp hd with rfl | hd
            · exact hvalid
            · exact registry.valid d hd }

/-- A descriptor found in the registry is valid and has the identifier asked for. -/
theorem CapabilityRegistry.valid_of_get {registry : CapabilityRegistry} {id : CapabilityId}
    {c : CapabilityDescriptor} (h : registry.get id = some c) :
    c.validate = .ok () ∧ c.id = id := by
  unfold CapabilityRegistry.get at h
  exact ⟨registry.valid c (List.mem_of_find?_eq_some h), by simpa using List.find?_some h⟩

/-- A registry with the capability to open applications. -/
def CapabilityRegistry.launching : CapabilityRegistry where
  capabilities := [openAppDescriptor]
  sorted := List.pairwise_singleton _ _
  valid := by simp [openAppDescriptor_validate]

/-! ## Executors -/

/-- What a completed execution did. -/
inductive ExecutionResultCode where
  | simulated | launched
  deriving DecidableEq, Repr

/-- Why an executor refuses or fails. -/
inductive ExecutionError where
  | invalidAuthorization | unknownApplication | executableIdentityChanged | spawnFailed
  | registryUnavailable
  deriving DecidableEq, Repr

/-- Check that every executor makes before it acts. -/
def validateAuthorization (authorization : ExecutionAuthorization) : Except ExecutionError Unit :=
  if !authorization.descriptor.isValid
      || authorization.action.capabilityId != authorization.descriptor.id
      || authorization.action.arguments.kind != authorization.descriptor.arguments then
    .error .invalidAuthorization
  else
    .ok ()

/-- The dry-run executor simulates every consistent authorization. -/
def dryRunExecute (authorization : ExecutionAuthorization) :
    Except ExecutionError ExecutionResultCode := do
  validateAuthorization authorization
  .ok .simulated

end Halquen.Capabilities.Executor
