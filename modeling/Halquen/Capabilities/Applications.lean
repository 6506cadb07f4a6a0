import Halquen.Domain.Application
import Halquen.Library.Mirror

/-!
# The registry of applications

The registrations that the executor consults, by identifier. The registry takes valid registrations
only; it is filled from a list when the daemon starts.
-/

set_option autoImplicit false

namespace Halquen.Capabilities.Applications

open Halquen.Domain.Ids Halquen.Domain.Application Halquen.Library.Mirror

/-- The applications that may be launched, in memory and by their identifier. -/
structure ApplicationRegistry where
  applications : AList fun _ : EntityId => RegisteredApplication

/-- Why the registry refuses an application. -/
inductive ApplicationRegistryError where
  | invalidRegistration
  deriving DecidableEq, Repr

namespace ApplicationRegistry

/-- The registry of a daemon that knows no application. -/
def new : ApplicationRegistry := ⟨∅⟩

/-- Adds an application to the registry, or replaces the one of the same identifier, if it is
valid. -/
def upsert (registry : ApplicationRegistry) (application : RegisteredApplication) :
    Except ApplicationRegistryError ApplicationRegistry := do
  application.validate.mapError fun _ => .invalidRegistration
  return ⟨registry.applications.insert application.entityId application⟩

/-- `ApplicationRegistry::from_applications`: the applications are added in turn, and one that is
not valid fails the whole. -/
def fromApplications (applications : List RegisteredApplication) :
    Except ApplicationRegistryError ApplicationRegistry :=
  applications.foldlM upsert new

/-- Removes an application by its identifier and says whether it was there. -/
def remove (registry : ApplicationRegistry) (entityId : EntityId) : Bool × ApplicationRegistry :=
  (decide (entityId ∈ registry.applications), ⟨registry.applications.erase entityId⟩)

/-- The application of an identifier. -/
def get (registry : ApplicationRegistry) (entityId : EntityId) : Option RegisteredApplication :=
  registry.applications.lookup entityId

theorem upsert_of_valid {application : RegisteredApplication} (h : application.validate = .ok ())
    (registry : ApplicationRegistry) : registry.upsert application =
      .ok ⟨registry.applications.insert application.entityId application⟩ := by
  rw [upsert, h]
  rfl

/-- Valid registrations are entered one after the other. -/
theorem fromApplications_of_valid {applications : List RegisteredApplication}
    (h : ∀ application ∈ applications, application.validate = .ok ()) :
    fromApplications applications =
      .ok ⟨load RegisteredApplication.entityId ∅ applications⟩ := by
  have hfrom : ∀ registry : ApplicationRegistry, applications.foldlM upsert registry =
      .ok ⟨load RegisteredApplication.entityId registry.applications applications⟩ := by
    induction applications with
    | nil =>
        intro registry
        rfl
    | cons first rest ih =>
        intro registry
        rw [List.foldlM_cons, upsert_of_valid (h first List.mem_cons_self)]
        exact ih (fun application hmem => h application (List.mem_cons_of_mem _ hmem)) _
  exact hfrom new

end ApplicationRegistry

end Halquen.Capabilities.Applications
