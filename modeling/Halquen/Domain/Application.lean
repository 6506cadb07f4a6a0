import Halquen.Domain.Agent

/-!
# Registered applications

An application that the daemon may start, with the identity of its executable. A registration is
valid only if the executable is recorded under the canonical path of its identity.
-/

set_option autoImplicit false

namespace Halquen.Domain.Application

open Halquen.Domain.Ids Halquen.Domain.Capability Halquen.Domain.Security Halquen.Domain.Agent

/-- An application that the user has registered, with the identity of its executable. -/
structure RegisteredApplication where
  entityId : EntityId
  displayName : String
  executable : String
  arguments : List String
  ownership : ExecutableOwnership
  identity : ExecutableIdentity
  enabled : Bool
  createdAtMs : Int
  updatedAtMs : Int
  deriving DecidableEq

/-- The check of a registration: an `app:` entity, a name and an absolute executable with bounded
arguments, and a valid identity. -/
def RegisteredApplication.validate (application : RegisteredApplication) :
    Except SecurityValidationError Unit :=
  if !"app:".toList.isPrefixOf application.entityId.asStr.toList
      || isBlank application.displayName
      || decide (128 < application.displayName.utf8ByteSize)
      || !isAbsolute application.executable
      || decide (1024 < application.executable.utf8ByteSize)
      || decide (32 < application.arguments.length)
      || application.arguments.any (fun argument =>
        decide (1024 < argument.utf8ByteSize) || argument.toList.contains (Char.ofNat 0))
      || decide (application.updatedAtMs < application.createdAtMs)
      || application.identity.canonicalPath != application.executable then
    .error .invalidApplicationRegistration
  else
    application.identity.validate

theorem canonicalPath_of_validate {application : RegisteredApplication}
    (h : application.validate = .ok ()) :
    application.identity.canonicalPath = application.executable := by
  unfold RegisteredApplication.validate at h
  split at h
  · cases h
  · rename_i hrules
    simp only [Bool.or_eq_true, not_or] at hrules
    simpa using hrules.2

/-- A registration stays valid with another time of creation that is not after the last update. -/
theorem validate_createdAt {application : RegisteredApplication}
    (h : application.validate = .ok ()) {createdAtMs : Int}
    (hle : createdAtMs ≤ application.updatedAtMs) :
    ({ application with createdAtMs := createdAtMs } : RegisteredApplication).validate =
      .ok () := by
  unfold RegisteredApplication.validate at *
  split at h
  · cases h
  · rename_i hrules
    rw [if_neg]
    · exact h
    · simp only [Bool.or_eq_true, not_or, decide_eq_true_eq] at hrules ⊢
      obtain ⟨⟨hfront, -⟩, hpath⟩ := hrules
      exact ⟨⟨hfront, not_lt.mpr hle⟩, hpath⟩

/-- A registration stays valid under another identifier that starts as it should. -/
theorem validate_entityId {application : RegisteredApplication}
    (h : application.validate = .ok ()) {id : EntityId}
    (hid : "app:".toList.isPrefixOf id.asStr.toList = true) :
    ({ application with entityId := id } : RegisteredApplication).validate = .ok () := by
  unfold RegisteredApplication.validate at *
  split at h
  · cases h
  · rename_i hrules
    rw [if_neg]
    · exact h
    · simp only [hid, Bool.not_true, Bool.false_or]
      simp only [Bool.or_eq_true, not_or] at hrules ⊢
      obtain ⟨⟨⟨⟨⟨⟨⟨⟨-, hname⟩, hlength⟩, habsolute⟩, hpath⟩, hcount⟩, harguments⟩, htimes⟩,
        hidentity⟩ := hrules
      exact ⟨⟨⟨⟨⟨⟨⟨hname, hlength⟩, habsolute⟩, hpath⟩, hcount⟩, harguments⟩, htimes⟩, hidentity⟩

end Halquen.Domain.Application
