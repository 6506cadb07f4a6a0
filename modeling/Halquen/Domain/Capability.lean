import Halquen.Domain.Ids
import Halquen.Library.Rules
import Mathlib.Data.Prod.Lex
import Mathlib.Data.String.Basic

/-!
# Capabilities and action requests

A capability descriptor declares what an action may do: its risk class, its effects, the scopes it
needs and the kind of arguments it takes. `CapabilityDescriptor.validate` performs the checks of
the source in the source's order. What a valid descriptor promises about the combination of risk
class and effects is `CapabilityDescriptor.effects_of_validate`.
-/

set_option autoImplicit false

namespace Halquen.Domain.Capability

open Halquen.Domain.Ids Halquen.Library.Rules

/-- White space in the sense of Unicode, as `str::trim` removes it. -/
def isWhiteSpace (c : Char) : Bool :=
  (9 ≤ c.toNat && c.toNat ≤ 13) || c.toNat == 0x20 || c.toNat == 0x85 || c.toNat == 0xA0
    || c.toNat == 0x1680 || (0x2000 ≤ c.toNat && c.toNat ≤ 0x200A) || c.toNat == 0x2028
    || c.toNat == 0x2029 || c.toNat == 0x202F || c.toNat == 0x205F || c.toNat == 0x3000

/-- `value.trim().is_empty()`. -/
def isBlank (value : String) : Bool := value.toList.all isWhiteSpace

/-- What an execution may change, from reading to administration. -/
inductive RiskClass where
  | readOnly | localSideEffect | reversibleLocalWrite | externalSideEffect | destructive
  | privileged | unknown
  deriving DecidableEq, Repr

/-- Whether the risk decides about confirmation or it is always asked for. -/
inductive ConfirmationPolicy where
  | riskBased | always
  deriving DecidableEq, Repr

/-- What must be granted before a capability may be used at all. -/
inductive ScopeRequirement where
  | application (entity : EntityId)
  | pathPrefix (path : String)
  | named (scope : String)
  deriving DecidableEq

/-- Sort key behind the derived order of scope requirements: the variant, then its payload. -/
def ScopeRequirement.orderKey : ScopeRequirement → Nat ×ₗ String
  | .application entity => toLex (0, entity.asStr)
  | .pathPrefix path => toLex (1, path)
  | .named scope => toLex (2, scope)

theorem ScopeRequirement.orderKey_injective :
    Function.Injective ScopeRequirement.orderKey := by
  intro a b h
  cases a <;> cases b <;> simp [orderKey] at h
  · exact congrArg application (TypedId.ext h)
  · exact congrArg pathPrefix h
  · exact congrArg named h

instance : LinearOrder ScopeRequirement :=
  LinearOrder.lift' ScopeRequirement.orderKey ScopeRequirement.orderKey_injective

/-- The shapes of arguments. -/
inductive ActionArgumentKind where
  | none | openApp
  deriving DecidableEq, Repr

/-- The arguments of an action. -/
inductive ActionArguments where
  | none
  | openApp (app : EntityId)
  deriving DecidableEq

/-- The shape that arguments have. -/
def ActionArguments.kind : ActionArguments → ActionArgumentKind
  | .none => .none
  | .openApp _ => .openApp

/-- A capability with its arguments. -/
structure ActionRequest where
  capabilityId : CapabilityId
  arguments : ActionArguments
  deriving DecidableEq

/-- What a capability declares of itself. -/
structure CapabilityDescriptor where
  id : CapabilityId
  version : UInt32
  description : String
  risk : RiskClass
  sideEffect : Bool
  idempotent : Bool
  reversible : Bool
  scopeRequirements : List ScopeRequirement
  confirmation : ConfirmationPolicy
  timeoutMs : UInt64
  arguments : ActionArgumentKind
  deriving DecidableEq

/-- Why a descriptor contradicts itself. -/
inductive CapabilityValidationError where
  | invalidId (error : IdError)
  | zeroVersion
  | invalidDescription
  | invalidTimeout
  | readOnlySideEffect
  | readOnlyReversible
  | invalidLocalSideEffect
  | invalidReversibleLocalWrite
  | riskRequiresSideEffect
  | destructiveReversible
  | reversibleWithoutSideEffect
  deriving DecidableEq, Repr

/-- Error of the identifier check, if it fails. -/
def idFailure (id : CapabilityId) : Option CapabilityValidationError :=
  match TypedId.new .capability id.asStr with
  | .ok _ => none
  | .error e => some (.invalidId e)

/-- Checks on a capability descriptor, in the order of the source. The identifier is checked once
more although its type already guarantees the outcome. -/
def CapabilityDescriptor.validate (c : CapabilityDescriptor) :
    Except CapabilityValidationError Unit :=
  firstFailure [
    idFailure c.id,
    rule (c.version == 0) .zeroVersion,
    rule (isBlank c.description || decide (512 < c.description.utf8ByteSize)) .invalidDescription,
    rule (!(decide (1 ≤ c.timeoutMs) && decide (c.timeoutMs ≤ 300000))) .invalidTimeout,
    rule (c.risk == .readOnly && c.sideEffect) .readOnlySideEffect,
    rule (c.risk == .readOnly && c.reversible) .readOnlyReversible,
    rule (c.risk == .localSideEffect && (!c.sideEffect || c.reversible)) .invalidLocalSideEffect,
    rule (c.risk == .reversibleLocalWrite && (!c.sideEffect || !c.reversible))
      .invalidReversibleLocalWrite,
    rule ((c.risk == .externalSideEffect || c.risk == .destructive) && !c.sideEffect)
      .riskRequiresSideEffect,
    rule (c.risk == .destructive && c.reversible) .destructiveReversible,
    rule (c.reversible && !c.sideEffect) .reversibleWithoutSideEffect]

/-- `validate().is_ok()`. -/
def CapabilityDescriptor.isValid (c : CapabilityDescriptor) : Bool :=
  c.validate matches .ok _

/-- Risk class and declared effects of a valid descriptor fit together. -/
theorem CapabilityDescriptor.effects_of_validate {c : CapabilityDescriptor}
    (h : c.validate = .ok ()) :
    match c.risk with
    | .readOnly => c.sideEffect = false ∧ c.reversible = false
    | .localSideEffect => c.sideEffect = true ∧ c.reversible = false
    | .reversibleLocalWrite => c.sideEffect = true ∧ c.reversible = true
    | .externalSideEffect => c.sideEffect = true
    | .destructive => c.sideEffect = true ∧ c.reversible = false
    | .privileged => c.reversible = true → c.sideEffect = true
    | .unknown => c.reversible = true → c.sideEffect = true := by
  rw [validate, firstFailure_eq_ok_iff] at h
  simp only [silent_cons, rule_eq_none_iff] at h
  obtain ⟨-, -, -, -, hro, hrv, hls, hrw, hrisk, hdr, hrev, -⟩ := h
  cases hr : c.risk <;> simp_all

/-- The application launcher, the one capability that the program ships with. -/
def openAppDescriptor : CapabilityDescriptor where
  id := ⟨"system.open_app", by decide⟩
  version := 1
  description := "Open an installed application"
  risk := .localSideEffect
  sideEffect := true
  idempotent := false
  reversible := false
  scopeRequirements := []
  confirmation := .riskBased
  timeoutMs := 5000
  arguments := .openApp

theorem openAppDescriptor_validate : openAppDescriptor.validate = .ok () := by decide

end Halquen.Domain.Capability
