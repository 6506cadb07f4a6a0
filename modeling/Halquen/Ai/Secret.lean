import Halquen.Library.Action
import Mathlib.Logic.Function.Basic

/-!
# The secret store

The credential storage of the operating system, as far as it holds the secrets of one service: a
secret or nothing under each reference. An operation may fail for a reason of the storage itself,
an `Outage`; it has then changed nothing.
-/

set_option autoImplicit false

namespace Halquen.Ai.Secret

open Halquen.Library.Action Halquen.Library.Action.Act

/-- Why the secret store does not do what it is asked. -/
inductive SecretError where
  | unavailable | notFound | operationFailed
  deriving DecidableEq, Repr

/-- Why the storage does not perform an operation. -/
inductive Outage where
  | unavailable | operationFailed
  deriving DecidableEq, Repr

/-- The error that an outage shows itself by. -/
def Outage.error : Outage → SecretError
  | .unavailable => .unavailable
  | .operationFailed => .operationFailed

/-- The secret under each reference. -/
abbrev Secrets := String → Option String

variable (outage : Option Outage)

/-- Goes on only where the storage performs the operation. -/
def reach : Act Secrets SecretError Unit :=
  match outage with
  | none => pure ()
  | some reason => throw reason.error

/-- `store`: the secret replaces the one of the same reference. -/
def store (credentialId secret : String) : Act Secrets SecretError Unit := do
  reach outage
  modify fun secrets => Function.update secrets credentialId (some secret)

/-- `retrieve`: a reference without a secret is an error. -/
def retrieve (credentialId : String) : Act Secrets SecretError String := do
  reach outage
  orThrow .notFound (← gets fun secrets => secrets credentialId)

/-- `delete`: a reference without a secret is an error. -/
def delete (credentialId : String) : Act Secrets SecretError Unit := do
  reach outage
  let _ ← orThrow .notFound (← gets fun secrets => secrets credentialId)
  modify fun secrets => Function.update secrets credentialId none

end Halquen.Ai.Secret
