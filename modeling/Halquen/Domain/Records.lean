import Halquen.Domain.Capability

/-!
# Entities, unknown cases and proposals

Records that the database keeps for later stages of the assistant.
-/

set_option autoImplicit false

namespace Halquen.Domain.Records

open Halquen.Domain.Ids Halquen.Domain.Capability

/-- Kinds of things that memory speaks of. -/
inductive EntityKind where
  | application | project | file | person | device | routine | generic
  deriving DecidableEq, Repr

/-- A thing that memory speaks of, with the time in which it is valid. -/
structure Entity where
  id : EntityId
  kind : EntityKind
  canonicalName : String
  createdAtMs : Int
  updatedAtMs : Int
  validFromMs : Option Int
  validUntilMs : Option Int
  deriving DecidableEq

/-- What has become of a case that nobody could resolve. -/
inductive QueueStatus where
  | pending | resolved | dismissed
  deriving DecidableEq, Repr

/-- Identifier of an unknown case. -/
abbrev UnknownCaseId := TypedId (.generated .unknownCase)

/-- A request that was not understood and waits for the user. -/
structure UnknownCase where
  id : UnknownCaseId
  requestSummary : String
  status : QueueStatus
  createdAtMs : Int
  deriving DecidableEq

/-- An intent is named by any valid opaque identifier. -/
abbrev IntentId := { text : String // validateOpaque text = .ok () }

/-- What has become of a proposal of a model. -/
inductive ProposalStatus where
  | pending | accepted | rejected | superseded
  deriving DecidableEq, Repr

/-- What a model proposes. -/
inductive ProposalPayload where
  | «alias» (entityId : EntityId) («alias» : String)
  | intentInterpretation (intentId : IntentId) (capabilityId : CapabilityId)
  | memoryUpdate (memoryId : MemoryId) (summary : String)
  | routine (name : String) (steps : List ActionRequest)
  | plan (actions : List ActionRequest)
  deriving DecidableEq

/-- A proposal of a model with the evidence that it rests on. -/
structure AiProposal where
  id : ProposalId
  providerModel : String
  createdAtMs : Int
  payload : ProposalPayload
  status : ProposalStatus
  evidenceIds : List EvidenceId
  deriving DecidableEq

end Halquen.Domain.Records
