import Halquen.Domain.Security

/-!
# Memory items, revisions and evidence

The value of a revision determines the kind of the item it can belong to. An item designates its
current revision; older revisions are reached through their predecessors.
-/

set_option autoImplicit false

namespace Halquen.Memory.Semantic

open Halquen.Domain.Ids Halquen.Domain.Security

/-- Kinds of memory items; a revision has the kind of its value. -/
inductive MemoryKind where
  | semantic | procedural
  deriving DecidableEq, Repr

/-- What a revision of a memory item says. -/
inductive MemoryValue where
  | fact (subject : EntityId) (predicate object : String)
  | relation («from» : EntityId) (relation : String) («to» : EntityId)
  | preference (key value : String)
  | procedure (name : String) (capabilityIds : List String)
  deriving DecidableEq

/-- The kind that an item must have to hold this value. -/
def MemoryValue.kind : MemoryValue → MemoryKind
  | .fact .. | .relation .. | .preference .. => .semantic
  | .procedure .. => .procedural

/-- A memory item, which points to its current revision. -/
structure MemoryItem where
  id : MemoryId
  kind : MemoryKind
  currentRevisionId : MemoryRevisionId
  createdAtMs : Int
  updatedAtMs : Int
  deriving DecidableEq

/-- A version of a memory item, linked to the one before it. -/
structure MemoryRevision where
  id : MemoryRevisionId
  memoryId : MemoryId
  previousRevisionId : Option MemoryRevisionId
  value : MemoryValue
  evidenceIds : List EvidenceId
  createdAtMs : Int
  validFromMs : Option Int
  validUntilMs : Option Int
  deriving DecidableEq

/-- What a revision rests on, and how far it is trusted. -/
structure Evidence where
  id : EvidenceId
  trust : TrustClass
  sourceReference : Option String
  createdAtMs : Int
  deriving DecidableEq

end Halquen.Memory.Semantic
