import Halquen.Service.State

/-!
# Requests on the memory

A preference is stored as a new revision of the item of its key, or as a new item. Restoring a
revision stores its value once more, as the new head of the item.
-/

set_option autoImplicit false

namespace Halquen.Service.MemoryService

open Halquen.Domain.Ids Halquen.Domain.Security Halquen.Memory.Semantic
open Halquen.Protocol.Messages
open Halquen.Library.Action Halquen.Library.Action.Act
open Halquen.Service.State Halquen.Storage.Memory Halquen.Storage.Sqlite

/-- First revision of a new item. -/
def newItem (memoryId : MemoryId) (revision : MemoryRevision) (timestamp : Int) : MemoryItem where
  id := memoryId
  kind := .semantic
  currentRevisionId := revision.id
  createdAtMs := timestamp
  updatedAtMs := timestamp

/-- The item with another revision as its head. -/
def withRevision (item : MemoryItem) (revision : MemoryRevision) (timestamp : Int) : MemoryItem :=
  { item with currentRevisionId := revision.id, updatedAtMs := timestamp }

/-- A revision that says one thing. -/
def newRevision (id : MemoryRevisionId) (memoryId : MemoryId)
    (previousRevisionId : Option MemoryRevisionId) (value : MemoryValue) (evidenceId : EvidenceId)
    (timestamp : Int) : MemoryRevision where
  id := id
  memoryId := memoryId
  previousRevisionId := previousRevisionId
  value := value
  evidenceIds := [evidenceId]
  createdAtMs := timestamp
  validFromMs := some timestamp
  validUntilMs := none

/-- Evidence that the user has given. -/
def userEvidence (id : EvidenceId) (reference : String) (timestamp : Int) : Evidence where
  id := id
  trust := .userExplicit
  sourceReference := some reference
  createdAtMs := timestamp

section

variable (W : World)

/-- Stores a revision; the record of the audit trail gets an identifier of its own. -/
def persist (item : MemoryItem) (revision : MemoryRevision) (evidence : List Evidence) :
    Operation Unit := do
  let auditId ← generate W .audit
  let attempts ← gets fun s => s.calls .persistMemoryRevision
  query W .persistMemoryRevision (onMemoryStore
    (persistMemoryRevision (W.failsStatement attempts) auditId item revision evidence))

/-- The item of a preference with its new revision: the next one of a stored item, or the first
one of a new item. -/
def preferenceRevision (existing : Option (MemoryItem × MemoryRevision)) (value : MemoryValue)
    (evidenceId : EvidenceId) (timestamp : Int) : Operation (MemoryItem × MemoryRevision) :=
  match existing with
  | some (item, _) => do
      let id ← generate W .memoryRevision
      let revision :=
        newRevision id item.id (some item.currentRevisionId) value evidenceId timestamp
      return (withRevision item revision timestamp, revision)
  | none => do
      let memoryId ← generate W .memory
      let id ← generate W .memoryRevision
      let revision := newRevision id memoryId none value evidenceId timestamp
      return (newItem memoryId revision timestamp, revision)

/-- `commit_preference`: a new revision of the preference of this key, or a new preference. -/
def commitPreference (key value sourceReference : String) : Operation MemoryMutationReceipt := do
  let timestamp ← now W
  let evidenceId ← generate W .evidence
  let existing ← read W .preferenceByKey fun d => .ok (preferenceByKey d.memory key)
  let change ← preferenceRevision W existing (.preference key value) evidenceId timestamp
  persist W change.1 change.2 [userEvidence evidenceId sourceReference timestamp]
  return ⟨change.1.id, change.2.id, key ++ " → " ++ value⟩

/-- `update_memory_state`. -/
def updateMemoryState (update : MemoryStateUpdate) : Operation ProtocolResponse := do
  let updated ← query W .setMemoryState
    (onMemory
      (setMemoryState update.memoryId update.pinned update.disabled update.priorityPermille))
  return .memoryUpdated updated

/-- `restore_memory_revision`: an old value becomes a new revision. -/
def restoreMemoryRevision (memoryId : MemoryId) (revisionId : MemoryRevisionId) :
    Operation ProtocolResponse := do
  let head ← read W .memoryHead fun d => .ok (memoryHead d.memory memoryId)
  let stored ← orThrow notFound head
  let found ← read W .memoryRevision fun d => .ok (memoryRevision d.memory memoryId revisionId)
  let source ← orThrow notFound found
  let timestamp ← now W
  let evidenceId ← generate W .evidence
  let id ← generate W .memoryRevision
  let revision :=
    newRevision id memoryId (some stored.1.currentRevisionId) source.value evidenceId timestamp
  persist W (withRevision stored.1 revision timestamp) revision
    [userEvidence evidenceId ("restore:" ++ revisionId.asStr) timestamp]
  return .memoryMutation ⟨stored.1.id, id, "Restored as a new revision"⟩

end

end Halquen.Service.MemoryService
