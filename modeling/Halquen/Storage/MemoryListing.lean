import Halquen.Library.Like
import Halquen.Library.Ranking
import Halquen.Storage.MemoryChain

/-!
# Listings of the memory

The items with their current revisions, filtered by kind and by a search text, and the revisions of
one item. A search text becomes a pattern of `LIKE`, in which only its percent signs are escaped.
-/

set_option autoImplicit false

namespace Halquen.Storage.MemoryListing

open Halquen.Domain.Ids Halquen.Domain.Security Halquen.Memory.Semantic
open Halquen.Library.Like Halquen.Library.Ranking Halquen.Library.Sql
open Halquen.Storage.Memory

/-! ## Views -/

/-- A memory as it is listed. -/
structure MemoryView where
  item : MemoryItem
  current : MemoryRevision
  evidenceCount : Nat
  trustClasses : List TrustClass
  priorityPermille : Nat
  confidencePermille : Nat
  pinned : Bool
  disabled : Bool
  lastUsedAtMs : Option Int
  deriving DecidableEq

/-- A revision as it is listed. -/
structure MemoryRevisionView where
  revision : MemoryRevision
  trustClasses : List TrustClass
  deriving DecidableEq

/-- Trust classes of the evidence of a revision: `ORDER BY e.created_at_ms, e.id`. -/
def revisionTrust (t : MemoryTables) (id : MemoryRevisionId) : List TrustClass :=
  let linked := t.evidence.filter fun e => t.links.contains ⟨id, e.id⟩
  (orderBy (fun e : Evidence => toLex (e.createdAtMs, e.id.asStr)) linked).map Evidence.trust

/-- An item joined with its current revision, as the listing shows it. -/
def memoryView (t : MemoryTables) (row : MemoryItemRow) : Option MemoryView := do
  let head ← row.currentRevisionId
  let revision ← t.revisions.find? fun r => r.id == head
  return {
    item := ⟨row.id, row.memoryKind, head, row.createdAtMs, row.updatedAtMs⟩
    current := { revision.read t with id := head, memoryId := row.id }
    evidenceCount := t.links.countP fun link => link.revisionId == revision.id
    trustClasses := revisionTrust t head
    priorityPermille := row.priorityPermille
    confidencePermille := row.confidencePermille
    pinned := row.pinned
    disabled := row.disabled
    lastUsedAtMs := row.lastUsedAtMs }

/-! ## The listing of items -/

/-- `format!("%{}%", value.replace('%', "\\%"))`. -/
def searchPattern (value : List Char) : List Char :=
  '%' :: (value.flatMap fun c => if c = '%' then ['\\', '%'] else [c]) ++ ['%']

/-- `ORDER BY pinned DESC, priority_permille DESC, updated_at_ms DESC`. -/
def memoryKey (view : MemoryView) : Nat ×ₗ Int ×ₗ Int :=
  toLex (if view.pinned then 0 else 1,
    toLex (-(view.priorityPermille : Int), -view.item.updatedAtMs))

section

variable (encode : MemoryValue → String)

/-- `value_json LIKE pattern ESCAPE '\' OR id LIKE pattern ESCAPE '\'`. -/
def found (pattern : List Char) (view : MemoryView) : Bool :=
  like '\\' pattern (encode view.current.value).toList ||
    like '\\' pattern view.item.id.asStr.toList

/-- `list_memory`: the pinned first, then by priority, then the newest. -/
def listMemory (t : MemoryTables) (kind : Option MemoryKind) (search : Option String)
    (limit : Nat) : List MemoryView :=
  let pattern := search.map fun value => searchPattern value.toList
  let selected := (t.items.filterMap (memoryView t)).filter fun view =>
    kind.all (fun kind => view.item.kind == kind) &&
      pattern.all fun pattern => found encode pattern view
  (orderBy memoryKey selected).take (min 500 (max 1 limit))

end

/-! ## The listing of revisions -/

/-- `ORDER BY created_at_ms DESC, rowid DESC`. -/
def memoryHistory (t : MemoryTables) (id : MemoryId) : List MemoryRevisionView :=
  (orderByDesc MemoryRevisionRow.createdAtMs
    (t.revisions.filter fun row => row.memoryId == id)).map fun row =>
      ⟨row.read t, revisionTrust t row.id⟩

end Halquen.Storage.MemoryListing
