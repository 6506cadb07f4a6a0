import Halquen.Library.Action
import Halquen.Memory.Semantic
import Mathlib.Data.List.AList

/-!
# The memory ledger

The versioned memory as the process keeps it: items and revisions by identifier. Every change adds
a revision, which becomes the head of its item; it needs evidence, and a value of the kind of the
item. Where it has them, `create_eq` and `revise_eq` say what it does; a restoration is a revision
with the value of an earlier one (`restore_eq`), which has to be of the same item
(`restore_refused`). The identifiers that a change generates are its first arguments.
-/

set_option autoImplicit false

namespace Halquen.Memory.Ledger

open Halquen.Domain.Ids Halquen.Memory.Semantic
open Halquen.Library.Action Halquen.Library.Action.Act

/-- Why a change of the memory is refused. -/
inductive MemoryError where
  | missingEvidence | itemNotFound | revisionNotFound | revisionMismatch | kindMismatch
  deriving DecidableEq, Repr

/-- `MemoryLedger`: items and revisions under their identifiers. -/
structure MemoryLedger where
  items : AList fun _ : MemoryId => MemoryItem
  revisions : AList fun _ : MemoryRevisionId => MemoryRevision

namespace MemoryLedger

/-- `MemoryLedger::new`. -/
def new : MemoryLedger := ⟨∅, ∅⟩

/-- `MemoryLedger::item`. -/
def item (ledger : MemoryLedger) (id : MemoryId) : Option MemoryItem := ledger.items.lookup id

/-- `MemoryLedger::revision`. -/
def revision (ledger : MemoryLedger) (id : MemoryRevisionId) : Option MemoryRevision :=
  ledger.revisions.lookup id

/-- The ledger with an item and a revision entered. -/
def enter (ledger : MemoryLedger) (memoryId : MemoryId) (item : MemoryItem)
    (revision : MemoryRevision) : MemoryLedger :=
  ⟨ledger.items.insert memoryId item, ledger.revisions.insert revision.id revision⟩

end MemoryLedger

/-- A computation on the ledger. -/
abbrev Change (α : Type) := Act MemoryLedger MemoryError α

/-- Every change rests on some evidence. -/
def requireEvidence (evidenceIds : List EvidenceId) : Change Unit :=
  require (!evidenceIds.isEmpty) .missingEvidence

/-- An item holds values of its kind only. -/
def requireKind (kind : MemoryKind) (value : MemoryValue) : Change Unit :=
  require (kind == value.kind) .kindMismatch

/-- A revision that is valid from the time at which it is made. -/
def revisionAt (id : MemoryRevisionId) (memoryId : MemoryId) (previous : Option MemoryRevisionId)
    (value : MemoryValue) (evidenceIds : List EvidenceId) (nowMs : Int) : MemoryRevision where
  id := id
  memoryId := memoryId
  previousRevisionId := previous
  value := value
  evidenceIds := evidenceIds
  createdAtMs := nowMs
  validFromMs := some nowMs
  validUntilMs := none

/-- `MemoryLedger::create`: a new item with a first revision, which has no previous one. -/
def create (memoryId : MemoryId) (revisionId : MemoryRevisionId) (kind : MemoryKind)
    (value : MemoryValue) (evidenceIds : List EvidenceId) (nowMs : Int) : Change MemoryId := do
  requireEvidence evidenceIds
  requireKind kind value
  modify fun ledger => ledger.enter memoryId ⟨memoryId, kind, revisionId, nowMs, nowMs⟩
    (revisionAt revisionId memoryId none value evidenceIds nowMs)
  return memoryId

/-- `MemoryLedger::revise`: a new revision, linked to the current one, becomes current. -/
def revise (revisionId : MemoryRevisionId) (memoryId : MemoryId) (value : MemoryValue)
    (evidenceIds : List EvidenceId) (nowMs : Int) : Change MemoryRevisionId := do
  requireEvidence evidenceIds
  let ledger ← gets fun ledger => ledger
  let item ← orThrow .itemNotFound (ledger.item memoryId)
  requireKind item.kind value
  modify fun ledger => ledger.enter memoryId
    { item with currentRevisionId := revisionId, updatedAtMs := nowMs }
    (revisionAt revisionId memoryId (some item.currentRevisionId) value evidenceIds nowMs)
  return revisionId

/-- `MemoryLedger::restore`: the value of an earlier revision of the item in a new revision. -/
def restore (revisionId : MemoryRevisionId) (memoryId : MemoryId)
    (sourceRevisionId : MemoryRevisionId) (evidenceIds : List EvidenceId) (nowMs : Int) :
    Change MemoryRevisionId := do
  let ledger ← gets fun ledger => ledger
  let source ← orThrow .revisionNotFound (ledger.revision sourceRevisionId)
  require (source.memoryId == memoryId) .revisionMismatch
  revise revisionId memoryId source.value evidenceIds nowMs

/-! ## What the changes do -/

section

variable {ledger : MemoryLedger} {memoryId : MemoryId}
  {revisionId sourceRevisionId : MemoryRevisionId} {kind : MemoryKind} {value : MemoryValue}
  {evidenceIds : List EvidenceId} {nowMs : Int}

theorem requireEvidence_of_ne_nil (h : evidenceIds ≠ []) (ledger : MemoryLedger) :
    requireEvidence evidenceIds ledger = (.ok (), ledger) := by
  unfold requireEvidence
  rw [List.isEmpty_eq_false_iff.mpr h]
  rfl

theorem requireKind_of_eq (h : kind = value.kind) (ledger : MemoryLedger) :
    requireKind kind value ledger = (.ok (), ledger) := by
  unfold requireKind
  rw [h, beq_self_eq_true]
  rfl

theorem create_eq (hevidence : evidenceIds ≠ []) (hkind : kind = value.kind)
    (ledger : MemoryLedger) :
    create memoryId revisionId kind value evidenceIds nowMs ledger =
      (.ok memoryId, ledger.enter memoryId ⟨memoryId, kind, revisionId, nowMs, nowMs⟩
        (revisionAt revisionId memoryId none value evidenceIds nowMs)) := by
  unfold create
  rw [bind_of_ok (requireEvidence_of_ne_nil hevidence ledger),
    bind_of_ok (requireKind_of_eq hkind ledger)]
  rfl

theorem revise_eq (hevidence : evidenceIds ≠ []) {item : MemoryItem}
    (hitem : ledger.item memoryId = some item) (hkind : item.kind = value.kind) :
    revise revisionId memoryId value evidenceIds nowMs ledger =
      (.ok revisionId, ledger.enter memoryId
        { item with currentRevisionId := revisionId, updatedAtMs := nowMs }
        (revisionAt revisionId memoryId (some item.currentRevisionId) value evidenceIds
          nowMs)) := by
  have hfound : orThrow .itemNotFound (ledger.item memoryId) ledger =
      (Except.ok (ε := MemoryError) item, ledger) := by
    rw [hitem]
    rfl
  unfold revise
  rw [bind_of_ok (requireEvidence_of_ne_nil hevidence ledger)]
  change ((orThrow .itemNotFound (ledger.item memoryId) : Change MemoryItem) >>= _) ledger = _
  rw [bind_of_ok hfound, bind_of_ok (requireKind_of_eq hkind ledger)]
  rfl

/-- A restoration of a revision of the item is a revision with its value. -/
theorem restore_eq {source : MemoryRevision}
    (hsource : ledger.revision sourceRevisionId = some source)
    (howner : source.memoryId = memoryId) :
    restore revisionId memoryId sourceRevisionId evidenceIds nowMs ledger =
      revise revisionId memoryId source.value evidenceIds nowMs ledger := by
  have hfound : orThrow .revisionNotFound (ledger.revision sourceRevisionId) ledger =
      (Except.ok (ε := MemoryError) source, ledger) := by
    rw [hsource]
    rfl
  have hrequire : require (source.memoryId == memoryId) .revisionMismatch ledger =
      (Except.ok (ε := MemoryError) (), ledger) := by
    rw [howner, beq_self_eq_true]
    rfl
  unfold restore
  change ((orThrow .revisionNotFound (ledger.revision sourceRevisionId) :
    Change MemoryRevision) >>= _) ledger = _
  rw [bind_of_ok hfound, bind_of_ok hrequire]

/-- A revision that is not of the item is not restored. -/
theorem restore_refused
    (h : ∀ source, ledger.revision sourceRevisionId = some source → source.memoryId ≠ memoryId) :
    ∃ e, restore revisionId memoryId sourceRevisionId evidenceIds nowMs ledger =
      (.error e, ledger) := by
  unfold restore
  change ∃ e, ((orThrow .revisionNotFound (ledger.revision sourceRevisionId) :
    Change MemoryRevision) >>= _) ledger = _
  cases hsource : ledger.revision sourceRevisionId with
  | none => exact ⟨.revisionNotFound, rfl⟩
  | some source =>
      have hrequire : require (source.memoryId == memoryId) .revisionMismatch ledger =
          (Except.error (α := Unit) MemoryError.revisionMismatch, ledger) := by
        rw [beq_eq_false_iff_ne.mpr (h source hsource)]
        rfl
      refine ⟨.revisionMismatch, ?_⟩
      change ((require (source.memoryId == memoryId) .revisionMismatch : Change Unit) >>= _)
        ledger = _
      simp only [bind, hrequire]

end

end Halquen.Memory.Ledger
