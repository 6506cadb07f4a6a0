import Halquen.Storage.MemoryListing

/-!
# The order of a history

The revisions of an item are listed by the times that they carry, the latest first, while the links
between them follow the order in which they were accepted. A submission is not asked to be later
than the current revision of its item, only not to be earlier than the item itself, so that the two
orders differ where the clock was set back between two revisions: the listing then starts with a
revision that is not the current one. They agree exactly if the accepted revisions of the item have
times that never decrease (`memory_history_iff`).
-/

set_option autoImplicit false

namespace Halquen.Storage.RevisionOrder

open Halquen.Domain.Ids Halquen.Memory.Semantic
open Halquen.Library.LinkedChain Halquen.Library.Ranking Halquen.Library.Run Halquen.Library.Sql
open Halquen.Storage.Memory Halquen.Storage.MemoryChain Halquen.Storage.MemoryListing

/-! ## What a listing should show -/

/-- Identifiers of the revisions that the listing of an item shows, in its order. -/
def listedIds (t : MemoryTables) (id : MemoryId) : List MemoryRevisionId :=
  (memoryHistory t id).map fun view => view.revision.id

/-- The listing follows the links: it shows each revision of the item once, the current one first,
and each one names the next as its predecessor. -/
structure FollowsLinks (t : MemoryTables) (item : MemoryItemRow) : Prop where
  once : (listedIds t item.id).Nodup
  complete : ∀ id, id ∈ listedIds t item.id ↔
    ∃ row ∈ t.revisions, row.memoryId = item.id ∧ row.id = id
  current : (memoryHistory t item.id).head?.map (fun view => view.revision.id) =
    item.currentRevisionId
  previous : ∀ (i : Nat) (view : MemoryRevisionView), (memoryHistory t item.id)[i]? = some view →
    view.revision.previousRevisionId =
      (memoryHistory t item.id)[i + 1]?.map fun next => next.revision.id

/-- Times of the revisions of an item that were accepted, in the order of their acceptance. -/
def revisionTimes (accepted : List Submission) (id : MemoryId) : List Int :=
  (accepted.filter fun call => call.revision.memoryId == id).map fun call =>
    call.revision.createdAtMs

/-! ## The two orders -/

section

variable {t : MemoryTables} {item : MemoryItemRow}

/-- Rows of the revisions of an item, as the listing orders them. -/
def listedRows (t : MemoryTables) (id : MemoryId) : List MemoryRevisionRow :=
  orderByDesc MemoryRevisionRow.createdAtMs (revisionsOf t id)

/-- A history lists all revisions. -/
theorem perm_listedRows (t : MemoryTables) (id : MemoryId) :
    (listedRows t id).Perm (revisionsOf t id) :=
  perm_orderByDesc _ _

/-- A history is a reading of the rows in the order of the query. -/
theorem memoryHistory_eq (t : MemoryTables) (id : MemoryId) :
    memoryHistory t id = (listedRows t id).map fun row => ⟨row.read t, revisionTrust t row.id⟩ :=
  rfl

theorem listedIds_eq (t : MemoryTables) (id : MemoryId) :
    listedIds t id = (listedRows t id).map MemoryRevisionRow.id := by
  rw [listedIds, memoryHistory_eq, List.map_map]
  rfl

/-- The first of the history is the first of the rows. -/
theorem head?_memoryHistory (t : MemoryTables) (id : MemoryId) :
    (memoryHistory t id).head?.map (fun view => view.revision.id) =
      (listedRows t id).head?.map MemoryRevisionRow.id := by
  rw [memoryHistory_eq, List.head?_map, Option.map_map]
  rfl

/-- In the listing each entry names the next one exactly if its rows, read backwards, are linked. -/
theorem previous_iff (t : MemoryTables) (id : MemoryId) :
    (∀ (i : Nat) (view : MemoryRevisionView), (memoryHistory t id)[i]? = some view →
        view.revision.previousRevisionId =
          (memoryHistory t id)[i + 1]?.map fun next => next.revision.id) ↔
      Linked MemoryRevisionRow.id MemoryRevisionRow.previousRevisionId none
        (listedRows t id).reverse := by
  have hnext : ∀ i, (memoryHistory t id)[i + 1]?.map (fun next => next.revision.id) =
      (listedRows t id)[i + 1]?.map MemoryRevisionRow.id := by
    intro i
    rw [memoryHistory_eq, List.getElem?_map, Option.map_map]
    rfl
  rw [linked_reverse_iff]
  constructor
  · intro h i row hrow
    have hview : (memoryHistory t id)[i]? = some ⟨row.read t, revisionTrust t row.id⟩ := by
      rw [memoryHistory_eq, List.getElem?_map, hrow]
      rfl
    rw [← hnext i]
    exact h i _ hview
  · intro h i view hview
    rw [memoryHistory_eq, List.getElem?_map] at hview
    obtain ⟨row, hrow, rfl⟩ := Option.map_eq_some_iff.mp hview
    rw [hnext i]
    exact h i row hrow

/-- Read backwards, the listing is the history exactly if the times of the history never
decrease. -/
theorem reverse_listedRows_iff (t : MemoryTables) (id : MemoryId) :
    (listedRows t id).reverse = revisionsOf t id ↔
      (revisionsOf t id).Pairwise fun a b => a.createdAtMs ≤ b.createdAtMs := by
  rw [listedRows, orderByDesc, List.reverse_reverse]
  constructor
  · intro h
    rw [← h]
    exact pairwise_orderBy _ _
  · exact List.Pairwise.insertionSort_eq

/-- No revision occurs twice. -/
theorem keys_revisionsOf (ht : Consistent t) (id : MemoryId) :
    ((revisionsOf t id).map MemoryRevisionRow.id).Nodup :=
  ht.revisionKeys.sublist (List.filter_sublist.map _)

/-- The listing of a stored item follows the links exactly if the times of the history never
decrease. -/
theorem followsLinks_iff (ht : Consistent t) (hitem : item ∈ t.items) :
    FollowsLinks t item ↔
      (revisionsOf t item.id).Pairwise fun a b => a.createdAtMs ≤ b.createdAtMs := by
  obtain ⟨-, hlinked, hhead⟩ := ht.linear item hitem
  rw [← reverse_listedRows_iff]
  constructor
  · intro h
    have hbackwards := (previous_iff t item.id).mp h.previous
    have hperm : (revisionsOf t item.id).Perm (listedRows t item.id).reverse :=
      ((List.reverse_perm _).trans (perm_listedRows t item.id)).symm
    -- Both lists are linked and have the same rows, and only one order is.
    exact (hlinked.eq_of_perm hbackwards (keys_revisionsOf ht item.id) (by simp) hperm).symm
  · intro h
    refine ⟨?_, ?_, ?_, ?_⟩
    · rw [listedIds_eq]
      exact ((perm_listedRows t item.id).map _).nodup_iff.mpr (keys_revisionsOf ht item.id)
    · intro id
      rw [listedIds_eq, ((perm_listedRows t item.id).map _).mem_iff, List.mem_map]
      simp only [revisionsOf, List.mem_filter, beq_iff_eq, and_assoc]
    · rw [head?_memoryHistory, hhead, ← h, tip_reverse]
    · rw [previous_iff, h]
      exact hlinked

end

/-! ## All runs -/

/-- The revisions of an item after a run are those of its accepted submissions. -/
theorem revisionsOf_run (calls : List Submission) (id : MemoryId) :
    revisionsOf (run Submission.perform .empty calls).memory id =
      ((acceptedSubmissions .empty calls).filter fun call => call.revision.memoryId == id).map
        fun call => .ofRevision call.revision := by
  rw [revisionsOf, (history_run .empty calls).1]
  simp only [MemoryStore.empty, MemoryTables.empty, List.nil_append, List.filter_map]
  rfl

/-- Whatever is submitted to an empty memory: the listing of an item follows the links of its
history exactly if the times of its accepted revisions never decrease. -/
theorem memory_history_iff (calls : List Submission) (item : MemoryItemRow)
    (hitem : item ∈ (run Submission.perform .empty calls).memory.items) :
    FollowsLinks (run Submission.perform .empty calls).memory item ↔
      (revisionTimes (acceptedSubmissions .empty calls) item.id).Pairwise (· ≤ ·) := by
  rw [followsLinks_iff (consistent_run calls) hitem, revisionsOf_run, revisionTimes,
    List.pairwise_map, List.pairwise_map]
  rfl

/-! ## A clock that is set back -/

/-- A revision made at a given time. -/
def clockRevision (number : Fin (2 ^ 64)) (previous : Option MemoryRevisionId) (nowMs : Int) :
    MemoryRevision where
  id := .generate .memoryRevision ⟨0, 0, number⟩
  memoryId := .generate .memory ⟨0, 0, 0⟩
  previousRevisionId := previous
  value := .preference "editor" "Zed"
  evidenceIds := [.generate .evidence ⟨0, 0, 0⟩]
  createdAtMs := nowMs
  validFromMs := none
  validUntilMs := none

/-- The storage of it. -/
def clockSubmission (revision : MemoryRevision) (number : Fin (2 ^ 64)) : Submission where
  fails _ := false
  auditId := .generate .audit ⟨0, 0, number⟩
  item := ⟨revision.memoryId, .semantic, revision.id, 1, revision.createdAtMs⟩
  revision := revision
  evidence := [⟨.generate .evidence ⟨0, 0, 0⟩, .userExplicit, none, 1⟩]

/-- An item with two revisions, at the given times. -/
def revisedAt (first second : Int) : List Submission :=
  let revision := clockRevision 1 none first
  [clockSubmission revision 1,
    clockSubmission (clockRevision 2 (some revision.id) second) 2]

/-- Item of `revisedAt`, after both revisions. -/
def revisedItem (second : Int) : MemoryItemRow :=
  ⟨.generate .memory ⟨0, 0, 0⟩, .semantic, some (.generate .memoryRevision ⟨0, 0, 2⟩), 1, second,
    500, 1000, false, false, none⟩

/-- With a clock that goes forward the order is that of the chain. -/
theorem memory_history_later :
    revisedItem 20 ∈ (run Submission.perform .empty (revisedAt 10 20)).memory.items ∧
      FollowsLinks (run Submission.perform .empty (revisedAt 10 20)).memory (revisedItem 20) := by
  have hitem : revisedItem 20 ∈
      (run Submission.perform .empty (revisedAt 10 20)).memory.items := by
    decide
  refine ⟨hitem, (memory_history_iff (revisedAt 10 20) (revisedItem 20) hitem).mpr ?_⟩
  decide

/-- Both revisions are accepted, and the listing starts with the first of them. -/
theorem memory_history_earlier :
    (acceptedSubmissions .empty (revisedAt 10 5)).length = 2 ∧
      ¬ ∀ item ∈ (run Submission.perform .empty (revisedAt 10 5)).memory.items,
        FollowsLinks (run Submission.perform .empty (revisedAt 10 5)).memory item := by
  refine ⟨by decide, fun h => ?_⟩
  have hitem : revisedItem 5 ∈ (run Submission.perform .empty (revisedAt 10 5)).memory.items := by
    decide
  have hcurrent := (h (revisedItem 5) hitem).current
  revert hcurrent
  decide

end Halquen.Storage.RevisionOrder
