import Halquen.Service.MemoryHistory
import Halquen.Storage.LedgerRefinement

/-!
# Restoration in the service and in the ledger

`restoreMemoryRevision_spec` of `Halquen.Service.MemoryHistory` says what a restoration leaves in
the tables. Here the same request is set beside the restoration of the ledger: where the service
succeeds the ledger does, and they agree afterwards; where the service finds nothing to restore the
ledger refuses. Together with the runs of submissions this is the refinement of the ledger by the
database (`memory_refinement`).
-/

set_option autoImplicit false

namespace Halquen.Service.LedgerRestore

open Halquen.Domain.Ids Halquen.Memory.Semantic Halquen.Memory.Ledger Halquen.Protocol.Messages
open Halquen.Library.Action Halquen.Library.Action.Act Halquen.Library.Run Halquen.Library.Sql
open Halquen.Service.State Halquen.Service.MemoryService Halquen.Service.MemoryHistory
open Halquen.Storage.Memory Halquen.Storage.MemoryChain Halquen.Storage.LedgerRefinement
open Halquen.Storage.Sqlite

/-! ## The request -/

section

variable {W : World}

/-- The submission of a restoration. -/
structure Resubmitted (t : MemoryTables) (memoryId : MemoryId) (revisionId : MemoryRevisionId)
    (item : MemoryItem) (revision : MemoryRevision) (t' : MemoryTables) : Prop where
  stored : ∃ row ∈ t.items, row.id = memoryId ∧ item.id = memoryId
  source : ∃ row ∈ t.revisions, row.id = revisionId ∧ row.memoryId = memoryId ∧
    revision.value = row.value
  persisted : Persisted t item revision t'

theorem memoryHead_some {t : MemoryTables} {id : MemoryId} {stored : MemoryItem × MemoryRevision}
    (h : memoryHead t id = some stored) : ∃ row ∈ t.items, row.id = id ∧ stored.1.id = id := by
  obtain ⟨row, hrow, hjoin⟩ := Option.bind_eq_some_iff.mp h
  obtain ⟨hmem, hid⟩ := find?_id_eq_some hrow
  obtain ⟨head, -, hrest⟩ := Option.bind_eq_some_iff.mp hjoin
  obtain ⟨revision, -, hstored⟩ := Option.bind_eq_some_iff.mp hrest
  cases hstored
  exact ⟨row, hmem, hid, hid⟩

theorem memoryRevision_some {t : MemoryTables} {id : MemoryId} {revisionId : MemoryRevisionId}
    {source : MemoryRevision} (h : memoryRevision t id revisionId = some source) :
    ∃ row ∈ t.revisions, row.id = revisionId ∧ row.memoryId = id ∧ source.value = row.value := by
  obtain ⟨row, hrow, rfl⟩ := Option.map_eq_some_iff.mp h
  have hfound := List.find?_some hrow
  rw [Bool.and_eq_true, beq_iff_eq, beq_iff_eq] at hfound
  exact ⟨row, List.mem_of_find?_eq_some hrow, hfound.1, hfound.2, rfl⟩

theorem restoreMemoryRevision_resubmits (memoryId : MemoryId) (revisionId : MemoryRevisionId)
    (s : ServiceState) :
    Returns (restoreMemoryRevision W memoryId revisionId) s fun _ s' => ∃ item revision,
      Resubmitted s.data.database.memory memoryId revisionId item revision
        s'.data.database.memory := by
  simp only [restoreMemoryRevision, returns_bind, returns_orThrow, returns_now, returns_generate,
    returns_pure]
  refine (returns_read rfl _ s).mono ?_
  rintro head s₁ ⟨hhead, hdata₁, -⟩ stored rfl
  refine (returns_read rfl _ s₁).mono ?_
  rintro found s₂ ⟨hfound, hdata₂, -⟩ source rfl
  refine returns_persist fun s' hpersisted => ?_
  simp only [ServiceState.data_next, hdata₂, hdata₁] at hpersisted hfound
  refine ⟨_, _, ?_, ?_, hpersisted⟩
  · exact memoryHead_some (Except.ok.inj hhead)
  · obtain ⟨row, hrow, hid, howner, hvalue⟩ := memoryRevision_some (Except.ok.inj hfound)
    exact ⟨row, hrow, hid, howner, hvalue⟩

theorem internalError_ne_notFound : internalError ≠ notFound := by decide

/-- The storage itself never answers that something was not found. -/
theorem query_error {α : Type} (method : DbMethod)
    (action : Act Database Storage.Grants.StorageError α) (s : ServiceState) :
    Post (query W method action) s fun r _ => r ≠ .error notFound := by
  rw [post_query]
  constructor
  · intro _ heq
    exact internalError_ne_notFound (Except.error.inj heq)
  · intro _
    rw [Post]
    cases (action s.data.database).1 with
    | ok a => exact fun heq => by cases heq
    | error e => exact fun heq => internalError_ne_notFound (Except.error.inj heq)

theorem persist_answers (item : MemoryItem) (revision : MemoryRevision) (evidence : List Evidence)
    (s : ServiceState) :
    Post (persist W item revision evidence) s fun r _ => r ≠ .error notFound := by
  simp only [persist, post_bind, post_generate, post_gets, next_ok]
  exact query_error _ _ _

theorem restoreMemoryRevision_notFound (memoryId : MemoryId) (revisionId : MemoryRevisionId)
    (s : ServiceState) :
    Post (restoreMemoryRevision W memoryId revisionId) s fun r _ => r = .error notFound →
      memoryHead s.data.database.memory memoryId = none ∨
        memoryRevision s.data.database.memory memoryId revisionId = none := by
  unfold restoreMemoryRevision
  rw [post_bind, post_read rfl]
  refine ⟨fun _ heq => absurd (Except.error.inj heq) internalError_ne_notFound, fun _ => ?_⟩
  change Next _ _ (.ok (memoryHead s.data.database.memory memoryId)) _
  rw [next_ok, post_bind]
  cases memoryHead s.data.database.memory memoryId with
  | none => exact fun _ => .inl rfl
  | some stored =>
      rw [post_orThrow_some, next_ok, post_bind, post_read rfl]
      refine ⟨fun _ heq => absurd (Except.error.inj heq) internalError_ne_notFound, fun _ => ?_⟩
      change Next _ _ (.ok (memoryRevision s.data.database.memory memoryId revisionId)) _
      rw [next_ok, post_bind]
      cases memoryRevision s.data.database.memory memoryId revisionId with
      | none => exact fun _ => .inr rfl
      | some source =>
          rw [post_orThrow_some, next_ok, post_bind, post_now, next_ok, post_bind,
            post_generate, next_ok, post_bind, post_generate, next_ok]
          apply Post.bind (persist_answers _ _ _ _)
          · intro _ _ _ heq
            cases heq
          · intro e _ he heq
            cases heq
            exact absurd rfl he

end

/-! ## The two restorations -/

/-- The row of a unique key is found under it. -/
theorem find?_of_unique {ρ κ : Type} [DecidableEq κ] {key : ρ → κ} {rows : List ρ}
    (h : UniqueKey key rows) {row : ρ} (hrow : row ∈ rows) :
    (rows.find? fun r => key r == key row) = some row := by
  cases hfind : rows.find? fun r => key r == key row with
  | none => exact absurd (beq_self_eq_true _) (List.find?_eq_none.mp hfind row hrow)
  | some found =>
      obtain ⟨hmem, hkey⟩ := find?_id_eq_some hfind
      rw [h.eq_of_mem hmem hrow hkey]

/-- The ledger restores the revision under its own identifiers, and agrees afterwards. -/
def Restores (names : Names) (ledger : MemoryLedger) (ledgerId : MemoryRevisionId)
    (memoryId : MemoryId) (revisionId : MemoryRevisionId) (t' : MemoryTables) : Prop :=
  ∃ id evidenceIds nowMs ledger',
    restore ledgerId (names.memory memoryId) (names.revision revisionId) evidenceIds nowMs ledger =
      (.ok ledgerId, ledger') ∧ Agrees t' (names.nameRevision id ledgerId) ledger'

/-- An item and a revision that are both stored have names, and the ledger does not restore the one
to the other. -/
def Refuses (t : MemoryTables) (names : Names) (ledger : MemoryLedger)
    (ledgerId : MemoryRevisionId) (memoryId : MemoryId) (revisionId : MemoryRevisionId) : Prop :=
  (∃ row ∈ t.items, row.id = memoryId) → (∃ row ∈ t.revisions, row.id = revisionId) →
    ∀ evidenceIds nowMs, ∃ e, restore ledgerId (names.memory memoryId) (names.revision revisionId)
      evidenceIds nowMs ledger = (.error e, ledger)

section

variable {t t' : MemoryTables} {names : Names} {ledger : MemoryLedger} {ledgerId : MemoryRevisionId}
  {memoryId : MemoryId} {revisionId : MemoryRevisionId} {item : MemoryItem}
  {revision : MemoryRevision}

theorem restores_of_resubmitted (hagrees : Agrees t names ledger) (ht : Consistent t)
    (h : Resubmitted t memoryId revisionId item revision t')
    (hnew : ledgerId ∉ ledger.revisions) :
    Restores names ledger ledgerId memoryId revisionId t' := by
  obtain ⟨stored, hstored, hid, hitem⟩ := h.stored
  obtain ⟨row, hrow, hrowId, howner, hvalue⟩ := h.source
  obtain ⟨entry, hentry, hstoredAgrees⟩ := hagrees.items.entry_of_row stored hstored
  obtain ⟨source, hsource, hsourceAgrees⟩ := hagrees.revisions.entry_of_row row hrow
  rw [hid] at hentry
  rw [hrowId] at hsource
  have hsourceOwner : source.memoryId = names.memory memoryId := by
    rw [hsourceAgrees.owner, howner]
  have hsourceValue : source.value = revision.value := hsourceAgrees.value.trans hvalue.symm
  have hkind : entry.kind = source.value.kind := by
    obtain ⟨owner, hmem, hownerId, hkind⟩ := (ht.founded row hrow).item
    obtain rfl := ht.itemKeys.eq_of_mem hmem hstored ((hownerId.trans howner).trans hid.symm)
    rw [hstoredAgrees.kind, hkind, hsourceAgrees.value]
  have hrevised := hagrees.revised ht h.persisted hstored (hid.trans hitem.symm) hnew hstoredAgrees
  refine ⟨revision.id, revision.evidenceIds, item.updatedAtMs, _, ?_, hrevised⟩
  rw [restore_eq hsource hsourceOwner, revise_eq h.persisted.evidenceIds.1 hentry hkind,
    hsourceValue, hitem]

/-- What the service does not find the ledger does not restore. -/
theorem refuses_of_notFound (hagrees : Agrees t names ledger) (ht : Consistent t)
    (h : memoryHead t memoryId = none ∨ memoryRevision t memoryId revisionId = none) :
    Refuses t names ledger ledgerId memoryId revisionId := by
  rintro ⟨stored, hstored, hid⟩ ⟨row, hrow, hrowId⟩ evidenceIds nowMs
  have hnone : memoryRevision t memoryId revisionId = none := by
    rcases h with hhead | hrevision
    · -- Every stored item has a stored head.
      have hfound : (t.items.find? fun row => row.id == memoryId) = some stored :=
        hid ▸ find?_of_unique ht.itemKeys hstored
      obtain ⟨head, hmem, hcurrent⟩ := ht.head_stored hstored
      have hcurrentFound : (t.revisions.find? fun r => r.id == head.id) = some head :=
        find?_of_unique ht.revisionKeys hmem
      rw [memoryHead, hfound] at hhead
      simp [MemoryItemRow.join, hcurrent, hcurrentFound] at hhead
    · exact hrevision
  apply restore_refused
  intro source hsource howner
  obtain ⟨entry, hentry, hrowAgrees⟩ := hagrees.revisions.entry_of_row row hrow
  rw [hrowId] at hentry
  obtain rfl := Option.some.inj (hentry.symm.trans hsource)
  -- The owner of the revision has the name of the item, and is the item.
  obtain ⟨owner, hmem, hownerId, -⟩ := (ht.founded row hrow).item
  have hsame : owner.id = stored.id := by
    apply hagrees.items.injective owner hmem stored hstored
    rw [hownerId, ← hrowAgrees.owner, howner, hid]
  have hrowOwner : row.memoryId = memoryId := by rw [← hownerId, hsame, hid]
  have hnot := List.find?_eq_none.mp (Option.map_eq_none_iff.mp hnone) row hrow
  rw [hrowId, hrowOwner, beq_self_eq_true, beq_self_eq_true] at hnot
  exact hnot rfl

end

/-! ## The refinement -/

/-- For every sequence of submissions to an empty memory, the ledger accepts the changes that
correspond to the accepted ones, and agrees with the tables after each of them; the evidence that
is read with a revision is that of the ledger. A restoration by the service is a restoration by the
ledger. -/
theorem memory_refinement (W : World) (generator : Generator) (calls : List Submission)
    (hdistinct : generator.Distinct calls.length) :
    (∀ before, before <+: calls → ∃ f, track generator .empty before .start = .ok f ∧
      Agrees (run Submission.perform .empty before).memory f.names f.ledger ∧
      ∀ row ∈ (run Submission.perform .empty before).memory.revisions,
        ∃ revision, f.ledger.revision (f.names.revision row.id) = some revision ∧
          (row.read (run Submission.perform .empty before).memory).evidenceIds.Perm
            revision.evidenceIds) ∧
    ∀ (state : ServiceState) (names : Names) (ledger : MemoryLedger),
      Consistent state.data.database.memory → Agrees state.data.database.memory names ledger →
      ∀ (memoryId : MemoryId) (revisionId ledgerId : MemoryRevisionId),
        ledgerId ∉ ledger.revisions →
        Post (restoreMemoryRevision W memoryId revisionId) state fun r state' =>
          match r with
          | .ok _ => Restores names ledger ledgerId memoryId revisionId
              state'.data.database.memory
          | .error e => state'.data.database = state.data.database ∧ (e = notFound →
              Refuses state.data.database.memory names ledger ledgerId memoryId revisionId) := by
  refine ⟨fun before hbefore => ?_, ?_⟩
  · have hlength := hbefore.length_le
    have hbound : Follower.start.changes + before.length ≤ calls.length := by
      rw [Follower.start, Nat.zero_add]
      exact hlength
    have hempty : Agrees MemoryStore.empty.memory Follower.start.names Follower.start.ledger :=
      agrees_empty _
    obtain ⟨f, htrack, hagrees, -, -⟩ :=
      track_spec before consistent_empty hempty generated_start hdistinct hbound
    -- The evidence of a revision is the same, up to the order it is read in.
    refine ⟨f, htrack, hagrees, fun row hrow => ?_⟩
    obtain ⟨revision, hrevision, hrowAgrees⟩ := hagrees.revisions.entry_of_row row hrow
    refine ⟨revision, hrevision, ?_⟩
    rw [hrowAgrees.evidence]
    exact perm_revisionEvidence (consistent_run before) hrow
  -- The restoration, from any state that agrees with a ledger.
  · intro state names ledger hconsistent hagrees memoryId revisionId ledgerId hnew
    have hok := restoreMemoryRevision_resubmits (W := W) memoryId revisionId state
    have herror := restoreMemoryRevision_error (W := W) memoryId revisionId state
    have hnotFound := restoreMemoryRevision_notFound (W := W) memoryId revisionId state
    refine Post.mono (Post.and hok (Post.and herror hnotFound)) ?_
    rintro (e | response) state' ⟨hresubmitted, hunchanged, hmissing⟩
    · refine ⟨hunchanged e rfl, ?_⟩
      rintro rfl
      exact refuses_of_notFound hagrees hconsistent (hmissing rfl)
    · obtain ⟨item, revision, h⟩ := hresubmitted response rfl
      exact restores_of_resubmitted hagrees hconsistent h hnew

/-- A generator that counts. -/
def numbered : Generator where
  memoryId n := .generate .memory ⟨0, 1, Fin.ofNat _ n⟩
  revisionId n := .generate .memoryRevision ⟨0, 1, Fin.ofNat _ n⟩

/-- A revision of the user's preferred editor. -/
def editorRevision (number : Fin (2 ^ 64)) (previous : Option MemoryRevisionId) (editor : String) :
    MemoryRevision :=
  newRevision (.generate .memoryRevision ⟨0, 0, number⟩) (.generate .memory ⟨0, 0, 0⟩) previous
    (.preference "editor" editor) (.generate .evidence ⟨0, 0, number⟩) number.val

/-- The storage of it. -/
def editorSubmission (number : Fin (2 ^ 64)) (previous : Option MemoryRevisionId)
    (editor : String) : Submission where
  fails _ := false
  auditId := .generate .audit ⟨0, 0, number⟩
  item := withRevision (newItem (.generate .memory ⟨0, 0, 0⟩) (editorRevision 1 none "VS Code") 1)
    (editorRevision number previous editor) number.val
  revision := editorRevision number previous editor
  evidence := [userEvidence (.generate .evidence ⟨0, 0, number⟩) "chat" number.val]

/-- A preference is stored and then changed. -/
def editorSubmissions : List Submission :=
  [editorSubmission 1 none "VS Code",
    editorSubmission 2 (some (editorRevision 1 none "VS Code").id) "Zed"]

theorem memory_refinement_editor :
    (run Submission.perform .empty editorSubmissions).memory.revisions.length = 2 ∧
      ∃ f, track numbered .empty editorSubmissions .start = .ok f ∧
        Agrees (run Submission.perform .empty editorSubmissions).memory f.names f.ledger := by
  have hdistinct : numbered.Distinct editorSubmissions.length := by
    unfold Generator.Distinct
    decide
  obtain ⟨f, htrack, hagrees, -⟩ := (memory_refinement (.steady (.listed [])) numbered
    editorSubmissions hdistinct).1 editorSubmissions List.prefix_rfl
  exact ⟨by decide, f, htrack, hagrees⟩

end Halquen.Service.LedgerRestore
