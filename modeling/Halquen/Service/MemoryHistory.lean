import Halquen.Service.MemoryService
import Halquen.Storage.MemoryChain

/-!
# History of the memory

Every item of the memory has a linear history, whatever submissions are made (`memory_history`).
Restoring a revision extends the history of its item by one revision (`restoreMemoryRevision_spec`),
or leaves the database as it was.
-/

set_option autoImplicit false

namespace Halquen.Service.MemoryHistory

open Halquen.Domain.Ids Halquen.Memory.Semantic Halquen.Protocol.Messages
open Halquen.Library.Action Halquen.Library.Action.Act Halquen.Library.Run Halquen.Library.Sql
open Halquen.Service.State Halquen.Service.MemoryService
open Halquen.Storage.Grants (StorageError)
open Halquen.Storage.Memory Halquen.Storage.MemoryChain Halquen.Storage.Sqlite

/-! ## Restoring a revision -/

/-- A revision of an item has been stored once more, as the head of the item. -/
def Restored (t : MemoryTables) (memoryId : MemoryId) (revisionId : MemoryRevisionId)
    (t' : MemoryTables) : Prop :=
  ∃ source ∈ t.revisions, source.id = revisionId ∧ source.memoryId = memoryId ∧
    ∃ restored : MemoryRevisionRow, t'.revisions = t.revisions ++ [restored] ∧
      restored.memoryId = memoryId ∧ restored.value = source.value ∧
      (∃ item ∈ t'.items, item.id = memoryId) ∧
      ∀ item ∈ t'.items, item.id = memoryId → item.currentRevisionId = some restored.id

section

variable {W : World}

theorem returns_persist {item : MemoryItem} {revision : MemoryRevision} {evidence : List Evidence}
    {s : ServiceState} {Q : Unit → ServiceState → Prop}
    (h : ∀ s' : ServiceState, Persisted s.data.database.memory item revision
      s'.data.database.memory → Q () s') :
    Returns (persist W item revision evidence) s Q := by
  simp only [persist, returns_bind, returns_generate, returns_gets]
  refine returns_query ?_
  refine Returns.mono
    (Q := fun _ d => Persisted s.data.database.memory item revision d.memory) ?_ ?_
  · exact (persistMemoryRevision_spec _ item revision evidence _).mono fun _ _ hstored => hstored.1
  · rintro - d hpersisted
    exact h _ hpersisted

theorem restored_of_persisted {t t' : MemoryTables} (ht : Consistent t) {memoryId : MemoryId}
    {revisionId : MemoryRevisionId} {item : MemoryItem} {source revision : MemoryRevision}
    (hsource : memoryRevision t memoryId revisionId = some source) (hitem : item.id = memoryId)
    (h : Persisted t item revision t') (hvalue : revision.value = source.value) :
    Restored t memoryId revisionId t' := by
  obtain ⟨row, hrow, rfl⟩ := Option.map_eq_some_iff.mp hsource
  have hfound := List.find?_some hrow
  rw [Bool.and_eq_true, beq_iff_eq, beq_iff_eq] at hfound
  refine ⟨row, List.mem_of_find?_eq_some hrow, hfound.1, hfound.2, .ofRevision revision,
    h.revisions, h.owner.trans hitem, hvalue, ?_, fun stored hstored hid => ?_⟩
  · obtain ⟨stored, hstored, hid, -⟩ := item_persisted h
    exact ⟨stored, hstored, hid.trans hitem⟩
  · rcases items_persisted h ht.itemKeys hstored with ⟨hne, -⟩ | ⟨-, hhead, -⟩
    · exact absurd (hid.trans hitem.symm) hne
    · exact hhead

/-- A restored revision is the new head of its item. -/
theorem restoreMemoryRevision_spec (memoryId : MemoryId) (revisionId : MemoryRevisionId)
    (s : ServiceState) (hs : Consistent s.data.database.memory) :
    Returns (restoreMemoryRevision W memoryId revisionId) s fun _ s' =>
      Restored s.data.database.memory memoryId revisionId s'.data.database.memory := by
  simp only [restoreMemoryRevision, returns_bind, returns_orThrow, returns_now, returns_generate,
    returns_pure]
  refine (returns_read rfl _ s).mono ?_
  rintro head s₁ ⟨hhead, hdata₁, -⟩ stored rfl
  refine (returns_read rfl _ s₁).mono ?_
  rintro found s₂ ⟨hfound, hdata₂, -⟩ source rfl
  refine returns_persist fun s' hpersisted => ?_
  simp only [ServiceState.data_next, hdata₂, hdata₁] at hpersisted hfound
  exact restored_of_persisted hs (Except.ok.inj hfound) hpersisted.owner.symm hpersisted rfl

/-- A refused submission leaves the database as it was. -/
theorem persist_error (item : MemoryItem) (revision : MemoryRevision) (evidence : List Evidence)
    (s : ServiceState) :
    Post (persist W item revision evidence) s fun r s' =>
      ∀ e, r = .error e → s'.data.database = s.data.database := by
  simp only [persist, post_bind, post_generate, post_gets, next_ok, post_query]
  refine ⟨fun _ _ _ => rfl, fun _ => ?_⟩
  rw [post_onMemoryStore]
  refine Post.mono (Q := fun r store => ∀ e, r = .error e →
    store = ⟨s.data.database.memory, s.data.database.audit⟩) ?_ ?_
  · exact fun e he => persistMemoryRevision_error (Prod.ext he rfl)
  · rintro (e | u) store hstore e' he
    · rw [hstore e rfl]
      rfl
    · cases he

theorem restoreMemoryRevision_error (memoryId : MemoryId) (revisionId : MemoryRevisionId)
    (s : ServiceState) :
    Post (restoreMemoryRevision W memoryId revisionId) s fun r s' =>
      ∀ e, r = .error e → s'.data.database = s.data.database := by
  -- Everything before the submission is a reading or a consultation.
  have hquiet : ∀ {α : Type} {m : Operation α} {f : α → Operation ProtocolResponse}
      (s₁ : ServiceState), Keeps Quiet m → s₁.data.database = s.data.database →
      (∀ a s₂, s₂.data.database = s.data.database → Post (f a) s₂ fun r s' =>
        ∀ e, r = .error e → s'.data.database = s.data.database) →
      Post (m >>= f) s₁ fun r s' => ∀ e, r = .error e → s'.data.database = s.data.database := by
    intro α m f s₁ hm hs₁ hf
    refine (hm.post s₁).bind (fun a s₂ hs₂ => hf a s₂ ?_) fun _ s₂ hs₂ _ _ => ?_
    all_goals rw [hs₂.data, hs₁]
  refine hquiet s (keeps_quiet_read rfl _) rfl fun head s₁ h₁ => ?_
  refine hquiet s₁ (keeps_orThrow _ _) h₁ fun stored s₂ h₂ => ?_
  refine hquiet s₂ (keeps_quiet_read rfl _) h₂ fun found s₃ h₃ => ?_
  refine hquiet s₃ (keeps_orThrow _ _) h₃ fun source s₄ h₄ => ?_
  refine hquiet s₄ keeps_quiet_now h₄ fun timestamp s₅ h₅ => ?_
  refine hquiet s₅ (keeps_quiet_generate _) h₅ fun evidenceId s₆ h₆ => ?_
  refine hquiet s₆ (keeps_quiet_generate _) h₆ fun id s₇ h₇ => ?_
  refine (persist_error _ _ _ s₇).bind (fun _ s' _ => ?_) fun e s' hs' e' he => ?_
  · exact fun e he => nomatch he
  · rw [hs' e rfl, h₇]

end

/-! ## All submissions -/

/-- Later submissions leave the evidence of a stored revision as it is. -/
theorem evidenceOf_run (calls : List Submission) {s : MemoryStore} (hs : Consistent s.memory)
    {row : MemoryRevisionRow} (hrow : row ∈ s.memory.revisions) :
    evidenceOf (run Submission.perform s calls).memory row.id = evidenceOf s.memory row.id := by
  induction calls generalizing s with
  | nil => rfl
  | cons call calls ih =>
      rw [run_cons]
      rcases perform_cases s call with ⟨-, h⟩ | ⟨-, hsame⟩
      · have hkept : row ∈ (call.perform s).memory.revisions := by
          rw [h.revisions]
          exact List.mem_append_left _ hrow
        rw [ih (hs.persisted h) hkept, evidenceOf_persisted h hs.owned,
          if_neg fun hid => h.fresh row hrow hid.symm]
      · rw [hsame]
        exact ih hs hrow

/-- The revision of an accepted submission keeps exactly the evidence that it named. -/
theorem evidenceOf_accepted (calls : List Submission) {s : MemoryStore}
    (hs : Consistent s.memory) :
    ∀ call ∈ acceptedSubmissions s calls,
      evidenceOf (run Submission.perform s calls).memory call.revision.id =
        call.revision.evidenceIds := by
  induction calls generalizing s with
  | nil => simp [acceptedSubmissions]
  | cons first calls ih =>
      intro call hcall
      rw [acceptedSubmissions] at hcall
      rw [run_cons]
      rcases perform_cases s first with ⟨haccepted, h⟩ | ⟨hrefused, hsame⟩
      · rw [if_pos haccepted] at hcall
        rcases List.mem_cons.mp hcall with rfl | hcall
        · have hstored : MemoryRevisionRow.ofRevision call.revision ∈
              (call.perform s).memory.revisions := by
            rw [h.revisions]
            exact List.mem_append_right _ (List.mem_singleton_self _)
          calc evidenceOf (run Submission.perform (call.perform s) calls).memory call.revision.id
              = evidenceOf (call.perform s).memory call.revision.id :=
                evidenceOf_run calls (hs.persisted h) hstored
            _ = call.revision.evidenceIds := by
                rw [evidenceOf_persisted h hs.owned, if_pos rfl]
        · exact ih (hs.persisted h) call hcall
      · rw [if_neg (by simp [hrefused])] at hcall
        rw [hsame] at hcall ⊢
        exact ih hs call hcall

/-- Whatever is submitted to an empty memory, in whatever order and with whatever statements
refused: the revisions of every item form one chain that ends at its head, every revision has the
kind of its item and exactly the evidence that it was submitted with, and nothing that is stored is
changed later. A refused submission leaves every table as it was, and a restored revision is one
more revision, the new head, with the value of its source. -/
theorem memory_history (W : World) (calls : List Submission) :
    let s := run Submission.perform .empty calls
    let accepted := acceptedSubmissions .empty calls
    (∀ item ∈ s.memory.items, LinearHistory s.memory item ∧
      ∀ a ∈ revisionsOf s.memory item.id, ∀ b ∈ revisionsOf s.memory item.id,
        a.previousRevisionId = b.previousRevisionId → a = b) ∧
    UniqueKey MemoryItemRow.id s.memory.items ∧
    UniqueKey MemoryRevisionRow.id s.memory.revisions ∧
    UniqueKey Evidence.id s.memory.evidence ∧
    (∀ row ∈ s.memory.revisions, Founded s.memory row) ∧
    s.memory.revisions = accepted.map (fun call => .ofRevision call.revision) ∧
    (∀ call ∈ accepted, evidenceOf s.memory call.revision.id = call.revision.evidenceIds) ∧
    (∀ later, Grown s (run Submission.perform s later)) ∧
    (∀ call : Submission, call.accepted s = false → call.perform s = s) ∧
    ∀ state : ServiceState, state.data.database.memory = s.memory →
      ∀ memoryId revisionId,
        Post (restoreMemoryRevision W memoryId revisionId) state fun r state' =>
          match r with
          | .ok _ => Restored s.memory memoryId revisionId state'.data.database.memory
          | .error _ => state'.data.database = state.data.database := by
  intro s accepted
  have hs : Consistent s.memory := consistent_run calls
  refine ⟨fun item hitem => ⟨hs.linear item hitem, fun a ha b hb => hs.unbranched hitem ha hb⟩,
    hs.itemKeys, hs.revisionKeys, hs.evidenceKeys, hs.founded, (history_run .empty calls).1,
    evidenceOf_accepted calls consistent_empty, grown_run s, fun call hrefused => ?_, ?_⟩
  -- A refused call leaves the store as it is.
  · rcases perform_cases s call with ⟨haccepted, -⟩ | ⟨-, hsame⟩
    · rw [hrefused] at haccepted
      cases haccepted
    · exact hsame
  -- The restoration, from any state with this memory.
  · intro state hstate memoryId revisionId
    have hconsistent : Consistent state.data.database.memory := by rwa [hstate]
    have hok := restoreMemoryRevision_spec (W := W) memoryId revisionId state hconsistent
    have herror := restoreMemoryRevision_error (W := W) memoryId revisionId state
    refine Post.mono (Post.and hok herror) ?_
    rintro (e | response) state' ⟨hrestored, hunchanged⟩
    · exact hunchanged e rfl
    · rw [← hstate]
      exact hrestored response rfl

end Halquen.Service.MemoryHistory
