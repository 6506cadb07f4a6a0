import Halquen.Library.LinkedChain
import Halquen.Library.Run
import Halquen.Storage.Memory

/-!
# The history of a memory item

`Consistent` is the invariant of the memory tables: the revisions of an item, in the order in which
they were stored, form a linear chain that ends at the item's current revision, and every revision
has the kind of its item and the evidence that it needs. An accepted submission keeps it
(`Consistent.persisted`), and so does every run of submissions from an empty database, whatever
statement of whatever call fails (`consistent_run`). What a run has stored is exactly what its
accepted submissions brought (`history_run`).
-/

set_option autoImplicit false

namespace Halquen.Storage.MemoryChain

open Halquen.Domain.Ids Halquen.Domain.Security Halquen.Memory.Semantic
open Halquen.Library.Action Halquen.Library.Action.Act Halquen.Library.LinkedChain
open Halquen.Library.Run Halquen.Library.Sql Halquen.Storage.Memory
open Halquen.Storage.Grants (StorageError)

/-! ## Invariant -/

/-- Revisions of an item, in the order in which they were stored. -/
def revisionsOf (t : MemoryTables) (id : MemoryId) : List MemoryRevisionRow :=
  t.revisions.filter fun row => row.memoryId == id

/-- Evidence linked to a revision. -/
def evidenceOf (t : MemoryTables) (id : MemoryRevisionId) : List EvidenceId :=
  (t.links.filter fun link => link.revisionId == id).map MemoryEvidenceRow.evidenceId

/-- The revisions of an item form one chain from a revision without predecessor to the head. -/
structure LinearHistory (t : MemoryTables) (item : MemoryItemRow) : Prop where
  nonempty : revisionsOf t item.id ≠ []
  linked : Linked MemoryRevisionRow.id MemoryRevisionRow.previousRevisionId none
    (revisionsOf t item.id)
  head : item.currentRevisionId = tip MemoryRevisionRow.id none (revisionsOf t item.id)

/-- A revision belongs to a stored item of its kind and has the evidence that it needs. -/
structure Founded (t : MemoryTables) (row : MemoryRevisionRow) : Prop where
  item : ∃ item ∈ t.items, item.id = row.memoryId ∧ item.memoryKind = row.value.kind
  evidenceNonempty : evidenceOf t row.id ≠ []
  evidenceUnique : (evidenceOf t row.id).Nodup
  evidenceStored : ∀ id ∈ evidenceOf t row.id, ∃ e ∈ t.evidence, e.id = id
  authority : row.value.kind = .procedural → ∃ e ∈ t.evidence, e.id ∈ evidenceOf t row.id ∧
    (e.trust = .userExplicit ∨ e.trust = .userConfirmedResult)

/-- The rows form chains of revisions, each with its evidence. -/
structure Consistent (t : MemoryTables) : Prop where
  itemKeys : UniqueKey MemoryItemRow.id t.items
  revisionKeys : UniqueKey MemoryRevisionRow.id t.revisions
  evidenceKeys : UniqueKey Evidence.id t.evidence
  linear : ∀ item ∈ t.items, LinearHistory t item
  founded : ∀ row ∈ t.revisions, Founded t row
  owned : ∀ link ∈ t.links, ∃ row ∈ t.revisions, row.id = link.revisionId

/-- The empty tables are consistent. -/
theorem consistent_empty : Consistent .empty where
  itemKeys := List.nodup_nil
  revisionKeys := List.nodup_nil
  evidenceKeys := List.nodup_nil
  linear := by simp [MemoryTables.empty]
  founded := by simp [MemoryTables.empty]
  owned := by simp [MemoryTables.empty]

/-- No two revisions of an item have the same predecessor. -/
theorem Consistent.unbranched {t : MemoryTables} (h : Consistent t) {item : MemoryItemRow}
    (hitem : item ∈ t.items) {a b : MemoryRevisionRow} (ha : a ∈ revisionsOf t item.id)
    (hb : b ∈ revisionsOf t item.id) (hab : a.previousRevisionId = b.previousRevisionId) :
    a = b :=
  (h.linear item hitem).linked.eq_of_previous_eq
    (h.revisionKeys.sublist (List.filter_sublist.map _)) ha hb hab

/-- The head of an item is a stored revision. -/
theorem Consistent.head_stored {t : MemoryTables} (h : Consistent t) {item : MemoryItemRow}
    (hitem : item ∈ t.items) : ∃ r ∈ t.revisions, item.currentRevisionId = some r.id := by
  obtain ⟨hnonempty, -, hhead⟩ := h.linear item hitem
  obtain ⟨r, hr, htip⟩ := tip_mem none hnonempty
  exact ⟨r, (List.mem_filter.mp hr).1, hhead.trans htip⟩

/-- The predecessor of a revision is a stored revision. -/
theorem Consistent.previous_stored {t : MemoryTables} (h : Consistent t) {row : MemoryRevisionRow}
    (hrow : row ∈ t.revisions) :
    row.previousRevisionId = none ∨ ∃ r ∈ t.revisions, row.previousRevisionId = some r.id := by
  obtain ⟨item, hitem, hid, -⟩ := (h.founded row hrow).item
  have hmem : row ∈ revisionsOf t item.id :=
    List.mem_filter.mpr ⟨hrow, beq_iff_eq.mpr hid.symm⟩
  rcases (h.linear item hitem).linked.previous_mem hmem with hnone | ⟨r, hr, hprevious⟩
  · exact .inl hnone
  · exact .inr ⟨r, (List.mem_filter.mp hr).1, hprevious⟩

/-! ## One submission -/

section

variable {t t' : MemoryTables} {item : MemoryItem} {revision : MemoryRevision}

/-- Two classes of trust are enough for a procedure. -/
theorem independentlyAuthorizes_iff (class_ : TrustClass) :
    class_.independentlyAuthorizesProceduralMemory = true ↔
      class_ = .userExplicit ∨ class_ = .userConfirmedResult := by
  cases class_ <;> simp [TrustClass.independentlyAuthorizesProceduralMemory]

/-- A change adds its revision to its memory. -/
theorem revisionsOf_persisted (h : Persisted t item revision t') (id : MemoryId) :
    revisionsOf t' id =
      revisionsOf t id ++ if item.id = id then [.ofRevision revision] else [] := by
  by_cases hid : item.id = id <;>
    simp [revisionsOf, h.revisions, MemoryRevisionRow.ofRevision, h.owner, hid]

/-- The links of the new revision are its evidence; those of the others stay. -/
theorem evidenceOf_persisted (h : Persisted t item revision t')
    (howned : ∀ link ∈ t.links, ∃ row ∈ t.revisions, row.id = link.revisionId)
    (id : MemoryRevisionId) :
    evidenceOf t' id = if revision.id = id then revision.evidenceIds else evidenceOf t id := by
  -- The new links are all of the new revision.
  have hnew : (evidenceLinks revision).filter (fun link => link.revisionId == id) =
      if revision.id = id then evidenceLinks revision else [] := by
    split
    · rename_i heq
      rw [List.filter_eq_self]
      intro link hlink
      obtain ⟨evidenceId, -, rfl⟩ := List.mem_map.mp hlink
      simpa using heq
    · rename_i hne
      rw [List.filter_eq_nil_iff]
      intro link hlink
      obtain ⟨evidenceId, -, rfl⟩ := List.mem_map.mp hlink
      simpa using hne
  rw [evidenceOf, h.links, List.filter_append, hnew]
  split
  · rename_i heq
    -- No older link is of it, as links belong to stored revisions.
    have hnone : t.links.filter (fun link => link.revisionId == id) = [] := by
      rw [List.filter_eq_nil_iff]
      intro link hlink
      obtain ⟨row, hrow, hid⟩ := howned link hlink
      rw [beq_iff_eq, ← hid, ← heq]
      exact h.fresh row hrow
    rw [hnone, List.nil_append, evidenceLinks, List.map_map]
    exact List.map_id' _
  · rw [List.append_nil]
    rfl

/-- Items after a submission: the submitted one has the new head, the others are unchanged. -/
theorem items_persisted (h : Persisted t item revision t')
    (hkeys : UniqueKey MemoryItemRow.id t.items) {row : MemoryItemRow} (hrow : row ∈ t'.items) :
    (row.id ≠ item.id ∧ row ∈ t.items) ∨
      (row.id = item.id ∧ row.currentRevisionId = some revision.id ∧
        row.memoryKind = item.kind) := by
  rcases h.head with ⟨hnew, -, hitems⟩ | ⟨stored, hstored, head, hid, hkind, hhead, -, hitems⟩
  · rw [hitems] at hrow
    rcases List.mem_append.mp hrow with hrow | hrow
    · exact .inl ⟨hnew row hrow, hrow⟩
    · obtain rfl := List.mem_singleton.mp hrow
      exact .inr ⟨rfl, rfl, rfl⟩
  · rw [hitems] at hrow
    obtain ⟨old, hold, rfl⟩ := List.mem_map.mp hrow
    split
    · rename_i hcond
      obtain rfl := hkeys.eq_of_mem hold hstored (hcond.1.trans hid.symm)
      exact .inr ⟨hcond.1, rfl, hkind⟩
    · rename_i hcond
      refine .inl ⟨fun heq => hcond ⟨heq, ?_⟩, hold⟩
      obtain rfl := hkeys.eq_of_mem hold hstored (heq.trans hid.symm)
      exact hhead

/-- The item of a submission is stored afterwards. -/
theorem item_persisted (h : Persisted t item revision t') :
    ∃ row ∈ t'.items, row.id = item.id ∧ row.memoryKind = item.kind := by
  rcases h.head with ⟨-, -, hitems⟩ | ⟨stored, hstored, head, hid, hkind, hhead, -, hitems⟩
  · exact ⟨(MemoryItemRow.ofItem item).withHead revision.id item.updatedAtMs, by simp [hitems],
      rfl, rfl⟩
  · refine ⟨stored.withHead revision.id item.updatedAtMs, ?_, hid, hkind⟩
    rw [hitems]
    exact List.mem_map.mpr ⟨stored, hstored, if_pos ⟨hid, hhead⟩⟩

/-- Items keep their identifier and kind. -/
theorem item_kept (h : Persisted t item revision t') {row : MemoryItemRow} (hrow : row ∈ t.items) :
    ∃ row' ∈ t'.items, row'.id = row.id ∧ row'.memoryKind = row.memoryKind := by
  rcases h.head with ⟨-, -, hitems⟩ | ⟨-, -, head, -, -, -, -, hitems⟩
  · exact ⟨row, by simp [hitems, hrow], rfl, rfl⟩
  · refine ⟨_, by rw [hitems]; exact List.mem_map_of_mem hrow, ?_, ?_⟩
    all_goals
      split <;> rfl

/-- No memory gets a second row. -/
theorem itemKeys_persisted (h : Persisted t item revision t')
    (hkeys : UniqueKey MemoryItemRow.id t.items) : UniqueKey MemoryItemRow.id t'.items := by
  rcases h.head with ⟨hnew, -, hitems⟩ | ⟨-, -, head, -, -, -, -, hitems⟩
  · rw [hitems]
    exact hkeys.append hnew
  · rw [hitems, UniqueKey, advanceHead, List.map_map]
    have hsame : (MemoryItemRow.id ∘ fun row : MemoryItemRow =>
        if row.id = item.id ∧ row.currentRevisionId = some head then
          row.withHead revision.id item.updatedAtMs else row) = MemoryItemRow.id := by
      funext row
      simp only [Function.comp_apply]
      split <;> rfl
    rw [hsame]
    exact hkeys

omit item revision in
/-- An item that is not stored has no revisions. -/
theorem revisionsOf_eq_nil (ht : Consistent t) {id : MemoryId}
    (hnew : ∀ row ∈ t.items, row.id ≠ id) : revisionsOf t id = [] := by
  rw [revisionsOf, List.filter_eq_nil_iff]
  intro row hrow howner
  obtain ⟨stored, hstored, hid, -⟩ := (ht.founded row hrow).item
  exact hnew stored hstored (hid.trans (beq_iff_eq.mp howner))

omit item revision in
/-- The revisions of a memory form a chain. -/
theorem linked_revisionsOf (ht : Consistent t) (id : MemoryId) :
    Linked MemoryRevisionRow.id MemoryRevisionRow.previousRevisionId none (revisionsOf t id) := by
  by_cases hstored : ∃ stored ∈ t.items, stored.id = id
  · obtain ⟨stored, hmem, rfl⟩ := hstored
    exact (ht.linear stored hmem).linked
  · rw [revisionsOf_eq_nil ht fun row hrow hid => hstored ⟨row, hrow, hid⟩]
    trivial

/-- The predecessor that a submission names is the tip of its item's history. -/
theorem previous_eq_tip (h : Persisted t item revision t') (ht : Consistent t) :
    revision.previousRevisionId = tip MemoryRevisionRow.id none (revisionsOf t item.id) := by
  rcases h.head with ⟨hnew, hprevious, -⟩ | ⟨stored, hstored, head, hid, -, hhead, hprevious, -⟩
  · rw [hprevious, revisionsOf_eq_nil ht hnew]
    rfl
  · rw [hprevious, ← hhead, (ht.linear stored hstored).head, hid]

/-- An accepted submission keeps the invariant. -/
theorem Consistent.persisted (ht : Consistent t) (h : Persisted t item revision t') :
    Consistent t' where
  itemKeys := itemKeys_persisted h ht.itemKeys
  revisionKeys := by
    rw [h.revisions]
    exact ht.revisionKeys.append h.fresh
  evidenceKeys := h.evidenceUnique ht.evidenceKeys
  linear := by
    intro row hrow
    rcases items_persisted h ht.itemKeys hrow with ⟨hne, hold⟩ | ⟨heq, hhead, -⟩
    -- Another item, whose revisions are as before.
    · have hsame : revisionsOf t' row.id = revisionsOf t row.id := by
        rw [revisionsOf_persisted h, if_neg (Ne.symm hne), List.append_nil]
      obtain ⟨hnonempty, hlinked, hhead⟩ := ht.linear row hold
      exact ⟨by rwa [hsame], by rwa [hsame], by rwa [hsame]⟩
    -- The item of the revision, whose chain grows at its end.
    · have hgrown : revisionsOf t' row.id =
          revisionsOf t item.id ++ [.ofRevision revision] := by
        rw [revisionsOf_persisted h, heq, if_pos rfl]
      refine ⟨by simp [hgrown], ?_, ?_⟩
      · rw [hgrown, linked_append]
        exact ⟨linked_revisionsOf ht item.id, previous_eq_tip h ht⟩
      · rw [hgrown, tip_append, hhead]
        rfl
  founded := by
    intro row hrow
    obtain ⟨added, hadded⟩ := h.evidence
    rw [h.revisions] at hrow
    rcases List.mem_append.mp hrow with hold | hnew
    · obtain ⟨⟨owner, howner, hid, hkind⟩, hnonempty, hunique, hstored, hauthority⟩ :=
        ht.founded row hold
      -- An older revision keeps its owner, its links and its evidence.
      have hsame : evidenceOf t' row.id = evidenceOf t row.id := by
        rw [evidenceOf_persisted h ht.owned, if_neg fun heq => h.fresh row hold heq.symm]
      have hkept : ∀ e ∈ t.evidence, e ∈ t'.evidence := fun e he => by
        rw [hadded]
        exact List.mem_append_left _ he
      obtain ⟨owner', howner', hid', hkind'⟩ := item_kept h howner
      refine ⟨⟨owner', howner', hid'.trans hid, hkind'.trans hkind⟩, by rwa [hsame],
        by rwa [hsame], ?_, ?_⟩
      · intro id hmem
        obtain ⟨e, he, heq⟩ := hstored id (by rwa [hsame] at hmem)
        exact ⟨e, hkept e he, heq⟩
      · intro hproc
        obtain ⟨e, he, hmem, htrust⟩ := hauthority hproc
        exact ⟨e, hkept e he, by rwa [hsame], htrust⟩
    · obtain rfl := List.mem_singleton.mp hnew
      -- The new revision is founded as the submission was checked.
      have hlinks : evidenceOf t' (MemoryRevisionRow.ofRevision revision).id =
          revision.evidenceIds := by
        rw [evidenceOf_persisted h ht.owned]
        exact if_pos rfl
      obtain ⟨owner, howner, hid, hkind⟩ := item_persisted h
      refine ⟨⟨owner, howner, hid.trans h.owner.symm, hkind.trans h.kind.symm⟩,
        by rw [hlinks]; exact h.evidenceIds.1, by rw [hlinks]; exact h.evidenceIds.2, ?_, ?_⟩
      · rw [hlinks]
        exact h.stored
      · intro hproc
        obtain ⟨e, he, hmem, hauth⟩ := h.authority hproc
        exact ⟨e, he, by rwa [hlinks], (independentlyAuthorizes_iff _).mp hauth⟩
  owned := by
    intro link hlink
    rw [h.links] at hlink
    rw [h.revisions]
    rcases List.mem_append.mp hlink with hold | hnew
    · obtain ⟨row, hrow, hid⟩ := ht.owned link hold
      exact ⟨row, List.mem_append_left _ hrow, hid⟩
    · obtain ⟨evidenceId, -, rfl⟩ := List.mem_map.mp hnew
      exact ⟨.ofRevision revision, by simp, rfl⟩

end

/-! ## Changes of the state of an item -/

section

variable {t : MemoryTables} {cond : MemoryItemRow → Truth} {set : MemoryItemRow → MemoryItemRow}

/-- The invariant does not depend on the state of an item that the user sets. -/
theorem Consistent.updateItems (h : Consistent t) (hid : ∀ row, (set row).id = row.id)
    (hhead : ∀ row, (set row).currentRevisionId = row.currentRevisionId)
    (hkind : ∀ row, (set row).memoryKind = row.memoryKind) :
    Consistent { t with items := updateRows cond set t.items } where
  itemKeys := h.itemKeys.update cond hid
  revisionKeys := h.revisionKeys
  evidenceKeys := h.evidenceKeys
  linear := by
    intro item hitem
    -- The head of a changed row is the head it had.
    rcases (mem_updateRows cond set t.items item).mp hitem with ⟨old, hold, -, rfl⟩ | ⟨hold, -⟩
    · obtain ⟨hnonempty, hlinked, htip⟩ := h.linear old hold
      refine ⟨?_, ?_, ?_⟩
      · rw [hid]
        exact hnonempty
      · rw [hid]
        exact hlinked
      · rw [hid, hhead]
        exact htip
    · obtain ⟨hnonempty, hlinked, htip⟩ := h.linear item hold
      exact ⟨hnonempty, hlinked, htip⟩
  founded := by
    intro row hrow
    obtain ⟨⟨item, hitem, hitemId, hitemKind⟩, hnonempty, hunique, hstored, hauthority⟩ :=
      h.founded row hrow
    refine ⟨⟨_, List.mem_map_of_mem hitem, ?_, ?_⟩, hnonempty, hunique, hstored, hauthority⟩
    · split
      · rw [hid, hitemId]
      · exact hitemId
    · split
      · rw [hkind, hitemKind]
      · exact hitemKind
  owned := h.owned

end

/-- What a statement on the memory keeps: the invariant, and the items up to new ones with
identifiers that were generated. -/
structure Remembers (t t' : MemoryTables) : Prop where
  consistent : Consistent t → Consistent t'
  items : ∀ item ∈ t'.items,
    (∃ old ∈ t.items, old.id = item.id) ∨ ∃ stamp, item.id = .generate .memory stamp

instance : IsPreorder MemoryTables Remembers where
  refl _ := ⟨id, fun item hitem => .inl ⟨item, hitem, rfl⟩⟩
  trans _ _ _ h h' := by
    refine ⟨h'.consistent ∘ h.consistent, fun item hitem => ?_⟩
    rcases h'.items item hitem with ⟨old, hold, hid⟩ | hgenerated
    · rw [← hid]
      exact h.items old hold
    · exact .inr hgenerated

/-- A submission for a stored item, or for a new one with a generated identifier. -/
theorem remembers_persisted {t t' : MemoryTables} {item : MemoryItem} {revision : MemoryRevision}
    (h : Persisted t item revision t')
    (hitem : (∃ old ∈ t.items, old.id = item.id) ∨ ∃ stamp, item.id = .generate .memory stamp) :
    Remembers t t' := by
  refine ⟨fun ht => ht.persisted h, fun row hrow => ?_⟩
  rcases h.head with ⟨-, -, hitems⟩ | ⟨-, -, head, -, -, -, -, hitems⟩
  · rw [hitems] at hrow
    rcases List.mem_append.mp hrow with hrow | hrow
    · exact .inl ⟨row, hrow, rfl⟩
    · obtain rfl := List.mem_singleton.mp hrow
      exact hitem
  · rw [hitems] at hrow
    obtain ⟨old, hold, rfl⟩ := List.mem_map.mp hrow
    refine .inl ⟨old, hold, ?_⟩
    split <;> rfl

/-- Pinning and disabling leave the revisions alone. -/
theorem keeps_remembers_setMemoryState (id : MemoryId) (pinned disabled : Option Bool)
    (priorityPermille : Option Nat) :
    Keeps Remembers (setMemoryState id pinned disabled priorityPermille) := by
  refine (keeps_require _ _).bind fun _ => ?_
  intro t
  refine ⟨fun ht => ht.updateItems (fun _ => rfl) (fun _ => rfl) fun _ => rfl, fun item hitem => ?_⟩
  rcases (mem_updateRows _ _ t.items item).mp hitem with ⟨old, hold, -, rfl⟩ | ⟨hold, -⟩
  · exact .inl ⟨old, hold, rfl⟩
  · exact .inl ⟨item, hold, rfl⟩

/-! ## Runs of submissions -/

/-- One call, with the statements that the database refuses in it. -/
structure Submission where
  fails : Statement → Bool
  auditId : AuditId
  item : MemoryItem
  revision : MemoryRevision
  evidence : List Evidence

/-- Outcome of a call and the tables after it. -/
def Submission.persist (call : Submission) (s : MemoryStore)
    : Except StorageError Unit × MemoryStore :=
  persistMemoryRevision call.fails call.auditId call.item call.revision call.evidence s

/-- What a call leaves in the store. -/
def Submission.perform (s : MemoryStore) (call : Submission) : MemoryStore := (call.persist s).2

/-- Whether the call succeeds. -/
def Submission.accepted (s : MemoryStore) (call : Submission) : Bool :=
  (call.persist s).1 matches .ok _

/-- The submissions that are accepted when all are made in order. -/
def acceptedSubmissions (s : MemoryStore) : List Submission → List Submission
  | [] => []
  | call :: calls =>
      if call.accepted s then call :: acceptedSubmissions (call.perform s) calls
      else acceptedSubmissions (call.perform s) calls

/-- A call is accepted, with its effect, or it changes nothing. -/
theorem perform_cases (s : MemoryStore) (call : Submission) :
    (call.accepted s = true ∧
        Persisted s.memory call.item call.revision (call.perform s).memory) ∨
      (call.accepted s = false ∧ call.perform s = s) := by
  unfold Submission.accepted Submission.perform Submission.persist
  cases h :
      persistMemoryRevision call.fails call.auditId call.item call.revision call.evidence s with
  | mk r s' =>
      cases r with
      | ok u => exact .inl ⟨rfl, ((persistMemoryRevision_spec _ _ _ _ s).of_eq h).1⟩
      | error e => exact .inr ⟨rfl, persistMemoryRevision_error h⟩

/-- Every call keeps the tables consistent. -/
theorem consistent_perform (s : MemoryStore) (call : Submission) (h : Consistent s.memory) :
    Consistent (call.perform s).memory := by
  rcases perform_cases s call with ⟨-, hpersisted⟩ | ⟨-, hsame⟩
  · exact h.persisted hpersisted
  · rwa [hsame]

/-- The invariant holds after every run from an empty database. -/
theorem consistent_run (calls : List Submission) :
    Consistent (run Submission.perform .empty calls).memory :=
  run_invariant (I := fun s : MemoryStore => Consistent s.memory) consistent_perform
    consistent_empty calls

/-- What later states keep of earlier ones: rows are only added to revisions, evidence and links,
and every item stays, with its kind. -/
structure Grown (s s' : MemoryStore) : Prop where
  revisions : s.memory.revisions <+: s'.memory.revisions
  evidence : s.memory.evidence <+: s'.memory.evidence
  links : s.memory.links <+: s'.memory.links
  items : ∀ row ∈ s.memory.items, ∃ row' ∈ s'.memory.items,
    row'.id = row.id ∧ row'.memoryKind = row.memoryKind

instance : IsPreorder MemoryStore Grown where
  refl s :=
    ⟨List.prefix_rfl, List.prefix_rfl, List.prefix_rfl, fun row hrow => ⟨row, hrow, rfl, rfl⟩⟩
  trans s s' s'' h h' := by
    refine ⟨h.revisions.trans h'.revisions, h.evidence.trans h'.evidence,
      h.links.trans h'.links, ?_⟩
    intro row hrow
    obtain ⟨row', hrow', hid, hkind⟩ := h.items row hrow
    obtain ⟨row'', hrow'', hid', hkind'⟩ := h'.items row' hrow'
    exact ⟨row'', hrow'', hid'.trans hid, hkind'.trans hkind⟩

/-- No call takes anything away. -/
theorem grown_perform (s : MemoryStore) (call : Submission) : Grown s (call.perform s) := by
  rcases perform_cases s call with ⟨-, h⟩ | ⟨-, hsame⟩
  · obtain ⟨added, hadded⟩ := h.evidence
    exact ⟨⟨_, h.revisions.symm⟩, ⟨added, hadded.symm⟩, ⟨_, h.links.symm⟩,
      fun row hrow => item_kept h hrow⟩
  · rw [hsame]
    exact refl_of Grown s

/-- Later states of a run keep what earlier ones have stored. -/
theorem grown_run (s : MemoryStore) (calls : List Submission) :
    Grown s (run Submission.perform s calls) :=
  run_related grown_perform s calls

/-- A run stores the revisions of its accepted submissions, each with exactly its evidence. -/
theorem history_run (s : MemoryStore) (calls : List Submission) :
    (run Submission.perform s calls).memory.revisions = s.memory.revisions ++
        (acceptedSubmissions s calls).map (fun call => .ofRevision call.revision) ∧
      (run Submission.perform s calls).memory.links = s.memory.links ++
        (acceptedSubmissions s calls).flatMap (fun call => evidenceLinks call.revision) := by
  induction calls generalizing s with
  | nil => simp [acceptedSubmissions]
  | cons call calls ih =>
      rw [run_cons, acceptedSubmissions]
      obtain ⟨hrevisions, hlinks⟩ := ih (call.perform s)
      rcases perform_cases s call with ⟨haccepted, h⟩ | ⟨hrefused, hsame⟩
      · rw [hrevisions, hlinks, h.revisions, h.links, if_pos haccepted]
        simp
      · rw [hrevisions, hlinks, hsame, if_neg (by simp [hrefused])]
        exact ⟨rfl, rfl⟩

end Halquen.Storage.MemoryChain
