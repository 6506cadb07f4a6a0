import Halquen.Memory.Semantic
import Halquen.Storage.Audit

/-!
# Tables of the memory

Items, revisions, evidence and the links between revisions and evidence. `persistMemoryRevision`
adds one revision to an item, new or stored, as a transaction of many statements; each of them may
be refused by a constraint of the schema or, according to a fault plan, by the database itself.

The specification of the transaction is `persistMemoryRevision_spec`: if it succeeds the submission
was acceptable (`Accepts`) and the tables have grown by exactly the submitted revision, and if it
fails nothing has changed. The module ends with the queries that read an item back.
-/

set_option autoImplicit false

namespace Halquen.Storage.Memory

open Halquen.Domain.Ids Halquen.Domain.Security Halquen.Memory.Semantic Halquen.Audit.Receipt
open Halquen.Library.Action Halquen.Library.Action.Act Halquen.Library.Rules Halquen.Library.Sql
open Halquen.Storage.Audit
open Halquen.Storage.Grants (StorageError)

/-! ## Tables -/

/-- A memory points to its newest revision. -/
structure MemoryItemRow where
  id : MemoryId
  memoryKind : MemoryKind
  currentRevisionId : Option MemoryRevisionId
  createdAtMs : Int
  updatedAtMs : Int
  priorityPermille : Nat
  confidencePermille : Nat
  pinned : Bool
  disabled : Bool
  lastUsedAtMs : Option Int
  deriving DecidableEq

/-- A revision points to the one before it. -/
structure MemoryRevisionRow where
  id : MemoryRevisionId
  memoryId : MemoryId
  previousRevisionId : Option MemoryRevisionId
  value : MemoryValue
  createdAtMs : Int
  validFromMs : Option Int
  validUntilMs : Option Int
  deriving DecidableEq

/-- A revision rests on a piece of evidence. -/
structure MemoryEvidenceRow where
  revisionId : MemoryRevisionId
  evidenceId : EvidenceId
  deriving DecidableEq

/-- The tables of memory. -/
structure MemoryTables where
  items : List MemoryItemRow
  revisions : List MemoryRevisionRow
  evidence : List Evidence
  links : List MemoryEvidenceRow
  deriving DecidableEq

/-- The tables of a new database. -/
def MemoryTables.empty : MemoryTables := ⟨[], [], [], []⟩

/-- Tables that the transaction writes. -/
structure MemoryStore where
  memory : MemoryTables
  audit : AuditTables
  deriving DecidableEq

/-- Memory and audit log of a new database. -/
def MemoryStore.empty : MemoryStore := ⟨.empty, .empty⟩

/-- Row of a new item, with the defaults of the schema. -/
def MemoryItemRow.ofItem (item : MemoryItem) : MemoryItemRow where
  id := item.id
  memoryKind := item.kind
  currentRevisionId := none
  createdAtMs := item.createdAtMs
  updatedAtMs := item.updatedAtMs
  priorityPermille := 500
  confidencePermille := 1000
  pinned := false
  disabled := false
  lastUsedAtMs := none

/-- The row of a revision. -/
def MemoryRevisionRow.ofRevision (revision : MemoryRevision) : MemoryRevisionRow where
  id := revision.id
  memoryId := revision.memoryId
  previousRevisionId := revision.previousRevisionId
  value := revision.value
  createdAtMs := revision.createdAtMs
  validFromMs := revision.validFromMs
  validUntilMs := revision.validUntilMs

/-- The row with a new head. -/
def MemoryItemRow.withHead (row : MemoryItemRow) (head : MemoryRevisionId) (updatedAtMs : Int) :
    MemoryItemRow :=
  { row with currentRevisionId := some head, updatedAtMs := updatedAtMs }

/-- Links of a revision to the evidence that it names. -/
def evidenceLinks (revision : MemoryRevision) : List MemoryEvidenceRow :=
  revision.evidenceIds.map fun evidenceId => ⟨revision.id, evidenceId⟩

/-! ## Checks -/

/-- Statements of the transaction. None is executed twice. -/
inductive Statement where
  | begin | selectItem | insertItem | selectOwner
  | insertEvidence (id : EvidenceId) | selectEvidence (id : EvidenceId)
  | insertRevision | insertLink (id : EvidenceId) | updateHead | insertAudit | commit
  deriving DecidableEq

/-- Checks of a submission that read no table. -/
def submissionFailure (item : MemoryItem) (revision : MemoryRevision)
    (evidence : List Evidence) : List (Option StorageError) := [
  rule (item.id != revision.memoryId)
    (.invalidMemoryChange "revision belongs to a different memory item"),
  rule (item.currentRevisionId != revision.id)
    (.invalidMemoryChange
      "memory item does not designate the submitted revision as its new head"),
  rule (item.kind != revision.value.kind)
    (.invalidMemoryChange "memory value does not match the declared memory kind"),
  rule (item.updatedAtMs != revision.createdAtMs || decide (item.updatedAtMs < item.createdAtMs))
    (.invalidMemoryChange "memory timestamps are inconsistent"),
  rule (revision.evidenceIds.isEmpty || !decide revision.evidenceIds.Nodup)
    (.invalidMemoryChange "revision evidence references must be non-empty and unique"),
  rule (!decide (evidence.map Evidence.id).Nodup)
    (.invalidMemoryChange "supplied evidence identifiers must be unique"),
  rule (evidence.any fun e => !revision.evidenceIds.contains e.id)
    (.invalidMemoryChange
      "supplied evidence contains an identifier not referenced by the revision")]

section Transaction

variable (fails : Statement → Bool)

/-- A statement that the fault plan may refuse. -/
def statement (name : Statement) : Act MemoryStore StorageError Unit :=
  require (!fails name) .database

/-- A change that contradicts memory is refused. -/
def reject {α : Type} (message : String) : Act MemoryStore StorageError α :=
  throw (.invalidMemoryChange message)

/-- Checks against the stored item; a new item is inserted without a head. The result is the head
that the revision is to replace. -/
def expectedHead (item : MemoryItem) (revision : MemoryRevision) :
    Act MemoryStore StorageError (Option MemoryRevisionId) := do
  statement fails .selectItem
  let items ← gets fun s => s.memory.items
  match items.find? fun row => row.id == item.id with
  | none => do
      require revision.previousRevisionId.isNone
        (.invalidMemoryChange "the first memory revision cannot name a predecessor")
      statement fails .insertItem
      modify fun s => { s with memory := { s.memory with items := items ++ [.ofItem item] } }
      return none
  | some stored => do
      require (stored.memoryKind == revision.value.kind && item.kind == revision.value.kind)
        (.invalidMemoryChange "stored memory kind is authoritative and cannot be changed")
      require (item.createdAtMs == stored.createdAtMs)
        (.invalidMemoryChange "stored memory creation timestamp is authoritative")
      let head ← orThrow (.invalidMemoryChange "existing memory item has no current revision")
        stored.currentRevisionId
      require (revision.previousRevisionId == some head)
        (.invalidMemoryChange "revision predecessor is not the current stored head")
      statement fails .selectOwner
      let revisions ← gets fun s => s.memory.revisions
      let predecessor ← orThrow .database (revisions.find? fun row => row.id == head)
      require (predecessor.memoryId == item.id)
        (.invalidMemoryChange "revision predecessor belongs to a different memory item")
      return some head

/-- Evidence is inserted, or must agree with the stored row of its identifier. -/
def insertOrVerifyEvidence (e : Evidence) : Act MemoryStore StorageError Unit := do
  statement fails (.insertEvidence e.id)
  let stored ← gets fun s => s.memory.evidence
  match stored.find? fun row => row.id == e.id with
  | none => modify fun s => { s with memory := { s.memory with evidence := stored ++ [e] } }
  | some row =>
      require (row == e)
        (.invalidMemoryChange "evidence identifier conflicts with existing evidence")

/-- Trust class of one piece of evidence, which is stored first if it was supplied. -/
def resolveTrust (evidence : List Evidence) (id : EvidenceId) :
    Act MemoryStore StorageError TrustClass := do
  match evidence.find? fun e => e.id == id with
  | some candidate => do
      insertOrVerifyEvidence fails candidate
      return candidate.trust
  | none => do
      statement fails (.selectEvidence id)
      let stored ← gets fun s => s.memory.evidence
      let row ← orThrow (.invalidMemoryChange "revision references missing evidence")
        (stored.find? fun e => e.id == id)
      return row.trust

/-- Trust classes of all the evidence of a revision, in the order in which it is named. -/
def resolveAll (evidence : List Evidence) : List EvidenceId →
    Act MemoryStore StorageError (List TrustClass)
  | [] => return []
  | id :: ids => do
      let trust ← resolveTrust fails evidence id
      let rest ← resolveAll evidence ids
      return trust :: rest

/-- The revision row, under the constraints of its table. -/
def insertRevision (revision : MemoryRevision) : Act MemoryStore StorageError Unit := do
  statement fails .insertRevision
  let t ← gets MemoryStore.memory
  let row := MemoryRevisionRow.ofRevision revision
  require (t.items.any (fun item => item.id == row.memoryId)
    && row.previousRevisionId.all (fun id => t.revisions.any fun r => r.id == id)
    && row.validUntilMs.all (fun «until» => row.validFromMs.all fun «from» =>
      decide («from» ≤ «until»))) .database
  let revisions ← orThrow .database (insertRow MemoryRevisionRow.id row t.revisions)
  modify fun s => { s with memory := { s.memory with revisions := revisions } }

/-- The revision must be there, and no link is written twice. -/
def insertLink (row : MemoryEvidenceRow) : Act MemoryStore StorageError Unit := do
  statement fails (.insertLink row.evidenceId)
  let t ← gets MemoryStore.memory
  require (t.revisions.any (fun r => r.id == row.revisionId)
    && t.evidence.any (fun e => e.id == row.evidenceId)) .database
  let links ← orThrow .database (insertRow (fun link : MemoryEvidenceRow => link) row t.links)
  modify fun s => { s with memory := { s.memory with links := links } }

/-- `UPDATE memory_items SET current_revision_id = ?, updated_at_ms = ?`, guarded by the head that
the checks have seen. -/
def updateHead (item : MemoryItem) (revision : MemoryRevision)
    (expected : Option MemoryRevisionId) : Act MemoryStore StorageError Unit := do
  statement fails .updateHead
  let items ← gets fun s => s.memory.items
  let cond := fun row : MemoryItemRow =>
    (eq (some row.id) (some item.id)).and <|
      match expected with
      | some head => eq row.currentRevisionId (some head)
      | none => isNull row.currentRevisionId
  require (changes cond items == 1)
    (.invalidMemoryChange "memory head changed while persisting the revision")
  modify fun s => { s with
    memory := { s.memory with
      items := updateRows cond (fun row => row.withHead revision.id item.updatedAtMs) items } }

/-- The deferred foreign key of the heads is checked at the end. -/
def commit : Act MemoryStore StorageError Unit := do
  statement fails .commit
  let t ← gets MemoryStore.memory
  require (t.items.all fun item =>
    item.currentRevisionId.all fun head => t.revisions.any fun r => r.id == head) .database

/-- One revision, with its evidence, becomes the head of an item. -/
def persistMemoryRevision (auditId : AuditId) (item : MemoryItem) (revision : MemoryRevision)
    (evidence : List Evidence) : Act MemoryStore StorageError Unit :=
  transaction do
    statement fails .begin
    ofExcept (firstFailure (submissionFailure item revision evidence))
    let expected ← expectedHead fails item revision
    let trust ← resolveAll fails evidence revision.evidenceIds
    require (revision.value.kind != .procedural
        || trust.any TrustClass.independentlyAuthorizesProceduralMemory)
      (.invalidMemoryChange "procedural memory requires referenced independent user authority")
    insertRevision fails revision
    forEach (evidenceLinks revision) (insertLink fails)
    updateHead fails item revision expected
    statement fails .insertAudit
    within MemoryStore.audit (fun s audit => { s with audit := audit })
      (insertRecord ⟨auditId, revision.createdAtMs, .memoryRevision item.id revision.id⟩)
    commit fails

end Transaction

/-! ## Queries -/

/-- Evidence of a revision: `ORDER BY e.created_at_ms, e.id`. -/
def revisionEvidence (t : MemoryTables) (id : MemoryRevisionId) : List EvidenceId :=
  let linked := t.evidence.filter fun e => t.links.contains ⟨id, e.id⟩
  (orderBy (fun e : Evidence => toLex (e.createdAtMs, e.id.asStr)) linked).map Evidence.id

/-- A stored revision, with its evidence. -/
def MemoryRevisionRow.read (t : MemoryTables) (row : MemoryRevisionRow) : MemoryRevision where
  id := row.id
  memoryId := row.memoryId
  previousRevisionId := row.previousRevisionId
  value := row.value
  evidenceIds := revisionEvidence t row.id
  createdAtMs := row.createdAtMs
  validFromMs := row.validFromMs
  validUntilMs := row.validUntilMs

/-- An item joined with its current revision. -/
def MemoryItemRow.join (t : MemoryTables) (row : MemoryItemRow) :
    Option (MemoryItem × MemoryRevision) := do
  let head ← row.currentRevisionId
  let revision ← t.revisions.find? fun r => r.id == head
  return (⟨row.id, row.memoryKind, head, row.createdAtMs, row.updatedAtMs⟩, revision.read t)

/-- `memory_head`: a memory with its newest revision. -/
def memoryHead (t : MemoryTables) (id : MemoryId) : Option (MemoryItem × MemoryRevision) :=
  (t.items.find? fun row => row.id == id).bind (MemoryItemRow.join t)

/-- `memory_revision`: a revision of a given memory. -/
def memoryRevision (t : MemoryTables) (id : MemoryId) (revisionId : MemoryRevisionId) :
    Option MemoryRevision :=
  (t.revisions.find? fun row => row.id == revisionId && row.memoryId == id).map
    (MemoryRevisionRow.read t)

/-- `json_extract(value_json, '$.kind') = 'preference'
AND json_extract(value_json, '$.key') = ?`. -/
def isPreference (value : MemoryValue) (key : String) : Bool :=
  match value with
  | .preference key' _ => key' == key
  | _ => false

/-- The first item that is not disabled and whose current revision is a preference of this key. -/
def preferenceByKey (t : MemoryTables) (key : String) : Option (MemoryItem × MemoryRevision) :=
  t.items.findSome? fun row =>
    if row.disabled then none
    else (row.join t).filter fun joined => isPreference joined.2.value key

/-- `COALESCE(?, column)`: the column keeps its value where no new one is given. -/
def setMemoryState (id : MemoryId) (pinned disabled : Option Bool)
    (priorityPermille : Option Nat) : Act MemoryTables StorageError Bool := do
  require (priorityPermille.all fun value => decide (value ≤ 1000))
    (.invalidInteraction "memory priority exceeds 1000")
  let items ← gets MemoryTables.items
  let cond := fun row : MemoryItemRow => eq (some row.id) (some id)
  modify fun t => { t with
    items := updateRows cond (fun row => { row with
      pinned := pinned.getD row.pinned
      disabled := disabled.getD row.disabled
      priorityPermille := priorityPermille.getD row.priorityPermille }) items }
  return changes cond items == 1

/-! ## What a submission needs and does -/

/-- The rows after the head of an item has moved from an expected revision to a new one. -/
def advanceHead (item : MemoryItem) (revision : MemoryRevision)
    (expected : Option MemoryRevisionId) (rows : List MemoryItemRow) : List MemoryItemRow :=
  rows.map fun row =>
    if row.id = item.id ∧ row.currentRevisionId = expected then
      row.withHead revision.id item.updatedAtMs
    else row

/-- Rows of a submission that was accepted. -/
structure Persisted (t : MemoryTables) (item : MemoryItem) (revision : MemoryRevision)
    (t' : MemoryTables) : Prop where
  owner : revision.memoryId = item.id
  kind : revision.value.kind = item.kind
  evidenceIds : revision.evidenceIds ≠ [] ∧ revision.evidenceIds.Nodup
  head : (∀ row ∈ t.items, row.id ≠ item.id) ∧ revision.previousRevisionId = none ∧
      t'.items = t.items ++ [(MemoryItemRow.ofItem item).withHead revision.id item.updatedAtMs] ∨
    ∃ stored ∈ t.items, ∃ head, stored.id = item.id ∧ stored.memoryKind = item.kind ∧
      stored.currentRevisionId = some head ∧ revision.previousRevisionId = some head ∧
      t'.items = advanceHead item revision (some head) t.items
  fresh : ∀ row ∈ t.revisions, row.id ≠ revision.id
  revisions : t'.revisions = t.revisions ++ [.ofRevision revision]
  evidence : ∃ added, t'.evidence = t.evidence ++ added
  evidenceUnique : UniqueKey Evidence.id t.evidence → UniqueKey Evidence.id t'.evidence
  stored : ∀ id ∈ revision.evidenceIds, ∃ e ∈ t'.evidence, e.id = id
  authority : revision.value.kind = .procedural → ∃ e ∈ t'.evidence,
    e.id ∈ revision.evidenceIds ∧ e.trust.independentlyAuthorizesProceduralMemory = true
  links : t'.links = t.links ++ evidenceLinks revision

/-- Growth of the evidence table: rows are only added, under new identifiers. -/
structure EvidenceGrown (t t' : List Evidence) : Prop where
  added : ∃ added, t' = t ++ added
  unique : UniqueKey Evidence.id t → UniqueKey Evidence.id t'

theorem EvidenceGrown.refl (t : List Evidence) : EvidenceGrown t t := ⟨⟨[], by simp⟩, id⟩

/-- Evidence that only grows grows in two steps. -/
theorem EvidenceGrown.trans {t t' t'' : List Evidence} (h : EvidenceGrown t t')
    (h' : EvidenceGrown t' t'') : EvidenceGrown t t'' := by
  obtain ⟨added, hadded⟩ := h.added
  obtain ⟨added', hadded'⟩ := h'.added
  exact ⟨⟨added ++ added', by rw [hadded', hadded, List.append_assoc]⟩, h'.unique ∘ h.unique⟩

/-- No evidence is lost. -/
theorem EvidenceGrown.mem {t t' : List Evidence} (h : EvidenceGrown t t') {e : Evidence}
    (he : e ∈ t) : e ∈ t' := by
  obtain ⟨added, hadded⟩ := h.added
  rw [hadded]
  exact List.mem_append_left _ he

theorem find?_id_eq_some {ι : Type} {κ : Type} [DecidableEq κ] {key : ι → κ} {rows : List ι}
    {k : κ} {row : ι} (h : rows.find? (fun r => key r == k) = some row)
    : row ∈ rows ∧ key row = k := by
  refine ⟨List.mem_of_find?_eq_some h, ?_⟩
  simpa using List.find?_some h

section

variable {fails : Statement → Bool}

@[simp]
theorem returns_statement {name : Statement} {s : MemoryStore}
    {Q : Unit → MemoryStore → Prop} :
    Returns (statement fails name) s Q ↔ (fails name = false → Q () s) := by
  simp [statement]

/-- Only the evidence table differs. -/
def OnlyEvidence (s s' : MemoryStore) : Prop :=
  EvidenceGrown s.memory.evidence s'.memory.evidence ∧
    s' = { s with memory := { s.memory with evidence := s'.memory.evidence } }

theorem OnlyEvidence.refl (s : MemoryStore) : OnlyEvidence s s := ⟨.refl _, rfl⟩

theorem OnlyEvidence.trans {s s' s'' : MemoryStore} (h : OnlyEvidence s s')
    (h' : OnlyEvidence s' s'') : OnlyEvidence s s'' :=
  ⟨h.1.trans h'.1, h'.2.trans (by rw [h.2])⟩

/-- Evidence is there afterwards, and nothing else has changed. -/
theorem insertOrVerifyEvidence_spec (e : Evidence) (s : MemoryStore) :
    Returns (insertOrVerifyEvidence fails e) s fun _ s' =>
      OnlyEvidence s s' ∧ e ∈ s'.memory.evidence := by
  simp only [insertOrVerifyEvidence, returns_bind, returns_statement, returns_gets]
  intro _
  split
  · rename_i hnone
    rw [returns_modify]
    simp only [List.find?_eq_none, beq_iff_eq] at hnone
    exact ⟨⟨⟨⟨[e], rfl⟩, fun h => h.append hnone⟩, rfl⟩, by simp⟩
  · rename_i row hrow
    rw [returns_require]
    intro heq
    have hmem := (find?_id_eq_some hrow).1
    rw [beq_iff_eq.mp heq] at hmem
    exact ⟨.refl s, hmem⟩

/-- The trust class found is that of a row stored under the identifier. -/
theorem resolveTrust_spec (evidence : List Evidence) (id : EvidenceId) (s : MemoryStore) :
    Returns (resolveTrust fails evidence id) s fun trust s' =>
      OnlyEvidence s s' ∧ ∃ e ∈ s'.memory.evidence, e.id = id ∧ e.trust = trust := by
  unfold resolveTrust
  split
  · rename_i candidate hcandidate
    have hid := (find?_id_eq_some hcandidate).2
    simp only [returns_bind, returns_pure]
    refine (insertOrVerifyEvidence_spec candidate s).mono ?_
    rintro - s' ⟨honly, hmem⟩
    exact ⟨honly, candidate, hmem, hid, rfl⟩
  · simp only [returns_bind, returns_statement, returns_gets, returns_orThrow, returns_pure]
    intro _ row hrow
    obtain ⟨hmem, hid⟩ := find?_id_eq_some hrow
    exact ⟨.refl s, row, hmem, hid, rfl⟩

/-- The trust found is that of the evidence named. -/
theorem resolveAll_spec (evidence : List Evidence) (ids : List EvidenceId) (s : MemoryStore) :
    Returns (resolveAll fails evidence ids) s fun trust s' =>
      OnlyEvidence s s' ∧ (∀ id ∈ ids, ∃ e ∈ s'.memory.evidence, e.id = id) ∧
        ∀ class_ ∈ trust, ∃ e ∈ s'.memory.evidence, e.id ∈ ids ∧ e.trust = class_ := by
  induction ids generalizing s with
  | nil => simpa [resolveAll] using OnlyEvidence.refl s
  | cons id ids ih =>
      simp only [resolveAll, returns_bind, returns_pure]
      refine (resolveTrust_spec evidence id s).mono ?_
      rintro trust s₁ ⟨hfirst, e, he, hid, htrust⟩
      refine (ih s₁).mono ?_
      rintro rest s₂ ⟨hrest, hstored, hclasses⟩
      have he₂ := hrest.1.mem he
      refine ⟨hfirst.trans hrest, ?_, ?_⟩
      · intro i hi
        rcases List.mem_cons.mp hi with rfl | hi
        · exact ⟨e, he₂, hid⟩
        · exact hstored i hi
      · intro class_ hclass
        rcases List.mem_cons.mp hclass with rfl | hclass
        · exact ⟨e, he₂, by simp [hid], htrust⟩
        · obtain ⟨e', he', hid', htrust'⟩ := hclasses class_ hclass
          exact ⟨e', he', List.mem_cons_of_mem _ hid', htrust'⟩

/-- The item that a submission finds, or the one it adds. -/
theorem expectedHead_spec (item : MemoryItem) (revision : MemoryRevision) (s : MemoryStore) :
    Returns (expectedHead fails item revision) s fun expected s' =>
      ((∀ row ∈ s.memory.items, row.id ≠ item.id) ∧ revision.previousRevisionId = none ∧
          expected = none ∧ s' = { s with
            memory := { s.memory with items := s.memory.items ++ [.ofItem item] } }) ∨
        ∃ stored ∈ s.memory.items, ∃ head, stored.id = item.id ∧
          stored.memoryKind = revision.value.kind ∧ stored.currentRevisionId = some head ∧
          revision.previousRevisionId = some head ∧ expected = some head ∧ s' = s := by
  simp only [expectedHead, returns_bind, returns_statement, returns_gets]
  intro _
  split
  · rename_i hnone
    simp only [List.find?_eq_none, beq_iff_eq] at hnone
    simp only [returns_bind, returns_require, returns_statement, returns_modify, returns_pure,
      Option.isNone_iff_eq_none]
    intro hprevious _
    exact .inl ⟨hnone, hprevious, trivial, trivial⟩
  · rename_i stored hstored
    obtain ⟨hmem, hid⟩ := find?_id_eq_some hstored
    simp only [returns_bind, returns_require, returns_orThrow, returns_statement, returns_gets,
      returns_pure, Bool.and_eq_true, beq_iff_eq]
    intro hkind _ head hhead hprevious _ _ _ _
    exact .inr ⟨stored, hmem, head, hid, hkind.1, hhead, hprevious, rfl, trivial⟩

/-- A revision is a new row. -/
theorem insertRevision_spec (revision : MemoryRevision) (s : MemoryStore) :
    Returns (insertRevision fails revision) s fun _ s' =>
      (∀ row ∈ s.memory.revisions, row.id ≠ revision.id) ∧ s' = { s with memory := { s.memory with
        revisions := s.memory.revisions ++ [.ofRevision revision] } } := by
  simp only [insertRevision, returns_bind, returns_statement, returns_gets, returns_require,
    returns_orThrow, returns_modify]
  intro _ _ revisions hinsert
  obtain ⟨hfresh, rfl⟩ := (insertRow_eq_some_iff _ _ _ _).mp hinsert
  exact ⟨hfresh, rfl⟩

/-- The links are new rows, by induction on the list. -/
theorem insertLinks_spec (rows : List MemoryEvidenceRow) (s : MemoryStore) :
    Returns (forEach rows (insertLink fails)) s fun _ s' =>
      s' = { s with memory := { s.memory with links := s.memory.links ++ rows } } := by
  have hstep : ∀ pre row s₁,
      s₁ = { s with memory := { s.memory with links := s.memory.links ++ pre } } →
      Returns (insertLink fails row) s₁ fun _ s' =>
        s' = { s with memory := { s.memory with links := s.memory.links ++ (pre ++ [row]) } } := by
    rintro pre row _ rfl
    simp only [insertLink, returns_bind, returns_statement, returns_gets, returns_require,
      returns_orThrow, returns_modify]
    intro _ _ links hinsert
    obtain ⟨-, rfl⟩ := (insertRow_eq_some_iff _ _ _ _).mp hinsert
    rw [List.append_assoc]
  have hloop := returns_forEach
    (fun done s' => s' = { s with memory := { s.memory with links := s.memory.links ++ done } })
    hstep rows [] s (by simp)
  simpa using hloop

/-- The head of exactly the rows that the guard selects moves to the new revision. -/
theorem updateHead_spec (item : MemoryItem) (revision : MemoryRevision)
    (expected : Option MemoryRevisionId) (s : MemoryStore) :
    Returns (updateHead fails item revision expected) s fun _ s' =>
      s' = { s with memory := { s.memory with
        items := advanceHead item revision expected s.memory.items } } := by
  simp only [updateHead, returns_bind, returns_statement, returns_gets, returns_require,
    returns_modify]
  intro _ _
  congr 2
  refine List.map_congr_left fun row _ => ?_
  congr 1
  cases expected with
  | none => simp
  | some head =>
      simp only [holds_and, holds_eq, Option.isSome_some, true_and, Option.some.injEq, eq_iff_iff,
        and_congr_right_iff]
      rintro -
      exact ⟨fun h => h.2, fun h => ⟨by rw [h]; rfl, h⟩⟩

/-- Facts that the checks of a submission establish. -/
theorem of_submission_ok {item : MemoryItem} {revision : MemoryRevision}
    {evidence : List Evidence}
    (h : firstFailure (submissionFailure item revision evidence) = .ok ()) :
    item.id = revision.memoryId ∧ item.kind = revision.value.kind ∧
      revision.evidenceIds ≠ [] ∧ revision.evidenceIds.Nodup := by
  rw [firstFailure_eq_ok_iff] at h
  simp only [submissionFailure, silent_cons, silent_nil, rule_eq_none_iff, bne_eq_false_iff_eq,
    Bool.or_eq_false_iff, Bool.not_eq_false', List.isEmpty_eq_false_iff,
    decide_eq_true_eq] at h
  obtain ⟨howner, -, hkind, -, ⟨hne, hnodup⟩, -⟩ := h
  exact ⟨howner, hkind, hne, hnodup⟩

/-- Audit record of a revision. -/
def revisionRecord (auditId : AuditId) (item : MemoryItem) (revision : MemoryRevision) :
    AuditRecord :=
  ⟨auditId, revision.createdAtMs, .memoryRevision item.id revision.id⟩

/-- The head of an item that was just inserted moves to its first revision. -/
theorem advanceHead_new {rows : List MemoryItemRow} {item : MemoryItem}
    {revision : MemoryRevision} (hnew : ∀ row ∈ rows, row.id ≠ item.id) :
    advanceHead item revision none (rows ++ [.ofItem item]) =
      rows ++ [(MemoryItemRow.ofItem item).withHead revision.id item.updatedAtMs] := by
  have hsame : advanceHead item revision none rows = rows := by
    refine (List.map_congr_left fun row hrow => ?_).trans (List.map_id' rows)
    exact if_neg fun h => hnew row hrow h.1
  rw [advanceHead, List.map_append]
  exact congrArg₂ _ hsame (by simp [MemoryItemRow.ofItem])

/-- A change that succeeds writes its memory, its revision, its evidence and its audit record. -/
theorem persistMemoryRevision_spec (auditId : AuditId) (item : MemoryItem)
    (revision : MemoryRevision) (evidence : List Evidence) (s : MemoryStore) :
    Returns (persistMemoryRevision fails auditId item revision evidence) s fun _ s' =>
      Persisted s.memory item revision s'.memory ∧
        s'.audit = s.audit.append [revisionRecord auditId item revision] := by
  simp only [persistMemoryRevision, returns_transaction, returns_bind, returns_statement,
    returns_ofExcept, returns_require]
  intro _ _ hchecks
  obtain ⟨howner, hkind, hne, hnodup⟩ := of_submission_ok hchecks
  -- The statements of the transaction in their order, each by its specification.
  refine (expectedHead_spec item revision s).mono fun expected s₁ hexpected => ?_
  refine (resolveAll_spec evidence revision.evidenceIds s₁).mono ?_
  rintro trust s₂ ⟨⟨hgrown, honly⟩, hstored, htrust⟩ hauthority
  refine (insertRevision_spec revision s₂).mono ?_
  rintro - s₃ ⟨hfresh, rfl⟩
  refine (insertLinks_spec (evidenceLinks revision) _).mono ?_
  rintro - s₄ rfl
  refine (updateHead_spec item revision expected _).mono ?_
  rintro - s₅ rfl _
  rw [returns_within]
  refine Post.mono (insertRecord_spec s₂.audit (revisionRecord auditId item revision)) ?_
  rintro r audit hr ⟨⟩ rfl
  simp only [commit, returns_bind, returns_statement, returns_gets, returns_require]
  intro _ _
  have haudit : audit = s₂.audit.append [revisionRecord auditId item revision] := by
    rcases hr with ⟨-, -, h⟩ | ⟨h, -⟩
    · exact h
    · cases h
  -- The trust classes were read from rows that are in the table by now.
  have hprocedural : revision.value.kind = .procedural → ∃ e ∈ s₂.memory.evidence,
      e.id ∈ revision.evidenceIds ∧ e.trust.independentlyAuthorizesProceduralMemory = true := by
    intro hproc
    simp only [hproc, bne_self_eq_false, Bool.false_or, List.any_eq_true] at hauthority
    obtain ⟨class_, hclass, hauth⟩ := hauthority
    obtain ⟨e, he, hid, rfl⟩ := htrust class_ hclass
    exact ⟨e, he, hid, hauth⟩
  -- Nothing but evidence has changed between the check of the item and the insertion.
  have hs₂ : s₂.audit = s₁.audit ∧ s₂.memory.items = s₁.memory.items ∧
      s₂.memory.revisions = s₁.memory.revisions ∧ s₂.memory.links = s₁.memory.links := by
    rw [honly]
    exact ⟨rfl, rfl, rfl, rfl⟩
  obtain ⟨haudit₂, hitems₂, hrevisions₂, hlinks₂⟩ := hs₂
  rw [hrevisions₂] at hfresh
  -- A new item, or a stored one whose head is replaced.
  rcases hexpected with ⟨hnew, hprevious, rfl, rfl⟩ |
    ⟨stored, hmem, head, hid, hstoredKind, hhead, hprevious, rfl, rfl⟩
  · refine ⟨⟨howner.symm, hkind.symm, ⟨hne, hnodup⟩, .inl ⟨hnew, hprevious, ?_⟩, hfresh, ?_,
      hgrown.added, hgrown.unique, hstored, hprocedural, ?_⟩, ?_⟩
    · simp only [hitems₂]
      exact advanceHead_new hnew
    · simp only [hrevisions₂]
    · simp only [hlinks₂]
    · simp only [haudit, haudit₂]
  · refine ⟨⟨howner.symm, hkind.symm, ⟨hne, hnodup⟩,
      .inr ⟨stored, hmem, head, hid, hstoredKind.trans hkind.symm, hhead, hprevious, ?_⟩, hfresh,
      ?_, hgrown.added, hgrown.unique, hstored, hprocedural, ?_⟩, ?_⟩
    · simp only [hitems₂]
    · simp only [hrevisions₂]
    · simp only [hlinks₂]
    · simp only [haudit, haudit₂]

/-- A refused submission leaves every table as it was. -/
theorem persistMemoryRevision_error {auditId : AuditId} {item : MemoryItem}
    {revision : MemoryRevision} {evidence : List Evidence} {s s' : MemoryStore} {e : StorageError}
    (h : persistMemoryRevision fails auditId item revision evidence s = (.error e, s')) : s' = s :=
  transaction_error h

end

end Halquen.Storage.Memory
