import Halquen.Library.Renaming
import Halquen.Memory.Ledger
import Halquen.Storage.MemoryChain

/-!
# The memory tables refine the ledger

A ledger follows the database: for each submission that the database accepts it makes the
corresponding change, with identifiers of its own. `Agrees` relates the two under the renaming of
the identifiers. One accepted submission is one change of the ledger that keeps the agreement
(`follow_spec`), and a whole run of submissions is followed without the ledger ever refusing
(`track_spec`).
-/

set_option autoImplicit false

namespace Halquen.Storage.LedgerRefinement

open Halquen.Domain.Ids Halquen.Memory.Semantic Halquen.Memory.Ledger
open Halquen.Library.Renaming Halquen.Library.Run Halquen.Library.Sql
open Halquen.Storage.Memory Halquen.Storage.MemoryChain

/-! ## Agreement -/

/-- Identifiers in the ledger of what is stored. -/
structure Names where
  memory : MemoryId → MemoryId
  revision : MemoryRevisionId → MemoryRevisionId

/-- One more memory has a name in the ledger. -/
def Names.nameItem (names : Names) (id ledgerId : MemoryId) : Names :=
  { names with memory := Function.update names.memory id ledgerId }

/-- One more revision has a name in the ledger. -/
def Names.nameRevision (names : Names) (id ledgerId : MemoryRevisionId) : Names :=
  { names with revision := Function.update names.revision id ledgerId }

section

variable (names : Names)

@[simp]
theorem Names.memory_nameItem (id ledgerId : MemoryId) :
    (names.nameItem id ledgerId).memory id = ledgerId := Function.update_self ..

theorem Names.memory_nameItem_of_ne {id id' : MemoryId} (h : id' ≠ id) (ledgerId : MemoryId) :
    (names.nameItem id ledgerId).memory id' = names.memory id' := Function.update_of_ne h ..

@[simp]
theorem Names.revision_nameRevision (id ledgerId : MemoryRevisionId) :
    (names.nameRevision id ledgerId).revision id = ledgerId := Function.update_self ..

theorem Names.revision_nameRevision_of_ne {id id' : MemoryRevisionId} (h : id' ≠ id)
    (ledgerId : MemoryRevisionId) :
    (names.nameRevision id ledgerId).revision id' = names.revision id' :=
  Function.update_of_ne h ..

end

/-- The row says what the ledger says of a memory. -/
structure ItemAgrees (names : Names) (row : MemoryItemRow) (item : MemoryItem) : Prop where
  kind : item.kind = row.memoryKind
  current : row.currentRevisionId.map names.revision = some item.currentRevisionId
  updated : item.updatedAtMs = row.updatedAtMs

/-- The rows say what the ledger says of a revision. -/
structure RevisionAgrees (t : MemoryTables) (names : Names) (row : MemoryRevisionRow)
    (revision : MemoryRevision) : Prop where
  owner : revision.memoryId = names.memory row.memoryId
  previous : revision.previousRevisionId = row.previousRevisionId.map names.revision
  value : revision.value = row.value
  evidence : revision.evidenceIds = evidenceOf t row.id

/-- The ledger has the stored items and revisions, under other identifiers, and no others. -/
structure Agrees (t : MemoryTables) (names : Names) (ledger : MemoryLedger) : Prop where
  items : Renamed MemoryItemRow.id names.memory (ItemAgrees names) t.items ledger.items
  revisions : Renamed MemoryRevisionRow.id names.revision (RevisionAgrees t names) t.revisions
    ledger.revisions

/-- The empty tables are the empty ledger. -/
theorem agrees_empty (names : Names) : Agrees .empty names .new := ⟨renamed_empty, renamed_empty⟩

section

variable {t t' : MemoryTables} {names names' : Names} {ledger : MemoryLedger} {item : MemoryItem}
  {revision : MemoryRevision} {memoryId : MemoryId} {revisionId : MemoryRevisionId}

/-- A stored item agrees as before if its head has kept its name. -/
theorem ItemAgrees.kept {row : MemoryItemRow} {entry : MemoryItem} (h : ItemAgrees names row entry)
    (ht : Consistent t) (hrow : row ∈ t.items)
    (hnames : ∀ r ∈ t.revisions, names'.revision r.id = names.revision r.id) :
    ItemAgrees names' row entry := by
  obtain ⟨head, hhead, hcurrent⟩ := ht.head_stored hrow
  refine ⟨h.kind, ?_, h.updated⟩
  rw [← h.current, hcurrent]
  exact congrArg some (hnames head hhead)

/-- A stored revision agrees as before if what it refers to has kept its name. -/
theorem RevisionAgrees.kept {row : MemoryRevisionRow} {entry : MemoryRevision}
    (h : RevisionAgrees t names row entry) (ht : Consistent t) (hp : Persisted t item revision t')
    (hrow : row ∈ t.revisions)
    (hitems : ∀ r ∈ t.items, names'.memory r.id = names.memory r.id)
    (hrevisions : ∀ r ∈ t.revisions, names'.revision r.id = names.revision r.id) :
    RevisionAgrees t' names' row entry := by
  obtain ⟨owner, howner, hid, -⟩ := (ht.founded row hrow).item
  refine ⟨?_, ?_, h.value, ?_⟩
  · rw [h.owner, ← hid, hitems owner howner]
  · rw [h.previous]
    rcases ht.previous_stored hrow with hnone | ⟨r, hr, hprevious⟩
    · rw [hnone]
      rfl
    · rw [hprevious]
      exact congrArg some (hrevisions r hr).symm
  · rw [h.evidence, evidenceOf_persisted hp ht.owned,
      if_neg fun heq => hp.fresh row hrow heq.symm]

/-- A new revision rests on the evidence that it names. -/
theorem evidenceOf_self (ht : Consistent t) (hp : Persisted t item revision t') :
    evidenceOf t' revision.id = revision.evidenceIds := by
  rw [evidenceOf_persisted hp ht.owned, if_pos rfl]

/-- The revision of a submission is entered under a new name. -/
theorem Agrees.revisions_persisted (h : Agrees t names ledger) (ht : Consistent t)
    (hp : Persisted t item revision t') (hnew : revisionId ∉ ledger.revisions)
    (hitems : ∀ r ∈ t.items, names'.memory r.id = names.memory r.id)
    (hnames : names'.revision = Function.update names.revision revision.id revisionId)
    {entry : MemoryRevision} (hentry : RevisionAgrees t' names' (.ofRevision revision) entry) :
    Renamed MemoryRevisionRow.id names'.revision (RevisionAgrees t' names') t'.revisions
      (ledger.revisions.insert revisionId entry) := by
  rw [hp.revisions, hnames]
  apply h.revisions.insert (.ofRevision revision)
  · exact hp.fresh
  · exact hnew
  · intro row hrow entry' hagrees
    apply hagrees.kept ht hp hrow hitems
    intro r hr
    rw [hnames]
    exact Function.update_of_ne (hp.fresh r hr) revisionId names.revision
  · exact hentry

/-- A first revision corresponds to the creation of an item. -/
theorem Agrees.created (h : Agrees t names ledger) (ht : Consistent t)
    (hp : Persisted t item revision t') (hitem : ∀ row ∈ t.items, row.id ≠ item.id)
    (hmemory : memoryId ∉ ledger.items) (hrevision : revisionId ∉ ledger.revisions) :
    Agrees t' ((names.nameItem item.id memoryId).nameRevision revision.id revisionId)
      (ledger.enter memoryId
        ⟨memoryId, item.kind, revisionId, item.updatedAtMs, item.updatedAtMs⟩
        (revisionAt revisionId memoryId none revision.value revision.evidenceIds
          item.updatedAtMs)) := by
  -- No row has the identifier, so the submission is for a new item.
  have hhead : revision.previousRevisionId = none ∧ t'.items =
      t.items ++ [(MemoryItemRow.ofItem item).withHead revision.id item.updatedAtMs] := by
    rcases hp.head with ⟨-, hprevious, hitems⟩ | ⟨stored, hstored, -, hid, -⟩
    · exact ⟨hprevious, hitems⟩
    · exact absurd hid (hitem stored hstored)
  obtain ⟨hprevious, hitems⟩ := hhead
  refine ⟨?_, ?_⟩
  · rw [hitems]
    apply h.items.insert ((MemoryItemRow.ofItem item).withHead revision.id item.updatedAtMs)
    · exact hitem
    · exact hmemory
    -- The heads of the other items are older revisions, whose names stay.
    · intro row hrow entry hagrees
      apply hagrees.kept ht hrow
      intro r hr
      exact Names.revision_nameRevision_of_ne _ (hp.fresh r hr) revisionId
    · exact ⟨rfl, congrArg some (Names.revision_nameRevision ..), rfl⟩
  · apply h.revisions_persisted ht hp hrevision
    · intro r hr
      exact names.memory_nameItem_of_ne (hitem r hr) memoryId
    · rfl
    · refine ⟨?_, ?_, rfl, (evidenceOf_self ht hp).symm⟩
      · change memoryId = (names.nameItem item.id memoryId).memory revision.memoryId
        rw [hp.owner, Names.memory_nameItem]
      · change none = revision.previousRevisionId.map _
        rw [hprevious]
        rfl

/-- A later revision corresponds to a revision in the ledger. -/
theorem Agrees.revised (h : Agrees t names ledger) (ht : Consistent t)
    (hp : Persisted t item revision t') {stored : MemoryItemRow} (hstored : stored ∈ t.items)
    (hid : stored.id = item.id) (hrevision : revisionId ∉ ledger.revisions) {entry : MemoryItem}
    (hentry : ItemAgrees names stored entry) :
    Agrees t' (names.nameRevision revision.id revisionId)
      (ledger.enter (names.memory item.id)
        { entry with currentRevisionId := revisionId, updatedAtMs := item.updatedAtMs }
        (revisionAt revisionId (names.memory item.id) (some entry.currentRevisionId)
          revision.value revision.evidenceIds item.updatedAtMs)) := by
  -- The item is stored, so the submission replaces the head that its row has.
  have hhead : ∃ head, stored.currentRevisionId = some head ∧
      revision.previousRevisionId = some head ∧
      t'.items = advanceHead item revision (some head) t.items := by
    rcases hp.head with ⟨hnew, -⟩ | ⟨row, hrow, head, hrowId, -, hhead, hprevious, hitems⟩
    · exact absurd hid (hnew stored hstored)
    · obtain rfl := ht.itemKeys.eq_of_mem hrow hstored (hrowId.trans hid.symm)
      exact ⟨head, hhead, hprevious, hitems⟩
  obtain ⟨head, hcurrent, hprevious, hitems⟩ := hhead
  refine ⟨?_, ?_⟩
  · rw [hitems]
    apply h.items.replace ⟨stored, hstored, hid⟩
    · intro row
      split <;> rfl
    -- The row of the item gets the new head.
    · intro row hrow hsame
      obtain rfl := ht.itemKeys.eq_of_mem hrow hstored (hsame.trans hid.symm)
      rw [if_pos ⟨hsame, hcurrent⟩]
      exact ⟨hentry.kind, congrArg some (names.revision_nameRevision ..), rfl⟩
    -- The others keep their heads, and these their names.
    · intro row hrow hother entry' hagrees
      rw [if_neg fun hcond => hother hcond.1]
      apply hagrees.kept ht hrow
      intro r hr
      exact names.revision_nameRevision_of_ne (hp.fresh r hr) revisionId
  · apply h.revisions_persisted ht hp hrevision
    · exact fun _ _ => rfl
    · rfl
    · refine ⟨?_, ?_, rfl, (evidenceOf_self ht hp).symm⟩
      · exact congrArg names.memory hp.owner.symm
      · -- The head that is replaced is stored, so that its name stays.
        obtain ⟨r, hr, hr'⟩ := ht.head_stored hstored
        have hne : head ≠ revision.id := by
          rw [hcurrent] at hr'
          cases hr'
          exact hp.fresh r hr
        change some entry.currentRevisionId = revision.previousRevisionId.map
          (names.nameRevision revision.id revisionId).revision
        rw [← hentry.current, hcurrent, hprevious]
        exact congrArg some (names.revision_nameRevision_of_ne hne revisionId).symm

end

/-- The evidence that is read with a revision is the evidence that it was stored with, in the order
of time. -/
theorem perm_revisionEvidence {t : MemoryTables} (ht : Consistent t) {row : MemoryRevisionRow}
    (hrow : row ∈ t.revisions) : (row.read t).evidenceIds.Perm (evidenceOf t row.id) := by
  have hfounded := ht.founded row hrow
  have hmem : ∀ id, id ∈ evidenceOf t row.id ↔ ⟨row.id, id⟩ ∈ t.links := by
    intro id
    constructor
    · intro hid
      obtain ⟨link, hlink, rfl⟩ := List.mem_map.mp hid
      obtain ⟨hmem, howner⟩ := List.mem_filter.mp hlink
      rw [← beq_iff_eq.mp howner]
      exact hmem
    · intro hlink
      exact List.mem_map.mpr ⟨_, List.mem_filter.mpr ⟨hlink, beq_self_eq_true _⟩, rfl⟩
  apply ((perm_orderBy _ _).map Evidence.id).trans
  rw [List.perm_ext_iff_of_nodup (ht.evidenceKeys.sublist (List.filter_sublist.map Evidence.id))
    hfounded.evidenceUnique]
  intro id
  rw [hmem]
  constructor
  · intro hid
    obtain ⟨e, he, rfl⟩ := List.mem_map.mp hid
    exact List.contains_iff_mem.mp (List.mem_filter.mp he).2
  · intro hlink
    obtain ⟨e, he, rfl⟩ := hfounded.evidenceStored id ((hmem id).mpr hlink)
    exact List.mem_map.mpr ⟨e, List.mem_filter.mpr ⟨he, List.contains_iff_mem.mpr hlink⟩, rfl⟩

/-! ## The ledger follows a run -/

/-- Identifiers that the changes of the ledger generate, one after the other. -/
structure Generator where
  memoryId : Nat → MemoryId
  revisionId : Nat → MemoryRevisionId

/-- None of the first identifiers is generated twice. -/
def Generator.Distinct (generator : Generator) (bound : Nat) : Prop :=
  ∀ m < bound, ∀ n < bound,
    (generator.memoryId m = generator.memoryId n → m = n) ∧
      (generator.revisionId m = generator.revisionId n → m = n)

/-- A ledger beside the database, after a number of changes. -/
structure Follower where
  ledger : MemoryLedger
  names : Names
  changes : Nat

/-- The ledger before the first call. -/
def Follower.start : Follower := ⟨.new, ⟨id, id⟩, 0⟩

section

variable (generator : Generator)

/-- The change of the ledger that corresponds to a submission: a revision if the item is stored,
the creation of the item if it is not. -/
def follow (t : MemoryTables) (call : Submission) (f : Follower) : Except MemoryError Follower :=
  let revisionId := generator.revisionId f.changes
  let names := f.names.nameRevision call.revision.id revisionId
  if t.items.any fun row => row.id == call.item.id then
    match revise revisionId (f.names.memory call.item.id) call.revision.value
        call.revision.evidenceIds call.item.updatedAtMs f.ledger with
    | (.ok _, ledger) => .ok ⟨ledger, names, f.changes + 1⟩
    | (.error e, _) => .error e
  else
    match create (generator.memoryId f.changes) revisionId call.item.kind call.revision.value
        call.revision.evidenceIds call.item.updatedAtMs f.ledger with
    | (.ok memoryId, ledger) => .ok ⟨ledger, names.nameItem call.item.id memoryId, f.changes + 1⟩
    | (.error e, _) => .error e

/-- The changes that correspond to the accepted ones of some submissions, in order. -/
def track : MemoryStore → List Submission → Follower → Except MemoryError Follower
  | _, [], f => .ok f
  | s, call :: calls, f => do
      let f' ← if call.accepted s then follow generator s.memory call f else .ok f
      track (call.perform s) calls f'

/-- The identifiers in the ledger are among those that were generated. -/
structure Generated (f : Follower) : Prop where
  items : ∀ id ∈ f.ledger.items, ∃ n < f.changes, id = generator.memoryId n
  revisions : ∀ id ∈ f.ledger.revisions, ∃ n < f.changes, id = generator.revisionId n

variable {generator}

theorem generated_start : Generated generator .start where
  items := by simp [Follower.start, MemoryLedger.new]
  revisions := by simp [Follower.start, MemoryLedger.new]

/-- A generated identifier names no memory yet. -/
theorem Generated.memoryId_notMem {f : Follower} (h : Generated generator f) {bound : Nat}
    (hdistinct : generator.Distinct bound) (hbound : f.changes < bound) :
    generator.memoryId f.changes ∉ f.ledger.items := by
  intro hmem
  obtain ⟨n, hn, heq⟩ := h.items _ hmem
  have hsame := (hdistinct f.changes hbound n (hn.trans hbound)).1 heq
  omega

/-- Nor a revision. -/
theorem Generated.revisionId_notMem {f : Follower} (h : Generated generator f) {bound : Nat}
    (hdistinct : generator.Distinct bound) (hbound : f.changes < bound) :
    generator.revisionId f.changes ∉ f.ledger.revisions := by
  intro hmem
  obtain ⟨n, hn, heq⟩ := h.revisions _ hmem
  have hsame := (hdistinct f.changes hbound n (hn.trans hbound)).2 heq
  omega

/-- A change enters a generated revision, under an item that is there or generated. -/
theorem Generated.enter {f : Follower} (h : Generated generator f) {memoryId : MemoryId}
    (hmemory : memoryId ∈ f.ledger.items ∨ memoryId = generator.memoryId f.changes)
    (item : MemoryItem) {revision : MemoryRevision}
    (hrevision : revision.id = generator.revisionId f.changes) (names : Names) :
    Generated generator ⟨f.ledger.enter memoryId item revision, names, f.changes + 1⟩ where
  items := by
    intro id hid
    have hold : id ∈ f.ledger.items ∨ id = generator.memoryId f.changes := by
      rcases (AList.mem_insert _).mp hid with rfl | hmem
      · exact hmemory
      · exact .inl hmem
    rcases hold with hmem | rfl
    · obtain ⟨n, hn, heq⟩ := h.items id hmem
      exact ⟨n, Nat.lt_succ_of_lt hn, heq⟩
    · exact ⟨f.changes, Nat.lt_succ_self _, rfl⟩
  revisions := by
    intro id hid
    rcases (AList.mem_insert _).mp hid with rfl | hmem
    · exact ⟨f.changes, Nat.lt_succ_self _, hrevision⟩
    · obtain ⟨n, hn, heq⟩ := h.revisions id hmem
      exact ⟨n, Nat.lt_succ_of_lt hn, heq⟩

/-- The ledger accepts what the database has accepted, and agrees afterwards. -/
theorem follow_spec {t t' : MemoryTables} {call : Submission} {f : Follower} {bound : Nat}
    (ht : Consistent t) (hp : Persisted t call.item call.revision t')
    (hagrees : Agrees t f.names f.ledger) (hgenerated : Generated generator f)
    (hdistinct : generator.Distinct bound) (hbound : f.changes < bound) :
    ∃ f', follow generator t call f = .ok f' ∧ Agrees t' f'.names f'.ledger ∧
      Generated generator f' ∧ f'.changes = f.changes + 1 := by
  have hrevision := hgenerated.revisionId_notMem hdistinct hbound
  -- The ledger revises an item that is in the table and creates one that is not.
  by_cases hstored : ∃ stored ∈ t.items, stored.id = call.item.id
  · obtain ⟨stored, hmem, hid⟩ := hstored
    have hany : (t.items.any fun row => row.id == call.item.id) = true :=
      List.any_eq_true.mpr ⟨stored, hmem, beq_iff_eq.mpr hid⟩
    obtain ⟨entry, hentry, hitem⟩ := hagrees.items.entry_of_row stored hmem
    rw [hid] at hentry
    -- The kind of an item is the same in the submission, the table and the ledger.
    have hkind : entry.kind = call.revision.value.kind := by
      rcases hp.head with ⟨hnew, -⟩ | ⟨row, hrow, head, hrowId, hrowKind, -⟩
      · exact absurd hid (hnew stored hmem)
      · obtain rfl := ht.itemKeys.eq_of_mem hrow hmem (hrowId.trans hid.symm)
        rw [hitem.kind, hrowKind, hp.kind]
    have hrevised := hagrees.revised ht hp hmem hid hrevision hitem
    unfold follow
    rw [if_pos hany, revise_eq hp.evidenceIds.1 hentry hkind]
    refine ⟨_, rfl, hrevised, hgenerated.enter ?_ _ rfl _, rfl⟩
    rw [← hid]
    exact .inl (hagrees.items.mem hmem)
  · have hitem : ∀ row ∈ t.items, row.id ≠ call.item.id := fun row hrow hid =>
      hstored ⟨row, hrow, hid⟩
    have hany : ¬ (t.items.any fun row => row.id == call.item.id) = true := by
      simpa using hitem
    have hmemory := hgenerated.memoryId_notMem hdistinct hbound
    have hcreated := hagrees.created ht hp hitem hmemory hrevision
    unfold follow
    rw [if_neg hany, create_eq hp.evidenceIds.1 hp.kind.symm]
    exact ⟨_, rfl, hcreated, hgenerated.enter (.inr rfl) _ rfl _, rfl⟩

/-- A run is followed to its end, with one change for each submission that is accepted. -/
theorem track_spec (calls : List Submission) {s : MemoryStore} {f : Follower} {bound : Nat}
    (hs : Consistent s.memory) (hagrees : Agrees s.memory f.names f.ledger)
    (hgenerated : Generated generator f) (hdistinct : generator.Distinct bound)
    (hbound : f.changes + calls.length ≤ bound) :
    ∃ f', track generator s calls f = .ok f' ∧
      Agrees (run Submission.perform s calls).memory f'.names f'.ledger ∧
      Generated generator f' ∧ f'.changes ≤ f.changes + calls.length := by
  induction calls generalizing s f with
  | nil => exact ⟨f, rfl, hagrees, hgenerated, Nat.le_refl _⟩
  | cons call calls ih =>
      rw [List.length_cons] at hbound
      rw [track, run_cons, List.length_cons]
      rcases perform_cases s call with ⟨haccepted, hp⟩ | ⟨hrefused, hsame⟩
      · obtain ⟨f₁, hfollow, hagrees₁, hgenerated₁, hchanges⟩ :=
          follow_spec hs hp hagrees hgenerated hdistinct (by omega)
        obtain ⟨f', htrack, hrest, hgenerated', hchanges'⟩ :=
          ih (hs.persisted hp) hagrees₁ hgenerated₁ (by omega)
        rw [if_pos haccepted, hfollow]
        exact ⟨f', htrack, hrest, hgenerated', by omega⟩
      · rw [if_neg (by simp [hrefused]), hsame]
        obtain ⟨f', htrack, hrest, hgenerated', hchanges'⟩ :=
          ih hs hagrees hgenerated (by omega)
        exact ⟨f', htrack, hrest, hgenerated', by omega⟩

end

end Halquen.Storage.LedgerRefinement
