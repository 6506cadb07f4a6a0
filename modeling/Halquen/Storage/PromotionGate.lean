import Halquen.Memory.Procedural
import Halquen.Storage.Memory

/-!
# The gate of procedural memory

Executable memory is guarded twice: by the validator of promotions and by the transaction that
stores a revision. On a store that has none of the referenced evidence the two agree
(`promotion_gate_iff`): the transaction accepts a first revision that holds a procedure, and is in
order otherwise, exactly if the validator finds a well formed candidate eligible with the same
references and the same evidence.
-/

set_option autoImplicit false

namespace Halquen.Storage.PromotionGate

open Halquen.Domain.Ids Halquen.Domain.Security Halquen.Memory.Procedural Halquen.Memory.Semantic
open Halquen.Library.Action Halquen.Library.Action.Act Halquen.Library.Rules Halquen.Library.Sql
open Halquen.Storage.Audit Halquen.Storage.Memory
open Halquen.Storage.Grants (StorageError)

/-- All checks of the first revision of an item but those of its evidence, and of the database that
it is stored in: keys that are new, references that are kept, and no statement that is refused. -/
structure OtherwiseAccepted (fails : Statement → Bool) (auditId : AuditId) (item : MemoryItem)
    (revision : MemoryRevision) (s : MemoryStore) : Prop where
  runs : ∀ name, fails name = false
  owner : item.id = revision.memoryId
  head : item.currentRevisionId = revision.id
  kind : item.kind = revision.value.kind
  times : item.updatedAtMs = revision.createdAtMs ∧ item.createdAtMs ≤ item.updatedAtMs
  first : ∀ row ∈ s.memory.items, row.id ≠ item.id
  previous : revision.previousRevisionId = none
  fresh : ∀ row ∈ s.memory.revisions, row.id ≠ revision.id
  validity : ∀ «until», revision.validUntilMs = some «until» →
    ∀ «from», revision.validFromMs = some «from» → «from» ≤ «until»
  links : ∀ link ∈ s.memory.links, link.revisionId ≠ revision.id
  heads : ∀ row ∈ s.memory.items, ∀ id, row.currentRevisionId = some id →
    ∃ r ∈ s.memory.revisions, r.id = id
  audit : s.audit.Fresh auditId

/-! ## The evidence -/

section

variable {fails : Statement → Bool} {s : MemoryStore} {evidence : List Evidence}

/-- A statement that does not fail succeeds. -/
theorem statement_of_runs (hruns : ∀ name, fails name = false) (name : Statement) :
    statement fails name s = (.ok (), s) :=
  require_of_true (by rw [hruns name]; rfl) _

/-- Evidence that is not stored is stored when it is needed. -/
theorem resolveTrust_of_stored_none {id : EvidenceId}
    (hnone : ∀ e ∈ s.memory.evidence, e.id ≠ id) :
    Returns (resolveTrust fails evidence id) s fun trust s' =>
      ∃ e ∈ evidence, e.id = id ∧ e.trust = trust ∧
        s' = { s with memory := { s.memory with evidence := s.memory.evidence ++ [e] } } := by
  have hunstored : (s.memory.evidence.find? fun row => row.id == id) = none := by
    rw [List.find?_eq_none]
    intro e he
    simpa using hnone e he
  unfold resolveTrust
  split
  · rename_i candidate hcandidate
    obtain ⟨hmem, hid⟩ := find?_id_eq_some hcandidate
    simp only [insertOrVerifyEvidence, returns_bind, returns_statement, returns_gets, hid,
      hunstored, returns_modify, returns_pure]
    intro _
    exact ⟨candidate, hmem, hid, rfl, rfl⟩
  · simp only [returns_bind, returns_statement, returns_gets, hunstored, returns_orThrow]
    intro _ row hrow
    cases hrow

/-- The references of a transaction that goes on have been supplied, since none is stored. -/
theorem resolveAll_of_stored_none {ids : List EvidenceId} (hids : ids.Nodup)
    (hnone : ∀ e ∈ s.memory.evidence, e.id ∉ ids) :
    Returns (resolveAll fails evidence ids) s fun trust _ =>
      (∀ id ∈ ids, id ∈ evidence.map Evidence.id) ∧
        ∀ class_ ∈ trust, ∃ e ∈ evidence, e.trust = class_ := by
  induction ids generalizing s with
  | nil => simp [resolveAll]
  | cons id ids ih =>
      obtain ⟨hfirst, hrest⟩ := List.nodup_cons.mp hids
      simp only [resolveAll, returns_bind, returns_pure]
      refine (resolveTrust_of_stored_none fun e he heq =>
        hnone e he (List.mem_cons.mpr (.inl heq))).mono ?_
      rintro _ _ ⟨e, he, rfl, rfl, rfl⟩
      refine (ih hrest ?_).mono ?_
      · intro e' he'
        rcases List.mem_append.mp he' with he' | he'
        · exact fun hmem => hnone e' he' (List.mem_cons_of_mem _ hmem)
        · obtain rfl := List.mem_singleton.mp he'
          exact hfirst
      · rintro trust - ⟨hsupplied, htrust⟩
        constructor
        · intro id hid
          rcases List.mem_cons.mp hid with rfl | hid
          · exact List.mem_map_of_mem he
          · exact hsupplied id hid
        · intro class_ hclass
          rcases List.mem_cons.mp hclass with rfl | hclass
          · exact ⟨e, he, rfl⟩
          · exact htrust class_ hclass

/-- Evidence that is supplied for every reference is stored, in the order of the references. -/
theorem resolveAll_of_supplied (hruns : ∀ name, fails name = false) {ids : List EvidenceId}
    (hids : ids.Nodup) (hnone : ∀ e ∈ s.memory.evidence, e.id ∉ ids)
    (hsupplied : ∀ id ∈ ids, id ∈ evidence.map Evidence.id) :
    ∃ added, (∀ e ∈ added, e ∈ evidence) ∧ added.map Evidence.id = ids ∧
      resolveAll fails evidence ids s = (.ok (added.map Evidence.trust), { s with
        memory := { s.memory with evidence := s.memory.evidence ++ added } }) := by
  induction ids generalizing s with
  | nil => exact ⟨[], by simp, rfl, by rw [List.append_nil]; rfl⟩
  | cons id ids ih =>
      obtain ⟨hfirst, hrest⟩ := List.nodup_cons.mp hids
      obtain ⟨e, hfound⟩ : ∃ e, evidence.find? (fun e => e.id == id) = some e := by
        obtain ⟨e, he, rfl⟩ := List.mem_map.mp (hsupplied id List.mem_cons_self)
        apply Option.isSome_iff_exists.mp
        rw [List.find?_isSome]
        exact ⟨e, he, beq_self_eq_true _⟩
      obtain ⟨he, rfl⟩ := find?_id_eq_some hfound
      -- The evidence is not in the table, so it is inserted as it was supplied.
      have hunstored : (s.memory.evidence.find? fun row => row.id == e.id) = none := by
        rw [List.find?_eq_none]
        intro row hrow heq
        exact hnone row hrow (List.mem_cons.mpr (.inl (beq_iff_eq.mp heq)))
      have hresolve : resolveTrust fails evidence e.id s = (.ok e.trust, { s with
          memory := { s.memory with evidence := s.memory.evidence ++ [e] } }) := by
        rw [resolveTrust, hfound]
        simp only [insertOrVerifyEvidence, bind_assoc]
        rw [bind_of_ok (statement_of_runs hruns _), bind_of_ok (gets_eq _), hunstored]
        rfl
      -- It is referenced once, and so stands in the way of no later reference.
      have hlater : ∀ e' ∈ s.memory.evidence ++ [e], e'.id ∉ ids := by
        intro e' he'
        rcases List.mem_append.mp he' with he' | he'
        · exact fun hmem => hnone e' he' (List.mem_cons_of_mem _ hmem)
        · obtain rfl := List.mem_singleton.mp he'
          exact hfirst
      obtain ⟨added, hadded, hkeys, hresolved⟩ := ih (s := { s with
          memory := { s.memory with evidence := s.memory.evidence ++ [e] } }) hrest hlater
        fun id hid => hsupplied id (List.mem_cons_of_mem _ hid)
      refine ⟨e :: added, ?_, by rw [List.map_cons, hkeys], ?_⟩
      · intro e' he'
        rcases List.mem_cons.mp he' with rfl | he'
        · exact he
        · exact hadded e' he'
      · rw [resolveAll, bind_of_ok hresolve, bind_of_ok hresolved, List.append_assoc]
        rfl

end

/-! ## The other statements -/

section

variable {fails : Statement → Bool} {s : MemoryStore} {item : MemoryItem}
  {revision : MemoryRevision}

/-- The item is new and is inserted without a head. -/
theorem expectedHead_of_first (hruns : ∀ name, fails name = false)
    (hfirst : ∀ row ∈ s.memory.items, row.id ≠ item.id)
    (hprevious : revision.previousRevisionId = none) :
    expectedHead fails item revision s = (.ok none, { s with
      memory := { s.memory with items := s.memory.items ++ [.ofItem item] } }) := by
  have hnew : (s.memory.items.find? fun row => row.id == item.id) = none := by
    rw [List.find?_eq_none]
    intro row hrow
    simpa using hfirst row hrow
  rw [expectedHead, bind_of_ok (statement_of_runs hruns _), bind_of_ok (gets_eq _), hnew]
  dsimp only
  rw [bind_of_ok (require_of_true (by rw [hprevious]; rfl) _),
    bind_of_ok (statement_of_runs hruns _)]
  rfl

/-- A first revision is written if its memory is there. -/
theorem insertRevision_of_fresh (hruns : ∀ name, fails name = false)
    (howner : ∃ row ∈ s.memory.items, row.id = revision.memoryId)
    (hprevious : revision.previousRevisionId = none)
    (hvalidity : ∀ «until», revision.validUntilMs = some «until» →
      ∀ «from», revision.validFromMs = some «from» → «from» ≤ «until»)
    (hfresh : ∀ row ∈ s.memory.revisions, row.id ≠ revision.id) :
    insertRevision fails revision s = (.ok (), { s with memory := { s.memory with
      revisions := s.memory.revisions ++ [.ofRevision revision] } }) := by
  have hrow : insertRow MemoryRevisionRow.id (.ofRevision revision) s.memory.revisions =
      some (s.memory.revisions ++ [.ofRevision revision]) :=
    (insertRow_eq_some_iff _ _ _ _).mpr ⟨hfresh, rfl⟩
  rw [insertRevision, bind_of_ok (statement_of_runs hruns _), bind_of_ok (gets_eq _)]
  dsimp only
  rw [bind_of_ok (require_of_true ?_ _), hrow]
  · rfl
  · simp only [MemoryRevisionRow.ofRevision, hprevious, Bool.and_eq_true, List.any_eq_true,
      beq_iff_eq, Option.all_none, and_true, Option.all_eq_true, decide_eq_true_eq]
    exact ⟨howner, hvalidity⟩

/-- Links of a stored revision to stored evidence, none of which exists. -/
theorem insertLinks_of_fresh (hruns : ∀ name, fails name = false)
    {rows : List MemoryEvidenceRow} (hrows : rows.Nodup)
    (hfresh : ∀ row ∈ rows, row ∉ s.memory.links)
    (hrevisions : ∀ row ∈ rows, ∃ r ∈ s.memory.revisions, r.id = row.revisionId)
    (hevidence : ∀ row ∈ rows, ∃ e ∈ s.memory.evidence, e.id = row.evidenceId) :
    forEach rows (insertLink fails) s = (.ok (), { s with
      memory := { s.memory with links := s.memory.links ++ rows } }) := by
  induction rows generalizing s with
  | nil => rw [List.append_nil]; rfl
  | cons row rows ih =>
      obtain ⟨hfirst, hrest⟩ := List.nodup_cons.mp hrows
      -- The link is new, and both of its ends are in their tables.
      have hlink : insertLink fails row s = (.ok (), { s with
          memory := { s.memory with links := s.memory.links ++ [row] } }) := by
        have hinsert : insertRow (fun link : MemoryEvidenceRow => link) row s.memory.links =
            some (s.memory.links ++ [row]) := by
          rw [insertRow_eq_some_iff]
          refine ⟨?_, rfl⟩
          rintro link hlink rfl
          exact hfresh link List.mem_cons_self hlink
        rw [insertLink, bind_of_ok (statement_of_runs hruns _), bind_of_ok (gets_eq _)]
        dsimp only
        rw [bind_of_ok (require_of_true ?_ _), hinsert]
        · rfl
        · simp only [Bool.and_eq_true, List.any_eq_true, beq_iff_eq]
          exact ⟨hrevisions row List.mem_cons_self, hevidence row List.mem_cons_self⟩
      rw [forEach, bind_of_ok hlink, ih hrest, List.append_assoc]
      · rfl
      · intro link hmem hstored
        rcases List.mem_append.mp hstored with hstored | hstored
        · exact hfresh link (List.mem_cons_of_mem row hmem) hstored
        · obtain rfl := List.mem_singleton.mp hstored
          exact hfirst hmem
      · exact fun link hlink => hrevisions link (List.mem_cons_of_mem row hlink)
      · exact fun link hlink => hevidence link (List.mem_cons_of_mem row hlink)

/-- The item that was inserted is the only one without a head under its identifier. -/
theorem updateHead_of_first (hruns : ∀ name, fails name = false) {rows : List MemoryItemRow}
    (hrows : s.memory.items = rows ++ [.ofItem item]) (hfirst : ∀ row ∈ rows, row.id ≠ item.id) :
    updateHead fails item revision none s = (.ok (), { s with memory := { s.memory with
      items := rows ++
        [(MemoryItemRow.ofItem item).withHead revision.id item.updatedAtMs] } }) := by
  have hcond : ∀ row : MemoryItemRow,
      holds ((eq (some row.id) (some item.id)).and (isNull row.currentRevisionId)) = true ↔
        row.id = item.id ∧ row.currentRevisionId = none := by
    intro row
    simp
  have hskipped : rows.filter (fun row =>
      holds ((eq (some row.id) (some item.id)).and (isNull row.currentRevisionId))) = [] := by
    rw [List.filter_eq_nil_iff]
    intro row hrow hselected
    exact hfirst row hrow ((hcond row).mp hselected).1
  have hnew : holds ((eq (some (MemoryItemRow.ofItem item).id) (some item.id)).and
      (isNull (MemoryItemRow.ofItem item).currentRevisionId)) = true :=
    (hcond _).mpr ⟨rfl, rfl⟩
  have hupdate : updateHead fails item revision none s =
      (.ok (), (updateHead fails item revision none s).2) := by
    apply eq_of_outcome
    rw [updateHead, bind_of_ok (statement_of_runs hruns _), bind_of_ok (gets_eq _), hrows]
    dsimp only
    rw [bind_of_ok (require_of_true ?_ _)]
    · rfl
    · rw [changes, select, List.filter_append, hskipped, List.filter_cons, if_pos hnew]
      rfl
  rw [hupdate, (updateHead_spec item revision none s).of_eq hupdate, hrows, advanceHead_new hfirst]

/-- The heads of the items are stored when the transaction ends. -/
theorem commit_of_heads (hruns : ∀ name, fails name = false)
    (hheads : ∀ row ∈ s.memory.items, ∀ id, row.currentRevisionId = some id →
      ∃ r ∈ s.memory.revisions, r.id = id) :
    commit fails s = (.ok (), s) := by
  rw [commit, bind_of_ok (statement_of_runs hruns _), bind_of_ok (gets_eq _)]
  apply require_of_true
  simp only [List.all_eq_true, Option.all_eq_true, List.any_eq_true, beq_iff_eq]
  exact hheads

end

/-! ## The gate -/

section

variable {fails : Statement → Bool} {auditId : AuditId} {item : MemoryItem}
  {revision : MemoryRevision} {evidence : List Evidence} {s : MemoryStore}

/-- A transaction that accepts a procedure was given evidence that authorizes it. -/
theorem authorizes_of_accepted (hprocedure : revision.value.kind = .procedural)
    (hunstored : ∀ e ∈ s.memory.evidence, e.id ∉ revision.evidenceIds) :
    Returns (persistMemoryRevision fails auditId item revision evidence) s fun _ _ =>
      Authorizes evidence revision.evidenceIds := by
  rw [persistMemoryRevision, returns_transaction, returns_bind, returns_statement]
  intro _
  rw [returns_bind, returns_ofExcept]
  intro _ hchecks
  rw [firstFailure_eq_ok_iff] at hchecks
  simp only [submissionFailure, silent_cons, silent_nil, rule_eq_none_iff, bne_eq_false_iff_eq,
    Bool.or_eq_false_iff, Bool.not_eq_false', List.isEmpty_eq_false_iff, List.any_eq_false,
    Bool.not_eq_true', List.contains_eq_mem, decide_eq_true_eq] at hchecks
  -- What the checks of the submission have found out.
  obtain ⟨-, -, -, -, ⟨hnonempty, hreferenced⟩, hsupplied, hknown, -⟩ := hchecks
  rw [returns_bind]
  refine (expectedHead_spec item revision s).mono fun expected s₁ hexpected => ?_
  -- Looking for the head leaves the evidence alone.
  have hevidence : s₁.memory.evidence = s.memory.evidence := by
    rcases hexpected with ⟨-, -, -, rfl⟩ | ⟨-, -, -, -, -, -, -, -, rfl⟩
    · rfl
    · rfl
  rw [returns_bind]
  refine (resolveAll_of_stored_none hreferenced (by rwa [hevidence])).mono ?_
  rintro trust s₂ ⟨hall, htrust⟩
  rw [returns_bind, returns_require]
  -- The authority was looked for among the trust classes of what was supplied.
  intro hauthority
  refine returns_of_forall fun _ _ => ⟨hnonempty, hreferenced, hsupplied, ?_, ?_⟩
  · intro id
    refine ⟨fun hid => ?_, hall id⟩
    obtain ⟨e, he, rfl⟩ := List.mem_map.mp hid
    simpa using hknown e he
  · rw [hprocedure, bne_self_eq_false, Bool.false_or, List.any_eq_true] at hauthority
    obtain ⟨class_, hclass, hindependent⟩ := hauthority
    obtain ⟨e, he, rfl⟩ := htrust class_ hclass
    exact ⟨e, he, hindependent⟩

/-- A procedure with sufficient evidence passes the checks. -/
theorem submission_of_authorizes (h : OtherwiseAccepted fails auditId item revision s)
    (hauthorizes : Authorizes evidence revision.evidenceIds) :
    ofExcept (firstFailure (submissionFailure item revision evidence)) s = (.ok (), s) := by
  have htimes : decide (item.updatedAtMs < item.createdAtMs) = false :=
    decide_eq_false (not_lt.mpr h.times.2)
  have hknown : (evidence.any fun e => !revision.evidenceIds.contains e.id) = false := by
    rw [List.any_eq_false]
    intro e he
    simp [(hauthorizes.same e.id).mp (List.mem_map_of_mem he)]
  have hsilent : firstFailure (submissionFailure item revision evidence) = .ok () := by
    rw [firstFailure_eq_ok_iff]
    simp only [submissionFailure, silent_cons, silent_nil, rule_eq_none_iff, bne_eq_false_iff_eq,
      Bool.or_eq_false_iff, Bool.not_eq_false', List.isEmpty_eq_false_iff, decide_eq_true_eq]
    exact ⟨h.owner, h.head, h.kind, ⟨h.times.1, htimes⟩,
      ⟨hauthorizes.nonempty, hauthorizes.referencedOnce⟩, hauthorizes.suppliedOnce, hknown,
      trivial⟩
  rw [hsilent]
  rfl

/-- The trust of the evidence in the order of the references has the authority as well. -/
theorem authority_of_resolved {added : List Evidence} {ids : List EvidenceId}
    (hauthorizes : Authorizes evidence ids) (hadded : ∀ e ∈ added, e ∈ evidence)
    (hkeys : added.map Evidence.id = ids) :
    (added.map Evidence.trust).any TrustClass.independentlyAuthorizesProceduralMemory = true := by
  obtain ⟨e, he, hindependent⟩ := hauthorizes.authority
  have hid : e.id ∈ added.map Evidence.id := by
    rw [hkeys]
    exact (hauthorizes.same e.id).mp (List.mem_map_of_mem he)
  obtain ⟨e', he', heq⟩ := List.mem_map.mp hid
  obtain rfl := List.inj_on_of_nodup_map hauthorizes.suppliedOnce (hadded e' he') he heq
  exact List.any_eq_true.mpr ⟨_, List.mem_map_of_mem he', hindependent⟩

/-- Once the evidence is stored and the item inserted, nothing refuses the revision. -/
theorem record_of_inserted (h : OtherwiseAccepted fails auditId item revision s)
    (hids : revision.evidenceIds.Nodup) {s₂ : MemoryStore}
    (hitems : s₂.memory.items = s.memory.items ++ [.ofItem item])
    (hrevisions : s₂.memory.revisions = s.memory.revisions)
    (hlinks : s₂.memory.links = s.memory.links) (haudit : s₂.audit = s.audit)
    (hevidence : ∀ id ∈ revision.evidenceIds, ∃ e ∈ s₂.memory.evidence, e.id = id) :
    ((do
      insertRevision fails revision
      forEach (evidenceLinks revision) (insertLink fails)
      updateHead fails item revision none
      statement fails .insertAudit
      within MemoryStore.audit (fun s audit => { s with audit := audit })
        (insertRecord (revisionRecord auditId item revision))
      commit fails : Act MemoryStore StorageError Unit) s₂).1 = .ok () := by
  have hrecord : insertRecord (revisionRecord auditId item revision) s₂.audit =
      (.ok (), s₂.audit.append [revisionRecord auditId item revision]) := by
    rcases insertRecord_spec s₂.audit (revisionRecord auditId item revision) with
      ⟨hok, -, happended⟩ | ⟨-, hstale⟩
    · exact Prod.ext hok happended
    · rw [haudit] at hstale
      exact absurd h.audit hstale
  -- Every statement that is left succeeds, under a condition that is shown below.
  rw [bind_of_ok (insertRevision_of_fresh h.runs ?owner h.previous h.validity ?fresh),
    bind_of_ok (insertLinks_of_fresh h.runs ?unique ?unlinked ?revised ?evident),
    bind_of_ok (updateHead_of_first h.runs ?items h.first),
    bind_of_ok (statement_of_runs h.runs _), bind_of_ok (within_of_ok ?record),
    commit_of_heads h.runs ?heads]
  case record => exact hrecord
  case items => exact hitems
  case owner => exact ⟨.ofItem item, by rw [hitems]; simp, h.owner⟩
  case fresh =>
    rw [hrevisions]
    exact h.fresh
  case unique => exact hids.map fun _ _ heq => (MemoryEvidenceRow.mk.inj heq).2
  case unlinked =>
    intro link hlink hstored
    obtain ⟨evidenceId, -, rfl⟩ := List.mem_map.mp hlink
    exact h.links _ (hlinks ▸ hstored) rfl
  case revised =>
    intro link hlink
    obtain ⟨evidenceId, -, rfl⟩ := List.mem_map.mp hlink
    exact ⟨.ofRevision revision, by simp, rfl⟩
  case evident =>
    intro link hlink
    obtain ⟨evidenceId, hid, rfl⟩ := List.mem_map.mp hlink
    exact hevidence evidenceId hid
  case heads =>
    intro row hrow id hid
    rcases List.mem_append.mp hrow with hold | hnew
    · obtain ⟨r, hr, heq⟩ := h.heads row hold id hid
      exact ⟨r, List.mem_append_left _ (by rwa [hrevisions]), heq⟩
    · obtain rfl := List.mem_singleton.mp hnew
      exact ⟨.ofRevision revision, by simp, Option.some.inj hid⟩

/-- The first revision of an item is accepted if it is in order and its evidence authorizes it. -/
theorem accepted_of_authorizes (h : OtherwiseAccepted fails auditId item revision s)
    (hunstored : ∀ e ∈ s.memory.evidence, e.id ∉ revision.evidenceIds)
    (hauthorizes : Authorizes evidence revision.evidenceIds) :
    (persistMemoryRevision fails auditId item revision evidence s).1 = .ok () := by
  obtain ⟨added, hadded, hkeys, hresolve⟩ := resolveAll_of_supplied (s := { s with
      memory := { s.memory with items := s.memory.items ++ [.ofItem item] } })
    h.runs hauthorizes.referencedOnce hunstored fun id hid => (hauthorizes.same id).mpr hid
  have hauthority : (revision.value.kind != .procedural || (added.map Evidence.trust).any
      TrustClass.independentlyAuthorizesProceduralMemory) = true := by
    rw [authority_of_resolved hauthorizes hadded hkeys, Bool.or_true]
  apply transaction_of_ok
  rw [bind_of_ok (statement_of_runs h.runs _), bind_of_ok (submission_of_authorizes h hauthorizes),
    bind_of_ok (expectedHead_of_first h.runs h.first h.previous), bind_of_ok hresolve,
    bind_of_ok (require_of_true hauthority _)]
  refine record_of_inserted h hauthorizes.referencedOnce ?_ ?_ ?_ ?_ fun id hid => ?_
  case refine_5 =>
    rw [← hkeys] at hid
    obtain ⟨e, he, rfl⟩ := List.mem_map.mp hid
    exact ⟨e, List.mem_append_right _ he, rfl⟩
  all_goals rfl

/-- On a store with none of the referenced evidence, the transaction accepts the first revision of
an item, in order otherwise, that holds a procedure, exactly if the validator finds a well formed
candidate with these references and this evidence eligible. -/
theorem promotion_gate_iff (h : OtherwiseAccepted fails auditId item revision s)
    (hprocedure : revision.value.kind = .procedural)
    (hunstored : ∀ e ∈ s.memory.evidence, e.id ∉ revision.evidenceIds)
    {candidate : ProceduralCandidate} (hcandidate : candidate.WellFormed)
    (hids : candidate.evidenceIds = revision.evidenceIds) :
    (persistMemoryRevision fails auditId item revision evidence s).1 = .ok () ↔
      evaluate candidate evidence = .eligibleForPolicyReview := by
  rw [evaluate_eq_eligible_iff, hids]
  constructor
  · intro haccepted
    exact ⟨hcandidate, authorizes_of_accepted hprocedure hunstored () haccepted⟩
  · rintro ⟨-, hauthorizes⟩
    exact accepted_of_authorizes h hunstored hauthorizes

end

/-! ## A timer -/

/-- A learned procedure. -/
def timerRevision : MemoryRevision where
  id := .generate .memoryRevision ⟨0, 0, 0⟩
  memoryId := .generate .memory ⟨0, 0, 0⟩
  previousRevisionId := none
  value := .procedure "Start a timer" ["timer.start"]
  evidenceIds := [.generate .evidence ⟨0, 0, 1⟩, .generate .evidence ⟨0, 0, 0⟩]
  createdAtMs := 1
  validFromMs := some 1
  validUntilMs := none

/-- Its memory. -/
def timerItem : MemoryItem :=
  ⟨timerRevision.memoryId, .procedural, timerRevision.id, 1, 1⟩

/-- What the user said, and what a page said. -/
def timerEvidence : List Evidence :=
  [⟨.generate .evidence ⟨0, 0, 0⟩, .userExplicit, none, 1⟩,
    ⟨.generate .evidence ⟨0, 0, 1⟩, .externalContent, some "page", 1⟩]

/-- The candidate that it was. -/
def timerCandidate : ProceduralCandidate :=
  let capability : CapabilityId := ⟨"timer.start", by decide⟩
  ⟨"Start a timer", [capability], [⟨capability, .none⟩], timerRevision.evidenceIds⟩

/-- The procedure is stored in an empty database, as the validator allows. -/
theorem promotion_gate_timer :
    (persistMemoryRevision (fun _ => false) (.generate .audit ⟨0, 0, 0⟩) timerItem timerRevision
      timerEvidence .empty).1 = .ok () := by
  have hother : OtherwiseAccepted (fun _ => false) (.generate .audit ⟨0, 0, 0⟩) timerItem
      timerRevision .empty :=
    ⟨fun _ => rfl, rfl, rfl, rfl, ⟨rfl, le_refl _⟩, by simp [MemoryStore.empty, MemoryTables.empty],
      rfl, by simp [MemoryStore.empty, MemoryTables.empty], by simp [timerRevision],
      by simp [MemoryStore.empty, MemoryTables.empty],
      by simp [MemoryStore.empty, MemoryTables.empty],
      by simp [MemoryStore.empty, AuditTables.Fresh, AuditTables.empty]⟩
  have hformed : timerCandidate.WellFormed :=
    ⟨by decide, by simp [timerCandidate], by simp [timerCandidate],
      by simp [timerCandidate]⟩
  apply (promotion_gate_iff hother rfl (by simp [MemoryStore.empty, MemoryTables.empty]) hformed
    rfl).mpr
  decide

end Halquen.Storage.PromotionGate
