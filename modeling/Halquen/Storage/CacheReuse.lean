import Halquen.Library.History
import Halquen.Storage.ResponseCache

/-!
# Reuse of cached responses

The cache over a run of stored candidates, feedback and hits. Candidates are stored as not
reusable. Each row remembers enough of the log to say why it may be used again (`Explained`): the
candidate that was last stored under its identifier, and, if the row is reusable, the approval that
no later rejection took back. `cache_reuse` reads the lookup through these explanations.
-/

set_option autoImplicit false

namespace Halquen.Storage.CacheReuse

open Halquen.Domain.Ids Halquen.Domain.Gateway
open Halquen.Library.Action Halquen.Library.Action.Act Halquen.Library.History Halquen.Library.Run
open Halquen.Library.Sql Halquen.Library.Listing
open Halquen.Storage.Agents Halquen.Storage.Grants Halquen.Storage.ResponseCache

/-! ## Calls -/

/-- A candidate is stored as not reusable, with any outcome of its foreign keys. -/
inductive CacheCall where
  | store (entry : CachedResponse) (referenced : Bool) (hnew : entry.reusable = false)
  | feedback (id : CacheEntryId) (feedback : ResponseFeedback)
  | hit (id : CacheEntryId) (nowMs : Int) (estimatedTokensAvoided : UInt64)

/-- The calls that change the cache. -/
def perform : CacheCall → Act CacheTables StorageError Unit
  | .store entry referenced _ => storeResponseCandidate referenced entry
  | .feedback id feedback => applyResponseFeedback id feedback
  | .hit id nowMs estimatedTokensAvoided => recordCacheHit id nowMs estimatedTokensAvoided

/-- State after the calls, with those that succeeded. -/
def reached (calls : List CacheCall) : Logged CacheTables CacheCall :=
  run (Logged.step perform) ⟨⟨[], 0, 0⟩, []⟩ calls

/-- The call stores a candidate under the identifier. -/
def Stores (id : CacheEntryId) : CacheCall → Prop
  | .store entry _ _ => entry.id = id
  | _ => False

/-- The call stores a candidate for the normalized request and context key. -/
def StoresAt (slot : String × String) : CacheCall → Prop
  | .store entry _ _ => (entry.normalizedRequest, entry.contextKey) = slot
  | _ => False

/-- The call says whether the entry may be used again. -/
def Decides (id : CacheEntryId) : CacheCall → Prop
  | .feedback id' .alwaysUse | .feedback id' .wrong | .feedback id' .doNotRemember => id' = id
  | _ => False

theorem stores_self (entry : CachedResponse) (referenced : Bool) (hnew : entry.reusable = false) :
    Stores entry.id (.store entry referenced hnew) := rfl

theorem decides_alwaysUse (id : CacheEntryId) : Decides id (.feedback id .alwaysUse) := rfl

/-! ## Effects -/

/-- Tables after a candidate was stored. -/
def stored (entry : CachedResponse) (t : CacheTables) : CacheTables :=
  let row := CacheRow.ofEntry entry
  { t with responseCache := upsertRow CacheRow.slot row (fun _ => row) t.responseCache }

/-- Tables after feedback on an entry. -/
def judged (id : CacheEntryId) (feedback : ResponseFeedback) (t : CacheTables) : CacheTables :=
  let judge := CacheRow.feedback (feedbackEffect feedback)
  { t with responseCache := updateRows (withId id) judge t.responseCache }

/-- A row that was used for an answer. -/
def usedRow (nowMs : Int) (estimatedTokensAvoided : UInt64) (row : CacheRow) : CacheRow :=
  { row with
    lastUsedAtMs := some nowMs
    usageCount := row.usageCount + 1
    estimatedTokensAvoided := row.estimatedTokensAvoided + estimatedTokensAvoided.toNat }

/-- Tables after a hit. -/
def used (id : CacheEntryId) (nowMs : Int) (estimatedTokensAvoided : UInt64) (t : CacheTables) :
    CacheTables where
  responseCache := updateRows (withId id) (usedRow nowMs estimatedTokensAvoided) t.responseCache
  responseCacheHits := t.responseCacheHits + 1
  estimatedTokensAvoided := t.estimatedTokensAvoided + estimatedTokensAvoided.toNat

/-- What a call that succeeds does. -/
inductive Effect (t : CacheTables) : CacheCall → CacheTables → Prop where
  | store (entry : CachedResponse) (referenced : Bool) (hnew : entry.reusable = false)
      (hchecks : (CacheRow.ofEntry entry).checks = true)
      (hfree : ∀ old ∈ t.responseCache, old.slot ≠ (CacheRow.ofEntry entry).slot →
        old.id ≠ entry.id) :
      Effect t (.store entry referenced hnew) (stored entry t)
  | feedback (id : CacheEntryId) (feedback : ResponseFeedback)
      (hfound : ∃ row ∈ t.responseCache, row.id = id) :
      Effect t (.feedback id feedback) (judged id feedback t)
  | hit (id : CacheEntryId) (nowMs : Int) (estimatedTokensAvoided : UInt64)
      (hfound : ∃ row ∈ t.responseCache, row.id = id) :
      Effect t (.hit id nowMs estimatedTokensAvoided) (used id nowMs estimatedTokensAvoided t)

section Effects

variable {t : CacheTables}

@[simp]
theorem holds_withId (id : CacheEntryId) (row : CacheRow) :
    holds (withId id row) = true ↔ row.id = id := by
  simp [withId]

/-- An identifier that is not there names no row. -/
theorem updateRows_withId_of_absent {rows : List CacheRow} {id : CacheEntryId}
    (h : ∀ row ∈ rows, row.id ≠ id) (set : CacheRow → CacheRow) :
    updateRows (withId id) set rows = rows := by
  unfold updateRows
  apply (List.map_congr_left _).trans (List.map_id rows)
  intro row hrow
  rw [if_neg]
  · rfl
  · rw [holds_withId]
    exact h row hrow

/-- The identifier addresses one row, or no row. -/
theorem changes_withId (hids : UniqueKey CacheRow.id t.responseCache) (id : CacheEntryId) :
    (changes (withId id) t.responseCache == 1) = true ↔ ∃ row ∈ t.responseCache, row.id = id := by
  rw [beq_iff_eq, changes_eq_one_iff hids (k := id) fun row h => (holds_withId id row).mp h]
  simp only [holds_withId]

/-- A response is stored as a whole or not at all. -/
theorem store_cases (entry : CachedResponse) (referenced : Bool) (hnew : entry.reusable = false) :
    Post (storeResponseCandidate referenced entry) t
      (Atomic t (Effect t (.store entry referenced hnew))) := by
  simp only [storeResponseCandidate, post_bind, post_require, next_ok, next_error, post_gets]
  refine ⟨fun _ => ⟨fun _ => ⟨fun hrow => ?_, fun _ => atomic_error _⟩,
    fun _ => atomic_error _⟩, fun _ => atomic_error _⟩
  have hchecks : (CacheRow.ofEntry entry).checks = true := (Bool.and_eq_true _ _ ▸ hrow).1
  unfold placeRow
  split
  · exact atomic_error _
  · rename_i hfree
    refine atomic_ok () (.store entry referenced hnew hchecks ?_)
    intro old hold hslot hid
    apply hfree
    rw [List.any_eq_true]
    refine ⟨old, hold, ?_⟩
    rw [Bool.and_eq_true, bne_iff_ne, beq_iff_eq]
    exact ⟨hslot, hid⟩

/-- Feedback changes the one row that it names. -/
theorem feedback_cases (hids : UniqueKey CacheRow.id t.responseCache) (id : CacheEntryId)
    (feedback : ResponseFeedback) :
    Post (applyResponseFeedback id feedback) t (Atomic t (Effect t (.feedback id feedback))) := by
  simp only [applyResponseFeedback, post_bind, post_gets, next_ok, post_modify, post_require]
  constructor
  · intro hone
    exact atomic_ok () (.feedback id feedback ((changes_withId hids id).mp hone))
  · intro hnone
    -- The statement found no row, so it changed none.
    have habsent : ∀ row ∈ t.responseCache, row.id ≠ id := by
      intro row hrow hid
      rw [(changes_withId hids id).mpr ⟨row, hrow, hid⟩] at hnone
      cases hnone
    refine .inl ⟨_, rfl, ?_⟩
    rw [updateRows_withId_of_absent habsent]

/-- A use is counted on the one row that it names. -/
theorem hit_cases (hids : UniqueKey CacheRow.id t.responseCache) (id : CacheEntryId) (nowMs : Int)
    (estimatedTokensAvoided : UInt64) :
    Post (recordCacheHit id nowMs estimatedTokensAvoided) t
      (Atomic t (Effect t (.hit id nowMs estimatedTokensAvoided))) := by
  simp only [recordCacheHit, post_bind, post_require, next_ok, next_error, post_transaction,
    post_gets, post_modify]
  refine ⟨fun _ => ⟨fun hone => ?_, fun _ => atomic_error _⟩, fun _ => atomic_error _⟩
  exact atomic_ok () (.hit id nowMs estimatedTokensAvoided ((changes_withId hids id).mp hone))

/-- Every call has its whole effect or none. -/
theorem perform_cases (hids : UniqueKey CacheRow.id t.responseCache) (call : CacheCall) :
    Post (perform call) t (Atomic t (Effect t call)) := by
  cases call with
  | store entry referenced hnew => exact store_cases entry referenced hnew
  | feedback id feedback => exact feedback_cases hids id feedback
  | hit id nowMs estimatedTokensAvoided => exact hit_cases hids id nowMs estimatedTokensAvoided

end Effects

/-! ## Explained rows -/

/-- The candidate that was last stored under the identifier of the row gave it its request, context
and response; nothing was stored for these since; and a reusable row was approved after every
rejection. -/
structure Explained (log : List CacheCall) (row : CacheRow) (entry : CachedResponse)
    (later : List CacheCall) : Prop where
  last_stored : ∃ referenced hnew, Last (Stores row.id) log (.store entry referenced hnew) later
  request : entry.normalizedRequest = row.normalizedRequest
  context : entry.contextKey = row.contextKey
  response : entry.response = row.response
  current : ∀ call ∈ later, ¬ StoresAt row.slot call
  approved : row.reusable = true →
    ∃ after, Last (Decides row.id) later (.feedback row.id .alwaysUse) after

/-- What holds of the cache after the calls of the log. -/
structure Sound (t : CacheTables) (log : List CacheCall) : Prop where
  ids : UniqueKey CacheRow.id t.responseCache
  slots : UniqueKey CacheRow.slot t.responseCache
  confidence : ∀ row ∈ t.responseCache,
    0 ≤ row.confidencePermille ∧ row.confidencePermille ≤ 1000
  priority : ∀ row ∈ t.responseCache, 0 ≤ row.priorityPermille ∧ row.priorityPermille ≤ 1000
  explained : ∀ row ∈ t.responseCache, ∃ entry later, Explained log row entry later

section Explained

variable {log later : List CacheCall} {row : CacheRow} {entry : CachedResponse}

/-- A response just stored is explained by its storage. -/
theorem explained_stored (log : List CacheCall) (entry : CachedResponse) (referenced : Bool)
    (hnew : entry.reusable = false) :
    Explained (log ++ [.store entry referenced hnew]) (.ofEntry entry) entry [] where
  last_stored := ⟨referenced, hnew, last_concat (stores_self entry referenced hnew) log⟩
  request := rfl
  context := rfl
  response := rfl
  current := by simp
  approved h := by
    rw [show (CacheRow.ofEntry entry).reusable = entry.reusable from rfl, hnew] at h
    cases h

/-- A row that keeps its place is explained by the longer log, if the new call stores nothing in
its stead and what it says about its reuse agrees with the row. -/
theorem Explained.concat (h : Explained log row entry later) {row' : CacheRow} {call : CacheCall}
    (hid : row'.id = row.id) (hslot : row'.slot = row.slot)
    (hresponse : row'.response = row.response)
    (hstores : ¬ Stores row.id call) (hat : ¬ StoresAt row.slot call)
    (hreuse : row'.reusable = true →
      call = .feedback row.id .alwaysUse ∨ row.reusable = true ∧ ¬ Decides row.id call) :
    Explained (log ++ [call]) row' entry (later ++ [call]) := by
  obtain ⟨hrequest, hcontext⟩ := Prod.mk.inj hslot
  refine ⟨?_, h.request.trans hrequest.symm, h.context.trans hcontext.symm,
    h.response.trans hresponse.symm, ?_, ?_⟩
  · obtain ⟨referenced, hnew, hlast⟩ := h.last_stored
    rw [hid]
    exact ⟨referenced, hnew, hlast.concat hstores⟩
  · intro c hc
    rw [hslot]
    rcases List.mem_append.mp hc with hold | hlast
    · exact h.current c hold
    · rw [List.mem_singleton.mp hlast]
      exact hat
  · intro hreusable
    rw [hid]
    rcases hreuse hreusable with rfl | ⟨hbefore, hsilent⟩
    · exact ⟨[], last_concat (decides_alwaysUse row.id) later⟩
    · obtain ⟨after, hlast⟩ := h.approved hbefore
      exact ⟨after ++ [call], hlast.concat hsilent⟩

end Explained

section Sound

variable {t : CacheTables} {log : List CacheCall}

/-- A value that is clamped lies between 0 and 1000. -/
theorem clampPermille_mem (value : Int) : 0 ≤ clampPermille value ∧ clampPermille value ≤ 1000 := by
  unfold clampPermille
  omega

theorem sound_empty : Sound ⟨[], 0, 0⟩ [] where
  ids := List.nodup_nil
  slots := List.nodup_nil
  confidence := by simp
  priority := by simp
  explained := by simp

/-- So does a value that passes the checks. -/
theorem permilles_of_checks {row : CacheRow} (h : row.checks = true) :
    (0 ≤ row.confidencePermille ∧ row.confidencePermille ≤ 1000) ∧
      (0 ≤ row.priorityPermille ∧ row.priorityPermille ≤ 1000) := by
  simp only [CacheRow.checks, between, Bool.and_eq_true, decide_eq_true_eq] at h
  exact ⟨h.1.2, h.2⟩

/-- A property of every row before and of the new row holds of every row after it is stored. -/
theorem forall_stored {entry : CachedResponse} {P : CacheRow → Prop}
    (hold : ∀ row ∈ t.responseCache, row.slot ≠ (CacheRow.ofEntry entry).slot → P row)
    (hnew : P (.ofEntry entry)) : ∀ row ∈ (stored entry t).responseCache, P row := by
  intro row hrow
  rcases mem_upsertRow hrow with ⟨hmem, hslot⟩ | ⟨-, -, -, rfl⟩ | ⟨rfl, -⟩
  · exact hold row hmem hslot
  · exact hnew
  · exact hnew

/-- The rows after an update of the row with one identifier. -/
theorem forall_updated {id : CacheEntryId} {set : CacheRow → CacheRow} {P : CacheRow → Prop}
    (hset : ∀ row ∈ t.responseCache, row.id = id → P (set row))
    (hold : ∀ row ∈ t.responseCache, row.id ≠ id → P row) :
    ∀ row ∈ updateRows (withId id) set t.responseCache, P row := by
  intro row hrow
  rcases (mem_updateRows _ _ _ _).mp hrow with ⟨old, hmem, hid, rfl⟩ | ⟨hmem, hid⟩
  · exact hset old hmem ((holds_withId id old).mp hid)
  · exact hold row hmem fun h => hid ((holds_withId id row).mpr h)

/-- Storing a response keeps the rows explained. -/
theorem Sound.store (h : Sound t log) {entry : CachedResponse} (referenced : Bool)
    (hnew : entry.reusable = false) (hchecks : (CacheRow.ofEntry entry).checks = true)
    (hfree : ∀ old ∈ t.responseCache, old.slot ≠ (CacheRow.ofEntry entry).slot →
      old.id ≠ entry.id) :
    Sound (stored entry t) (log ++ [.store entry referenced hnew]) := by
  obtain ⟨hconfidence, hpriority⟩ := permilles_of_checks hchecks
  refine ⟨h.ids.replace h.slots hfree, h.slots.upsert fun _ _ => rfl,
    forall_stored (fun row hrow _ => h.confidence row hrow) hconfidence,
    forall_stored (fun row hrow _ => h.priority row hrow) hpriority,
    forall_stored ?_ ⟨entry, [], explained_stored log entry referenced hnew⟩⟩
  intro row hrow hslot
  obtain ⟨first, later, hexplained⟩ := h.explained row hrow
  refine ⟨first, _, hexplained.concat rfl rfl rfl ?_ ?_ ?_⟩
  · intro hstores
    exact hfree row hrow hslot hstores.symm
  · intro hat
    exact hslot hat.symm
  · intro hreusable
    exact .inr ⟨hreusable, id⟩

/-- An update of one row that keeps what identifies it. -/
theorem Sound.update (h : Sound t log) {id : CacheEntryId} {set : CacheRow → CacheRow}
    {call : CacheCall} {t' : CacheTables}
    (hrows : t'.responseCache = updateRows (withId id) set t.responseCache)
    (hid : ∀ row, (set row).id = row.id) (hslot : ∀ row, (set row).slot = row.slot)
    (hresponse : ∀ row, (set row).response = row.response)
    (hconfidence : ∀ row ∈ t.responseCache,
      0 ≤ (set row).confidencePermille ∧ (set row).confidencePermille ≤ 1000)
    (hpriority : ∀ row ∈ t.responseCache,
      0 ≤ (set row).priorityPermille ∧ (set row).priorityPermille ≤ 1000)
    (hstores : ∀ id', ¬ Stores id' call) (hat : ∀ slot, ¬ StoresAt slot call)
    (hother : ∀ id', id' ≠ id → ¬ Decides id' call)
    (hreuse : ∀ row, (set row).reusable = true →
      call = .feedback id .alwaysUse ∨ row.reusable = true ∧ ¬ Decides id call) :
    Sound t' (log ++ [call]) := by
  constructor <;> rw [hrows]
  · exact h.ids.update _ hid
  · exact h.slots.update _ hslot
  · exact forall_updated (fun row hrow _ => hconfidence row hrow)
      fun row hrow _ => h.confidence row hrow
  · exact forall_updated (fun row hrow _ => hpriority row hrow)
      fun row hrow _ => h.priority row hrow
  · apply forall_updated
    -- The row that was changed, which the call may have decided.
    · rintro row hrow rfl
      obtain ⟨entry, later, hexplained⟩ := h.explained row hrow
      exact ⟨entry, _, hexplained.concat (hid row) (hslot row) (hresponse row) (hstores _) (hat _)
        (hreuse row)⟩
    -- The other rows, which the call does not concern.
    · intro row hrow hne
      obtain ⟨entry, later, hexplained⟩ := h.explained row hrow
      exact ⟨entry, _, hexplained.concat rfl rfl rfl (hstores _) (hat _)
        fun hreusable => .inr ⟨hreusable, hother _ hne⟩⟩

/-- So does feedback. -/
theorem Sound.feedback (h : Sound t log) (id : CacheEntryId) (feedback : ResponseFeedback) :
    Sound (judged id feedback t) (log ++ [.feedback id feedback]) := by
  have hrows : (judged id feedback t).responseCache =
    updateRows (withId id) (CacheRow.feedback (feedbackEffect feedback)) t.responseCache := rfl
  apply h.update hrows
  · intro row
    rfl
  · intro row
    rfl
  · intro row
    rfl
  · intro row _
    exact clampPermille_mem _
  · intro row _
    exact clampPermille_mem _
  · intro id'
    exact not_false
  · intro slot
    exact not_false
  · intro id' hne hdecides
    cases feedback <;> first | exact hne hdecides.symm | exact hdecides
  · intro row hreusable
    cases feedback with
    | useful => exact .inr ⟨hreusable, not_false⟩
    | prefer => exact .inr ⟨hreusable, not_false⟩
    | alwaysUse => exact .inl rfl
    | wrong => cases hreusable
    | doNotRemember => cases hreusable

/-- So does a use. -/
theorem Sound.hit (h : Sound t log) (id : CacheEntryId) (nowMs : Int)
    (estimatedTokensAvoided : UInt64) :
    Sound (used id nowMs estimatedTokensAvoided t)
      (log ++ [.hit id nowMs estimatedTokensAvoided]) := by
  have hrows : (used id nowMs estimatedTokensAvoided t).responseCache =
    updateRows (withId id) (usedRow nowMs estimatedTokensAvoided) t.responseCache := rfl
  apply h.update hrows
  · intro row
    rfl
  · intro row
    rfl
  · intro row
    rfl
  · exact h.confidence
  · exact h.priority
  · intro id'
    exact not_false
  · intro slot
    exact not_false
  · intro id' _
    exact not_false
  · intro row hreusable
    exact .inr ⟨hreusable, not_false⟩

/-- So does every effect. -/
theorem Effect.sound {call : CacheCall} {t' : CacheTables} (heffect : Effect t call t')
    (h : Sound t log) : Sound t' (log ++ [call]) := by
  cases heffect with
  | store entry referenced hnew hchecks hfree => exact h.store referenced hnew hchecks hfree
  | feedback id feedback hfound => exact h.feedback id feedback
  | hit id nowMs estimatedTokensAvoided hfound => exact h.hit id nowMs estimatedTokensAvoided

/-- In every reached cache each row is explained by the accepted calls. -/
theorem sound_reached (calls : List CacheCall) :
    Sound (reached calls).state (reached calls).accepted := by
  apply logged_invariant (I := Sound) _ sound_empty
  intro t log call h
  apply (perform_cases h.ids call).mono
  intro r t' hcases
  cases r with
  | ok a => exact hcases.effect_of_ok.sound h
  | error e =>
      rw [hcases.unchanged_of_error]
      exact h

end Sound

/-! ## Lookup -/

section Lookup

variable {rows : List CacheRow} {request contextKey : String} {nowMs : Int} {entry : CachedResponse}

/-- The condition of the query. -/
theorem holds_reusableFor (row : CacheRow) :
    holds (reusableFor request contextKey nowMs row) = true ↔
      row.normalizedRequest = request ∧ row.contextKey = contextKey ∧ row.reusable = true ∧
        800 ≤ row.confidencePermille ∧ ∀ expiry ∈ row.validUntilMs, nowMs ≤ expiry := by
  cases h : row.validUntilMs <;> simp [reusableFor, h]

/-- What the row reader keeps of a row. -/
structure ReadFrom (row : CacheRow) (entry : CachedResponse) : Prop where
  id : entry.id = row.id
  request : entry.normalizedRequest = row.normalizedRequest
  context : entry.contextKey = row.contextKey
  response : entry.response = row.response
  confidence : (entry.confidencePermille.toNat : Int) = row.confidencePermille
  expiry : entry.validUntilMs = row.validUntilMs

theorem toNat_of_parseU16 {value : Int} {n : UInt16} (h : parseU16 value = some n) :
    (n.toNat : Int) = value := by
  unfold parseU16 at h
  split at h
  · rename_i hrange
    cases h
    rw [UInt16.toNat_ofNat']
    omega
  · cases h

/-- A row that can be read says just what its response says. -/
theorem readFrom_of_cachedResponseFromRow {row : CacheRow}
    (h : cachedResponseFromRow row = .ok entry) : ReadFrom row entry := by
  rw [cachedResponseFromRow, orError_eq_ok_iff] at h
  obtain ⟨confidence, hconfidence, h⟩ := Option.bind_eq_some_iff.mp h
  obtain ⟨priority, -, h⟩ := Option.bind_eq_some_iff.mp h
  iterate 4 obtain ⟨_, -, h⟩ := Option.bind_eq_some_iff.mp h
  cases h
  exact ⟨rfl, rfl, rfl, rfl, toNat_of_parseU16 hconfidence, rfl⟩

/-- A response found is that of a row that may be reused. -/
theorem row_of_cachedResponse
    (h : cachedResponse rows request contextKey nowMs = .ok (some entry)) :
    ∃ row ∈ rows, holds (reusableFor request contextKey nowMs row) = true ∧ ReadFrom row entry := by
  unfold cachedResponse at h
  cases hhead : (select (reusableFor request contextKey nowMs) rows).head? with
  | none =>
      rw [hhead] at h
      cases h
  | some row =>
      rw [hhead] at h
      obtain ⟨hmem, hholds⟩ := (mem_select _ _ _).mp (List.mem_of_head? hhead)
      cases hread : cachedResponseFromRow row with
      | error e =>
          simp only [hread] at h
          cases h
      | ok value =>
          simp only [hread] at h
          cases h
          exact ⟨row, hmem, hholds, readFrom_of_cachedResponseFromRow hread⟩

end Lookup

/-- The identifier names no entry. -/
theorem absent_of_replaced {t : CacheTables} {log : List CacheCall} (h : Sound t log)
    {old : CachedResponse} {referenced : Bool} {hnew : old.reusable = false}
    {later : List CacheCall} (hlast : Last (Stores old.id) log (.store old referenced hnew) later)
    (hreplaced : ∃ call ∈ later, StoresAt (old.normalizedRequest, old.contextKey) call) :
    ∀ row ∈ t.responseCache, row.id ≠ old.id := by
  intro row hrow hid
  obtain ⟨entry, later', hexplained⟩ := h.explained row hrow
  obtain ⟨referenced', hnew', hlast'⟩ := hexplained.last_stored
  rw [hid] at hlast'
  obtain ⟨hcall, rfl⟩ := hlast.unique hlast'
  cases hcall
  -- The row would still have the place of its candidate.
  obtain ⟨call, hcall, hat⟩ := hreplaced
  apply hexplained.current call hcall
  rwa [CacheRow.slot, ← hexplained.request, ← hexplained.context]

/-- Reuse of cached responses, after any stored candidates, feedback and hits. An entry that the
lookup returns was approved after it was last stored and after every rejection, is confident enough
and valid, and has the response last stored under its identifier for that request and context.
Feedback and hits on an identifier that was replaced fail and change nothing. The permilles stay in
their range, and a request and context have at most one entry. -/
theorem cache_reuse (calls : List CacheCall) :
    (∀ request contextKey nowMs entry,
      cachedResponse (reached calls).state.responseCache request contextKey nowMs =
          .ok (some entry) →
        800 ≤ entry.confidencePermille.toNat ∧ (∀ expiry ∈ entry.validUntilMs, nowMs ≤ expiry) ∧
        ∃ candidate referenced hnew later after,
          Last (Stores entry.id) (reached calls).accepted (.store candidate referenced hnew)
            later ∧
          candidate.normalizedRequest = request ∧ candidate.contextKey = contextKey ∧
          candidate.response = entry.response ∧
          Last (Decides entry.id) later (.feedback entry.id .alwaysUse) after) ∧
    (∀ old referenced hnew later,
      Last (Stores old.id) (reached calls).accepted (.store old referenced hnew) later →
      (∃ call ∈ later, StoresAt (old.normalizedRequest, old.contextKey) call) →
      (∀ feedback, ∃ e, perform (.feedback old.id feedback) (reached calls).state =
        (.error e, (reached calls).state)) ∧
      ∀ nowMs tokens, ∃ e, perform (.hit old.id nowMs tokens) (reached calls).state =
        (.error e, (reached calls).state)) ∧
    (∀ row ∈ (reached calls).state.responseCache,
      (0 ≤ row.confidencePermille ∧ row.confidencePermille ≤ 1000) ∧
        0 ≤ row.priorityPermille ∧ row.priorityPermille ≤ 1000) ∧
    UniqueKey CacheRow.slot (reached calls).state.responseCache := by
  have h := sound_reached calls
  refine ⟨?_, ?_, fun row hrow => ⟨h.confidence row hrow, h.priority row hrow⟩, h.slots⟩
  · intro request contextKey nowMs entry hlookup
    -- The row found tells its last store and the last decision on it.
    obtain ⟨row, hrow, hholds, hread⟩ := row_of_cachedResponse hlookup
    obtain ⟨hrequest, hcontext, hreusable, hconfidence, hvalid⟩ := (holds_reusableFor row).mp hholds
    obtain ⟨candidate, later, hexplained⟩ := h.explained row hrow
    obtain ⟨referenced, hnew, hlast⟩ := hexplained.last_stored
    obtain ⟨after, happroved⟩ := hexplained.approved hreusable
    rw [← hread.id] at hlast happroved
    refine ⟨?_, ?_, candidate, referenced, hnew, later, after, hlast, ?_, ?_, ?_, happroved⟩
    · have hread_confidence := hread.confidence
      omega
    · rw [hread.expiry]
      exact hvalid
    · exact hexplained.request.trans hrequest
    · exact hexplained.context.trans hcontext
    · exact hexplained.response.trans hread.response.symm
  · intro old referenced hnew later hlast hreplaced
    -- The row of a replaced entry is gone.
    have habsent := absent_of_replaced h hlast hreplaced
    -- So what would change it fails.
    have hfails : ∀ call, (∀ t', ¬ Effect (reached calls).state call t') →
        ∃ e, perform call (reached calls).state = (.error e, (reached calls).state) := by
      intro call hnone
      rcases perform_cases h.ids call with ⟨e, he, hsame⟩ | ⟨-, heffect⟩
      · exact ⟨e, Prod.ext he hsame⟩
      · exact absurd heffect (hnone _)
    constructor
    · intro feedback
      apply hfails
      rintro t' ⟨⟩
      rename_i hfound
      obtain ⟨row, hrow, hid⟩ := hfound
      exact habsent row hrow hid
    · intro nowMs tokens
      apply hfails
      rintro t' ⟨⟩
      rename_i hfound
      obtain ⟨row, hrow, hid⟩ := hfound
      exact habsent row hrow hid

end Halquen.Storage.CacheReuse
