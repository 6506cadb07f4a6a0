import Halquen.Library.Listing
import Halquen.Service.Aliases
import Halquen.Service.MemoryFrame

/-!
# One preference for each key

The lookup of a preference takes the first row that it finds, so its answer is unique only as long
as no two enabled items have the same key (`OneEach`). An item keeps its key for good (`Named`):
remembering, forgetting and restoring keep the keys of the enabled items apart, whatever happens in
between. What does not is enabling an item whose key another item has taken over. The keys stay
apart along a run exactly if no request does this (`one_preference_iff`).
-/

set_option autoImplicit false

namespace Halquen.Service.Preferences

open Halquen.Domain.Ids Halquen.Domain.Capability Halquen.Domain.Interaction
open Halquen.Policy.Engine Halquen.Capabilities.Executor Halquen.Memory.Semantic
open Halquen.Protocol.Messages
open Halquen.Library.Action Halquen.Library.Action.Act Halquen.Library.Run Halquen.Library.Sql
open Halquen.Library.LinkedChain
open Halquen.Service.State Halquen.Service.MemoryService Halquen.Service.MemoryHistory
open Halquen.Service.Chat Halquen.Service.Handler Halquen.Service.Aliases
open Halquen.Service.MemoryFrame Halquen.Service.Walk
open Halquen.Storage.Grants (StorageError)
open Halquen.Storage.Memory Halquen.Storage.MemoryChain Halquen.Storage.Sqlite

/-! ## Keys of items -/

/-- At most one enabled item has a preference of each key as its current revision. -/
def OneEach (t : MemoryTables) : Prop :=
  ∀ key value value', ∀ row ∈ t.items, ∀ row' ∈ t.items,
    Prefers t key value row → Prefers t key value' row' → row = row'

/-- Every revision of an item is a preference of the key of the item. -/
def Named (t : MemoryTables) (name : MemoryId → String) : Prop :=
  ∀ r ∈ t.revisions, ∃ value, r.value = .preference (name r.memoryId) value

/-- Memory is consistent and has a name for every key. -/
structure Sound (t : MemoryTables) : Prop where
  consistent : Consistent t
  named : ∃ name, Named t name

/-- The keys of the enabled items are different. -/
def Distinct (name : MemoryId → String) (items : List MemoryItemRow) : Prop :=
  ∀ row ∈ items, ∀ row' ∈ items, row.disabled = false → row'.disabled = false →
    name row.id = name row'.id → row.id = row'.id

section

variable {t t' : MemoryTables} {name : MemoryId → String} {key value : String}
  {item : MemoryItem} {revision : MemoryRevision}

/-- An item is joined with one of its own revisions. -/
theorem join_of_consistent (ht : Consistent t) {row : MemoryItemRow} (hrow : row ∈ t.items) :
    ∃ r ∈ t.revisions, r.memoryId = row.id ∧
      ∃ joined, row.join t = some joined ∧ joined.2.value = r.value := by
  have hlinear := ht.linear row hrow
  obtain ⟨rest, last, hrest⟩ :=
    (List.eq_nil_or_concat (revisionsOf t row.id)).resolve_left hlinear.nonempty
  rw [List.concat_eq_append] at hrest
  have hhead := hlinear.head
  rw [hrest, tip_append] at hhead
  have hlast : last ∈ revisionsOf t row.id := by simp [hrest]
  obtain ⟨hstored, howner⟩ := List.mem_filter.mp hlast
  have hfound : t.revisions.find? (fun r => r.id == last.id) = some last := by
    cases hfind : t.revisions.find? fun r => r.id == last.id with
    | none => exact absurd (beq_self_eq_true last.id) (List.find?_eq_none.mp hfind last hstored)
    | some r =>
        obtain ⟨hmem, hid⟩ := find?_id_eq_some hfind
        rw [ht.revisionKeys.eq_of_mem hmem hstored hid]
  refine ⟨last, hstored, beq_iff_eq.mp howner, ?_⟩
  simp only [MemoryItemRow.join, hhead, hfound, bind, Option.bind_some]
  exact ⟨_, rfl, rfl⟩

/-- An enabled item is a preference of its key, and of no other one. -/
theorem prefers_iff (ht : Consistent t) (hname : Named t name) {row : MemoryItemRow}
    (hrow : row ∈ t.items) :
    (∃ value, Prefers t key value row) ↔ row.disabled = false ∧ name row.id = key := by
  obtain ⟨r, hr, howner, joined, hjoined, hvalue⟩ := join_of_consistent ht hrow
  obtain ⟨text, htext⟩ := hname r hr
  rw [howner] at htext
  constructor
  · rintro ⟨value, henabled, joined', hjoined', hvalue'⟩
    rw [hjoined] at hjoined'
    cases hjoined'
    rw [hvalue, htext] at hvalue'
    exact ⟨henabled, (MemoryValue.preference.inj hvalue').1⟩
  · rintro ⟨henabled, rfl⟩
    exact ⟨text, henabled, joined, hjoined, hvalue.trans htext⟩

/-- There is one preference for each key if the names of the rows differ. -/
theorem oneEach_iff (ht : Consistent t) (hname : Named t name) :
    OneEach t ↔ Distinct name t.items := by
  constructor
  · intro h row hrow row' hrow' henabled henabled' hsame
    obtain ⟨value, hvalue⟩ := (prefers_iff ht hname hrow).mpr ⟨henabled, rfl⟩
    obtain ⟨value', hvalue'⟩ := (prefers_iff ht hname hrow').mpr ⟨henabled', rfl⟩
    rw [← hsame] at hvalue'
    rw [h _ _ _ row hrow row' hrow' hvalue hvalue']
  · intro h key value value' row hrow row' hrow' hprefers hprefers'
    obtain ⟨henabled, hkey⟩ := (prefers_iff ht hname hrow).mp ⟨value, hprefers⟩
    obtain ⟨henabled', hkey'⟩ := (prefers_iff ht hname hrow').mp ⟨value', hprefers'⟩
    exact ht.itemKeys.eq_of_mem hrow hrow'
      (h row hrow row' hrow' henabled henabled' (hkey.trans hkey'.symm))

/-! ## Submissions -/

/-- What a request on the memory keeps. -/
def Safe (t t' : MemoryTables) : Prop :=
  Sound t → Sound t' ∧ (OneEach t → OneEach t')

instance : IsPreorder MemoryTables Safe where
  refl _ := fun h => ⟨h, id⟩
  trans _ _ _ h h' := fun ht =>
    ⟨(h' (h ht).1).1, (h' (h ht).1).2 ∘ (h ht).2⟩

/-- The rows of a submission for a stored item are the old ones, as enabled as before. -/
theorem rows_of_revised (h : Persisted t item revision t')
    (hprevious : revision.previousRevisionId ≠ none) {row' : MemoryItemRow}
    (hrow' : row' ∈ t'.items) :
    ∃ row ∈ t.items, row.id = row'.id ∧ row.disabled = row'.disabled := by
  rcases h.head with ⟨-, hnone, -⟩ | ⟨-, -, head, -, -, -, -, hitems⟩
  · exact absurd hnone hprevious
  · rw [hitems] at hrow'
    obtain ⟨old, hold, rfl⟩ := List.mem_map.mp hrow'
    refine ⟨old, hold, ?_⟩
    split <;> exact ⟨rfl, rfl⟩

/-- One more revision with the key of the item. -/
theorem safe_revised (h : Persisted t item revision t')
    (hprevious : revision.previousRevisionId ≠ none)
    (hvalue : Consistent t → ∀ name, Named t name →
      ∃ value, revision.value = .preference (name item.id) value) : Safe t t' := by
  rintro ⟨ht, name, hname⟩
  have hname' : Named t' name := by
    intro r hr
    rw [h.revisions] at hr
    rcases List.mem_append.mp hr with hold | hnew
    · exact hname r hold
    · rw [List.mem_singleton.mp hnew]
      obtain ⟨value, hvalue⟩ := hvalue ht name hname
      exact ⟨value, by rw [MemoryRevisionRow.ofRevision, h.owner, hvalue]⟩
  refine ⟨⟨ht.persisted h, name, hname'⟩, ?_⟩
  rw [oneEach_iff ht hname, oneEach_iff (ht.persisted h) hname']
  intro hdistinct row hrow row' hrow' henabled henabled' hsame
  obtain ⟨old, hold, hid, hstate⟩ := rows_of_revised h hprevious hrow
  obtain ⟨old', hold', hid', hstate'⟩ := rows_of_revised h hprevious hrow'
  rw [← hid, ← hid'] at hsame ⊢
  exact hdistinct old hold old' hold' (hstate.trans henabled) (hstate'.trans henabled') hsame

/-- A new item, under a key that no enabled item has. -/
theorem safe_created (h : Persisted t item revision t')
    (hprevious : revision.previousRevisionId = none)
    (hvalue : revision.value = .preference key value) (hnone : preferenceByKey t key = none) :
    Safe t t' := by
  rintro ⟨ht, name, hname⟩
  obtain ⟨hnew, hitems⟩ : (∀ row ∈ t.items, row.id ≠ item.id) ∧ t'.items =
      t.items ++ [(MemoryItemRow.ofItem item).withHead revision.id item.updatedAtMs] := by
    rcases h.head with ⟨hnew, -, hitems⟩ | ⟨_, _, _, -, -, -, hsome, -⟩
    · exact ⟨hnew, hitems⟩
    · rw [hprevious] at hsome
      cases hsome
  have hother : ∀ row ∈ t.items, Function.update name item.id key row.id = name row.id :=
    fun row hrow => Function.update_of_ne (hnew row hrow) _ _
  -- The new item takes the key; the revisions so far are about other items.
  have hname' : Named t' (Function.update name item.id key) := by
    intro r hr
    rw [h.revisions] at hr
    rcases List.mem_append.mp hr with hold | hlast
    · obtain ⟨row, hrow, hid, -⟩ := (ht.founded r hold).item
      rw [← hid, hother row hrow, hid]
      exact hname r hold
    · rw [List.mem_singleton.mp hlast]
      refine ⟨value, ?_⟩
      rw [MemoryRevisionRow.ofRevision, h.owner, Function.update_self]
      exact hvalue
  refine ⟨⟨ht.persisted h, _, hname'⟩, ?_⟩
  rw [oneEach_iff ht hname, oneEach_iff (ht.persisted h) hname', hitems]
  -- The enabled items so far have other keys.
  have hapart : ∀ row ∈ t.items, row.disabled = false → name row.id ≠ key := by
    intro row hrow henabled hkey
    obtain ⟨value', hprefers⟩ := (prefers_iff ht hname hrow).mpr ⟨henabled, hkey⟩
    exact preferenceByKey_eq_none_iff.mp hnone row hrow value' hprefers
  intro hdistinct row hrow row' hrow' henabled henabled' hsame
  rcases List.mem_append.mp hrow with hold | hlast <;>
    rcases List.mem_append.mp hrow' with hold' | hlast'
  -- Two items that were there before,
  · rw [hother row hold, hother row' hold'] at hsame
    exact hdistinct row hold row' hold' henabled henabled' hsame
  -- one of them and the new item, either way round,
  · obtain rfl := List.mem_singleton.mp hlast'
    rw [hother row hold] at hsame
    exact absurd (hsame.trans (Function.update_self item.id key name)) (hapart row hold henabled)
  · obtain rfl := List.mem_singleton.mp hlast
    rw [hother row' hold'] at hsame
    exact absurd (hsame.symm.trans (Function.update_self item.id key name))
      (hapart row' hold' henabled')
  -- or the new item twice.
  · rw [List.mem_singleton.mp hlast, List.mem_singleton.mp hlast']

/-! ## Changes of the state of an item -/

/-- A row in its new state. -/
def statedRow (update : MemoryStateUpdate) (row : MemoryItemRow) : MemoryItemRow :=
  { row with
    pinned := update.pinned.getD row.pinned
    disabled := update.disabled.getD row.disabled
    priorityPermille := update.priorityPermille.getD row.priorityPermille }

/-- The tables after the state of an item has been set. -/
def stated (update : MemoryStateUpdate) (t : MemoryTables) : MemoryTables :=
  { t with
    items := updateRows (fun row => eq (some row.id) (some update.memoryId)) (statedRow update)
      t.items }

/-- The update enables an item whose key another enabled item has. -/
def Reclaims (t : MemoryTables) (update : MemoryStateUpdate) : Prop :=
  update.disabled = some false ∧ ∃ row ∈ t.items, row.id = update.memoryId ∧ row.disabled = true ∧
    ∃ joined, row.join t = some joined ∧ ∃ key value,
      joined.2.value = .preference key value ∧ preferenceByKey t key ≠ none

/-- The setter of the state succeeds where the priority is in range. -/
theorem post_setMemoryState (update : MemoryStateUpdate) (t : MemoryTables)
    (Q : Except StorageError Bool → MemoryTables → Prop)
    (hset : update.priorityPermille.all (fun value => decide (value ≤ 1000)) = true →
      ∀ changed, Q (.ok changed) (stated update t))
    (hrange : update.priorityPermille.all (fun value => decide (value ≤ 1000)) = false →
      ∀ e, Q (.error e) t) :
    Post (setMemoryState update.memoryId update.pinned update.disabled update.priorityPermille) t
      Q := by
  unfold setMemoryState
  rw [post_bind, post_require]
  refine ⟨fun hvalid => ?_, fun hinvalid => ?_⟩
  · exact hset hvalid _
  · exact hrange hinvalid _

omit item revision in
/-- A change of state keeps the memory consistent. -/
theorem consistent_stated (update : MemoryStateUpdate) (ht : Consistent t) :
    Consistent (stated update t) :=
  ht.updateItems (fun _ => rfl) (fun _ => rfl) fun _ => rfl

/-- The rows of the update, one by one. -/
theorem mem_stated (update : MemoryStateUpdate) (row : MemoryItemRow) :
    row ∈ (stated update t).items ↔
      (∃ old ∈ t.items, old.id = update.memoryId ∧ statedRow update old = row) ∨
        row ∈ t.items ∧ row.id ≠ update.memoryId := by
  have hcond : ∀ r : MemoryItemRow,
      holds (eq (some r.id) (some update.memoryId)) = true ↔ r.id = update.memoryId := by
    intro r
    simp
  simp only [stated, mem_updateRows, hcond, Ne]

/-- The key of a stored item is its name. -/
theorem key_eq_name (ht : Consistent t) (hname : Named t name) {row : MemoryItemRow}
    (hrow : row ∈ t.items) :
    ∃ joined, row.join t = some joined ∧
      ∀ key, (∃ value, joined.2.value = .preference key value) ↔ key = name row.id := by
  obtain ⟨r, hr, howner, joined, hjoined, hvalue⟩ := join_of_consistent ht hrow
  obtain ⟨text, htext⟩ := hname r hr
  refine ⟨joined, hjoined, fun key => ?_⟩
  rw [hvalue, htext, howner]
  constructor
  · rintro ⟨value, heq⟩
    exact (MemoryValue.preference.inj heq).1.symm
  · rintro rfl
    exact ⟨text, rfl⟩

/-- A preference is found if a row of its name is enabled. -/
theorem preferenceByKey_ne_none_iff (ht : Consistent t) (hname : Named t name) :
    preferenceByKey t key ≠ none ↔
      ∃ row ∈ t.items, row.disabled = false ∧ name row.id = key := by
  rw [Ne, preferenceByKey_eq_none_iff]
  push Not
  constructor
  · rintro ⟨row, hrow, hprefers⟩
    exact ⟨row, hrow, (prefers_iff ht hname hrow).mp hprefers⟩
  · rintro ⟨row, hrow, henabled⟩
    exact ⟨row, hrow, (prefers_iff ht hname hrow).mpr henabled⟩

/-- An update reclaims a key if it enables a row whose name is taken. -/
theorem reclaims_iff (update : MemoryStateUpdate) (ht : Consistent t) (hname : Named t name) :
    Reclaims t update ↔ update.disabled = some false ∧
      ∃ row ∈ t.items, row.id = update.memoryId ∧ row.disabled = true ∧
        ∃ row' ∈ t.items, row'.disabled = false ∧ name row'.id = name row.id := by
  constructor
  · rintro ⟨henable, row, hrow, hid, hdisabled, joined, hjoined, key, value, hvalue, hkey⟩
    obtain ⟨joined', hjoined', hnamed⟩ := key_eq_name ht hname hrow
    rw [hjoined] at hjoined'
    cases hjoined'
    rw [(hnamed key).mp ⟨value, hvalue⟩, preferenceByKey_ne_none_iff ht hname] at hkey
    exact ⟨henable, row, hrow, hid, hdisabled, hkey⟩
  · rintro ⟨henable, row, hrow, hid, hdisabled, hother⟩
    obtain ⟨joined, hjoined, hnamed⟩ := key_eq_name ht hname hrow
    obtain ⟨value, hvalue⟩ := (hnamed (name row.id)).mpr rfl
    exact ⟨henable, row, hrow, hid, hdisabled, joined, hjoined, name row.id, value, hvalue,
      (preferenceByKey_ne_none_iff ht hname).mpr hother⟩

/-- An item that an update enables has a key of its own, or its key is reclaimed. -/
theorem eq_or_reclaims {update : MemoryStateUpdate} (ht : Consistent t) (hname : Named t name)
    (hdistinct : Distinct name t.items) {row row' : MemoryItemRow} (hrow : row ∈ t.items)
    (hrow' : row' ∈ t.items) (hid : row.id = update.memoryId)
    (henabled : (statedRow update row).disabled = false) (henabled' : row'.disabled = false)
    (hsame : name row.id = name row'.id) : row.id = row'.id ∨ Reclaims t update := by
  cases hdisabled : row.disabled with
  | false => exact .inl (hdistinct row hrow row' hrow' hdisabled henabled' hsame)
  | true =>
      refine .inr ((reclaims_iff update ht hname).mpr ⟨?_, row, hrow, hid, hdisabled, row', hrow',
        henabled', hsame.symm⟩)
      simp only [statedRow, hdisabled] at henabled
      cases hupdate : update.disabled with
      | none =>
          rw [hupdate] at henabled
          cases henabled
      | some disabled =>
          rw [hupdate] at henabled
          exact congrArg some henabled

/-- An update keeps the keys apart exactly if it reclaims none. -/
theorem oneEach_stated_iff (update : MemoryStateUpdate) (ht : Sound t) (hone : OneEach t) :
    OneEach (stated update t) ↔ ¬ Reclaims t update := by
  obtain ⟨ht, name, hname⟩ := ht
  have hname' : Named (stated update t) name := hname
  rw [oneEach_iff (consistent_stated update ht) hname']
  rw [oneEach_iff ht hname] at hone
  constructor
  · intro hdistinct hreclaims
    obtain ⟨henable, row, hrow, hid, hdisabled, row', hrow', henabled', hsame⟩ :=
      (reclaims_iff update ht hname).mp hreclaims
    have hother : row'.id ≠ row.id := by
      intro heq
      rw [ht.itemKeys.eq_of_mem hrow' hrow heq, hdisabled] at henabled'
      cases henabled'
    refine hother (hdistinct row' ?_ (statedRow update row) ?_ henabled' ?_ hsame)
    · exact (mem_stated update row').mpr (.inr ⟨hrow', fun heq => hother (heq.trans hid.symm)⟩)
    · exact (mem_stated update _).mpr (.inl ⟨row, hrow, hid, rfl⟩)
    · simp [statedRow, henable]
  · intro hfree row hrow row' hrow' henabled henabled' hsame
    rcases (mem_stated update row).mp hrow with ⟨old, hold, hid, rfl⟩ | ⟨hold, hne⟩ <;>
      rcases (mem_stated update row').mp hrow' with ⟨old', hold', hid', rfl⟩ | ⟨hold', hne'⟩
    · exact hid.trans hid'.symm
    · exact (eq_or_reclaims ht hname hone hold hold' hid henabled henabled' hsame).resolve_right
        hfree
    · exact ((eq_or_reclaims ht hname hone hold' hold hid' henabled' henabled
        hsame.symm).resolve_right hfree).symm
    · exact hone row hold row' hold' henabled henabled' hsame

/-- A change of state keeps the memory sound. -/
theorem sound_stated (update : MemoryStateUpdate) (ht : Sound t) : Sound (stated update t) :=
  ⟨consistent_stated update ht.consistent, ht.named⟩

end

/-! ## The answer of the lookup -/

/-- At most one answer for each key, in whatever order the rows are read. -/
def Unambiguous (t : MemoryTables) : Prop :=
  OneEach t ∧ ∀ key items, items.Perm t.items →
    preferenceByKey { t with items := items } key = preferenceByKey t key

/-- No key is ambiguous if there is one preference for each. -/
theorem unambiguous_iff {t : MemoryTables} : Unambiguous t ↔ OneEach t := by
  refine ⟨And.left, fun h => ⟨h, fun key items hperm => ?_⟩⟩
  refine Library.Listing.findSome?_eq_of_perm hperm fun row hrow row' hrow' hread hread' => ?_
  have hprefers : ∀ r : MemoryItemRow, (if r.disabled then none
      else (r.join t).filter fun joined => isPreference joined.2.value key) ≠ none →
      ∃ value, Prefers t key value r := by
    intro r hr
    cases hdisabled : r.disabled with
    | true => simp [hdisabled] at hr
    | false =>
        rw [hdisabled, if_neg Bool.false_ne_true] at hr
        obtain ⟨joined, hfiltered⟩ := Option.ne_none_iff_exists'.mp hr
        obtain ⟨hjoined, hpreference⟩ := Option.filter_eq_some_iff.mp hfiltered
        obtain ⟨value, hvalue⟩ := (isPreference_iff _ _).mp hpreference
        exact ⟨value, hdisabled, joined, hjoined, hvalue⟩
  obtain ⟨value, hvalue⟩ := hprefers row hread
  obtain ⟨value', hvalue'⟩ := hprefers row' hread'
  exact h key value value' row hrow row' hrow' hvalue hvalue'

/-! ## Requests -/

/-- What a request keeps of the memory. -/
def Apart (s s' : ServiceState) : Prop := Safe s.data.database.memory s'.data.database.memory

instance : IsPreorder ServiceState Apart where
  refl s := refl_of Safe s.data.database.memory
  trans _ _ _ h h' := trans_of Safe h h'

/-- What leaves the memory alone keeps its preferences apart. -/
theorem apart_of_sameMemory (s s' : ServiceState) (h : SameMemory s s') : Apart s s' := by
  unfold Apart
  rw [show s'.data.database.memory = s.data.database.memory from h]
  exact refl_of Safe _

section

variable {W : World} {α β : Type}

theorem keeps_apart {m : Operation α} (h : Keeps SameMemory m) : Keeps Apart m :=
  h.mono apart_of_sameMemory

/-- What a reading call reads, and that it leaves the memory alone. -/
theorem post_read_memory {method : DbMethod} (hmethod : method.isWrite = false)
    (f : Database → Except StorageError α) (s : ServiceState) :
    Post (State.read W method f) s fun r s' =>
      (∀ a, r = .ok a → f s.data.database = .ok a) ∧ SameMemory s s' :=
  Post.and (Post.mono (returns_read hmethod f s) fun _ _ h a ha => (h a ha).1)
    ((keeps_read basics_sameMemory hmethod f).post s)

/-- What is bound to an operation beside the memory starts from the same tables. -/
theorem post_bind_beside {t : MemoryTables} {m : Operation α} {f : α → Operation β}
    {s : ServiceState} {Q : α → Prop} (hs : s.data.database.memory = t)
    (hm : Post m s fun r s' => (∀ a, r = .ok a → Q a) ∧ SameMemory s s')
    (hf : ∀ a s', Q a → s'.data.database.memory = t →
      Post (f a) s' fun _ s'' => Safe t s''.data.database.memory) :
    Post (m >>= f) s fun _ s' => Safe t s'.data.database.memory := by
  refine hm.bind (fun a s' h => hf a s' (h.1 a rfl) (Eq.trans h.2 hs)) fun e s' h => ?_
  rw [show s'.data.database.memory = t from Eq.trans h.2 hs]
  exact refl_of Safe t

theorem post_bind_same {t : MemoryTables} {m : Operation α} {f : α → Operation β}
    {s : ServiceState} (hs : s.data.database.memory = t) (hm : Keeps SameMemory m)
    (hf : ∀ a s', s'.data.database.memory = t →
      Post (f a) s' fun _ s'' => Safe t s''.data.database.memory) :
    Post (m >>= f) s fun _ s' => Safe t s'.data.database.memory :=
  post_bind_beside (Q := fun _ => True) hs (Post.and (fun _ _ => trivial) (hm.post s))
    fun a s' _ hs' => hf a s' hs'

/-- A submission is stored, or it leaves the memory alone. -/
theorem post_persist {t : MemoryTables} {item : MemoryItem} {revision : MemoryRevision}
    (evidence : List Evidence) {s : ServiceState} (hs : s.data.database.memory = t)
    (hsafe : ∀ t', Persisted t item revision t' → Safe t t') :
    Post (persist W item revision evidence) s fun _ s' => Safe t s'.data.database.memory := by
  have hok : Returns (persist W item revision evidence) s fun _ s' =>
      Safe t s'.data.database.memory :=
    returns_persist fun s' hpersisted => hsafe _ (hs ▸ hpersisted)
  refine Post.mono (Post.and hok (persist_error item revision evidence s)) ?_
  rintro (e | u) s' ⟨hstored, hunchanged⟩
  · rw [hunchanged e rfl, hs]
    exact refl_of Safe t
  · exact hstored u rfl

/-- The lookup of a key and the revision that follows from it: one more revision of the item that
has the key, or a new item. -/
theorem keeps_apart_commitPreference (key value sourceReference : String) :
    Keeps Apart (commitPreference W key value sourceReference) := by
  refine (keeps_apart (keeps_now basics_sameMemory)).bind fun timestamp => ?_
  refine (keeps_apart (keeps_generate basics_sameMemory _)).bind fun evidenceId => ?_
  intro s
  refine post_bind_beside rfl (post_read_memory rfl _ s) fun existing s₁ hexisting hs₁ => ?_
  have hfound := Except.ok.inj hexisting
  cases existing with
  | none =>
      refine post_bind_beside (Q := fun change => change.2.previousRevisionId = none ∧
        change.2.value = .preference key value) hs₁ ?_ fun change s₂ hchange hs₂ => ?_
      · simp only [preferenceRevision, post_bind, post_generate, next_ok, post_pure]
        exact ⟨by rintro _ ⟨⟩; exact ⟨rfl, rfl⟩, rfl⟩
      · refine (post_persist _ hs₂ fun t' hpersisted => ?_).bind (fun _ _ h => h) fun _ _ h => h
        exact safe_created hpersisted hchange.1 hchange.2 hfound
  | some found =>
      obtain ⟨item, current⟩ := found
      refine post_bind_beside (Q := fun change => change.2.previousRevisionId ≠ none ∧
        change.2.value = .preference key value ∧ change.1.id = item.id) hs₁ ?_
        fun change s₂ hchange hs₂ => ?_
      · simp only [preferenceRevision, post_bind, post_generate, next_ok, post_pure]
        exact ⟨by rintro _ ⟨⟩; exact ⟨Option.some_ne_none _, rfl, rfl⟩, rfl⟩
      · refine (post_persist _ hs₂ fun t' hpersisted => ?_).bind (fun _ _ h => h) fun _ _ h => h
        refine safe_revised hpersisted hchange.1 fun ht name hname => ⟨value, ?_⟩
        obtain ⟨row, hrow, hid, value', -, hprefers⟩ := prefers_of_preferenceByKey hfound
        rw [hchange.2.1, hchange.2.2, ← hid,
          ((prefers_iff ht hname hrow).mp ⟨value', hprefers⟩).2]

/-- Remembering writes to the row of its key, or to a new one. -/
theorem keeps_apart_rememberPreference (key value : String) (session : ChatSession)
    (userMessage : ChatMessage) (correlationId : String) :
    Keeps Apart (rememberPreference W key value session userMessage correlationId) := by
  refine (keeps_apart_commitPreference _ _ _).bind fun _ => keeps_apart ?_
  refine (keeps_countUsage basics_sameMemory _).bind fun _ => ?_
  refine (keeps_activity basics_sameMemory _ _ _ _ _).bind fun _ => ?_
  exact keeps_answer basics_sameMemory _ _ _ _ _

/-- The memory after an update of a state: as the update sets it, or as it was. -/
theorem post_setState (update : MemoryStateUpdate) (s : ServiceState) :
    Post (query W .setMemoryState (onMemory (setMemoryState update.memoryId update.pinned
      update.disabled update.priorityPermille))) s fun _ s' =>
      (update.priorityPermille.all (fun value => decide (value ≤ 1000)) = true ∧
        W.fails .setMemoryState (s.calls .setMemoryState) = false →
        s'.data.database.memory = stated update s.data.database.memory) ∧
      (¬ (update.priorityPermille.all (fun value => decide (value ≤ 1000)) = true ∧
        W.fails .setMemoryState (s.calls .setMemoryState) = false) → SameMemory s s') := by
  rw [post_query]
  constructor
  · intro hfails
    refine ⟨fun h => ?_, fun _ => rfl⟩
    rw [hfails] at h
    cases h.2
  · intro hfails
    rw [post_onMemory]
    refine post_setMemoryState update _ _ (fun hvalid changed => ?_) fun hinvalid e => ?_
    · exact ⟨fun _ => rfl, fun h => absurd ⟨hvalid, hfails⟩ h⟩
    · refine ⟨fun h => ?_, fun _ => rfl⟩
      rw [hinvalid] at h
      cases h.1

/-- An update that reclaims no key keeps them apart. -/
theorem safe_stated {update : MemoryStateUpdate} {t : MemoryTables} (hfree : ¬ Reclaims t update) :
    Safe t (stated update t) := fun ht =>
  ⟨sound_stated update ht, fun hone => (oneEach_stated_iff update ht hone).mpr hfree⟩

/-- Disabling an item keeps the keys apart. -/
theorem keeps_apart_forgetPreference (key : String) (session : ChatSession)
    (userMessage : ChatMessage) (correlationId : String) :
    Keeps Apart (forgetPreference W key session userMessage correlationId) := by
  have hdisabled : ∀ id, Keeps Apart
      (query W .setMemoryState (onMemory (setMemoryState id none (some true) none))) := by
    intro id s
    obtain ⟨hset, hkept⟩ := post_setState (W := W) ⟨id, none, some true, none⟩ s
    by_cases hdone : W.fails .setMemoryState (s.calls .setMemoryState) = false
    · unfold Apart
      rw [hset ⟨rfl, hdone⟩]
      refine safe_stated ?_
      rintro ⟨henable, -⟩
      cases henable
    · exact apart_of_sameMemory _ _ (hkept fun h => hdone h.2)
  refine (keeps_apart (keeps_read basics_sameMemory rfl _)).bind fun existing => ?_
  refine Keeps.bind ?_ fun content => ?_
  · cases existing with
    | none => exact keeps_pure _
    | some found =>
        refine (hdisabled _).bind fun _ => ?_
        exact (keeps_apart (keeps_activity basics_sameMemory _ _ _ _ _)).bind fun _ =>
          keeps_pure _
  · refine (keeps_apart (keeps_countUsage basics_sameMemory _)).bind fun _ => ?_
    exact keeps_apart (keeps_answer basics_sameMemory _ _ _ _ _)

/-- A restored value has the key of its item, for every value of the item has. -/
theorem keeps_apart_restoreMemoryRevision (memoryId : MemoryId) (revisionId : MemoryRevisionId) :
    Keeps Apart (restoreMemoryRevision W memoryId revisionId) := by
  refine (keeps_apart (keeps_read basics_sameMemory rfl _)).bind fun head => ?_
  refine (keeps_orThrow _ _).bind fun stored => ?_
  intro s
  refine post_bind_beside rfl (post_read_memory rfl _ s) fun found s₁ hfound hs₁ => ?_
  refine post_bind_beside hs₁ (Q := fun source => found = some source) ?_
    fun source s₂ hsource hs₂ => ?_
  · exact Post.and ((returns_orThrow _ _).mpr fun _ h => h) ((keeps_orThrow _ _).post s₁)
  refine post_bind_same hs₂ (keeps_now basics_sameMemory) fun timestamp s₃ hs₃ => ?_
  refine post_bind_same hs₃ (keeps_generate basics_sameMemory _) fun evidenceId s₄ hs₄ => ?_
  refine post_bind_same hs₄ (keeps_generate basics_sameMemory _) fun id s₅ hs₅ => ?_
  refine (post_persist _ hs₅ fun t' hpersisted => ?_).bind (fun _ _ h => h) fun _ _ h => h
  refine safe_revised hpersisted (Option.some_ne_none _) fun _ name hname => ?_
  have hread := Except.ok.inj hfound
  rw [hsource] at hread
  obtain ⟨row, hrow, rfl⟩ := Option.map_eq_some_iff.mp hread
  have howner := List.find?_some hrow
  rw [Bool.and_eq_true, beq_iff_eq, beq_iff_eq] at howner
  obtain ⟨value, hvalue⟩ := hname row (List.mem_of_find?_eq_some hrow)
  rw [← hpersisted.owner]
  exact ⟨value, hvalue.trans (by rw [howner.2]; rfl)⟩

theorem keeps_apart_handleLocalIntent (session : ChatSession) (userMessage : ChatMessage)
    (correlationId : String) (intent : ChatParser.LocalIntent) :
    Keeps Apart (handleLocalIntent W session userMessage correlationId intent) := by
  cases intent with
  | openApp displayName entityId =>
      exact keeps_apart (keeps_openApp (requests_sameMemory none) _ _ _ _ _)
  | rememberPreference key value => exact keeps_apart_rememberPreference _ _ _ _ _
  | forgetPreference key => exact keeps_apart_forgetPreference _ _ _ _
  | contextualOpenApp =>
      exact keeps_apart (keeps_contextualOpenApp (requests_sameMemory none) _ _ _)
  | correctOpenApp rejected accepted =>
      exact keeps_apart (keeps_correctOpenApp (requests_sameMemory none) _ _ _ _ _)

/-- So does every chat. -/
theorem keeps_apart_chat (request : ChatRequest) (correlationId : String) :
    Keeps Apart (chat W request correlationId) := by
  rw [chat_eq]
  refine (keeps_apart (keeps_sameMemory_receive request correlationId)).bind fun received => ?_
  obtain ⟨session, userMessage, resolved⟩ := received
  cases resolved with
  | some intent => exact keeps_apart_handleLocalIntent _ _ _ _
  | none => exact keeps_apart (keeps_sameMemory_respond _ _ _ _)

end

/-! ## Runs -/

section

variable (W : World)

/-- The update is carried out. -/
def Applies (s : ServiceState) (update : MemoryStateUpdate) : Prop :=
  update.priorityPermille.all (fun value => decide (value ≤ 1000)) = true ∧
    W.fails .setMemoryState (s.calls .setMemoryState) = false

/-- The request enables an item whose key another enabled item has. -/
def Clashes (s : ServiceState) : Input → Prop
  | .request envelope => ∃ update, envelope.request = .updateMemoryState update ∧
      Applies W s update ∧ Reclaims s.data.database.memory update
  | .restart _ _ _ => False

end

/-- The keys stay apart, except in this case. -/
def ApartUnless (clash : Prop) (s s' : ServiceState) : Prop :=
  Sound s.data.database.memory → Sound s'.data.database.memory ∧
    (OneEach s.data.database.memory → (OneEach s'.data.database.memory ↔ ¬ clash))

theorem Apart.unless {clash : Prop} {s s' : ServiceState} (h : Apart s s') (hclash : ¬ clash) :
    ApartUnless clash s s' := fun hs =>
  ⟨(h hs).1, fun hone => iff_of_true ((h hs).2 hone) hclash⟩

section

variable {W : World}

/-- An update of a state keeps the keys apart exactly if it reclaims none. -/
theorem post_updateMemoryState (update : MemoryStateUpdate) (s : ServiceState) :
    Post (updateMemoryState W update) s fun _ s' =>
      ApartUnless (Applies W s update ∧ Reclaims s.data.database.memory update) s s' := by
  have hset : ∀ s', (Applies W s update →
      s'.data.database.memory = stated update s.data.database.memory) →
      (¬ Applies W s update → SameMemory s s') →
      ApartUnless (Applies W s update ∧ Reclaims s.data.database.memory update) s s' := by
    intro s' hdone hkept
    by_cases happlies : Applies W s update
    · intro hs
      rw [hdone happlies, and_iff_right happlies]
      exact ⟨sound_stated update hs, oneEach_stated_iff update hs⟩
    · exact (apart_of_sameMemory s s' (hkept happlies)).unless fun h => happlies h.1
  exact (post_setState update s).bind (fun _ s' h => hset s' h.1 h.2) fun _ s' h => hset s' h.1 h.2

/-- Requests on the memory, updates of its states apart. -/
theorem keeps_apart_handle (envelope : RequestEnvelope)
    (h : ∀ update, envelope.request ≠ .updateMemoryState update) :
    Keeps Apart (handle W envelope) := by
  obtain ⟨requestId, request⟩ := envelope
  by_cases hwrites : WritesMemory request
  · cases request with
    | chat request => exact keeps_apart_chat request requestId
    | restoreMemoryRevision memoryId revisionId =>
        exact keeps_apart_restoreMemoryRevision memoryId revisionId
    | updateMemoryState update => exact absurd rfl (h update)
    | _ => exact hwrites.elim
  · exact keeps_apart (keeps_sameMemory_handle ⟨requestId, request⟩ hwrites)

/-- Every input keeps the preferences apart, unless it reclaims a key. -/
theorem step_apartUnless (s : ServiceState) (input : Input) :
    ApartUnless (Clashes W s input) s (step W s input) := by
  cases input with
  | restart regular registry policy =>
      have hrestart := keeps_restart (starting_sameMemory (W := W)) regular registry policy
      exact Apart.unless (keeps_apart hrestart s) id
  | request envelope =>
      by_cases hupdate : ∃ update, envelope.request = .updateMemoryState update
      · obtain ⟨requestId, request⟩ := envelope
        obtain ⟨update, rfl⟩ := hupdate
        intro hs
        obtain ⟨hsound, hone⟩ := post_updateMemoryState (W := W) update s hs
        refine ⟨hsound, fun h => (hone h).trans (not_congr ?_)⟩
        constructor
        · intro hclash
          exact ⟨update, rfl, hclash⟩
        · rintro ⟨_, ⟨⟩, hclash⟩
          exact hclash
      · -- Only an update of a state can clash.
        refine Apart.unless (keeps_apart_handle envelope (not_exists.mp hupdate) s) ?_
        rintro ⟨update, heq, -⟩
        exact hupdate ⟨update, heq⟩

end

theorem sound_empty : Sound .empty :=
  ⟨consistent_empty, fun _ => "", by simp [Named, MemoryTables.empty]⟩

/-- Whatever is requested, in every state of a run at most one enabled item has a preference of a
key, and the lookup of the key has one answer, if and only if no request of the run enables an item
whose key another enabled item has. -/
theorem one_preference_iff (W : World) (registry : CapabilityRegistry) (policy : PolicyEngine)
    (inputs : List Input) :
    (∀ before later, inputs = before ++ later →
        Unambiguous (after W registry policy before).data.database.memory) ↔
      Along (step W) (fun s input => ¬ Clashes W s input) (initial W registry policy) inputs := by
  simp only [unambiguous_iff]
  have hinitial : (initial W registry policy).data.database.memory = .empty :=
    keeps_fromParts starting_sameMemory registry policy (blank W registry policy)
  refine holds_throughout_iff (I := fun s : ServiceState => OneEach s.data.database.memory)
    (J := fun s => Sound s.data.database.memory) (fun s input hs => ?_) (fun s input hs hone => ?_)
    ?_ ?_ inputs
  · exact (step_apartUnless s input hs).1
  · exact (step_apartUnless s input hs).2 hone
  · rw [hinitial]
    exact sound_empty
  · rw [hinitial]
    intro key value value' row hrow
    cases hrow

/-! ## A key that is remembered, forgotten and remembered again -/

instance (t : MemoryTables) (key value : String) (row : MemoryItemRow) :
    Decidable (Prefers t key value row) :=
  decidable_of_iff (row.disabled = false ∧
    (row.join t).any (fun joined => joined.2.value == .preference key value) = true) <| by
      simp [Prefers, Option.any_eq_true]

/-- The item of the first request. -/
def firstItem : MemoryId := .generate .memory (aliasWorld.stamp 9)

/-- The last request enables an item whose key has been given to another one. -/
def reclaimed : List Input :=
  [.request ⟨"request:1", .chat (rememberTelegram "tg")⟩,
    .request ⟨"request:2", .chat (forgetKey "tg")⟩,
    .request ⟨"request:3", .chat (rememberTelegram "tg")⟩,
    .request ⟨"request:4", .updateMemoryState ⟨firstItem, none, some false, none⟩⟩]

/-- Two enabled items have one key in the end. -/
theorem key_reclaimed :
    ¬ ∀ (W : World) (registry : CapabilityRegistry) (policy : PolicyEngine) (inputs : List Input),
      Unambiguous (after W registry policy inputs).data.database.memory := by
  intro h
  have htwo : ∃ row ∈ (after aliasWorld .launching .new reclaimed).data.database.memory.items,
      ∃ row' ∈ (after aliasWorld .launching .new reclaimed).data.database.memory.items,
        Prefers (after aliasWorld .launching .new reclaimed).data.database.memory "tg" "Telegram"
          row ∧
        Prefers (after aliasWorld .launching .new reclaimed).data.database.memory "tg" "Telegram"
          row' ∧ row.id ≠ row'.id := by decide +kernel
  obtain ⟨row, hrow, row', hrow', hprefers, hprefers', hne⟩ := htwo
  have hone := (h aliasWorld .launching .new reclaimed).1
  exact hne (congrArg _ (hone "tg" "Telegram" "Telegram" row hrow row' hrow' hprefers hprefers'))

end Halquen.Service.Preferences
