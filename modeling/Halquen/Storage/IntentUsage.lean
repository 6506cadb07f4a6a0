import Halquen.Library.Ranking
import Halquen.Storage.Interaction

/-!
# The compacted log of usage events

Every recorded usage event deletes the events past the retention, in every lane, and the events of
its own lane beyond the newest 512. A query looks back no further than the retention and for no
more than 512 events of one lane, so it cannot tell the table from the list of all events that were
ever recorded (`usage_log_refines`).

The invariant that carries this over the whole history says why an event is gone (`Compacted`): it
is older than the retention allows after the last event, or 512 events of its lane are newer.
-/

set_option autoImplicit false

namespace Halquen.Storage.IntentUsage

open Halquen.Domain.Ids Halquen.Domain.Interaction
open Halquen.Library.Action Halquen.Library.Action.Act Halquen.Library.Sql
open Halquen.Library.Ranking Halquen.Storage.Interaction
open Halquen.Storage.Grants (StorageError)

/-- Order of the events in a listing: by time, then by identifier. -/
def usageKey (event : IntentUsageEvent) : Int ×ₗ String :=
  toLex (event.createdAtMs, event.id.asStr)

/-- The event belongs to the lane of an intent and a context class. -/
def inLane (intent contextClass : String) (event : IntentUsageEvent) : Bool :=
  event.intent == intent && event.contextClass == contextClass

/-- What a query for a lane since some time asks of an event. -/
def asked (intent contextClass : String) (sinceMs : Int) (event : IntentUsageEvent) : Bool :=
  event.intent == intent && event.contextClass == contextClass
    && decide (sinceMs ≤ event.createdAtMs)

/-- Oldest time that the recording of an event leaves in the table. -/
def cutoff (event : IntentUsageEvent) : Int := saturatingSub event.createdAtMs defaultRetentionMs

/-- Later events keep fewer of the old ones. -/
theorem cutoff_mono {a b : IntentUsageEvent} (h : a.createdAtMs ≤ b.createdAtMs) :
    cutoff a ≤ cutoff b := by
  unfold cutoff saturatingSub
  omega

/-- Rows that are left of `rows` when `event` is among them as the one just inserted. -/
def compact (event : IntentUsageEvent) (rows : List IntentUsageEvent) : List IntentUsageEvent :=
  let kept := rows.filter fun row => decide (cutoff event ≤ row.createdAtMs)
  let surplus := (newestFirst (kept.filter (inLane event.intent event.contextClass))).drop
    defaultMaxEvents
  kept.filter fun row => !surplus.any fun old => old.id == row.id

/-- What a recording that succeeds does. -/
theorem recordIntentUsage_spec (event : IntentUsageEvent) (t : InteractionTables) :
    Returns (recordIntentUsage event) t fun _ t' =>
      t' = { t with intentUsageEvents := compact event (t.intentUsageEvents ++ [event]) } := by
  unfold recordIntentUsage
  simp only [returns_bind, returns_require, returns_transaction, returns_gets, returns_orThrow,
    returns_modify, insertRow_eq_some_iff]
  rintro - - rows ⟨-, rfl⟩
  rfl

/-! ## The invariant -/

section Keys

variable {events : List IntentUsageEvent}

theorem nodup_usageKey (h : (events.map IntentUsageEvent.id).Nodup) :
    (events.map usageKey).Nodup := by
  have htexts : (events.map fun event => event.id.asStr).Nodup := by
    have hinj : Function.Injective (fun id : BehaviourEventId => id.asStr) :=
      fun _ _ heq => TypedId.ext heq
    have hmap := h.map hinj
    rwa [List.map_map] at hmap
  have hsnd : ((events.map usageKey).map fun key => (ofLex key).2).Nodup := by
    rw [List.map_map]
    exact htexts
  exact hsnd.of_map

end Keys

/-- Events of the lane of `event` that come before it in a listing. -/
def newerInLane (events : List IntentUsageEvent) (event : IntentUsageEvent) : Nat :=
  events.countP fun other =>
    inLane event.intent event.contextClass other && decide (usageKey event < usageKey other)

/-- The rows are what compaction leaves of the events recorded so far. -/
structure Compacted (events rows : List IntentUsageEvent) : Prop where
  sublist : rows.Sublist events
  distinct : (events.map IntentUsageEvent.id).Nodup
  /-- An event that is gone was too old, or outranked in its lane. -/
  gone : ∀ event ∈ events, event ∉ rows →
    (∃ last ∈ events.getLast?, event.createdAtMs < cutoff last) ∨
      defaultMaxEvents ≤ newerInLane events event

/-- More events mean more that are newer. -/
theorem newerInLane_le {events events' : List IntentUsageEvent} (h : events.Sublist events')
    (event : IntentUsageEvent) : newerInLane events event ≤ newerInLane events' event :=
  h.countP_le

/-- A row of the surplus is outranked by as many rows of its lane as are kept. -/
theorem newerInLane_of_surplus {kept : List IntentUsageEvent} {event row : IntentUsageEvent}
    (hdistinct : (kept.map IntentUsageEvent.id).Nodup)
    (h : row ∈ (newestFirst (kept.filter (inLane event.intent event.contextClass))).drop
      defaultMaxEvents) :
    defaultMaxEvents ≤ newerInLane kept row := by
  have hlane : ((kept.filter (inLane event.intent event.contextClass)).map usageKey).Nodup :=
    (nodup_usageKey hdistinct).sublist (List.filter_sublist.map usageKey)
  have hmem : row ∈ kept.filter (inLane event.intent event.contextClass) :=
    (mem_orderByDesc usageKey _ row).mp (List.mem_of_mem_drop h)
  have hsame := (List.mem_filter.mp hmem).2
  -- What is dropped is not among the first 512.
  have hnot : row ∉ (orderByDesc usageKey
      (kept.filter (inLane event.intent event.contextClass))).take defaultMaxEvents := by
    intro htake
    have hnodup : (orderByDesc usageKey
        (kept.filter (inLane event.intent event.contextClass))).Nodup :=
      (perm_orderByDesc usageKey _).nodup_iff.mpr hlane.of_map
    rw [← List.take_append_drop defaultMaxEvents (orderByDesc usageKey _)] at hnodup
    exact (List.nodup_append.mp hnodup).2.2 row htake row h rfl
  rw [mem_take_orderByDesc_iff usageKey hlane hmem, Nat.not_lt, List.countP_filter] at hnot
  apply hnot.trans
  apply List.countP_mono_left
  intro other _ hother
  simp only [inLane, Bool.and_eq_true, beq_iff_eq, decide_eq_true_eq] at hother hsame ⊢
  obtain ⟨hnewer, hintent, hclass⟩ := hother
  exact ⟨⟨hintent.trans hsame.1.symm, hclass.trans hsame.2.symm⟩, hnewer⟩

/-- Recording an event that is new and not older than the last one keeps the invariant. -/
theorem Compacted.record {events rows : List IntentUsageEvent} (h : Compacted events rows)
    (event : IntentUsageEvent) (hnew : ∀ e ∈ events, e.id ≠ event.id)
    (htime : ∀ e ∈ events, e.createdAtMs ≤ event.createdAtMs) :
    Compacted (events ++ [event]) (compact event (rows ++ [event])) := by
  have hdistinct : ((events ++ [event]).map IntentUsageEvent.id).Nodup := by
    rw [List.map_append, List.nodup_append]
    refine ⟨h.distinct, by simp, ?_⟩
    rintro id hid other hother rfl
    obtain ⟨e, he, rfl⟩ := List.mem_map.mp hid
    exact hnew e he (by simpa using hother)
  -- What is kept of the table and the new event is a part of all events.
  have hkept : ((rows ++ [event]).filter fun row => decide (cutoff event ≤ row.createdAtMs)).Sublist
      (events ++ [event]) :=
    List.filter_sublist.trans (h.sublist.append (List.Sublist.refl [event]))
  refine ⟨List.filter_sublist.trans hkept, hdistinct, ?_⟩
  intro e he hgone
  have hlast : event ∈ (events ++ [event]).getLast? := by simp
  by_cases hrow : e ∈ rows ++ [event]
  · -- The row was deleted just now: for its age, or for its rank.
    by_cases hage : cutoff event ≤ e.createdAtMs
    · right
      have hmem : e ∈ (rows ++ [event]).filter fun row =>
          decide (cutoff event ≤ row.createdAtMs) := by
        rw [List.mem_filter]
        exact ⟨hrow, by simpa using hage⟩
      have hsurplus : ∃ old ∈ (newestFirst (((rows ++ [event]).filter fun row =>
          decide (cutoff event ≤ row.createdAtMs)).filter
            (inLane event.intent event.contextClass))).drop defaultMaxEvents, old.id = e.id := by
        by_contra hnone
        apply hgone
        unfold compact
        rw [List.mem_filter]
        refine ⟨hmem, ?_⟩
        simpa using hnone
      obtain ⟨old, hold, hid⟩ := hsurplus
      have holdMem : old ∈ (rows ++ [event]).filter fun row =>
          decide (cutoff event ≤ row.createdAtMs) :=
        List.mem_of_mem_filter ((mem_orderByDesc usageKey _ old).mp (List.mem_of_mem_drop hold))
      have hsame : old = e := by
        apply List.inj_on_of_nodup_map hdistinct (hkept.subset holdMem) he hid
      rw [hsame] at hold
      have hrank := newerInLane_of_surplus (hdistinct.sublist (hkept.map _)) hold
      exact hrank.trans (newerInLane_le hkept e)
    · left
      exact ⟨event, hlast, by omega⟩
  · -- The event was gone before.
    rw [List.mem_append, not_or] at hrow
    have hold : e ∈ events := by
      rcases List.mem_append.mp he with hold | hnewest
      · exact hold
      · exact absurd hnewest hrow.2
    rcases h.gone e hold hrow.1 with ⟨last, hlastOld, hage⟩ | hrank
    · left
      have hlastMem : last ∈ events := List.mem_of_getLast? hlastOld
      exact ⟨event, hlast, lt_of_lt_of_le hage (cutoff_mono (htime last hlastMem))⟩
    · right
      exact hrank.trans (newerInLane_le (List.sublist_append_left events [event]) e)

/-- The lane of the event that was just recorded holds at most 512 rows. -/
theorem length_lane_compact_le (event : IntentUsageEvent) (rows : List IntentUsageEvent) :
    ((compact event rows).filter (inLane event.intent event.contextClass)).length ≤
      defaultMaxEvents := by
  unfold compact
  dsimp only
  generalize rows.filter (fun row => decide (cutoff event ≤ row.createdAtMs)) = kept
  generalize hlisted : newestFirst (kept.filter (inLane event.intent event.contextClass)) = listed
  have hperm : listed.Perm (kept.filter (inLane event.intent event.contextClass)) := by
    rw [← hlisted]
    exact perm_orderByDesc usageKey _
  rw [List.filter_comm, ← (hperm.filter _).length_eq]
  -- Of the ordered lane only the first 512 rows are outside the surplus.
  have hnone : (listed.drop defaultMaxEvents).filter (fun row =>
      !(listed.drop defaultMaxEvents).any fun old => old.id == row.id) = [] := by
    rw [List.filter_eq_nil_iff]
    intro row hrow
    simp only [Bool.not_eq_true', Bool.not_eq_false, List.any_eq_true, beq_iff_eq]
    exact ⟨row, hrow, rfl⟩
  conv_lhs => rw [← List.take_append_drop defaultMaxEvents listed, List.filter_append]
  rw [List.take_append_drop, hnone, List.append_nil]
  calc ((listed.take defaultMaxEvents).filter _).length
      ≤ (listed.take defaultMaxEvents).length := List.length_filter_le _ _
    _ ≤ defaultMaxEvents := List.length_take_le _ _

/-! ## The whole history -/

/-- Tables after these events were recorded, one call each, from an empty log. Every call is
accepted, under a new identifier and not before the last one. -/
inductive Recorded : List IntentUsageEvent → InteractionTables → Prop where
  | start (t : InteractionTables) (hempty : t.intentUsageEvents = []) : Recorded [] t
  | record {events : List IntentUsageEvent} {t : InteractionTables} (h : Recorded events t)
      (event : IntentUsageEvent) (hnew : ∀ e ∈ events, e.id ≠ event.id)
      (htime : ∀ e ∈ events, e.createdAtMs ≤ event.createdAtMs)
      (haccepted : (recordIntentUsage event t).1 = .ok ()) :
      Recorded (events ++ [event]) (recordIntentUsage event t).2

/-- Every history keeps the invariant, and bounds the lane that was written last. -/
theorem compacted_of_recorded {events : List IntentUsageEvent} {t : InteractionTables}
    (h : Recorded events t) :
    Compacted events t.intentUsageEvents ∧
      ∀ last ∈ events.getLast?,
        (t.intentUsageEvents.filter (inLane last.intent last.contextClass)).length ≤
          defaultMaxEvents := by
  induction h with
  | start t hempty =>
      rw [hempty]
      exact ⟨⟨List.Sublist.refl [], by simp, by simp⟩, by simp⟩
  | @record events t _ event hnew htime haccepted ih =>
      have hspec := recordIntentUsage_spec event t () haccepted
      have hrows : (recordIntentUsage event t).2.intentUsageEvents =
          compact event (t.intentUsageEvents ++ [event]) := by rw [hspec]
      rw [hrows]
      refine ⟨ih.1.record event hnew htime, ?_⟩
      intro last hlast
      have hsame : last = event := by simpa using hlast.symm
      rw [hsame]
      exact length_lane_compact_le event _

/-- The compacted table answers a query over the retention as the list of all events does. -/
theorem Compacted.query {events rows : List IntentUsageEvent} (h : Compacted events rows)
    (intent contextClass : String) {sinceMs : Int} {limit : Nat} (hlimit : limit ≤ 512)
    (hsince : ∀ last ∈ events.getLast?, cutoff last ≤ sinceMs) :
    (newestFirst (rows.filter (asked intent contextClass sinceMs))).take limit =
      (newestFirst (events.filter (asked intent contextClass sinceMs))).take limit := by
  have hkeys : ((events.filter (asked intent contextClass sinceMs)).map usageKey).Nodup :=
    (nodup_usageKey h.distinct).sublist (List.filter_sublist.map usageKey)
  -- The table is what is left of the events, so a query of it is one of them.
  have hrows : rows = events.filter fun event => decide (event ∈ rows) := by
    have hsub := h.sublist.filter fun event => decide (event ∈ rows)
    rw [List.filter_eq_self.mpr (by simp)] at hsub
    apply hsub.eq_of_length_le
    have hnodup : events.Nodup := h.distinct.of_map
    apply (List.subperm_of_subset (hnodup.filter _) ?_).length_le
    intro event hevent
    simpa using (List.mem_filter.mp hevent).2
  have hfilter : rows.filter (asked intent contextClass sinceMs) =
      (events.filter (asked intent contextClass sinceMs)).filter
        fun event => decide (event ∈ rows) := by
    rw [List.filter_comm, ← hrows]
  rw [hfilter]
  apply take_orderByDesc_filter usageKey hkeys
  intro event hevent hgone
  obtain ⟨hmem, hasked⟩ := List.mem_filter.mp hevent
  have hgone' : event ∉ rows := by simpa using hgone
  simp only [asked, Bool.and_eq_true, beq_iff_eq, decide_eq_true_eq] at hasked
  rcases h.gone event hmem hgone' with ⟨last, hlast, hage⟩ | hrank
  · -- The query does not look back that far.
    have hcutoff := hsince last hlast
    omega
  -- The events of the lane that are newer than this one fill the answer.
  · apply hlimit.trans (hrank.trans _)
    rw [List.countP_filter]
    apply List.countP_mono_left
    intro other _ hother
    simp only [inLane, asked, Bool.and_eq_true, beq_iff_eq, decide_eq_true_eq] at hother ⊢
    obtain ⟨⟨hintent, hclass⟩, hnewer⟩ := hother
    have htime : event.createdAtMs ≤ other.createdAtMs := by
      rcases (Prod.Lex.lt_iff).mp hnewer with hlt | ⟨heq, -⟩
      · exact le_of_lt hlt
      · exact le_of_eq heq
    exact ⟨hnewer, ⟨hintent.trans hasked.1.1, hclass.trans hasked.1.2⟩, hasked.2.trans htime⟩

/-- After any history of accepted events with distinct identifiers and times that do not decrease,
a query that looks back no further than the retention and asks for at most 512 events returns what
it would return over all the events recorded, and the lane that was written last holds at most 512
rows. -/
theorem usage_log_refines {events : List IntentUsageEvent} {t : InteractionTables}
    (h : Recorded events t) :
    (∀ (intent contextClass : String) (sinceMs : Int) (limit : Nat), limit ≤ 512 →
      minTime ≤ sinceMs →
      (∀ last ∈ events.getLast?, last.createdAtMs - defaultRetentionMs ≤ sinceMs) →
      recentIntentUsage t intent contextClass sinceMs limit =
        (newestFirst (events.filter fun event => event.intent == intent
          && event.contextClass == contextClass
          && decide (sinceMs ≤ event.createdAtMs))).take limit) ∧
    ∀ last ∈ events.getLast?,
      (t.intentUsageEvents.filter fun row => row.intent == last.intent
        && row.contextClass == last.contextClass).length ≤ 512 := by
  obtain ⟨hcompacted, hbound⟩ := compacted_of_recorded h
  refine ⟨?_, hbound⟩
  intro intent contextClass sinceMs limit hlimit hrange hsince
  unfold recentIntentUsage
  rw [Nat.min_eq_left hlimit]
  apply hcompacted.query intent contextClass hlimit
  intro last hlast
  have hback := hsince last hlast
  unfold cutoff saturatingSub
  omega

/-- Use of an application at a time. -/
def launchedAt (id : BehaviourEventId) (createdAtMs : Int) : IntentUsageEvent where
  id := id
  intent := "open_application"
  entityId := ⟨"app:telegram", validate_telegram⟩
  outcome := .success
  contextClass := "application"
  createdAtMs := createdAtMs

/-- Two uses at the same time. -/
theorem recorded_twice :
    ∃ t, Recorded [launchedAt ⟨"behaviour:1", by decide⟩ 5, launchedAt ⟨"behaviour:2", by decide⟩ 5]
      t := by
  have hfirst := Recorded.record (.start .empty rfl) (launchedAt ⟨"behaviour:1", by decide⟩ 5)
    (by simp) (by simp) (by decide)
  have hsecond := hfirst.record (launchedAt ⟨"behaviour:2", by decide⟩ 5) (by decide)
    (by decide) (by decide)
  exact ⟨_, hsecond⟩

/-- Two events of one application. -/
theorem usage_log_refines_twice :
    ∃ t, recentIntentUsage t "open_application" "application" 0 1 =
      [launchedAt ⟨"behaviour:2", by decide⟩ 5] := by
  obtain ⟨t, h⟩ := recorded_twice
  refine ⟨t, ?_⟩
  rw [(usage_log_refines h).1 "open_application" "application" 0 1 (by decide) (by decide)
    (by decide)]
  decide

end Halquen.Storage.IntentUsage
