import Halquen.Domain.Ids
import Halquen.Library.Recency

/-!
# Working memory

A small store of values under keys, kept in the order in which the keys were last set. A key that is
set again moves to the back, and where there is no room the key in front is dropped. After any
sequence of settings the store holds the most recently set keys with their last values, as many as
its capacity allows (`run_recent`).
-/

set_option autoImplicit false

namespace Halquen.Memory.Working

open Halquen.Domain.Ids Halquen.Library.Recency

/-- What working memory holds under a key. -/
inductive WorkingValue where
  | entityReference (entityId : EntityId)
  | textLabel (value : String)
  deriving DecidableEq

/-- The queue has distinct keys and is never longer than the capacity. -/
structure WorkingMemory where
  capacity : Nat
  values : List (String × WorkingValue)
  positive : 0 < capacity
  bounded : values.length ≤ capacity
  distinct : (keys values).Nodup

namespace WorkingMemory

/-- An empty store of the capacity, which is at least one. -/
def new (capacity : Nat) : WorkingMemory where
  capacity := max capacity 1
  values := []
  positive := by omega
  bounded := Nat.zero_le _
  distinct := List.nodup_nil

/-- The entry of the key is taken out of the queue. -/
def remove (key : String) (values : List (String × WorkingValue)) :
    List (String × WorkingValue) :=
  match values.findIdx? fun entry => entry.1 == key with
  | some position => values.eraseIdx position
  | none => values

/-- A full queue loses its first entry. -/
def makeRoom (capacity : Nat) (values : List (String × WorkingValue)) :
    List (String × WorkingValue) :=
  if values.length = capacity then values.tail else values

theorem remove_eq_forget (key : String) {values : List (String × WorkingValue)}
    (hdistinct : (keys values).Nodup) : remove key values = forget key values := by
  rw [← eraseP_eq_forget hdistinct, List.eraseP_eq_eraseIdx, remove]
  cases values.findIdx? fun entry => entry.1 == key <;> rfl

theorem makeRoom_sublist (capacity : Nat) (values : List (String × WorkingValue)) :
    (makeRoom capacity values).Sublist values := by
  unfold makeRoom
  split
  · exact List.tail_sublist values
  · exact List.Sublist.refl values

theorem length_makeRoom_lt {capacity : Nat} {values : List (String × WorkingValue)}
    (hpositive : 0 < capacity) (hbounded : values.length ≤ capacity) :
    (makeRoom capacity values).length < capacity := by
  unfold makeRoom
  split
  · rw [List.length_tail]
    omega
  · omega

/-- What the queue is after a setting. -/
def next (m : WorkingMemory) (key : String) (value : WorkingValue) :
    List (String × WorkingValue) :=
  makeRoom m.capacity (remove key m.values) ++ [(key, value)]

theorem next_eq (m : WorkingMemory) (key : String) (value : WorkingValue) :
    m.next key value = makeRoom m.capacity (forget key m.values) ++ [(key, value)] := by
  rw [next, remove_eq_forget key m.distinct]

theorem length_next_le (m : WorkingMemory) (key : String) (value : WorkingValue) :
    (m.next key value).length ≤ m.capacity := by
  have hbounded : (forget key m.values).length ≤ m.capacity :=
    (List.length_filter_le _ _).trans m.bounded
  rw [next_eq, List.length_append]
  exact length_makeRoom_lt m.positive hbounded

theorem nodup_next (m : WorkingMemory) (key : String) (value : WorkingValue) :
    (keys (m.next key value)).Nodup := by
  have hroom := makeRoom_sublist m.capacity (forget key m.values)
  have hother := (hroom.map Prod.fst).subset
  rw [next_eq, keys, List.map_append]
  apply List.Nodup.append
  · exact m.distinct.sublist ((hroom.trans List.filter_sublist).map _)
  · exact List.nodup_singleton _
  · rintro stored hstored hsame
    obtain rfl : stored = key := List.mem_singleton.mp hsame
    exact notMem_keys_forget stored m.values (hother hstored)

/-- `WorkingMemory::set`: the key moves to the end, and the oldest entry goes where there is no
room. -/
def set (m : WorkingMemory) (key : String) (value : WorkingValue) : WorkingMemory where
  capacity := m.capacity
  values := m.next key value
  positive := m.positive
  bounded := m.length_next_le key value
  distinct := m.nodup_next key value

/-- `WorkingMemory::get`. -/
def get (m : WorkingMemory) (key : String) : Option WorkingValue :=
  (m.values.find? fun entry => entry.1 == key).map Prod.snd

/-- `WorkingMemory::len`. -/
def len (m : WorkingMemory) : Nat := m.values.length

/-- `WorkingMemory::is_empty`. -/
def isEmpty (m : WorkingMemory) : Bool := m.values.isEmpty

/-- The store after a sequence of settings. -/
def run (capacity : Nat) (history : List (String × WorkingValue)) : WorkingMemory :=
  history.foldl (fun m entry => m.set entry.1 entry.2) (new capacity)

theorem run_append_singleton (capacity : Nat) (history : List (String × WorkingValue))
    (entry : String × WorkingValue) :
    run capacity (history ++ [entry]) = (run capacity history).set entry.1 entry.2 := by
  rw [run, List.foldl_append]
  rfl

theorem capacity_run (capacity : Nat) (history : List (String × WorkingValue)) :
    (run capacity history).capacity = max capacity 1 := by
  induction history using List.reverseRecOn with
  | nil => rfl
  | append_singleton history entry ih => rw [run_append_singleton, ← ih]; rfl

/-- The queue is what a store of this size remembers of the history. -/
theorem run_values (capacity : Nat) (history : List (String × WorkingValue)) :
    (run capacity history).values = (lastSet history).rtake (max capacity 1) := by
  induction history using List.reverseRecOn with
  | nil =>
      rw [lastSet, List.rtake_nil]
      rfl
  | append_singleton history entry ih =>
      have hstep : (run capacity (history ++ [entry])).values =
          (run capacity history).next entry.1 entry.2 := by
        rw [run_append_singleton]
        rfl
      rw [hstep, next_eq, capacity_run, ih, rtake_lastSet_append (by omega)]
      rfl

/-- The stored entries are found under their keys, and nothing else is. -/
theorem get_eq_some_iff (m : WorkingMemory) (key : String) (value : WorkingValue) :
    m.get key = some value ↔ (key, value) ∈ m.values := by
  unfold get
  rw [Option.map_eq_some_iff]
  constructor
  · rintro ⟨entry, hfind, rfl⟩
    have hkey := List.find?_some hfind
    rw [beq_iff_eq] at hkey
    exact hkey ▸ List.mem_of_find?_eq_some hfind
  · intro hin
    cases hfind : m.values.find? fun entry => entry.1 == key with
    | none =>
        exact absurd (List.find?_eq_none.mp hfind (key, value) hin) (by simp)
    | some entry =>
        have hkey := List.find?_some hfind
        rw [beq_iff_eq] at hkey
        have hsame : entry = (key, value) :=
          List.inj_on_of_nodup_map m.distinct (List.mem_of_find?_eq_some hfind) hin hkey
        exact ⟨entry, rfl, by rw [hsame]⟩

/-- After any sequence of settings the store holds the most recently set keys, in the order of their
last settings, with the values that were set last. -/
theorem run_recent (capacity : Nat) (history : List (String × WorkingValue)) :
    let m := run capacity history
    (keys m.values).Nodup ∧ m.len ≤ max capacity 1 ∧
      keys m.values = (keys history).dedup.rtake (max capacity 1) ∧
      (∀ entry ∈ m.values, history.reverse.lookup entry.1 = some entry.2) ∧
      ∀ key, m.get key =
        if key ∈ keys m.values then history.reverse.lookup key else none := by
  have hlast : ∀ entry ∈ (run capacity history).values,
      history.reverse.lookup entry.1 = some entry.2 := by
    intro entry hentry
    rw [run_values] at hentry
    exact lookup_reverse_of_mem (List.mem_of_mem_drop hentry)
  refine ⟨(run capacity history).distinct, ?_, ?_, hlast, ?_⟩
  · rw [← capacity_run capacity history]
    exact (run capacity history).bounded
  · rw [run_values, ← keys_lastSet, keys, keys, List.rtake, List.rtake, List.map_drop,
      List.length_map]
  · intro key
    split
    · rename_i hkey
      obtain ⟨entry, hentry, rfl⟩ := List.mem_map.mp hkey
      rw [hlast entry hentry]
      exact (get_eq_some_iff _ _ _).mpr hentry
    · rename_i hkey
      apply Option.eq_none_iff_forall_ne_some.mpr
      intro value hvalue
      exact hkey (List.mem_map_of_mem ((get_eq_some_iff _ _ _).mp hvalue))

example : (run 2 [("first", .textLabel "1"), ("second", .textLabel "2"), ("first", .textLabel "3"),
    ("third", .textLabel "4")]).values =
      [("first", .textLabel "3"), ("third", .textLabel "4")] := by decide

end WorkingMemory

end Halquen.Memory.Working
