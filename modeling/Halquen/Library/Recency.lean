import Mathlib.Data.List.Dedup
import Mathlib.Data.List.DropRight

/-!
# Recently set keys

A history of settings of keys, and what a store of limited size remembers of it: the last settings
of the keys (`lastSet`), and of these the most recent ones. A store need not know the history to
keep up with it: a setting takes the place of the one before of the same key, or else of the oldest
one if the store is full (`rtake_lastSet_append`).
-/

set_option autoImplicit false

namespace Halquen.Library.Recency

variable {κ ν : Type} [DecidableEq κ]

/-- The keys of the entries, in their order. -/
def keys (entries : List (κ × ν)) : List κ := entries.map Prod.fst

/-- The last setting of each key, in the order of these settings. -/
def lastSet : List (κ × ν) → List (κ × ν)
  | [] => []
  | entry :: later => if entry.1 ∈ keys later then lastSet later else entry :: lastSet later

/-- The entries of other keys. -/
def forget (key : κ) (entries : List (κ × ν)) : List (κ × ν) :=
  entries.filter fun entry => entry.1 != key

/-- Every key occurs once, in the order of its last use. -/
theorem keys_lastSet (history : List (κ × ν)) : keys (lastSet history) = (keys history).dedup := by
  induction history with
  | nil => rfl
  | cons entry later ih =>
      have hkeys : keys (entry :: later) = entry.1 :: keys later := rfl
      rw [lastSet, hkeys]
      split
      · rename_i h
        rw [List.dedup_cons_of_mem h, ih]
      · rename_i h
        rw [List.dedup_cons_of_notMem h, ← ih]
        rfl

/-- No key occurs twice. -/
theorem nodup_keys_lastSet (history : List (κ × ν)) : (keys (lastSet history)).Nodup := by
  rw [keys_lastSet]
  exact List.nodup_dedup _

omit [DecidableEq κ] in
theorem lookup_eq_none [BEq κ] [LawfulBEq κ] {key : κ} {entries : List (κ × ν)}
    (h : key ∉ keys entries) : entries.lookup key = none := by
  apply List.lookup_eq_none_iff.mpr
  intro entry hentry
  rw [bne_iff_ne]
  rintro rfl
  exact h (List.mem_map_of_mem hentry)

/-- The last setting of a key is what is found first from behind. -/
theorem lookup_reverse_of_mem {history : List (κ × ν)} {entry : κ × ν}
    (h : entry ∈ lastSet history) : history.reverse.lookup entry.1 = some entry.2 := by
  induction history with
  | nil => cases h
  | cons first later ih =>
      rw [List.reverse_cons, List.lookup_append]
      rw [lastSet] at h
      split at h
      · rw [ih h, Option.some_or]
      · rename_i hfirst
        rcases List.mem_cons.mp h with rfl | hlater
        · have hnone : later.reverse.lookup entry.1 = none := by
            apply lookup_eq_none
            rwa [keys, List.map_reverse, List.mem_reverse]
          rw [hnone, Option.none_or]
          exact List.lookup_cons_self
        · rw [ih hlater, Option.some_or]

/-- A use moves its key to the end. -/
theorem lastSet_append_singleton (history : List (κ × ν)) (entry : κ × ν) :
    lastSet (history ++ [entry]) = forget entry.1 (lastSet history) ++ [entry] := by
  induction history with
  | nil => rfl
  | cons first later ih =>
      have hkeys : first.1 ∈ keys (later ++ [entry]) ↔
          first.1 ∈ keys later ∨ first.1 = entry.1 := by
        simp [keys]
      rw [List.cons_append, lastSet, lastSet]
      by_cases hlater : first.1 ∈ keys later
      · rw [if_pos (hkeys.mpr (.inl hlater)), if_pos hlater, ih]
      · rw [if_neg hlater]
        by_cases hentry : first.1 = entry.1
        · -- The setting before of the key is the one that is forgotten.
          rw [if_pos (hkeys.mpr (.inr hentry)), ih, forget, forget,
            List.filter_cons_of_neg (by simp [hentry])]
        · rw [if_neg (by simp [hkeys, hlater, hentry]), ih, forget, forget,
            List.filter_cons_of_pos (by simp [hentry]), List.cons_append]

/-- With distinct keys, the first entry of a key is the only one. -/
theorem eraseP_eq_forget {entries : List (κ × ν)} (hkeys : (keys entries).Nodup) (key : κ) :
    entries.eraseP (fun entry => entry.1 == key) = forget key entries := by
  induction entries with
  | nil => rfl
  | cons first rest ih =>
      obtain ⟨hfirst, hrest⟩ := List.nodup_cons.mp hkeys
      by_cases hkey : first.1 = key
      · rw [List.eraseP_cons_of_pos (by simpa using hkey), forget,
          List.filter_cons_of_neg (by simpa using hkey)]
        symm
        apply List.filter_eq_self.mpr
        intro entry hentry
        rw [bne_iff_ne]
        rintro rfl
        exact hfirst (hkey ▸ List.mem_map_of_mem hentry)
      · rw [List.eraseP_cons_of_neg (by simpa using hkey), ih hrest, forget, forget,
          List.filter_cons_of_pos (by simpa using hkey)]

/-- At most one entry is forgotten. -/
theorem length_le_length_forget {entries : List (κ × ν)} (hkeys : (keys entries).Nodup) (key : κ) :
    entries.length ≤ (forget key entries).length + 1 := by
  rw [← eraseP_eq_forget hkeys, List.length_eraseP]
  split <;> omega

theorem notMem_keys_forget (key : κ) (entries : List (κ × ν)) :
    key ∉ keys (forget key entries) := by
  intro hin
  obtain ⟨entry, hentry, rfl⟩ := List.mem_map.mp hin
  simpa using (List.mem_filter.mp hentry).2

omit [DecidableEq κ] in
/-- The last entries of a list are those of its end. -/
theorem rtake_append_of_le {α : Type} {front back : List α} {n : Nat} (h : n ≤ back.length) :
    (front ++ back).rtake n = back.rtake n := by
  rw [List.rtake, List.rtake, List.length_append, List.drop_append,
    List.drop_eq_nil_of_le (by omega), List.nil_append,
    show front.length + back.length - n - front.length = back.length - n by omega]

/-- What is remembered after one more setting, from what was remembered before it. -/
theorem rtake_lastSet_append {size : Nat} (hsize : 0 < size) (history : List (κ × ν))
    (entry : κ × ν) :
    (lastSet (history ++ [entry])).rtake size =
      (let kept := forget entry.1 ((lastSet history).rtake size)
       if kept.length = size then kept.tail else kept) ++ [entry] := by
  obtain ⟨n, rfl⟩ : ∃ n, size = n + 1 := ⟨size - 1, by omega⟩
  rw [lastSet_append_singleton, List.rtake_concat_succ]
  congr 1
  have hall := nodup_keys_lastSet history
  generalize lastSet history = entries at hall
  -- The entries that were not remembered make no difference to the last `n`.
  have hsplit : entries = entries.take (entries.length - (n + 1)) ++ entries.rtake (n + 1) :=
    (List.take_append_drop _ _).symm
  have hlength : (entries.rtake (n + 1)).length = min (n + 1) entries.length := by
    rw [List.rtake, List.length_drop]
    omega
  have hnodup : (keys (entries.rtake (n + 1))).Nodup :=
    hall.sublist ((List.drop_sublist _ _).map _)
  have hle := length_le_length_forget hnodup entry.1
  have hbound : (forget entry.1 (entries.rtake (n + 1))).length ≤
      (entries.rtake (n + 1)).length := List.length_filter_le _ _
  have hlast : (forget entry.1 entries).rtake n =
      (forget entry.1 (entries.rtake (n + 1))).rtake n := by
    by_cases hfull : n + 1 ≤ entries.length
    · conv_lhs => rw [hsplit]
      rw [forget, List.filter_append]
      exact rtake_append_of_le (by unfold forget at hle; omega)
    · have hwhole : entries.rtake (n + 1) = entries := by
        rw [List.rtake, show entries.length - (n + 1) = 0 by omega, List.drop_zero]
      rw [hwhole]
  rw [hlast]
  dsimp only
  split
  -- All places are taken: the oldest entry goes.
  · rename_i hfull
    rw [List.rtake, hfull, Nat.add_sub_cancel_left, List.drop_one]
  -- There is room, as an entry under the key was forgotten or a place is free.
  · rename_i hroom
    rw [List.rtake, show (forget entry.1 (entries.rtake (n + 1))).length - n = 0 by omega,
      List.drop_zero]

end Halquen.Library.Recency
