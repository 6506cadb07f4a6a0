import Mathlib.Data.List.AList
import Mathlib.Logic.Function.Basic

/-!
# Renamed tables

A map that holds the rows of a table under keys of its own. Every key of the table has a name; the
map has an entry under the names of the keys and nowhere else, different keys have different names,
and each row agrees with its entry. A row that is added under a key that is new, to both sides, is
given a name that is new (`Renamed.insert`); a row that is changed keeps its name
(`Renamed.replace`).
-/

set_option autoImplicit false

namespace Halquen.Library.Renaming

variable {ρ κ ι β : Type} [DecidableEq κ] [DecidableEq ι]

/-- The entries of the map are the rows of the table, under the names of their keys. -/
structure Renamed (key : ρ → ι) (name : ι → κ) (agree : ρ → β → Prop) (rows : List ρ)
    (m : AList fun _ : κ => β) : Prop where
  entry_of_row : ∀ r ∈ rows, ∃ v, m.lookup (name (key r)) = some v ∧ agree r v
  row_of_entry : ∀ k ∈ m, ∃ r ∈ rows, name (key r) = k
  injective : ∀ a ∈ rows, ∀ b ∈ rows, name (key a) = name (key b) → key a = key b

section

variable {key : ρ → ι} {name : ι → κ} {agree agree' : ρ → β → Prop} {rows : List ρ}
  {m : AList fun _ : κ => β}

omit [DecidableEq ι] in
theorem renamed_empty : Renamed key name agree [] (∅ : AList fun _ : κ => β) where
  entry_of_row := by simp
  row_of_entry := by simp
  injective := by simp

omit [DecidableEq ι] in
/-- The name of a row is in the map. -/
theorem Renamed.mem (h : Renamed key name agree rows m) {r : ρ} (hr : r ∈ rows) :
    name (key r) ∈ m := by
  obtain ⟨v, hlookup, -⟩ := h.entry_of_row r hr
  exact AList.lookup_isSome.mp (Option.isSome_iff_exists.mpr ⟨v, hlookup⟩)

/-- A new row gets a new name. -/
theorem Renamed.insert (h : Renamed key name agree rows m) (row : ρ) {k : κ} {v : β}
    (hrow : ∀ r ∈ rows, key r ≠ key row) (hk : k ∉ m)
    (hkept : ∀ r ∈ rows, ∀ w, agree r w → agree' r w) (hnew : agree' row v) :
    Renamed key (Function.update name (key row) k) agree' (rows ++ [row]) (m.insert k v) := by
  have hsame : ∀ r ∈ rows, Function.update name (key row) k (key r) = name (key r) :=
    fun r hr => Function.update_of_ne (hrow r hr) k name
  have hself : Function.update name (key row) k (key row) = k := Function.update_self _ k name
  have hother : ∀ r ∈ rows, name (key r) ≠ k := by
    rintro r hr rfl
    exact hk (h.mem hr)
  refine ⟨fun r hr => ?_, fun k' hk' => ?_, fun a ha b hb heq => ?_⟩
  -- Every row has its entry.
  · rcases List.mem_append.mp hr with hold | hlast
    · obtain ⟨w, hlookup, hagree⟩ := h.entry_of_row r hold
      refine ⟨w, ?_, hkept r hold w hagree⟩
      rw [hsame r hold, AList.lookup_insert_ne (hother r hold), hlookup]
    · obtain rfl := List.mem_singleton.mp hlast
      refine ⟨v, ?_, hnew⟩
      rw [hself, AList.lookup_insert]
  -- Every entry has its row.
  · rcases (AList.mem_insert m).mp hk' with rfl | hold
    · exact ⟨row, List.mem_append_right _ (List.mem_singleton_self row), hself⟩
    · obtain ⟨r, hr, hnamed⟩ := h.row_of_entry k' hold
      exact ⟨r, List.mem_append_left _ hr, (hsame r hr).trans hnamed⟩
  -- No two rows have one name, as the name of the new one is new.
  · rcases List.mem_append.mp ha with hold | hlast <;>
      rcases List.mem_append.mp hb with hold' | hlast'
    · rw [hsame a hold, hsame b hold'] at heq
      exact h.injective a hold b hold' heq
    · obtain rfl := List.mem_singleton.mp hlast'
      rw [hsame a hold, hself] at heq
      exact absurd heq (hother a hold)
    · obtain rfl := List.mem_singleton.mp hlast
      rw [hself, hsame b hold'] at heq
      exact absurd heq.symm (hother b hold')
    · rw [List.mem_singleton.mp hlast, List.mem_singleton.mp hlast']

omit [DecidableEq ι] in
/-- The rows under one key are changed, and the entry under its name. -/
theorem Renamed.replace (h : Renamed key name agree rows m) {set : ρ → ρ} {i : ι} {v : β}
    (hmem : ∃ r ∈ rows, key r = i) (hkey : ∀ r, key (set r) = key r)
    (hchanged : ∀ r ∈ rows, key r = i → agree' (set r) v)
    (hkept : ∀ r ∈ rows, key r ≠ i → ∀ w, agree r w → agree' (set r) w) :
    Renamed key name agree' (rows.map set) (m.insert (name i) v) := by
  obtain ⟨old, hold, rfl⟩ := hmem
  refine ⟨fun r hr => ?_, fun k hk => ?_, fun a ha b hb heq => ?_⟩
  · obtain ⟨r₀, hr₀, rfl⟩ := List.mem_map.mp hr
    rw [hkey]
    by_cases hsame : key r₀ = key old
    · refine ⟨v, ?_, hchanged r₀ hr₀ hsame⟩
      rw [hsame, AList.lookup_insert]
    · obtain ⟨w, hlookup, hagree⟩ := h.entry_of_row r₀ hr₀
      refine ⟨w, ?_, hkept r₀ hr₀ hsame w hagree⟩
      rw [AList.lookup_insert_ne fun heq => hsame (h.injective r₀ hr₀ old hold heq), hlookup]
  · have hrow : ∃ r ∈ rows, name (key r) = k := by
      rcases (AList.mem_insert m).mp hk with rfl | hk
      · exact ⟨old, hold, rfl⟩
      · exact h.row_of_entry k hk
    obtain ⟨r, hr, rfl⟩ := hrow
    exact ⟨set r, List.mem_map_of_mem hr, congrArg name (hkey r)⟩
  · obtain ⟨a₀, ha₀, rfl⟩ := List.mem_map.mp ha
    obtain ⟨b₀, hb₀, rfl⟩ := List.mem_map.mp hb
    rw [hkey, hkey] at heq ⊢
    exact h.injective a₀ ha₀ b₀ hb₀ heq

end

end Halquen.Library.Renaming
