import Halquen.Library.Listing
import Mathlib.Data.List.AList

/-!
# Mirrored tables

A map that is kept beside a table. It mirrors the table if it has an entry under a name exactly
where the table has a row under it, and the two agree. An upsert and a deletion keep this when they
are made on both sides; a map that is filled from a listing mirrors the table exactly if the
listing was long enough (`mirrors_load_iff`).
-/

set_option autoImplicit false

namespace Halquen.Library.Mirror

open Halquen.Library.Sql Halquen.Library.Listing

variable {ρ κ ι β : Type} [DecidableEq κ]

/-- The entries of the map are the rows of the table. -/
structure Mirrors (key : ρ → ι) (name : κ → ι) (agree : ρ → β → Prop) (rows : List ρ)
    (m : AList fun _ : κ => β) : Prop where
  row_of_entry : ∀ k v, m.lookup k = some v → ∃ r ∈ rows, key r = name k ∧ agree r v
  entry_of_row : ∀ r ∈ rows, ∃ k v, name k = key r ∧ m.lookup k = some v ∧ agree r v

/-- The map with an entry for each value, from the first to the last. -/
def load (ident : β → κ) (m : AList fun _ : κ => β) (values : List β) : AList fun _ : κ => β :=
  values.foldl (fun m v => m.insert (ident v) v) m

section

variable {key : ρ → ι} {name : κ → ι} {agree : ρ → β → Prop} {rows rows' : List ρ}
  {m : AList fun _ : κ => β}

/-- Nothing mirrors nothing. -/
theorem mirrors_empty : Mirrors key name agree [] (∅ : AList fun _ : κ => β) :=
  ⟨fun k v h => by simp at h, by simp⟩

/-- Only which rows there are matters, not their order. -/
theorem Mirrors.congr (h : Mirrors key name agree rows m) (hmem : ∀ r, r ∈ rows ↔ r ∈ rows') :
    Mirrors key name agree rows' m := by
  constructor
  · intro k v hlookup
    obtain ⟨r, hr, hagree⟩ := h.row_of_entry k v hlookup
    exact ⟨r, (hmem r).mp hr, hagree⟩
  · intro r hr
    exact h.entry_of_row r ((hmem r).mpr hr)

/-- A row and an entry written together keep the mirror. -/
theorem Mirrors.upsert [DecidableEq ι] (h : Mirrors key name agree rows m)
    (hname : Function.Injective name) {k : κ} {v : β} {row : ρ} {merge : ρ → ρ}
    (hk : key row = name k) (hrow : agree row v)
    (hmerge : ∀ old ∈ rows, key old = key row → key (merge old) = key row ∧ agree (merge old) v) :
    Mirrors key name agree (upsertRow key row merge rows) (m.insert k v) := by
  constructor
  · intro k' v' hlookup
    by_cases hsame : k' = k
    · subst hsame
      rw [AList.lookup_insert] at hlookup
      cases hlookup
      -- The entry that is put in comes from the row that was merged or added.
      rcases exists_mem_upsertRow key row merge rows with ⟨old, hold, hkey, hmem⟩ | hmem
      · obtain ⟨hmerged, hagree⟩ := hmerge old hold hkey
        exact ⟨merge old, hmem, hmerged.trans hk, hagree⟩
      · exact ⟨row, hmem, hk, hrow⟩
    -- Entries under other names have their rows as before.
    · rw [AList.lookup_insert_ne hsame] at hlookup
      obtain ⟨r, hr, hkey, hagree⟩ := h.row_of_entry k' v' hlookup
      refine ⟨r, mem_upsertRow_of_ne hr ?_ merge, hkey, hagree⟩
      rw [hkey, hk]
      exact fun heq => hsame (hname heq)
  · intro r hr
    -- A row of the table is an old one, a merged one or the new one.
    rcases mem_upsertRow hr with ⟨hold, hother⟩ | ⟨old, hold, hkey, rfl⟩ | ⟨rfl, -⟩
    · obtain ⟨k', v', hnamed, hlookup, hagree⟩ := h.entry_of_row r hold
      refine ⟨k', v', hnamed, ?_, hagree⟩
      rw [AList.lookup_insert_ne, hlookup]
      rintro rfl
      exact hother (hnamed.symm.trans hk.symm)
    · obtain ⟨hmerged, hagree⟩ := hmerge old hold hkey
      exact ⟨k, v, (hmerged.trans hk).symm, AList.lookup_insert m, hagree⟩
    · exact ⟨k, v, hk.symm, AList.lookup_insert m, hrow⟩

/-- So do a row and an entry removed together. -/
theorem Mirrors.delete (h : Mirrors key name agree rows m) (hname : Function.Injective name)
    {k : κ} {cond : ρ → Truth} (hcond : ∀ r, holds (cond r) = true ↔ key r = name k) :
    Mirrors key name agree (deleteRows cond rows) (m.erase k) := by
  have hmem : ∀ r, r ∈ deleteRows cond rows ↔ r ∈ rows ∧ key r ≠ name k := by
    intro r
    rw [deleteRows, List.mem_filter, Bool.not_eq_true', ← Bool.not_eq_true, hcond]
  constructor
  · intro k' v hlookup
    have hother : k' ≠ k := by
      rintro rfl
      rw [AList.lookup_erase] at hlookup
      cases hlookup
    rw [AList.lookup_erase_ne hother] at hlookup
    obtain ⟨r, hr, hkey, hagree⟩ := h.row_of_entry k' v hlookup
    refine ⟨r, (hmem r).mpr ⟨hr, ?_⟩, hkey, hagree⟩
    rw [hkey]
    exact fun heq => hother (hname heq)
  · intro r hr
    obtain ⟨hold, hother⟩ := (hmem r).mp hr
    obtain ⟨k', v, hnamed, hlookup, hagree⟩ := h.entry_of_row r hold
    refine ⟨k', v, hnamed, ?_, hagree⟩
    rw [AList.lookup_erase_ne, hlookup]
    rintro rfl
    exact hother hnamed.symm

/-- A map that is filled row by row mirrors the rows so far. -/
theorem Mirrors.load [DecidableEq ι] (h : Mirrors key name agree rows m)
    (hname : Function.Injective name) {ident : β → κ} {values : List β}
    (hvalues : List.Forall₂ (fun r v => key r = name (ident v) ∧ agree r v) rows' values)
    (hunique : UniqueKey key (rows ++ rows')) :
    Mirrors key name agree (rows ++ rows') (load ident m values) := by
  induction hvalues generalizing rows m with
  | nil =>
      rw [List.append_nil]
      exact h
  | @cons r v rest values hfirst _ ih =>
      have hfresh : ∀ old ∈ rows, key old ≠ key r := by
        intro old hold heq
        have hnodup : (rows.map key ++ (r :: rest).map key).Nodup := by
          rw [← List.map_append]
          exact hunique
        exact (List.nodup_append.mp hnodup).2.2 (key old) (List.mem_map_of_mem hold) (key r)
          (by simp) heq
      have hinserted : Mirrors key name agree (upsertRow key r id rows) (m.insert (ident v) v) :=
        h.upsert hname hfirst.1 hfirst.2 fun old hold heq => absurd heq (hfresh old hold)
      rw [upsertRow_of_fresh hfresh] at hinserted
      rw [List.append_cons]
      exact ih hinserted (List.append_cons rows r rest ▸ hunique)

end

/-- A map that is filled from a listing mirrors the table exactly if every row was listed. -/
theorem mirrors_load_iff {ε ο : Type} [DecidableEq ι] [LinearOrder ο] {key : ρ → ι} {name : κ → ι}
    {agree : ρ → β → Prop} {rows : List ρ} (hname : Function.Injective name) {order : ρ → ο}
    {read : ρ → Except ε β} {ident : β → κ} {limit : Nat} {values : List β}
    (hlisted : listRows order read limit rows = .ok values)
    (hread : ∀ r v, read r = .ok v → key r = name (ident v) ∧ agree r v)
    (hunique : UniqueKey key rows) :
    Mirrors key name agree rows (load ident ∅ values) ↔ rows.length ≤ limit := by
  have hperm := perm_orderBy order rows
  have hvalues := ((mapM_eq_ok_iff read _ values).mp hlisted).imp hread
  -- Loading the window mirrors the window, whatever is in the rest of the table.
  have hwindow : UniqueKey key (window order limit rows) := by
    have hsorted : UniqueKey key (orderBy order rows) := ((hperm.map key).nodup_iff).mpr hunique
    exact hsorted.sublist ((List.take_sublist limit _).map key)
  have hloaded := mirrors_empty.load hname hvalues hwindow
  constructor
  · intro h
    -- Were there more rows than the limit, one of them would be missing from the window.
    have hsubset : rows ⊆ window order limit rows := by
      intro r hr
      obtain ⟨k, v, hnamed, hlookup, -⟩ := h.entry_of_row r hr
      obtain ⟨r', hr', hkey, -⟩ := hloaded.row_of_entry k v hlookup
      rw [← hunique.eq_of_mem (mem_of_mem_window hr') hr (hkey.trans hnamed)]
      exact hr'
    have hlength := (List.subperm_of_subset (List.Nodup.of_map key hunique) hsubset).length_le
    exact hlength.trans (List.length_take_le limit _)
  · intro h
    apply hloaded.congr
    intro r
    have hall : window order limit rows = orderBy order rows := by
      rw [window, List.take_of_length_le (hperm.length_eq ▸ h)]
    rw [List.nil_append, hall]
    exact hperm.mem_iff

end Halquen.Library.Mirror
