import Halquen.Library.Sql

/-!
# Custody

A store of secrets beside a table. A row may carry a reference into the store, and only the
reference that belongs to its key. The table guards the store if the store has something under a
reference exactly where some row carries it. An upsert and a deletion keep this when the store is
changed with them at one place, the reference of the key concerned.
-/

set_option autoImplicit false

namespace Halquen.Library.Custody

open Halquen.Library.Sql

variable {ρ ι κ β : Type} {key : ρ → ι} {ref : ρ → Option κ} {name : ι → κ}

/-- The store has something exactly under the references of the rows. -/
structure Guards (key : ρ → ι) (ref : ρ → Option κ) (name : ι → κ) (rows : List ρ)
    (store : κ → Option β) : Prop where
  unique : UniqueKey key rows
  own : ∀ r ∈ rows, ∀ c, ref r = some c → c = name (key r)
  held : ∀ c, (store c).isSome = true ↔ ∃ r ∈ rows, ref r = some c

/-- The store differs from the other one at most under this reference. -/
def AwayFrom (c : κ) (store store' : κ → Option β) : Prop := ∀ d, d ≠ c → store' d = store d

theorem awayFrom_refl (c : κ) (store : κ → Option β) : AwayFrom c store store := fun _ _ => rfl

section Update

variable [DecidableEq κ]

theorem awayFrom_update (c : κ) (store : κ → Option β) (value : Option β) :
    AwayFrom c store (Function.update store c value) :=
  fun _ hd => Function.update_of_ne hd value store

/-- What is written back after a change undoes it. -/
theorem update_update_self (c : κ) (store : κ → Option β) (value : Option β) :
    Function.update (Function.update store c value) c (store c) = store := by
  rw [Function.update_idem, Function.update_eq_self]

end Update

variable {rows : List ρ} {store store' : κ → Option β}

theorem guards_empty : Guards key ref name [] fun _ : κ => (none : Option β) :=
  ⟨List.nodup_nil, by simp, by simp⟩

/-- No two rows carry the same reference. -/
theorem Guards.nodup (h : Guards key ref name rows store) (hname : Function.Injective name) :
    (rows.filterMap ref).Nodup := by
  have hkeys : rows.Pairwise fun a b => key a ≠ key b := List.pairwise_map.mp h.unique
  have hrefs : ∀ a ∈ rows, ∀ b ∈ rows, key a ≠ key b → ∀ c, ref a = some c → ∀ d,
      ref b = some d → c ≠ d := by
    intro a ha b hb hne c hc d hd heq
    apply hne
    apply hname
    rw [← h.own a ha c hc, ← h.own b hb d hd, heq]
  exact List.pairwise_filterMap.mpr (hkeys.imp_of_mem fun ha hb hne => hrefs _ ha _ hb hne)

/-- An upsert keeps the custody, if the store has something under the reference of the key exactly
where the new row carries one. -/
theorem Guards.upsert [DecidableEq ι] (h : Guards key ref name rows store)
    (hname : Function.Injective name) {row : ρ} {merge : ρ → ρ}
    (hmerge : ∀ old, key old = key row → key (merge old) = key row ∧ ref (merge old) = ref row)
    (hown : ∀ c, ref row = some c → c = name (key row))
    (haway : AwayFrom (name (key row)) store store')
    (hheld : (store' (name (key row))).isSome = (ref row).isSome) :
    Guards key ref name (upsertRow key row merge rows) store' := by
  refine ⟨h.unique.upsert fun old hold => (hmerge old hold).1, ?_, ?_⟩
  -- A reference in the table is the one that belongs to the key of its row.
  · intro r hr c hc
    rcases mem_upsertRow hr with ⟨hold, -⟩ | ⟨old, -, hkey, rfl⟩ | ⟨rfl, -⟩
    · exact h.own r hold c hc
    · obtain ⟨hmerged, href⟩ := hmerge old hkey
      rw [hmerged]
      exact hown c (href ▸ hc)
    · exact hown c hc
  · intro c
    by_cases hsame : c = name (key row)
    -- What is held for the key is what the row refers to.
    · subst hsame
      rw [hheld]
      constructor
      · intro hsome
        obtain ⟨d, hd⟩ := Option.isSome_iff_exists.mp hsome
        obtain rfl := hown d hd
        rcases exists_mem_upsertRow key row merge rows with ⟨old, -, hkey, hmem⟩ | hmem
        · exact ⟨merge old, hmem, (hmerge old hkey).2.trans hd⟩
        · exact ⟨row, hmem, hd⟩
      · rintro ⟨r, hr, hc⟩
        rcases mem_upsertRow hr with ⟨hold, hother⟩ | ⟨old, -, hkey, rfl⟩ | ⟨rfl, -⟩
        · -- A row under another key carries another reference.
          exact absurd (hname (h.own r hold _ hc)).symm hother
        · rw [← (hmerge old hkey).2, hc]
          rfl
        · rw [hc]
          rfl
    -- What is held for other keys is as before, as are their rows.
    · rw [haway c hsame, h.held c]
      constructor
      · rintro ⟨r, hr, hc⟩
        have hother : key r ≠ key row := by
          intro heq
          rw [← heq] at hsame
          exact hsame (h.own r hr c hc)
        exact ⟨r, mem_upsertRow_of_ne hr hother merge, hc⟩
      · rintro ⟨r, hr, hc⟩
        rcases mem_upsertRow hr with ⟨hold, -⟩ | ⟨old, -, hkey, rfl⟩ | ⟨rfl, -⟩
        · exact ⟨r, hold, hc⟩
        · exact absurd (hown c ((hmerge old hkey).2 ▸ hc)) hsame
        · exact absurd (hown c hc) hsame

/-- A deletion under one key keeps the custody, if nothing is left under the reference of that
key. -/
theorem Guards.delete (h : Guards key ref name rows store) (hname : Function.Injective name)
    {k : ι} {cond : ρ → Truth} (hcond : ∀ r, holds (cond r) = true ↔ key r = k)
    (haway : AwayFrom (name k) store store') (hnone : store' (name k) = none) :
    Guards key ref name (deleteRows cond rows) store' := by
  have hmem : ∀ r, r ∈ deleteRows cond rows ↔ r ∈ rows ∧ key r ≠ k := by
    intro r
    rw [deleteRows, List.mem_filter, Bool.not_eq_true', ← Bool.not_eq_true, hcond]
  refine ⟨h.unique.delete cond, fun r hr => h.own r ((hmem r).mp hr).1, ?_⟩
  intro c
  by_cases hsame : c = name k
  · subst hsame
    rw [hnone]
    refine iff_of_false (by simp) ?_
    rintro ⟨r, hr, hc⟩
    obtain ⟨hold, hother⟩ := (hmem r).mp hr
    exact hother (hname (h.own r hold _ hc)).symm
  · rw [haway c hsame, h.held c]
    constructor
    · rintro ⟨r, hr, hc⟩
      refine ⟨r, (hmem r).mpr ⟨hr, ?_⟩, hc⟩
      rintro rfl
      exact hsame (h.own r hr c hc)
    · rintro ⟨r, hr, hc⟩
      exact ⟨r, ((hmem r).mp hr).1, hc⟩

end Halquen.Library.Custody
