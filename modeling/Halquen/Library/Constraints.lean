import Halquen.Library.Sql

/-!
# Constraints

What a schema demands of its tables, and which statements keep it.

A column of one table may name rows of another one, by their keys. Whatever is named exists
(`Refers`): rows that come in name what exists, rows that are named stay under an insertion and an
upsert, and with a row that goes either the rows go that name it (`ON DELETE CASCADE`) or their
column is cleared (`ON DELETE SET NULL`). A key may also be unique among some of the rows only
(`UniqueWhere`).
-/

set_option autoImplicit false

namespace Halquen.Library.Constraints

open Halquen.Library.Sql

/-! ## References -/

section

variable {ρ σ κ : Type} {ref : ρ → Option κ} {rows rows' : List ρ} {targets targets' : List κ}

/-- What the rows name is among the targets. -/
def Refers (ref : ρ → Option κ) (rows : List ρ) (targets : List κ) : Prop :=
  ∀ row ∈ rows, ∀ k, ref row = some k → k ∈ targets

theorem refers_nil (ref : ρ → Option κ) (targets : List κ) : Refers ref [] targets :=
  fun _ hrow => absurd hrow List.not_mem_nil

/-- A row that refers to what is there may be added. -/
theorem Refers.append (h : Refers ref rows targets) {row : ρ}
    (hrow : ∀ k, ref row = some k → k ∈ targets) : Refers ref (rows ++ [row]) targets := by
  intro r hr
  rcases List.mem_append.mp hr with hold | hnew
  · exact h r hold
  · rw [List.mem_singleton.mp hnew]
    exact hrow

/-- More targets do no harm. -/
theorem Refers.mono (h : Refers ref rows targets) (hsubset : targets ⊆ targets') :
    Refers ref rows targets' :=
  fun row hrow k hk => hsubset (h row hrow k hk)

/-- Rows of another table that name the same, in the same order. -/
theorem Refers.congr {ref' : σ → Option κ} {others : List σ} (h : Refers ref rows targets)
    (hsame : others.map ref' = rows.map ref) : Refers ref' others targets := by
  intro row hrow k hk
  have hmem : some k ∈ rows.map ref := by
    rw [← hsame]
    exact List.mem_map.mpr ⟨row, hrow, hk⟩
  obtain ⟨old, hold, heq⟩ := List.mem_map.mp hmem
  exact h old hold k heq

/-- A row that is merged refers to what it referred to. -/
theorem Refers.upsert {ι : Type} [DecidableEq ι] (h : Refers ref rows targets) {key : ρ → ι}
    {row : ρ} {merge : ρ → ρ} (hrow : ∀ k, ref row = some k → k ∈ targets)
    (hmerge : ∀ old, ref (merge old) = ref row) :
    Refers ref (upsertRow key row merge rows) targets := by
  intro r hr k hk
  rcases mem_upsertRow hr with ⟨hold, -⟩ | ⟨old, -, -, rfl⟩ | ⟨rfl, -⟩
  · exact h r hold k hk
  · exact hrow k ((hmerge old).symm.trans hk)
  · exact hrow k hk

/-- `ON DELETE CASCADE`. -/
theorem Refers.cascade (h : Refers ref rows targets) {kept : ρ → Bool}
    (htargets : ∀ row ∈ rows, kept row = true → ∀ k ∈ targets, ref row = some k → k ∈ targets') :
    Refers ref (rows.filter kept) targets' := by
  intro row hrow k hk
  obtain ⟨hold, hkept⟩ := List.mem_filter.mp hrow
  exact htargets row hold hkept k (h row hold k hk) hk

/-- `ON DELETE SET NULL`. -/
theorem Refers.setNull (h : Refers ref rows targets) {set : ρ → ρ} {kept : κ → Bool}
    (hset : ∀ row, ref (set row) = (ref row).filter kept)
    (htargets : ∀ k ∈ targets, kept k = true → k ∈ targets') :
    Refers ref (rows.map set) targets' := by
  intro row hrow k hk
  obtain ⟨old, hold, rfl⟩ := List.mem_map.mp hrow
  rw [hset, Option.filter_eq_some_iff] at hk
  exact htargets k (h old hold k hk.1) hk.2

/-- An upsert that keeps keys loses none. -/
theorem keys_subset_upsertRow [DecidableEq κ] (key : ρ → κ) (row : ρ) {merge : ρ → ρ}
    (hmerge : ∀ old, key old = key row → key (merge old) = key row) (rows : List ρ) :
    rows.map key ⊆ (upsertRow key row merge rows).map key := by
  intro k hk
  obtain ⟨old, hold, rfl⟩ := List.mem_map.mp hk
  by_cases hkey : key old = key row
  · rcases exists_mem_upsertRow key row merge rows with ⟨found, -, hfound, hmem⟩ | hmem
    · exact List.mem_map.mpr ⟨_, hmem, (hmerge found hfound).trans hkey.symm⟩
    · exact List.mem_map.mpr ⟨row, hmem, hkey.symm⟩
  · exact List.mem_map_of_mem (mem_upsertRow_of_ne hold hkey merge)

end

/-! ## Partial keys -/

section

variable {ρ κ : Type} {p : ρ → Bool} {key : ρ → κ} {rows rows' : List ρ}

/-- `CREATE UNIQUE INDEX ... (key) WHERE p`. -/
def UniqueWhere (p : ρ → Bool) (key : ρ → κ) (rows : List ρ) : Prop :=
  ∀ a ∈ rows, ∀ b ∈ rows, p a = true → p b = true → key a = key b → a = b

theorem uniqueWhere_nil (p : ρ → Bool) (key : ρ → κ) : UniqueWhere p key [] :=
  fun _ ha => absurd ha List.not_mem_nil

/-- Statements that bring no row under the condition. -/
theorem UniqueWhere.of_subset (h : UniqueWhere p key rows)
    (hsubset : ∀ row ∈ rows', p row = true → row ∈ rows) : UniqueWhere p key rows' :=
  fun a ha b hb hpa hpb hkey => h a (hsubset a ha hpa) b (hsubset b hb hpb) hpa hpb hkey

/-- An upsert of a row whose partial key is free. -/
theorem UniqueWhere.upsert {ι : Type} [DecidableEq ι] {id : ρ → ι} {row : ρ} {merge : ρ → ρ}
    (h : UniqueWhere p key rows) (hid : UniqueKey id rows)
    (hmerge : ∀ old, p (merge old) = p row ∧ key (merge old) = key row)
    (hfree : p row = true → ∀ old ∈ rows, id old ≠ id row → p old = true → key old ≠ key row) :
    UniqueWhere p key (upsertRow id row merge rows) := by
  -- The row, merged with an old one or not, against the rows under other identifiers.
  have hother : ∀ old ∈ rows, id old ≠ id row → p old = true → ∀ new, (new = row ∨
      ∃ old', new = merge old') → p new = true → key old ≠ key new := by
    rintro old hold hne hp new (rfl | ⟨old', rfl⟩) hpnew
    · exact hfree hpnew old hold hne hp
    · rw [(hmerge old').2]
      exact hfree ((hmerge old').1.symm.trans hpnew) old hold hne hp
  intro a ha b hb hpa hpb hab
  rcases mem_upsertRow ha with ⟨haold, haid⟩ | ⟨old, hold, holdid, rfl⟩ | ⟨rfl, hanew⟩
  · rcases mem_upsertRow hb with ⟨hbold, -⟩ | ⟨old, -, -, rfl⟩ | ⟨rfl, -⟩
    · exact h a haold b hbold hpa hpb hab
    · exact absurd hab (hother a haold haid hpa _ (.inr ⟨old, rfl⟩) hpb)
    · exact absurd hab (hother a haold haid hpa _ (.inl rfl) hpb)
  · rcases mem_upsertRow hb with ⟨hbold, hbid⟩ | ⟨old', hold', holdid', rfl⟩ | ⟨rfl, hbnew⟩
    · exact absurd hab.symm (hother b hbold hbid hpb _ (.inr ⟨old, rfl⟩) hpa)
    · rw [hid.eq_of_mem hold hold' (holdid.trans holdid'.symm)]
    · exact absurd holdid (hbnew old hold)
  · rcases mem_upsertRow hb with ⟨hbold, hbid⟩ | ⟨old', hold', holdid', rfl⟩ | ⟨rfl, -⟩
    · exact absurd hab.symm (hother b hbold hbid hpb _ (.inl rfl) hpa)
    · exact absurd holdid' (hanew old' hold')
    · rfl

end

end Halquen.Library.Constraints
