import Mathlib.Data.List.Nodup
import Mathlib.Data.List.Sort
import Mathlib.Order.Basic

/-!
# Relational queries on lists of rows

A table is the list of its rows in insertion order. Conditions are evaluated in SQL's three-valued
logic, where a comparison with NULL is unknown and a row is selected only if its condition is true;
the simp lemmas at `holds` reduce a condition to an ordinary proposition. `firstBy` is
`ORDER BY key LIMIT 1`. The statements that change a table are `insertRow`, `upsertRow`,
`updateRows` and `deleteRows`, each with what it does to the rows and to the uniqueness of a key.
-/

set_option autoImplicit false

namespace Halquen.Library.Sql

/-! ## Three-valued conditions -/

/-- Truth value of a condition; `none` is unknown. -/
abbrev Truth := Option Bool

/-- A row is selected only where its condition is true. -/
def holds (t : Truth) : Bool := t == some true

/-- `AND` with an unknown side. -/
def Truth.and : Truth → Truth → Truth
  | some false, _ => some false
  | _, some false => some false
  | some true, t => t
  | none, _ => none

/-- `OR` with an unknown side. -/
def Truth.or : Truth → Truth → Truth
  | some true, _ => some true
  | _, some true => some true
  | some false, t => t
  | none, _ => none

section Comparisons

variable {α : Type} [DecidableEq α]

/-- `a = b`, unknown if one side is NULL. -/
def eq : Option α → Option α → Truth
  | some a, some b => some (decide (a = b))
  | _, _ => none

/-- `a != b`, unknown if one side is NULL. -/
def ne : Option α → Option α → Truth
  | some a, some b => some (decide (a ≠ b))
  | _, _ => none

/-- `a IS b`, never unknown. -/
def is (a b : Option α) : Truth := some (decide (a = b))

end Comparisons

/-- `a IS NULL`. -/
def isNull {α : Type} (a : Option α) : Truth := some a.isNone

/-- `a >= b` on integers. -/
def ge : Option Int → Option Int → Truth
  | some a, some b => some (decide (b ≤ a))
  | _, _ => none

/-- `a < b` on integers. -/
def lt : Option Int → Option Int → Truth
  | some a, some b => some (decide (a < b))
  | _, _ => none

section Holds

variable {α : Type} [DecidableEq α]

/-- A condition holds if it is true, neither false nor unknown. -/
@[simp]
theorem holds_and (a b : Truth) : holds (a.and b) = true ↔ holds a = true ∧ holds b = true := by
  rcases a with _ | _ | _ <;> rcases b with _ | _ | _ <;> simp [holds, Truth.and]

@[simp]
theorem holds_or (a b : Truth) : holds (a.or b) = true ↔ holds a = true ∨ holds b = true := by
  rcases a with _ | _ | _ <;> rcases b with _ | _ | _ <;> simp [holds, Truth.or]

/-- Nothing equals an unknown value. -/
@[simp]
theorem holds_eq (a b : Option α) : holds (eq a b) = true ↔ a.isSome = true ∧ a = b := by
  rcases a with _ | a <;> rcases b with _ | b <;> simp [holds, eq]

/-- Nothing differs from an unknown value. -/
@[simp]
theorem holds_ne (a b : Option α) :
    holds (ne a b) = true ↔ a.isSome = true ∧ b.isSome = true ∧ a ≠ b := by
  rcases a with _ | a <;> rcases b with _ | b <;> simp [holds, ne]

/-- `IS` compares unknown values too. -/
@[simp]
theorem holds_is (a b : Option α) : holds (is a b) = true ↔ a = b := by
  simp [holds, is]

@[simp]
theorem holds_isNull {β : Type} (a : Option β) : holds (isNull a) = true ↔ a = none := by
  cases a <;> simp [holds, isNull]

@[simp]
theorem holds_ge (a b : Option Int) :
    holds (ge a b) = true ↔ ∃ x y, a = some x ∧ b = some y ∧ y ≤ x := by
  rcases a with _ | a <;> rcases b with _ | b <;> simp [holds, ge]

@[simp]
theorem holds_lt (a b : Option Int) :
    holds (lt a b) = true ↔ ∃ x y, a = some x ∧ b = some y ∧ x < y := by
  rcases a with _ | a <;> rcases b with _ | b <;> simp [holds, lt]

end Holds

/-! ## Selection -/

section Selection

variable {ρ κ : Type} [LinearOrder κ]

/-- `SELECT ... WHERE cond`. -/
def select (cond : ρ → Truth) (rows : List ρ) : List ρ := rows.filter fun r => holds (cond r)

/-- The rows selected are those for which the condition holds. -/
@[simp]
theorem mem_select (cond : ρ → Truth) (rows : List ρ) (r : ρ) :
    r ∈ select cond rows ↔ r ∈ rows ∧ holds (cond r) = true := by
  simp [select]

/-- `ORDER BY key`. -/
def orderBy (key : ρ → κ) (rows : List ρ) : List ρ := rows.insertionSort fun a b => key a ≤ key b

/-- `ORDER BY key LIMIT 1`. -/
def firstBy (key : ρ → κ) (rows : List ρ) : Option ρ := (orderBy key rows).head?

/-- Sorting loses no row. -/
theorem perm_orderBy (key : ρ → κ) (rows : List ρ) : (orderBy key rows).Perm rows :=
  List.perm_insertionSort _ rows

/-- Sorting sorts. -/
theorem pairwise_orderBy (key : ρ → κ) (rows : List ρ) :
    (orderBy key rows).Pairwise fun a b => key a ≤ key b := by
  have htotal : Std.Total fun a b : ρ => key a ≤ key b := ⟨fun a b => le_total (key a) (key b)⟩
  have htrans : IsTrans ρ fun a b => key a ≤ key b := ⟨fun _ _ _ => le_trans⟩
  exact List.pairwise_insertionSort _ rows

@[simp]
theorem firstBy_eq_none_iff (key : ρ → κ) (rows : List ρ) : firstBy key rows = none ↔ rows =
    [] := by
  unfold firstBy
  rw [List.head?_eq_none_iff]
  constructor
  · intro h
    exact ((perm_orderBy key rows).symm.trans (by rw [h])).eq_nil
  · rintro rfl
    rfl

/-- The row found is one of the rows, and no row comes before it. -/
theorem firstBy_spec {key : ρ → κ} {rows : List ρ} {m : ρ} (h : firstBy key rows = some m) :
    m ∈ rows ∧ ∀ r ∈ rows, key m ≤ key r := by
  unfold firstBy at h
  have hperm := perm_orderBy key rows
  have hsorted := pairwise_orderBy key rows
  cases horder : orderBy key rows with
  | nil =>
      rw [horder] at h
      cases h
  | cons first rest =>
      rw [horder] at h hperm hsorted
      cases h
      refine ⟨hperm.subset (by simp), fun r hr => ?_⟩
      rcases List.mem_cons.mp (hperm.symm.subset hr) with rfl | hr
      · exact le_rfl
      · exact (List.pairwise_cons.mp hsorted).1 r hr

/-- Where the key identifies rows, the row found is the least one. -/
theorem firstBy_eq_some_iff {key : ρ → κ} {rows : List ρ}
    (hinj : ∀ a ∈ rows, ∀ b ∈ rows, key a = key b → a = b) (m : ρ) :
    firstBy key rows = some m ↔ m ∈ rows ∧ ∀ r ∈ rows, key m ≤ key r := by
  refine ⟨firstBy_spec, fun ⟨hm, hleast⟩ => ?_⟩
  cases hfirst : firstBy key rows with
  | none =>
      rw [firstBy_eq_none_iff] at hfirst
      simp [hfirst] at hm
  | some m' =>
      obtain ⟨hm', hleast'⟩ := firstBy_spec hfirst
      rw [hinj m' hm' m hm (le_antisymm (hleast' m hm) (hleast m' hm'))]

/-- The row found is found among fewer rows as well, if it is one of them. -/
theorem firstBy_of_subset {key : ρ → κ} {rows rows' : List ρ} {m : ρ}
    (hinj : ∀ a ∈ rows', ∀ b ∈ rows', key a = key b → a = b) (h : firstBy key rows = some m)
    (hsubset : rows' ⊆ rows) (hm : m ∈ rows') : firstBy key rows' = some m :=
  (firstBy_eq_some_iff hinj m).mpr ⟨hm, fun r hr => (firstBy_spec h).2 r (hsubset hr)⟩

end Selection

/-! ## Statements -/

section Statements

variable {ρ κ : Type} [DecidableEq κ]

/-- A key that identifies the rows of a table. -/
def UniqueKey (key : ρ → κ) (rows : List ρ) : Prop := (rows.map key).Nodup

omit [DecidableEq κ] in
/-- Rows of the same key are the same row. -/
theorem UniqueKey.eq_of_mem {key : ρ → κ} {rows : List ρ} (h : UniqueKey key rows) {a b : ρ}
    (ha : a ∈ rows) (hb : b ∈ rows) (hab : key a = key b) : a = b :=
  List.inj_on_of_nodup_map h ha hb hab

/-- `INSERT` into a table with a unique key; `none` is the constraint violation. -/
def insertRow (key : ρ → κ) (row : ρ) (rows : List ρ) : Option (List ρ) :=
  if rows.any fun r => key r = key row then none else some (rows ++ [row])

/-- A row is inserted if its key is new. -/
theorem insertRow_eq_some_iff (key : ρ → κ) (row : ρ) (rows rows' : List ρ) :
    insertRow key row rows = some rows' ↔
      (∀ r ∈ rows, key r ≠ key row) ∧ rows' = rows ++ [row] := by
  unfold insertRow
  split
  · rename_i h
    obtain ⟨r, hr, heq⟩ := List.any_eq_true.mp h
    simp only [reduceCtorEq, false_iff, not_and]
    exact fun hne => absurd (of_decide_eq_true heq) (hne r hr)
  · rename_i h
    simp only [Bool.not_eq_true, List.any_eq_false, decide_eq_true_eq] at h
    simp only [Option.some.injEq]
    exact ⟨fun heq => ⟨h, heq.symm⟩, fun heq => heq.2.symm⟩

/-- A unique key selects one row. -/
theorem UniqueKey.filter_eq_singleton {key : ρ → κ} {rows : List ρ} (h : UniqueKey key rows)
    {row : ρ} (hrow : row ∈ rows) : rows.filter (fun r => key r == key row) = [row] := by
  induction rows with
  | nil => cases hrow
  | cons r rows ih =>
      obtain ⟨hnew, hrest⟩ := List.nodup_cons.mp h
      rcases List.mem_cons.mp hrow with rfl | hrow
      · have hnone : rows.filter (fun r => key r == key row) = [] :=
          List.filter_eq_nil_iff.mpr fun r hr hkey =>
            hnew (List.mem_map.mpr ⟨r, hr, beq_iff_eq.mp hkey⟩)
        simp only [List.filter_cons, beq_self_eq_true, if_true, hnone]
      · have hne : ¬ (key r == key row) = true := fun hkey =>
          hnew (List.mem_map.mpr ⟨row, hrow, (beq_iff_eq.mp hkey).symm⟩)
        simp only [List.filter_cons, if_neg hne]
        exact ih hrest hrow

omit [DecidableEq κ] in
/-- A row of a new key leaves the keys unique. -/
theorem UniqueKey.append {key : ρ → κ} {rows : List ρ} {row : ρ} (h : UniqueKey key rows)
    (hnew : ∀ r ∈ rows, key r ≠ key row) : UniqueKey key (rows ++ [row]) := by
  unfold UniqueKey at h ⊢
  rw [List.map_append, List.nodup_append]
  refine ⟨h, by simp, ?_⟩
  rintro _ ha _ hb rfl
  simp only [List.map_cons, List.map_nil, List.mem_singleton] at hb
  obtain ⟨r, hr, heq⟩ := List.mem_map.mp ha
  exact hnew r hr (heq.trans hb)

/-- `UPDATE ... SET ... WHERE cond`. -/
def updateRows (cond : ρ → Truth) (set : ρ → ρ) (rows : List ρ) : List ρ :=
  rows.map fun r => if holds (cond r) then set r else r

/-- The rows that a statement leaves as they are can be told apart before it as well as after. -/
theorem filter_map_of_fixed {f : ρ → ρ} {kept : ρ → Bool} {rows : List ρ}
    (hfixed : ∀ r ∈ rows, kept r = true → f r = r)
    (hkept : ∀ r ∈ rows, kept r = false → kept (f r) = false) :
    (rows.map f).filter kept = rows.filter kept := by
  have hsame : rows.filter (kept ∘ f) = rows.filter kept := by
    refine List.filter_congr fun r hr => ?_
    cases hcase : kept r with
    | true => rw [Function.comp_apply, hfixed r hr hcase, hcase]
    | false => exact hkept r hr hcase
  rw [List.filter_map, hsame]
  refine (List.map_congr_left fun r hr => ?_).trans (List.map_id _)
  exact hfixed r (List.mem_of_mem_filter hr) (List.mem_filter.mp hr).2

/-- Number of rows that an update or a deletion touches. -/
def changes (cond : ρ → Truth) (rows : List ρ) : Nat := (select cond rows).length

omit [DecidableEq κ] in
theorem map_updateRows (cond : ρ → Truth) {set : ρ → ρ} {key : ρ → κ}
    (hkey : ∀ r, key (set r) = key r) (rows : List ρ) :
    (updateRows cond set rows).map key = rows.map key := by
  unfold updateRows
  rw [List.map_map]
  apply List.map_congr_left
  intro r _
  simp only [Function.comp_apply]
  split
  · exact hkey r
  · rfl

omit [DecidableEq κ] in
/-- So does an update that leaves the key alone. -/
theorem UniqueKey.update {key : ρ → κ} {rows : List ρ} (h : UniqueKey key rows)
    (cond : ρ → Truth) {set : ρ → ρ} (hkey : ∀ r, key (set r) = key r) :
    UniqueKey key (updateRows cond set rows) := by
  unfold UniqueKey
  rw [map_updateRows cond hkey]
  exact h

/-- A row after an update is a changed one or one that the condition does not hold of. -/
theorem mem_updateRows (cond : ρ → Truth) (set : ρ → ρ) (rows : List ρ) (r : ρ) :
    r ∈ updateRows cond set rows ↔
      (∃ old ∈ rows, holds (cond old) = true ∧ set old = r) ∨
        (r ∈ rows ∧ ¬ holds (cond r) = true) := by
  unfold updateRows
  rw [List.mem_map]
  constructor
  · rintro ⟨old, hold, heq⟩
    split at heq
    · rename_i hc
      exact .inl ⟨old, hold, hc, heq⟩
    · rename_i hc
      subst heq
      exact .inr ⟨hold, hc⟩
  · rintro (⟨old, hold, hc, heq⟩ | ⟨hold, hc⟩)
    · exact ⟨old, hold, by simp [hc, heq]⟩
    · exact ⟨r, hold, by simp [hc]⟩

omit [DecidableEq κ] in
/-- A statement that addresses one key touches at most one row. -/
theorem changes_eq_one_iff {key : ρ → κ} {rows : List ρ} (h : UniqueKey key rows) {k : κ}
    {cond : ρ → Truth} (hk : ∀ r, holds (cond r) = true → key r = k) :
    changes cond rows = 1 ↔ ∃ r ∈ rows, holds (cond r) = true := by
  unfold changes
  constructor
  · intro hlen
    obtain ⟨r, hr⟩ := List.length_eq_one_iff.mp hlen
    have hmem : r ∈ select cond rows := by simp [hr]
    rw [mem_select] at hmem
    exact ⟨r, hmem⟩
  · rintro ⟨r, hr, hc⟩
    have hmem : r ∈ select cond rows := by
      rw [mem_select]
      exact ⟨hr, hc⟩
    have hnodup : (select cond rows).Nodup := (h.of_map key).filter _
    have hall : ∀ s ∈ select cond rows, s = r := by
      intro s hs
      rw [mem_select] at hs
      exact h.eq_of_mem hs.1 hr ((hk s hs.2).trans (hk r hc).symm)
    match hsel : select cond rows with
    | [] => simp [hsel] at hmem
    | [s] => rfl
    | s :: t :: rest =>
        rw [hsel] at hall hnodup
        have hst : s = t := (hall s (by simp)).trans (hall t (by simp)).symm
        simp [hst] at hnodup

/-- `INSERT ... ON CONFLICT(key) DO UPDATE`, with the new contents computed from the old row. -/
def upsertRow (key : ρ → κ) (row : ρ) (merge : ρ → ρ) (rows : List ρ) : List ρ :=
  if rows.any fun r => key r = key row then
    rows.map fun r => if key r = key row then merge r else r
  else
    rows ++ [row]

/-- So does an insertion that updates the row it meets. -/
theorem UniqueKey.upsert {key : ρ → κ} {rows : List ρ} (h : UniqueKey key rows) {row : ρ}
    {merge : ρ → ρ} (hkey : ∀ r, key r = key row → key (merge r) = key row) :
    UniqueKey key (upsertRow key row merge rows) := by
  unfold upsertRow
  split
  · unfold UniqueKey at *
    rw [List.map_map]
    have hsame : (key ∘ fun r => if key r = key row then merge r else r) = key := by
      funext r
      simp only [Function.comp_apply]
      split
      · rename_i hr
        rw [hkey r hr, hr]
      · rfl
    rw [hsame]
    exact h
  · rename_i hnone
    simp only [Bool.not_eq_true, List.any_eq_false, decide_eq_true_eq] at hnone
    exact h.append hnone

/-- An upsert that replaces the whole row keeps a second key unique, if no row that stays carries
the new row's one. -/
theorem UniqueKey.replace {κ' : Type} {key : ρ → κ} {key' : ρ → κ'} {rows : List ρ}
    (h : UniqueKey key' rows) (hkey : UniqueKey key rows) {row : ρ}
    (hfree : ∀ old ∈ rows, key old ≠ key row → key' old ≠ key' row) :
    UniqueKey key' (upsertRow key row (fun _ => row) rows) := by
  unfold upsertRow
  split
  · unfold UniqueKey
    rw [List.map_map]
    refine List.Nodup.map_on ?_ (h.of_map key')
    intro a ha b hb hab
    simp only [Function.comp_apply] at hab
    by_cases hakey : key a = key row <;> by_cases hbkey : key b = key row
    · exact hkey.eq_of_mem ha hb (hakey.trans hbkey.symm)
    · rw [if_pos hakey, if_neg hbkey] at hab
      exact absurd hab.symm (hfree b hb hbkey)
    · rw [if_neg hakey, if_pos hbkey] at hab
      exact absurd hab (hfree a ha hakey)
    · rw [if_neg hakey, if_neg hbkey] at hab
      exact h.eq_of_mem ha hb hab
  · rename_i hnone
    apply h.append
    intro old hold
    apply hfree old hold
    intro heq
    exact hnone (List.any_eq_true.mpr ⟨old, hold, decide_eq_true heq⟩)

/-- A row after it is an old one, the merged one or the new one. -/
theorem mem_upsertRow {key : ρ → κ} {row r : ρ} {merge : ρ → ρ} {rows : List ρ}
    (h : r ∈ upsertRow key row merge rows) :
    (r ∈ rows ∧ key r ≠ key row) ∨ (∃ old ∈ rows, key old = key row ∧ r = merge old) ∨
      (r = row ∧ ∀ old ∈ rows, key old ≠ key row) := by
  unfold upsertRow at h
  split at h
  · obtain ⟨old, hold, heq⟩ := List.mem_map.mp h
    split at heq
    · rename_i hk
      exact .inr (.inl ⟨old, hold, hk, heq.symm⟩)
    · rename_i hk
      subst heq
      exact .inl ⟨hold, hk⟩
  · rename_i hnone
    simp only [Bool.not_eq_true, List.any_eq_false, decide_eq_true_eq] at hnone
    rcases List.mem_append.mp h with h | h
    · exact .inl ⟨h, hnone r h⟩
    · exact .inr (.inr ⟨List.mem_singleton.mp h, hnone⟩)

/-- The row under the key of an upsert. -/
theorem exists_mem_upsertRow (key : ρ → κ) (row : ρ) (merge : ρ → ρ) (rows : List ρ) :
    (∃ old ∈ rows, key old = key row ∧ merge old ∈ upsertRow key row merge rows) ∨
      row ∈ upsertRow key row merge rows := by
  unfold upsertRow
  split
  · rename_i hany
    obtain ⟨old, hold, hkey⟩ := List.any_eq_true.mp hany
    rw [decide_eq_true_eq] at hkey
    exact .inl ⟨old, hold, hkey, List.mem_map.mpr ⟨old, hold, if_pos hkey⟩⟩
  · exact .inr (by simp)

/-- A row under another key is not touched. -/
theorem mem_upsertRow_of_ne {key : ρ → κ} {row r : ρ} {rows : List ρ} (hr : r ∈ rows)
    (hkey : key r ≠ key row) (merge : ρ → ρ) : r ∈ upsertRow key row merge rows := by
  unfold upsertRow
  split
  · exact List.mem_map.mpr ⟨r, hr, if_neg hkey⟩
  · exact List.mem_append_left _ hr

/-- Under a new key the row is inserted. -/
theorem upsertRow_of_fresh {key : ρ → κ} {row : ρ} {rows : List ρ}
    (h : ∀ r ∈ rows, key r ≠ key row) (merge : ρ → ρ) :
    upsertRow key row merge rows = rows ++ [row] := by
  unfold upsertRow
  rw [if_neg]
  simpa using h

/-- An upsert commutes with a translation of the rows that keeps keys apart. -/
theorem map_upsertRow {ρ' κ' : Type} [DecidableEq κ'] {key : ρ → κ} {key' : ρ' → κ'} {f : ρ → ρ'}
    {row : ρ} {merge : ρ → ρ} {merge' : ρ' → ρ'} {rows : List ρ}
    (hkey : ∀ r, key' (f r) = key' (f row) ↔ key r = key row)
    (hmerge : ∀ r, key r = key row → merge' (f r) = f (merge r)) :
    upsertRow key' (f row) merge' (rows.map f) = (upsertRow key row merge rows).map f := by
  have hany : (rows.map f).any (fun r => decide (key' r = key' (f row))) =
      rows.any fun r => decide (key r = key row) := by
    rw [List.any_map]
    congr 1
    funext r
    simp [hkey]
  unfold upsertRow
  rw [hany]
  split
  · rw [List.map_map, List.map_map]
    apply List.map_congr_left
    intro r _
    simp only [Function.comp_apply, hkey]
    split
    · rename_i hr
      exact hmerge r hr
    · rfl
  · simp

/-- `DELETE ... WHERE cond`. -/
def deleteRows (cond : ρ → Truth) (rows : List ρ) : List ρ :=
  rows.filter fun r => !holds (cond r)

omit [DecidableEq κ] in
/-- So does a deletion. -/
theorem UniqueKey.delete {key : ρ → κ} {rows : List ρ} (h : UniqueKey key rows)
    (cond : ρ → Truth) : UniqueKey key (deleteRows cond rows) :=
  h.sublist (List.filter_sublist.map key)

end Statements

end Halquen.Library.Sql
