import Halquen.Library.Sql

/-!
# Listings

A listing returns the first rows of a table in the order of a key, each of them converted to a
value; one row that does not convert fails the whole query. `listed_append_iff` says when a row
that was appended under a new identifier is listed, and as which value.
-/

set_option autoImplicit false

namespace Halquen.Library.Listing

open Halquen.Library.Sql

section Conversion

variable {ρ α β ε : Type}

/-- A sequence succeeds if both parts do. -/
theorem except_bind_eq_ok_iff {x : Except ε α} {f : α → Except ε β} {b : β} :
    x >>= f = .ok b ↔ ∃ a, x = .ok a ∧ f a = .ok b := by
  cases x <;> simp [bind, Except.bind]

/-- The value, or this error where there is none. -/
def orError (e : ε) (found : Option α) : Except ε α := found.elim (.error e) .ok

/-- A value that is there is returned. -/
@[simp]
theorem orError_eq_ok_iff (e : ε) (found : Option α) (a : α) :
    orError e found = .ok a ↔ found = some a := by
  cases found <;> simp [orError]

/-- Fails with this error where the condition holds. -/
def rejectIf (cond : Bool) (e : ε) : Except ε Unit := if cond then .error e else .ok ()

/-- A check passes if its condition is false. -/
@[simp]
theorem rejectIf_eq_ok_iff (cond : Bool) (e : ε) (u : Unit) :
    rejectIf cond e = .ok u ↔ cond = false := by
  cases cond <;> simp [rejectIf]

/-- A list of rows converts when every row does. -/
theorem mapM_eq_ok_iff (read : ρ → Except ε α) (rows : List ρ) (values : List α) :
    rows.mapM read = .ok values ↔ List.Forall₂ (fun r v => read r = .ok v) rows values := by
  induction rows generalizing values with
  | nil =>
      rw [List.mapM_nil, List.forall₂_nil_left_iff]
      exact ⟨fun h => (Except.ok.inj h).symm, fun h => congrArg Except.ok h.symm⟩
  | cons row rows ih =>
      rw [List.mapM_cons, List.forall₂_cons_left_iff, except_bind_eq_ok_iff]
      constructor
      · rintro ⟨first, hfirst, hrest⟩
        obtain ⟨rest, hrest, hvalues⟩ := except_bind_eq_ok_iff.mp hrest
        exact ⟨first, rest, hfirst, (ih rest).mp hrest, (Except.ok.inj hvalues).symm⟩
      · rintro ⟨first, rest, hfirst, hrest, rfl⟩
        exact ⟨first, hfirst, except_bind_eq_ok_iff.mpr ⟨rest, (ih rest).mpr hrest, rfl⟩⟩

/-- Every row that was read has a value. -/
theorem exists_of_forall₂_left {read : ρ → Except ε α} {rows : List ρ} {values : List α}
    (h : List.Forall₂ (fun r v => read r = .ok v) rows values) {r : ρ} (hr : r ∈ rows) :
    ∃ v ∈ values, read r = .ok v := by
  induction h with
  | nil => cases hr
  | cons hfirst _ ih =>
      rcases List.mem_cons.mp hr with rfl | hr
      · exact ⟨_, List.mem_cons_self, hfirst⟩
      · obtain ⟨v, hv, hread⟩ := ih hr
        exact ⟨v, List.mem_cons_of_mem _ hv, hread⟩

/-- Every value was read from a row. -/
theorem exists_of_forall₂_right {read : ρ → Except ε α} {rows : List ρ} {values : List α}
    (h : List.Forall₂ (fun r v => read r = .ok v) rows values) {v : α} (hv : v ∈ values) :
    ∃ r ∈ rows, read r = .ok v := by
  induction h with
  | nil => cases hv
  | cons hfirst _ ih =>
      rcases List.mem_cons.mp hv with rfl | hv
      · exact ⟨_, List.mem_cons_self, hfirst⟩
      · obtain ⟨r, hr, hread⟩ := ih hv
        exact ⟨r, List.mem_cons_of_mem _ hr, hread⟩

/-- A list of rows does not convert because of one of them. -/
theorem exists_of_mapM_error {read : ρ → Except ε α} {rows : List ρ} {e : ε}
    (h : rows.mapM read = .error e) : ∃ r ∈ rows, read r = .error e := by
  induction rows with
  | nil => cases h
  | cons row rows ih =>
      rw [List.mapM_cons] at h
      cases hfirst : read row with
      | error e' =>
          rw [hfirst] at h
          cases h
          exact ⟨row, List.mem_cons_self, hfirst⟩
      | ok first =>
          rw [hfirst] at h
          cases hrest : rows.mapM read with
          | error e' =>
              rw [hrest] at h
              cases h
              obtain ⟨r, hr, hread⟩ := ih hrest
              exact ⟨r, List.mem_cons_of_mem _ hr, hread⟩
          | ok rest =>
              rw [hrest] at h
              cases h

/-- All rows can be read if each of them can. -/
theorem exists_mapM_eq_ok_iff (read : ρ → Except ε α) (rows : List ρ) :
    (∃ values, rows.mapM read = .ok values) ↔ ∀ r ∈ rows, ∃ v, read r = .ok v := by
  constructor
  · rintro ⟨values, hvalues⟩ r hr
    obtain ⟨v, -, hread⟩ :=
      exists_of_forall₂_left ((mapM_eq_ok_iff read rows values).mp hvalues) hr
    exact ⟨v, hread⟩
  · intro h
    induction rows with
    | nil => exact ⟨[], rfl⟩
    | cons row rows ih =>
        obtain ⟨first, hfirst⟩ := h row List.mem_cons_self
        obtain ⟨rest, hrest⟩ := ih fun r hr => h r (List.mem_cons_of_mem _ hr)
        refine ⟨first :: rest, (mapM_eq_ok_iff read _ _).mpr ?_⟩
        exact .cons hfirst ((mapM_eq_ok_iff read _ _).mp hrest)

end Conversion

/-- Where at most one row has a value, the order in which the rows are read does not matter. -/
theorem findSome?_eq_of_perm {ρ α : Type} {read : ρ → Option α} {rows rows' : List ρ}
    (hperm : rows'.Perm rows)
    (hone : ∀ r ∈ rows, ∀ r' ∈ rows, read r ≠ none → read r' ≠ none → r = r') :
    rows'.findSome? read = rows.findSome? read := by
  cases hfound : rows.findSome? read with
  | none =>
      rw [List.findSome?_eq_none_iff] at hfound ⊢
      intro r hr
      exact hfound r (hperm.mem_iff.mp hr)
  | some a =>
      obtain ⟨r, hr, hread⟩ := List.exists_of_findSome?_eq_some hfound
      cases hfound' : rows'.findSome? read with
      | none =>
          rw [List.findSome?_eq_none_iff.mp hfound' r (hperm.mem_iff.mpr hr)] at hread
          cases hread
      | some a' =>
          obtain ⟨r', hr', hread'⟩ := List.exists_of_findSome?_eq_some hfound'
          have hsame : r = r' := hone r hr r' (hperm.mem_iff.mp hr') (by simp [hread])
            (by simp [hread'])
          rw [← hsame, hread] at hread'
          exact hread'.symm

/-! ## The window of a listing -/

section Window

variable {ρ κ : Type} [LinearOrder κ]

/-- `ORDER BY key LIMIT limit`. -/
def window (key : ρ → κ) (limit : Nat) (rows : List ρ) : List ρ := (orderBy key rows).take limit

/-- A listing invents no rows. -/
theorem mem_of_mem_window {key : ρ → κ} {limit : Nat} {rows : List ρ} {r : ρ}
    (h : r ∈ window key limit rows) : r ∈ rows :=
  (perm_orderBy key rows).subset (List.mem_of_mem_take h)

/-- Last row of `ORDER BY key`. -/
def lastBy (key : ρ → κ) (rows : List ρ) : Option ρ := (orderBy key rows).getLast?

@[simp]
theorem lastBy_eq_none_iff (key : ρ → κ) (rows : List ρ) : lastBy key rows = none ↔ rows = [] := by
  have hperm := perm_orderBy key rows
  unfold lastBy
  rw [List.getLast?_eq_none_iff]
  constructor
  · intro h
    rw [h] at hperm
    exact hperm.symm.eq_nil
  · rintro rfl
    exact hperm.eq_nil

/-- The last row is one of the rows, and no row comes after it. -/
theorem lastBy_spec {key : ρ → κ} {rows : List ρ} {m : ρ} (h : lastBy key rows = some m) :
    m ∈ rows ∧ ∀ r ∈ rows, key r ≤ key m := by
  have hperm := perm_orderBy key rows
  obtain ⟨before, hsplit⟩ := List.getLast?_eq_some_iff.mp h
  have hsorted := pairwise_orderBy key rows
  rw [hsplit] at hperm hsorted
  refine ⟨hperm.subset (by simp), ?_⟩
  intro r hr
  rcases List.mem_append.mp (hperm.symm.subset hr) with hbefore | hlast
  · exact (List.pairwise_append.mp hsorted).2.2 r hbefore m (by simp)
  · rw [List.mem_singleton.mp hlast]

/-- An element is among the first `n` exactly when fewer than `n` stand before it. -/
theorem mem_take_split_iff {before after : List ρ} {r : ρ} {n : Nat} (hr : r ∉ before) :
    r ∈ (before ++ r :: after).take n ↔ before.length < n := by
  rw [List.take_append, List.mem_append]
  constructor
  · rintro (hin | hin)
    · exact absurd (List.mem_of_mem_take hin) hr
    · by_contra hn
      have hzero : n - before.length = 0 := by omega
      rw [hzero, List.take_zero] at hin
      cases hin
  · intro hn
    obtain ⟨k, hk⟩ : ∃ k, n - before.length = k + 1 := ⟨n - before.length - 1, by omega⟩
    rw [hk, List.take_succ_cons]
    exact .inr List.mem_cons_self

/-- A row of which no copy stands before it is within the limit exactly when fewer rows than that
come before it. -/
theorem mem_window_split_iff {key : ρ → κ} {rows before after : List ρ} {r : ρ}
    (hsplit : orderBy key rows = before ++ r :: after) (hne : ∀ s ∈ before, key s ≠ key r)
    (limit : Nat) :
    r ∈ window key limit rows ↔ rows.countP (fun s => decide (key s < key r)) < limit := by
  have hperm := perm_orderBy key rows
  have hsorted := pairwise_orderBy key rows
  rw [hsplit] at hperm hsorted
  obtain ⟨-, hafter, hbefore⟩ := List.pairwise_append.mp hsorted
  have hbelow : ∀ s ∈ before, key s < key r := by
    intro s hs
    exact lt_of_le_of_ne (hbefore s hs r List.mem_cons_self) (hne s hs)
  have habove : ∀ s ∈ r :: after, ¬ key s < key r := by
    intro s hs
    rcases List.mem_cons.mp hs with rfl | hs
    · exact lt_irrefl (key s)
    · exact not_lt_of_ge ((List.pairwise_cons.mp hafter).1 s hs)
  have hcount : rows.countP (fun s => decide (key s < key r)) = before.length := by
    rw [← hperm.countP_eq, List.countP_append, List.countP_eq_length.mpr,
      List.countP_eq_zero.mpr]
    · rfl
    · intro s hs
      simpa using habove s hs
    · intro s hs
      simpa using hbelow s hs
  have hnot : r ∉ before := fun hr => lt_irrefl _ (hbelow r hr)
  rw [window, hsplit, mem_take_split_iff hnot, hcount]

/-- A new row is within the limit if fewer rows than that come before it. -/
theorem mem_window_append_iff {key : ρ → κ} {rows : List ρ} {row : ρ}
    (hkey : ∀ r ∈ rows, key r ≠ key row) (limit : Nat) :
    row ∈ window key limit (rows ++ [row]) ↔
      rows.countP (fun r => decide (key r < key row)) < limit := by
  have hperm := perm_orderBy key (rows ++ [row])
  have hmem : row ∈ orderBy key (rows ++ [row]) := hperm.symm.subset (by simp)
  obtain ⟨before, after, hsplit⟩ := List.append_of_mem hmem
  -- Around the new row stand the old ones.
  have hold : (before ++ after).Perm rows := by
    rw [hsplit] at hperm
    have hfront : (row :: (before ++ after)).Perm (row :: rows) :=
      List.perm_middle.symm.trans (hperm.trans (List.perm_append_singleton row rows))
    exact hfront.cons_inv
  have hne : ∀ r ∈ before, key r ≠ key row := by
    intro r hr
    exact hkey r (hold.subset (List.mem_append_left after hr))
  rw [mem_window_split_iff hsplit hne, List.countP_append, List.countP_singleton, if_neg (by simp),
    Nat.add_zero]

end Window

/-! ## Listed values -/

section Listed

variable {ρ κ α ε ι : Type} [LinearOrder κ]

/-- `SELECT ... ORDER BY key LIMIT limit`, with the conversion of its rows. -/
def listRows (key : ρ → κ) (read : ρ → Except ε α) (limit : Nat) (rows : List ρ) :
    Except ε (List α) :=
  (window key limit rows).mapM read

/-- The value is listed, and no other one under its identifier. -/
def Listed (ident : α → ι) (listed : Except ε (List α)) (v : α) : Prop :=
  ∃ values, listed = .ok values ∧ v ∈ values ∧ ∀ w ∈ values, ident w = ident v → w = v

/-- The listing reaches a new row: fewer rows than the limit come before it, and every row of the
listing converts. -/
def Reaches (key : ρ → κ) (read : ρ → Except ε α) (limit : Nat) (rows : List ρ) (row : ρ) : Prop :=
  rows.countP (fun r => decide (key r < key row)) < limit ∧
    ∀ r ∈ window key limit (rows ++ [row]), ∃ v, read r = .ok v

/-- A row under a new identifier is listed as the value that it reads as. -/
theorem listed_append_iff {key : ρ → κ} {read : ρ → Except ε α} {rowIdent : ρ → ι} {ident : α → ι}
    (hident : ∀ r w, read r = .ok w → ident w = rowIdent r) {rows : List ρ} {row : ρ}
    (hfresh : ∀ r ∈ rows, rowIdent r ≠ rowIdent row) (hkey : ∀ r ∈ rows, key r ≠ key row)
    {stored v : α} (hread : read row = .ok stored) (hv : ident v = rowIdent row) (limit : Nat) :
    Listed ident (listRows key read limit (rows ++ [row])) v ↔
      stored = v ∧ Reaches key read limit rows row := by
  -- A listed value under the new identifier was read from the new row.
  have hrow : ∀ r ∈ window key limit (rows ++ [row]), ∀ w, read r = .ok w →
      ident w = rowIdent row → r = row ∧ w = stored := by
    intro r hr w hw hsame
    have hin := mem_of_mem_window hr
    rcases List.mem_append.mp hin with hold | hnew
    · exact absurd ((hident r w hw).symm.trans hsame) (hfresh r hold)
    · obtain rfl := List.mem_singleton.mp hnew
      rw [hread] at hw
      exact ⟨rfl, (Except.ok.inj hw).symm⟩
  constructor
  -- It is listed, so its row is in the window and all of the window converts.
  · rintro ⟨values, hvalues, hmem, -⟩
    have hall := (mapM_eq_ok_iff read _ _).mp hvalues
    obtain ⟨r, hr, hreads⟩ := exists_of_forall₂_right hall hmem
    obtain ⟨rfl, rfl⟩ := hrow r hr v hreads hv
    refine ⟨rfl, (mem_window_append_iff hkey limit).mp hr, ?_⟩
    exact (exists_mapM_eq_ok_iff read _).mp ⟨values, hvalues⟩
  -- The window converts and has the row in it.
  · rintro ⟨rfl, hcount, hreads⟩
    obtain ⟨values, hvalues⟩ := (exists_mapM_eq_ok_iff read _).mpr hreads
    have hall := (mapM_eq_ok_iff read _ _).mp hvalues
    have hin := (mem_window_append_iff hkey limit).mpr hcount
    refine ⟨values, hvalues, ?_, ?_⟩
    · obtain ⟨w, hw, hreadw⟩ := exists_of_forall₂_left hall hin
      rw [hread] at hreadw
      exact Except.ok.inj hreadw ▸ hw
    · intro w hw hsame
      obtain ⟨r, hr, hreadw⟩ := exists_of_forall₂_right hall hw
      exact (hrow r hr w hreadw (hsame.trans hv)).2

/-- Every row of the table converts. -/
def Readable (read : ρ → Except ε α) (rows : List ρ) : Prop := ∀ r ∈ rows, ∃ v, read r = .ok v

omit [LinearOrder κ] in
/-- A row that can be read leaves the table readable. -/
theorem Readable.upsert [DecidableEq κ] {key : ρ → κ} {read : ρ → Except ε α} {rows : List ρ}
    (h : Readable read rows) {row : ρ} {merge : ρ → ρ} (hrow : ∃ v, read row = .ok v)
    (hmerge : ∀ old ∈ rows, key old = key row → ∃ v, read (merge old) = .ok v) :
    Readable read (upsertRow key row merge rows) := by
  intro r hr
  rcases mem_upsertRow hr with ⟨hold, -⟩ | ⟨old, hold, hkey, rfl⟩ | ⟨rfl, -⟩
  · exact h r hold
  · exact hmerge old hold hkey
  · exact hrow

/-- No listing of a readable table fails. -/
theorem Readable.exists_list {key : ρ → κ} {read : ρ → Except ε α} {rows : List ρ}
    (h : Readable read rows) (limit : Nat) :
    ∃ values, listRows key read limit rows = .ok values :=
  (exists_mapM_eq_ok_iff read _).mpr fun r hr => h r (mem_of_mem_window hr)

/-- In a readable table only the limit keeps a new row from being listed. -/
theorem Readable.reaches_iff {key : ρ → κ} {read : ρ → Except ε α} {rows : List ρ}
    (h : Readable read rows) {row : ρ} (hrow : ∃ v, read row = .ok v) (limit : Nat) :
    Reaches key read limit rows row ↔ rows.countP (fun r => decide (key r < key row)) < limit := by
  refine ⟨fun hreaches => hreaches.1, fun hcount => ⟨hcount, fun r hr => ?_⟩⟩
  rcases List.mem_append.mp (mem_of_mem_window hr) with hold | hnew
  · exact h r hold
  · exact List.mem_singleton.mp hnew ▸ hrow

end Listed

end Halquen.Library.Listing
