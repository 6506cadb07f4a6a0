import Halquen.Library.Listing

/-!
# Ranking

Rows in the order of a key, and the first of them. Sorting is stable, so that the last row of a
listing is the last one among those of the greatest key (`lastBy_split`), and a row that is appended
displaces at most one of the greatest rows (`filter_lastRows_append`). Where keys are distinct,
the rank of a row is the number of rows above it, and a table from which rows are removed only once
`n` rows stand above them still shows its first `n` rows (`take_orderByDesc_filter`): a query that
asks for no more cannot tell the compacted table from the full one. A search through a listing finds
a row exactly if the listing reaches it (`find?_listRows`).
-/

set_option autoImplicit false

namespace Halquen.Library.Ranking

open Halquen.Library.Sql Halquen.Library.Listing

/-! ## Prefixes of a list -/

section Prefixes

variable {ρ : Type} {l : List ρ} {n : Nat}

/-- A list of which only elements behind the first `n` are dropped has the same first `n`. -/
theorem take_filter_of_forall {p : ρ → Bool} (h : ∀ r ∈ l.take n, p r = true) :
    (l.filter p).take n = l.take n := by
  have hsplit : l.filter p = l.take n ++ (l.drop n).filter p := by
    conv_lhs => rw [← List.take_append_drop n l]
    rw [List.filter_append, List.filter_eq_self.mpr h]
  rw [hsplit]
  rcases Nat.le_total l.length n with hshort | hlong
  · rw [List.drop_eq_nil_of_le hshort, List.filter_nil, List.append_nil, List.take_take,
      Nat.min_self]
  · rw [List.take_append_of_le_length (by simp [hlong]), List.take_take, Nat.min_self]

/-- Two selections from a list have the same beginning exactly if they agree on every entry that
fewer than so many selected ones precede. -/
theorem take_filter_eq_iff (p q : ρ → Bool) (n : Nat) (l : List ρ) :
    (l.filter p).take n = (l.filter q).take n ↔ ∀ before r after, l = before ++ r :: after →
      (before.filter q).length < n → p r = q r := by
  induction l generalizing n with
  | nil => simp
  | cons a l ih =>
      -- What is asked of the first entry, and of those after it.
      have hsplit : (∀ before r after, a :: l = before ++ r :: after →
          (before.filter q).length < n → p r = q r) ↔ (0 < n → p a = q a) ∧
            ∀ before r after, l = before ++ r :: after →
              ((a :: before).filter q).length < n → p r = q r := by
        constructor
        · intro h
          exact ⟨fun hn => h [] a l rfl hn,
            fun before r after heq => h (a :: before) r after (by rw [heq]; rfl)⟩
        · rintro ⟨hfirst, hlater⟩ before r after heq hcount
          cases before with
          | nil =>
              obtain ⟨rfl, -⟩ := List.cons.inj heq
              exact hfirst hcount
          | cons b before =>
              obtain ⟨rfl, htail⟩ := List.cons.inj heq
              exact hlater before r after htail hcount
      rw [hsplit]
      cases n with
      | zero => simp
      | succ n =>
          cases hp : p a <;> cases hq : q a
          · rw [List.filter_cons_of_neg (by simp [hp]), List.filter_cons_of_neg (by simp [hq]), ih]
            simp [hq]
          · -- The second selection begins with an entry that the first one does not have.
            rw [List.filter_cons_of_neg (by simp [hp]), List.filter_cons_of_pos hq]
            refine iff_of_false (fun heq => ?_) (by simp)
            have hmem : a ∈ (l.filter p).take (n + 1) := by
              rw [heq, List.take_succ_cons]
              exact List.mem_cons_self
            have hselected := (List.mem_filter.mp (List.mem_of_mem_take hmem)).2
            rw [hp] at hselected
            cases hselected
          -- The first selection begins with an entry that the second one does not have.
          · rw [List.filter_cons_of_pos hp, List.filter_cons_of_neg (by simp [hq])]
            refine iff_of_false (fun heq => ?_) (by simp)
            have hmem : a ∈ (l.filter q).take (n + 1) := by
              rw [← heq, List.take_succ_cons]
              exact List.mem_cons_self
            have hselected := (List.mem_filter.mp (List.mem_of_mem_take hmem)).2
            rw [hq] at hselected
            cases hselected
          · rw [List.filter_cons_of_pos hp, List.filter_cons_of_pos hq, List.take_succ_cons,
              List.take_succ_cons, List.cons.injEq, and_iff_right rfl, ih]
            simp [hq]

/-- The first `n + 1` elements around one that is filtered out: all of them stand before it, or it
takes the place of one. -/
theorem filter_take_split {p : ρ → Bool} {before after : List ρ} {r : ρ} (hr : p r = false)
    (hbefore : ∀ s ∈ before, p s = true) (hafter : ∀ s ∈ after, p s = true) :
    ((before ++ r :: after).take (n + 1)).filter p =
      (before ++ after).take (if n < before.length then n + 1 else n) := by
  split
  · rename_i hlt
    rw [List.take_append_of_le_length (by omega), List.take_append_of_le_length (by omega)]
    exact List.filter_eq_self.mpr fun s hs => hbefore s (List.mem_of_mem_take hs)
  · rename_i hlt
    rw [List.take_append, List.take_append, List.take_of_length_le (by omega),
      List.take_of_length_le (by omega : before.length ≤ n),
      show n + 1 - before.length = n - before.length + 1 by omega, List.take_succ_cons,
      List.filter_append, List.filter_cons_of_neg (by simp [hr]),
      List.filter_eq_self.mpr hbefore, List.filter_eq_self.mpr]
    exact fun s hs => hafter s (List.mem_of_mem_take hs)

/-- Of two different elements, the one that does not come later comes first. -/
theorem mem_after_of_split {before after front back : List ρ} {a b : ρ}
    (h : before ++ b :: after = front ++ a :: back) (hne : a ≠ b) (hnot : a ∉ after) :
    b ∈ back := by
  rcases List.append_eq_append_iff.mp h with ⟨gap, hfront, hrest⟩ | ⟨gap, hbefore, hrest⟩
  · cases gap with
    | nil =>
        rw [List.nil_append, List.cons.injEq] at hrest
        exact absurd hrest.1.symm hne
    | cons first gap =>
        rw [List.cons_append, List.cons.injEq] at hrest
        exact absurd (by rw [hrest.2]; simp) hnot
  · cases gap with
    | nil =>
        rw [List.nil_append, List.cons.injEq] at hrest
        exact absurd hrest.1 hne
    | cons first gap =>
        rw [List.cons_append, List.cons.injEq] at hrest
        rw [hrest.2]
        simp

end Prefixes

section Sorting

variable {ρ κ : Type} [LinearOrder κ]

/-! ## Stability -/

/-- Rows of one key keep their order. -/
theorem filter_orderBy_key (key : ρ → κ) (rows : List ρ) (k : κ) :
    (orderBy key rows).filter (fun r => key r = k) = rows.filter fun r => key r = k := by
  have hsub : (rows.filter fun r => key r = k).Sublist (orderBy key rows) := by
    have htotal : Std.Total fun a b : ρ => key a ≤ key b := ⟨fun a b => le_total (key a) (key b)⟩
    have htrans : IsTrans ρ fun a b => key a ≤ key b := ⟨fun _ _ _ => le_trans⟩
    apply List.sublist_insertionSort _ List.filter_sublist
    apply List.pairwise_of_forall_mem_list
    intro a ha b hb
    simp only [List.mem_filter, decide_eq_true_eq] at ha hb
    rw [ha.2, hb.2]
  -- The sorted list has as many rows of this key, so it has no others.
  have hsub' := hsub.filter fun r => decide (key r = k)
  simp only [List.filter_filter, Bool.and_self] at hsub'
  have hlength := ((perm_orderBy key rows).filter fun r => decide (key r = k)).length_eq
  exact (hsub'.eq_of_length hlength.symm).symm

/-- Two sorted lists with the same rows of each key, in the same order, are the same. -/
theorem eq_of_filter_key {key : ρ → κ} {l l' : List ρ}
    (hl : l.Pairwise fun a b => key a ≤ key b) (hl' : l'.Pairwise fun a b => key a ≤ key b)
    (h : ∀ k, l.filter (fun r => decide (key r = k)) = l'.filter fun r => decide (key r = k)) :
    l = l' := by
  induction l generalizing l' with
  | nil =>
      cases l' with
      | nil => rfl
      | cons b rest => simpa using h (key b)
  | cons a rest ih =>
      cases l' with
      | nil => simpa using h (key a)
      | cons b rest' =>
          obtain ⟨ha, hrest⟩ := List.pairwise_cons.mp hl
          obtain ⟨hb, hrest'⟩ := List.pairwise_cons.mp hl'
          -- Each head has the least key of its list, and is in the other list as well.
          have hmem : a ∈ b :: rest' := by
            have hin : a ∈ (a :: rest).filter fun r => decide (key r = key a) := by simp
            rw [h] at hin
            exact (List.mem_filter.mp hin).1
          have hmem' : b ∈ a :: rest := by
            have hin : b ∈ (b :: rest').filter fun r => decide (key r = key b) := by simp
            rw [← h] at hin
            exact (List.mem_filter.mp hin).1
          have hle : key b ≤ key a := by
            rcases List.mem_cons.mp hmem with rfl | hin
            · exact le_refl _
            · exact hb a hin
          have hge : key a ≤ key b := by
            rcases List.mem_cons.mp hmem' with rfl | hin
            · exact le_refl _
            · exact ha b hin
          have hkey : key b = key a := le_antisymm hle hge
          -- Under the common key the two lists agree, so their heads are one entry.
          have hhead := h (key a)
          rw [List.filter_cons_of_pos (by simp), List.filter_cons_of_pos (by simp [hkey]),
            List.cons.injEq] at hhead
          obtain ⟨rfl, -⟩ := hhead
          rw [ih hrest hrest']
          intro k
          have hk := h k
          -- Taking it from both leaves the agreement under every key.
          by_cases hak : key a = k
          · rw [List.filter_cons_of_pos (by simp [hak]), List.filter_cons_of_pos (by simp [hak]),
              List.cons.injEq] at hk
            exact hk.2
          · rwa [List.filter_cons_of_neg (by simp [hak]),
              List.filter_cons_of_neg (by simp [hak])] at hk

/-- A condition may be tested before or after the rows are sorted. -/
theorem orderBy_filter (key : ρ → κ) (p : ρ → Bool) (rows : List ρ) :
    orderBy key (rows.filter p) = (orderBy key rows).filter p := by
  apply eq_of_filter_key (pairwise_orderBy key _) ((pairwise_orderBy key rows).filter p)
  intro k
  have hcomm : ∀ l : List ρ, (l.filter p).filter (fun r => decide (key r = k)) =
      (l.filter fun r => decide (key r = k)).filter p := by
    intro l
    simp only [List.filter_filter, Bool.and_comm]
  rw [filter_orderBy_key, hcomm, hcomm, filter_orderBy_key]

/-- A sorted list is the rows up to a key and the rows beyond it. -/
theorem orderBy_split (key : ρ → κ) (rows : List ρ) (k : κ) :
    orderBy key rows = (orderBy key rows).filter (fun r => decide (key r ≤ k)) ++
      (orderBy key rows).filter fun r => decide (k < key r) := by
  have hsorted := pairwise_orderBy key rows
  generalize orderBy key rows = l at hsorted ⊢
  induction l with
  | nil => rfl
  | cons a rest ih =>
      obtain ⟨ha, hrest⟩ := List.pairwise_cons.mp hsorted
      by_cases hak : key a ≤ k
      · rw [List.filter_cons_of_pos (by simp [hak]),
          List.filter_cons_of_neg (by simp [hak]), List.cons_append, ← ih hrest]
      · have hlt := not_le.mp hak
        have hnone : (a :: rest).filter (fun r => decide (key r ≤ k)) = [] := by
          apply List.filter_eq_nil_iff.mpr
          intro r hr
          rcases List.mem_cons.mp hr with rfl | hr
          · simpa using hlt
          · simpa using lt_of_lt_of_le hlt (ha r hr)
        rw [hnone, List.nil_append]
        symm
        apply List.filter_eq_self.mpr
        intro r hr
        rcases List.mem_cons.mp hr with rfl | hr
        · simpa using hlt
        · simpa using lt_of_lt_of_le hlt (ha r hr)

/-- A row that is appended to a table comes after the rows up to its key. -/
theorem orderBy_append_singleton (key : ρ → κ) (rows : List ρ) (u : ρ) :
    orderBy key (rows ++ [u]) = (orderBy key rows).filter (fun r => decide (key r ≤ key u)) ++
      u :: (orderBy key rows).filter fun r => decide (key u < key r) := by
  have hsorted := pairwise_orderBy key rows
  apply eq_of_filter_key (pairwise_orderBy key _)
  · apply List.pairwise_append.mpr
    refine ⟨hsorted.filter _, List.pairwise_cons.mpr ⟨?_, hsorted.filter _⟩, ?_⟩
    · intro r hr
      exact le_of_lt (by simpa using (List.mem_filter.mp hr).2)
    -- Everything before the new row is at most its key, everything after it greater.
    · intro r hr s hs
      have hle : key r ≤ key u := by simpa using (List.mem_filter.mp hr).2
      rcases List.mem_cons.mp hs with rfl | hs
      · exact hle
      · exact hle.trans (le_of_lt (by simpa using (List.mem_filter.mp hs).2))
  · intro k
    have hrows := filter_orderBy_key key rows k
    rw [orderBy_split key rows (key u), List.filter_append] at hrows
    rw [filter_orderBy_key, List.filter_append, List.filter_append, ← hrows]
    by_cases huk : key u = k
    · have hnone : ((orderBy key rows).filter fun r => decide (key u < key r)).filter
          (fun r => decide (key r = k)) = [] := by
        apply List.filter_eq_nil_iff.mpr
        intro r hr
        have hlt : key u < key r := by simpa using (List.mem_filter.mp hr).2
        simpa [← huk] using ne_of_gt hlt
      have hpos : decide (key u = k) = true := decide_eq_true huk
      rw [List.filter_cons, List.filter_cons, if_pos hpos, if_pos hpos, hnone, List.append_nil,
        List.filter_nil]
    · simp only [List.filter_cons, huk, decide_false, Bool.false_eq_true, if_false,
        List.filter_nil, List.append_nil]

/-- The last row of a listing comes after every other one of its key. -/
theorem lastBy_split {key : ρ → κ} {rows : List ρ} {m : ρ} (h : lastBy key rows = some m) :
    ∃ before after, rows = before ++ m :: after ∧ (∀ r ∈ rows, key r ≤ key m) ∧
      ∀ r ∈ after, key r < key m := by
  obtain ⟨-, hmax⟩ := lastBy_spec h
  obtain ⟨front, hfront⟩ := List.getLast?_eq_some_iff.mp h
  have hequal := filter_orderBy_key key rows (key m)
  rw [hfront, List.filter_append] at hequal
  have hlast : [m].filter (fun r => decide (key r = key m)) = [m] := by simp
  rw [hlast] at hequal
  obtain ⟨before, rest, hrows, -, hrest⟩ := List.filter_eq_append_iff.mp hequal.symm
  obtain ⟨skipped, after, hsplit, -, -, hnone⟩ := List.filter_eq_cons_iff.mp hrest
  refine ⟨before ++ skipped, after, ?_, hmax, ?_⟩
  · rw [hrows, hsplit, List.append_assoc]
  · intro r hr
    have hle := hmax r (by rw [hrows, hsplit]; simp [hr])
    have hne := List.filter_eq_nil_iff.mp hnone r hr
    rw [decide_eq_true_eq] at hne
    exact lt_of_le_of_ne hle hne

/-! ## Distinct keys -/

/-- `ORDER BY key DESC`. -/
def orderByDesc (key : ρ → κ) (rows : List ρ) : List ρ := (orderBy key rows).reverse

/-- Sorting loses no row. -/
theorem perm_orderByDesc (key : ρ → κ) (rows : List ρ) : (orderByDesc key rows).Perm rows :=
  (List.reverse_perm _).trans (perm_orderBy key rows)

@[simp]
theorem mem_orderByDesc (key : ρ → κ) (rows : List ρ) (r : ρ) :
    r ∈ orderByDesc key rows ↔ r ∈ rows :=
  (perm_orderByDesc key rows).mem_iff

/-- The larger keys come first. -/
theorem pairwise_orderByDesc (key : ρ → κ) {rows : List ρ} (hkeys : (rows.map key).Nodup) :
    (orderByDesc key rows).Pairwise fun a b => key b < key a := by
  have hnodup : ((orderBy key rows).map key).Nodup :=
    ((perm_orderBy key rows).map key).nodup_iff.mpr hkeys
  have hne : (orderBy key rows).Pairwise fun a b => key a ≠ key b := List.pairwise_map.mp hnodup
  unfold orderByDesc
  rw [List.pairwise_reverse]
  exact ((pairwise_orderBy key rows).and hne).imp fun h => lt_of_le_of_ne h.1 h.2

/-- Removing rows before or after ordering them is the same. -/
theorem orderByDesc_filter (key : ρ → κ) {rows : List ρ} (hkeys : (rows.map key).Nodup)
    (p : ρ → Bool) : orderByDesc key (rows.filter p) = (orderByDesc key rows).filter p := by
  have hkeys' : ((rows.filter p).map key).Nodup := hkeys.sublist (List.filter_sublist.map key)
  have hperm : (orderByDesc key (rows.filter p)).Perm ((orderByDesc key rows).filter p) :=
    (perm_orderByDesc key _).trans ((perm_orderByDesc key rows).filter p).symm
  have hleft := pairwise_orderByDesc key hkeys'
  have hright := (pairwise_orderByDesc key hkeys).filter p
  apply hperm.eq_of_pairwise _ hleft hright
  intro a b _ _ hab hba
  exact absurd hab (lt_asymm hba)

/-- The `n` greatest rows, in ascending order. -/
def lastRows (key : ρ → κ) (n : Nat) (rows : List ρ) : List ρ :=
  ((orderByDesc key rows).take n).reverse

/-- One row more, unless there is none. -/
theorem lastRows_succ (key : ρ → κ) (n : Nat) (rows : List ρ) :
    rows.length ≤ n ∧ lastRows key (n + 1) rows = lastRows key n rows ∨
      n < rows.length ∧ ∃ first, lastRows key (n + 1) rows = first :: lastRows key n rows := by
  have hlength : (orderByDesc key rows).length = rows.length :=
    (perm_orderByDesc key rows).length_eq
  unfold lastRows
  rcases Nat.lt_or_ge n rows.length with h | h
  · refine .inr ⟨h, (orderByDesc key rows)[n], ?_⟩
    rw [List.take_succ_eq_append_getElem (by omega), List.reverse_append]
    rfl
  · rw [List.take_of_length_le (by omega), List.take_of_length_le (by omega)]
    exact .inl ⟨h, rfl⟩

/-- The greatest rows after one was appended that the filter removes: it has displaced one of them,
unless as many rows are beyond it. -/
theorem filter_lastRows_append (key : ρ → κ) {rows : List ρ} {u : ρ} {p : ρ → Bool}
    (hu : p u = false) (hrows : ∀ r ∈ rows, p r = true) (n : Nat) :
    (lastRows key (n + 1) (rows ++ [u])).filter p =
      lastRows key (if n < rows.countP fun r => decide (key u < key r) then n + 1 else n) rows := by
  have hmem : ∀ r ∈ orderBy key rows, p r = true := fun r hr =>
    hrows r ((perm_orderBy key rows).mem_iff.mp hr)
  have hcount : (((orderBy key rows).filter fun r => decide (key u < key r)).reverse).length =
      rows.countP fun r => decide (key u < key r) := by
    rw [List.length_reverse, ← List.countP_eq_length_filter, (perm_orderBy key rows).countP_eq]
  unfold lastRows orderByDesc
  rw [orderBy_append_singleton, List.reverse_append, List.reverse_cons, List.append_assoc,
    List.singleton_append, List.filter_reverse, filter_take_split hu, hcount,
    ← List.reverse_append, ← orderBy_split]
  · intro r hr
    exact hmem r (List.mem_of_mem_filter (List.mem_reverse.mp hr))
  · intro r hr
    exact hmem r (List.mem_of_mem_filter (List.mem_reverse.mp hr))

/-- Without its first row, where there is one more than `n`. -/
theorem lastRows_eq_drop (key : ρ → κ) (n : Nat) (rows : List ρ) :
    lastRows key n rows =
      (lastRows key (n + 1) rows).drop ((lastRows key (n + 1) rows).length - n) := by
  have hlength : (orderByDesc key rows).length = rows.length :=
    (perm_orderByDesc key rows).length_eq
  rcases lastRows_succ key n rows with ⟨hshort, hsame⟩ | ⟨hlong, first, hfirst⟩
  · have hall : (lastRows key n rows).length - n = 0 := by
      rw [lastRows, List.length_reverse, List.length_take, Nat.sub_eq_zero_iff_le]
      exact Nat.min_le_left _ _
    rw [hsame, hall, List.drop_zero]
  · have hone : (lastRows key n rows).length = n := by
      rw [lastRows, List.length_reverse, List.length_take, hlength]
      exact Nat.min_eq_left (Nat.le_of_lt hlong)
    rw [hfirst, List.length_cons, hone, Nat.add_sub_cancel_left, List.drop_succ_cons,
      List.drop_zero]

/-- More than `n` rows have a property that rows keep as their key grows exactly when the last
`n + 1` rows have it. -/
theorem lt_countP_lastRows_iff (key : ρ → κ) {p : ρ → Bool}
    (hp : ∀ r s, key r ≤ key s → p r = true → p s = true) (n : Nat) (rows : List ρ) :
    n < (lastRows key (n + 1) rows).countP p ↔ n < rows.countP p := by
  have hsorted := pairwise_orderBy key rows
  obtain ⟨front, hsplit⟩ : ∃ front, orderBy key rows = front ++ lastRows key (n + 1) rows := by
    refine ⟨((orderByDesc key rows).drop (n + 1)).reverse, ?_⟩
    rw [lastRows, ← List.reverse_append, List.take_append_drop, orderByDesc, List.reverse_reverse]
  have hfront : front ≠ [] → (lastRows key (n + 1) rows).length = n + 1 := by
    intro hne
    have hlength := congrArg List.length hsplit
    have hpositive := List.length_pos_iff.mpr hne
    rw [List.length_append, (perm_orderBy key rows).length_eq] at hlength
    rw [lastRows, List.length_reverse, List.length_take, (perm_orderByDesc key rows).length_eq]
      at hlength ⊢
    omega
  rw [← (perm_orderBy key rows).countP_eq, hsplit, List.countP_append]
  rw [hsplit] at hsorted
  constructor
  · intro h
    exact Nat.lt_add_left _ h
  · intro h
    rcases Nat.eq_zero_or_pos (front.countP p) with hnone | hsome
    · rwa [hnone, Nat.zero_add] at h
    · -- A row before the last ones has the property, and so have all of these.
      obtain ⟨r, hr, hpr⟩ := List.countP_pos_iff.mp hsome
      have hall : ∀ s ∈ lastRows key (n + 1) rows, p s = true := fun s hs =>
        hp r s ((List.pairwise_append.mp hsorted).2.2 r hr s hs) hpr
      rw [List.countP_eq_length.mpr hall, hfront (List.ne_nil_of_mem hr)]
      exact Nat.lt_succ_self n

/-- A row is among the first `n` exactly when fewer than `n` rows are above it. -/
theorem mem_take_orderByDesc_iff (key : ρ → κ) {rows : List ρ} (hkeys : (rows.map key).Nodup)
    {r : ρ} (hr : r ∈ rows) (n : Nat) :
    r ∈ (orderByDesc key rows).take n ↔ rows.countP (fun s => decide (key r < key s)) < n := by
  obtain ⟨before, after, hsplit⟩ := List.append_of_mem ((mem_orderByDesc key rows r).mpr hr)
  have hsorted := pairwise_orderByDesc key hkeys
  rw [hsplit] at hsorted
  obtain ⟨-, hafter, hbefore⟩ := List.pairwise_append.mp hsorted
  have habove : ∀ s ∈ before, key r < key s := fun s hs => hbefore s hs r List.mem_cons_self
  have hbelow : ∀ s ∈ r :: after, ¬ key r < key s := by
    intro s hs
    rcases List.mem_cons.mp hs with rfl | hs
    · exact lt_irrefl (key s)
    · exact lt_asymm ((List.pairwise_cons.mp hafter).1 s hs)
  have hcount : rows.countP (fun s => decide (key r < key s)) = before.length := by
    rw [← (perm_orderByDesc key rows).countP_eq, hsplit, List.countP_append,
      List.countP_eq_length.mpr, List.countP_eq_zero.mpr]
    · rfl
    · intro s hs
      simpa using hbelow s hs
    · intro s hs
      simpa using habove s hs
  have hnot : r ∉ before := fun hmem => lt_irrefl (key r) (habove r hmem)
  rw [hsplit, mem_take_split_iff hnot, hcount]

/-- A row is within the limit exactly when fewer rows come before it. -/
theorem mem_window_iff (key : ρ → κ) {rows : List ρ} (hkeys : (rows.map key).Nodup) {r : ρ}
    (hr : r ∈ rows) (limit : Nat) :
    r ∈ window key limit rows ↔ rows.countP (fun s => decide (key s < key r)) < limit := by
  have hperm := perm_orderBy key rows
  obtain ⟨before, after, hsplit⟩ := List.append_of_mem (hperm.mem_iff.mpr hr)
  have hnodup : ((orderBy key rows).map key).Nodup := (hperm.map key).nodup_iff.mpr hkeys
  rw [hsplit, List.map_append, List.nodup_append] at hnodup
  apply mem_window_split_iff hsplit
  intro s hs
  exact hnodup.2.2 (key s) (List.mem_map_of_mem hs) (key r) (by simp)

/-- A search through a listing of readable rows finds what the row of an identifier reads as,
exactly when fewer rows than the limit come before that row. -/
theorem find?_listRows {α ε ι : Type} [DecidableEq ι] (key : ρ → κ) {read : ρ → Except ε α}
    {rowIdent : ρ → ι} {ident : α → ι} (hident : ∀ r v, read r = .ok v → ident v = rowIdent r)
    {rows : List ρ} (hreadable : Readable read rows) (hunique : (rows.map rowIdent).Nodup)
    (hkeys : (rows.map key).Nodup) {r : ρ} (hr : r ∈ rows) {stored : α}
    (hread : read r = .ok stored) (limit : Nat) :
    ∃ values, listRows key read limit rows = .ok values ∧
      values.find? (fun v => ident v == rowIdent r) =
        if rows.countP (fun s => decide (key s < key r)) < limit then some stored else none := by
  obtain ⟨values, hvalues⟩ := (exists_mapM_eq_ok_iff read (window key limit rows)).mpr
    fun s hs => hreadable s (mem_of_mem_window hs)
  have hall := (mapM_eq_ok_iff read _ _).mp hvalues
  -- A listed value under the identifier was read from its row.
  have honly : ∀ v ∈ values, ident v = rowIdent r → r ∈ window key limit rows ∧ v = stored := by
    intro v hv hsame
    obtain ⟨s, hs, hreads⟩ := exists_of_forall₂_right hall hv
    have heq : s = r := List.inj_on_of_nodup_map hunique (mem_of_mem_window hs) hr
      ((hident s v hreads).symm.trans hsame)
    rw [heq] at hs hreads
    rw [hread] at hreads
    exact ⟨hs, (Except.ok.inj hreads).symm⟩
  refine ⟨values, hvalues, ?_⟩
  have hwindow := mem_window_iff key hkeys hr limit
  split
  -- Within the limit the row is listed, and found by its identifier.
  · rename_i hrank
    obtain ⟨v, hv, hreads⟩ := exists_of_forall₂_left hall (hwindow.mpr hrank)
    obtain ⟨found, hfound⟩ : ∃ found,
        values.find? (fun v => ident v == rowIdent r) = some found := by
      apply Option.isSome_iff_exists.mp
      rw [List.find?_isSome]
      exact ⟨v, hv, beq_iff_eq.mpr (hident r v hreads)⟩
    have hsame : ident found = rowIdent r := by simpa using List.find?_some hfound
    rw [hfound, (honly found (List.mem_of_find?_eq_some hfound) hsame).2]
  -- Beyond the limit nothing listed carries its identifier.
  · rename_i hrank
    rw [List.find?_eq_none]
    intro v hv hsame
    exact hrank (hwindow.mp (honly v hv (beq_iff_eq.mp hsame)).1)

/-- Rows that are removed once `n` rows are above them do not change the first `n`. -/
theorem take_orderByDesc_filter (key : ρ → κ) {rows : List ρ} (hkeys : (rows.map key).Nodup)
    (p : ρ → Bool) (n : Nat)
    (h : ∀ r ∈ rows, p r = false → n ≤ rows.countP fun s => decide (key r < key s)) :
    (orderByDesc key (rows.filter p)).take n = (orderByDesc key rows).take n := by
  rw [orderByDesc_filter key hkeys]
  apply take_filter_of_forall
  intro r hr
  have hmem : r ∈ rows := (mem_orderByDesc key rows r).mp (List.mem_of_mem_take hr)
  have hrank := (mem_take_orderByDesc_iff key hkeys hmem n).mp hr
  cases hp : p r with
  | true => rfl
  | false => exact absurd (h r hmem hp) (Nat.not_le_of_lt hrank)

end Sorting

end Halquen.Library.Ranking
