import Mathlib.Data.List.Infix

/-!
# Longest suffixes

The longest suffix of a list that passes a test, found by dropping elements from the front. No
suffix that passes is longer (`suffix_longestSuffix`).
-/

set_option autoImplicit false

namespace Halquen.Library.Suffixes

variable {α : Type} {p : List α → Bool}

/-- Elements are dropped from the front until the rest passes. -/
def longestSuffix (p : List α → Bool) : List α → List α
  | [] => []
  | a :: rest => if p (a :: rest) then a :: rest else longestSuffix p rest

theorem longestSuffix_of_pos {l : List α} (h : p l = true) : longestSuffix p l = l := by
  cases l with
  | nil => rfl
  | cons a rest => exact if_pos h

theorem longestSuffix_cons_of_neg {a : α} {rest : List α} (h : p (a :: rest) = false) :
    longestSuffix p (a :: rest) = longestSuffix p rest := if_neg (by simp [h])

/-- It is a suffix. -/
theorem longestSuffix_suffix (p : List α → Bool) (l : List α) : longestSuffix p l <:+ l := by
  induction l with
  | nil => exact List.suffix_refl []
  | cons a rest ih =>
      cases h : p (a :: rest) with
      | true => rw [longestSuffix_of_pos h]
      | false =>
          rw [longestSuffix_cons_of_neg h]
          exact ih.trans (List.suffix_cons a rest)

/-- It satisfies the predicate, if the empty list does. -/
theorem longestSuffix_spec (hnil : p [] = true) (l : List α) : p (longestSuffix p l) = true := by
  induction l with
  | nil => exact hnil
  | cons a rest ih =>
      cases h : p (a :: rest) with
      | true => rwa [longestSuffix_of_pos h]
      | false => rwa [longestSuffix_cons_of_neg h]

/-- No other suffix that passes is longer. -/
theorem suffix_longestSuffix {l s : List α} (hs : s <:+ l) (hp : p s = true) :
    s <:+ longestSuffix p l := by
  induction l with
  | nil => exact hs
  | cons a rest ih =>
      cases h : p (a :: rest) with
      | true => rwa [longestSuffix_of_pos h]
      | false =>
          rw [longestSuffix_cons_of_neg h]
          rcases List.suffix_cons_iff.mp hs with rfl | hrest
          · rw [h] at hp
            cases hp
          · exact ih hrest

end Halquen.Library.Suffixes
