import Mathlib.Data.List.Basic

/-!
# Words of a text

A text is cut into words at a class of characters. Words are not empty and have no such character
(`mem_words`), and words that are put together with one of these characters between them are found
again (`words_intercalate`).
-/

set_option autoImplicit false

namespace Halquen.Library.Words

variable {α : Type} {space : α → Bool}

/-- The nonempty pieces between the separators. -/
def words (space : α → Bool) (text : List α) : List (List α) :=
  (text.splitOnP space).filter fun word => !word.isEmpty

/-- Words have no characters that the text has not. -/
theorem mem_of_mem_splitOnP {text word : List α} {c : α}
    (hword : word ∈ text.splitOnP space) (hc : c ∈ word) : c ∈ text := by
  induction text generalizing word with
  | nil =>
      rw [List.splitOnP_nil, List.mem_singleton] at hword
      rwa [hword] at hc
  | cons d text ih =>
      rw [List.splitOnP_cons_eq_if_modifyHead] at hword
      obtain ⟨first, words, hsplit⟩ :=
        List.exists_cons_of_ne_nil (List.splitOnP_ne_nil space text)
      split at hword
      · rcases List.mem_cons.mp hword with rfl | hword
        · cases hc
        · exact List.mem_cons_of_mem d (ih hword hc)
      · rw [hsplit, List.modifyHead_cons] at hword
        rcases List.mem_cons.mp hword with rfl | hword
        · rcases List.mem_cons.mp hc with rfl | hc
          · exact List.mem_cons_self
          · exact List.mem_cons_of_mem d (ih (by rw [hsplit]; exact List.mem_cons_self) hc)
        · exact List.mem_cons_of_mem d (ih (by rw [hsplit]; exact List.mem_cons_of_mem _ hword) hc)

/-- Words have no blanks. -/
theorem not_space_of_mem_splitOnP {text piece : List α} (h : piece ∈ text.splitOnP space) :
    ∀ c ∈ piece, space c = false := by
  induction text generalizing piece with
  | nil =>
      rw [List.splitOnP_nil, List.mem_singleton] at h
      rw [h]
      exact fun c hc => absurd hc List.not_mem_nil
  | cons d text ih =>
      rw [List.splitOnP_cons_eq_if_modifyHead] at h
      obtain ⟨first, rest, hsplit⟩ :=
        List.exists_cons_of_ne_nil (List.splitOnP_ne_nil space text)
      split at h
      · rcases List.mem_cons.mp h with rfl | hrest
        · exact fun c hc => absurd hc List.not_mem_nil
        · exact ih hrest
      · rename_i hd
        rw [hsplit, List.modifyHead_cons] at h
        rcases List.mem_cons.mp h with rfl | hrest
        · intro c hc
          rcases List.mem_cons.mp hc with rfl | hc
          · simpa using hd
          · exact ih (by rw [hsplit]; exact List.mem_cons_self) c hc
        · exact ih (by rw [hsplit]; exact List.mem_cons_of_mem _ hrest)

/-- A word is not empty and has no separator. -/
def IsWord (space : α → Bool) (word : List α) : Prop := word ≠ [] ∧ ∀ c ∈ word, space c = false

/-- What is split off is a word. -/
theorem mem_words {text word : List α} (h : word ∈ words space text) : IsWord space word := by
  obtain ⟨hpiece, hne⟩ := List.mem_filter.mp h
  exact ⟨by simpa using hne, not_space_of_mem_splitOnP hpiece⟩

/-- A word is split into itself. -/
theorem words_singleton {word : List α} (h : IsWord space word) : words space word = [word] := by
  rw [words, List.splitOnP_eq_singleton h.2, List.filter_cons_of_pos (by simpa using h.1),
    List.filter_nil]

/-- The first word is split off at a blank. -/
theorem words_append_cons {word : List α} (h : IsWord space word) {sep : α}
    (hsep : space sep = true) (text : List α) :
    words space (word ++ sep :: text) = word :: words space text := by
  rw [words, List.splitOnP_append_cons_of_forall_mem h.2 sep hsep,
    List.filter_cons_of_pos (by simpa using h.1)]
  rfl

/-- Joined words are found again. -/
theorem words_intercalate {sep : α} (hsep : space sep = true) {pieces : List (List α)}
    (h : ∀ word ∈ pieces, IsWord space word) :
    words space ([sep].intercalate pieces) = pieces := by
  induction pieces with
  | nil => rfl
  | cons word rest ih =>
      have hword := h word List.mem_cons_self
      have hrest := ih fun other hother => h other (List.mem_cons_of_mem _ hother)
      cases rest with
      | nil => rw [List.intercalate_singleton, words_singleton hword]
      | cons next rest =>
          rw [List.intercalate_cons_cons, List.append_assoc, List.singleton_append,
            words_append_cons hword hsep, hrest]

end Halquen.Library.Words
