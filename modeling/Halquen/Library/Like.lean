import Mathlib.Data.List.Infix
import Mathlib.Data.List.TakeWhile

/-!
# Wildcard patterns

The condition `text LIKE pattern ESCAPE escape`. In a pattern, `%` stands for any text and `_` for
any one character; the escape character takes its meaning from the character after it, and nothing
matches a pattern that ends in it. Letters of the first 128 characters match in either case. Both
texts are read up to their first NUL.

A text that has none of the three special characters matches itself only, and between two percent
signs it matches the texts that contain it (`fits_between_iff`).
-/

set_option autoImplicit false

namespace Halquen.Library.Like

/-- What a part of a pattern stands for. -/
inductive Token where
  | char (c : Char) | one | all
  deriving DecidableEq

/-- The text before the first NUL. -/
def beforeNul (text : List Char) : List Char := text.takeWhile (· != Char.ofNat 0)

/-- What a character stands for. -/
def token (c : Char) : Token := if c = '%' then .all else if c = '_' then .one else .char c

/-- The parts of a pattern; there are none if it ends in the escape character. -/
def tokens (escape : Char) : List Char → Option (List Token)
  | [] => some []
  | c :: rest =>
      if c = escape then
        match rest with
        | [] => none
        | d :: rest => (tokens escape rest).map (.char d :: ·)
      else
        (tokens escape rest).map (token c :: ·)

/-- The case of ASCII letters makes no difference. -/
def sameLetter (c d : Char) : Bool := c.toLower == d.toLower

/-- The parts match the whole text. -/
def fits : List Token → List Char → Bool
  | [], text => text.isEmpty
  | .char c :: ts, x :: text => sameLetter c x && fits ts text
  | .char _ :: _, [] => false
  | .one :: ts, _ :: text => fits ts text
  | .one :: _, [] => false
  | .all :: ts, text => text.tails.any fun rest => fits ts rest

/-- `text LIKE pattern ESCAPE escape`. -/
def like (escape : Char) (pattern text : List Char) : Bool :=
  (tokens escape (beforeNul pattern)).any fun ts => fits ts (beforeNul text)

/-- A text contains another one, up to the case of ASCII letters. -/
def Contains (part text : List Char) : Prop := part.map Char.toLower <:+: text.map Char.toLower

instance (part text : List Char) : Decidable (Contains part text) :=
  inferInstanceAs (Decidable (_ <:+: _))

/-! ## Patterns -/

theorem beforeNul_cons {c : Char} (h : c ≠ Char.ofNat 0) (text : List Char) :
    beforeNul (c :: text) = c :: beforeNul text := by
  unfold beforeNul
  rw [List.takeWhile_cons_of_pos (by simpa using h)]

theorem beforeNul_nul (text : List Char) : beforeNul (Char.ofNat 0 :: text) = [] := by
  unfold beforeNul
  rw [List.takeWhile_cons_of_neg (by simp)]

/-- A text without a zero is read to its end. -/
theorem beforeNul_of_notMem {text : List Char} (h : Char.ofNat 0 ∉ text) :
    beforeNul text = text := by
  rw [beforeNul, List.takeWhile_eq_self_iff]
  intro c hc
  rw [bne_iff_ne]
  rintro rfl
  exact h hc

section

variable {escape : Char}

theorem tokens_cons {c : Char} (h : c ≠ escape) (rest : List Char) :
    tokens escape (c :: rest) = (tokens escape rest).map (token c :: ·) := by
  rw [tokens.eq_def]
  exact if_neg h

/-- An escaped character stands for itself. -/
theorem tokens_escape (d : Char) (rest : List Char) :
    tokens escape (escape :: d :: rest) = (tokens escape rest).map (.char d :: ·) := by
  rw [tokens.eq_def]
  exact if_pos rfl

end

/-! ## Parts -/

/-- `%` matches any text. -/
theorem fits_all_iff (ts : List Token) (text : List Char) :
    fits (.all :: ts) text = true ↔ ∃ rest, rest <:+ text ∧ fits ts rest = true := by
  simp only [fits, List.any_eq_true, List.mem_tails]

theorem fits_all_nil (text : List Char) : fits [.all] text = true :=
  (fits_all_iff [] text).mpr ⟨[], List.nil_suffix, rfl⟩

/-- Characters match a text of their length, and what follows them the rest. -/
theorem fits_chars_iff (part : List Char) (ts : List Token) (text : List Char) :
    fits (part.map Token.char ++ ts) text = true ↔ ∃ front back, text = front ++ back ∧
      front.map Char.toLower = part.map Char.toLower ∧ fits ts back = true := by
  induction part generalizing text with
  | nil =>
      constructor
      · intro h
        exact ⟨[], text, rfl, rfl, h⟩
      · rintro ⟨front, back, rfl, hfront, h⟩
        obtain rfl := List.map_eq_nil_iff.mp hfront
        exact h
  | cons c part ih =>
      constructor
      · intro h
        cases text with
        | nil => cases h
        | cons x text =>
            simp only [List.map_cons, List.cons_append, fits, Bool.and_eq_true, sameLetter,
              beq_iff_eq] at h
            obtain ⟨front, back, rfl, hfront, hback⟩ := (ih text).mp h.2
            refine ⟨x :: front, back, rfl, ?_, hback⟩
            rw [List.map_cons, List.map_cons, hfront, h.1]
      · rintro ⟨front, back, rfl, hfront, hback⟩
        cases front with
        | nil => cases hfront
        | cons x front =>
            rw [List.map_cons, List.map_cons, List.cons.injEq] at hfront
            simp only [List.map_cons, List.cons_append, fits, Bool.and_eq_true, sameLetter,
              beq_iff_eq]
            exact ⟨hfront.1.symm, (ih (front ++ back)).mpr ⟨front, back, rfl, hfront.2, hback⟩⟩

/-- Characters between two wildcards match the texts that contain them. -/
theorem fits_between_iff (part text : List Char) :
    fits (.all :: (part.map Token.char ++ [.all])) text = true ↔ Contains part text := by
  rw [fits_all_iff]
  constructor
  · rintro ⟨rest, ⟨before, rfl⟩, h⟩
    obtain ⟨front, back, rfl, hfront, -⟩ := (fits_chars_iff part [.all] rest).mp h
    refine ⟨before.map Char.toLower, back.map Char.toLower, ?_⟩
    rw [← hfront, List.map_append, List.map_append, List.append_assoc]
  · rintro ⟨before, after, h⟩
    obtain ⟨front, back, rfl, hfront, -⟩ := List.map_eq_append_iff.mp h.symm
    obtain ⟨before', part', rfl, -, hpart⟩ := List.map_eq_append_iff.mp hfront
    refine ⟨part' ++ back, ⟨before', by rw [List.append_assoc]⟩, ?_⟩
    rw [fits_chars_iff]
    exact ⟨part', back, rfl, hpart, fits_all_nil back⟩

end Halquen.Library.Like
