import Mathlib.Data.Countable.Basic
import Mathlib.Data.List.Basic
import Mathlib.Logic.Equiv.List

/-!
# Text codecs

A codec writes values as text and reads text back. It is lawful if reading inverts writing, and
then different values have different texts (`Codec.Lawful.injective`). Enumerations are written as
fixed words and read by looking the word up (`parseVariant_encode`).

A lawful codec with prescribed texts for finitely many values of a countable type exists:
`Codec.tabulated`.
-/

set_option autoImplicit false

namespace Halquen.Library.TextCodec

/-- A way to write values as texts and to read them. -/
structure Codec (α : Type) where
  toText : α → String
  fromText : String → Option α

/-- Reading inverts writing. -/
def Codec.Lawful {α : Type} (codec : Codec α) : Prop :=
  ∀ a, codec.fromText (codec.toText a) = some a

/-- What can be read back is written differently. -/
theorem Codec.Lawful.injective {α : Type} {codec : Codec α} (h : codec.Lawful) :
    Function.Injective codec.toText := by
  intro a b hab
  have ha := h a
  rw [hab, h b] at ha
  exact (Option.some.inj ha).symm

/-- Writes and reads the values of a list, and no others. -/
def Codec.listed {α : Type} [DecidableEq α] (table : List (α × String)) : Codec α where
  toText a := ((table.find? fun entry => entry.1 = a).map Prod.snd).getD ""
  fromText text := (table.find? fun entry => entry.2 = text).map Prod.fst

/-! ## Enumerations -/

/-- What reads back is compared by its text. -/
theorem beq_encode {α : Type} [DecidableEq α] {encode : α → String} {parse : String → Option α}
    (h : ∀ a, parse (encode a) = some a) (a b : α) : (encode a == encode b) = (a == b) := by
  have hinj : encode a = encode b ↔ a = b := by
    constructor
    · intro heq
      have ha := h a
      rw [heq, h b] at ha
      exact (Option.some.inj ha).symm
    · intro heq
      rw [heq]
  rw [Bool.eq_iff_iff, beq_iff_eq, beq_iff_eq, hinj]

section Enumerations

variable {α : Type}

/-- Reads a word of an enumeration. -/
def parseVariant (variants : List α) (encode : α → String) (text : String) : Option α :=
  variants.find? fun v => encode v == text

/-- A variant is read back from its text. -/
theorem parseVariant_encode {variants : List α} {encode : α → String}
    (hinj : Function.Injective encode) {a : α} (ha : a ∈ variants) :
    parseVariant variants encode (encode a) = some a := by
  unfold parseVariant
  cases hfind : variants.find? fun v => encode v == encode a with
  | none =>
      rw [List.find?_eq_none] at hfind
      exact absurd (beq_self_eq_true (encode a)) (hfind a ha)
  | some b =>
      have hb := List.find?_some hfind
      rw [beq_iff_eq] at hb
      rw [hinj hb]

/-- A word that reads as a variant is the word of that variant. -/
theorem encode_of_parseVariant {variants : List α} {encode : α → String} {text : String} {a : α}
    (h : parseVariant variants encode text = some a) : encode a = text := by
  have hfound := List.find?_some h
  exact beq_iff_eq.mp hfound

end Enumerations

/-! ## Codecs with prescribed texts -/

instance countableChar : Countable Char :=
  (show Function.Injective Char.toNat from fun _ _ h => Char.toNat_inj.mp h).countable

instance countableString : Countable String :=
  (show Function.Injective String.toList from fun _ _ h => String.toList_inj.mp h).countable

section Tabulated

variable {α : Type} [DecidableEq α] [Countable α]

/-- Number of a value, in some numbering of the type. -/
noncomputable def number : α → Nat := (Countable.exists_injective_nat α).choose

omit [DecidableEq α] in
theorem number_injective : Function.Injective (number : α → Nat) :=
  (Countable.exists_injective_nat α).choose_spec

/-- Text of a value: the one in the table, or its number after a mark that no text of the table
starts with. -/
noncomputable def tableText (table : List (α × String)) (a : α) : String :=
  match table.find? fun e => e.1 = a with
  | some e => e.2
  | none => "#" ++ (number a).repr

/-- Value with a text: the one in the table, or the value with that number, if there is one. -/
noncomputable def tableValue (table : List (α × String)) (text : String) : Option α :=
  match table.find? fun e => e.2 = text with
  | some e => some e.1
  | none => by
      classical
      exact if h : ∃ a : α, "#" ++ (number a).repr = text then some h.choose else none

/-- The codec with the texts of a table. -/
noncomputable def Codec.tabulated (table : List (α × String)) : Codec α :=
  ⟨tableText table, tableValue table⟩

/-- The table gives one text to each of its values, and the texts do not look like numbers. -/
structure ProperTable (table : List (α × String)) : Prop where
  texts : ∀ e ∈ table, ∀ f ∈ table, e.2 = f.2 → e = f
  unmarked : ∀ e ∈ table, e.2.toList.head? ≠ some '#'

/-- A table without repetitions reads what it writes. -/
theorem Codec.tabulated_lawful {table : List (α × String)} (h : ProperTable table) :
    (Codec.tabulated table).Lawful := by
  intro a
  show tableValue table (tableText table a) = some a
  unfold tableText
  cases hfind : table.find? fun e => e.1 = a with
  -- A value of the table is read back from its text, which stands there once.
  | some e =>
      have he : e.1 = a := by simpa using List.find?_some hfind
      have hmem : e ∈ table := List.mem_of_find?_eq_some hfind
      unfold tableValue
      cases hback : table.find? fun f => f.2 = e.2 with
      | none =>
          rw [List.find?_eq_none] at hback
          exact absurd (decide_eq_true rfl) (hback e hmem)
      | some f =>
          have hf : f.2 = e.2 := by simpa using List.find?_some hback
          have hfe : f = e := h.texts f (List.mem_of_find?_eq_some hback) e hmem hf
          simp [hfe, he]
  -- Any other value is written by its number, which no text of the table looks like.
  | none =>
      unfold tableValue
      cases hback : table.find? fun f => f.2 = "#" ++ (number a).repr with
      | some f =>
          have hf : f.2 = "#" ++ (number a).repr := by simpa using List.find?_some hback
          exact absurd (by simp [hf]) (h.unmarked f (List.mem_of_find?_eq_some hback))
      | none =>
          have hex : ∃ b : α, "#" ++ (number b).repr = "#" ++ (number a).repr := ⟨a, rfl⟩
          have hdigits : Nat.toDigits 10 (number hex.choose) = Nat.toDigits 10 (number a) := by
            simpa using congrArg String.toList hex.choose_spec
          have hnumber : number hex.choose = number a := by
            simpa using congrArg (fun digits => Nat.ofDigitChars 10 digits 0) hdigits
          have hchoose : hex.choose = a := number_injective hnumber
          simp only [dif_pos hex, hchoose]

end Tabulated

end Halquen.Library.TextCodec
