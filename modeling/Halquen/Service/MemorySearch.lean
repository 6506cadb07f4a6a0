import Halquen.Service.State
import Halquen.Storage.MemoryListing

/-!
# Searching the memory

A search text is meant literally, up to the case of letters. The pattern that is made of it keeps
two other special characters: an underscore stands for any character, and a backslash takes its
meaning from the character after it (`reading`). The listing is what the search asks for exactly if
the items that it comes to are read alike both ways (`list_memory_iff`), as they all are when the
text has none of these characters.
-/

set_option autoImplicit false

namespace Halquen.Service.MemorySearch

open Halquen.Domain.Ids Halquen.Memory.Semantic
open Halquen.Library.Like Halquen.Library.Ranking Halquen.Library.Sql
open Halquen.Service.State (Failure validation)
open Halquen.Storage.Memory Halquen.Storage.MemoryListing

/-! ## The request -/

/-- What a client searches for. -/
structure MemoryQuery where
  kind : Option MemoryKind
  search : Option String
  limit : Nat

section

variable (encode : MemoryValue → String)

/-- `list_memory` of the service. -/
def listMemory (t : MemoryTables) (query : MemoryQuery) : Except Failure (List MemoryView) :=
  if query.search.any fun value => decide (512 < value.utf8ByteSize) then
    .error (validation "memory search is too long")
  else
    .ok (Storage.MemoryListing.listMemory encode t query.kind query.search query.limit)

/-! ## What the search asks for -/

/-- The value or the identifier of an item contains the text. -/
def Mentions (value : String) (view : MemoryView) : Prop :=
  Contains value.toList (encode view.current.value).toList ∨
    Contains value.toList view.item.id.asStr.toList

instance (value : String) (view : MemoryView) : Decidable (Mentions encode value view) :=
  inferInstanceAs (Decidable (_ ∨ _))

/-- The items of a kind, in the order of the listing. -/
def itemsOfKind (t : MemoryTables) (kind : Option MemoryKind) : List MemoryView :=
  (orderBy memoryKey (t.items.filterMap (memoryView t))).filter fun view =>
    kind.all fun kind => view.item.kind == kind

/-- The items that mention the search text, up to the limit. -/
def requested (t : MemoryTables) (query : MemoryQuery) : List MemoryView :=
  ((itemsOfKind t query.kind).filter fun view =>
    query.search.all fun value => decide (Mentions encode value view)).take
      (min 500 (max 1 query.limit))

/-! ## What the pattern stands for -/

/-- How the pattern reads a search text: a backslash before a character is that character, before a
percent sign it is a backslash and the percent sign a wildcard, and at the end it is the percent
sign that should close the pattern. A NUL ends the pattern. -/
def reading : List Char → Option (List Token)
  | [] => some [.all]
  | c :: rest =>
      if c = Char.ofNat 0 then
        some []
      else if c = '\\' then
        match rest with
        | [] => some [.char '%']
        | d :: rest =>
            if d = Char.ofNat 0 then none
            else if d = '%' then (reading rest).map fun ts => .char '\\' :: .all :: ts
            else (reading rest).map (.char d :: ·)
      else if c = '%' then
        (reading rest).map (.char '%' :: ·)
      else
        (reading rest).map (token c :: ·)

/-- A text is described by the reading of a search text. -/
def described (value text : List Char) : Bool :=
  (reading value).any fun ts => fits (.all :: ts) (beforeNul text)

/-- The value or the identifier of an item is described by the reading of the text. -/
def describes (value : String) (view : MemoryView) : Bool :=
  described value.toList (encode view.current.value).toList ||
    described value.toList view.item.id.asStr.toList

/-- As far as the listing goes, the items that the search text describes are those that mention
it. -/
def ReadAsWritten (t : MemoryTables) (query : MemoryQuery) : Prop :=
  ∀ value, query.search = some value → ∀ before view after,
    itemsOfKind t query.kind = before ++ view :: after →
    (before.filter fun view => decide (Mentions encode value view)).length <
      min 500 (max 1 query.limit) →
    (describes encode value view = true ↔ Mentions encode value view)

end

/-- Search texts without the special characters that are not escaped. -/
def Plain (value : String) : Prop := ∀ c ∈ value.toList, c ≠ '_' ∧ c ≠ '\\' ∧ c ≠ Char.ofNat 0

/-! ## The pattern -/

/-- The search text with its percent signs escaped. -/
def escaped (value : List Char) : List Char :=
  value.flatMap fun c => if c = '%' then ['\\', '%'] else [c]

theorem escaped_cons {c : Char} (h : c ≠ '%') (value : List Char) :
    escaped (c :: value) = c :: escaped value := by
  unfold escaped
  rw [List.flatMap_cons, if_neg h]
  rfl

theorem escaped_percent (value : List Char) :
    escaped ('%' :: value) = '\\' :: '%' :: escaped value := by
  unfold escaped
  rw [List.flatMap_cons, if_pos rfl]
  rfl

theorem reading_cons {c : Char} (hnul : c ≠ Char.ofNat 0) (hslash : c ≠ '\\') (hpercent : c ≠ '%')
    (rest : List Char) : reading (c :: rest) = (reading rest).map (token c :: ·) := by
  rw [reading.eq_def]
  dsimp only
  rw [if_neg hnul, if_neg hslash, if_neg hpercent]

theorem reading_percent (rest : List Char) :
    reading ('%' :: rest) = (reading rest).map (.char '%' :: ·) := by
  rw [reading.eq_def]
  rfl

theorem reading_escape {d : Char} (hnul : d ≠ Char.ofNat 0) (hpercent : d ≠ '%')
    (rest : List Char) : reading ('\\' :: d :: rest) = (reading rest).map (.char d :: ·) := by
  rw [reading.eq_def]
  dsimp only
  rw [if_neg (by decide), if_pos rfl, if_neg hnul, if_neg hpercent]

theorem reading_escape_percent (rest : List Char) :
    reading ('\\' :: '%' :: rest) = (reading rest).map fun ts => .char '\\' :: .all :: ts := by
  rw [reading.eq_def]
  rfl

theorem tokens_escaped (value : List Char) :
    tokens '\\' (beforeNul (escaped value ++ ['%'])) = reading value := by
  have hbackslash : '\\' ≠ Char.ofNat 0 := by decide
  have hpercent : '%' ≠ Char.ofNat 0 := by decide
  induction value using reading.induct with
  -- The cases of `reading`: a text ends at its first NUL, and a backslash takes the next character.
  | case1 => rfl
  | case2 rest =>
      rw [escaped_cons hpercent.symm, List.cons_append, beforeNul_nul, reading.eq_def]
      rfl
  | case3 => rfl
  | case4 rest =>
      rw [escaped_cons (by decide), escaped_cons hpercent.symm, List.cons_append, List.cons_append,
        beforeNul_cons hbackslash, beforeNul_nul]
      rfl
  | case5 rest _ _ ih =>
      -- The backslash escapes the one that was put before the percent sign.
      rw [escaped_cons (by decide), escaped_percent, List.cons_append, List.cons_append,
        List.cons_append, beforeNul_cons hbackslash, beforeNul_cons hbackslash,
        beforeNul_cons hpercent, tokens_escape, tokens_cons (by decide), ih,
        reading_escape_percent, Option.map_map]
      rfl
  | case6 d rest hd hpct _ ih =>
      rw [escaped_cons (by decide), escaped_cons hpct, List.cons_append, List.cons_append,
        beforeNul_cons hbackslash, beforeNul_cons hd, tokens_escape, ih, reading_escape hd hpct]
  | case7 rest _ _ ih =>
      rw [escaped_percent, List.cons_append, List.cons_append, beforeNul_cons hbackslash,
        beforeNul_cons hpercent, tokens_escape, ih, reading_percent]
  | case8 d rest hd hslash hpct ih =>
      rw [escaped_cons hpct, List.cons_append, beforeNul_cons hd, tokens_cons hslash, ih,
        reading_cons hd hslash hpct]

/-- The pattern matches what the reading of the search text describes. -/
theorem like_searchPattern (value text : List Char) :
    like '\\' (searchPattern value) text = described value text := by
  have htokens : tokens '\\' (beforeNul (searchPattern value)) =
      (reading value).map (.all :: ·) := by
    change tokens '\\' (beforeNul ('%' :: (escaped value ++ ['%']))) = _
    rw [beforeNul_cons (by decide), tokens_cons (by decide), tokens_escaped]
    rfl
  unfold like described
  rw [htokens, Option.any_map]

theorem found_searchPattern (encode : MemoryValue → String) (value : String) (view : MemoryView) :
    found encode (searchPattern value.toList) view = describes encode value view := by
  unfold found describes
  rw [like_searchPattern, like_searchPattern]

/-- A search text without special characters is read as it is written. -/
theorem reading_of_plain {value : List Char}
    (h : ∀ c ∈ value, c ≠ '_' ∧ c ≠ '\\' ∧ c ≠ Char.ofNat 0) :
    reading value = some (value.map Token.char ++ [.all]) := by
  induction value with
  | nil => rfl
  | cons c value ih =>
      obtain ⟨hunderscore, hslash, hnul⟩ := h c List.mem_cons_self
      have hrest := ih fun d hd => h d (List.mem_cons_of_mem c hd)
      by_cases hpercent : c = '%'
      · rw [hpercent, reading_percent, hrest]
        rfl
      · rw [reading_cons hnul hslash hpercent, hrest, token, if_neg hpercent, if_neg hunderscore]
        rfl

theorem described_of_plain {value text : List Char}
    (h : ∀ c ∈ value, c ≠ '_' ∧ c ≠ '\\' ∧ c ≠ Char.ofNat 0) (htext : Char.ofNat 0 ∉ text) :
    described value text = true ↔ Contains value text := by
  unfold described
  rw [reading_of_plain h, beforeNul_of_notMem htext]
  exact fits_between_iff value text

/-- No identifier contains a NUL. -/
theorem nul_notMem_id (id : MemoryId) : Char.ofNat 0 ∉ id.asStr.toList := by
  obtain ⟨-, -, hopaque⟩ := (validateOpaque_eq_ok_iff id.asStr).mp id.valid
  intro hmem
  exact absurd (List.all_eq_true.mp hopaque _ hmem) (by decide)

/-! ## The listing -/

section

variable (encode : MemoryValue → String)

/-- The listing has the items that the search text describes, up to the limit. -/
theorem listMemory_eq (t : MemoryTables) (query : MemoryQuery)
    (haccepted : ∀ value, query.search = some value → value.utf8ByteSize ≤ 512) :
    listMemory encode t query = .ok (((itemsOfKind t query.kind).filter fun view =>
      query.search.all fun value => describes encode value view).take
        (min 500 (max 1 query.limit))) := by
  have hlength : (query.search.any fun value => decide (512 < value.utf8ByteSize)) = false := by
    cases hsearch : query.search with
    | none => rfl
    | some value => exact decide_eq_false (Nat.not_lt.mpr (haccepted value hsearch))
  have hselected : ∀ view, (query.search.map fun value => searchPattern value.toList).all
      (fun pattern => found encode pattern view) =
        query.search.all fun value => describes encode value view := by
    intro view
    cases query.search with
    | none => rfl
    | some value => exact found_searchPattern encode value view
  unfold listMemory Storage.MemoryListing.listMemory itemsOfKind
  rw [if_neg (by simp [hlength])]
  simp only [hselected]
  rw [orderBy_filter, List.filter_filter]
  congr 3
  funext view
  rw [Bool.and_comm]

/-- A search text without special characters is read as it is written, whatever is stored: neither
the values nor the identifiers contain a NUL. -/
theorem readAsWritten_of_plain (hencode : ∀ value, Char.ofNat 0 ∉ (encode value).toList)
    (t : MemoryTables) (query : MemoryQuery)
    (hplain : ∀ value, query.search = some value → Plain value) :
    ReadAsWritten encode t query := by
  intro value hsearch before view after _ _
  have hvalue := described_of_plain (hplain value hsearch) (hencode view.current.value)
  have hid := described_of_plain (hplain value hsearch) (nul_notMem_id view.item.id)
  unfold describes Mentions
  rw [Bool.or_eq_true, hvalue, hid]

/-- The service lists what the search asks for exactly if the items that the listing comes to are
read alike by the pattern and by the text; they are if the text has no special characters. -/
theorem list_memory_iff (hencode : ∀ value, Char.ofNat 0 ∉ (encode value).toList)
    (t : MemoryTables) (query : MemoryQuery)
    (haccepted : ∀ value, query.search = some value → value.utf8ByteSize ≤ 512) :
    (listMemory encode t query = .ok (requested encode t query) ↔ ReadAsWritten encode t query) ∧
      ((∀ value, query.search = some value → Plain value) → ReadAsWritten encode t query) := by
  refine ⟨?_, readAsWritten_of_plain encode hencode t query⟩
  rw [listMemory_eq encode t query haccepted, Except.ok.injEq]
  unfold requested ReadAsWritten
  cases hsearch : query.search with
  | none =>
      refine iff_of_true rfl ?_
      intro value h
      cases h
  | some value =>
      simp only [Option.all_some, Option.some.injEq, forall_eq']
      rw [take_filter_eq_iff]
      constructor
      · intro h before view after heq hcount
        rw [h before view after heq hcount, decide_eq_true_eq]
      · intro h before view after heq hcount
        rw [Bool.eq_iff_iff, decide_eq_true_eq]
        exact h before view after heq hcount

end

/-! ## An underscore -/

/-- A preference whose texts need no escapes, as it is stored. -/
def preferenceText : MemoryValue → String
  | .preference key value => "\x7b\"kind\":\"preference\",\"key\":\"" ++ key ++ "\",\"value\":\""
      ++ value ++ "\"\x7d"
  | _ => ""

/-- The JSON text of a preference, as the search reads it. -/
def preferenceJson (value : MemoryValue) : String :=
  String.ofList (beforeNul (preferenceText value).toList)

theorem nul_notMem_preferenceJson (value : MemoryValue) :
    Char.ofNat 0 ∉ (preferenceJson value).toList := by
  rw [preferenceJson, String.toList_ofList]
  intro hmem
  have hselected := List.mem_takeWhile_imp hmem
  rw [bne_self_eq_false] at hselected
  cases hselected

/-- An item. -/
def projectItem : MemoryId := .generate .memory ⟨0, 0, 0⟩

/-- Its revision. -/
def projectRevision : MemoryRevisionId := .generate .memoryRevision ⟨0, 0, 0⟩

/-- A memory with one preference, whose value is written with a dash. -/
def dashed : MemoryTables where
  items := [⟨projectItem, .semantic, some projectRevision, 1, 1, 500, 1000, false, false, none⟩]
  revisions := [⟨projectRevision, projectItem, none, .preference "project" "snake-case", 1, some 1,
    none⟩]
  evidence := [⟨.generate .evidence ⟨0, 0, 0⟩, .userExplicit, none, 1⟩]
  links := [⟨projectRevision, .generate .evidence ⟨0, 0, 0⟩⟩]

/-- A search for the value in capitals finds it. -/
theorem list_memory_dash :
    listMemory preferenceJson dashed ⟨none, some "SNAKE-CASE", 10⟩ =
      .ok (requested preferenceJson dashed ⟨none, some "SNAKE-CASE", 10⟩) := by
  have haccepted : ∀ value, (some "SNAKE-CASE" : Option String) = some value →
      value.utf8ByteSize ≤ 512 := by
    rintro _ ⟨⟩
    decide
  have hplain : ∀ value, (some "SNAKE-CASE" : Option String) = some value → Plain value := by
    rintro _ ⟨⟩
    unfold Plain
    simp
  have h := list_memory_iff preferenceJson nul_notMem_preferenceJson dashed
    ⟨none, some "SNAKE-CASE", 10⟩ haccepted
  exact h.1.mpr (h.2 hplain)

/-- A search with an underscore finds it as well, although it does not contain the text. -/
theorem list_memory_underscore :
    listMemory preferenceJson dashed ⟨none, some "snake_case", 10⟩ ≠
      .ok (requested preferenceJson dashed ⟨none, some "snake_case", 10⟩) := by
  decide +kernel

end Halquen.Service.MemorySearch
