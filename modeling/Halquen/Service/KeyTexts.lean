import Halquen.Service.TextCuts

/-!
# Texts of keys

A preference is remembered under a key that is taken from the message as it was written. A message
that opens an application or forgets a preference is read in lower case, and its key is cleaned once
more: the key `K` is read back from `open K` and from `forget K` as what cleaning leaves of the
lower case of `K` (`resolveLocal_open`, `resolveLocal_forget`).
-/

set_option autoImplicit false

namespace Halquen.Service.KeyTexts

open Halquen.Domain.Ids Halquen.Domain.Capability
open Halquen.Service.ChatParser Halquen.Service.TextCuts

/-- A lower-case word of the Latin alphabet. -/
def IsWord (word : List Char) : Prop := ∀ c ∈ word, c.isLower = true

instance (word : List Char) : Decidable (IsWord word) :=
  decidable_of_iff (word.all Char.isLower = true) List.all_eq_true

/-- What the Unicode tables say about lower-case words of the Latin alphabet: such a word is its own
lower case and consists of letters, and the lower case of the text behind the space that ends it
does not depend on it. -/
structure ReadsWords (tables : TextTables) : Prop where
  lower : ∀ word text : List Char, IsWord word →
    tables.toLowercase (word ++ ' ' :: text) = word ++ ' ' :: tables.toLowercase text
  letters : ∀ c : Char, c.isLower = true → tables.isAlphanumeric c = true

/-! ## Trimming -/

theorem trimmed_append {class_ : Char → Bool} (first : Char) (front : List Char) {text : List Char}
    (hfirst : class_ first = false) (h : Trimmed class_ text) (hne : text ≠ []) :
    Trimmed class_ (first :: front ++ text) := by
  constructor
  · intro c hc
    cases hc
    exact hfirst
  · intro c hc
    rw [List.getLast?_append_of_ne_nil _ hne] at hc
    exact h.last c hc

/-- The end of a sentence is not looked for in front of a space. -/
theorem trimEndMatches_append_space (front text : List Char) :
    trimEndMatches isSentenceEnd (front ++ ' ' :: text) =
      front ++ ' ' :: trimEndMatches isSentenceEnd text := by
  have hsplit : (front ++ ' ' :: text).reverse = text.reverse ++ ' ' :: front.reverse := by simp
  unfold trimEndMatches
  rw [hsplit]
  induction text.reverse with
  | nil => simp [isSentenceEnd]
  | cons c rest ih =>
      cases hend : isSentenceEnd c with
      | true =>
          simp only [List.cons_append, List.dropWhile_cons_of_pos hend]
          exact ih
      | false =>
          have hkeep : ¬ isSentenceEnd c = true := by simp [hend]
          simp [List.dropWhile_cons_of_neg hkeep]

/-- What cleaning leaves of a text is not empty and has no white space at its ends. -/
theorem of_cleanFragment {text fragment : List Char} (h : cleanFragment text = some fragment) :
    fragment ≠ [] ∧ Trimmed isWhiteSpace fragment := by
  unfold cleanFragment at h
  simp only at h
  split at h
  · rename_i hcond
    cases h
    rw [Bool.and_eq_true, Bool.not_eq_true', List.isEmpty_eq_false_iff] at hcond
    exact ⟨hcond.1, trimmed_trimMatches _ _⟩
  · cases h

/-! ## Keys that are remembered -/

section

variable {tables : TextTables}

/-- What is found, if anything, is a preference with a cleaned key. -/
def Cleaned (result : Option (Option LocalIntent)) : Prop :=
  ∀ intent, result = some (some intent) → ∃ key value text,
    intent = .rememberPreference key value ∧ cleanFragment text = some key.toList

theorem cleaned_preferenceOf (before after : List Char) :
    Cleaned (some (preferenceOf before after)) := by
  intro intent hresult
  have hintent := Option.some.inj hresult
  have hshape : ∃ key value, intent = .rememberPreference key value := by
    unfold preferenceOf at hintent
    simp only [bind, Option.bind_eq_some_iff] at hintent
    obtain ⟨key, -, value, -, hpreference⟩ := hintent
    unfold preference at hpreference
    split at hpreference
    · cases hpreference
    · cases hpreference
      exact ⟨_, _, rfl⟩
  obtain ⟨key, value, rfl⟩ := hshape
  exact ⟨key, value, before, rfl, (of_preferenceOf hintent).1⟩

theorem cleaned_parseSeparated {remainder : List Char} {separators : List String}
    {result : Option (Option LocalIntent)}
    (h : parseSeparated tables remainder separators = some result) : Cleaned result := by
  cases hfirst : firstSeparator (tables.toLowercase remainder) separators with
  | none =>
      rw [parseSeparated_none hfirst] at h
      cases h
      intro intent hresult
      cases hresult
  | some found =>
      rw [parseSeparated_some hfirst, Option.bind_eq_some_iff] at h
      obtain ⟨before, -, hrest⟩ := h
      split at hrest
      · cases hrest
        intro intent hresult
        cases hresult
      · obtain ⟨after, -, hpreference⟩ := Option.map_eq_some_iff.mp hrest
        cases hpreference
        exact cleaned_preferenceOf _ _

theorem cleaned_parsePrefixed {text : List Char} {separators starts : List String}
    {result : Option (Option LocalIntent)}
    (h : parsePrefixed tables text separators starts = some result) : Cleaned result := by
  induction starts generalizing result with
  | nil =>
      cases h
      intro intent hresult
      cases hresult
  | cons start starts ih =>
      unfold parsePrefixed at h
      split at h
      · simp only [bind, Option.bind_eq_some_iff] at h
        obtain ⟨parts, -, found, hfound, hrest⟩ := h
        cases found with
        | some intent =>
            cases hrest
            exact cleaned_parseSeparated hfound
        | none => exact ih hrest
      · exact ih h

theorem cleaned_parseRemember {message : List Char} {result : Option LocalIntent}
    (h : parseRemember tables message = some result) : Cleaned (some result) := by
  simp only [parseRemember, bind, Option.bind_eq_some_iff] at h
  obtain ⟨found, hfound, hrest⟩ := h
  cases found with
  | some intent =>
      cases hrest
      exact cleaned_parsePrefixed hfound
  | none =>
      simp only [Option.bind_eq_some_iff] at hrest
      obtain ⟨found', hfound', hjoin⟩ := hrest
      cases hjoin
      intro intent hresult
      rw [Option.some.injEq, Option.join_eq_some_iff] at hresult
      exact cleaned_parsePrefixed hfound' intent hresult

/-- The key of a preference that a message tells to remember is a cleaned text. -/
theorem cleaned_resolveLocal {message : List Char} {key value : String}
    (h : resolveLocal tables message = some (some (.rememberPreference key value))) :
    ∃ text, cleanFragment text = some key.toList := by
  simp only [resolveLocal] at h
  split at h
  · rename_i intent hearlier
    cases h
    exact absurd hearlier earlier_ne
  · simp only [bind, Option.bind_eq_some_iff] at h
    obtain ⟨remembered, hremembered, hrest⟩ := h
    cases remembered with
    | some intent =>
        cases hrest
        obtain ⟨_, _, text, heq, hclean⟩ := cleaned_parseRemember hremembered _ rfl
        cases heq
        exact ⟨text, hclean⟩
    | none => exact absurd (Option.some.inj hrest) parseForget_ne

/-! ## Keys that are read back -/

/-- Only one of the parsers opens the application that a message names. -/
theorem parseOpenApp_of_resolveLocal {message : List Char} {name : String} {entity : EntityId}
    (h : resolveLocal tables message = some (some (.openApp name entity))) :
    parseOpenApp tables (trim message) = some (.openApp name entity) := by
  simp only [resolveLocal] at h
  split at h
  · rename_i intent hearlier
    cases h
    rw [Option.or_eq_some_iff, Option.or_eq_some_iff] at hearlier
    rcases hearlier with (hcorrection | ⟨-, hcontextual⟩) | ⟨-, hopen⟩
    · simp only [parseCorrection, bind, Option.bind_eq_some_iff] at hcorrection
      obtain ⟨_, -, _, -, _, -, _, -, _, -, hresult⟩ := hcorrection
      cases hresult
    · unfold parseContextualOpen at hcontextual
      split at hcontextual <;> cases hcontextual
    · exact hopen
  · simp only [bind, Option.bind_eq_some_iff] at h
    obtain ⟨remembered, hremembered, hrest⟩ := h
    cases remembered with
    | some intent =>
        cases hrest
        obtain ⟨_, _, _, heq, -⟩ := cleaned_parseRemember hremembered _ rfl
        cases heq
    | none =>
        have hforget := Option.some.inj hrest
        simp only [parseForget, bind, Option.bind_eq_some_iff] at hforget
        obtain ⟨_, -, _, -, hresult⟩ := hforget
        cases hresult

theorem isWord_open : IsWord "open".toList := by decide

theorem isWord_forget : IsWord "forget".toList := by decide

variable (hreads : ReadsWords tables) {key : List Char}

include hreads

/-- `open K` names what cleaning leaves of the lower case of `K`. -/
theorem resolveLocal_open (hne : key ≠ []) (htrimmed : Trimmed isWhiteSpace key) {name : String}
    {entity : EntityId}
    (h : resolveLocal tables ("open ".toList ++ key) = some (some (.openApp name entity))) :
    cleanFragment (tables.toLowercase key) = some name.toList := by
  have hopen := parseOpenApp_of_resolveLocal h
  have htrim : trim ("open ".toList ++ key) = "open ".toList ++ key :=
    (trimmed_append 'o' "pen ".toList (by decide) htrimmed hne).trimMatches_eq
  have hlower : tables.toLowercase ("open ".toList ++ key) =
      "open ".toList ++ tables.toLowercase key := hreads.lower "open".toList key isWord_open
  rw [htrim] at hopen
  simp only [parseOpenApp, hlower, bind, Option.bind_eq_some_iff] at hopen
  obtain ⟨rawName, hraw, displayName, hclean, entityId, -, hresult⟩ := hopen
  have hstrip : rawName = tables.toLowercase key := (Option.some.inj hraw).symm
  cases hresult
  rw [hstrip] at hclean
  rw [hclean, String.toList_ofList]

theorem parseCorrection_forget (htrim : trim ("forget ".toList ++ key) = "forget ".toList ++ key) :
    parseCorrection tables ("forget ".toList ++ key) = none := by
  have hend : trimEndMatches isSentenceEnd ("forget ".toList ++ key) =
      "forget ".toList ++ trimEndMatches isSentenceEnd key :=
    trimEndMatches_append_space "forget".toList key
  have hlower : tables.toLowercase ("forget ".toList ++ trimEndMatches isSentenceEnd key) =
      "forget ".toList ++ tables.toLowercase (trimEndMatches isSentenceEnd key) :=
    hreads.lower "forget".toList _ isWord_forget
  unfold parseCorrection
  rw [htrim, hend]
  simp only [hlower]
  rfl

omit hreads in
/-- Joining the words of a text keeps the first one where it is. -/
theorem joinWords_word {word : List Char} (hne : word ≠ [])
    (hword : ∀ c ∈ word, isWhiteSpace c = false) (text : List Char) :
    ∃ rest, joinWords (word ++ ' ' :: text) = word ++ rest := by
  have hkept : (!word.isEmpty) = true := by simpa using hne
  unfold joinWords
  rw [List.splitOnP_append_cons_of_forall_mem hword ' ' (by decide),
    List.filter_cons, if_pos hkept]
  cases (text.splitOnP isWhiteSpace).filter fun word => !word.isEmpty with
  | nil => exact ⟨[], by rw [List.intercalate_singleton, List.append_nil]⟩
  | cons next words => exact ⟨_, by rw [List.intercalate_cons_cons, List.append_assoc]⟩

/-- No phrase begins with the letter of the word. -/
theorem parseContextualOpen_forget
    (htrim : trim ("forget ".toList ++ key) = "forget ".toList ++ key) :
    parseContextualOpen tables ("forget ".toList ++ key) = none := by
  have hlower : tables.toLowercase ("forget ".toList ++ key) =
      "forget".toList ++ ' ' :: tables.toLowercase key :=
    hreads.lower "forget".toList key isWord_forget
  have hword : ("forget".toList).map (fun character =>
      if tables.isAlphanumeric character || isWhiteSpace character then character else ' ') =
        "forget".toList := by
    refine (List.map_congr_left fun c hc => ?_).trans (List.map_id' _)
    rw [hreads.letters c (isWord_forget c hc)]
    rfl
  have hspaces : ∀ c ∈ "forget".toList, isWhiteSpace c = false := by
    have hnone : "forget".toList.any isWhiteSpace = false := by decide
    simpa using hnone
  obtain ⟨rest, hrest⟩ : ∃ rest, normalizeRequest tables ("forget ".toList ++ key) =
      "forget".toList ++ rest := by
    unfold normalizeRequest
    rw [htrim, hlower, List.map_append, hword, List.map_cons, if_pos (by simp [isWhiteSpace])]
    exact joinWords_word (by decide) hspaces _
  unfold parseContextualOpen
  rw [hrest, if_neg]
  intro hphrase
  obtain ⟨phrase, hmem, heq⟩ := List.any_eq_true.mp hphrase
  have hhead : ∀ phrase ∈ contextualPhrases, phrase.toList.head? ≠ some 'f' := by decide
  rw [beq_iff_eq] at heq
  exact hhead phrase hmem (by rw [heq]; rfl)

theorem parseRemember_forget (htrim : trim ("forget ".toList ++ key) = "forget ".toList ++ key) :
    parseRemember tables ("forget ".toList ++ key) = some none := by
  have hend : trimEndMatches isSentenceEnd ("forget ".toList ++ key) =
      "forget ".toList ++ trimEndMatches isSentenceEnd key :=
    trimEndMatches_append_space "forget".toList key
  have hlower : tables.toLowercase ("forget ".toList ++ trimEndMatches isSentenceEnd key) =
      "forget ".toList ++ tables.toLowercase (trimEndMatches isSentenceEnd key) :=
    hreads.lower "forget".toList _ isWord_forget
  unfold parseRemember
  rw [htrim, hend]
  simp only [parsePrefixed, aliasPrefixes, propertyPrefixes, hlower]
  rfl

theorem parseOpenApp_forget : parseOpenApp tables ("forget ".toList ++ key) = none := by
  have hlower : tables.toLowercase ("forget ".toList ++ key) =
      "forget ".toList ++ tables.toLowercase key := hreads.lower "forget".toList key isWord_forget
  simp only [parseOpenApp, hlower]
  rfl

theorem parseForget_forget :
    parseForget tables ("forget ".toList ++ key) =
      (cleanFragment (tables.toLowercase key)).map fun fragment =>
        .forgetPreference (String.ofList fragment) := by
  have hlower : tables.toLowercase ("forget ".toList ++ key) =
      "forget ".toList ++ tables.toLowercase key := hreads.lower "forget".toList key isWord_forget
  simp only [parseForget, hlower]
  change (cleanFragment (tables.toLowercase key)).bind (fun fragment =>
    some (LocalIntent.forgetPreference (String.ofList fragment))) = _
  cases cleanFragment (tables.toLowercase key) <;> rfl

/-- `forget K` asks to forget what cleaning leaves of the lower case of `K`, if it leaves
anything. -/
theorem resolveLocal_forget (hne : key ≠ []) (htrimmed : Trimmed isWhiteSpace key) :
    resolveLocal tables ("forget ".toList ++ key) =
      some ((cleanFragment (tables.toLowercase key)).map fun fragment =>
        .forgetPreference (String.ofList fragment)) := by
  have htrim : trim ("forget ".toList ++ key) = "forget ".toList ++ key :=
    (trimmed_append 'f' "orget ".toList (by decide) htrimmed hne).trimMatches_eq
  simp only [resolveLocal, htrim, parseCorrection_forget hreads htrim,
    parseContextualOpen_forget hreads htrim, parseOpenApp_forget hreads,
    parseRemember_forget hreads htrim, parseForget_forget hreads]
  rfl

end

end Halquen.Service.KeyTexts
