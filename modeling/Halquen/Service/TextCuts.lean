import Halquen.Service.ChatParser
import Mathlib.Data.List.DropRight
import Mathlib.Data.List.TakeWhile

/-!
# Cuts at offsets of the lower-case text

`parse_remember` searches in the lower-case text and cuts the original text at the offset it has
found. Where lowering the case keeps the byte length of what stands before the cut, the cut is at
the place that was found (`resolveLocal_of_kept`); where it does not, the cut is elsewhere, and may
fall inside a character.
-/

set_option autoImplicit false

namespace Halquen.Service.TextCuts

open Halquen.Domain.Ids Halquen.Domain.Capability
open Halquen.Service.ChatParser

/-! ## Texts and byte offsets -/

@[simp]
theorem byteLength_nil : byteLength [] = 0 := rfl

@[simp]
theorem byteLength_cons (c : Char) (text : List Char) :
    byteLength (c :: text) = c.utf8Size + byteLength text := rfl

/-- The length of a text is that of its parts. -/
@[simp]
theorem byteLength_append (before after : List Char) :
    byteLength (before ++ after) = byteLength before + byteLength after := by
  simp [byteLength]

/-- A text is cut at the byte length of what stands before. -/
theorem splitAt_append (before after : List Char) :
    splitAt (before ++ after) (byteLength before) = some (before, after) := by
  induction before with
  | nil => cases after <;> rfl
  | cons c before ih =>
      have hpos : 0 < c.utf8Size := Char.utf8Size_pos c
      obtain ⟨n, hn⟩ : ∃ n, byteLength (c :: before) = n + 1 :=
        Nat.exists_eq_succ_of_ne_zero (by rw [byteLength_cons]; omega)
      have hrest : n + 1 - c.utf8Size = byteLength before := by
        rw [← hn, byteLength_cons]
        omega
      have hle : c.utf8Size ≤ n + 1 := by
        rw [← hn, byteLength_cons]
        omega
      rw [hn, List.cons_append, splitAt, if_pos hle, hrest, ih]
      rfl

/-- The place in a text is given by its byte offset. -/
theorem append_inj_of_byteLength {a b a' b' : List Char} (h : a ++ b = a' ++ b')
    (hlength : byteLength a = byteLength a') : a = a' ∧ b = b' := by
  induction a generalizing a' with
  | nil =>
      cases a' with
      | nil => exact ⟨rfl, h⟩
      | cons c a' =>
          have hpos := Char.utf8Size_pos c
          simp only [byteLength_nil, byteLength_cons] at hlength
          omega
  | cons c a ih =>
      cases a' with
      | nil =>
          have hpos := Char.utf8Size_pos c
          simp only [byteLength_nil, byteLength_cons] at hlength
          omega
      | cons c' a' =>
          obtain ⟨rfl, htail⟩ := List.cons.inj h
          simp only [byteLength_cons] at hlength
          obtain ⟨rfl, rfl⟩ := ih htail (by omega)
          exact ⟨rfl, rfl⟩

/-- What is found stands at the offset that is returned. -/
theorem find_eq_some {needle text : List Char} {position : Nat}
    (h : find needle text = some position) :
    ∃ before after, text = before ++ (needle ++ after) ∧ byteLength before = position := by
  induction text generalizing position with
  | nil =>
      unfold find at h
      split at h
      · rename_i hempty
        rw [List.isEmpty_iff] at hempty
        cases h
        exact ⟨[], [], by simp [hempty], rfl⟩
      · cases h
  | cons c text ih =>
      unfold find at h
      split at h
      · rename_i hprefix
        obtain ⟨after, hafter⟩ := List.isPrefixOf_iff_prefix.mp hprefix
        cases h
        exact ⟨[], after, hafter.symm, rfl⟩
      · obtain ⟨offset, hoffset, rfl⟩ := Option.map_eq_some_iff.mp h
        obtain ⟨before, after, rfl, rfl⟩ := ih hoffset
        exact ⟨c :: before, after, rfl, Nat.add_comm _ _⟩

/-! ## Trimming -/

/-- Neither end of the text is in the class. -/
structure Trimmed (class_ : Char → Bool) (text : List Char) : Prop where
  head : ∀ c, text.head? = some c → class_ c = false
  last : ∀ c, text.getLast? = some c → class_ c = false

/-- A text that was trimmed has nothing left to trim. -/
theorem trimmed_trimMatches (class_ : Char → Bool) (text : List Char) :
    Trimmed class_ (trimMatches class_ text) := by
  constructor
  · intro c hc
    -- The first character of the trimmed text is the first one that is not in the class.
    have hprefix : trimMatches class_ text <+: text.dropWhile class_ := List.rdropWhile_prefix ..
    obtain ⟨rest, hrest⟩ := hprefix
    have hhead := List.head?_dropWhile_not class_ text
    obtain ⟨tail, htail⟩ := List.head?_eq_some_iff.mp hc
    rw [← hrest, htail] at hhead
    simpa using hhead
  · intro c hc
    have hne : trimMatches class_ text ≠ [] := by
      intro hnil
      rw [hnil] at hc
      cases hc
    rw [List.getLast?_eq_some_getLast hne] at hc
    rw [← Option.some.inj hc]
    exact Bool.eq_false_iff.mpr (List.rdropWhile_last_not class_ (text.dropWhile class_) hne)

theorem Trimmed.trimMatches_eq {class_ : Char → Bool} {text : List Char} (h : Trimmed class_ text) :
    trimMatches class_ text = text := by
  have hfirst : text.dropWhile class_ = text := by
    rw [List.dropWhile_eq_self_iff]
    intro hpos
    rw [h.head _ (by rw [List.head?_eq_getElem?, List.getElem?_eq_getElem hpos])]
    exact Bool.false_ne_true
  rw [trimMatches, hfirst]
  change List.rdropWhile class_ text = text
  rw [List.rdropWhile_eq_self_iff]
  intro hne
  rw [h.last _ (List.getLast?_eq_some_getLast hne)]
  exact Bool.false_ne_true

theorem trimMatches_idem (class_ : Char → Bool) (text : List Char) :
    trimMatches class_ (trimMatches class_ text) = trimMatches class_ text :=
  (trimmed_trimMatches class_ text).trimMatches_eq

/-! ## Aligned offsets -/

section

variable (tables : TextTables)

/-- Lowering the case keeps the byte length. -/
def Kept (text : List Char) : Prop := byteLength (tables.toLowercase text) = byteLength text

/-- The first separator of the list that the text contains, and its offset. -/
def firstSeparator (text : List Char) : List String → Option (String × Nat)
  | [] => none
  | separator :: separators =>
      match find separator.toList text with
      | some position => some (separator, position)
      | none => firstSeparator text separators

/-- What the lower-case text has from an offset on stands in the text from the same offset on, and
lowering the case keeps the byte length of what stands before. -/
structure AlignedSeparator (text before middle after : List Char) (separator : String)
    (position : Nat) : Prop where
  split : text = before ++ (middle ++ after)
  lower : tables.toLowercase text =
    tables.toLowercase before ++ (tables.toLowercase middle ++ tables.toLowercase after)
  position : byteLength before = position
  length : byteLength middle = byteLength separator.toList
  before : Kept tables before
  middle : Kept tables middle

/-- The offsets at which the source cuts a text that begins with a prefix are aligned. -/
structure Aligned (text : List Char) (start : String) (separators : List String)
    (head remainder : List Char) : Prop where
  split : text = head ++ remainder
  lower : tables.toLowercase text = tables.toLowercase head ++ tables.toLowercase remainder
  length : byteLength head = byteLength start.toList
  head : Kept tables head
  separator : ∀ separator position,
    firstSeparator (tables.toLowercase remainder) separators = some (separator, position) →
      ∃ before middle after,
        AlignedSeparator tables remainder before middle after separator position

/-- What stands between a name and what it means. -/
def aliasSeparators : List String := [" i mean ", " я имею в виду "]

/-- What stands between a property and its value. -/
def propertySeparators : List String := [" is ", " — ", " это "]

/-- Prefixes that are supported, with the separators that are looked for after them. -/
def families : List (List String × List String) :=
  [(aliasPrefixes, aliasSeparators), (propertyPrefixes, propertySeparators)]

/-- The message without surrounding white space and without the end of its sentence. -/
def sentence (message : List Char) : List Char := trimEndMatches isSentenceEnd (trim message)

/-- Where the lower-case message begins with a supported prefix, lowering the case keeps the byte
length of the prefix, of the text before the first separator, and of the separator. -/
def OffsetsKept (message : List Char) : Prop :=
  ∀ family ∈ families, ∀ start ∈ family.1,
    start.toList.isPrefixOf (tables.toLowercase (sentence message)) = true →
      ∃ head remainder, Aligned tables (sentence message) start family.2 head remainder

/-- The text is one of these prefixes, a text for the key, one of these separators and a text for
the value, the prefix and the separator in any case. -/
def RemembersWith (starts separators : List String) (text : List Char) (key value : String)
    : Prop :=
  ∃ start ∈ starts, ∃ separator ∈ separators, ∃ head before middle after,
    text = head ++ (before ++ (middle ++ after)) ∧
      tables.toLowercase head = start.toList ∧ tables.toLowercase middle = separator.toList ∧
      cleanFragment before = some key.toList ∧ cleanFragment after = some value.toList

/-- The text tells to remember the value for the key. -/
def Remembers (text : List Char) (key value : String) : Prop :=
  ∃ family ∈ families, RemembersWith tables family.1 family.2 text key value

end

section

variable {tables : TextTables}

/-! ## The parser of preferences -/

/-- The first separator is one of them, and stands where it is found. -/
theorem mem_of_firstSeparator {text : List Char} {separators : List String} {separator : String}
    {position : Nat} (h : firstSeparator text separators = some (separator, position)) :
    separator ∈ separators ∧ find separator.toList text = some position := by
  induction separators with
  | nil => cases h
  | cons first separators ih =>
      unfold firstSeparator at h
      split at h
      · rename_i hfind
        cases h
        exact ⟨List.mem_cons_self .., hfind⟩
      · obtain ⟨hmem, hfind⟩ := ih h
        exact ⟨List.mem_cons_of_mem _ hmem, hfind⟩

/-- The fragments on both sides of a separator as a preference. -/
def preferenceOf (before after : List Char) : Option LocalIntent := do
  let key ← cleanFragment before
  let value ← cleanFragment after
  preference key value

/-- Without separator nothing is parsed. -/
theorem parseSeparated_none {remainder : List Char} {separators : List String}
    (h : firstSeparator (tables.toLowercase remainder) separators = none) :
    parseSeparated tables remainder separators = some none := by
  induction separators with
  | nil => rfl
  | cons first separators ih =>
      unfold firstSeparator at h
      split at h
      · cases h
      · rename_i hfind
        rw [parseSeparated, hfind]
        exact ih h

/-- What happens at the first separator: without a key nothing more is cut. -/
theorem parseSeparated_some {remainder : List Char} {separators : List String} {separator : String}
    {position : Nat}
    (h : firstSeparator (tables.toLowercase remainder) separators = some (separator, position)) :
    parseSeparated tables remainder separators =
      (splitAt remainder position).bind fun before =>
        if (cleanFragment before.1).isNone then some (some none)
        else (splitAt remainder (position + byteLength separator.toList)).map fun after =>
          some (preferenceOf before.1 after.2) := by
  induction separators with
  | nil => cases h
  | cons first separators ih =>
      unfold firstSeparator at h
      split at h
      · rename_i hfind
        cases h
        rw [parseSeparated, hfind]
        change (splitAt remainder position).bind _ = _
        refine congrArg _ (funext fun before => ?_)
        cases hkey : cleanFragment before.1 with
        | none => rfl
        | some key =>
            simp only [Option.isNone_some, Bool.false_eq_true, if_false, preferenceOf, hkey]
            exact (Option.map_eq_bind ..).symm
      · rename_i hfind
        rw [parseSeparated, hfind]
        exact ih h

/-- At aligned offsets the cuts do not fail, and give the texts around the separator. -/
theorem parseSeparated_aligned {remainder before middle after : List Char}
    {separators : List String} {separator : String} {position : Nat}
    (h : firstSeparator (tables.toLowercase remainder) separators = some (separator, position))
    (haligned : AlignedSeparator tables remainder before middle after separator position) :
    parseSeparated tables remainder separators = some (some (preferenceOf before after)) := by
  rw [parseSeparated_some h]
  have hfirst : splitAt remainder position = some (before, middle ++ after) := by
    rw [haligned.split, ← haligned.position]
    exact splitAt_append before (middle ++ after)
  have hsecond : splitAt remainder (position + byteLength separator.toList) =
      some (before ++ middle, after) := by
    rw [haligned.split, ← haligned.position, ← haligned.length, ← byteLength_append,
      ← List.append_assoc]
    exact splitAt_append (before ++ middle) after
  rw [hfirst, hsecond, Option.bind_some]
  split
  · rename_i hrejected
    have hnone : preferenceOf before after = none := by
      rw [preferenceOf, Option.isNone_iff_eq_none.mp hrejected]
      rfl
    rw [hnone]
  · rfl

/-- A preference has the cleaned texts on both sides. -/
theorem of_preferenceOf {before after : List Char} {key value : String}
    (h : preferenceOf before after = some (.rememberPreference key value)) :
    cleanFragment before = some key.toList ∧ cleanFragment after = some value.toList := by
  unfold preferenceOf at h
  simp only [bind, Option.bind_eq_some_iff] at h
  obtain ⟨k, hk, v, hv, hpreference⟩ := h
  unfold preference at hpreference
  split at hpreference
  · cases hpreference
  · cases hpreference
    exact ⟨by simpa using hk, by simpa using hv⟩

/-- Where lower case keeps the offsets the cut is that of the prefix. -/
theorem Aligned.splitAt_eq {text head remainder : List Char} {start : String}
    {separators : List String} (h : Aligned tables text start separators head remainder) :
    splitAt text (byteLength start.toList) = some (head, remainder) := by
  rw [← h.length, h.split]
  exact splitAt_append head remainder

theorem Aligned.lower_head {text head remainder : List Char} {start : String}
    {separators : List String} (h : Aligned tables text start separators head remainder)
    (hstarts : start.toList.isPrefixOf (tables.toLowercase text) = true) :
    tables.toLowercase head = start.toList := by
  obtain ⟨rest, hrest⟩ := List.isPrefixOf_iff_prefix.mp hstarts
  rw [h.lower] at hrest
  exact (append_inj_of_byteLength hrest (h.length.symm.trans h.head.symm)).1.symm

/-- There the separator is cut out as a whole. -/
theorem AlignedSeparator.lower_middle {remainder before middle after : List Char}
    {separator : String} {position : Nat}
    (h : AlignedSeparator tables remainder before middle after separator position)
    (hfind : find separator.toList (tables.toLowercase remainder) = some position) :
    tables.toLowercase middle = separator.toList := by
  obtain ⟨front, rest, hsplit, hfront⟩ := find_eq_some hfind
  rw [h.lower] at hsplit
  have hbefore : byteLength (tables.toLowercase before) = byteLength front := by
    rw [hfront, ← h.position]
    exact h.before
  -- What was found in the lower-case text is the separator of the text itself.
  have hrest := (append_inj_of_byteLength hsplit hbefore).2
  exact (append_inj_of_byteLength hrest (h.middle.trans h.length)).1

theorem parsePrefixed_kept {text : List Char} {separators starts : List String}
    (hkept : ∀ start ∈ starts, start.toList.isPrefixOf (tables.toLowercase text) = true →
      ∃ head remainder, Aligned tables text start separators head remainder) :
    ∃ result, parsePrefixed tables text separators starts = some result ∧
      ∀ key value, result = some (some (.rememberPreference key value)) →
        RemembersWith tables starts separators text key value := by
  induction starts with
  -- Induction on the starts: none is left, and nothing is parsed.
  | nil =>
      refine ⟨none, rfl, ?_⟩
      intro key value hresult
      cases hresult
  | cons start starts ih =>
      obtain ⟨result, hrest, hremembers⟩ := ih fun s hs => hkept s (List.mem_cons_of_mem _ hs)
      have hlater : ∀ key value, result = some (some (.rememberPreference key value)) →
          RemembersWith tables (start :: starts) separators text key value := by
        intro key value hresult
        obtain ⟨s, hs, hwith⟩ := hremembers key value hresult
        exact ⟨s, List.mem_cons_of_mem _ hs, hwith⟩
      unfold parsePrefixed
      split
      · rename_i hprefix
        obtain ⟨head, remainder, haligned⟩ := hkept start (List.mem_cons_self ..) hprefix
        -- The text starts with this one, and both cuts fall between characters.
        simp only [haligned.splitAt_eq, bind, Option.bind_some]
        cases hfirst : firstSeparator (tables.toLowercase remainder) separators with
        | none =>
            rw [parseSeparated_none hfirst]
            exact ⟨result, hrest, hlater⟩
        | some found =>
            obtain ⟨separator, position⟩ := found
            obtain ⟨before, middle, after, hseparator⟩ :=
              haligned.separator separator position hfirst
            rw [parseSeparated_aligned hfirst hseparator]
            refine ⟨some (preferenceOf before after), rfl, ?_⟩
            intro key value hresult
            obtain ⟨hmem, hfind⟩ := mem_of_firstSeparator hfirst
            obtain ⟨hkey, hvalue⟩ := of_preferenceOf (Option.some.inj hresult)
            refine ⟨start, List.mem_cons_self .., separator, hmem, head, before, middle, after, ?_,
              haligned.lower_head hprefix, hseparator.lower_middle hfind, hkey, hvalue⟩
            rw [haligned.split, hseparator.split]
      -- It does not, and the next start is tried.
      · exact ⟨result, hrest, hlater⟩

theorem sentence_trim (message : List Char) : sentence (trim message) = sentence message := by
  unfold sentence trim
  rw [trimMatches_idem]

/-- So a message is remembered as it says. -/
theorem parseRemember_kept {message : List Char} (hkept : OffsetsKept tables message) :
    ∃ result, parseRemember tables message = some result ∧
      ∀ key value, result = some (.rememberPreference key value) →
        Remembers tables (sentence message) key value := by
  obtain ⟨first, hfirst, halias⟩ :=
    parsePrefixed_kept (hkept (aliasPrefixes, aliasSeparators) (by simp [families]))
  obtain ⟨second, hsecond, hproperty⟩ :=
    parsePrefixed_kept (hkept (propertyPrefixes, propertySeparators) (by simp [families]))
  change ∃ result, (parsePrefixed tables (sentence message) aliasSeparators aliasPrefixes).bind
    _ = some result ∧ _
  rw [hfirst]
  cases first with
  | some found =>
      refine ⟨found, rfl, ?_⟩
      intro key value hresult
      exact ⟨_, by simp [families], halias key value (congrArg some hresult)⟩
  | none =>
      change ∃ result, (parsePrefixed tables (sentence message) propertySeparators
        propertyPrefixes).bind _ = some result ∧ _
      rw [hsecond]
      refine ⟨second.join, rfl, ?_⟩
      intro key value hresult
      rw [Option.join_eq_some_iff] at hresult
      exact ⟨_, by simp [families], hproperty key value hresult⟩

/-- The other parsers do not remember. -/
theorem parseForget_ne {message : List Char} {key value : String} :
    parseForget tables message ≠ some (.rememberPreference key value) := by
  intro h
  simp only [parseForget, bind, Option.bind_eq_some_iff] at h
  obtain ⟨_, -, _, -, hresult⟩ := h
  cases hresult

/-- The parsers that are tried before remember nothing. -/
theorem earlier_ne {message : List Char} {key value : String} :
    ((parseCorrection tables message).or (parseContextualOpen tables message)).or
      (parseOpenApp tables message) ≠ some (.rememberPreference key value) := by
  intro h
  rw [Option.or_eq_some_iff, Option.or_eq_some_iff] at h
  rcases h with (h | ⟨-, h⟩) | ⟨-, h⟩
  · simp only [parseCorrection, bind, Option.bind_eq_some_iff] at h
    obtain ⟨_, -, _, -, _, -, _, -, _, -, hresult⟩ := h
    cases hresult
  · unfold parseContextualOpen at h
    split at h <;> cases h
  · simp only [parseOpenApp, bind, Option.bind_eq_some_iff] at h
    obtain ⟨_, -, _, -, _, -, hresult⟩ := h
    cases hresult

variable (tables) in
/-- Where lowering the case keeps the byte length up to the cuts, `resolve_local` cuts at character
boundaries, and a preference that it returns consists of the texts around the separator. -/
theorem resolveLocal_of_kept (message : List Char) (hkept : OffsetsKept tables message) :
    ∃ result, resolveLocal tables message = some result ∧
      ∀ key value, result = some (.rememberPreference key value) →
        Remembers tables (sentence message) key value := by
  have hkept' : OffsetsKept tables (trim message) := by
    unfold OffsetsKept
    rw [sentence_trim]
    exact hkept
  obtain ⟨remembered, hremember, hremembers⟩ := parseRemember_kept hkept'
  rw [sentence_trim] at hremembers
  simp only [resolveLocal]
  split
  · rename_i intent hearlier
    refine ⟨some intent, rfl, ?_⟩
    intro key value hresult
    rw [hresult] at hearlier
    exact absurd hearlier earlier_ne
  · rw [hremember]
    cases remembered with
    | some intent => exact ⟨some intent, rfl, hremembers⟩
    | none =>
        refine ⟨parseForget tables (trim message), rfl, ?_⟩
        intro key value hresult
        exact absurd hresult parseForget_ne

end

/-! ## A cut inside a character -/

/-- Lowers the case of ASCII letters. -/
def asciiTables : TextTables := ⟨List.map Char.toLower, Char.isAlphanum⟩

theorem resolveLocal_of_kept_editor :
    ∃ result, resolveLocal asciiTables "Remember that when I say \"editor\" I mean Zed.".toList =
        some result ∧
      ∀ key value, result = some (.rememberPreference key value) →
        Remembers asciiTables "Remember that when I say \"editor\" I mean Zed".toList
          key value := by
  apply resolveLocal_of_kept asciiTables
  have honly : ∀ family ∈ families, ∀ start ∈ family.1, start.toList.isPrefixOf
      (asciiTables.toLowercase
        (sentence "Remember that when I say \"editor\" I mean Zed.".toList)) = true →
        family = (aliasPrefixes, aliasSeparators) ∧ start = "remember that when i say " := by
    decide
  intro family hfamily start hstart hprefix
  obtain ⟨rfl, rfl⟩ := honly family hfamily start hstart hprefix
  refine ⟨"Remember that when I say ".toList, "\"editor\" I mean Zed".toList, by decide,
    by decide, by decide, by unfold Kept; decide, ?_⟩
  intro separator position hfirst
  have hfound : firstSeparator (asciiTables.toLowercase "\"editor\" I mean Zed".toList)
      aliasSeparators = some (" i mean ", 8) := by decide
  rw [hfound] at hfirst
  cases hfirst
  exact ⟨"\"editor\"".toList, " I mean ".toList, "Zed".toList, by decide, by decide,
    by decide, by decide, by unfold Kept; decide,
    by unfold Kept; decide⟩

/-- As `asciiTables`, with the one letter whose lower case is two characters. -/
def dottedTables : TextTables where
  toLowercase text := text.flatMap fun c =>
    if c = 'İ' then ['i', Char.ofNat 0x307] else [c.toLower]
  isAlphanumeric := Char.isAlphanum

/-- The lower-case letter is one byte longer, and the offset of the separator is too: the second cut
falls inside the character of the value. -/
theorem cut_inside_character :
    ¬ ∀ message : List Char, ∃ result, resolveLocal dottedTables message = some result ∧
      ∀ key value, result = some (.rememberPreference key value) →
        Remembers dottedTables (sentence message) key value := by
  intro h
  obtain ⟨result, hresult, -⟩ := h "remember that when i say İ i mean б".toList
  have hpanic : resolveLocal dottedTables "remember that when i say İ i mean б".toList = none := by
    decide
  rw [hpanic] at hresult
  cases hresult

/-- With a longer value the cut falls behind its first letter. -/
example : resolveLocal dottedTables "remember that when i say İ i mean Zed".toList =
    some (some (.rememberPreference "İ" "ed")) := by
  decide

end Halquen.Service.TextCuts
