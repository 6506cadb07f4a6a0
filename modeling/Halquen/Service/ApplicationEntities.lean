import Halquen.Library.Words
import Halquen.Service.KeyTexts
import Halquen.Storage.Applications

/-!
# Applications that a message can open

A message names an application, and the identifier of the application is made of that name: its
lower case, with an underscore for every character that is neither a letter nor a digit. The
registry takes any identifier that starts with `app:`. Every identifier that is made of a name is
one that the registry takes, but a message reaches only those that such a name can give
(`chat_entities`): `app:` and then small letters, digits and underscores, at least one of them.
-/

set_option autoImplicit false

namespace Halquen.Service.ApplicationEntities

open Halquen.Domain.Ids Halquen.Domain.Capability Halquen.Domain.Agent Halquen.Domain.Application
open Halquen.Library.Listing Halquen.Library.Words
open Halquen.Service.ChatParser Halquen.Service.TextCuts Halquen.Service.KeyTexts
open Halquen.Storage.Applications

/-! ## Letters -/

/-- A character of ASCII. -/
def isAscii (c : Char) : Bool := decide (c.toNat < 128)

/-- A small letter of the Russian alphabet. -/
def isRussian (c : Char) : Bool := decide (0x430 ≤ c.toNat ∧ c.toNat ≤ 0x44F)

/-- What the Unicode tables say about ASCII and about small Russian letters: the letters and digits
of ASCII are alphanumeric and its other characters are not, the Russian letters are, a text of them
without capitals of ASCII is its own lower case, and no lower case has a capital of ASCII in it or
is empty where the text is not. -/
structure ReadsLetters (tables : TextTables) : Prop where
  ascii : ∀ c : Char, isAscii c = true → tables.isAlphanumeric c = c.isAlphanum
  russian : ∀ c : Char, isRussian c = true → tables.isAlphanumeric c = true
  small : ∀ text : List Char,
    (∀ c ∈ text, isAscii c = true ∧ c.isUpper = false ∨ isRussian c = true) →
      tables.toLowercase text = text
  lower : ∀ text : List Char, ∀ c ∈ tables.toLowercase text, c.isUpper = false
  nonempty : ∀ text : List Char, tables.toLowercase text = [] → text = []

/-- A small letter, a digit or an underscore. -/
def isSlugChar (c : Char) : Bool := c.isLower || c.isDigit || c == '_'

/-- An identifier that a name can give. -/
def Slugged (id : EntityId) : Prop :=
  ∃ slug, slug ≠ [] ∧ id.asStr.toList = "app:".toList ++ slug ∧ ∀ c ∈ slug, isSlugChar c = true

theorem isAscii_of_isOpaqueChar {c : Char} (h : isOpaqueChar c = true) : isAscii c = true := by
  have hsize := Char.utf8Size_eq_one_iff.mp (utf8Size_of_isOpaqueChar h)
  rw [UInt32.le_iff_toNat_le] at hsize
  have hbound : (127 : UInt32).toNat = 127 := rfl
  have hval : c.toNat = c.val.toNat := rfl
  simp only [isAscii, decide_eq_true_eq]
  omega

theorem isOpaqueChar_of_isSlugChar {c : Char} (h : isSlugChar c = true) :
    isOpaqueChar c = true := by
  simp only [isSlugChar, Bool.or_eq_true, beq_iff_eq] at h
  rcases h with (hlower | hdigit) | rfl
  · simp [isOpaqueChar, isAlphanum_iff.mpr (.inr (.inl hlower))]
  · simp [isOpaqueChar, Char.isAlphanum, hdigit]
  · rfl

/-- A character of a slug is small, of ASCII, and none of those that cleaning removes. -/
theorem of_isSlugChar {c : Char} (h : isSlugChar c = true) :
    isAscii c = true ∧ c.isUpper = false ∧ isWhiteSpace c = false ∧ isQuote c = false ∧
      isSentenceEnd c = false := by
  -- The code points of small letters, digits and the underscore; none of the others is there.
  have hrange : 48 ≤ c.toNat ∧ c.toNat ≤ 57 ∨ c.toNat = 95 ∨ 97 ≤ c.toNat ∧ c.toNat ≤ 122 := by
    simp only [isSlugChar, Bool.or_eq_true, beq_iff_eq, isLower_iff, Char.isDigit,
      Bool.and_eq_true, decide_eq_true_eq, ge_iff_le, UInt32.le_iff_toNat_le] at h
    rcases h with (hletter | ⟨hfirst, hlast⟩) | rfl
    · exact .inr (.inr hletter)
    · exact .inl ⟨hfirst, hlast⟩
    · exact .inr (.inl rfl)
  have hne : ∀ d : Char, (d.toNat < 48 ∨ 57 < d.toNat ∧ d.toNat < 95 ∨ 122 < d.toNat) →
      (c == d) = false := by
    rintro d hd
    rw [beq_eq_false_iff_ne]
    rintro rfl
    omega
  have hcode : ∀ n : Nat, (n = 39 ∨ n = 96) → (c.toNat == n) = false := by
    intro n hn
    rw [beq_eq_false_iff_ne]
    omega
  refine ⟨decide_eq_true (by omega), ?_, ?_, ?_, ?_⟩
  · rw [← Bool.not_eq_true, isUpper_iff]
    omega
  · simp only [isWhiteSpace, Bool.or_eq_false_iff, Bool.and_eq_false_iff, decide_eq_false_iff_not,
      beq_eq_false_iff_ne]
    omega
  · simp only [isQuote, hne '"' (by decide), hne '«' (by decide), hne '»' (by decide),
      hcode 39 (by decide), hcode 96 (by decide), Bool.or_self]
  · simp only [isSentenceEnd, hne '.' (by decide), hne '!' (by decide), hne '?' (by decide),
      Bool.or_self]

section

variable {tables : TextTables}

/-! ## From names to identifiers -/

/-- The identifier of an application is made of a name of at least one character. -/
theorem slugged_of_applicationEntity (h : ReadsLetters tables) {displayName : List Char}
    {id : EntityId} (hentity : applicationEntity tables displayName = some id) : Slugged id := by
  simp only [applicationEntity, bind, Option.bind_eq_some_iff] at hentity
  obtain ⟨name, hclean, hnew⟩ := hentity
  have hname : name ≠ [] := (of_cleanFragment hclean).1
  generalize hslug : (tables.toLowercase name).map (fun character =>
    if tables.isAlphanumeric character then character else '_') = slug at hnew
  -- The identifier is valid, and so is as it was written.
  have hid : id.asStr.toList = "app:".toList ++ slug := by
    cases hvalid : TypedId.new .entity (String.ofList ("app:".toList ++ slug)) with
    | error e =>
        rw [hvalid] at hnew
        cases hnew
    | ok id' =>
        rw [hvalid] at hnew
        cases hnew
        rw [TypedId.asStr_of_new hvalid, String.toList_ofList]
  refine ⟨slug, ?_, hid, fun c hc => ?_⟩
  · intro hnil
    rw [hnil] at hslug
    exact hname (h.nonempty name (List.map_eq_nil_iff.mp hslug))
  · -- The identifier is of ASCII, so a letter that was kept is a small one or a digit.
    have hopaque : isOpaqueChar c = true := by
      have hvalid := ((validateOpaque_eq_ok_iff id.asStr).mp id.valid).2.2
      rw [hid] at hvalid
      exact List.all_eq_true.mp hvalid c (List.mem_append_right _ hc)
    rw [← hslug] at hc
    obtain ⟨d, hd, rfl⟩ := List.mem_map.mp hc
    split at hopaque
    · rename_i hkept
      rw [if_pos hkept]
      have halnum := h.ascii d (isAscii_of_isOpaqueChar hopaque)
      rw [hkept] at halnum
      have hsmall := h.lower name d hd
      rcases isAlphanum_iff.mp halnum.symm with hcapital | hletter | hdigit
      · rw [hsmall] at hcapital
        cases hcapital
      · simp only [isSlugChar, hletter, Bool.true_or]
      · simp only [isSlugChar, hdigit, Bool.or_true, Bool.true_or]
    · rename_i hreplaced
      rw [if_neg hreplaced]
      rfl

/-! ## From identifiers to names -/

variable {slug : List Char}

theorem mem_joinWords {c : Char} {text : List Char} (h : c ∈ joinWords text) :
    c = ' ' ∨ c ∈ text := by
  rcases mem_intercalate_singleton h with hspace | ⟨word, hword, hc⟩
  · exact .inl hspace
  · exact .inr (mem_of_mem_splitOnP (List.mem_filter.mp hword).1 hc)

theorem trimmed_of_forall {class_ : Char → Bool} {text : List Char}
    (h : ∀ c ∈ text, class_ c = false) : Trimmed class_ text :=
  ⟨fun c hc => h c (List.mem_of_mem_head? hc), fun c hc => h c (List.mem_of_mem_getLast? hc)⟩

theorem cleanFragment_slug (hne : slug ≠ []) (hslug : ∀ c ∈ slug, isSlugChar c = true)
    (hlength : slug.length ≤ 2048) : cleanFragment slug = some slug := by
  have hspace : trimMatches isWhiteSpace slug = slug :=
    (trimmed_of_forall fun c hc => (of_isSlugChar (hslug c hc)).2.2.1).trimMatches_eq
  have hquote : trimMatches isQuote slug = slug :=
    (trimmed_of_forall fun c hc => (of_isSlugChar (hslug c hc)).2.2.2.1).trimMatches_eq
  have hbytes : byteLength slug = slug.length := by
    unfold byteLength
    rw [List.map_congr_left (g := fun _ => 1) fun c hc =>
      utf8Size_of_isOpaqueChar (isOpaqueChar_of_isSlugChar (hslug c hc))]
    simp
  unfold cleanFragment trim
  rw [hspace, hquote, hspace]
  simp [hne, hlength, hbytes]

theorem length_slug {id : EntityId} (hid : id.asStr.toList = "app:".toList ++ slug) :
    slug.length ≤ 2048 := by
  obtain ⟨-, hsize, hopaque⟩ := (validateOpaque_eq_ok_iff id.asStr).mp id.valid
  rw [← String.ofList_toList (s := id.asStr), utf8ByteSize_of_all_opaque _ hopaque, hid,
    List.length_append, maxIdLen] at hsize
  omega

/-- The slug of a slug is the slug itself. -/
theorem applicationEntity_slug (h : ReadsLetters tables) {id : EntityId}
    (hid : id.asStr.toList = "app:".toList ++ slug) (hne : slug ≠ [])
    (hslug : ∀ c ∈ slug, isSlugChar c = true) : applicationEntity tables slug = some id := by
  have hlower : tables.toLowercase slug = slug := h.small slug fun c hc =>
    .inl ⟨(of_isSlugChar (hslug c hc)).1, (of_isSlugChar (hslug c hc)).2.1⟩
  have hmap : slug.map (fun character =>
      if tables.isAlphanumeric character then character else '_') = slug := by
    refine (List.map_congr_left fun c hc => ?_).trans (List.map_id' slug)
    rw [h.ascii c (of_isSlugChar (hslug c hc)).1]
    have hchar := hslug c hc
    simp only [isSlugChar, Bool.or_eq_true, beq_iff_eq] at hchar
    rcases hchar with (hlower | hdigit) | rfl
    · simp [isAlphanum_iff.mpr (.inr (.inl hlower))]
    · simp [Char.isAlphanum, hdigit]
    · rfl
  have hnew : TypedId.new .entity (String.ofList ("app:".toList ++ slug)) = .ok id := by
    rw [← hid, String.ofList_toList]
    exact TypedId.new_asStr id
  simp only [applicationEntity, bind, cleanFragment_slug hne hslug (length_slug hid),
    Option.bind_some, hlower, hmap, hnew]
  rfl

/-- The verb of a message in Russian that opens an application. -/
def openVerb : List Char := ['о', 'т', 'к', 'р', 'о', 'й']

theorem of_mem_openVerb {c : Char} (hc : c ∈ openVerb) :
    isRussian c = true ∧ isWhiteSpace c = false := by
  have hall : openVerb.all (fun c => isRussian c && !isWhiteSpace c) = true := by decide
  simpa using List.all_eq_true.mp hall c hc

theorem small_message (hslug : ∀ c ∈ slug, isSlugChar c = true) :
    ∀ c ∈ openVerb ++ ' ' :: slug, isAscii c = true ∧ c.isUpper = false ∨ isRussian c = true := by
  intro c hc
  rcases List.mem_append.mp hc with hc | hc
  · exact .inr (of_mem_openVerb hc).1
  · rcases List.mem_cons.mp hc with rfl | hc
    · exact .inl (by decide)
    · exact .inl ⟨(of_isSlugChar (hslug c hc)).1, (of_isSlugChar (hslug c hc)).2.1⟩

theorem trim_message (hne : slug ≠ []) (hslug : ∀ c ∈ slug, isSlugChar c = true) :
    trim (openVerb ++ ' ' :: slug) = openVerb ++ ' ' :: slug :=
  (trimmed_append 'о' "ткрой ".toList (by decide)
    (trimmed_of_forall fun c hc => (of_isSlugChar (hslug c hc)).2.2.1) hne).trimMatches_eq

theorem parseCorrection_slug (h : ReadsLetters tables) (hne : slug ≠ [])
    (hslug : ∀ c ∈ slug, isSlugChar c = true) :
    parseCorrection tables (openVerb ++ ' ' :: slug) = none := by
  have hend : trimEndMatches isSentenceEnd slug = slug := by
    have hreverse : slug.reverse.dropWhile isSentenceEnd = slug.reverse := by
      rw [List.dropWhile_eq_self_iff]
      intro hpos
      rw [(of_isSlugChar (hslug _ (List.mem_reverse.mp (List.getElem_mem hpos)))).2.2.2.2]
      exact Bool.false_ne_true
    rw [trimEndMatches, hreverse, List.reverse_reverse]
  unfold parseCorrection
  rw [trim_message hne hslug, trimEndMatches_append_space, hend, h.small _ (small_message hslug)]
  rfl

/-- The phrases that begin with the verb have a letter that neither the verb nor a slug has. -/
theorem parseContextualOpen_slug (h : ReadsLetters tables) (hne : slug ≠ [])
    (hslug : ∀ c ∈ slug, isSlugChar c = true) :
    parseContextualOpen tables (openVerb ++ ' ' :: slug) = none := by
  -- Each phrase that begins like the verb has a letter that is neither ASCII nor of the verb.
  have hphrases : ∀ phrase ∈ contextualPhrases, phrase.toList.head? = some 'о' →
      phrase.toList.any (fun c => !isAscii c && !openVerb.contains c) = true := by
    decide
  have hkept : openVerb.map (fun character =>
      if tables.isAlphanumeric character || isWhiteSpace character then character else ' ') =
        openVerb := by
    refine (List.map_congr_left fun c hc => ?_).trans (List.map_id' _)
    rw [h.russian c (of_mem_openVerb hc).1]
    rfl
  -- Normalizing leaves the verb alone and puts blanks for some of the other characters.
  have hnormalized : normalizeRequest tables (openVerb ++ ' ' :: slug) =
      joinWords (openVerb ++ ' ' :: slug.map fun character =>
        if tables.isAlphanumeric character || isWhiteSpace character then character else ' ') := by
    unfold normalizeRequest
    rw [trim_message hne hslug, h.small _ (small_message hslug), List.map_append, hkept,
      List.map_cons, if_pos (by simp [isWhiteSpace])]
  unfold parseContextualOpen
  rw [if_neg]
  intro hphrase
  obtain ⟨phrase, hmem, heq⟩ := List.any_eq_true.mp hphrase
  rw [beq_iff_eq, hnormalized] at heq
  obtain ⟨rest, hrest⟩ := joinWords_word (by decide) (fun c hc => (of_mem_openVerb hc).2)
    (slug.map fun character =>
      if tables.isAlphanumeric character || isWhiteSpace character then character else ' ')
  obtain ⟨c, hc, hforeign⟩ :=
    List.any_eq_true.mp (hphrases phrase hmem (by rw [heq, hrest]; rfl))
  simp only [Bool.and_eq_true, Bool.not_eq_true', List.contains_eq_mem,
    decide_eq_false_iff_not] at hforeign
  obtain ⟨hascii, hnot⟩ := hforeign
  rw [heq] at hc
  -- So the letter is in neither part of the message.
  rcases mem_joinWords hc with rfl | hc
  · exact absurd hascii (by decide)
  · rcases List.mem_append.mp hc with hc | hc
    · exact hnot hc
    · rcases List.mem_cons.mp hc with rfl | hc
      · exact absurd hascii (by decide)
      · obtain ⟨d, hd, rfl⟩ := List.mem_map.mp hc
        split at hascii
        · rw [(of_isSlugChar (hslug d hd)).1] at hascii
          cases hascii
        · exact absurd hascii (by decide)

/-- Every such identifier is that of an application which a message in Russian opens. The English
verb would not do: `open it` refers to what was opened before. -/
theorem resolveLocal_slug (h : ReadsLetters tables) {id : EntityId}
    (hid : id.asStr.toList = "app:".toList ++ slug) (hne : slug ≠ [])
    (hslug : ∀ c ∈ slug, isSlugChar c = true) :
    resolveLocal tables (openVerb ++ ' ' :: slug) =
      some (some (.openApp (String.ofList slug) id)) := by
  have hopen : parseOpenApp tables (openVerb ++ ' ' :: slug) =
      some (.openApp (String.ofList slug) id) := by
    have hraw : (stripPrefix "open " (openVerb ++ ' ' :: slug)).or
        (stripPrefix "открой " (openVerb ++ ' ' :: slug)) = some slug := rfl
    simp only [parseOpenApp, h.small _ (small_message hslug), hraw, bind, Option.bind_some,
      cleanFragment_slug hne hslug (length_slug hid), applicationEntity_slug h hid hne hslug]
    rfl
  simp only [resolveLocal, trim_message hne hslug, parseCorrection_slug h hne hslug,
    parseContextualOpen_slug h hne hslug, hopen]
  rfl

end

/-! ## All applications -/

theorem slugged_of_resolveLocal {tables : TextTables} (h : ReadsLetters tables)
    {message : List Char} {name : String} {id : EntityId}
    (hresolved : resolveLocal tables message = some (some (.openApp name id))) : Slugged id := by
  have hopen := parseOpenApp_of_resolveLocal hresolved
  simp only [parseOpenApp, bind, Option.bind_eq_some_iff] at hopen
  obtain ⟨_, -, displayName, -, entityId, hentity, hresult⟩ := hopen
  cases hresult
  exact slugged_of_applicationEntity h hentity

/-- Whatever the registry accepts, a message opens it exactly if a name can give its identifier; and
whatever a message opens, the registry takes its identifier. -/
theorem chat_entities (tables : TextTables) (h : ReadsLetters tables) :
    (∀ codec rows rows' application,
      upsertRegisteredApplication codec rows application = .ok rows' →
        ((∃ message name,
            resolveLocal tables message = some (some (.openApp name application.entityId))) ↔
          Slugged application.entityId)) ∧
    ∀ message name id, resolveLocal tables message = some (some (.openApp name id)) →
      ∀ application : RegisteredApplication, application.validate = .ok () →
        ({ application with entityId := id } : RegisteredApplication).validate = .ok () := by
  constructor
  · intro codec rows rows' application _
    constructor
    · rintro ⟨message, name, hresolved⟩
      exact slugged_of_resolveLocal h hresolved
    · rintro ⟨slug, hne, hid, hslug⟩
      exact ⟨openVerb ++ ' ' :: slug, String.ofList slug, resolveLocal_slug h hid hne hslug⟩
  · intro message name id hresolved application hvalid
    obtain ⟨slug, -, hid, -⟩ := slugged_of_resolveLocal h hresolved
    exact validate_entityId hvalid (List.isPrefixOf_iff_prefix.mpr ⟨slug, hid.symm⟩)

/-! ## Telegram, and a fixture -/

/-- Lowers the case of ASCII letters, and knows the small Russian ones. -/
def letterTables : TextTables := ⟨List.map Char.toLower, fun c => c.isAlphanum || isRussian c⟩

theorem isUpper_toLower (c : Char) : c.toLower.isUpper = false := by
  cases h : c.isUpper with
  | false =>
      rw [toLower_eq h]
      exact h
  | true =>
      have hcode : c.toLower.toNat = (c.val + ('a'.val - 'A'.val)).toNat := by
        unfold Char.toLower
        rw [dif_pos (decide_eq_true_iff.mp h)]
        rfl
      have hval : c.val.toNat = c.toNat := rfl
      have hdifference : ('a'.val - 'A'.val).toNat = 32 := rfl
      rw [UInt32.toNat_add, hval, hdifference] at hcode
      rw [isUpper_iff] at h
      rw [← Bool.not_eq_true, isUpper_iff]
      omega

theorem readsLetters_letterTables : ReadsLetters letterTables where
  ascii c hc := by
    have hforeign : isRussian c = false := by
      simp only [isAscii, decide_eq_true_eq] at hc
      exact decide_eq_false (by omega)
    simp only [letterTables, hforeign, Bool.or_false]
  russian c hc := by
    simp only [letterTables, hc, Bool.or_true]
  small text h := by
    refine (List.map_congr_left fun c hc => toLower_eq ?_).trans (List.map_id' text)
    rcases h c hc with ⟨-, hsmall⟩ | hrussian
    · exact hsmall
    · simp only [isRussian, decide_eq_true_eq] at hrussian
      rw [← Bool.not_eq_true, isUpper_iff]
      omega
  lower text c hc := by
    obtain ⟨d, -, rfl⟩ := List.mem_map.mp hc
    exact isUpper_toLower d
  nonempty text h := List.map_eq_nil_iff.mp h

/-- A writer of argument lists that knows only the empty one. -/
def emptyArguments : Storage.Agents.ArgumentsCodec := .listed [([], "[]")]

/-- A registration of `/usr/bin/true`. -/
def registration (entityId : EntityId) : RegisteredApplication where
  entityId := entityId
  displayName := "Application"
  executable := "/usr/bin/true"
  arguments := []
  ownership := .rootOnly
  identity := ⟨"/usr/bin/true", 1, 2, 0, 3, 4, 5, none⟩
  enabled := true
  createdAtMs := 1
  updatedAtMs := 1

/-- An application whose name is one word. -/
def telegram : EntityId := ⟨"app:telegram", validate_telegram⟩

theorem chat_entities_telegram :
    ∃ message name, resolveLocal letterTables message = some (some (.openApp name telegram)) := by
  have hslugged : Slugged telegram :=
    ⟨"telegram".toList, by decide, rfl, List.all_eq_true.mp (by decide)⟩
  have haccepted : upsertRegisteredApplication emptyArguments [] (registration telegram) =
      .ok [.ofApplication emptyArguments (registration telegram)] := by decide
  exact ((chat_entities letterTables readsLetters_letterTables).1 emptyArguments [] _
    (registration telegram) haccepted).mpr hslugged

/-- An application whose name has a hyphen. -/
def safeFixture : EntityId := ⟨"app:safe-fixture", by decide⟩

/-- The registry accepts the fixture, and no message opens it. -/
theorem chat_entities_fixture :
    upsertRegisteredApplication emptyArguments [] (registration safeFixture) =
        .ok [.ofApplication emptyArguments (registration safeFixture)] ∧
      ¬ ∃ tables message name, ReadsLetters tables ∧
        resolveLocal tables message = some (some (.openApp name safeFixture)) := by
  refine ⟨by decide, ?_⟩
  rintro ⟨tables, message, name, htables, hresolved⟩
  obtain ⟨slug, -, hid, hslug⟩ := slugged_of_resolveLocal htables hresolved
  have hsplit : safeFixture.asStr.toList = "app:".toList ++ "safe-fixture".toList := by decide
  have hhyphen : '-' ∈ slug := by
    rw [List.append_cancel_left (hid.symm.trans hsplit)]
    decide
  exact absurd (hslug '-' hhyphen) (by decide)

end Halquen.Service.ApplicationEntities
