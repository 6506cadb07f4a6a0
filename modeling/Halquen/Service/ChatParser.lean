import Halquen.Domain.Capability
import Mathlib.Algebra.GroupWithZero.Nat

/-!
# Local intents

The parser that resolves a chat message without a model. Texts are lists of characters here. Case
folding and the class of alphanumeric characters are those of Unicode and enter as a parameter.

Two of the parsers find a position in the lower-case text and cut the original text there. A cut
that does not fall on a character boundary is a panic of the source, and an explicit outcome of the
model: `none` of the outer option.
-/

set_option autoImplicit false

namespace Halquen.Service.ChatParser

open Halquen.Domain.Ids Halquen.Domain.Capability

/-- Unicode tables that the parser consults. -/
structure TextTables where
  toLowercase : List Char → List Char
  isAlphanumeric : Char → Bool

/-- What a message asks for, when no model is needed to tell. -/
inductive LocalIntent where
  | openApp (displayName : String) (entityId : EntityId)
  | rememberPreference (key value : String)
  | forgetPreference (key : String)
  | contextualOpenApp
  | correctOpenApp (rejected accepted : String)
  deriving DecidableEq

/-! ## Text -/

/-- Removes the leading and trailing characters of a class. -/
def trimMatches (class_ : Char → Bool) (text : List Char) : List Char :=
  ((text.dropWhile class_).reverse.dropWhile class_).reverse

/-- `str::trim`. -/
def trim (text : List Char) : List Char := trimMatches isWhiteSpace text

/-- `str::trim_end_matches`. -/
def trimEndMatches (class_ : Char → Bool) (text : List Char) : List Char :=
  (text.reverse.dropWhile class_).reverse

/-- Length in bytes. -/
def byteLength (text : List Char) : Nat := (text.map Char.utf8Size).sum

/-- `str::strip_prefix`. -/
def stripPrefix (start : String) (text : List Char) : Option (List Char) :=
  if start.toList.isPrefixOf text then some (text.drop start.toList.length) else none

/-- `text.find(needle)`, in bytes. -/
def find (needle : List Char) : List Char → Option Nat
  | [] => if needle.isEmpty then some 0 else none
  | c :: text =>
      if needle.isPrefixOf (c :: text) then some 0
      else (find needle text).map fun position => position + c.utf8Size

/-- `(&text[..position], &text[position..])`; `none` is the panic of a cut inside a character or
past the end. -/
def splitAt : List Char → Nat → Option (List Char × List Char)
  | text, 0 => some ([], text)
  | [], _ + 1 => none
  | c :: text, position + 1 =>
      if c.utf8Size ≤ position + 1 then
        (splitAt text (position + 1 - c.utf8Size)).map fun parts => (c :: parts.1, parts.2)
      else
        none

/-- The marks that may surround a name. -/
def isQuote (c : Char) : Bool := c == '"' || c.toNat == 39 || c == '«' || c == '»' || c.toNat == 96

/-- `clean_fragment`: the text without surrounding blanks and marks, if it is neither empty nor too
long. -/
def cleanFragment (value : List Char) : Option (List Char) :=
  let value := trim (trimMatches isQuote (trim value))
  if !value.isEmpty && decide (byteLength value ≤ 2048) then some value else none

/-! ## Parsers -/

section

variable (tables : TextTables)

/-- `application_entity`: the name in lower case with underscores for all that is not a letter or a
digit. -/
def applicationEntity (displayName : List Char) : Option EntityId := do
  let displayName ← cleanFragment displayName
  let slug := (tables.toLowercase displayName).map fun character =>
    if tables.isAlphanumeric character then character else '_'
  (TypedId.new .entity (String.ofList ("app:".toList ++ slug))).toOption

/-- `value.split_whitespace().collect().join(" ")`. -/
def joinWords (value : List Char) : List Char :=
  [' '].intercalate ((value.splitOnP isWhiteSpace).filter fun word => !word.isEmpty)

/-- `normalize_request`: the words in lower case, without punctuation, one blank between them. -/
def normalizeRequest (message : List Char) : List Char :=
  joinWords ((tables.toLowercase (trim message)).map fun character =>
    if tables.isAlphanumeric character || isWhiteSpace character then character else ' ')

/-- `parse_open_app`. -/
def parseOpenApp (message : List Char) : Option LocalIntent := do
  let lower := tables.toLowercase message
  let rawName ← (stripPrefix "open " lower).or (stripPrefix "открой " lower)
  let displayName ← cleanFragment rawName
  let entityId ← applicationEntity tables displayName
  return .openApp (String.ofList displayName) entityId

/-- The requests that name no application. -/
def contextualPhrases : List String := [
  "open it", "open that", "open that messenger", "open the messenger", "открой это",
  "открой это самое", "запусти тот мессенджер", "открой тот мессенджер"]

/-- `parse_contextual_open`: the whole message must be one of the phrases. -/
def parseContextualOpen (message : List Char) : Option LocalIntent :=
  if contextualPhrases.any fun phrase => phrase.toList == normalizeRequest tables message then
    some .contextualOpenApp
  else
    none

/-- The marks that may end a request. -/
def isSentenceEnd (c : Char) : Bool := c == '.' || c == '!' || c == '?'

/-- `parse_correction`: what was not meant and what was, around a comma. -/
def parseCorrection (message : List Char) : Option LocalIntent := do
  let lower := tables.toLowercase (trimEndMatches isSentenceEnd (trim message))
  let remainder ← (stripPrefix "not " lower).or (stripPrefix "не " lower)
  -- A comma found in a text is a boundary of that text, so these cuts do not fail.
  let comma ← find [','] remainder
  let parts ← splitAt remainder comma
  let rejected ← cleanFragment parts.1
  let accepted ← cleanFragment (parts.2.drop 1)
  return .correctOpenApp (String.ofList rejected) (String.ofList accepted)

/-- A preference, unless its key or its value is too long. -/
def preference (key value : List Char) : Option LocalIntent :=
  if 256 < byteLength key ∨ 2048 < byteLength value then none
  else some (.rememberPreference (String.ofList key) (String.ofList value))

/-- Cuts the remainder at the first separator that its lower-case text contains. The result is
`some none` where a separator is found and a fragment is rejected. A rejected key returns before the
text behind the separator is cut off. -/
def parseSeparated (remainder : List Char) : List String → Option (Option (Option LocalIntent))
  | [] => some none
  | separator :: separators =>
      match find separator.toList (tables.toLowercase remainder) with
      | none => parseSeparated remainder separators
      | some position => do
          let before ← splitAt remainder position
          match cleanFragment before.1 with
          | none => return some none
          | some key =>
              let after ← splitAt remainder (position + byteLength separator.toList)
              return some do
                let value ← cleanFragment after.2
                preference key value

/-- Tries the prefixes in order, and for each that matches the separators in order. -/
def parsePrefixed (normalized : List Char) (separators : List String) :
    List String → Option (Option (Option LocalIntent))
  | [] => some none
  | start :: starts =>
      if start.toList.isPrefixOf (tables.toLowercase normalized) then do
        let parts ← splitAt normalized (byteLength start.toList)
        match ← parseSeparated tables parts.2 separators with
        | some result => return some result
        | none => parsePrefixed normalized separators starts
      else
        parsePrefixed normalized separators starts

/-- How a message begins that defines an alias. -/
def aliasPrefixes : List String := [
  "remember that when i say ", "запомни, что когда я говорю ", "запомни что когда я говорю "]

/-- How a message begins that states a property. -/
def propertyPrefixes : List String := [
  "remember that my ", "запомни, что мой ", "запомни что мой ", "запомни, что моя ",
  "запомни что моя "]

/-- `parse_remember`: an alias is tried first, then a property. -/
def parseRemember (message : List Char) : Option (Option LocalIntent) := do
  let normalized := trimEndMatches isSentenceEnd (trim message)
  match ← parsePrefixed tables normalized [" i mean ", " я имею в виду "] aliasPrefixes with
  | some result => return result
  | none =>
      let result ← parsePrefixed tables normalized [" is ", " — ", " это "] propertyPrefixes
      return result.join

/-- `parse_forget`. -/
def parseForget (message : List Char) : Option LocalIntent := do
  let lower := tables.toLowercase message
  let key ← (stripPrefix "forget " lower).or (stripPrefix "забудь " lower)
  let key ← cleanFragment key
  return .forgetPreference (String.ofList key)

/-- The first parser that accepts the message decides. -/
def resolveLocal (message : List Char) : Option (Option LocalIntent) :=
  let trimmed := trim message
  match ((parseCorrection tables trimmed).or (parseContextualOpen tables trimmed)).or
      (parseOpenApp tables trimmed) with
  | some intent => some (some intent)
  | none => do
      match ← parseRemember tables trimmed with
      | some intent => return some intent
      | none => return parseForget tables trimmed

end

end Halquen.Service.ChatParser
