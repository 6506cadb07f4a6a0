import Halquen.Domain.Security
import Halquen.Library.Sql
import Halquen.Storage.Grants
import Mathlib.Data.List.TakeWhile

/-!
# The table of resource labels

A label matches a resource exactly, as a path prefix or as a host. `resourceLabelFor` returns the
label that decides: exact labels first, then the longest pattern.
-/

set_option autoImplicit false

namespace Halquen.Storage.Labels

open Halquen.Domain.Ids Halquen.Domain.Security
open Halquen.Library.Sql Halquen.Library.TextCodec Halquen.Library.Listing
open Halquen.Storage.Grants (StorageError parseId parseId_asStr asStr_of_parseId)

/-- `length(text)`: the characters before the first NUL. -/
def sqlLength (text : String) : Nat := (text.toList.takeWhile (· != Char.ofNat 0)).length

/-- `length(column) BETWEEN 1 AND bound`. -/
def lengthWithin (text : String) (bound : Nat) : Bool :=
  decide (1 ≤ sqlLength text) && decide (sqlLength text ≤ bound)

/-- Folds upper case ASCII letters. -/
def foldCase (value : List Char) : String := String.ofList (value.map Char.toLower)

/-- Order of the collation `NOCASE`: folded up to the first NUL, then by the number of bytes. -/
def nocaseKey (value : String) : String ×ₗ Nat :=
  toLex (foldCase (value.toList.takeWhile (· != Char.ofNat 0)), value.utf8ByteSize)

/-- An entity's identifier fits its column: it has no NUL and at most 128 characters. -/
theorem lengthWithin_entityId (id : EntityId) : lengthWithin id.asStr 128 = true := by
  obtain ⟨hne, hsize, hopaque⟩ := (validateOpaque_eq_ok_iff id.asStr).mp id.valid
  have hlength : id.asStr.toList.length = id.asStr.utf8ByteSize := by
    rw [← utf8ByteSize_of_all_opaque _ hopaque, String.ofList_toList]
  have hsql : sqlLength id.asStr = id.asStr.toList.length := by
    rw [sqlLength, List.takeWhile_eq_self_iff.mpr]
    intro c hc
    rw [List.all_eq_true] at hopaque
    have hc' := hopaque c hc
    by_contra hnul
    obtain rfl : c = Char.ofNat 0 := by simpa using hnul
    exact absurd hc' (by decide)
  have hpos : 0 < id.asStr.toList.length := by
    rw [List.length_pos_iff]
    intro hnil
    exact hne (String.toList_eq_nil_iff.mp hnil)
  rw [lengthWithin, Bool.and_eq_true, decide_eq_true_eq, decide_eq_true_eq, hsql]
  exact ⟨hpos, hlength ▸ hsize⟩

/-- Column constraints of the schema. -/
def labelChecks (label : ResourceLabel) : Bool :=
  lengthWithin label.name 128 && lengthWithin label.pattern 1024
    && decide (label.createdAtMs ≤ label.updatedAtMs)

/-- `UNIQUE(resource_kind, match_kind, pattern)`. -/
def sameKey (a b : ResourceLabel) : Bool :=
  a.resourceKind == b.resourceKind && a.matchKind == b.matchKind && a.pattern == b.pattern

/-- Row of a label that replaces a stored one: the time of creation is kept. -/
def replacing (label old : ResourceLabel) : ResourceLabel :=
  { label with createdAtMs := old.createdAtMs }

/-- `upsert_resource_label`: a valid label is written over the row of its identifier. -/
def upsertResourceLabel (rows : List ResourceLabel) (label : ResourceLabel) :
    Except StorageError (List ResourceLabel) :=
  if !(label.validate matches .ok _) then
    .error (.invalidInteraction "invalid resource label")
  else if labelChecks label
      && rows.all (fun row => row.id == label.id || !sameKey row label)
      && rows.all (fun row => row.id != label.id || labelChecks (replacing label row)) then
    .ok (upsertRow ResourceLabel.id label (replacing label) rows)
  else
    .error .database

/-- `substr(text, start, count)` with a positive start. -/
def substr (text : List Char) (start count : Nat) : List Char := (text.drop (start - 1)).take count

/-- A path matches its pattern and what lies below it. -/
def matchesPath (pattern identifier : List Char) : Bool :=
  pattern == identifier
    || (identifier.take pattern.length == pattern
      && (pattern.getLast? == some '/' || substr identifier (pattern.length + 1) 1 == ['/']))

/-- A host matches its pattern and what ends in it. -/
def matchesHost (pattern identifier : List Char) : Bool :=
  pattern == identifier
    || (decide (pattern.length < identifier.length)
      && identifier.drop (identifier.length - pattern.length) == pattern
      && substr identifier (identifier.length - pattern.length) 1 == ['.'])

/-- Row filter of the lookup. -/
def labelMatches (kind : ResourceKind) (identifier : String) (label : ResourceLabel) : Bool :=
  label.resourceKind == kind &&
    match label.matchKind with
    | .exact => label.pattern == identifier
    | .pathPrefix => matchesPath label.pattern.toList identifier.toList
    | .host => matchesHost label.pattern.toList identifier.toList

/-- `ORDER BY CASE match_kind WHEN 'exact' THEN 0 ELSE 1 END, length(pattern) DESC, id`. -/
def labelKey (label : ResourceLabel) : Nat ×ₗ Int ×ₗ String :=
  toLex (if label.matchKind = .exact then 0 else 1,
    toLex (-(sqlLength label.pattern : Int), label.id.asStr))

/-- `resource_label_for`: the first label that matches, the most specific first. -/
def resourceLabelFor (rows : List ResourceLabel) (kind : ResourceKind) (identifier : String) :
    Option ResourceLabel :=
  firstBy labelKey (rows.filter (labelMatches kind identifier))

/-- Classification of a resource: that of the deciding label, `Local` where there is none. -/
def classify (rows : List ResourceLabel) (kind : ResourceKind) (identifier : String) :
    ResourceClassification :=
  (resourceLabelFor rows kind identifier).elim .«local» ResourceLabel.classification

/-- `remove_resource_label`. -/
def removeResourceLabel (rows : List ResourceLabel) (id : ResourceLabelId) :
    Bool × List ResourceLabel :=
  let cond := fun row : ResourceLabel => eq (some row.id) (some id)
  (changes cond rows == 1, deleteRows cond rows)

/-! ## Rows

The columns of `resource_labels`. A row converts back to the label that it was written from, so that
the statements above may speak of labels. -/

/-- The text of a kind in its column. -/
def resourceKind : ResourceKind → String
  | .application => "application"
  | .file => "file"
  | .networkEndpoint => "network_endpoint"
  | .database => "database"
  | .agent => "agent"
  | .plugin => "plugin"
  | .system => "system"

/-- The kind of a text. -/
def parseResourceKind : String → Option ResourceKind :=
  parseVariant [.application, .file, .networkEndpoint, .database, .agent, .plugin, .system]
    resourceKind

/-- The text of a way to match in its column. -/
def resourceMatchKind : ResourceMatchKind → String
  | .exact => "exact"
  | .pathPrefix => "path_prefix"
  | .host => "host"

/-- The way to match of a text. -/
def parseResourceMatchKind : String → Option ResourceMatchKind :=
  parseVariant [.exact, .pathPrefix, .host] resourceMatchKind

/-- The text of a classification in its column. -/
def resourceClassification : ResourceClassification → String
  | .public => "public"
  | .local => "local"
  | .personal => "personal"
  | .sensitive => "sensitive"
  | .secret => "secret"
  | .production => "production"
  | .systemCritical => "system_critical"

/-- The classification of a text. -/
def parseResourceClassification : String → Option ResourceClassification :=
  parseVariant [.public, .local, .personal, .sensitive, .secret, .production, .systemCritical]
    resourceClassification

/-- The text of a classification of data in its column. -/
def dataClassification : DataClassification → String
  | .public => "public"
  | .personal => "personal"
  | .sensitive => "sensitive"
  | .secret => "secret"
  | .production => "production"

/-- The classification of data of a text. -/
def parseDataClassification : String → Option DataClassification :=
  parseVariant [.public, .personal, .sensitive, .secret, .production] dataClassification

/-- A row of the table of labels. -/
structure LabelRow where
  id : String
  name : String
  resourceKind : String
  matchKind : String
  pattern : String
  classification : String
  dataClassification : String
  createdAtMs : Int
  updatedAtMs : Int
  deriving DecidableEq

/-- Columns written for a label. -/
def LabelRow.ofLabel (label : ResourceLabel) : LabelRow where
  id := label.id.asStr
  name := label.name
  resourceKind := Labels.resourceKind label.resourceKind
  matchKind := resourceMatchKind label.matchKind
  pattern := label.pattern
  classification := resourceClassification label.classification
  dataClassification := Labels.dataClassification label.dataClassification
  createdAtMs := label.createdAtMs
  updatedAtMs := label.updatedAtMs

/-- `resource_label_from_row`: the label of a row, if its texts can be read. -/
def resourceLabelFromRow (row : LabelRow) : Except StorageError ResourceLabel :=
  orError .database do
    let id ← parseId _ row.id
    let resourceKind ← parseResourceKind row.resourceKind
    let matchKind ← parseResourceMatchKind row.matchKind
    let classification ← parseResourceClassification row.classification
    let dataClassification ← parseDataClassification row.dataClassification
    some {
      id, resourceKind, matchKind, classification, dataClassification
      name := row.name
      pattern := row.pattern
      createdAtMs := row.createdAtMs
      updatedAtMs := row.updatedAtMs }

/-- Column constraints of the schema. The words of the enumerations are those that are written. -/
def LabelRow.checks (row : LabelRow) : Bool :=
  lengthWithin row.name 128
    && (parseResourceKind row.resourceKind).isSome
    && (parseResourceMatchKind row.matchKind).isSome
    && lengthWithin row.pattern 1024
    && (parseResourceClassification row.classification).isSome
    && (parseDataClassification row.dataClassification).isSome
    && decide (row.createdAtMs ≤ row.updatedAtMs)

/-- `ON CONFLICT(id) DO UPDATE`: every column but the time of creation is replaced. -/
def LabelRow.replacedBy (row old : LabelRow) : LabelRow :=
  { row with id := old.id, createdAtMs := old.createdAtMs }

/-- `UNIQUE(resource_kind, match_kind, pattern)`. -/
def LabelRow.sameKey (a b : LabelRow) : Bool :=
  a.resourceKind == b.resourceKind && a.matchKind == b.matchKind && a.pattern == b.pattern

/-- `upsert_resource_label`, on the rows as they are stored. -/
def upsertLabelRow (rows : List LabelRow) (label : ResourceLabel) :
    Except StorageError (List LabelRow) := do
  rejectIf (!(label.validate matches .ok _)) (.invalidInteraction "invalid resource label")
  let row := LabelRow.ofLabel label
  rejectIf (!(row.checks
    && rows.all (fun old => old.id == row.id || !old.sameKey row)
    && rows.all fun old => old.id != row.id || (row.replacedBy old).checks)) .database
  return upsertRow LabelRow.id row row.replacedBy rows

/-- `ORDER BY name COLLATE NOCASE, id`. -/
def labelRowKey (row : LabelRow) : (String ×ₗ Nat) ×ₗ String := toLex (nocaseKey row.name, row.id)

/-- `list_resource_labels`: at most two hundred. -/
def listResourceLabels (rows : List LabelRow) (limit : Nat) :
    Except StorageError (List ResourceLabel) :=
  listRows labelRowKey resourceLabelFromRow (min limit 200) rows

/-- Each column reads what it writes. -/
theorem parseResourceKind_encode (kind : ResourceKind) :
    parseResourceKind (resourceKind kind) = some kind := by
  apply parseVariant_encode
  · intro a b h
    cases a <;> cases b <;> first | rfl | simp [resourceKind] at h
  · cases kind <;> simp

theorem parseResourceMatchKind_encode (kind : ResourceMatchKind) :
    parseResourceMatchKind (resourceMatchKind kind) = some kind := by
  apply parseVariant_encode
  · intro a b h
    cases a <;> cases b <;> first | rfl | simp [resourceMatchKind] at h
  · cases kind <;> simp

theorem parseResourceClassification_encode (classification : ResourceClassification) :
    parseResourceClassification (resourceClassification classification) = some classification := by
  apply parseVariant_encode
  · intro a b h
    cases a <;> cases b <;> first | rfl | simp [resourceClassification] at h
  · cases classification <;> simp

theorem parseDataClassification_encode (classification : DataClassification) :
    parseDataClassification (dataClassification classification) = some classification := by
  apply parseVariant_encode
  · intro a b h
    cases a <;> cases b <;> first | rfl | simp [dataClassification] at h
  · cases classification <;> simp

/-- A row reads back as the label it was written from. -/
theorem resourceLabelFromRow_ofLabel (label : ResourceLabel) :
    resourceLabelFromRow (.ofLabel label) = .ok label := by
  unfold resourceLabelFromRow
  rw [orError_eq_ok_iff]
  simp only [LabelRow.ofLabel]
  rw [parseId_asStr, parseResourceKind_encode, parseResourceMatchKind_encode,
    parseResourceClassification_encode, parseDataClassification_encode]
  rfl

theorem id_of_resourceLabelFromRow {row : LabelRow} {label : ResourceLabel}
    (h : resourceLabelFromRow row = .ok label) : label.id.asStr = row.id := by
  unfold resourceLabelFromRow at h
  rw [orError_eq_ok_iff] at h
  obtain ⟨id, hid, h⟩ := Option.bind_eq_some_iff.mp h
  -- The other columns.
  iterate 4 obtain ⟨_, -, h⟩ := Option.bind_eq_some_iff.mp h
  cases h
  exact asStr_of_parseId hid

section Rows

variable {rows rows' : List LabelRow} {label : ResourceLabel}

/-- A label that is saved is written over the row of its identifier. -/
theorem upsertLabelRow_spec (h : upsertLabelRow rows label = .ok rows') :
    rows' = upsertRow LabelRow.id (.ofLabel label) (LabelRow.ofLabel label).replacedBy rows := by
  simp only [upsertLabelRow, except_bind_eq_ok_iff, rejectIf_eq_ok_iff] at h
  obtain ⟨-, -, -, -, heq⟩ := h
  exact (Except.ok.inj heq).symm

/-- A label that replaces another one is written like one that was created earlier. -/
theorem replacedBy_ofLabel (label : ResourceLabel) {old : LabelRow}
    (hid : old.id = label.id.asStr) : (LabelRow.ofLabel label).replacedBy old =
      .ofLabel { label with createdAtMs := old.createdAtMs } := by
  simp [LabelRow.replacedBy, LabelRow.ofLabel, hid]

/-- Saving a label leaves the table readable. -/
theorem readable_upsertLabelRow (hrows : Readable resourceLabelFromRow rows)
    (h : upsertLabelRow rows label = .ok rows') : Readable resourceLabelFromRow rows' := by
  rw [upsertLabelRow_spec h]
  apply hrows.upsert ⟨_, resourceLabelFromRow_ofLabel label⟩
  intro old _ hid
  rw [replacedBy_ofLabel label hid]
  exact ⟨_, resourceLabelFromRow_ofLabel _⟩

/-! ### Rows and labels -/

/-- The constraints on the row are those on the label. -/
theorem checks_ofLabel (label : ResourceLabel) :
    (LabelRow.ofLabel label).checks = labelChecks label := by
  simp only [LabelRow.checks, labelChecks, LabelRow.ofLabel, parseResourceKind_encode,
    parseResourceMatchKind_encode, parseResourceClassification_encode,
    parseDataClassification_encode, Option.isSome_some, Bool.and_true]
  rfl

theorem sameKey_ofLabel (a b : ResourceLabel) :
    (LabelRow.ofLabel a).sameKey (.ofLabel b) = sameKey a b := by
  simp only [LabelRow.sameKey, sameKey, LabelRow.ofLabel, beq_encode parseResourceKind_encode,
    beq_encode parseResourceMatchKind_encode]

/-- The upsert of rows is the upsert of the labels that they were written from. -/
theorem upsertLabelRow_map (labels : List ResourceLabel) (label : ResourceLabel) :
    upsertLabelRow (labels.map .ofLabel) label =
      (upsertResourceLabel labels label).map (List.map .ofLabel) := by
  -- Identifiers, keys and checks of rows are those of the labels.
  have hid : ∀ old : ResourceLabel,
      ((LabelRow.ofLabel old).id == (LabelRow.ofLabel label).id) = (old.id == label.id) :=
    fun old => beq_encode parseId_asStr old.id label.id
  have hreplaced : ∀ old : ResourceLabel, old.id = label.id →
      (LabelRow.ofLabel label).replacedBy (.ofLabel old) = .ofLabel (replacing label old) :=
    fun old h => replacedBy_ofLabel label (congrArg TypedId.asStr h)
  have hchecks : (labels.map LabelRow.ofLabel).all (fun old =>
      old.id != (LabelRow.ofLabel label).id ||
        ((LabelRow.ofLabel label).replacedBy old).checks) =
        labels.all fun old => old.id != label.id || labelChecks (replacing label old) := by
    rw [List.all_map]
    congr 1
    funext old
    simp only [Function.comp_apply, bne, hid]
    by_cases h : old.id = label.id
    · rw [hreplaced old h, checks_ofLabel]
    · have hne : (old.id == label.id) = false := beq_false_of_ne h
      rw [hne]
      rfl
  have hkeys : (labels.map LabelRow.ofLabel).all (fun old =>
      old.id == (LabelRow.ofLabel label).id || !old.sameKey (.ofLabel label)) =
        labels.all fun old => old.id == label.id || !sameKey old label := by
    rw [List.all_map]
    congr 1
    funext old
    simp only [Function.comp_apply, hid, sameKey_ofLabel]
  have hrows : upsertRow LabelRow.id (.ofLabel label) (LabelRow.ofLabel label).replacedBy
      (labels.map .ofLabel) =
        (upsertRow ResourceLabel.id label (replacing label) labels).map .ofLabel := by
    refine map_upsertRow (fun old => ?_) hreplaced
    exact ⟨fun h => TypedId.ext h, fun h => congrArg TypedId.asStr h⟩
  -- Under these equations the two functions are one.
  unfold upsertLabelRow upsertResourceLabel
  dsimp only
  rw [checks_ofLabel, hkeys, hchecks, hrows]
  cases hvalid : label.validate with
  | error e => rfl
  | ok u =>
      generalize (labelChecks label
        && labels.all (fun old => old.id == label.id || !sameKey old label)
        && labels.all fun old => old.id != label.id || labelChecks (replacing label old)) = accepted
      cases accepted <;> rfl

/-- A label under a new identifier is listed, where the listing reaches it. -/
theorem label_listed_iff (h : upsertLabelRow rows label = .ok rows')
    (hfresh : ∀ r ∈ rows, r.id ≠ label.id.asStr) (limit : Nat) :
    Listed (fun l => l.id.asStr) (listResourceLabels rows' limit) label ↔
      Reaches labelRowKey resourceLabelFromRow (min limit 200) rows (.ofLabel label) := by
  have hnew : ∀ r ∈ rows, r.id ≠ (LabelRow.ofLabel label).id := hfresh
  have hident : ∀ r w, resourceLabelFromRow r = .ok w → w.id.asStr = LabelRow.id r :=
    fun _ _ => id_of_resourceLabelFromRow
  have hkey : ∀ r ∈ rows, labelRowKey r ≠ labelRowKey (.ofLabel label) := by
    intro r hr heq
    exact hfresh r hr (congrArg (fun key => (ofLex key).2) heq)
  rw [upsertLabelRow_spec h, upsertRow_of_fresh hnew]
  have hlisted := listed_append_iff hident hnew hkey (resourceLabelFromRow_ofLabel label) rfl
    (min limit 200)
  exact hlisted.trans (and_iff_right rfl)

end Rows

end Halquen.Storage.Labels
