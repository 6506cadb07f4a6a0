import Halquen.Library.Run
import Halquen.Storage.Labels

/-!
# The label that decides

The row filter of the label lookup is written with `substr` and `length`. A path prefix matches the
identifiers that are its pattern or extend it at a slash (`matchesPath_iff`), a host those that are
its pattern or end in a dot and its pattern (`matchesHost_iff`). Among the labels that match, an
exact one is preferred and then one with the longest pattern (`resource_label_decides`).
-/

set_option autoImplicit false

namespace Halquen.Storage.LabelLookup

open Halquen.Domain.Ids Halquen.Domain.Security
open Halquen.Library.Run Halquen.Library.Sql Halquen.Library.TextCodec
open Halquen.Storage.Grants (StorageError parseId_asStr)
open Halquen.Storage.Labels

/-! ## Patterns -/

/-- The identifier is the pattern, or extends it at a slash: the pattern ends in one, or it is the
next character. -/
def AtSlash (pattern identifier : List Char) : Prop :=
  identifier = pattern ∨ ∃ rest, identifier = pattern ++ rest ∧
    (pattern.getLast? = some '/' ∨ rest.head? = some '/')

/-- The identifier is the pattern, or ends in a dot and the pattern. -/
def AtDot (pattern identifier : List Char) : Prop :=
  identifier = pattern ∨ ∃ front, identifier = front ++ '.' :: pattern

theorem take_eq_self_iff (pattern identifier : List Char) :
    identifier.take pattern.length = pattern ↔ ∃ rest, identifier = pattern ++ rest := by
  constructor
  · intro h
    refine ⟨identifier.drop pattern.length, ?_⟩
    rw [← h, List.length_take_of_le, List.take_append_drop]
    have hlength := congrArg List.length h
    rw [List.length_take] at hlength
    omega
  · rintro ⟨rest, rfl⟩
    exact List.take_left

theorem substr_next (pattern rest : List Char) :
    substr (pattern ++ rest) (pattern.length + 1) 1 = rest.take 1 := by
  unfold substr
  rw [Nat.add_sub_cancel, List.drop_left]

theorem take_one_eq_iff (text : List Char) (c : Char) :
    text.take 1 = [c] ↔ text.head? = some c := by
  cases text with
  | nil => simp
  | cons d text => simp

/-- A path matches where the pattern ends at a slash. -/
theorem matchesPath_iff (pattern identifier : List Char) :
    matchesPath pattern identifier = true ↔ AtSlash pattern identifier := by
  unfold matchesPath AtSlash
  simp only [Bool.or_eq_true, Bool.and_eq_true, beq_iff_eq, take_eq_self_iff]
  apply or_congr eq_comm
  constructor
  · rintro ⟨⟨rest, rfl⟩, hboundary⟩
    rw [substr_next, take_one_eq_iff] at hboundary
    exact ⟨rest, rfl, hboundary⟩
  · rintro ⟨rest, rfl, hboundary⟩
    rw [substr_next, take_one_eq_iff]
    exact ⟨⟨rest, rfl⟩, hboundary⟩

/-- `substr(identifier, -length(pattern))` and the character before it. -/
theorem matchesHost_iff (pattern identifier : List Char) :
    matchesHost pattern identifier = true ↔ AtDot pattern identifier := by
  unfold matchesHost AtDot
  simp only [Bool.or_eq_true, Bool.and_eq_true, beq_iff_eq, decide_eq_true_eq]
  apply or_congr eq_comm
  constructor
  · rintro ⟨⟨hlonger, hend⟩, hdot⟩
    -- The text before the pattern is not empty, and its last character is the dot.
    have hsplit := List.take_append_drop (identifier.length - pattern.length) identifier
    rw [hend] at hsplit
    unfold substr at hdot
    have hlast : identifier.drop (identifier.length - pattern.length - 1) = '.' :: pattern := by
      have hnext : (identifier.drop (identifier.length - pattern.length - 1)).drop 1 = pattern := by
        rw [List.drop_drop, Nat.sub_add_cancel (by omega), hend]
      rw [← List.take_append_drop 1
        (identifier.drop (identifier.length - pattern.length - 1)), hdot, hnext]
      rfl
    refine ⟨identifier.take (identifier.length - pattern.length - 1), ?_⟩
    rw [← hlast, List.take_append_drop]
  -- The positions of the source, for a text that is taken apart already.
  · rintro ⟨front, rfl⟩
    have hlength : (front ++ '.' :: pattern).length - pattern.length = front.length + 1 := by
      rw [List.length_append, List.length_cons]
      omega
    rw [hlength]
    refine ⟨⟨?_, ?_⟩, ?_⟩
    · rw [List.length_append, List.length_cons]
      omega
    · rw [List.drop_append, List.drop_eq_nil_of_le (Nat.le_succ _), Nat.add_sub_cancel_left]
      rfl
    · unfold substr
      rw [Nat.add_sub_cancel, List.drop_left]
      rfl

/-! ## Labels -/

/-- A label is about resources of a kind and its pattern matches the identifier. -/
def Matches (kind : ResourceKind) (identifier : String) (label : ResourceLabel) : Prop :=
  label.resourceKind = kind ∧
    match label.matchKind with
    | .exact => label.pattern = identifier
    | .pathPrefix => AtSlash label.pattern.toList identifier.toList
    | .host => AtDot label.pattern.toList identifier.toList

/-- The query matches what the label says. -/
theorem labelMatches_iff (kind : ResourceKind) (identifier : String) (label : ResourceLabel) :
    labelMatches kind identifier label = true ↔ Matches kind identifier label := by
  unfold labelMatches Matches
  rw [Bool.and_eq_true, beq_iff_eq]
  apply and_congr_right'
  cases label.matchKind with
  | exact => exact beq_iff_eq
  | pathPrefix => exact matchesPath_iff _ _
  | host => exact matchesHost_iff _ _

/-- An exact label whose pattern is the identifier. -/
def IsExact (kind : ResourceKind) (identifier : String) (label : ResourceLabel) : Prop :=
  label.resourceKind = kind ∧ label.matchKind = .exact ∧ label.pattern = identifier

/-- An exact label matches. -/
theorem IsExact.matches {kind : ResourceKind} {identifier : String} {label : ResourceLabel}
    (h : IsExact kind identifier label) : Matches kind identifier label := by
  obtain ⟨hkind, hexact, hpattern⟩ := h
  refine ⟨hkind, ?_⟩
  rw [hexact]
  exact hpattern

/-- The pattern of a label that matches occurs in the identifier. -/
theorem Matches.subset {kind : ResourceKind} {identifier : String} {label : ResourceLabel}
    (h : Matches kind identifier label) : label.pattern.toList ⊆ identifier.toList := by
  obtain ⟨-, hmatches⟩ := h
  cases hkind : label.matchKind <;> rw [hkind] at hmatches
  · rw [hmatches]
    exact List.Subset.refl _
  · rcases hmatches with heq | ⟨rest, heq, -⟩ <;> rw [heq]
    · exact List.Subset.refl _
    · exact List.subset_append_left _ _
  · rcases hmatches with heq | ⟨front, heq⟩ <;> rw [heq]
    · exact List.Subset.refl _
    · exact fun c hc => List.mem_append_right _ (List.mem_cons_of_mem _ hc)

/-- SQLite counts the characters of a text without zeros. -/
theorem sqlLength_of_notMem {text : String} (h : Char.ofNat 0 ∉ text.toList) :
    sqlLength text = text.length := by
  rw [sqlLength, List.takeWhile_eq_self_iff.mpr, String.length_toList]
  intro c hc
  rw [bne_iff_ne]
  rintro rfl
  exact h hc

/-- Of two labels that match, the one that comes first is exact if the other one is, and has the
longer pattern if it is not. -/
theorem labelKey_le {a b : ResourceLabel} (h : labelKey a ≤ labelKey b)
    (ha : Char.ofNat 0 ∉ a.pattern.toList) (hb : Char.ofNat 0 ∉ b.pattern.toList) :
    (b.matchKind = .exact → a.matchKind = .exact) ∧
      (a.matchKind ≠ .exact → b.pattern.length ≤ a.pattern.length) := by
  unfold labelKey at h
  rw [Prod.Lex.toLex_le_toLex] at h
  rw [sqlLength_of_notMem ha, sqlLength_of_notMem hb] at h
  by_cases hexact : a.matchKind = .exact
  · exact ⟨fun _ => hexact, fun hne => absurd hexact hne⟩
  · rw [if_neg hexact] at h
    by_cases hexact' : b.matchKind = .exact
    · rw [if_pos hexact'] at h
      rcases h with hlt | ⟨heq, -⟩
      · omega
      · omega
    · rw [if_neg hexact'] at h
      refine ⟨fun heq => absurd heq hexact', fun _ => ?_⟩
      rcases h with hlt | ⟨-, hle⟩
      · omega
      · rw [Prod.Lex.toLex_le_toLex] at hle
        rcases hle with hlt | ⟨heq, -⟩ <;> omega

/-- No label is found where none matches. -/
theorem resourceLabelFor_eq_none_iff (labels : List ResourceLabel) (kind : ResourceKind)
    (identifier : String) : resourceLabelFor labels kind identifier = none ↔
      ∀ label ∈ labels, ¬ Matches kind identifier label := by
  unfold resourceLabelFor
  rw [firstBy_eq_none_iff, List.filter_eq_nil_iff]
  simp only [labelMatches_iff]

/-- The label that decides matches, is exact if one of the labels is, and otherwise has the longest
pattern. -/
theorem resourceLabelFor_spec {labels : List ResourceLabel} {kind : ResourceKind}
    {identifier : String} (hnul : Char.ofNat 0 ∉ identifier.toList) {label : ResourceLabel}
    (h : resourceLabelFor labels kind identifier = some label) :
    label ∈ labels ∧ Matches kind identifier label ∧
      ((∃ exact ∈ labels, IsExact kind identifier exact) → IsExact kind identifier label) ∧
      ((¬ ∃ exact ∈ labels, IsExact kind identifier exact) → ∀ other ∈ labels,
        Matches kind identifier other → other.pattern.length ≤ label.pattern.length) := by
  obtain ⟨hmem, hleast⟩ := firstBy_spec h
  obtain ⟨hlabel, hmatches⟩ := List.mem_filter.mp hmem
  rw [labelMatches_iff] at hmatches
  have hpattern : ∀ other, Matches kind identifier other → Char.ofNat 0 ∉ other.pattern.toList :=
    fun other hother hmem => hnul (hother.subset hmem)
  have hfirst : ∀ other ∈ labels, Matches kind identifier other →
      (other.matchKind = .exact → label.matchKind = .exact) ∧
        (label.matchKind ≠ .exact → other.pattern.length ≤ label.pattern.length) := by
    intro other hother hmatches'
    have hle := hleast other (List.mem_filter.mpr ⟨hother, (labelMatches_iff ..).mpr hmatches'⟩)
    exact labelKey_le hle (hpattern label hmatches) (hpattern other hmatches')
  -- An exact label that matches has the identifier as its pattern.
  have hisExact : label.matchKind = .exact → IsExact kind identifier label := by
    intro hexact
    obtain ⟨hkind, hequal⟩ := hmatches
    rw [hexact] at hequal
    exact ⟨hkind, hexact, hequal⟩
  refine ⟨hlabel, hmatches, ?_, ?_⟩
  · rintro ⟨exact, hexact, hisexact⟩
    exact hisExact ((hfirst exact hexact hisexact.matches).1 hisexact.2.1)
  · intro hnone other hother hmatches'
    exact (hfirst other hother hmatches').2 fun hexact => hnone ⟨label, hlabel, hisExact hexact⟩

/-! ## The stored table -/

/-- Row filter of the lookup, on the columns. -/
def rowMatches (kind : ResourceKind) (identifier : String) (row : LabelRow) : Bool :=
  row.resourceKind == resourceKind kind &&
    (row.matchKind == "exact" && row.pattern == identifier
      || row.matchKind == "path_prefix" && matchesPath row.pattern.toList identifier.toList
      || row.matchKind == "host" && matchesHost row.pattern.toList identifier.toList)

/-- `ORDER BY CASE match_kind WHEN 'exact' THEN 0 ELSE 1 END, length(pattern) DESC, id`. -/
def rowKey (row : LabelRow) : Nat ×ₗ Int ×ₗ String :=
  toLex (if row.matchKind = "exact" then 0 else 1, toLex (-(sqlLength row.pattern : Int), row.id))

/-- The first row that matches, read as a label. -/
def resourceLabelForRows (rows : List LabelRow) (kind : ResourceKind) (identifier : String) :
    Except StorageError (Option ResourceLabel) :=
  match firstBy rowKey (rows.filter (rowMatches kind identifier)) with
  | none => .ok none
  | some row => (resourceLabelFromRow row).map some

/-- The query on the rows is the one on the labels. -/
theorem rowMatches_ofLabel (kind : ResourceKind) (identifier : String) (label : ResourceLabel) :
    rowMatches kind identifier (.ofLabel label) = labelMatches kind identifier label := by
  unfold rowMatches labelMatches
  congr 1
  · exact beq_encode parseResourceKind_encode label.resourceKind kind
  · simp only [LabelRow.ofLabel]
    cases label.matchKind <;> simp [resourceMatchKind]

theorem rowKey_ofLabel (label : ResourceLabel) : rowKey (.ofLabel label) = labelKey label := by
  unfold rowKey labelKey
  cases h : label.matchKind <;> simp [LabelRow.ofLabel, h, resourceMatchKind]

/-- On rows that were written from labels, the lookup is that on the labels. -/
theorem resourceLabelForRows_map (labels : List ResourceLabel) (kind : ResourceKind)
    (identifier : String) : resourceLabelForRows (labels.map .ofLabel) kind identifier =
      .ok (resourceLabelFor labels kind identifier) := by
  have hfilter : (labels.map LabelRow.ofLabel).filter (rowMatches kind identifier) =
      (labels.filter (labelMatches kind identifier)).map .ofLabel := by
    rw [List.filter_map]
    congr 2
    funext label
    exact rowMatches_ofLabel kind identifier label
  have hfirst : firstBy rowKey ((labels.filter (labelMatches kind identifier)).map .ofLabel) =
      (firstBy labelKey (labels.filter (labelMatches kind identifier))).map .ofLabel := by
    unfold firstBy orderBy
    rw [← List.map_insertionSort (fun a b => labelKey a ≤ labelKey b), List.head?_map]
    intro a _ b _
    rw [rowKey_ofLabel, rowKey_ofLabel]
  unfold resourceLabelForRows resourceLabelFor
  rw [hfilter, hfirst]
  cases firstBy labelKey (labels.filter (labelMatches kind identifier)) with
  | none => rfl
  | some label =>
      change (resourceLabelFromRow (.ofLabel label)).map some = _
      rw [resourceLabelFromRow_ofLabel]
      rfl

/-- The table after an upsert, which leaves it as it was if it is refused. -/
def upserted (rows : List LabelRow) (label : ResourceLabel) : List LabelRow :=
  (upsertLabelRow rows label).toOption.getD rows

/-- Whatever is upserted, the rows were written from labels. -/
theorem exists_labels (calls : List ResourceLabel) :
    ∃ labels : List ResourceLabel, run upserted [] calls = labels.map .ofLabel := by
  apply run_invariant
    (I := fun rows : List LabelRow => ∃ labels : List ResourceLabel, rows = labels.map .ofLabel)
  · rintro rows label ⟨labels, rfl⟩
    unfold upserted
    rw [upsertLabelRow_map]
    cases upsertResourceLabel labels label with
    | error e => exact ⟨labels, rfl⟩
    | ok labels' => exact ⟨labels', rfl⟩
  · exact ⟨[], rfl⟩

/-- The lookup in a table that upserts have filled: it finds a label exactly if one of the labels
that are stored matches, and then an exact one if there is one, or one with the longest pattern. -/
theorem resource_label_decides (calls : List ResourceLabel) (kind : ResourceKind)
    (identifier : String) (hnul : Char.ofNat 0 ∉ identifier.toList) :
    ∃ labels : List ResourceLabel, run upserted [] calls = labels.map .ofLabel ∧
      ∃ found, resourceLabelForRows (run upserted [] calls) kind identifier = .ok found ∧
        (found = none ↔ ∀ label ∈ labels, ¬ Matches kind identifier label) ∧
        ∀ label, found = some label → label ∈ labels ∧ Matches kind identifier label ∧
          ((∃ exact ∈ labels, IsExact kind identifier exact) → IsExact kind identifier label) ∧
          ((¬ ∃ exact ∈ labels, IsExact kind identifier exact) → ∀ other ∈ labels,
            Matches kind identifier other → other.pattern.length ≤ label.pattern.length) := by
  obtain ⟨labels, hrows⟩ := exists_labels calls
  refine ⟨labels, hrows, resourceLabelFor labels kind identifier, ?_, ?_, ?_⟩
  · rw [hrows, resourceLabelForRows_map]
  · exact resourceLabelFor_eq_none_iff labels kind identifier
  · intro label hlabel
    exact resourceLabelFor_spec hnul hlabel

/-- The label of the files below a path. -/
def pathLabel (number : Fin (2 ^ 64)) (pattern : String) : ResourceLabel where
  id := .generate .resourceLabel ⟨0, 0, number⟩
  name := pattern
  resourceKind := .file
  matchKind := .pathPrefix
  pattern := pattern
  classification := .personal
  dataClassification := .sensitive
  createdAtMs := 1
  updatedAtMs := 1

/-- Of two prefixes of a path, the longer one decides. -/
theorem resource_label_decides_longer :
    ∃ labels : List ResourceLabel,
      run upserted [] [pathLabel 1 "/home", pathLabel 2 "/home/fixture"] = labels.map .ofLabel ∧
        pathLabel 2 "/home/fixture" ∈ labels ∧
        ∀ other ∈ labels, Matches .file "/home/fixture/db.dump" other →
          other.pattern.length ≤ "/home/fixture".length := by
  obtain ⟨labels, hrows, found, hfound, -, hdecides⟩ :=
    resource_label_decides [pathLabel 1 "/home", pathLabel 2 "/home/fixture"] .file
      "/home/fixture/db.dump" (by decide)
  have hlonger : resourceLabelForRows (run upserted []
      [pathLabel 1 "/home", pathLabel 2 "/home/fixture"]) .file "/home/fixture/db.dump" =
        .ok (some (pathLabel 2 "/home/fixture")) := by decide
  rw [hlonger] at hfound
  cases hfound
  obtain ⟨hmem, -, hexact, hlongest⟩ := hdecides _ rfl
  refine ⟨labels, hrows, hmem, hlongest fun h => ?_⟩
  cases (hexact h).2.1

end Halquen.Storage.LabelLookup
