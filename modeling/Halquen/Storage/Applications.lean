import Halquen.Domain.Application
import Halquen.Storage.Agents

/-!
# The table of registered applications

Rows of `registered_applications` have one column for the executable and the canonical path of its
identity. A valid registration has the same text for both, so that a row reads back as the
registration that it was written from (`applicationFromRow_ofApplication`).
-/

set_option autoImplicit false

namespace Halquen.Storage.Applications

open Halquen.Domain.Ids Halquen.Domain.Agent Halquen.Domain.Application
open Halquen.Library.Sql Halquen.Library.Listing
open Halquen.Storage.Grants Halquen.Storage.Labels Halquen.Storage.Agents

/-! ## Columns -/

/-- A row of `registered_applications`. -/
structure ApplicationRow where
  entityId : String
  displayName : String
  executable : String
  argumentsJson : String
  executableOwnership : String
  executableDevice : Int
  executableInode : Int
  executableOwnerUid : Int
  executableSize : Int
  executableMtimeSeconds : Int
  executableMtimeNanoseconds : Int
  executableSha256Hex : Option String
  enabled : Int
  createdAtMs : Int
  updatedAtMs : Int
  deriving DecidableEq

/-- Columns written for a registration. -/
def ApplicationRow.ofApplication (codec : ArgumentsCodec) (application : RegisteredApplication) :
    ApplicationRow where
  entityId := application.entityId.asStr
  displayName := application.displayName
  executable := application.executable
  argumentsJson := codec.toText application.arguments
  executableOwnership := Agents.executableOwnership application.ownership
  executableDevice := application.identity.device.toNat
  executableInode := application.identity.inode.toNat
  executableOwnerUid := application.identity.ownerUid.toNat
  executableSize := application.identity.size.toNat
  executableMtimeSeconds := application.identity.modifiedSeconds
  executableMtimeNanoseconds := application.identity.modifiedNanoseconds
  executableSha256Hex := application.identity.sha256Hex
  enabled := boolColumn application.enabled
  createdAtMs := application.createdAtMs
  updatedAtMs := application.updatedAtMs

/-- Reads a row; a column that does not convert is an error of the query. -/
def applicationFromRow (codec : ArgumentsCodec) (row : ApplicationRow) :
    Except StorageError RegisteredApplication :=
  orError .database do
    let entityId ← parseId _ row.entityId
    let arguments ← codec.fromText row.argumentsJson
    let ownership ← parseExecutableOwnership row.executableOwnership
    let identity ← identityFromColumns row.executable (some row.executableDevice)
      (some row.executableInode) (some row.executableOwnerUid) (some row.executableSize)
      (some row.executableMtimeSeconds) (some row.executableMtimeNanoseconds)
      row.executableSha256Hex
    some {
      entityId, arguments, ownership, identity
      displayName := row.displayName
      executable := row.executable
      enabled := parseBool row.enabled
      createdAtMs := row.createdAtMs
      updatedAtMs := row.updatedAtMs }

/-- Column constraints of the schema. JSON validity is what serialisation gives, and the prefix of
the identifier what the validation requires. -/
def ApplicationRow.checks (row : ApplicationRow) : Bool :=
  lengthWithin row.entityId 128
    && lengthWithin row.displayName 128
    && lengthWithin row.executable 1024
    && decide (sqlLength row.argumentsJson ≤ 32768)
    && (row.executableOwnership == "root_only"
      || row.executableOwnership == "root_or_current_user")
    && between 0 999999999 row.executableMtimeNanoseconds
    && row.executableSha256Hex.all (fun hash => decide (sqlLength hash = 64))
    && (row.enabled == 0 || row.enabled == 1)
    && decide (row.createdAtMs ≤ row.updatedAtMs)

/-! ## Statements -/

/-- `ON CONFLICT(entity_id) DO UPDATE`: every column but the time of creation is replaced. -/
def ApplicationRow.replacedBy (row old : ApplicationRow) : ApplicationRow :=
  { row with entityId := old.entityId, createdAtMs := old.createdAtMs }

/-- Upsert of a registration. The column of the executable is `UNIQUE`. -/
def upsertRegisteredApplication (codec : ArgumentsCodec) (rows : List ApplicationRow)
    (application : RegisteredApplication) : Except StorageError (List ApplicationRow) := do
  rejectIf (!(application.validate matches .ok _))
    (.invalidInteraction "invalid application registration")
  rejectIf (!([application.identity.device.toNat, application.identity.inode.toNat,
      application.identity.size.toNat].all fitsInteger))
    (.invalidInteraction "numeric identity exceeds SQLite range")
  let row := ApplicationRow.ofApplication codec application
  rejectIf (!(row.checks
    && rows.all (fun old => old.entityId == row.entityId || old.executable != row.executable)
    && rows.all fun old => old.entityId != row.entityId || (row.replacedBy old).checks)) .database
  return upsertRow ApplicationRow.entityId row row.replacedBy rows

/-- `ORDER BY display_name COLLATE NOCASE, entity_id`. -/
def applicationKey (row : ApplicationRow) : (String ×ₗ Nat) ×ₗ String :=
  toLex (nocaseKey row.displayName, row.entityId)

/-- `list_registered_applications`: at most two hundred, by name. -/
def listRegisteredApplications (codec : ArgumentsCodec) (rows : List ApplicationRow)
    (limit : Nat) : Except StorageError (List RegisteredApplication) :=
  listRows applicationKey (applicationFromRow codec) (min limit 200) rows

/-- `remove_registered_application`. -/
def removeRegisteredApplication (rows : List ApplicationRow) (entityId : EntityId) :
    Bool × List ApplicationRow :=
  let cond := fun row : ApplicationRow => eq (some row.entityId) (some entityId.asStr)
  (changes cond rows == 1, deleteRows cond rows)

/-! ## Rows written from registrations -/

/-- A row reads back as the registration, if that has one path. -/
theorem applicationFromRow_ofApplication {codec : ArgumentsCodec} (hcodec : codec.Lawful)
    {application : RegisteredApplication}
    (hpath : application.identity.canonicalPath = application.executable) :
    applicationFromRow codec (.ofApplication codec application) = .ok application := by
  have hidentity : ({ application.identity with canonicalPath := application.executable } :
      ExecutableIdentity) = application.identity := by
    rw [← hpath]
  unfold applicationFromRow
  rw [orError_eq_ok_iff]
  simp only [ApplicationRow.ofApplication]
  rw [parseId_asStr, hcodec application.arguments, parseExecutableOwnership_encode,
    identityFromColumns_encode, hidentity, parseBool_column]
  rfl

theorem entityId_of_applicationFromRow {codec : ArgumentsCodec} {row : ApplicationRow}
    {application : RegisteredApplication} (h : applicationFromRow codec row = .ok application) :
    application.entityId.asStr = row.entityId := by
  unfold applicationFromRow at h
  rw [orError_eq_ok_iff] at h
  obtain ⟨entityId, hid, h⟩ := Option.bind_eq_some_iff.mp h
  -- The other columns.
  iterate 3 obtain ⟨_, -, h⟩ := Option.bind_eq_some_iff.mp h
  cases h
  exact asStr_of_parseId hid

/-! ## Listed registrations -/

section Rows

variable {codec : ArgumentsCodec} {rows rows' : List ApplicationRow}
  {application : RegisteredApplication}

/-- An application that is saved is written over the row of its identifier. -/
theorem upsertRegisteredApplication_spec
    (h : upsertRegisteredApplication codec rows application = .ok rows') :
    application.validate = .ok () ∧ rows' = upsertRow ApplicationRow.entityId
      (.ofApplication codec application)
      (ApplicationRow.ofApplication codec application).replacedBy rows := by
  simp only [upsertRegisteredApplication, except_bind_eq_ok_iff, rejectIf_eq_ok_iff] at h
  obtain ⟨-, hvalid, -, -, -, -, heq⟩ := h
  refine ⟨?_, (Except.ok.inj heq).symm⟩
  cases hvalidate : application.validate with
  | ok u => rfl
  | error e => simp [hvalidate] at hvalid

/-- A registration replaces only those that were created before its update. -/
theorem createdAt_le_of_upsert
    (h : upsertRegisteredApplication codec rows application = .ok rows') {old : ApplicationRow}
    (hold : old ∈ rows) (hid : old.entityId = application.entityId.asStr) :
    old.createdAtMs ≤ application.updatedAtMs := by
  simp only [upsertRegisteredApplication, except_bind_eq_ok_iff, rejectIf_eq_ok_iff] at h
  obtain ⟨-, -, -, -, -, hchecks, -⟩ := h
  rw [Bool.not_eq_false', Bool.and_eq_true, List.all_eq_true] at hchecks
  have hreplaced := hchecks.2 old hold
  have hsame : old.entityId = (ApplicationRow.ofApplication codec application).entityId := hid
  rw [hsame, bne_self_eq_false, Bool.false_or] at hreplaced
  unfold ApplicationRow.checks at hreplaced
  rw [Bool.and_eq_true, decide_eq_true_eq] at hreplaced
  exact hreplaced.2

/-- A registration that replaces another one is written like one that was made earlier. -/
theorem replacedBy_ofApplication (application : RegisteredApplication) {old : ApplicationRow}
    (hid : old.entityId = application.entityId.asStr) :
    (ApplicationRow.ofApplication codec application).replacedBy old =
      .ofApplication codec { application with createdAtMs := old.createdAtMs } := by
  simp [ApplicationRow.replacedBy, ApplicationRow.ofApplication, hid]

/-- Saving an application leaves the table readable. -/
theorem readable_upsertRegisteredApplication (hcodec : codec.Lawful)
    (hrows : Readable (applicationFromRow codec) rows)
    (h : upsertRegisteredApplication codec rows application = .ok rows') :
    Readable (applicationFromRow codec) rows' := by
  obtain ⟨hvalid, rfl⟩ := upsertRegisteredApplication_spec h
  have hpath := canonicalPath_of_validate hvalid
  apply hrows.upsert ⟨_, applicationFromRow_ofApplication hcodec hpath⟩
  intro old _ hid
  rw [replacedBy_ofApplication application hid]
  exact ⟨_, applicationFromRow_ofApplication hcodec hpath⟩

/-- A registration under a new identifier is listed, where the listing reaches it. -/
theorem application_listed_iff (hcodec : codec.Lawful)
    (h : upsertRegisteredApplication codec rows application = .ok rows')
    (hfresh : ∀ r ∈ rows, r.entityId ≠ application.entityId.asStr) (limit : Nat) :
    Listed (fun a => a.entityId.asStr) (listRegisteredApplications codec rows' limit)
        application ↔
      Reaches applicationKey (applicationFromRow codec) (min limit 200) rows
        (.ofApplication codec application) := by
  obtain ⟨hvalid, rfl⟩ := upsertRegisteredApplication_spec h
  have hread := applicationFromRow_ofApplication hcodec (canonicalPath_of_validate hvalid)
  have hnew : ∀ r ∈ rows, r.entityId ≠ (ApplicationRow.ofApplication codec application).entityId :=
    hfresh
  have hident : ∀ r w, applicationFromRow codec r = .ok w →
      w.entityId.asStr = ApplicationRow.entityId r :=
    fun _ _ => entityId_of_applicationFromRow
  have hkey : ∀ r ∈ rows,
      applicationKey r ≠ applicationKey (.ofApplication codec application) := by
    intro r hr heq
    exact hfresh r hr (congrArg (fun key => (ofLex key).2) heq)
  rw [upsertRow_of_fresh hnew]
  have hlisted := listed_append_iff hident hnew hkey hread rfl (min limit 200)
  exact hlisted.trans (and_iff_right rfl)

end Rows

end Halquen.Storage.Applications
