import Halquen.Capabilities.Applications
import Halquen.Capabilities.Executable
import Halquen.Library.History
import Halquen.Service.State
import Halquen.Storage.RoundTrips

/-!
# Registrations and restarts

The trusted registrations are kept twice: in a table, and in a registry in memory that the executor
consults. A request changes both or none (`unchanged_of_failure`). The registry is filled from a
listing of the table whenever the daemon starts, and this listing has at most 200 entries: the two
agree along a run exactly if no start finds more rows than that (`registry_agrees_iff`).
-/

set_option autoImplicit false

namespace Halquen.Service.Registrations

open Halquen.Domain.Ids Halquen.Domain.Capability Halquen.Domain.Agent
open Halquen.Domain.Application
open Halquen.Capabilities.Applications Halquen.Capabilities.Executable
open Halquen.Library.Action Halquen.Library.Action.Act Halquen.Library.History
open Halquen.Library.Listing Halquen.Library.Mirror Halquen.Library.Run Halquen.Library.Sql
open Halquen.Service.State
open Halquen.Storage.Agents Halquen.Storage.Applications Halquen.Storage.Grants
open Halquen.Storage.Labels Halquen.Storage.RoundTrips

/-! ## Requests -/

/-- The table of registrations, and the registry in memory. -/
structure Copies where
  rows : List ApplicationRow
  registry : ApplicationRegistry

/-- What can go wrong around a request: the lock of the registry is poisoned, or the database
refuses a statement. -/
structure Faults where
  poisoned : Bool
  refused : Bool

/-- An application as a client asks for it. The daemon inspects the executable itself. -/
structure ApplicationRegistrationUpsert where
  entityId : EntityId
  displayName : String
  executable : String
  arguments : List String
  ownership : ExecutableOwnership
  sha256Hex : Option String
  enabled : Bool

/-- The registration of an inspected executable. -/
def ApplicationRegistrationUpsert.intoRegistration (input : ApplicationRegistrationUpsert)
    (nowMs : Int) (identity : ExecutableIdentity) : RegisteredApplication where
  entityId := input.entityId
  displayName := input.displayName
  executable := identity.canonicalPath
  arguments := input.arguments
  ownership := input.ownership
  identity := identity
  enabled := input.enabled
  createdAtMs := nowMs
  updatedAtMs := nowMs

/-- A request, with what it finds in the file system and on the clock. -/
inductive Request where
  | upsertRegisteredApplication (input : ApplicationRegistrationUpsert) (files : FileSystem)
      (nowMs : Int)
  | removeRegisteredApplication (entityId : EntityId)

/-- What the service answers to a request about applications. -/
inductive Reply where
  | registeredApplicationSaved (application : RegisteredApplication)
  | registeredApplicationRemoved (removed : Bool)

section

variable (codec : ArgumentsCodec) (faults : Faults)

/-- The write lock of the registry. -/
def lockRegistry : Act Copies Failure Unit := require (!faults.poisoned) internalError

/-- The upsert of the row. -/
def saveRow (application : RegisteredApplication) : Act Copies Failure Unit := do
  require (!faults.refused) internalError
  let rows ← mapError (fun _ => internalError) (reads fun c =>
    Storage.Applications.upsertRegisteredApplication codec c.rows application)
  modify fun c => { c with rows := rows }

/-- The application enters the registry in memory. -/
def enter (application : RegisteredApplication) : Act Copies Failure Unit := do
  let registry ← mapError (fun _ => internalError) (reads fun c => c.registry.upsert application)
  modify fun c => { c with registry := registry }

/-- `upsert_registered_application`: the row is written first, then the registry. -/
def upsertRegisteredApplication (input : ApplicationRegistrationUpsert) (files : FileSystem)
    (nowMs : Int) : Act Copies Failure RegisteredApplication := do
  let identity ← mapError (fun _ => validation "application executable identity is not trusted")
    (ofExcept (inspectExecutable files input.executable input.ownership input.sha256Hex))
  let application := input.intoRegistration nowMs identity
  mapError (fun _ => validation "application registration is invalid")
    (ofExcept application.validate)
  lockRegistry faults
  saveRow codec faults application
  enter application
  return application

/-- The deletion of the row, and whether there was one. -/
def deleteRow (entityId : EntityId) : Act Copies Failure Bool := do
  require (!faults.refused) internalError
  let outcome ← gets fun c => Storage.Applications.removeRegisteredApplication c.rows entityId
  modify fun c => { c with rows := outcome.2 }
  return outcome.1

/-- The entry goes if there was a row. -/
def leave (removed : Bool) (entityId : EntityId) : Act Copies Failure Unit :=
  modify fun c => if removed then { c with registry := (c.registry.remove entityId).2 } else c

/-- `remove_registered_application`: the registry follows the table. -/
def removeRegisteredApplication (entityId : EntityId) : Act Copies Failure Bool := do
  lockRegistry faults
  let removed ← deleteRow faults entityId
  leave removed entityId
  return removed

/-- The requests about applications. -/
def handle : Request → Act Copies Failure Reply
  | .upsertRegisteredApplication input files nowMs => do
      let application ← upsertRegisteredApplication codec faults input files nowMs
      return .registeredApplicationSaved application
  | .removeRegisteredApplication entityId => do
      let removed ← removeRegisteredApplication faults entityId
      return .registeredApplicationRemoved removed

end

/-! ## The daemon -/

/-- Why a daemon does not start. -/
inductive DaemonError where
  | storage (error : StorageError)
  | initialization (error : ApplicationRegistryError)

/-- The registry that a start of the daemon fills. -/
def start (codec : ArgumentsCodec) (refused : Bool) (rows : List ApplicationRow) :
    Except DaemonError ApplicationRegistry := do
  rejectIf refused (.storage .database)
  let applications ← (listRegisteredApplications codec rows 200).mapError .storage
  (ApplicationRegistry.fromApplications applications).mapError .initialization

/-- The table on disk, and the registry of the daemon while it runs. -/
structure Host where
  rows : List ApplicationRow
  running : Option ApplicationRegistry

/-- A computer on which no daemon has run. -/
def Host.fresh : Host := ⟨[], none⟩

/-- A start of the daemon, or a request to the one that runs. -/
inductive Input where
  | start (refused : Bool)
  | request (request : Request) (faults : Faults)

/-- One start of the daemon, or one request. Without a daemon there is nobody to answer it. -/
def step (codec : ArgumentsCodec) (s : Host) : Input → Host
  | .start refused => { s with running := (start codec refused s.rows).toOption }
  | .request request faults =>
      match s.running with
      | none => s
      | some registry =>
          let copies := (handle codec faults request ⟨s.rows, registry⟩).2
          ⟨copies.rows, some copies.registry⟩

/-! ## Agreement -/

/-- The two registrations trust the same executable in the same way. -/
structure SameTrust (a b : RegisteredApplication) : Prop where
  enabled : a.enabled = b.enabled
  executable : a.executable = b.executable
  arguments : a.arguments = b.arguments
  ownership : a.ownership = b.ownership
  identity : a.identity = b.identity

/-- The row reads as a registration with the same trust. -/
def Agrees (codec : ArgumentsCodec) (row : ApplicationRow) (application : RegisteredApplication) :
    Prop :=
  ∃ stored, applicationFromRow codec row = .ok stored ∧ SameTrust stored application

/-- The registry has an entry for an application exactly where the table has a row for it, and the
two agree. -/
def InStep (codec : ArgumentsCodec) (rows : List ApplicationRow) (registry : ApplicationRegistry) :
    Prop :=
  Mirrors ApplicationRow.entityId TypedId.asStr (Agrees codec) rows registry.applications

/-- While the daemon runs, its registry agrees with the table. -/
def Agreement (codec : ArgumentsCodec) (s : Host) : Prop :=
  ∀ registry, s.running = some registry → InStep codec s.rows registry

/-- A start of the daemon that succeeds finds no more rows than it lists. -/
def Covered (s : Host) : Input → Prop
  | .start refused => refused = false → s.rows.length ≤ 200
  | .request _ _ => True

/-! ## What the table holds -/

/-- One row for each application, written from a valid registration. -/
structure Sound (codec : ArgumentsCodec) (rows : List ApplicationRow) : Prop where
  unique : UniqueKey ApplicationRow.entityId rows
  written : ∀ r ∈ rows, ∃ application : RegisteredApplication,
    application.validate = .ok () ∧ r = .ofApplication codec application

section

variable {codec : ArgumentsCodec} {rows rows' : List ApplicationRow}
  {registry : ApplicationRegistry} {application : RegisteredApplication}

theorem asStr_injective : Function.Injective (TypedId.asStr : EntityId → String) :=
  fun _ _ => TypedId.ext

/-- The row that a registration leaves under its identifier is written from a valid one, with the
same trust. -/
theorem replaced_written
    (h : Storage.Applications.upsertRegisteredApplication codec rows application = .ok rows')
    {old : ApplicationRow} (hold : old ∈ rows)
    (hid : old.entityId = application.entityId.asStr) :
    ∃ merged : RegisteredApplication, merged.validate = .ok () ∧ SameTrust merged application ∧
      (ApplicationRow.ofApplication codec application).replacedBy old =
        .ofApplication codec merged := by
  have hvalid := (upsertRegisteredApplication_spec h).1
  refine ⟨{ application with createdAtMs := old.createdAtMs }, ?_, ⟨rfl, rfl, rfl, rfl, rfl⟩, ?_⟩
  · exact validate_createdAt hvalid (createdAt_le_of_upsert h hold hid)
  · exact replacedBy_ofApplication application hid

theorem sound_nil : Sound codec [] :=
  ⟨List.nodup_nil, fun _ hr => absurd hr List.not_mem_nil⟩

/-- Saving an application keeps the rows sound. -/
theorem Sound.upsert (hsound : Sound codec rows)
    (h : Storage.Applications.upsertRegisteredApplication codec rows application = .ok rows') :
    Sound codec rows' := by
  obtain ⟨hvalid, heq⟩ := upsertRegisteredApplication_spec h
  constructor
  · rw [heq]
    exact hsound.unique.upsert fun r hr => hr
  · intro r hr
    rw [heq] at hr
    rcases mem_upsertRow hr with ⟨hold, -⟩ | ⟨old, hold, hid, rfl⟩ | ⟨rfl, -⟩
    · exact hsound.written r hold
    · obtain ⟨merged, hmerged, -, hwritten⟩ := replaced_written h hold hid
      exact ⟨merged, hmerged, hwritten⟩
    · exact ⟨application, hvalid, rfl⟩

theorem Sound.delete (hsound : Sound codec rows) (cond : ApplicationRow → Truth) :
    Sound codec (deleteRows cond rows) :=
  ⟨hsound.unique.delete cond, fun r hr => hsound.written r (List.mem_of_mem_filter hr)⟩

/-- A row agrees with the application that it was made of. -/
theorem agrees_ofApplication (hcodec : codec.Lawful) {stored : RegisteredApplication}
    (hvalid : stored.validate = .ok ()) (hsame : SameTrust stored application) :
    Agrees codec (.ofApplication codec stored) application :=
  ⟨stored, applicationFromRow_ofApplication hcodec (canonicalPath_of_validate hvalid), hsame⟩

/-- Row and entry written together keep the copies in step. -/
theorem InStep.upsert (hcodec : codec.Lawful) (hstep : InStep codec rows registry)
    (h : Storage.Applications.upsertRegisteredApplication codec rows application = .ok rows') :
    InStep codec rows' ⟨registry.applications.insert application.entityId application⟩ := by
  obtain ⟨hvalid, heq⟩ := upsertRegisteredApplication_spec h
  rw [heq]
  apply Mirrors.upsert hstep asStr_injective
  · rfl
  · exact agrees_ofApplication hcodec hvalid ⟨rfl, rfl, rfl, rfl, rfl⟩
  · intro old hold hid
    obtain ⟨merged, hmerged, hsame, hwritten⟩ := replaced_written h hold hid
    refine ⟨hid, ?_⟩
    rw [hwritten]
    exact agrees_ofApplication hcodec hmerged hsame

/-- The registry drops an entry where a row was deleted. -/
theorem InStep.remove (hstep : InStep codec rows registry) {entityId : EntityId}
    (h : Storage.Applications.removeRegisteredApplication rows entityId = (true, rows')) :
    InStep codec rows' (registry.remove entityId).2 := by
  obtain rfl := (Prod.mk.inj h).2
  exact Mirrors.delete hstep asStr_injective fun r => by simp

/-- Where no row was deleted there was none to delete. -/
theorem rows_of_not_removed (hsound : Sound codec rows) {entityId : EntityId}
    (h : Storage.Applications.removeRegisteredApplication rows entityId = (false, rows')) :
    rows' = rows := by
  obtain ⟨hcount, rfl⟩ := Prod.mk.inj h
  apply List.filter_eq_self.mpr
  intro r hr
  rw [Bool.not_eq_true', ← Bool.not_eq_true]
  intro hid
  have hone : changes (fun row : ApplicationRow => eq (some row.entityId) (some entityId.asStr))
      rows = 1 := (changes_eq_one_iff hsound.unique fun r h => by simpa using h).mpr ⟨r, hr, hid⟩
  rw [hone] at hcount
  cases hcount

end

/-! ## Requests and starts -/

/-- What the table and the registry keep under a request. -/
def Kept (codec : ArgumentsCodec) (c c' : Copies) : Prop :=
  Sound codec c.rows →
    Sound codec c'.rows ∧ (InStep codec c.rows c.registry → InStep codec c'.rows c'.registry)

section

variable {codec : ArgumentsCodec} {faults : Faults}

/-- The row is written as a whole or not at all. -/
theorem saveRow_cases (application : RegisteredApplication) (c : Copies) :
    Post (saveRow codec faults application) c (Atomic c fun c' => ∃ rows,
      Storage.Applications.upsertRegisteredApplication codec c.rows application = .ok rows ∧
        c' = ⟨rows, c.registry⟩) := by
  simp only [saveRow, post_bind, post_require, next_ok, next_error, post_mapError, post_reads]
  refine ⟨fun _ => ?_, fun _ => atomic_error _⟩
  cases hsaved : Storage.Applications.upsertRegisteredApplication codec c.rows application with
  | error e =>
      simp only [Except.mapError, next_error]
      exact atomic_error _
  | ok rows =>
      simp only [Except.mapError, next_ok, post_modify]
      exact atomic_ok () ⟨rows, rfl, rfl⟩

/-- A valid registration is entered without fail. -/
theorem post_enter {application : RegisteredApplication} (hvalid : application.validate = .ok ())
    {c : Copies} {Q : Except Failure Unit → Copies → Prop} :
    Post (enter application) c Q ↔ Q (.ok ()) ⟨c.rows,
      ⟨c.registry.applications.insert application.entityId application⟩⟩ := by
  rw [enter, post_bind, post_mapError, post_reads, ApplicationRegistry.upsert_of_valid hvalid]
  rfl

/-- A registration fails and changes nothing, or changes both copies. -/
theorem upsertRegisteredApplication_cases (hcodec : codec.Lawful)
    (input : ApplicationRegistrationUpsert) (files : FileSystem) (nowMs : Int) (c : Copies) :
    Post (upsertRegisteredApplication codec faults input files nowMs) c
      (Atomic c (Kept codec c)) := by
  simp only [upsertRegisteredApplication, lockRegistry, post_bind, post_mapError, post_ofExcept]
  cases inspectExecutable files input.executable input.ownership input.sha256Hex with
  | error e => exact atomic_error _
  | ok identity =>
      simp only [Except.mapError, next_ok, post_bind, post_mapError, post_ofExcept]
      generalize input.intoRegistration nowMs identity = application
      cases hvalid : application.validate with
      | error e => exact atomic_error _
      | ok u =>
          simp only [next_ok, post_bind, post_require, next_error]
          refine ⟨fun _ => ?_, fun _ => atomic_error _⟩
          apply (saveRow_cases application c).mono
          rintro r c' (⟨e, rfl, rfl⟩ | ⟨⟨⟨⟩, rfl⟩, rows, hsaved, rfl⟩)
          · exact atomic_error e
          · rw [next_ok, post_bind, post_enter hvalid]
            exact atomic_ok _ fun hsound =>
              ⟨hsound.upsert hsaved, fun hstep => hstep.upsert hcodec hsaved⟩

/-- A removal is done in both copies or in none. -/
theorem removeRegisteredApplication_cases (entityId : EntityId) (c : Copies) :
    Post (removeRegisteredApplication faults entityId) c (Atomic c (Kept codec c)) := by
  simp only [removeRegisteredApplication, lockRegistry, deleteRow, leave, post_bind, post_require,
    next_ok, next_error, post_gets, post_modify, post_pure]
  refine ⟨fun _ => ⟨fun _ => ?_, fun _ => atomic_error _⟩, fun _ => atomic_error _⟩
  apply atomic_ok
  intro hsound
  cases hdeleted : Storage.Applications.removeRegisteredApplication c.rows entityId with
  | mk removed rows =>
      cases removed with
      | true =>
          obtain rfl := (Prod.mk.inj hdeleted).2
          exact ⟨hsound.delete _, fun hstep => hstep.remove hdeleted⟩
      | false =>
          rw [rows_of_not_removed hsound hdeleted]
          exact ⟨hsound, id⟩

/-- So is every request. -/
theorem handle_cases (hcodec : codec.Lawful) (request : Request) (c : Copies) :
    Post (handle codec faults request) c (Atomic c (Kept codec c)) := by
  cases request with
  | upsertRegisteredApplication input files nowMs =>
      exact post_atomic_map (upsertRegisteredApplication_cases hcodec input files nowMs c) _
  | removeRegisteredApplication entityId =>
      exact post_atomic_map (removeRegisteredApplication_cases entityId c) _

/-- A start that the database does not refuse succeeds. Its registry agrees with the table exactly
if all rows were listed. -/
theorem start_spec (hcodec : codec.Lawful) {rows : List ApplicationRow}
    (hsound : Sound codec rows) :
    ∃ registry, start codec false rows = .ok registry ∧
      (InStep codec rows registry ↔ rows.length ≤ 200) := by
  -- Every row was written by the daemon, so it can be read back.
  have hread : ∀ r ∈ rows, ∃ application, applicationFromRow codec r = .ok application ∧
      application.validate = .ok () := by
    intro r hr
    obtain ⟨application, hvalid, rfl⟩ := hsound.written r hr
    have hpath := canonicalPath_of_validate hvalid
    exact ⟨application, applicationFromRow_ofApplication hcodec hpath, hvalid⟩
  have hlisting : listRegisteredApplications codec rows 200 =
      listRows applicationKey (applicationFromRow codec) 200 rows := by
    rw [listRegisteredApplications, min_self]
  obtain ⟨applications, hlisted⟩ : ∃ applications,
      listRows applicationKey (applicationFromRow codec) 200 rows = .ok applications := by
    apply (exists_mapM_eq_ok_iff _ _).mpr
    intro r hr
    obtain ⟨application, happlication, -⟩ := hread r (mem_of_mem_window hr)
    exact ⟨application, happlication⟩
  have hvalid : ∀ application ∈ applications, application.validate = .ok () := by
    intro application hmem
    obtain ⟨r, hr, happlication⟩ :=
      exists_of_forall₂_right ((mapM_eq_ok_iff _ _ _).mp hlisted) hmem
    obtain ⟨stored, hstored, hvalid⟩ := hread r (mem_of_mem_window hr)
    cases hstored.symm.trans happlication
    exact hvalid
  refine ⟨⟨load RegisteredApplication.entityId ∅ applications⟩, ?_, ?_⟩
  · unfold start
    rw [hlisting, hlisted]
    show (ApplicationRegistry.fromApplications applications).mapError
      DaemonError.initialization = _
    rw [ApplicationRegistry.fromApplications_of_valid hvalid]
    rfl
  -- The listing has every row exactly when there are no more rows than its limit.
  · refine mirrors_load_iff asStr_injective hlisted (fun r application h => ?_) hsound.unique
    exact ⟨(entityId_of_applicationFromRow h).symm, application, h, ⟨rfl, rfl, rfl, rfl, rfl⟩⟩

end

/-! ## Runs -/

section

variable {codec : ArgumentsCodec}

/-- So the rows stay sound. -/
theorem sound_step (hcodec : codec.Lawful) (s : Host) (i : Input) (h : Sound codec s.rows) :
    Sound codec (step codec s i).rows := by
  cases i with
  | start refused => exact h
  | request request faults =>
      unfold step
      cases s.running with
      | none => exact h
      | some registry =>
          exact (handle_cases hcodec request ⟨s.rows, registry⟩).keeps (P := fun c =>
            Sound codec c.rows) h fun hkept => (hkept h).1

/-- Every step keeps the agreement, except a start that does not list all rows. -/
theorem agreement_step (hcodec : codec.Lawful) {s : Host} (hsound : Sound codec s.rows)
    (hagree : Agreement codec s) (i : Input) :
    Agreement codec (step codec s i) ↔ Covered s i := by
  cases i with
  | start refused =>
      cases refused with
      -- A start that is refused leaves no registry that could disagree.
      | true => exact iff_of_true nofun nofun
      -- A start loads the registry from the listing.
      | false =>
          obtain ⟨registry, hstart, hcovers⟩ := start_spec hcodec hsound
          have hstarted : step codec s (.start false) = ⟨s.rows, some registry⟩ :=
            congrArg (fun outcome => (⟨s.rows, Except.toOption outcome⟩ : Host)) hstart
          rw [hstarted]
          constructor
          · intro h _
            exact hcovers.mp (h registry rfl)
          · rintro h _ ⟨⟩
            exact hcovers.mpr (h rfl)
  -- A request changes both together, or neither.
  | request request faults =>
      refine iff_of_true ?_ trivial
      unfold step
      cases hrunning : s.running with
      | none =>
          intro registry h
          rw [hrunning] at h
          cases h
      | some registry =>
          rintro _ ⟨⟩
          have hcases : Post (handle codec faults request) ⟨s.rows, registry⟩ _ :=
            handle_cases hcodec request _
          exact hcases.keeps (P := fun c => InStep codec c.rows c.registry)
            (hagree registry hrunning) fun hkept => (hkept hsound).2 (hagree registry hrunning)

end

/-- The registry agrees with the table in every state of a run exactly if each start of the daemon
finds at most 200 rows. A request that fails changes neither. -/
theorem registry_agrees_iff (codec : ArgumentsCodec) (hcodec : codec.Lawful) :
    (∀ inputs : List Input,
      (∀ before after, inputs = before ++ after →
        Agreement codec (run (step codec) .fresh before)) ↔
          Along (step codec) Covered .fresh inputs) ∧
    ∀ (faults : Faults) (request : Request) (c : Copies) (e : Failure),
      (handle codec faults request c).1 = .error e → (handle codec faults request c).2 = c := by
  constructor
  · intro inputs
    have hstopped : Agreement codec .fresh := by
      intro registry h
      cases h
    exact holds_throughout_iff (sound_step hcodec)
      (fun s i hs hagree => agreement_step hcodec hs hagree i) sound_nil hstopped inputs
  · intro faults request c e herror
    have hcases : Atomic c (Kept codec c) (handle codec faults request c).1
        (handle codec faults request c).2 := handle_cases hcodec request c
    rw [herror] at hcases
    exact hcases.unchanged_of_error

/-! ## More applications than a listing has -/

/-- The metadata of a path: the root is a directory, all else one program. -/
def sharedAt (path : String) : Option Metadata :=
  if path = "/" then some directory else some program

/-- Every file in the root directory is a program. -/
def sharedFiles : FileSystem :=
  { plainFiles with symlinkMetadata := sharedAt, metadata := sharedAt, canonicalize := some }

/-- The letter of a number below 26. -/
def letter (n : Nat) : Char := Char.ofNat (97 + n)

/-- Number in base 16, with letters as digits. -/
def name (n : Nat) : String := String.ofList [letter (n / 16), letter (n % 16)]

theorem letter_distinct : ∀ i < 16, ∀ j < 16, letter i = letter j → i = j := by decide

/-- Different numbers have different names. -/
theorem name_distinct {m n : Nat} (hm : m < 201) (hn : n < 201) (hne : m ≠ n) :
    name m ≠ name n := by
  intro h
  have hletters := congrArg String.toList h
  simp only [name, String.toList_ofList, List.cons.injEq, and_true] at hletters
  have hfirst := letter_distinct _ (by omega) _ (by omega) hletters.1
  have hsecond := letter_distinct _ (by omega) _ (by omega) hletters.2
  omega

/-- The registration of the application of a number. -/
def numbered (n : Nat) : ApplicationRegistrationUpsert where
  entityId := (parseId _ ("app:" ++ name n)).getD telegram
  displayName := "app"
  executable := "/" ++ name n
  arguments := []
  ownership := .rootOnly
  sha256Hex := none
  enabled := true

/-- What the inspection of it finds. -/
def identityOf (n : Nat) : ExecutableIdentity :=
  { found with canonicalPath := "/" ++ name n }

/-- The application as the service builds it. -/
def registered (n : Nat) : RegisteredApplication := (numbered n).intoRegistration 0 (identityOf n)

theorem inspected_numbered : ∀ n < 201,
    inspectExecutable sharedFiles (numbered n).executable .rootOnly none = .ok (identityOf n) := by
  decide +kernel

theorem entityId_registered : ∀ n < 201,
    (registered n).entityId.asStr = "app:" ++ name n := by
  decide +kernel

theorem bounded_executable : ∀ n < 201,
    ("/" ++ name n).utf8ByteSize ≤ 1024 ∧ lengthWithin ("/" ++ name n) 1024 = true := by
  decide +kernel

/-- The application of a number is valid. -/
theorem validate_registered {n : Nat} (hn : n < 201) : (registered n).validate = .ok () := by
  have habsolute : isAbsolute ("/" ++ name n) = true := by simp [isAbsolute]
  have hsize := (bounded_executable n hn).1
  have hidentity : (registered n).identity.validate = .ok () := by
    unfold ExecutableIdentity.validate
    apply if_neg
    simp only [registered, ApplicationRegistrationUpsert.intoRegistration, identityOf, found,
      habsolute]
    simpa using hsize
  have happ : "app:".toList.isPrefixOf (registered n).entityId.asStr.toList = true := by
    rw [entityId_registered n hn, String.toList_append]
    simp
  have hname : isBlank "app" = false ∧ decide (128 < "app".utf8ByteSize) = false := by
    decide +kernel
  unfold RegisteredApplication.validate
  rw [if_neg, hidentity]
  -- The other rules are about the name and the path of the executable.
  rw [happ]
  simp only [registered, ApplicationRegistrationUpsert.intoRegistration, identityOf, numbered,
    habsolute, hname.1]
  have hsizes : decide (128 < "app".utf8ByteSize) = false ∧
      "/".utf8ByteSize + (name n).utf8ByteSize ≤ 1024 := by
    rw [← String.utf8ByteSize_append]
    exact ⟨hname.2, hsize⟩
  simp
  exact hsizes

theorem checks_registered {n : Nat} (hn : n < 201) :
    (ApplicationRow.ofApplication noArguments (registered n)).checks = true := by
  have hid := lengthWithin_entityId (registered n).entityId
  have hexecutable := (bounded_executable n hn).2
  have hname : lengthWithin "app" 128 = true := by decide
  have harguments : sqlLength (noArguments.toText []) ≤ 32768 := by decide
  unfold ApplicationRow.checks
  simp only [ApplicationRow.ofApplication, hid]
  simp only [registered, ApplicationRegistrationUpsert.intoRegistration, identityOf, numbered,
    hexecutable, hname, harguments]
  rfl

/-- Its row in the table. -/
noncomputable def rowOf (n : Nat) : ApplicationRow := .ofApplication noArguments (registered n)

/-- Different numbers have different rows. -/
theorem rowOf_distinct {m n : Nat} (hm : m < 201) (hn : n < 201) (hne : m ≠ n) :
    (rowOf m).entityId ≠ (rowOf n).entityId ∧ (rowOf m).executable ≠ (rowOf n).executable := by
  have htext := name_distinct hm hn hne
  constructor
  · intro h
    have hid : (registered m).entityId.asStr = (registered n).entityId.asStr := h
    rw [entityId_registered m hm, entityId_registered n hn] at hid
    exact htext ((String.append_right_inj _).mp hid)
  · intro h
    exact htext ((String.append_right_inj "/").mp h)

/-- The next application is saved after those with smaller numbers. -/
theorem saved_registered {n : Nat} (hn : n < 201) :
    Storage.Applications.upsertRegisteredApplication noArguments ((List.range n).map rowOf)
      (registered n) = .ok ((List.range (n + 1)).map rowOf) := by
  have hother : ∀ old ∈ (List.range n).map rowOf,
      old.entityId ≠ (rowOf n).entityId ∧ old.executable ≠ (rowOf n).executable := by
    intro old hold
    obtain ⟨m, hm, rfl⟩ := List.mem_map.mp hold
    have hlt := List.mem_range.mp hm
    exact rowOf_distinct (hlt.trans hn) hn hlt.ne
  have hchecks : (rowOf n).checks = true := checks_registered hn
  unfold Storage.Applications.upsertRegisteredApplication
  simp only [except_bind_eq_ok_iff, rejectIf_eq_ok_iff]
  refine ⟨(), ?_, (), ?_, (), ?_, ?_⟩
  · rw [validate_registered hn]
    rfl
  · show (!([found.device.toNat, found.inode.toNat, found.size.toNat].all fitsInteger)) = false
    decide
  · show (!((rowOf n).checks && _ && _)) = false
    rw [hchecks, Bool.true_and, Bool.not_eq_false', Bool.and_eq_true, List.all_eq_true,
      List.all_eq_true]
    constructor
    · intro old hold
      simpa using .inr (hother old hold).2
    · intro old hold
      simpa using .inl (hother old hold).1
  · show Except.ok (upsertRow ApplicationRow.entityId (rowOf n) _ _) = _
    rw [upsertRow_of_fresh fun old hold => (hother old hold).1, List.range_succ, List.map_append]
    rfl

/-- The request to register it. -/
def register (n : Nat) : Input :=
  .request (.upsertRegisteredApplication (numbered n) sharedFiles 0) ⟨false, false⟩

/-- A run with one restart. -/
theorem registry_agrees_iff_restarted : Agreement noArguments
    (run (step noArguments) .fresh [.start false, register 0, .start false]) :=
  ((registry_agrees_iff noArguments noArguments_lawful).1 [.start false, register 0,
    .start false]).mpr ⟨fun _ => Nat.zero_le _, trivial, fun _ => by decide, trivial⟩ _ []
      (List.append_nil _).symm

/-- The next registration adds a row. -/
theorem step_register {n : Nat} (hn : n < 201) (registry : ApplicationRegistry) :
    ∃ registry', step noArguments ⟨(List.range n).map rowOf, some registry⟩ (register n) =
      ⟨(List.range (n + 1)).map rowOf, some registry'⟩ := by
  have hrows : Post (upsertRegisteredApplication noArguments ⟨false, false⟩ (numbered n)
      sharedFiles 0) ⟨(List.range n).map rowOf, registry⟩
      fun _ c => c.rows = (List.range (n + 1)).map rowOf := by
    have hidentity : inspectExecutable sharedFiles (numbered n).executable (numbered n).ownership
        (numbered n).sha256Hex = .ok (identityOf n) := inspected_numbered n hn
    have hregistered : (numbered n).intoRegistration 0 (identityOf n) = registered n := rfl
    simp only [upsertRegisteredApplication, lockRegistry, saveRow, post_bind, post_mapError,
      post_ofExcept, hidentity, Except.mapError, next_ok, hregistered, validate_registered hn,
      post_require, post_reads, saved_registered hn, post_modify,
      post_enter (validate_registered hn), post_pure]
    simp
  have hhandled : Post (handle noArguments ⟨false, false⟩
      (.upsertRegisteredApplication (numbered n) sharedFiles 0))
      ⟨(List.range n).map rowOf, registry⟩
      fun _ c => c.rows = (List.range (n + 1)).map rowOf :=
    hrows.bind (fun _ _ h => h) fun _ _ h => h
  exact ⟨_, congrArg (fun rows => (⟨rows, _⟩ : Host)) hhandled⟩

/-- As many rows as registrations. -/
theorem run_register (n : Nat) (hn : n ≤ 201) : ∃ registry,
    run (step noArguments) .fresh (.start false :: (List.range n).map register) =
      ⟨(List.range n).map rowOf, some registry⟩ := by
  induction n with
  | zero =>
      obtain ⟨registry, hstart, -⟩ := start_spec noArguments_lawful sound_nil
      exact ⟨registry, congrArg (fun outcome => (⟨[], Except.toOption outcome⟩ : Host)) hstart⟩
  | succ n ih =>
      obtain ⟨registry, hrun⟩ := ih (Nat.le_of_succ_le hn)
      have hlast : (List.range (n + 1)).map register =
          (List.range n).map register ++ [register n] := by
        rw [List.range_succ, List.map_append]
        rfl
      rw [hlast, ← List.cons_append, run_append, hrun]
      exact step_register hn registry

/-- The daemon starts, and 201 applications are registered. -/
def crowd : List Input := .start false :: (List.range 201).map register

/-- After a restart with 201 rows the registry does not agree with the table: one application has a
row and no entry. -/
theorem registration_lost :
    ¬ ∀ codec : ArgumentsCodec, codec.Lawful → ∀ inputs : List Input,
      Agreement codec (run (step codec) .fresh inputs) := by
  intro h
  have hagree := h noArguments noArguments_lawful
  have hsound : Sound noArguments (run (step noArguments) .fresh crowd).rows :=
    run_invariant (I := fun s : Host => Sound noArguments s.rows) (sound_step noArguments_lawful)
      sound_nil crowd
  have hrestarted := hagree (crowd ++ [.start false])
  rw [run_append] at hrestarted
  have hcovered := (agreement_step noArguments_lawful hsound (hagree crowd) (.start false)).mp
    hrestarted rfl
  obtain ⟨registry, hrun⟩ := run_register 201 le_rfl
  have hlength : (run (step noArguments) .fresh crowd).rows.length = 201 := by
    rw [crowd, hrun, List.length_map, List.length_range]
  omega

end Halquen.Service.Registrations
