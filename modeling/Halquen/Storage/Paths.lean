import Halquen.Protocol.Transport

/-!
# Data paths

The database of the daemon is a file below the data directory of the user. The daemon prepares a
directory for it that is the user's alone and opens the database in it, which is created where it is
missing; both look at the directory and at the file first. As in `Protocol.Transport`, other users
and other daemons of the user may take their steps in between.

Where nobody else can write to the data directory, a daemon opens nothing but a regular file of the
user in a private directory, and no other user ever gets hold of a database that it has created
(`databases_safe`). The daemon does not make sure of the condition: of the data directory it checks
the owner, not the mode.
-/

set_option autoImplicit false

namespace Halquen.Storage.Paths

open Halquen.Capabilities.Executable (push)
open Halquen.Domain.Agent Halquen.Domain.Capability
open Halquen.Library.FileCalls Halquen.Library.FileTree Halquen.Library.Listing
open Halquen.Library.RelyGuarantee Halquen.Library.Run Halquen.Library.Words
open Halquen.Protocol.Transport (lines parent parseU32)

/-- Where the database lies. -/
structure DataPaths where
  appDir : String
  database : String
  deriving DecidableEq

/-- The errors of the storage that concern paths. -/
inductive DataPathError where
  | missingDataHome
  | insecureDataPath (detail : String)
  | io (error : IoError)
  | database (error : IoError)
  deriving DecidableEq

/-- Given the values of `XDG_DATA_HOME` and `HOME`. -/
def discover (xdgDataHome home : Option String) : Except DataPathError DataPaths := do
  let dataHome ← match xdgDataHome with
    | some value => .ok value
    | none => (orError .missingDataHome home).map fun home => push home ".local/share"
  rejectIf (!isAbsolute dataHome) (.insecureDataPath "data home must be absolute")
  let appDir := push dataHome "halquen"
  return ⟨appDir, push appDir "halquen.sqlite3"⟩

/-- The path of a place, as messages name it. -/
def DataPaths.display (paths : DataPaths) : Place → String
  | .root => (parent paths.appDir).getD ""
  | .dir => paths.appDir
  | .file => paths.database

/-- The names below the data directory. -/
def databaseSite : Site := ⟨"halquen", "halquen.sqlite3", .regular, by decide, by decide⟩

/-- The user in the status of a process. -/
def parseUid (status : String) : Except DataPathError UInt32 := do
  let line ← orError (.insecureDataPath "cannot determine current UID")
    ((lines status.toList).find? fun line => "Uid:".toList.isPrefixOf line)
  let value ← orError (.insecureDataPath "cannot parse current UID") (words isWhiteSpace line)[1]?
  orError (.insecureDataPath "cannot parse current UID") (parseU32 value)

/-- A user, and the status of his processes. -/
structure Account where
  uid : Uid
  status : String
  honest : parseUid status = .ok uid

/-! ## The programs -/

/-- A computation on the file system. -/
abbrev Calls (α : Type) := ExceptT DataPathError (Prog World Chance) α

section

variable (account : Account) (paths : DataPaths) (root : Inode)

/-- `current_uid`: the user of this process, as the system tells it. -/
def currentUid : Calls UInt32 := readFile (.io .other) (parseUid account.status)

/-- `validate_owned_directory`: a real directory of this user. -/
def validateOwnedDirectory (place : Place) (metadata : Metadata) : Calls Unit := do
  reject (metadata.isSymlink || !metadata.isDir)
    (.insecureDataPath (paths.display place ++ " is not a real directory"))
  let uid ← currentUid account
  reject (metadata.uid != uid)
    (.insecureDataPath (paths.display place ++ " is not owned by the current user"))

/-- `validate_private_directory`: and closed to others. -/
def validatePrivateDirectory (place : Place) (metadata : Metadata) : Calls Unit := do
  validateOwnedDirectory account paths place metadata
  reject (metadata.mode &&& 0o077 != 0)
    (.insecureDataPath (paths.display place ++ " is accessible by other users"))

/-- What `prepare` does about the data directory. -/
def prepareParent : Except IoError Metadata → Calls Unit
  | .ok metadata => validateOwnedDirectory account paths .root metadata
  | .error .notFound => do
      check .io (createRoot account.uid root)
      let metadata ← check .io (symlinkMetadata root databaseSite .root)
      validateOwnedDirectory account paths .root metadata
  | .error .other => throw (.io .other)

/-- What `prepare` does about the application directory. -/
def prepareAppDir : Except IoError Metadata → Calls Unit
  | .ok metadata => validatePrivateDirectory account paths .dir metadata
  | .error .notFound => do
      let _ ← check .io (createDir account.uid root databaseSite)
      return ()
  | .error .other => throw (.io .other)

/-- The test on the database file that both functions make. -/
def validateDatabase (detail : String) : Except IoError Metadata → Calls Unit
  | .ok metadata => do
      reject (metadata.isSymlink || !metadata.isFile) (.insecureDataPath detail)
      let uid ← currentUid account
      reject (metadata.uid != uid) (.insecureDataPath detail)
  | .error .notFound => return ()
  | .error .other => throw (.io .other)

/-- `DataPaths::prepare`: the directory is made if it is missing, and checked. -/
def prepare : Calls Unit := do
  reject (parent paths.appDir).isNone
    (.insecureDataPath "application data directory has no parent")
  let dataHome ← attempt (symlinkMetadata root databaseSite .root)
  prepareParent account paths root dataHome
  let appDir ← attempt (symlinkMetadata root databaseSite .dir)
  prepareAppDir account paths root appDir
  check .io (setPermissions account.uid root databaseSite .dir 0o700)
  let metadata ← check .io (symlinkMetadata root databaseSite .dir)
  validatePrivateDirectory account paths .dir metadata
  let database ← attempt (symlinkMetadata root databaseSite .file)
  validateDatabase account
    (paths.display .file ++ " is not a regular user-owned database file") database

/-- The test of `open` on the directory of the database. -/
def validateParent (metadata : Metadata) : Calls Unit := do
  let detail := paths.display .dir ++ " is not a private user-owned directory"
  reject (metadata.isSymlink || !metadata.isDir) (.insecureDataPath detail)
  let uid ← currentUid account
  reject (metadata.uid != uid) (.insecureDataPath detail)
  reject (metadata.mode &&& 0o077 != 0) (.insecureDataPath detail)

/-- `Path::exists`, which takes every failure for an absence. -/
def fileExists : Prog World Chance (Except IoError Unit) :=
  reading fun c t => do
    let i ← locate root databaseSite c t .file
    (orError .notFound (t (follow c t i))).map fun _ => ()

/-- `Database::open` up to the connection, which is the file that it opens. -/
def openDatabase : Calls Inode := do
  let metadata ← check .io (symlinkMetadata root databaseSite .dir)
  validateParent account paths metadata
  let found ← attempt (symlinkMetadata root databaseSite .file)
  validateDatabase account (paths.display .file ++ " is not a regular database file") found
  let connection ← check .database (openOrMake account.uid root databaseSite)
  let present ← attempt (fileExists root)
  if present.isOk then
    check .io (setPermissions account.uid root databaseSite .file 0o600)
    return connection
  else return connection

/-- The start of a daemon. -/
def start (xdgDataHome home : Option String) : Calls Inode := do
  let paths ← ExceptT.mk (pure (discover xdgDataHome home))
  prepare account paths root
  openDatabase account paths root

end

/-! ## Rules -/

section

variable {account : Account} {paths : DataPaths} {root a : Inode} {w : World}

/-- The relation on which every daemon relies and which it guarantees. -/
abbrev Respects (account : Account) : World → World → Prop := Keeps account.uid databaseSite

/-- Nobody else can write to the data directory. -/
abbrev HomeHeld (account : Account) (root : Inode) (w : World) : Prop :=
  Held account.uid w.tree root

/-- The user is the one who runs the process. -/
theorem succeeds_currentUid {P : World → Prop} (hP : Stable (Respects account) P) (h : P w) :
    Succeeds (Respects account) (Respects account) (fun uid w => uid = account.uid ∧ P w)
      (currentUid account) w := by
  refine (succeeds_readFile hP h).mono fun uid w hw => ⟨?_, hw.2⟩
  have hparsed := account.honest.symm.trans hw.1
  cases hparsed
  rfl

/-- After the check the directory is known to be ours. -/
theorem succeeds_validateOwnedDirectory {P : World → Prop} {place : Place} {metadata : Metadata}
    (hP : Stable (Respects account) P) (h : P w) :
    Succeeds (Respects account) (Respects account)
      (fun _ w => (metadata.kind = .directory ∧ metadata.uid = account.uid) ∧ P w)
      (validateOwnedDirectory account paths place metadata) w := by
  refine (succeeds_reject hP h).bind fun _ w hw => ?_
  obtain ⟨hkind, hw⟩ := hw
  refine (succeeds_currentUid hP hw).bind fun uid w hw => ?_
  obtain ⟨rfl, hw⟩ := hw
  refine (succeeds_reject hP hw).mono fun _ w hw => ⟨⟨?_, ?_⟩, hw.2⟩
  · simp only [Bool.or_eq_false_iff, Bool.not_eq_false', Metadata.isDir, beq_iff_eq] at hkind
    exact hkind.2
  · exact bne_eq_false_iff_eq.mp hw.1

/-- After the check it is known to be closed to others. -/
theorem succeeds_validatePrivateDirectory {P : World → Prop} {place : Place}
    {metadata : Metadata} (hP : Stable (Respects account) P) (h : P w) :
    Succeeds (Respects account) (Respects account)
      (fun _ w => metadata.Private account.uid ∧ P w)
      (validatePrivateDirectory account paths place metadata) w := by
  refine (succeeds_validateOwnedDirectory hP h).bind fun _ w hw => ?_
  obtain ⟨hown, hw⟩ := hw
  refine (succeeds_reject hP hw).mono fun _ w hw => ⟨⟨hown.1, hown.2, ?_⟩, hw.2⟩
  exact bne_eq_false_iff_eq.mp hw.1

theorem succeeds_validateParent {P : World → Prop} {metadata : Metadata}
    (hP : Stable (Respects account) P) (h : P w) :
    Succeeds (Respects account) (Respects account)
      (fun _ w => metadata.Private account.uid ∧ P w)
      (validateParent account paths metadata) w := by
  refine (succeeds_reject hP h).bind fun _ w hw => ?_
  obtain ⟨hkind, hw⟩ := hw
  refine (succeeds_currentUid hP hw).bind fun uid w hw => ?_
  obtain ⟨rfl, hw⟩ := hw
  refine (succeeds_reject hP hw).bind fun _ w hw => ?_
  obtain ⟨hown, hw⟩ := hw
  refine (succeeds_reject hP hw).mono fun _ w hw => ⟨⟨?_, ?_, ?_⟩, hw.2⟩
  · simp only [Bool.or_eq_false_iff, Bool.not_eq_false', Metadata.isDir, beq_iff_eq] at hkind
    exact hkind.2
  · exact bne_eq_false_iff_eq.mp hown
  · exact bne_eq_false_iff_eq.mp hw.1

/-- The parent is prepared without harm to the home. -/
theorem succeeds_prepareParent {found : Except IoError Metadata} (h : HomeHeld account root w) :
    Succeeds (Respects account) (Respects account) (fun _ => HomeHeld account root)
      (prepareParent account paths root found) w := by
  cases found with
  | ok metadata => exact (succeeds_validateOwnedDirectory stable_held h).mono fun _ w hw => hw.2
  | error e =>
      cases e with
      | notFound =>
          refine (succeeds_check (correct_createRoot h) fun _ _ hw => hw).bind fun _ w hw => ?_
          refine (succeeds_check (correct_reading_keeps stable_held hw) fun _ _ hw => hw).bind ?_
          intro metadata w hw
          exact (succeeds_validateOwnedDirectory stable_held hw).mono fun _ w hw => hw.2
      | other => exact succeeds_throw _

/-- So is the directory. -/
theorem succeeds_prepareAppDir {found : Except IoError Metadata} (h : HomeHeld account root w) :
    Succeeds (Respects account) (Respects account) (fun _ => HomeHeld account root)
      (prepareAppDir account paths root found) w := by
  cases found with
  | ok metadata =>
      exact (succeeds_validatePrivateDirectory stable_held h).mono fun _ w hw => hw.2
  | error e =>
      cases e with
      | notFound =>
          refine (succeeds_check (correct_createDir stable_held h) fun _ _ hw => hw).bind ?_
          exact fun _ w hw => succeeds_pure () stable_held hw
      | other => exact succeeds_throw _

/-- What is found at the database path, or that nothing is, is enough to go on. -/
theorem succeeds_validateDatabase {found : Except IoError Metadata} {detail : String}
    (h : Guarded account.uid root databaseSite a w ∧
      (∀ metadata, found = .ok metadata → metadata.kind = databaseSite.kind →
        metadata.uid = account.uid → Ready account.uid root databaseSite a w) ∧
      (found = .error .notFound → Ready account.uid root databaseSite a w)) :
    Succeeds (Respects account) (Respects account)
      (fun _ => Ready account.uid root databaseSite a)
      (validateDatabase account detail found) w := by
  cases found with
  | ok metadata =>
      have hstable : Stable (Respects account) fun w => metadata.kind = databaseSite.kind →
          metadata.uid = account.uid → Ready account.uid root databaseSite a w :=
        fun w w' hkeeps hw hkind hown => stable_ready w w' hkeeps (hw hkind hown)
      refine (succeeds_reject hstable (h.2.1 metadata rfl)).bind fun _ w hw => ?_
      obtain ⟨hkind, hw⟩ := hw
      refine (succeeds_currentUid hstable hw).bind fun uid w hw => ?_
      obtain ⟨rfl, hw⟩ := hw
      refine (succeeds_reject hstable hw).mono fun _ w hw => hw.2 ?_ ?_
      · simp only [Bool.or_eq_false_iff, Bool.not_eq_false', Metadata.isFile, beq_iff_eq] at hkind
        exact hkind.2
      · exact bne_eq_false_iff_eq.mp hw.1
  | error e =>
      cases e with
      | notFound => exact succeeds_pure () stable_ready (h.2.2 rfl)
      | other => exact succeeds_throw _

theorem stable_guardedIf {metadata : Metadata} :
    Stable (Respects account) fun w => metadata.Private account.uid →
      ∃ a, Guarded account.uid root databaseSite a w := by
  intro w w' hkeeps hw hprivate
  obtain ⟨a, ha⟩ := hw hprivate
  exact ⟨a, stable_guarded w w' hkeeps ha⟩

/-- So is the whole. -/
theorem succeeds_prepare (h : HomeHeld account root w) :
    Succeeds (Respects account) (Respects account) (fun _ => HomeHeld account root)
      (prepare account paths root) w := by
  refine (succeeds_reject stable_held h).bind fun _ w hw => ?_
  refine (succeeds_attempt (correct_reading_keeps stable_held hw.2)).bind fun found w hw => ?_
  refine (succeeds_prepareParent hw).bind fun _ w hw => ?_
  refine (succeeds_attempt (correct_reading_keeps stable_held hw)).bind fun found w hw => ?_
  refine (succeeds_prepareAppDir hw).bind fun _ w hw => ?_
  refine (succeeds_check (correct_setPermissions stable_held (by decide) hw)
    fun _ _ hw => hw).bind fun _ w hw => ?_
  refine (succeeds_check (correct_stat_dir hw) fun metadata w hw => hw.2 metadata rfl).bind ?_
  intro metadata w hw
  refine (succeeds_validatePrivateDirectory stable_guardedIf hw).bind fun _ w hw => ?_
  obtain ⟨a, ha⟩ := hw.2 hw.1
  refine (succeeds_attempt (correct_stat_file ha)).bind fun found w hw => ?_
  exact (succeeds_validateDatabase hw).mono fun _ w hw => hw.1.1.1

/-- The file is a regular file of the user, and the directory of the database is ready. -/
def Opened (account : Account) (root : Inode) (connection : Inode) (w : World) : Prop :=
  OwnFile account.uid w.tree .regular connection ∧
    ∃ a, Ready account.uid root databaseSite a w

theorem stable_opened {connection : Inode} :
    Stable (Respects account) (Opened account root connection) := by
  rintro w w' hkeeps ⟨hown, a, ha⟩
  exact ⟨OwnFile.lasting hown hkeeps.tree.lasting, a, stable_ready w w' hkeeps ha⟩

/-- The database opened is a file of the user. -/
theorem succeeds_openDatabase (h : HomeHeld account root w) :
    Succeeds (Respects account) (Respects account) (Opened account root)
      (openDatabase account paths root) w := by
  refine (succeeds_check (correct_stat_dir h) fun metadata w hw => hw.2 metadata rfl).bind ?_
  intro metadata w hw
  refine (succeeds_validateParent stable_guardedIf hw).bind fun _ w hw => ?_
  obtain ⟨a, ha⟩ := hw.2 hw.1
  refine (succeeds_attempt (correct_stat_file ha)).bind fun found w hw => ?_
  refine (succeeds_validateDatabase hw).bind fun _ w hw => ?_
  refine (succeeds_check (Q := fun r w => Ready account.uid root databaseSite a w ∧
    ∀ i, r = .ok i → OwnFile account.uid w.tree .regular i) (correct_openOrMake hw)
    (T := Opened account root) fun i w hw => ⟨hw.2 i rfl, a, hw.1⟩).bind ?_
  intro connection w hw
  refine (succeeds_attempt (correct_reading_keeps stable_opened hw)).bind fun present w hw => ?_
  split
  · refine (succeeds_check (correct_setPermissions stable_opened (by decide) hw)
      fun _ _ hw => hw).bind fun _ w hw => ?_
    exact succeeds_pure connection stable_opened hw
  · exact succeeds_pure connection stable_opened hw

/-- A start of the daemon opens such a file or fails. -/
theorem succeeds_start {xdgDataHome home : Option String} (h : HomeHeld account root w) :
    Succeeds (Respects account) (Respects account) (Opened account root)
      (start account root xdgDataHome home) w := by
  unfold start
  cases discover xdgDataHome home with
  | error e => exact succeeds_throw e
  | ok paths => exact (succeeds_prepare h).bind fun _ w hw => succeeds_openDatabase hw

end

/-! ## Any number of daemons -/

section

variable {ι : Type} (account : Account) (root : Inode)

/-- Daemons that have not begun. -/
def started (xdgDataHome home : Option String) (files : {tree : Tree // Closed tree}) :
    Shared ι World Chance (Except DataPathError Inode) :=
  launch files fun _ => start account root xdgDataHome home

/-- No other user gets hold of a database that was created, and what daemons opened are regular
files of the user in a private directory. -/
structure DatabasesSafe (s : Shared ι World Chance (Except DataPathError Inode)) : Prop where
  unreached : ∀ v, v ≠ account.uid → ∀ i ∈ s.state.made, ¬ MayReach v s.state.tree i
  opened : ∀ k i, s.programs k = .done (.ok i) → Opened account root i s.state

/-- Whatever other users do meanwhile, and in whatever order the daemons take their steps. -/
theorem databases_safe [DecidableEq ι] (xdgDataHome home : Option String)
    (files : {tree : Tree // Closed tree}) (hheld : Held account.uid files.1 root)
    (moves : List (Move ι Chance (Stranger account.uid × Meddling))) :
    DatabasesSafe account root
      (run (move (strangers account.uid)) (started account root xdgDataHome home files)
        moves) := by
  have hprograms : ∀ _ : ι, Succeeds (Respects account) (Respects account) (Opened account root)
      (start account root xdgDataHome home) (World.new files) := fun _ => succeeds_start hheld
  refine ⟨fun v hv i hi => ?_, fun k i hdone => ?_⟩
  · exact launch_unreached hprograms moves hv hi
  · exact launch_ended hprograms moves hdone

end

/-- Some user. -/
def someAccount : Account := ⟨1000, "Uid:\t1000\t1000\t1000\t1000\n", by decide⟩

/-- A home directory that is the user's alone. -/
def privateHome : {tree : Tree // Closed tree} :=
  ⟨_, closed_empty.addNode 0 .directory 1000 0o700⟩

/-- A daemon that creates its directory and its database. -/
def firstStart : List (Move Unit Chance (Stranger someAccount.uid × Meddling)) :=
  List.replicate 8 (.program () ⟨false, 1, 0, id⟩) ++
    List.replicate 6 (.program () ⟨false, 2, 0, id⟩)

theorem databases_safe_firstStart :
    DatabasesSafe someAccount 0
      (run (move (strangers someAccount.uid))
        (started someAccount 0 (some "/data") none privateHome) firstStart) ∧
    (run (move (strangers someAccount.uid))
      (started someAccount 0 (some "/data") none privateHome) firstStart).programs () =
      .done (.ok 2) :=
  ⟨databases_safe someAccount 0 (some "/data") none privateHome
    ⟨_, rfl, rfl, rfl, by decide⟩ firstStart, rfl⟩

end Halquen.Storage.Paths
