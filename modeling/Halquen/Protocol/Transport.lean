import Halquen.Capabilities.Executable
import Halquen.Library.FileCalls
import Halquen.Library.Words

/-!
# Runtime paths

The daemon listens on a socket below the runtime directory of the user, and its clients find it
there. The daemon prepares a directory for it that is the user's alone, takes a stale socket away,
binds a new one and takes it away again in the end; a client looks at the directory and at the
socket before it connects. Between any two of their system calls other users may change the tree,
and other daemons and clients of the user may take their steps.

No other user ever gets hold of a socket that a daemon has bound, daemons remove nothing but sockets
of the user, and clients connect to nothing else if nobody else can write to the runtime directory
(`sockets_safe`). The daemon makes sure of the latter; a client does not look.
-/

set_option autoImplicit false

namespace Halquen.Protocol.Transport

open Halquen.Capabilities.Executable (belowRoot pathText push)
open Halquen.Domain.Agent Halquen.Domain.Capability
open Halquen.Library.FileCalls Halquen.Library.FileTree Halquen.Library.Listing
open Halquen.Library.RelyGuarantee Halquen.Library.Run Halquen.Library.Words

/-- Where the socket of the daemon lies. -/
structure RuntimePaths where
  appDir : String
  socket : String
  deriving DecidableEq

/-- Why a path is not used. -/
inductive RuntimePathError where
  | missingRuntimeDirectory
  | insecure (detail : String)
  | io (error : IoError)
  deriving DecidableEq

/-- `RuntimePaths::discover`: the runtime directory must be named by an absolute path. -/
def discover (xdgRuntimeDir : Option String) : Except RuntimePathError RuntimePaths := do
  let root ← orError .missingRuntimeDirectory xdgRuntimeDir
  rejectIf (!isAbsolute root) (.insecure "XDG_RUNTIME_DIR must be absolute")
  let appDir := push root "halquen"
  return ⟨appDir, push appDir "halquen.sock"⟩

/-- `Path::parent` of an absolute path, written with single slashes. -/
def parent (path : String) : Option String :=
  if belowRoot path = [] then none else some (pathText (belowRoot path).dropLast)

/-- The path of a place, as messages name it. -/
def RuntimePaths.display (paths : RuntimePaths) : Place → String
  | .root => (parent paths.appDir).getD ""
  | .dir => paths.appDir
  | .file => paths.socket

/-- The names below the runtime directory. -/
def socketSite : Site := ⟨"halquen", "halquen.sock", .socket, by decide, by decide⟩

/-! ## The current user -/

/-- A line without the carriage return at its end. -/
def stripReturn (line : List Char) : List Char :=
  if line.getLast? = some '\r' then line.dropLast else line

/-- `str::lines`. -/
def lines (text : List Char) : List (List Char) :=
  let pieces := text.splitOn '\n'
  pieces.dropLast.map stripReturn ++ pieces.getLast?.toList.filter fun line => !line.isEmpty

/-- `str::parse`. -/
def parseU32 (text : List Char) : Option UInt32 :=
  let digits := if text.head? = some '+' then text.tail else text
  if digits.isEmpty || digits.any fun c => !c.isDigit then none
  else
    let value := digits.foldl (fun n c => 10 * n + (c.toNat - '0'.toNat)) 0
    if value < 2 ^ 32 then some (.ofNat value) else none

/-- The user in the status of a process. -/
def parseUid (status : String) : Except RuntimePathError UInt32 := do
  let value ← orError (.insecure "cannot determine current UID")
    (((lines status.toList).find? fun line => "Uid:".toList.isPrefixOf line).bind fun line =>
      (words isWhiteSpace line)[1]?)
  orError (.insecure "cannot parse current UID") (parseU32 value)

example : parseUid "Name:\thalquen-daemon\nUid:\t1000\t1000\t1000\t1000\nGid:\t1000\n" =
    .ok 1000 := by decide

/-- A user, and the status of his processes. -/
structure Account where
  uid : Uid
  status : String
  honest : parseUid status = .ok uid

/-! ## The programs -/

/-- A computation on the file system. -/
abbrev Calls (α : Type) := ExceptT RuntimePathError (Prog World Chance) α

section

variable (account : Account) (paths : RuntimePaths) (root : Inode)

/-- `current_uid`: the user of this process, as the system tells it. -/
def currentUid : Calls UInt32 := readFile (.io .other) (parseUid account.status)

/-- `validate_directory_metadata`: a real directory of this user, closed to others where that is
asked. -/
def validateDirectoryMetadata (place : Place) (metadata : Metadata) («private» : Bool) :
    Calls Unit := do
  reject (metadata.isSymlink || !metadata.isDir)
    (.insecure (paths.display place ++ " is not a real directory"))
  let uid ← currentUid account
  reject (metadata.uid != uid)
    (.insecure (paths.display place ++ " is not owned by the current user"))
  reject («private» && metadata.mode &&& 0o077 != 0)
    (.insecure (paths.display place ++ " is accessible by other users"))

/-- `validate_directory`. -/
def validateDirectory (place : Place) («private» : Bool) : Calls Unit := do
  let metadata ← check .io (symlinkMetadata root socketSite place)
  validateDirectoryMetadata account paths place metadata «private»

/-- The test on the file at the socket path that all three functions make. -/
def rejectForeign (metadata : Metadata) (detail : String) : Calls Unit := do
  reject (metadata.isSymlink || !metadata.isSocket) (.insecure detail)
  let uid ← currentUid account
  reject (metadata.uid != uid) (.insecure detail)

/-- What `prepare_server` does about the application directory. -/
def prepareAppDir : Except IoError Metadata → Calls Unit
  | .ok metadata => validateDirectoryMetadata account paths .dir metadata true
  | .error .notFound => do
      let _ ← check .io (createDir account.uid root socketSite)
      return ()
  | .error .other => throw (.io .other)

/-- What `prepare_server` does about the socket path. -/
def removeStale : Except IoError Metadata → Calls Unit
  | .ok metadata => do
      rejectForeign account metadata ("refusing to replace " ++ paths.display .file)
      check .io (removeFile root socketSite)
  | .error .notFound => return ()
  | .error .other => throw (.io .other)

/-- `prepare_server`: the directory is made if it is missing, and a socket that nobody listens on is
removed. -/
def prepareServer : Calls Unit := do
  reject (parent paths.appDir).isNone
    (.insecure "runtime application directory has no parent")
  validateDirectory account paths root .root true
  let appDir ← attempt (symlinkMetadata root socketSite .dir)
  prepareAppDir account paths root appDir
  check .io (setPermissions account.uid root socketSite .dir 0o700)
  validateDirectory account paths root .dir true
  let socket ← attempt (symlinkMetadata root socketSite .file)
  removeStale account paths root socket

/-- `secure_bound_socket`: the socket is ours and closed to others. -/
def secureBoundSocket : Calls Unit := do
  let metadata ← check .io (symlinkMetadata root socketSite .file)
  rejectForeign account metadata "bound socket path is not a user-owned Unix socket"
  check .io (setPermissions account.uid root socketSite .file 0o600)
  let secured ← check .io (symlinkMetadata root socketSite .file)
  reject (secured.mode &&& 0o077 != 0) (.insecure "bound socket permissions are not private")

/-- `validate_client`: directory and socket are ours before anything is sent. -/
def validateClient : Calls Unit := do
  validateDirectory account paths root .dir true
  let metadata ← check .io (symlinkMetadata root socketSite .file)
  rejectForeign account metadata
    (paths.display .file ++ " is not a private user-owned Unix socket")
  reject (metadata.mode &&& 0o077 != 0)
    (.insecure (paths.display .file ++ " is not a private user-owned Unix socket"))

/-- `remove_known_socket`, given what is found at the path. Its errors are ignored. -/
def removeKnown : Except IoError Metadata → Calls Unit
  | .ok metadata =>
      if metadata.isSocket then do
        let _ ← attempt (removeFile root socketSite)
        return ()
      else return ()
  | .error _ => return ()

/-- The processes that name the socket. -/
inductive Process where
  | daemon | client
  deriving DecidableEq

/-- What a process does with its paths. The daemon serves its clients before it looks at the socket
path for the last time. A client returns the socket to which it is connected. -/
def Process.program : Process → Calls (Option Inode)
  | .daemon => do
      prepareServer account paths root
      let _ ← check .io (makeFile account.uid root socketSite)
      secureBoundSocket account root
      let found ← attempt (symlinkMetadata root socketSite .file)
      removeKnown root found
      return none
  | .client => do
      validateClient account paths root
      let socket ← check .io (openFile root socketSite)
      return some socket

/-- A process of the user, given the value of `XDG_RUNTIME_DIR`. -/
def Process.main (xdgRuntimeDir : Option String) (process : Process) : Calls (Option Inode) := do
  let paths ← ExceptT.mk (pure (discover xdgRuntimeDir))
  process.program account paths root

end

/-! ## Rules -/

section

variable {account : Account} {paths : RuntimePaths} {root a : Inode} {w : World}

/-- The relation on which every program relies and which it guarantees. -/
abbrev Respects (account : Account) : World → World → Prop := Keeps account.uid socketSite

/-- The directory of the socket, and what it names, are the user's. -/
abbrev Prepared (account : Account) (root : Inode) (w : World) : Prop :=
  ∃ a, Ready account.uid root socketSite a w

theorem stable_prepared : Stable (Respects account) (Prepared account root) := by
  rintro w w' h ⟨a, ha⟩
  exact ⟨a, stable_ready w w' h ha⟩

theorem succeeds_currentUid {P : World → Prop} (hP : Stable (Respects account) P) (h : P w) :
    Succeeds (Respects account) (Respects account) (fun uid w => uid = account.uid ∧ P w)
      (currentUid account) w := by
  refine (succeeds_readFile hP h).mono fun uid w hw => ⟨?_, hw.2⟩
  have hparsed := account.honest.symm.trans hw.1
  cases hparsed
  rfl

/-- What passes the test is a private directory of the user. -/
theorem succeeds_validateDirectoryMetadata {P : World → Prop} {place : Place}
    {metadata : Metadata} (hP : Stable (Respects account) P) (h : P w) :
    Succeeds (Respects account) (Respects account)
      (fun _ w => metadata.Private account.uid ∧ P w)
      (validateDirectoryMetadata account paths place metadata true) w := by
  refine (succeeds_reject hP h).bind fun _ w hw => ?_
  obtain ⟨hkind, hw⟩ := hw
  refine (succeeds_currentUid hP hw).bind fun uid w hw => ?_
  obtain ⟨rfl, hw⟩ := hw
  refine (succeeds_reject hP hw).bind fun _ w hw => ?_
  obtain ⟨hown, hw⟩ := hw
  refine (succeeds_reject hP hw).mono fun _ w hw => ⟨⟨?_, ?_, ?_⟩, hw.2⟩
  · simp only [Bool.or_eq_false_iff, Bool.not_eq_false', Metadata.isDir, beq_iff_eq] at hkind
    exact hkind.2
  · exact bne_eq_false_iff_eq.mp hown
  · simpa using hw.1

/-- What passes the test is a socket of the user. -/
theorem succeeds_rejectForeign {P : World → Prop} {metadata : Metadata} {detail : String}
    (hP : Stable (Respects account) P) (h : P w) :
    Succeeds (Respects account) (Respects account)
      (fun _ w => (metadata.kind = .socket ∧ metadata.uid = account.uid) ∧ P w)
      (rejectForeign account metadata detail) w := by
  refine (succeeds_reject hP h).bind fun _ w hw => ?_
  obtain ⟨hkind, hw⟩ := hw
  refine (succeeds_currentUid hP hw).bind fun uid w hw => ?_
  obtain ⟨rfl, hw⟩ := hw
  refine (succeeds_reject hP hw).mono fun _ w hw => ⟨⟨?_, ?_⟩, hw.2⟩
  · simp only [Bool.or_eq_false_iff, Bool.not_eq_false', Metadata.isSocket, beq_iff_eq] at hkind
    exact hkind.2
  · exact bne_eq_false_iff_eq.mp hw.1

theorem succeeds_validateRoot :
    Succeeds (Respects account) (Respects account) (fun _ w => Sealed account.uid w.tree root)
      (validateDirectory account paths root .root true) w := by
  refine (succeeds_check correct_stat_root fun metadata w h => h metadata rfl).bind ?_
  intro metadata w h
  refine (succeeds_validateDirectoryMetadata
    (P := fun w => metadata.Private account.uid → Sealed account.uid w.tree root)
    (fun w w' hkeeps hsealed hprivate => stable_sealed w w' hkeeps (hsealed hprivate)) h).mono ?_
  exact fun _ w hw => hw.2 hw.1

theorem succeeds_validateAppDir (h : Held account.uid w.tree root) :
    Succeeds (Respects account) (Respects account)
      (fun _ w => ∃ a, Guarded account.uid root socketSite a w)
      (validateDirectory account paths root .dir true) w := by
  refine (succeeds_check (correct_stat_dir h) fun metadata w h => h.2 metadata rfl).bind ?_
  intro metadata w h
  refine (succeeds_validateDirectoryMetadata
    (P := fun w => metadata.Private account.uid → ∃ a, Guarded account.uid root socketSite a w)
    (fun w w' hkeeps hguarded hprivate => ?_) h).mono fun _ w hw => hw.2 hw.1
  obtain ⟨a, ha⟩ := hguarded hprivate
  exact ⟨a, stable_guarded w w' hkeeps ha⟩

theorem succeeds_prepareAppDir {found : Except IoError Metadata}
    (h : Held account.uid w.tree root) :
    Succeeds (Respects account) (Respects account) (fun _ w => Held account.uid w.tree root)
      (prepareAppDir account paths root found) w := by
  cases found with
  | ok metadata => exact (succeeds_validateDirectoryMetadata stable_held h).mono fun _ w hw => hw.2
  | error e =>
      cases e with
      | notFound =>
          refine (succeeds_check (correct_createDir stable_held h) fun _ _ hw => hw).bind ?_
          exact fun _ w hw => succeeds_pure () stable_held hw
      | other => exact succeeds_throw _

/-- What is found at the socket path, or that nothing is, is enough to go on. -/
theorem succeeds_removeStale {found : Except IoError Metadata}
    (h : Guarded account.uid root socketSite a w ∧
      (∀ metadata, found = .ok metadata → metadata.kind = socketSite.kind →
        metadata.uid = account.uid → Ready account.uid root socketSite a w) ∧
      (found = .error .notFound → Ready account.uid root socketSite a w)) :
    Succeeds (Respects account) (Respects account) (fun _ => Prepared account root)
      (removeStale account paths root found) w := by
  cases found with
  | ok metadata =>
      refine (succeeds_rejectForeign (P := fun w => metadata.kind = socketSite.kind →
        metadata.uid = account.uid → Ready account.uid root socketSite a w)
        (fun w w' hkeeps hw hkind hown => stable_ready w w' hkeeps (hw hkind hown))
        (h.2.1 metadata rfl)).bind fun _ w hw => ?_
      have hready := hw.2 hw.1.1 hw.1.2
      exact succeeds_check (correct_removeFile hready) fun _ w hw => ⟨a, hw⟩
  | error e =>
      cases e with
      | notFound => exact succeeds_pure () stable_prepared ⟨a, h.2.2 rfl⟩
      | other => exact succeeds_throw _

theorem succeeds_prepareServer :
    Succeeds (Respects account) (Respects account) (fun _ => Prepared account root)
      (prepareServer account paths root) w := by
  refine (succeeds_reject (P := fun _ => True) (fun _ _ _ _ => trivial) trivial).bind ?_
  intro _ w _
  refine succeeds_validateRoot.bind fun _ w hsealed => ?_
  refine (succeeds_attempt (correct_stat_dir (Sealed.held hsealed))).bind fun found w hw => ?_
  refine (succeeds_prepareAppDir hw.1).bind fun _ w hheld => ?_
  refine (succeeds_check (correct_setPermissions stable_held (by decide) hheld)
    fun _ _ hw => hw).bind fun _ w hheld => ?_
  refine (succeeds_validateAppDir hheld).bind fun _ w hguarded => ?_
  obtain ⟨a, ha⟩ := hguarded
  refine (succeeds_attempt (correct_stat_file ha)).bind fun found w hw => ?_
  exact succeeds_removeStale hw

/-- A prepared directory stays prepared while the socket is secured. -/
theorem succeeds_secureBoundSocket (h : Ready account.uid root socketSite a w) :
    Succeeds (Respects account) (Respects account)
      (fun _ => Ready account.uid root socketSite a) (secureBoundSocket account root) w := by
  refine (succeeds_check (correct_reading_keeps stable_ready h) fun _ _ hw => hw).bind ?_
  intro metadata w hw
  refine (succeeds_rejectForeign stable_ready hw).bind fun _ w hw => ?_
  refine (succeeds_check (correct_setPermissions stable_ready (by decide) hw.2)
    fun _ _ hw => hw).bind fun _ w hw => ?_
  refine (succeeds_check (correct_reading_keeps stable_ready hw) fun _ _ hw => hw).bind ?_
  exact fun _ w hw => (succeeds_reject stable_ready hw).mono fun _ _ hw => hw.2

theorem succeeds_removeKnown {found : Except IoError Metadata}
    (h : Ready account.uid root socketSite a w) :
    Succeeds (Respects account) (Respects account)
      (fun _ => Ready account.uid root socketSite a) (removeKnown root found) w := by
  cases found with
  | error e => exact succeeds_pure () stable_ready h
  | ok metadata =>
      unfold removeKnown
      dsimp only
      split
      · refine (succeeds_attempt (correct_removeFile h)).bind fun _ w hw => ?_
        exact succeeds_pure () stable_ready hw
      · exact succeeds_pure () stable_ready h

theorem succeeds_daemon {Q : Option Inode → World → Prop} (hQ : ∀ w, Q none w) :
    Succeeds (Respects account) (Respects account) Q
      (Process.program account paths root .daemon) w := by
  refine succeeds_prepareServer.bind fun _ w hprepared => ?_
  obtain ⟨a, ha⟩ := hprepared
  refine (succeeds_check (correct_makeFile ha) fun _ _ hw => hw).bind fun _ w hw => ?_
  refine (succeeds_secureBoundSocket hw).bind fun _ w hw => ?_
  refine (succeeds_attempt (correct_reading_keeps stable_ready hw)).bind fun found w hw => ?_
  refine (succeeds_removeKnown hw).bind fun _ w _ => ?_
  exact succeeds_pure none (fun _ w _ _ => hQ w) (hQ w)

/-- A client only looks. -/
theorem succeeds_client_reads :
    Succeeds (Respects account) (Respects account) (fun _ _ => True)
      (Process.program account paths root .client) w := by
  have hstable : Stable (Respects account) fun _ => True := fun _ _ _ _ => trivial
  have hreads : ∀ {α : Type} (f : Chance → Tree → Except IoError α) (w : World),
      Succeeds (Respects account) (Respects account) (fun _ _ => True)
        (check .io (reading f) : Calls α) w := fun f w =>
    succeeds_check (correct_reading_keeps hstable trivial) fun _ _ _ => trivial
  have hvalidated : Succeeds (Respects account) (Respects account) (fun _ _ => True)
      (validateClient account paths root) w := by
    refine Succeeds.bind (Q := fun _ _ => True) ?_ fun _ w _ => ?_
    · refine (hreads _ _).bind fun metadata w _ => ?_
      exact (succeeds_validateDirectoryMetadata hstable trivial).mono fun _ _ _ => trivial
    · refine (hreads _ _).bind fun metadata w _ => ?_
      refine (succeeds_rejectForeign hstable trivial).bind fun _ w _ => ?_
      exact (succeeds_reject hstable trivial).mono fun _ _ _ => trivial
  refine hvalidated.bind fun _ w _ => (hreads _ _).bind fun socket w _ => ?_
  exact succeeds_pure (some socket) hstable trivial

/-- In a runtime directory that nobody else can write to, the client finds a socket of the user. -/
theorem succeeds_client (h : Held account.uid w.tree root) :
    Succeeds (Respects account) (Respects account)
      (fun socket w => ∀ i, socket = some i → OwnFile account.uid w.tree .socket i)
      (Process.program account paths root .client) w := by
  have hvalidated : Succeeds (Respects account) (Respects account)
      (fun _ => Prepared account root) (validateClient account paths root) w := by
    refine (succeeds_validateAppDir h).bind fun _ w hguarded => ?_
    obtain ⟨a, ha⟩ := hguarded
    refine (succeeds_check (correct_stat_file ha) fun metadata w hw => hw.2.1 metadata rfl).bind ?_
    intro metadata w hw
    refine (succeeds_rejectForeign (P := fun w => metadata.kind = socketSite.kind →
      metadata.uid = account.uid → Ready account.uid root socketSite a w)
      (fun w w' hkeeps hw hkind hown => stable_ready w w' hkeeps (hw hkind hown)) hw).bind ?_
    intro _ w hw
    have hready := hw.2 hw.1.1 hw.1.2
    exact (succeeds_reject stable_prepared ⟨a, hready⟩).mono fun _ _ hw => hw.2
  refine hvalidated.bind fun _ w hprepared => ?_
  obtain ⟨a, ha⟩ := hprepared
  refine (succeeds_check (correct_openFile ha) fun i w hw => hw i rfl).bind fun socket w hw => ?_
  refine succeeds_pure (some socket) (fun w w' hkeeps hown i hi => ?_) fun i hi => ?_
  · exact OwnFile.lasting (hown i hi) hkeeps.tree.lasting
  · cases hi
    exact hw

/-- The process is connected to a socket of the user, if it is connected and nobody else could write
to the runtime directory of the tree. -/
def WellConnected (account : Account) (root : Inode) (tree : Tree) (socket : Option Inode)
    (w : World) : Prop :=
  ∀ i, socket = some i → Held account.uid tree root → OwnFile account.uid w.tree .socket i

theorem succeeds_main {xdgRuntimeDir : Option String} (process : Process) :
    Succeeds (Respects account) (Respects account) (WellConnected account root w.tree)
      (process.main account root xdgRuntimeDir) w := by
  unfold Process.main
  cases discover xdgRuntimeDir with
  | error e => exact succeeds_throw e
  | ok paths =>
      change Succeeds _ _ _ (process.program account paths root) w
      cases process with
      | daemon => exact succeeds_daemon fun w i hi => by cases hi
      | client =>
          by_cases hheld : Held account.uid w.tree root
          · exact (succeeds_client hheld).mono fun _ _ hown i hi _ => hown i hi
          · exact succeeds_client_reads.mono fun _ _ _ _ _ h => absurd h hheld

end

/-! ## Any number of processes -/

section

variable {ι : Type} (account : Account) (root : Inode)

/-- Daemons and clients that have not begun. -/
def started (xdgRuntimeDir : Option String) (processes : ι → Process)
    (files : {tree : Tree // Closed tree}) :
    Shared ι World Chance (Except RuntimePathError (Option Inode)) :=
  launch files fun k => (processes k).main account root xdgRuntimeDir

/-- No other user gets hold of a socket that was bound, nothing was removed but sockets of the user,
and the clients that are connected, are connected to sockets of the user, provided that nobody else
could write to the runtime directory in the beginning. -/
structure SocketsSafe (tree : Tree)
    (s : Shared ι World Chance (Except RuntimePathError (Option Inode))) : Prop where
  unreached : ∀ v, v ≠ account.uid → ∀ i ∈ s.state.made, ¬ MayReach v s.state.tree i
  removed : ∀ node ∈ s.state.removed, node.kind = .socket ∧ node.owner = account.uid
  connected : Held account.uid tree root → ∀ k i, s.programs k = .done (.ok (some i)) →
    OwnFile account.uid s.state.tree .socket i

/-- Whatever other users do meanwhile, and in whatever order the daemons and the clients take their
steps. -/
theorem sockets_safe [DecidableEq ι] (xdgRuntimeDir : Option String) (processes : ι → Process)
    (files : {tree : Tree // Closed tree})
    (moves : List (Move ι Chance (Stranger account.uid × Meddling))) :
    SocketsSafe account root files.1
      (run (move (strangers account.uid)) (started account root xdgRuntimeDir processes files)
        moves) := by
  have hprograms : ∀ k, Succeeds (Respects account) (Respects account)
      (WellConnected account root files.1) ((processes k).main account root xdgRuntimeDir)
      (World.new files) := fun k => succeeds_main (w := World.new files) (processes k)
  refine ⟨fun v hv i hi => ?_, fun node hnode => ?_, fun hheld k i hdone => ?_⟩
  · exact launch_unreached hprograms moves hv hi
  · exact launch_removed hprograms moves hnode
  · exact launch_ended hprograms moves hdone i rfl hheld

end

/-- A runtime directory that everybody may write to, with a private application directory. -/
def sharedRuntime : {tree : Tree // Closed tree} :=
  ⟨_, ((closed_empty.addNode 0 .directory 1000 0o777).create 0 "halquen" 1 .directory 1000
    0o700).create 1 "halquen.sock" 2 .socket 1000 0o600⟩

/-- Some user. -/
def someAccount : Account := ⟨1000, "Uid:\t1000\t1000\t1000\t1000\n", by decide⟩

/-- Another user exchanges the application directory after the client has looked. -/
def exchanged : List (Move Unit Chance (Stranger someAccount.uid × Meddling)) :=
  let quiet : Chance := ⟨false, 0, 0, id⟩
  let other : Stranger someAccount.uid := ⟨2000, by decide⟩
  List.replicate 4 (.program () quiet) ++
    [.interference (other, .create 0 "halquen" 3 .directory 0o777),
      .interference (other, .create 3 "halquen.sock" 4 .socket 0o777), .program () quiet]

/-- There a client can be led to a socket of another user. -/
example : (run (move (strangers someAccount.uid)) (started someAccount 0 (some "/run/user/1000")
    (fun _ => .client) sharedRuntime) exchanged).programs () = .done (.ok (some 4)) ∧
    ((run (move (strangers someAccount.uid)) (started someAccount 0 (some "/run/user/1000")
      (fun _ => .client) sharedRuntime) exchanged).state.tree 4).map Node.owner = some 2000 :=
  ⟨rfl, rfl⟩

end Halquen.Protocol.Transport
