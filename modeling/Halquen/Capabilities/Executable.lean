import Halquen.Domain.Agent
import Halquen.Library.Listing

/-!
# Executable files

An executable is inspected when an agent or an application is registered, and verified when it is
started: the file is inspected again under the path on record, and the result has to be the
identity on record. The file system is a parameter.

An inspected identity verifies under the path that was inspected exactly when that path is written
as the canonical one (`verifyExecutable_isOk_iff`).
-/

set_option autoImplicit false

namespace Halquen.Capabilities.Executable

open Halquen.Domain.Agent Halquen.Library.Listing

/-- Why an executable is not trusted. -/
inductive ExecutableIdentityError where
  | invalidPath | symlinkComponent | notExecutable | invalidOwner | insecurePermissions
  | hashMismatch | identityChanged | inspectionFailed
  deriving DecidableEq, Repr

/-! ## Paths -/

/-- A component of a path. -/
inductive Component where
  | rootDir | curDir | parentDir | normal (name : String)
  deriving DecidableEq

/-- What stands between two slashes. Nothing and `.` are no components. -/
def partComponent (part : List Char) : Option Component :=
  if part = [] ∨ part = ['.'] then none
  else if part = ['.', '.'] then some .parentDir
  else some (.normal (String.ofList part))

/-- `Path::components`. A dot is kept at the front of a relative path only. -/
def components (path : String) : List Component :=
  let parts := path.toList.splitOn '/'
  let front := if isAbsolute path then [.rootDir]
    else if parts.head? = some ['.'] then [.curDir] else []
  front ++ parts.filterMap partComponent

/-- `Component::as_os_str`. -/
def Component.asOsStr : Component → String
  | .rootDir => "/"
  | .curDir => "."
  | .parentDir => ".."
  | .normal name => name

/-- `PathBuf::push` of a component that is not the root. -/
def push (path name : String) : String :=
  if path.toList.getLast? = some '/' then path ++ name else path ++ "/" ++ name

/-- The components below the root. -/
def belowRoot (path : String) : List Component := (components path).drop 1

/-- An absolute path of these components below the root, with single slashes. -/
def pathText (below : List Component) : String :=
  below.foldl (fun path component => push path component.asOsStr) "/"

/-- Written without repeated slashes, dots between slashes and a slash at the end. -/
def Normalized (path : String) : Prop := path = pathText (belowRoot path)

instance (path : String) : Decidable (Normalized path) := inferInstanceAs (Decidable (_ = _))

example : Normalized "/usr/bin/true" ∧ ¬ Normalized "/usr//bin/true" ∧
    ¬ Normalized "/usr/./bin/true" ∧ ¬ Normalized "/usr/bin/true/" := by decide

/-! ## The file system -/

/-- What the system reports about a file. -/
structure Metadata where
  isFile : Bool
  isDir : Bool
  isSymlink : Bool
  mode : UInt32
  uid : UInt32
  dev : UInt64
  ino : UInt64
  size : UInt64
  mtime : Int
  mtimeNsec : Int
  deriving DecidableEq

/-- The file system and the process, as long as they do not change. `digest` is the SHA-256 of a
content in lower-case hexadecimal digits. -/
structure FileSystem where
  symlinkMetadata : String → Option Metadata
  metadata : String → Option Metadata
  canonicalize : String → Option String
  contents : String → Option (List UInt8)
  digest : List UInt8 → String
  currentUid : Option UInt32

/-- `canonicalize` returns paths whose components are normalized. -/
def FileSystem.Canonical (F : FileSystem) : Prop :=
  ∀ path canonical, F.canonicalize path = some canonical → Normalized canonical

/-! ## Inspection -/

section

variable (F : FileSystem)

/-- `reject_symlink_components`: none of the directories on the way is a link. -/
def rejectSymlinkComponents (current : String) :
    List Component → Except ExecutableIdentityError Unit
  | [] => .ok ()
  | component :: rest => do
      let current := push current component.asOsStr
      let metadata ← orError .inspectionFailed (F.symlinkMetadata current)
      rejectIf metadata.isSymlink .symlinkComponent
      rejectSymlinkComponents current rest

/-- `validate_owner`: the administrator, or the user where that is permitted. -/
def validateOwner (ownerUid : UInt32) (ownership : ExecutableOwnership)
    (currentUid rootOwnerUid : UInt32) : Except ExecutableIdentityError Unit :=
  let valid := match ownership with
    | .rootOnly => ownerUid == rootOwnerUid
    | .rootOrCurrentUser => ownerUid == rootOwnerUid || ownerUid == currentUid
  rejectIf (!valid) .invalidOwner

/-- `Path::ancestors`, without the path itself. -/
def parents (path : String) : List String :=
  ((belowRoot path).inits.reverse.drop 1).map pathText

/-- `validate_parent_directories`: nobody else may write to the directories on the way. -/
def validateParentDirectories (ownership : ExecutableOwnership) (currentUid rootOwnerUid : UInt32) :
    List String → Except ExecutableIdentityError Unit
  | [] => .ok ()
  | parent :: rest => do
      let metadata ← orError .inspectionFailed (F.symlinkMetadata parent)
      rejectIf (metadata.isSymlink || !metadata.isDir) .symlinkComponent
      validateOwner metadata.uid ownership currentUid rootOwnerUid
      rejectIf (metadata.mode &&& 0o022 != 0) .insecurePermissions
      validateParentDirectories ownership currentUid rootOwnerUid rest

/-- `sha256`: the hash of the contents. -/
def sha256 (path : String) : Except ExecutableIdentityError String :=
  (orError .inspectionFailed (F.contents path)).map F.digest

/-- The hash of a file that has one to be compared with. -/
def pinnedHash (path : String) : Option String → Except ExecutableIdentityError (Option String)
  | none => .ok none
  | some expected => do
      rejectIf (expected.utf8ByteSize != 64 || !expected.toList.all isLowerHex) .hashMismatch
      let actual ← sha256 F path
      rejectIf (actual != expected) .hashMismatch
      return some actual

/-- `inspect_executable`: what identifies the file, if it can be trusted. -/
def inspectExecutable (value : String) (ownership : ExecutableOwnership)
    (sha256Pin : Option String) : Except ExecutableIdentityError ExecutableIdentity := do
  rejectIf (!isAbsolute value
    || (components value).any fun component => component == .curDir || component == .parentDir)
    .invalidPath
  rejectSymlinkComponents F "/" (belowRoot value)
  let canonical ← orError .inspectionFailed (F.canonicalize value)
  -- Paths are compared by their components, not by their texts.
  rejectIf (components canonical != components value) .invalidPath
  let metadata ← orError .inspectionFailed (F.metadata canonical)
  rejectIf (!metadata.isFile || metadata.mode &&& 0o111 == 0) .notExecutable
  let currentUid ← orError .inspectionFailed F.currentUid
  let root ← orError .inspectionFailed (F.metadata "/")
  validateOwner metadata.uid ownership currentUid root.uid
  rejectIf (metadata.mode &&& 0o022 != 0) .insecurePermissions
  validateParentDirectories F ownership currentUid root.uid (parents canonical)
  let sha256Hex ← pinnedHash F canonical sha256Pin
  return {
    canonicalPath := canonical
    device := metadata.dev
    inode := metadata.ino
    ownerUid := metadata.uid
    size := metadata.size
    modifiedSeconds := metadata.mtime
    modifiedNanoseconds := metadata.mtimeNsec
    sha256Hex }

/-- The path of the executable, if it is still the file on record. -/
def verifyExecutable (expected : ExecutableIdentity) (ownership : ExecutableOwnership) :
    Except ExecutableIdentityError String := do
  rejectIf (!(expected.validate matches .ok _)) .identityChanged
  let actual ← inspectExecutable F expected.canonicalPath ownership expected.sha256Hex
  rejectIf (actual != expected) .identityChanged
  return actual.canonicalPath

variable {F}

theorem eq_of_pinnedHash {path : String} {pin hash : Option String}
    (h : pinnedHash F path pin = .ok hash) : hash = pin := by
  cases pin with
  | none => exact (Except.ok.inj h).symm
  | some expected =>
      simp only [pinnedHash, except_bind_eq_ok_iff, rejectIf_eq_ok_iff] at h
      obtain ⟨-, -, actual, -, -, hsame, heq⟩ := h
      obtain rfl : actual = expected := by simpa using hsame
      exact (Except.ok.inj heq).symm

/-- What an accepted path says about the identity. -/
theorem inspectExecutable_spec {value : String} {ownership : ExecutableOwnership}
    {pin : Option String} {identity : ExecutableIdentity}
    (h : inspectExecutable F value ownership pin = .ok identity) :
    F.canonicalize value = some identity.canonicalPath ∧
      components identity.canonicalPath = components value ∧ identity.sha256Hex = pin := by
  simp only [inspectExecutable, except_bind_eq_ok_iff, rejectIf_eq_ok_iff, orError_eq_ok_iff] at h
  obtain ⟨-, -, -, -, canonical, hcanonical, -, hsame, metadata, -, -, -, -, -, -, -, -, -, -, -,
    -, -, hash, hhash, heq⟩ := h
  cases heq
  exact ⟨hcanonical, by simpa using hsame, eq_of_pinnedHash hhash⟩

/-- The canonical path is the text of the accepted one if that is normalized. -/
theorem canonicalPath_eq_iff (hcanonical : F.Canonical) {value : String}
    {ownership : ExecutableOwnership} {pin : Option String} {identity : ExecutableIdentity}
    (h : inspectExecutable F value ownership pin = .ok identity) :
    identity.canonicalPath = value ↔ Normalized value := by
  obtain ⟨hfound, hsame, -⟩ := inspectExecutable_spec h
  have hnormal := hcanonical _ _ hfound
  constructor
  · intro heq
    exact heq ▸ hnormal
  · intro hvalue
    unfold Normalized belowRoot at hnormal hvalue
    rw [hnormal, hsame, ← hvalue]

/-- Under the accepted path on record in place of the canonical one, the identity verifies only if
the two are the same text. -/
theorem verifyExecutable_isOk_iff {value : String} {ownership : ExecutableOwnership}
    {pin : Option String} {identity : ExecutableIdentity}
    (h : inspectExecutable F value ownership pin = .ok identity)
    (hvalid : identity.validate = .ok ()) :
    (∃ path, verifyExecutable F { identity with canonicalPath := value } ownership = .ok path) ↔
      identity.canonicalPath = value := by
  obtain ⟨-, -, rfl⟩ := inspectExecutable_spec h
  constructor
  · rintro ⟨path, hverified⟩
    simp only [verifyExecutable, except_bind_eq_ok_iff, rejectIf_eq_ok_iff, h] at hverified
    obtain ⟨-, -, actual, hactual, -, hsame, -⟩ := hverified
    cases hactual
    have heq : identity = { identity with canonicalPath := value } := by simpa using hsame
    exact congrArg ExecutableIdentity.canonicalPath heq
  · rintro rfl
    change ∃ path, verifyExecutable F identity ownership = .ok path
    refine ⟨identity.canonicalPath, ?_⟩
    simp only [verifyExecutable, except_bind_eq_ok_iff, rejectIf_eq_ok_iff, h, hvalid]
    exact ⟨(), rfl, identity, rfl, (), by simp, rfl⟩

end

end Halquen.Capabilities.Executable
