import Halquen.Capabilities.Executable
import Mathlib.Data.List.Infix

/-!
# Trusted paths

What an inspection establishes of an executable: the walk down from the root meets no symbolic
link, and the walk up from the file meets only directories that no one else can write to. An
identity that was found in a file system is verified in it, and later it is verified only while all
of this still holds and the file is the same (`executable_trusted`).

Of the file system the results use what is documented of `canonicalize` and of time stamps
(`Documented`).
-/

set_option autoImplicit false

namespace Halquen.Capabilities.TrustedPath

open Halquen.Domain.Agent Halquen.Library.Listing Halquen.Capabilities.Executable

/-- Documented behaviour of the file system. -/
structure Documented (F : FileSystem) : Prop where
  /-- The result of `canonicalize` is normalized. -/
  canonical : F.Canonical
  /-- A canonical path is its own canonical path. -/
  idempotent : ∀ path canonical, F.canonicalize path = some canonical →
    F.canonicalize canonical = some canonical
  /-- The nanoseconds of a time stamp are less than a second. -/
  nanoseconds : ∀ path metadata, F.metadata path = some metadata →
    0 ≤ metadata.mtimeNsec ∧ metadata.mtimeNsec < 1000000000

/-! ## Trust -/

/-- The owner of the root directory, and under the second policy the current user. -/
def Owner (F : FileSystem) (ownership : ExecutableOwnership) (uid : UInt32) : Prop :=
  (∃ root, F.metadata "/" = some root ∧ uid = root.uid) ∨
    (ownership = .rootOrCurrentUser ∧ F.currentUid = some uid)

/-- In the hands of an owner, and not writable by group or others. -/
def Guarded (F : FileSystem) (ownership : ExecutableOwnership) (metadata : Metadata) : Prop :=
  Owner F ownership metadata.uid ∧ metadata.mode &&& 0o022 = 0

/-- The path of an executable that can be trusted. -/
structure Trusted (F : FileSystem) (path : String) (ownership : ExecutableOwnership)
    (pin : Option String) : Prop where
  absolute : isAbsolute path = true
  noLinks : ∀ front, front <+: belowRoot path → front ≠ [] →
    ∃ metadata, F.symlinkMetadata (pathText front) = some metadata ∧ metadata.isSymlink = false
  file : ∃ metadata, F.metadata (pathText (belowRoot path)) = some metadata ∧
    metadata.isFile = true ∧ metadata.mode &&& 0o111 ≠ 0 ∧ Guarded F ownership metadata
  ancestors : ∀ front, front <+: belowRoot path → front ≠ belowRoot path →
    ∃ metadata, F.symlinkMetadata (pathText front) = some metadata ∧ metadata.isSymlink = false ∧
      metadata.isDir = true ∧ Guarded F ownership metadata
  hash : ∀ expected, pin = some expected →
    ∃ content, F.contents (pathText (belowRoot path)) = some content ∧ F.digest content = expected

/-- The file at the path is the one on record. -/
def Unchanged (F : FileSystem) (identity : ExecutableIdentity) : Prop :=
  ∃ metadata, F.metadata identity.canonicalPath = some metadata ∧
    metadata.dev = identity.device ∧ metadata.ino = identity.inode ∧
    metadata.uid = identity.ownerUid ∧ metadata.size = identity.size ∧
    metadata.mtime = identity.modifiedSeconds ∧ metadata.mtimeNsec = identity.modifiedNanoseconds

/-! ## The two walks -/

/-- The path below a directory. -/
def pathFrom (current : String) (below : List Component) : String :=
  below.foldl (fun path component => push path component.asOsStr) current

section

variable {F : FileSystem}

/-- The walk down meets every component. -/
theorem rejectSymlinkComponents_spec {current : String} {below : List Component}
    (h : rejectSymlinkComponents F current below = .ok ()) :
    ∀ front, front <+: below → front ≠ [] →
      ∃ metadata, F.symlinkMetadata (pathFrom current front) = some metadata ∧
        metadata.isSymlink = false := by
  induction below generalizing current with
  | nil =>
      intro front hfront hne
      exact absurd (List.prefix_nil.mp hfront) hne
  | cons component rest ih =>
      simp only [rejectSymlinkComponents, except_bind_eq_ok_iff, orError_eq_ok_iff,
        rejectIf_eq_ok_iff] at h
      obtain ⟨metadata, hmetadata, -, hlink, hrest⟩ := h
      intro front hfront hne
      obtain ⟨first, front, rfl⟩ := List.exists_cons_of_ne_nil hne
      obtain ⟨rfl, htail⟩ := List.cons_prefix_cons.mp hfront
      by_cases hend : front = []
      · subst hend
        exact ⟨metadata, hmetadata, hlink⟩
      · exact ih hrest front htail hend

theorem owner_of_validateOwner {uid : UInt32} {ownership : ExecutableOwnership}
    {currentUid : UInt32} {root : Metadata} (hcurrent : F.currentUid = some currentUid)
    (hroot : F.metadata "/" = some root)
    (h : validateOwner uid ownership currentUid root.uid = .ok ()) : Owner F ownership uid := by
  cases ownership with
  | rootOnly =>
      simp only [validateOwner, rejectIf_eq_ok_iff, Bool.not_eq_false', beq_iff_eq] at h
      exact .inl ⟨root, hroot, h⟩
  | rootOrCurrentUser =>
      simp only [validateOwner, rejectIf_eq_ok_iff, Bool.not_eq_false', Bool.or_eq_true,
        beq_iff_eq] at h
      rcases h with h | h
      · exact .inl ⟨root, hroot, h⟩
      · exact .inr ⟨rfl, h ▸ hcurrent⟩

/-- The walk up meets every directory above the file. -/
theorem validateParentDirectories_spec {ownership : ExecutableOwnership} {currentUid : UInt32}
    {root : Metadata} (hcurrent : F.currentUid = some currentUid)
    (hroot : F.metadata "/" = some root) {paths : List String}
    (h : validateParentDirectories F ownership currentUid root.uid paths = .ok ()) :
    ∀ path ∈ paths, ∃ metadata, F.symlinkMetadata path = some metadata ∧
      metadata.isSymlink = false ∧ metadata.isDir = true ∧ Guarded F ownership metadata := by
  induction paths with
  | nil => exact fun path hpath => absurd hpath List.not_mem_nil
  | cons parent rest ih =>
      simp only [validateParentDirectories, except_bind_eq_ok_iff, orError_eq_ok_iff,
        rejectIf_eq_ok_iff, Bool.or_eq_false_iff, Bool.not_eq_false', bne_eq_false_iff_eq] at h
      obtain ⟨metadata, hmetadata, -, ⟨hlink, hdir⟩, accepted, howner, -, hmode, hrest⟩ := h
      intro path hpath
      rcases List.mem_cons.mp hpath with rfl | hpath
      · exact ⟨metadata, hmetadata, hlink, hdir,
          owner_of_validateOwner hcurrent hroot howner, hmode⟩
      · exact ih hrest path hpath

/-- The directories above a path are the paths of its proper prefixes. -/
theorem mem_parents {path : String} {front : List Component} (hfront : front <+: belowRoot path)
    (hne : front ≠ belowRoot path) : pathText front ∈ parents path := by
  unfold parents
  apply List.mem_map_of_mem
  have hmem : front ∈ (belowRoot path).inits.reverse := by
    rw [List.mem_reverse, List.mem_inits]
    exact hfront
  have hwhole : (belowRoot path).inits.reverse =
      belowRoot path :: (belowRoot path).inits.reverse.drop 1 := by
    generalize belowRoot path = below
    rw [List.inits_eq_tails, List.reverse_reverse]
    cases hreverse : below.reverse with
    | nil =>
        rw [List.reverse_eq_nil_iff.mp hreverse]
        rfl
    | cons last rest =>
        rw [List.tails_cons, List.map_cons, List.drop_one, List.tail_cons, ← hreverse,
          List.reverse_reverse]
  rw [hwhole] at hmem
  exact (List.mem_cons.mp hmem).resolve_left hne

/-! ## Inspection and verification -/

variable {value : String} {ownership : ExecutableOwnership} {pin : Option String}
  {identity : ExecutableIdentity}

theorem hash_of_pinnedHash {path : String} {hash : Option String}
    (h : pinnedHash F path pin = .ok hash) : ∀ expected, pin = some expected →
      (∃ content, F.contents path = some content ∧ F.digest content = expected) ∧
        expected.utf8ByteSize = 64 ∧ expected.toList.all isLowerHex = true := by
  rintro expected rfl
  simp only [pinnedHash, except_bind_eq_ok_iff, rejectIf_eq_ok_iff, Bool.or_eq_false_iff,
    bne_eq_false_iff_eq, Bool.not_eq_false'] at h
  obtain ⟨-, ⟨hsize, hdigits⟩, actual, hactual, -, rfl, -⟩ := h
  cases hcontents : F.contents path with
  | none =>
      rw [sha256, hcontents] at hactual
      cases hactual
  | some content =>
      rw [sha256, hcontents] at hactual
      exact ⟨⟨content, rfl, Except.ok.inj hactual⟩, hsize, hdigits⟩

theorem belowRoot_congr {path path' : String} (h : components path = components path') :
    belowRoot path = belowRoot path' := congrArg (List.drop 1) h

/-- What an inspection finds. -/
structure Inspected (F : FileSystem) (value : String) (ownership : ExecutableOwnership)
    (pin : Option String) (identity : ExecutableIdentity) : Prop where
  canonicalized : F.canonicalize value = some identity.canonicalPath
  path : identity.canonicalPath = pathText (belowRoot value)
  components : components identity.canonicalPath = components value
  pinned : identity.sha256Hex = pin
  hexadecimal : ∀ expected, pin = some expected →
    expected.utf8ByteSize = 64 ∧ expected.toList.all isLowerHex = true
  trusted : Trusted F value ownership pin
  unchanged : Unchanged F identity

theorem inspected_of_inspectExecutable (hcanonical : Normalized identity.canonicalPath)
    (h : inspectExecutable F value ownership pin = .ok identity) :
    Inspected F value ownership pin identity := by
  obtain ⟨hfound, hsame, hpin⟩ := inspectExecutable_spec h
  have hpath : identity.canonicalPath = pathText (belowRoot value) :=
    hcanonical.trans (congrArg pathText (belowRoot_congr hsame))
  simp only [inspectExecutable, except_bind_eq_ok_iff, rejectIf_eq_ok_iff, orError_eq_ok_iff,
    Bool.or_eq_false_iff, Bool.not_eq_false', beq_eq_false_iff_ne, bne_eq_false_iff_eq] at h
  obtain ⟨-, ⟨habsolute, -⟩, walkedDown, hlinks, canonical, -, -, -, metadata, hmetadata, -,
    ⟨hfile, hexecute⟩, currentUid, hcurrent, root, hroot, accepted, howner, -, hmode, walkedUp,
    hparents, hash, hhash, heq⟩ := h
  cases heq
  have hpinned := hash_of_pinnedHash hhash
  refine ⟨hfound, hpath, hsame, hpin, fun expected hexpected => (hpinned expected hexpected).2,
    ⟨habsolute, rejectSymlinkComponents_spec hlinks, ?_, ?_, ?_⟩,
    metadata, hmetadata, rfl, rfl, rfl, rfl, rfl, rfl⟩
  · exact ⟨metadata, hpath ▸ hmetadata, hfile, hexecute,
      owner_of_validateOwner hcurrent hroot howner, hmode⟩
  · intro front hfront hne
    apply validateParentDirectories_spec hcurrent hroot hparents
    have hbelow : belowRoot canonical = belowRoot value := belowRoot_congr hsame
    apply mem_parents
    · rw [hbelow]
      exact hfront
    · rw [hbelow]
      exact hne
  · intro expected hexpected
    exact hpath ▸ (hpinned expected hexpected).1

theorem isAbsolute_pathText (below : List Component) : isAbsolute (pathText below) = true := by
  have hfrom : ∀ current, isAbsolute current = true →
      isAbsolute (pathFrom current below) = true := by
    induction below with
    | nil => exact fun current h => h
    | cons component rest ih =>
        intro current h
        apply ih
        rw [isAbsolute, beq_iff_eq] at h ⊢
        change (push current component.asOsStr).toList.head? = some '/'
        unfold push
        split
        · rw [String.toList_append, List.head?_append, h]
          rfl
        · rw [String.toList_append, String.toList_append, List.head?_append, List.head?_append, h]
          rfl
  exact hfrom "/" rfl

/-- Paths with the same components and the same canonical path are inspected alike. -/
theorem inspectExecutable_congr {value' : String} (habsolute : isAbsolute value = isAbsolute value')
    (hsame : components value = components value')
    (hcanonical : F.canonicalize value = F.canonicalize value') :
    inspectExecutable F value ownership pin = inspectExecutable F value' ownership pin := by
  simp only [inspectExecutable, habsolute, hsame, hcanonical, belowRoot_congr hsame]

/-- In the file system in which an identity was found, it is verified. -/
theorem verifyExecutable_same (hF : Documented F)
    (h : inspectExecutable F value ownership pin = .ok identity)
    (hlength : identity.canonicalPath.utf8ByteSize ≤ 1024) :
    verifyExecutable F identity ownership = .ok identity.canonicalPath := by
  have hfound := (inspectExecutable_spec h).1
  have hall := inspected_of_inspectExecutable (hF.canonical _ _ hfound) h
  have habsolute : isAbsolute identity.canonicalPath = true :=
    hall.path ▸ isAbsolute_pathText _
  -- The identity was built from metadata and a checked hash, so it passes its own checks.
  have hvalid : identity.validate = .ok () := by
    obtain ⟨metadata, hmetadata, -, -, -, -, -, hnanoseconds⟩ := hall.unchanged
    obtain ⟨hlow, hhigh⟩ := hF.nanoseconds _ _ hmetadata
    rw [hnanoseconds] at hlow hhigh
    have hhash : (identity.sha256Hex.any fun hash =>
        hash.utf8ByteSize != 64 || !hash.toList.all isLowerHex) = false := by
      rw [hall.pinned]
      cases pin with
      | none => rfl
      | some expected =>
          obtain ⟨hsize, hdigits⟩ := hall.hexadecimal expected rfl
          rw [Option.any_some, hsize, hdigits]
          rfl
    unfold ExecutableIdentity.validate
    rw [hhash, habsolute, decide_eq_true hlow, decide_eq_true hhigh,
      decide_eq_false (Nat.not_lt.mpr hlength)]
    rfl
  -- The canonical path leads to the same components as the path that was inspected.
  have hagain : inspectExecutable F identity.canonicalPath ownership identity.sha256Hex =
      .ok identity := by
    rw [hall.pinned, ← h]
    exact inspectExecutable_congr (habsolute.trans hall.trusted.absolute.symm) hall.components
      ((hF.idempotent _ _ hfound).trans hfound.symm)
  simp only [verifyExecutable, except_bind_eq_ok_iff, rejectIf_eq_ok_iff, hvalid, hagain]
  exact ⟨(), rfl, identity, rfl, (), by simp, rfl⟩

/-- Wherever an identity is verified, its path is trusted and the file is unchanged. -/
theorem trusted_of_verifyExecutable {G : FileSystem} (hnormal : Normalized identity.canonicalPath)
    {path : String} (h : verifyExecutable G identity ownership = .ok path) :
    Trusted G identity.canonicalPath ownership identity.sha256Hex ∧ Unchanged G identity := by
  simp only [verifyExecutable, except_bind_eq_ok_iff, rejectIf_eq_ok_iff] at h
  obtain ⟨-, -, actual, hactual, -, hsame, -⟩ := h
  obtain rfl : actual = identity := by simpa using hsame
  have hall := inspected_of_inspectExecutable hnormal hactual
  exact ⟨hall.trusted, hall.unchanged⟩

/-- An accepted path is trusted. Its identity is verified in the same file system, and in any other
one only if the path is trusted there as well and leads to the same file. -/
theorem executable_trusted (hF : Documented F)
    (h : inspectExecutable F value ownership pin = .ok identity) :
    Trusted F value ownership pin ∧
      (identity.canonicalPath.utf8ByteSize ≤ 1024 →
        verifyExecutable F identity ownership = .ok identity.canonicalPath) ∧
      ∀ (later : FileSystem) policy path, verifyExecutable later identity policy = .ok path →
        Trusted later identity.canonicalPath policy pin ∧ Unchanged later identity := by
  have hnormal := hF.canonical _ _ (inspectExecutable_spec h).1
  have hall := inspected_of_inspectExecutable hnormal h
  refine ⟨hall.trusted, verifyExecutable_same hF h, ?_⟩
  intro later policy path hverified
  rw [← hall.pinned]
  exact trusted_of_verifyExecutable hnormal hverified

end

/-! ## An empty program -/

/-- The hash of no content. -/
def emptyHash : String := "e3b0c44298fc1c149afbf4c8996fb92427ae41e4649b934ca495991b7852b855"

/-- The metadata of an executable. -/
def toolMetadata : Metadata := ⟨true, false, false, 0o755, 0, 1, 11, 0, 1700000000, 5⟩

/-- The metadata of a directory above it. -/
def folderMetadata : Metadata := ⟨false, true, false, 0o755, 0, 1, 2, 4096, 1600000000, 0⟩

/-- A file system with one executable in it. -/
def toolAt (path : String) : Option Metadata :=
  if path = "/opt/tool" then some toolMetadata
  else if path = "/" ∨ path = "/opt" then some folderMetadata
  else none

/-- The only file is `/opt/tool`, which is empty. -/
def toolFiles : FileSystem where
  symlinkMetadata := toolAt
  metadata := toolAt
  canonicalize path := if components path = components "/opt/tool" then some "/opt/tool" else none
  contents path := if path = "/opt/tool" then some [] else none
  digest _ := emptyHash
  currentUid := some 1000

theorem toolFiles_documented : Documented toolFiles where
  canonical path canonical h := by
    simp only [toolFiles] at h
    split at h
    · cases h
      decide
    · cases h
  idempotent path canonical h := by
    simp only [toolFiles] at h ⊢
    split at h
    · cases h
      exact if_pos rfl
    · cases h
  nanoseconds path metadata h := by
    change toolAt path = some metadata at h
    unfold toolAt at h
    split at h
    · cases h
      decide
    · split at h
      · cases h
        decide
      · cases h

/-- What the inspection of it finds. -/
def toolIdentity : ExecutableIdentity :=
  ⟨"/opt/tool", 1, 11, 0, 0, 1700000000, 5, some emptyHash⟩

theorem executable_trusted_tool : Trusted toolFiles "/opt//tool" .rootOnly (some emptyHash) ∧
    verifyExecutable toolFiles toolIdentity .rootOnly = .ok "/opt/tool" ∧
    Unchanged toolFiles toolIdentity := by
  have hinspected : inspectExecutable toolFiles "/opt//tool" .rootOnly (some emptyHash) =
      .ok toolIdentity := by decide
  have hverified : verifyExecutable toolFiles toolIdentity .rootOnly = .ok "/opt/tool" := by decide
  have hall := executable_trusted toolFiles_documented hinspected
  exact ⟨hall.1, hall.2.1 (by decide), (hall.2.2 toolFiles .rootOnly "/opt/tool" hverified).2⟩

end Halquen.Capabilities.TrustedPath
