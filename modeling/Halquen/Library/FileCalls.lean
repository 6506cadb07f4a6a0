import Halquen.Library.FileTree
import Halquen.Library.Listing
import Halquen.Library.RelyGuarantee

/-!
# System calls on files

The calls with which the programs of a user look at a file tree and change it, each of them one
step. They work with three places (`Place`): a root directory, a directory that it names, and a file
that this one names. What the system decides is left open (`Chance`): whether a call fails, where a
symbolic link leads, and the inode and the mode of a new file.

The rules say what a call establishes that neither strangers nor other programs of the user at the
same site take away again (`Keeps`). The root directory is taken to stay where it is.
-/

set_option autoImplicit false

namespace Halquen.Library.FileCalls

open Halquen.Library.FileTree Halquen.Library.Listing Halquen.Library.RelyGuarantee
open Halquen.Library.Run

/-- The kinds of errors that programs tell apart. -/
inductive IoError where
  | notFound | other
  deriving DecidableEq

/-- The three paths that the program names: the root, the directory and the file in it. -/
inductive Place where
  | root | dir | file
  deriving DecidableEq

/-- What the program cannot know of one call. -/
structure Chance where
  fails : Bool
  fresh : Inode
  mode : UInt32
  leads : Inode → Inode

/-- A tree, with the files that the programs made at the file place and those that they removed. -/
structure World where
  tree : Tree
  closed : Closed tree
  made : List Inode
  removed : List Node

/-- A world in which nothing has been done. -/
def World.new (files : {tree : Tree // Closed tree}) : World := ⟨files.1, files.2, [], []⟩

/-- Another process acts. -/
def World.meddle (v : Uid) (op : Meddling) (w : World) : World :=
  { w with tree := FileTree.meddle v w.tree op, closed := w.closed.meddle v op }

/-- The mode of a file changes. -/
def World.chmod (i : Inode) (mode : UInt32) (w : World) : World :=
  { w with tree := setMode i mode w.tree, closed := w.closed.setMode i mode }

/-- A file is created and entered in a directory. -/
def World.create (d : Inode) (name : String) (i : Inode) (kind : Kind) (owner : Uid)
    (mode : UInt32) (w : World) : World :=
  { w with
    tree := setEntry d name (some i) (addNode i (newNode kind owner mode) w.tree)
    closed := w.closed.create d name i kind owner mode }

/-- A file is created without a name. -/
def World.grow (i : Inode) (kind : Kind) (owner : Uid) (mode : UInt32) (w : World) : World :=
  { w with
    tree := addNode i (newNode kind owner mode) w.tree
    closed := w.closed.addNode i kind owner mode }

/-- A name is removed from a directory. -/
def World.unlink (d : Inode) (name : String) (w : World) : World :=
  { w with tree := setEntry d name none w.tree, closed := w.closed.unlink d name }

/-- What a look at a file tells. -/
structure Metadata where
  kind : Kind
  uid : Uid
  mode : UInt32
  deriving DecidableEq

/-- The metadata of a node. -/
def Metadata.of (node : Node) : Metadata := ⟨node.kind, node.owner, node.mode⟩

/-- The node is a link. -/
def Metadata.isSymlink (metadata : Metadata) : Bool := metadata.kind == .symlink

/-- The node is a directory. -/
def Metadata.isDir (metadata : Metadata) : Bool := metadata.kind == .directory

/-- The node is a socket. -/
def Metadata.isSocket (metadata : Metadata) : Bool := metadata.kind == .socket

/-- The node is a file. -/
def Metadata.isFile (metadata : Metadata) : Bool := metadata.kind == .regular

/-! ## The calls -/

/-- The node of a name in a directory. -/
def lookup (t : Tree) (d : Inode) (name : String) : Except IoError Inode :=
  match t d with
  | none => .error .notFound
  | some node =>
      if node.kind = .directory then orError .notFound (node.entries name) else .error .other

/-- A link leads wherever it may. -/
def follow (c : Chance) (t : Tree) (i : Inode) : Inode :=
  if (t i).any fun node => node.kind == .symlink then c.leads i else i

/-- A call that fails, and one that does not by chance. -/
def fallible {α : Type} (act : Chance → World → Except IoError α × World) :
    Prog World Chance (Except IoError α) :=
  call fun c w => if c.fails then (.error .other, w) else act c w

section

variable (u : Uid) (root : Inode) (site : Site)

/-- The directory of the file place. -/
def fileDir (c : Chance) (t : Tree) : Except IoError Inode :=
  (lookup t root site.dirName).map (follow c t)

/-- The node that a path leads to, without following its last part. -/
def locate (c : Chance) (t : Tree) : Place → Except IoError Inode
  | .root => .ok root
  | .dir => lookup t root site.dirName
  | .file => do lookup t (← fileDir root site c t) site.fileName

/-- A call that only reads. -/
def reading {α : Type} (f : Chance → Tree → Except IoError α) :
    Prog World Chance (Except IoError α) := fallible fun c w => (f c w.tree, w)

/-- The metadata of the node that a path leads to. -/
def stat (c : Chance) (t : Tree) (place : Place) : Except IoError Metadata := do
  let i ← locate root site c t place
  orError .notFound ((t i).map .of)

/-- `fs::symlink_metadata`. -/
def symlinkMetadata (place : Place) : Prog World Chance (Except IoError Metadata) :=
  reading fun c t => stat root site c t place

/-- Symbolic links are followed, and only the owner may change the mode. -/
def setPermissions (place : Place) (mode : UInt32) : Prog World Chance (Except IoError Unit) :=
  fallible fun c w =>
    match (locate root site c w.tree place).map (follow c w.tree) with
    | .error e => (.error e, w)
    | .ok i =>
        if (w.tree i).any fun node => node.owner == u then
          (.ok (), w.chmod i mode)
        else (.error .other, w)

/-- A new file, where there is none. -/
def create (kind : Kind) (d : Inode) (name : String) (c : Chance) (w : World) :
    Except IoError Inode × World :=
  if (w.tree d).any (fun node => node.kind == .directory) && (entry w.tree d name).isNone
      && (w.tree c.fresh).isNone then
    (.ok c.fresh, w.create d name c.fresh kind u c.mode)
  else (.error .other, w)

/-- `fs::create_dir`. -/
def createDir : Prog World Chance (Except IoError Inode) :=
  fallible (create u .directory root site.dirName)

/-- The root directory is created where it is missing. -/
def createRoot : Prog World Chance (Except IoError Unit) :=
  fallible fun c w =>
    match w.tree root with
    | some node => (if node.kind = .directory then .ok () else .error .other, w)
    | none => (.ok (), w.grow root .directory u c.mode)

/-- Creates a file, unless its name is taken. -/
def make (c : Chance) (w : World) : Except IoError Inode × World :=
  match fileDir root site c w.tree with
  | .error e => (.error e, w)
  | .ok d =>
      match create u site.kind d site.fileName c w with
      | (.error e, w) => (.error e, w)
      | (.ok i, w) => (.ok i, { w with made := w.made ++ [i] })

/-- A new file at the file place. -/
def makeFile : Prog World Chance (Except IoError Inode) := fallible (make u root site)

/-- The file at the file place and its directory. -/
def fileAt (c : Chance) (t : Tree) : Except IoError (Inode × Node) := do
  let d ← fileDir root site c t
  let i ← lookup t d site.fileName
  let node ← orError .notFound (t i)
  return (d, node)

/-- `fs::remove_file`. -/
def removeFile : Prog World Chance (Except IoError Unit) :=
  fallible fun c w =>
    match fileAt root site c w.tree with
    | .error e => (.error e, w)
    | .ok (d, node) => if node.kind = .directory then (.error .other, w)
        else (.ok (), { w.unlink d site.fileName with removed := w.removed ++ [node] })

/-- A file of the system with a fixed content is read, and this is made of it. -/
def readFile {α ε : Type} (failed : ε) (content : Except ε α) : ExceptT ε (Prog World Chance) α :=
  ExceptT.mk (call fun c w => (if c.fails then .error failed else content, w))

/-- A file, if its kind is that of the site. -/
def ofKind (c : Chance) (t : Tree) (i : Inode) : Except IoError Inode :=
  if (t (follow c t i)).any fun node => node.kind == site.kind then .ok (follow c t i)
  else .error .other

/-- The file at the file place. -/
def openFile : Prog World Chance (Except IoError Inode) :=
  reading fun c t => do ofKind site c t (← locate root site c t .file)

/-- The file at the file place, which is created where it is missing. -/
def openOrMake : Prog World Chance (Except IoError Inode) :=
  fallible fun c w =>
    match locate root site c w.tree .file with
    | .ok i => (ofKind site c w.tree i, w)
    | .error .notFound => make u root site c w
    | .error .other => (.error .other, w)

end

/-! ## What the programs and the strangers keep -/

/-- Files that are made are hidden, and what is removed is a file of the user, of this kind. -/
structure Keeps (u : Uid) (site : Site) (w w' : World) : Prop where
  tree : Evolves u site w.tree w'.tree
  made : ∀ i ∈ w'.made, i ∈ w.made ∨ Hidden u w'.tree i
  removed : ∀ node ∈ w'.removed, node ∈ w.removed ∨ (node.kind = site.kind ∧ node.owner = u)

variable {u v : Uid} {root : Inode} {site : Site} {w w' : World}

instance Keeps.isPreorder (u : Uid) (site : Site) : IsPreorder World (Keeps u site) where
  refl w := ⟨refl_of (Evolves u site) w.tree, fun _ h => .inl h, fun _ h => .inl h⟩
  trans _ _ _ h h' := {
    tree := trans_of (Evolves u site) h.tree h'.tree
    made := by
      intro i hi
      rcases h'.made i hi with hi | hhidden
      · rcases h.made i hi with hi | hhidden
        · exact .inl hi
        · exact .inr (h'.tree.hidden i hhidden)
      · exact .inr hhidden
    removed := by
      intro node hnode
      rcases h'.removed node hnode with hnode | hown
      · exact h.removed node hnode
      · exact .inr hown }

/-- A world in which nothing was made or removed is related by its tree. -/
theorem keeps_of_tree (h : Evolves u site w.tree w'.tree) (hmade : w'.made = w.made)
    (hremoved : w'.removed = w.removed) : Keeps u site w w' :=
  ⟨h, fun _ hi => .inl (hmade ▸ hi), fun _ hnode => .inl (hremoved ▸ hnode)⟩

/-- What others do keeps the relation. -/
theorem keeps_meddle (hv : v ≠ u) (op : Meddling) (w : World) : Keeps u site w (w.meddle v op) :=
  keeps_of_tree (meddle_evolves hv op) rfl rfl

/-! ## Assertions -/

section

variable (u : Uid) (root : Inode) (site : Site) (a : Inode) (w : World)

/-- Nobody else can write to the root directory, which names the directory. -/
def Named : Prop := Held u w.tree root ∧ entry w.tree root site.dirName = some a

/-- The directory is its owner's alone as well. -/
def Guarded : Prop := Named u root site a w ∧ Sealed u w.tree a

/-- What it names as the file of the site is a file of the user, of this kind. -/
def Ready : Prop := Guarded u root site a w ∧ Tidy u w.tree site.fileName site.kind a

end

variable {a : Inode}

theorem stable_held : Stable (Keeps u site) fun w => Held u w.tree root :=
  fun _ _ h hheld => Held.lasting hheld h.tree.lasting

theorem stable_sealed : Stable (Keeps u site) fun w => Sealed u w.tree root :=
  fun _ _ h hsealed => Sealed.lasting hsealed h.tree.lasting

/-- A directory that cannot be renamed by others stays where it is. -/
theorem stable_named : Stable (Keeps u site) (Named u root site a) := by
  rintro w w' h ⟨hheld, hentry⟩
  exact ⟨Held.lasting hheld h.tree.lasting, h.tree.directory root a hheld hentry⟩

/-- A guarded directory stays guarded. -/
theorem stable_guarded : Stable (Keeps u site) (Guarded u root site a) := by
  rintro w w' h ⟨hnamed, hsealed⟩
  exact ⟨stable_named w w' h hnamed, Sealed.lasting hsealed h.tree.lasting⟩

/-- A place that is ready stays ready. -/
theorem stable_ready : Stable (Keeps u site) (Ready u root site a) := by
  rintro w w' h ⟨hguarded, htidy⟩
  exact ⟨stable_guarded w w' h hguarded, h.tree.tidy a hguarded.2 htidy⟩

/-! ## Looking up -/

variable {t : Tree} {c : Chance} {d i : Inode} {name : String}

/-- A lookup succeeds if there is an entry. -/
theorem lookup_eq_ok_iff : lookup t d name = .ok i ↔ entry t d name = some i := by
  unfold lookup entry
  cases t d with
  | none => simp
  | some node =>
      rw [Option.bind_some]
      dsimp only
      split
      · rw [orError_eq_ok_iff]
      · simp

/-- What is not a link is followed to itself. -/
theorem follow_eq_self {node : Node} (hnode : t i = some node) (hkind : node.kind ≠ .symlink) :
    follow c t i = i := by
  unfold follow
  rw [hnode, Option.any_some, if_neg]
  rw [beq_iff_eq]
  exact hkind

/-- The path of a guarded directory leads to it. -/
theorem Guarded.lookup_dir (h : Guarded u root site a w) :
    lookup w.tree root site.dirName = .ok a := lookup_eq_ok_iff.mpr h.1.2

theorem Guarded.follow (h : Guarded u root site a w) : follow c w.tree a = a := by
  obtain ⟨-, node, hnode, hkind, -⟩ := h
  apply follow_eq_self hnode
  rw [hkind]
  decide

theorem Guarded.fileDir (h : Guarded u root site a w) : fileDir root site c w.tree = .ok a := by
  unfold FileCalls.fileDir
  rw [h.lookup_dir]
  exact congrArg Except.ok h.follow

/-- A file in it is found by its name alone. -/
theorem Guarded.locate_file (h : Guarded u root site a w) :
    locate root site c w.tree .file = lookup w.tree a site.fileName := by
  change (FileCalls.fileDir root site c w.tree).bind _ = _
  rw [h.fileDir]
  rfl

/-- The metadata are those of the node that is found. -/
theorem stat_eq_ok_iff {place : Place} {metadata : Metadata} :
    stat root site c t place = .ok metadata ↔
      ∃ i, locate root site c t place = .ok i ∧ ∃ node, t i = some node ∧ .of node = metadata := by
  unfold stat
  simp only [except_bind_eq_ok_iff, orError_eq_ok_iff, Option.map_eq_some_iff]

/-! ## Rules -/

variable {α : Type}

/-- A call under an assertion that the others do not break, which also holds if the call fails. -/
theorem correct_fallible {P : World → Prop} {Q : Except IoError α → World → Prop}
    {act : Chance → World → Except IoError α × World} (hP : Stable (Keeps u site) P)
    (hQ : ∀ r, Stable (Keeps u site) (Q r)) (hfails : ∀ w, P w → Q (.error .other) w)
    (hact : ∀ c w, P w → Keeps u site w (act c w).2 ∧ Q (act c w).1 (act c w).2) (h : P w) :
    Correct (Keeps u site) (Keeps u site) Q (fallible act) w := by
  refine correct_call hP hQ h fun w hw c => ?_
  split
  · exact ⟨refl_of (Keeps u site) w, hfails w hw⟩
  · exact hact c w hw

/-- A call that only reads is judged in every state in which it may happen. -/
theorem correct_reading {P : World → Prop} {Q : Except IoError α → World → Prop}
    {f : Chance → Tree → Except IoError α} (hP : Stable (Keeps u site) P)
    (hQ : ∀ r, Stable (Keeps u site) (Q r)) (hfails : ∀ w, P w → Q (.error .other) w)
    (hf : ∀ c w, P w → Q (f c w.tree) w) (h : P w) :
    Correct (Keeps u site) (Keeps u site) Q (reading f) w :=
  correct_fallible hP hQ hfails (fun c w hw => ⟨refl_of (Keeps u site) w, hf c w hw⟩) h

/-- What no one breaks holds after a call that only reads. -/
theorem correct_reading_keeps {P : World → Prop} {f : Chance → Tree → Except IoError α}
    (hP : Stable (Keeps u site) P) (h : P w) :
    Correct (Keeps u site) (Keeps u site) (fun _ => P) (reading f) w :=
  correct_reading hP (fun _ => hP) (fun _ hw => hw) (fun _ _ hw => hw) h

/-- A file of the system reads the same at all times. -/
theorem succeeds_readFile {P : World → Prop} {ε : Type} {failed : ε} {content : Except ε α}
    (hP : Stable (Keeps u site) P) (h : P w) :
    Succeeds (Keeps u site) (Keeps u site) (fun value w => content = .ok value ∧ P w)
      (readFile failed content) w := by
  refine correct_call (P := P) hP (fun r w w' h hr value heq => ?_) h fun w hw c => ?_
  · exact ⟨(hr value heq).1, hP w w' h (hr value heq).2⟩
  · refine ⟨refl_of (Keeps u site) w, fun value heq => ⟨?_, hw⟩⟩
    dsimp only at heq
    split at heq
    · cases heq
    · exact heq

/-- A private directory of the user. -/
def Metadata.Private (u : Uid) (metadata : Metadata) : Prop :=
  metadata.kind = .directory ∧ metadata.uid = u ∧ metadata.mode &&& 0o077 = 0

/-- The metadata tell that a directory is closed to others. -/
theorem sealed_of_private {node : Node} (hnode : t i = some node)
    (h : (Metadata.of node).Private u) : Sealed u t i := ⟨node, hnode, h⟩

/-- After a look at the root it is known to be closed. -/
theorem correct_stat_root :
    Correct (Keeps u site) (Keeps u site)
      (fun r w => ∀ metadata, r = .ok metadata → metadata.Private u → Sealed u w.tree root)
      (symlinkMetadata root site .root) w := by
  refine correct_reading (P := fun _ => True) (fun _ _ _ _ => trivial)
    (fun r w w' h hr metadata heq hprivate => stable_sealed w w' h (hr metadata heq hprivate))
    (fun _ _ metadata heq => by cases heq) (fun c w _ metadata heq hprivate => ?_) trivial
  obtain ⟨i, hi, node, hnode, rfl⟩ := stat_eq_ok_iff.mp heq
  cases hi
  exact sealed_of_private hnode hprivate

/-- After a look at the directory it is known to be guarded. -/
theorem correct_stat_dir (h : Held u w.tree root) :
    Correct (Keeps u site) (Keeps u site)
      (fun r w => Held u w.tree root ∧ ∀ metadata, r = .ok metadata → metadata.Private u →
        ∃ a, Guarded u root site a w)
      (symlinkMetadata root site .dir) w := by
  refine correct_reading (P := fun w => Held u w.tree root) stable_held
    (fun r w w' h hr => ⟨stable_held w w' h hr.1, fun metadata heq hprivate => ?_⟩)
    (fun w hw => ⟨hw, fun metadata heq => by cases heq⟩)
    (fun c w hw => ⟨hw, fun metadata heq hprivate => ?_⟩) h
  · obtain ⟨a, ha⟩ := hr.2 metadata heq hprivate
    exact ⟨a, stable_guarded w w' h ha⟩
  · obtain ⟨i, hi, node, hnode, rfl⟩ := stat_eq_ok_iff.mp heq
    exact ⟨i, ⟨hw, lookup_eq_ok_iff.mp hi⟩, sealed_of_private hnode hprivate⟩

/-- What is found at the file place, or that nothing is, makes the directory ready. -/
theorem correct_stat_file (h : Guarded u root site a w) :
    Correct (Keeps u site) (Keeps u site)
      (fun r w => Guarded u root site a w ∧
        (∀ metadata, r = .ok metadata → metadata.kind = site.kind → metadata.uid = u →
          Ready u root site a w) ∧
        (r = .error .notFound → Ready u root site a w))
      (symlinkMetadata root site .file) w := by
  refine correct_reading stable_guarded (fun r w w' h hr => ?_)
    (fun w hw => ⟨hw, fun _ heq => ?_, fun heq => ?_⟩)
    (fun c w hw => ⟨hw, fun metadata heq hkind hown => ⟨hw, fun j hj => ?_⟩,
      fun heq => ⟨hw, fun j hj => ?_⟩⟩) h
  · exact ⟨stable_guarded w w' h hr.1,
      fun metadata heq hkind hown => stable_ready w w' h (hr.2.1 metadata heq hkind hown),
      fun heq => stable_ready w w' h (hr.2.2 heq)⟩
  · cases heq
  · cases heq
  · obtain ⟨i, hi, node, hnode, rfl⟩ := stat_eq_ok_iff.mp heq
    rw [hw.locate_file, lookup_eq_ok_iff, hj] at hi
    cases hi
    exact ⟨node, hnode, hkind, hown⟩
  · -- An entry leads to a file, and then the call finds it.
    obtain ⟨node, hnode⟩ := Option.isSome_iff_exists.mp (w.closed a site.fileName j hj)
    have hfound : stat root site c w.tree .file = .ok (.of node) :=
      stat_eq_ok_iff.mpr ⟨j, hw.locate_file.trans (lookup_eq_ok_iff.mpr hj), node, hnode, rfl⟩
    rw [hfound] at heq
    cases heq

/-- A mode that grants others nothing may be set anywhere. -/
theorem correct_setPermissions {P : World → Prop} {place : Place} {mode : UInt32}
    (hP : Stable (Keeps u site) P) (hmode : mode &&& 0o077 = 0) (h : P w) :
    Correct (Keeps u site) (Keeps u site) (fun _ => P)
      (setPermissions u root site place mode) w := by
  refine correct_fallible hP (fun _ => hP) (fun _ hw => hw) (fun c w hw => ?_) h
  have hkeeps : ∀ i, Keeps u site w (w.chmod i mode) := fun i =>
    keeps_of_tree (evolves_setMode fun _ _ _ => hmode) rfl rfl
  have hsame : Keeps u site w w := refl_of (Keeps u site) w
  cases (locate root site c w.tree place).map (follow c w.tree) with
  | error e => exact ⟨hsame, hw⟩
  | ok i =>
      dsimp only
      split
      · exact ⟨hkeeps i, hP w _ (hkeeps i) hw⟩
      · exact ⟨hsame, hw⟩

/-- What a creation amounts to. -/
theorem create_cases {kind : Kind} :
    ((∃ e, (create u kind d name c w).1 = .error e) ∧ (create u kind d name c w).2 = w) ∨
      (entry w.tree d name = none ∧ w.tree c.fresh = none ∧
        create u kind d name c w = (.ok c.fresh, w.create d name c.fresh kind u c.mode)) := by
  unfold create
  split
  · next hcond =>
      simp only [Bool.and_eq_true, Option.isNone_iff_eq_none] at hcond
      exact .inr ⟨hcond.1.2, hcond.2, rfl⟩
  · exact .inl ⟨⟨_, rfl⟩, rfl⟩

/-- Making the directory may fail, and disturbs nothing. -/
theorem correct_createDir {P : World → Prop} (hP : Stable (Keeps u site) P) (h : P w) :
    Correct (Keeps u site) (Keeps u site) (fun _ => P) (createDir u root site) w := by
  refine correct_fallible hP (fun _ => hP) (fun _ hw => hw) (fun c w hw => ?_) h
  rcases create_cases (c := c) with ⟨-, hsame⟩ | ⟨hentry, hfresh, heq⟩
  · rw [hsame]
    exact ⟨refl_of (Keeps u site) w, hw⟩
  · rw [heq]
    have hkeeps : Keeps u site w (w.create root site.dirName c.fresh .directory u c.mode) :=
      keeps_of_tree (evolves_create hfresh (fun _ => rfl) (fun _ _ => hentry)
        fun _ hname => absurd hname site.distinct) rfl rfl
    exact ⟨hkeeps, hP w _ hkeeps hw⟩

/-- A file that is made in a guarded directory is hidden. -/
theorem hidden_create (d : Inode) (name : String) (kind : Kind) (mode : UInt32)
    (hfresh : w.tree i = none)
    (hsealed : Sealed u (w.create d name i kind u mode).tree d) :
    Hidden u (w.create d name i kind u mode).tree i := by
  refine ⟨?_, fun d' name' hentry => ?_⟩
  · have hnode : addNode i (newNode kind u mode) w.tree i = some (newNode kind u mode) :=
      Function.update_self ..
    obtain ⟨node, hnode', -, howner, -⟩ := node_setEntry d name (some i) hnode
    exact ⟨node, hnode', howner⟩
  · rcases entry_setEntry_cases hentry with hold | ⟨rfl, -, -⟩
    · rw [entry_addNode hfresh fun _ => rfl] at hold
      have hsome := w.closed d' name' i hold
      rw [hfresh] at hsome
      cases hsome
    · exact hsealed

/-- A file that is made in a guarded directory is the user's own. -/
theorem keeps_make (h : Ready u root site a w) :
    Keeps u site w (make u root site c w).2 ∧
      ∀ i, (make u root site c w).1 = .ok i →
        OwnFile u (make u root site c w).2.tree site.kind i := by
  unfold make
  rw [h.1.fileDir]
  dsimp only
  rcases create_cases (c := c) with ⟨⟨e, herror⟩, hsame⟩ | ⟨hentry, hfresh, heq⟩
  · rw [show create u site.kind a site.fileName c w = (.error e, w) from Prod.ext herror hsame]
    exact ⟨refl_of (Keeps u site) w, fun i hi => by cases hi⟩
  · rw [heq]
    have htree : Evolves u site w.tree
        (w.create a site.fileName c.fresh site.kind u c.mode).tree :=
      evolves_create hfresh (fun _ => rfl) (fun _ hname => absurd hname.symm site.distinct)
        fun _ _ => ⟨rfl, rfl⟩
    have hhidden := hidden_create a site.fileName site.kind c.mode hfresh
      (Sealed.lasting h.1.2 htree.lasting)
    refine ⟨⟨htree, fun j hj => ?_, fun node hnode => .inl hnode⟩, fun i hi => ?_⟩
    · rcases List.mem_append.mp hj with hj | hj
      · exact .inl hj
      · rw [List.mem_singleton.mp hj]
        exact .inr hhidden
    · cases hi
      obtain ⟨node, hnode, hkind, howner, -⟩ := node_setEntry a site.fileName (some c.fresh)
        (show addNode c.fresh (newNode site.kind u c.mode) w.tree c.fresh = _ from
          Function.update_self ..)
      exact ⟨node, hnode, hkind, howner⟩

/-- Making the file leaves the place ready. -/
theorem correct_makeFile (h : Ready u root site a w) :
    Correct (Keeps u site) (Keeps u site) (fun _ => Ready u root site a)
      (makeFile u root site) w := by
  refine correct_fallible stable_ready (fun _ => stable_ready) (fun _ hw => hw)
    (fun c w hw => ?_) h
  have hkeeps := (keeps_make (c := c) hw).1
  exact ⟨hkeeps, stable_ready w _ hkeeps hw⟩

/-- So does removing it. -/
theorem correct_removeFile (h : Ready u root site a w) :
    Correct (Keeps u site) (Keeps u site) (fun _ => Ready u root site a)
      (removeFile root site) w := by
  refine correct_fallible stable_ready (fun _ => stable_ready) (fun _ hw => hw)
    (fun c w hw => ?_) h
  have hsame : Keeps u site w w := refl_of (Keeps u site) w
  cases hfound : fileAt root site c w.tree with
  | error e => exact ⟨hsame, hw⟩
  | ok found =>
      simp only [fileAt, hw.1.fileDir, except_bind_eq_ok_iff, orError_eq_ok_iff] at hfound
      obtain ⟨d, hd, i, hi, node, hnode, hfound⟩ := hfound
      cases hd
      cases hfound
      dsimp only
      split
      · exact ⟨hsame, hw⟩
      · obtain ⟨node', hnode', hkind, howner⟩ := hw.2 i (lookup_eq_ok_iff.mp hi)
        rw [hnode] at hnode'
        cases hnode'
        have hkeeps : Keeps u site w { w.unlink a site.fileName with
            removed := w.removed ++ [node] } := by
          refine ⟨evolves_unlink fun _ => site.distinct.symm, fun j hj => .inl hj, ?_⟩
          intro other hother
          rcases List.mem_append.mp hother with hother | hother
          · exact .inl hother
          · rw [List.mem_singleton.mp hother]
            exact .inr ⟨hkind, howner⟩
        exact ⟨hkeeps, stable_ready w _ hkeeps hw⟩

/-- What is found under the name is the user's own. -/
theorem Ready.ofKind (h : Ready u root site a w)
    (hi : locate root site c w.tree .file = .ok i) {j : Inode}
    (hj : FileCalls.ofKind site c w.tree i = .ok j) : OwnFile u w.tree site.kind j := by
  rw [h.1.locate_file, lookup_eq_ok_iff] at hi
  obtain ⟨node, hnode, hkind, howner⟩ := h.2 i hi
  unfold FileCalls.ofKind at hj
  rw [follow_eq_self hnode (hkind ▸ site.solid)] at hj
  split at hj
  · cases hj
    exact ⟨node, hnode, hkind, howner⟩
  · cases hj

/-- What is opened is a file of the user, of this kind. -/
theorem correct_openFile (h : Ready u root site a w) :
    Correct (Keeps u site) (Keeps u site)
      (fun r w => ∀ i, r = .ok i → OwnFile u w.tree site.kind i) (openFile root site) w := by
  refine correct_reading stable_ready
    (fun r w w' h hr i heq => OwnFile.lasting (hr i heq) h.tree.lasting)
    (fun w _ i heq => by cases heq) (fun c w hw i heq => ?_) h
  obtain ⟨j, hj, hi⟩ := except_bind_eq_ok_iff.mp heq
  exact hw.ofKind hj hi

/-- Opening or making the file ends with a file of the user. -/
theorem correct_openOrMake (h : Ready u root site a w) :
    Correct (Keeps u site) (Keeps u site)
      (fun r w => Ready u root site a w ∧ ∀ i, r = .ok i → OwnFile u w.tree site.kind i)
      (openOrMake u root site) w := by
  refine correct_fallible stable_ready (fun r w w' h hr => ⟨stable_ready w w' h hr.1,
    fun i heq => OwnFile.lasting (hr.2 i heq) h.tree.lasting⟩)
    (fun w hw => ⟨hw, fun i heq => by cases heq⟩) (fun c w hw => ?_) h
  have hsame : Keeps u site w w := refl_of (Keeps u site) w
  cases hfound : locate root site c w.tree .file with
  | ok i => exact ⟨hsame, hw, fun j hj => hw.ofKind hfound hj⟩
  | error e =>
      cases e with
      | notFound =>
          obtain ⟨hkeeps, hown⟩ := keeps_make (c := c) hw
          exact ⟨hkeeps, stable_ready w _ hkeeps hw, hown⟩
      | other => exact ⟨hsame, hw, fun i heq => by cases heq⟩

/-- A root directory that is held is there. -/
theorem correct_createRoot (h : Held u w.tree root) :
    Correct (Keeps u site) (Keeps u site) (fun _ w => Held u w.tree root)
      (createRoot u root) w := by
  refine correct_fallible stable_held (fun _ => stable_held) (fun _ hw => hw)
    (fun c w hw => ?_) h
  obtain ⟨node, hnode, hrest⟩ := hw
  rw [hnode]
  exact ⟨refl_of (Keeps u site) w, node, hnode, hrest⟩

/-! ## Processes -/

abbrev Stranger (u : Uid) := {v : Uid // v ≠ u}

/-- What another user does between two calls. -/
def strangers (u : Uid) (e : Stranger u × Meddling) (w : World) : World := w.meddle e.1 e.2

section

variable {ι ε : Type} (files : {tree : Tree // Closed tree})
  (programs : ι → ExceptT ε (Prog World Chance) α)

/-- Processes that have not begun. -/
def launch : Shared ι World Chance (Except ε α) := ⟨World.new files, fun k => (programs k).run⟩

variable {files programs} {Q : α → World → Prop}

/-- A process relies on what the others do, and on what strangers do. -/
theorem launch_correct [DecidableEq ι]
    (h : ∀ k, Succeeds (Keeps u site) (Keeps u site) Q (programs k) (World.new files))
    (moves : List (Move ι Chance (Stranger u × Meddling))) :
    AllCorrect (fun _ => Keeps u site) (fun _ => Keeps u site)
        (fun _ result w => ∀ a, result = .ok a → Q a w)
        (run (move (strangers u)) (launch files programs) moves) ∧
      Keeps u site (World.new files)
        (run (move (strangers u)) (launch files programs) moves).state := by
  have hstarted : AllCorrect (fun _ => Keeps u site) (fun _ => Keeps u site)
      (fun _ result w => ∀ a, result = .ok a → Q a w) (launch files programs) := h
  have hothers : ∀ k l : ι, k ≠ l → ∀ w w', Keeps u site w w' → Keeps u site w w' :=
    fun _ _ _ _ _ hkeeps => hkeeps
  have hinterfere : ∀ (k : ι) e w, Keeps u site w (strangers u e w) :=
    fun _ e w => keeps_meddle e.1.2 e.2 w
  refine ⟨parallel_correct (strangers u) hothers hinterfere hstarted moves, ?_⟩
  exact parallel_invariant (strangers u) hothers hinterfere
    (fun _ _ _ hkeeps hI => trans_of (Keeps u site) hI hkeeps)
    (fun e w hI => trans_of (Keeps u site) hI (keeps_meddle e.1.2 e.2 w))
    hstarted (refl_of (Keeps u site) (World.new files)) moves

variable [DecidableEq ι]
  (h : ∀ k, Succeeds (Keeps u site) (Keeps u site) Q (programs k) (World.new files))
  (moves : List (Move ι Chance (Stranger u × Meddling)))

include h

/-- A process that has ended regularly has its postcondition. -/
theorem launch_ended {k : ι} {b : α}
    (hdone : (run (move (strangers u)) (launch files programs) moves).programs k =
      .done (.ok b)) : Q b (run (move (strangers u)) (launch files programs) moves).state :=
  (launch_correct h moves).1.ended hdone b rfl

/-- No stranger gets hold of a file that a process has made. -/
theorem launch_unreached (hv : v ≠ u)
    (hi : i ∈ (run (move (strangers u)) (launch files programs) moves).state.made) :
    ¬ MayReach v (run (move (strangers u)) (launch files programs) moves).state.tree i := by
  rcases (launch_correct h moves).2.made i hi with hnone | hhidden
  · cases hnone
  · exact hhidden.not_mayReach hv

/-- Whatever a process has removed was a file of the user, of this kind. -/
theorem launch_removed {node : Node}
    (hnode : node ∈ (run (move (strangers u)) (launch files programs) moves).state.removed) :
    node.kind = site.kind ∧ node.owner = u := by
  rcases (launch_correct h moves).2.removed node hnode with hnone | hown
  · cases hnone
  · exact hown

end

end Halquen.Library.FileCalls
