import Mathlib.Logic.Function.Basic
import Mathlib.Order.Defs.Unbundled

/-!
# File trees

Files with owners and modes, below directories that name them, and what a stranger may do to them: a
user other than the owner, who is in any group and may hold a handle to any directory, so that only
the mode of a directory itself keeps him from its entries (`meddle`). The superuser is no stranger.

A directory that is its owner's alone (`Sealed`) keeps its entries, and a file that is named in such
directories only stays out of reach (`Hidden`). `Evolves` is what strangers keep of the tree, and a
program of the owner as well that works with one directory name and one file name in it.
-/

set_option autoImplicit false

namespace Halquen.Library.FileTree

abbrev Uid := UInt32

abbrev Inode := Nat

/-- Kinds of nodes. -/
inductive Kind where
  | directory | regular | socket | symlink
  deriving DecidableEq

/-- A node with its owner, its mode and, for a directory, its entries. -/
structure Node where
  kind : Kind
  owner : Uid
  mode : UInt32
  /-- What a directory names. -/
  entries : String → Option Inode

abbrev Tree := Inode → Option Node

/-- The file of this name in the directory. -/
def entry (t : Tree) (d : Inode) (name : String) : Option Inode :=
  (t d).bind fun node => if node.kind = .directory then node.entries name else none

/-- A file without entries. -/
def newNode (kind : Kind) (owner : Uid) (mode : UInt32) : Node := ⟨kind, owner, mode, fun _ => none⟩

/-- Entries lead to files. -/
def Closed (t : Tree) : Prop := ∀ d name i, entry t d name = some i → (t i).isSome

/-- The tree with a node in a new place. -/
def addNode (i : Inode) (node : Node) (t : Tree) : Tree := Function.update t i (some node)

/-- The tree with another mode of one node. -/
def setMode (i : Inode) (mode : UInt32) (t : Tree) : Tree :=
  Function.update t i ((t i).map fun node => { node with mode := mode })

/-- The tree with another entry in one directory. -/
def setEntry (d : Inode) (name : String) (value : Option Inode) (t : Tree) : Tree :=
  Function.update t d ((t d).map fun node =>
    { node with entries := Function.update node.entries name value })

/-! ## Strangers -/

/-- Whoever is in the group of the file has the rights of the group. -/
def mayWrite (v : Uid) (node : Node) : Bool := node.owner == v || node.mode &&& 0o022 != 0

/-- The user may use the names in a directory. -/
def maySearch (v : Uid) (node : Node) : Bool := node.owner == v || node.mode &&& 0o011 != 0

/-- What a user does to a tree. -/
inductive Meddling where
  | create (d : Inode) (name : String) (i : Inode) (kind : Kind) (mode : UInt32)
  | link (d : Inode) (name : String) (source : Inode) (sourceName : String)
  | unlink (d : Inode) (name : String)
  | chmod (i : Inode) (mode : UInt32)

/-- The tree after it, if the user may do it. A file is renamed by a link and an unlink. -/
def meddle (v : Uid) (t : Tree) : Meddling → Tree
  | .create d name i kind mode =>
      if (t d).any (mayWrite v) && (t i).isNone then
        setEntry d name (some i) (addNode i (newNode kind v mode) t)
      else t
  | .link d name source sourceName =>
      if (t d).any (mayWrite v) && (t source).any (maySearch v) then
        (entry t source sourceName).elim t fun i => setEntry d name (some i) t
      else t
  | .unlink d name => if (t d).any (mayWrite v) then setEntry d name none t else t
  | .chmod i mode => if (t i).any (fun node => node.owner == v) then setMode i mode t else t

/-- The user gets hold of the file: it is his, or a directory that he may search names it. -/
def MayReach (v : Uid) (t : Tree) (i : Inode) : Prop :=
  (∃ node, t i = some node ∧ node.owner = v) ∨
    ∃ d name, (t d).any (maySearch v) = true ∧ entry t d name = some i

/-! ## What an owner has -/

section

variable (u : Uid) (t : Tree)

/-- A directory of the user that grants others nothing of these rights. -/
def Withholds (rights : UInt32) (d : Inode) : Prop :=
  ∃ node, t d = some node ∧ node.kind = .directory ∧ node.owner = u ∧ node.mode &&& rights = 0

/-- Nobody else can write to it. -/
abbrev Held (d : Inode) : Prop := Withholds u t 0o022 d

/-- Nobody else has any right. -/
abbrev Sealed (d : Inode) : Prop := Withholds u t 0o077 d

/-- A file of the user, of this kind. -/
def OwnFile (kind : Kind) (i : Inode) : Prop :=
  ∃ node, t i = some node ∧ node.kind = kind ∧ node.owner = u

/-- A file of the user that only sealed directories name. -/
def Hidden (i : Inode) : Prop :=
  (∃ node, t i = some node ∧ node.owner = u) ∧
    ∀ d name, entry t d name = some i → Sealed u t d

/-- What the directory names so is a file of the user, of this kind. -/
def Tidy (fileName : String) (kind : Kind) (d : Inode) : Prop :=
  ∀ i, entry t d fileName = some i → OwnFile u t kind i

end

variable {u v : Uid} {t t' : Tree} {i d : Inode} {name : String}

/-- A mode that is closed to others grants them no single right. -/
theorem and_eq_zero_of_sealed {mode : UInt32} (h : mode &&& 0o077 = 0) (rights : UInt32)
    (hrights : (0o077 : UInt32) &&& rights = rights) : mode &&& rights = 0 := by
  rw [← hrights, ← UInt32.and_assoc, h, UInt32.zero_and]

/-- What is closed to others is not theirs. -/
theorem Sealed.held (h : Sealed u t d) : Held u t d := by
  obtain ⟨node, hnode, hkind, howner, hmode⟩ := h
  exact ⟨node, hnode, hkind, howner, and_eq_zero_of_sealed hmode _ (by decide)⟩

/-- Others cannot write to a directory that is held. -/
theorem not_writable_of_held (hv : v ≠ u) (h : Held u t d) : (t d).any (mayWrite v) = false := by
  obtain ⟨node, hnode, -, howner, hmode⟩ := h
  rw [hnode, Option.any_some, mayWrite, howner, hmode]
  simp [hv.symm]

/-- Nobody else may use the names in a closed directory. -/
theorem not_searchable_of_sealed (hv : v ≠ u) (h : Sealed u t d) :
    (t d).any (maySearch v) = false := by
  obtain ⟨node, hnode, -, howner, hmode⟩ := h
  rw [hnode, Option.any_some, maySearch, howner, and_eq_zero_of_sealed hmode 0o011 (by decide)]
  simp [hv.symm]

/-- What lies in a closed directory cannot be reached by others. -/
theorem Hidden.not_mayReach (h : Hidden u t i) (hv : v ≠ u) : ¬ MayReach v t i := by
  rintro (⟨node, hnode, howner⟩ | ⟨d, name, hsearch, hentry⟩)
  · obtain ⟨node', hnode', howner'⟩ := h.1
    rw [hnode] at hnode'
    cases hnode'
    exact hv (howner.symm.trans howner')
  · rw [not_searchable_of_sealed hv (h.2 d name hentry)] at hsearch
    cases hsearch

/-! ## Entries of changed trees -/

/-- A change of mode leaves all entries. -/
theorem entry_setMode (mode : UInt32) : entry (setMode i mode t) d name = entry t d name := by
  unfold entry setMode
  by_cases hd : d = i
  · subst hd
    rw [Function.update_self]
    cases t d <;> rfl
  · rw [Function.update_of_ne hd]

theorem entry_addNode (hfresh : t i = none) {node : Node}
    (hempty : ∀ name, node.entries name = none) :
    entry (addNode i node t) d name = entry t d name := by
  unfold entry addNode
  by_cases hd : d = i
  · subst hd
    rw [Function.update_self, hfresh, Option.bind_some, Option.bind_none, hempty, ite_self]
  · rw [Function.update_of_ne hd]

/-- A change of one entry leaves the others. -/
theorem entry_setEntry_of_ne {value : Option Inode} {d' : Inode} {name' : String}
    (h : ¬ (d' = d ∧ name' = name)) :
    entry (setEntry d name value t) d' name' = entry t d' name' := by
  unfold entry setEntry
  by_cases hd : d' = d
  · subst hd
    have hname : name' ≠ name := fun hname => h ⟨rfl, hname⟩
    rw [Function.update_self]
    cases t d' with
    | none => rfl
    | some node =>
        rw [Option.map_some, Option.bind_some, Option.bind_some]
        dsimp only
        rw [Function.update_of_ne hname]
  · rw [Function.update_of_ne hd]

/-- The entry that is set is the only new one. -/
theorem entry_setEntry_cases {value : Option Inode} {d' : Inode} {name' : String}
    (h : entry (setEntry d name value t) d' name' = some i) :
    entry t d' name' = some i ∨ (d' = d ∧ name' = name ∧ value = some i) := by
  by_cases hsame : d' = d ∧ name' = name
  · obtain ⟨rfl, rfl⟩ := hsame
    refine .inr ⟨rfl, rfl, ?_⟩
    unfold entry setEntry at h
    rw [Function.update_self] at h
    cases hnode : t d' with
    | none =>
        rw [hnode] at h
        cases h
    | some node =>
        rw [hnode, Option.map_some, Option.bind_some] at h
        dsimp only at h
        rw [Function.update_self] at h
        split at h
        · exact h
        · cases h
  · rw [entry_setEntry_of_ne hsame] at h
    exact .inl h

/-- A change of an entry leaves kind, owner and mode. -/
theorem node_setEntry (d : Inode) (name : String) (value : Option Inode) {node : Node}
    (hnode : t i = some node) :
    ∃ node', setEntry d name value t i = some node' ∧ node'.kind = node.kind ∧
      node'.owner = node.owner ∧ node'.mode = node.mode := by
  unfold setEntry
  by_cases hi : i = d
  · subst hi
    rw [Function.update_self, hnode]
    exact ⟨_, rfl, rfl, rfl, rfl⟩
  · rw [Function.update_of_ne hi]
    exact ⟨node, hnode, rfl, rfl, rfl⟩

/-! ## Closed trees -/

theorem closed_empty : Closed fun _ => none := fun _ _ _ h => by cases h

theorem isSome_setMode (mode : UInt32) (j : Inode) :
    (setMode i mode t j).isSome = (t j).isSome := by
  unfold setMode
  by_cases hj : j = i
  · subst hj
    rw [Function.update_self, Option.isSome_map]
  · rw [Function.update_of_ne hj]

theorem isSome_setEntry (value : Option Inode) (j : Inode) :
    (setEntry d name value t j).isSome = (t j).isSome := by
  unfold setEntry
  by_cases hj : j = d
  · subst hj
    rw [Function.update_self, Option.isSome_map]
  · rw [Function.update_of_ne hj]

theorem isSome_addNode (node : Node) {j : Inode} (h : j = i ∨ (t j).isSome) :
    (addNode i node t j).isSome := by
  unfold addNode
  by_cases hj : j = i
  · subst hj
    rw [Function.update_self]
    rfl
  · rw [Function.update_of_ne hj]
    exact h.resolve_left hj

/-- Every change keeps the names within the tree. -/
theorem Closed.setMode (h : Closed t) (i : Inode) (mode : UInt32) : Closed (setMode i mode t) := by
  intro d name j hentry
  rw [entry_setMode] at hentry
  rw [isSome_setMode]
  exact h d name j hentry

theorem Closed.unlink (h : Closed t) (d : Inode) (name : String) :
    Closed (setEntry d name none t) := by
  intro d' name' j hentry
  rw [isSome_setEntry]
  rcases entry_setEntry_cases hentry with hold | ⟨-, -, hnone⟩
  · exact h d' name' j hold
  · cases hnone

theorem Closed.link (h : Closed t) (d : Inode) (name : String) (hi : (t i).isSome) :
    Closed (setEntry d name (some i) t) := by
  intro d' name' j hentry
  rw [isSome_setEntry]
  rcases entry_setEntry_cases hentry with hold | ⟨-, -, hnew⟩
  · exact h d' name' j hold
  · cases hnew
    exact hi

theorem Closed.addNode (h : Closed t) (i : Inode) (kind : Kind) (owner : Uid) (mode : UInt32) :
    Closed (addNode i (newNode kind owner mode) t) := by
  intro d name j hentry
  apply isSome_addNode
  by_cases hd : d = i
  · subst hd
    unfold entry FileTree.addNode at hentry
    rw [Function.update_self, Option.bind_some] at hentry
    split at hentry <;> cases hentry
  · unfold entry FileTree.addNode at hentry
    rw [Function.update_of_ne hd] at hentry
    exact .inr (h d name j hentry)

/-- A new node is entered after it is made. -/
theorem Closed.create (h : Closed t) (d : Inode) (name : String) (i : Inode) (kind : Kind)
    (owner : Uid) (mode : UInt32) :
    Closed (setEntry d name (some i) (FileTree.addNode i (newNode kind owner mode) t)) :=
  (h.addNode i kind owner mode).link d name (isSome_addNode _ (.inl rfl))

/-- What another process does keeps the names within the tree. -/
theorem Closed.meddle (h : Closed t) (v : Uid) (op : Meddling) : Closed (meddle v t op) := by
  cases op with
  | create d name i kind mode =>
      rw [FileTree.meddle]
      split
      · exact h.create d name i kind v mode
      · exact h
  | link d name source sourceName =>
      rw [FileTree.meddle]
      split
      · cases hsource : entry t source sourceName with
        | none => exact h
        | some i => exact h.link d name (h source sourceName i hsource)
      · exact h
  | unlink d name =>
      rw [FileTree.meddle]
      split
      · exact h.unlink d name
      · exact h
  | chmod i mode =>
      rw [FileTree.meddle]
      split
      · exact h.setMode i mode
      · exact h

/-! ## How a tree evolves -/

/-- Files stay what they are and whose they are. Files of the user do not become more accessible
than they were, unless nobody else has a right to them. -/
def Lasting (u : Uid) (t t' : Tree) : Prop :=
  ∀ i node, t i = some node → ∃ node', t' i = some node' ∧ node'.kind = node.kind ∧
    node'.owner = node.owner ∧
    (node.owner = u → node'.mode = node.mode ∨ node'.mode &&& 0o077 = 0)

/-- A directory name and a file name that a program works with, and the kind of the file. -/
structure Site where
  dirName : String
  fileName : String
  kind : Kind
  distinct : dirName ≠ fileName
  solid : kind ≠ .symlink

/-- What lasts in a tree, whatever strangers do, and what the programs of the user at the site. -/
structure Evolves (u : Uid) (site : Site) (t t' : Tree) : Prop where
  lasting : Lasting u t t'
  directory : ∀ d a, Held u t d → entry t d site.dirName = some a →
    entry t' d site.dirName = some a
  tidy : ∀ d, Sealed u t d → Tidy u t site.fileName site.kind d →
    Tidy u t' site.fileName site.kind d
  hidden : ∀ i, Hidden u t i → Hidden u t' i

variable {site : Site}

theorem lasting_refl (u : Uid) (t : Tree) : Lasting u t t :=
  fun _ node hnode => ⟨node, hnode, rfl, rfl, fun _ => .inl rfl⟩

/-- What lasts through two changes lasts through both. -/
theorem Lasting.trans {t'' : Tree} (h : Lasting u t t') (h' : Lasting u t' t'') :
    Lasting u t t'' := by
  intro i node hnode
  obtain ⟨node', hnode', hkind, howner, hmode⟩ := h i node hnode
  obtain ⟨node'', hnode'', hkind', howner', hmode'⟩ := h' i node' hnode'
  refine ⟨node'', hnode'', hkind'.trans hkind, howner'.trans howner, fun hu => ?_⟩
  rcases hmode' (howner.trans hu) with hsame | hsealed
  · rw [hsame]
    exact hmode hu
  · exact .inr hsealed

/-- A right that is withheld stays withheld. -/
theorem Withholds.lasting {rights : UInt32} (hrights : (0o077 : UInt32) &&& rights = rights)
    (h : Withholds u t rights d) (hlasting : Lasting u t t') : Withholds u t' rights d := by
  obtain ⟨node, hnode, hkind, howner, hmode⟩ := h
  obtain ⟨node', hnode', hkind', howner', hmode'⟩ := hlasting d node hnode
  refine ⟨node', hnode', hkind'.trans hkind, howner'.trans howner, ?_⟩
  rcases hmode' howner with hsame | hsealed
  · rw [hsame]
    exact hmode
  · exact and_eq_zero_of_sealed hsealed rights hrights

/-- Ownership stays. -/
theorem Held.lasting (h : Held u t d) (hlasting : Lasting u t t') : Held u t' d :=
  Withholds.lasting (by decide) h hlasting

/-- A closed directory stays closed. -/
theorem Sealed.lasting (h : Sealed u t d) (hlasting : Lasting u t t') : Sealed u t' d :=
  Withholds.lasting (by decide) h hlasting

/-- A file of the user stays one. -/
theorem OwnFile.lasting {kind : Kind} (h : OwnFile u t kind i) (hlasting : Lasting u t t') :
    OwnFile u t' kind i := by
  obtain ⟨node, hnode, hkind, howner⟩ := h
  obtain ⟨node', hnode', hkind', howner', -⟩ := hlasting i node hnode
  exact ⟨node', hnode', hkind'.trans hkind, howner'.trans howner⟩

instance Evolves.isPreorder (u : Uid) (site : Site) : IsPreorder Tree (Evolves u site) where
  refl t := ⟨lasting_refl u t, fun _ _ _ h => h, fun _ _ h => h, fun _ h => h⟩
  trans _ _ _ h h' := {
    lasting := h.lasting.trans h'.lasting
    directory := fun d a hheld hentry =>
      h'.directory d a (hheld.lasting h.lasting) (h.directory d a hheld hentry)
    tidy := fun d hsealed htidy =>
      h'.tidy d (hsealed.lasting h.lasting) (h.tidy d hsealed htidy)
    hidden := fun i hi => h'.hidden i (h.hidden i hi) }

/-- It is enough to look at the entries: those with the directory name stay in directories that are
held, and new ones name nothing hidden, and in sealed directories files of the site only. -/
theorem evolves_of_entries (hlasting : Lasting u t t')
    (hkept : ∀ d a, Held u t d → entry t d site.dirName = some a →
      entry t' d site.dirName = some a)
    (hnew : ∀ d name i, entry t' d name = some i → entry t d name = some i ∨
      (¬ Hidden u t i ∧ (Sealed u t d → name = site.fileName → OwnFile u t' site.kind i))) :
    Evolves u site t t' where
  lasting := hlasting
  directory := hkept
  tidy d hsealed htidy i hentry := by
    rcases hnew d site.fileName i hentry with hold | ⟨-, hown⟩
    · exact (htidy i hold).lasting hlasting
    · exact hown hsealed rfl
  hidden i h := by
    obtain ⟨⟨node, hnode, howner⟩, hnamed⟩ := h
    refine ⟨?_, fun d name hentry => ?_⟩
    · obtain ⟨node', hnode', -, howner', -⟩ := hlasting i node hnode
      exact ⟨node', hnode', howner'.trans howner⟩
    · rcases hnew d name i hentry with hold | ⟨hnot, -⟩
      · exact (hnamed d name hold).lasting hlasting
      · exact absurd ⟨⟨node, hnode, howner⟩, hnamed⟩ hnot

theorem lasting_setEntry (d : Inode) (name : String) (value : Option Inode) :
    Lasting u t (setEntry d name value t) := by
  intro i node hnode
  obtain ⟨node', hnode', hkind, howner, hmode⟩ := node_setEntry d name value hnode
  exact ⟨node', hnode', hkind, howner, fun _ => .inl hmode⟩

theorem lasting_addNode (hfresh : t i = none) (node : Node) : Lasting u t (addNode i node t) := by
  intro j other hother
  have hne : j ≠ i := by
    rintro rfl
    rw [hfresh] at hother
    cases hother
  exact ⟨other, (Function.update_of_ne hne _ _).trans hother, rfl, rfl, fun _ => .inl rfl⟩

/-- The user never opens what is closed. -/
theorem lasting_setMode {mode : UInt32}
    (h : ∀ node, t i = some node → node.owner = u → mode &&& 0o077 = 0) :
    Lasting u t (setMode i mode t) := by
  intro j node hnode
  unfold setMode
  by_cases hj : j = i
  · subst hj
    rw [Function.update_self, hnode]
    exact ⟨_, rfl, rfl, rfl, fun howner => .inr (h node hnode howner)⟩
  · rw [Function.update_of_ne hj]
    exact ⟨node, hnode, rfl, rfl, fun _ => .inl rfl⟩

theorem not_hidden_of_none (h : t i = none) : ¬ Hidden u t i := by
  rintro ⟨⟨node, hnode, -⟩, -⟩
  rw [h] at hnode
  cases hnode

/-- A change of mode leads to a later tree. -/
theorem evolves_setMode {mode : UInt32}
    (h : ∀ node, t i = some node → node.owner = u → mode &&& 0o077 = 0) :
    Evolves u site t (setMode i mode t) := by
  refine evolves_of_entries (lasting_setMode h) (fun d a _ hentry => ?_) fun d name j hentry => ?_
  · rw [entry_setMode]
    exact hentry
  · rw [entry_setMode] at hentry
    exact .inl hentry

/-- An entry is removed, which is not under the directory name where its directory is held. -/
theorem evolves_unlink (h : Held u t d → name ≠ site.dirName) :
    Evolves u site t (setEntry d name none t) := by
  refine evolves_of_entries (lasting_setEntry d name none) (fun d' a hheld hentry => ?_)
    fun d' name' j hentry => ?_
  · refine (entry_setEntry_of_ne ?_).trans hentry
    rintro ⟨rfl, hname⟩
    exact h hheld hname.symm
  · rcases entry_setEntry_cases hentry with hold | ⟨-, -, hnone⟩
    · exact .inl hold
    · cases hnone

/-- A file is linked that is not hidden, and in a sealed directory only as a file of the site. -/
theorem evolves_link (hdir : Held u t d → name ≠ site.dirName) (hhidden : ¬ Hidden u t i)
    (hfile : Sealed u t d → name = site.fileName → OwnFile u t site.kind i) :
    Evolves u site t (setEntry d name (some i) t) := by
  refine evolves_of_entries (lasting_setEntry d name _) (fun d' a hheld hentry => ?_)
    fun d' name' j hentry => ?_
  · refine (entry_setEntry_of_ne ?_).trans hentry
    rintro ⟨rfl, hname⟩
    exact hdir hheld hname.symm
  · rcases entry_setEntry_cases hentry with hold | ⟨rfl, rfl, hnew⟩
    · exact .inl hold
    · cases hnew
      refine .inr ⟨hhidden, fun hsealed hname => ?_⟩
      exact (hfile hsealed hname).lasting (lasting_setEntry _ _ _)

/-- A new file is created, which takes no entry with the directory name away where its directory is
held, and is in a sealed directory a file of the site only. -/
theorem evolves_create {node : Node} (hfresh : t i = none)
    (hempty : ∀ name, node.entries name = none)
    (hdir : Held u t d → name = site.dirName → entry t d name = none)
    (hfile : Sealed u t d → name = site.fileName → node.kind = site.kind ∧ node.owner = u) :
    Evolves u site t (setEntry d name (some i) (addNode i node t)) := by
  have hlasting : Lasting u t (setEntry d name (some i) (addNode i node t)) :=
    (lasting_addNode hfresh node).trans (lasting_setEntry d name _)
  refine evolves_of_entries hlasting (fun d' a hheld hentry => ?_) fun d' name' j hentry => ?_
  · rw [entry_setEntry_of_ne, entry_addNode hfresh hempty]
    · exact hentry
    · rintro ⟨rfl, hname⟩
      rw [hname, hdir hheld hname.symm] at hentry
      cases hentry
  · rcases entry_setEntry_cases hentry with hold | ⟨rfl, rfl, hnew⟩
    · rw [entry_addNode hfresh hempty] at hold
      exact .inl hold
    · cases hnew
      refine .inr ⟨not_hidden_of_none hfresh, fun hsealed hname => ?_⟩
      obtain ⟨hkind, howner⟩ := hfile hsealed hname
      have hnode : addNode i node t i = some node := Function.update_self ..
      have hown : OwnFile u (addNode i node t) site.kind i := ⟨node, hnode, hkind, howner⟩
      exact hown.lasting (lasting_setEntry _ _ _)

/-- Whatever a stranger does. -/
theorem meddle_evolves (hv : v ≠ u) (op : Meddling) : Evolves u site t (meddle v t op) := by
  have hforeign : ∀ {d : Inode}, (t d).any (mayWrite v) = true → ¬ Held u t d := by
    intro d hwrite hheld
    rw [not_writable_of_held hv hheld] at hwrite
    cases hwrite
  -- Another user can change neither what is held nor what is sealed, by cases on what is done.
  cases op with
  | create d name i kind mode =>
      rw [meddle]
      split
      · next hpermitted =>
          rw [Bool.and_eq_true, Option.isNone_iff_eq_none] at hpermitted
          have hnot := hforeign hpermitted.1
          exact evolves_create hpermitted.2 (fun _ => rfl) (fun hheld => absurd hheld hnot)
            fun hsealed => absurd hsealed.held hnot
      · exact refl_of (Evolves u site) t
  | link d name source sourceName =>
      rw [meddle]
      split
      · next hpermitted =>
          rw [Bool.and_eq_true] at hpermitted
          have hnot := hforeign hpermitted.1
          cases hsource : entry t source sourceName with
          | none => exact refl_of (Evolves u site) t
          | some i =>
              refine evolves_link (fun hheld => absurd hheld hnot) (fun hhidden => ?_)
                fun hsealed => absurd hsealed.held hnot
              exact hhidden.not_mayReach hv (.inr ⟨source, sourceName, hpermitted.2, hsource⟩)
      · exact refl_of (Evolves u site) t
  | unlink d name =>
      rw [meddle]
      split
      · next hpermitted => exact evolves_unlink fun hheld => absurd hheld (hforeign hpermitted)
      · exact refl_of (Evolves u site) t
  | chmod i mode =>
      rw [meddle]
      split
      · next hpermitted =>
          apply evolves_setMode
          intro node hnode howner
          rw [hnode, Option.any_some, beq_iff_eq] at hpermitted
          exact absurd (hpermitted.symm.trans howner) hv
      · exact refl_of (Evolves u site) t

end Halquen.Library.FileTree
