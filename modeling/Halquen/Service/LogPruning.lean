import Halquen.Library.Budget
import Halquen.Library.Listing
import Halquen.Library.Ranking
import Halquen.Library.Suffixes
import Mathlib.Data.UInt

/-!
# Pruning of the logs

Before the daemon logs anything, old log files are removed: those past the retention, and then the
oldest ones until the rest is within the limit. The files are looked at once, in the order of their
modification times, with a running total of 64 bits. The total is exact as long as the sizes add up
to less than `2 ^ 64`; beyond that it is too small by what the addition lost, and the loop may stop
too early (`pruneLogs_iff`).
-/

set_option autoImplicit false

namespace Halquen.Service.LogPruning

open Halquen.Library.Budget Halquen.Library.Listing Halquen.Library.Ranking Halquen.Library.Sql
  Halquen.Library.Suffixes

/-! ## The directory -/

/-- What the directory says about a file. Times are in nanoseconds since the epoch. -/
structure DirEntry where
  fileName : String
  isFile : Bool
  len : UInt64
  modified : Int
  deriving DecidableEq

/-- The log directory, in which no name occurs twice. -/
structure Directory where
  entries : List DirEntry
  distinct : (entries.map DirEntry.fileName).Nodup

/-- Why logging cannot be set up. -/
inductive LoggingError where
  | missingStateHome | insecureLogDirectory | unknownUser | io | subscriberAlreadySet
  deriving DecidableEq, Repr

/-- The file is no longer in the directory. -/
def removeFile (directory : Directory) (fileName : String) : Except LoggingError Directory :=
  if fileName ∈ directory.entries.map DirEntry.fileName then
    .ok {
      entries := directory.entries.filter fun entry => entry.fileName != fileName
      distinct := directory.distinct.sublist (List.filter_sublist.map _) }
  else .error .io

/-- Regular files with the prefix of the log. -/
def isLog (entry : DirEntry) : Bool :=
  entry.isFile && "halquen.log".toList.isPrefixOf entry.fileName.toList

/-- The log files, sorted by their modification times. -/
def logs (directory : Directory) : List DirEntry :=
  orderBy DirEntry.modified (directory.entries.filter isLog)

/-! ## The loop -/

/-- `now.duration_since(modified)` is an error for a file of the future. -/
def expired (now : Int) (retention : Nat) (file : DirEntry) : Bool :=
  decide (file.modified ≤ now) && decide (retention < (now - file.modified).toNat)

/-- `u64::saturating_sub`. -/
def saturatingSub (a b : UInt64) : UInt64 := if b ≤ a then a - b else 0

section

variable (now : Int) (retention : Nat) (maxTotalBytes : UInt64)

/-- The loop of `prune_logs`: a file goes if it is old or the total is too large. -/
def pruneFiles : UInt64 → List DirEntry → Directory → Except LoggingError Directory
  | _, [], directory => .ok directory
  | total, file :: files, directory =>
      if expired now retention file || decide (maxTotalBytes < total) then do
        let directory ← removeFile directory file.fileName
        pruneFiles (saturatingSub total file.len) files directory
      else pruneFiles total files directory

/-- The sum of the sizes wraps around. -/
def pruneLogs (directory : Directory) : Except LoggingError Directory :=
  let files := logs directory
  pruneFiles now retention maxTotalBytes (files.map DirEntry.len).sum files directory

end

/-! ## What is asked for -/

/-- Not older than the retention. -/
def Fresh (now : Int) (retention : Nat) (file : DirEntry) : Prop := now - file.modified ≤ retention

/-- The sum of the sizes, without a bound. -/
def totalSize (files : List DirEntry) : Nat := (files.map fun file => file.len.toNat).sum

/-- The longest suffix of the log files without an old one and within the limit is left, and nothing
else is touched. -/
structure Pruned (now : Int) (retention : Nat) (maxTotalBytes : UInt64)
    (before after : Directory) : Prop where
  suffix : logs after <:+ logs before
  fresh : ∀ file ∈ logs after, Fresh now retention file
  bounded : totalSize (logs after) ≤ maxTotalBytes.toNat
  longest : ∀ files, files <:+ logs before → (∀ file ∈ files, Fresh now retention file) →
    totalSize files ≤ maxTotalBytes.toNat → files <:+ logs after
  others : after.entries.filter (fun entry => !isLog entry) =
    before.entries.filter fun entry => !isLog entry

/-- What the addition of the sizes loses. -/
def lost (files : List DirEntry) : Nat := totalSize files / 2 ^ 64 * 2 ^ 64

/-- No suffix of fresh files is above the limit by no more than the addition of the sizes loses. -/
def Counted (now : Int) (retention : Nat) (maxTotalBytes : UInt64) (directory : Directory) : Prop :=
  ∀ files, files <:+ logs directory → (∀ file ∈ files, Fresh now retention file) →
    totalSize files ≤ maxTotalBytes.toNat + lost (logs directory) →
      totalSize files ≤ maxTotalBytes.toNat

/-! ## Sizes and times -/

theorem toNat_saturatingSub (a b : UInt64) : (saturatingSub a b).toNat = a.toNat - b.toNat := by
  unfold saturatingSub
  split
  · rename_i h
    exact UInt64.toNat_sub_of_le _ _ h
  · rename_i h
    have hlt : a.toNat < b.toNat := UInt64.lt_iff_toNat_lt.mp (UInt64.not_le.mp h)
    have hzero : (0 : UInt64).toNat = 0 := rfl
    omega

theorem toNat_sum (files : List DirEntry) :
    (files.map DirEntry.len).sum.toNat = totalSize files - lost files := by
  have hmod : (files.map DirEntry.len).sum.toNat = totalSize files % 2 ^ 64 := by
    induction files with
    | nil => rfl
    | cons file files ih =>
        have htotal : totalSize (file :: files) = file.len.toNat + totalSize files := rfl
        rw [List.map_cons, List.sum_cons, UInt64.toNat_add, ih, htotal]
        omega
  have hdiv := Nat.div_add_mod (totalSize files) (2 ^ 64)
  rw [hmod, lost]
  omega

theorem totalSize_cons (file : DirEntry) (files : List DirEntry) :
    totalSize (file :: files) = file.len.toNat + totalSize files := rfl

theorem totalSize_le_of_suffix {files files' : List DirEntry} (h : files <:+ files') :
    totalSize files ≤ totalSize files' := by
  obtain ⟨front, rfl⟩ := h
  unfold totalSize
  rw [List.map_append, List.sum_append]
  exact Nat.le_add_left _ _

section

variable {now : Int} {retention : Nat} {maxTotalBytes : UInt64}

theorem expired_eq_false_iff (file : DirEntry) :
    expired now retention file = false ↔ Fresh now retention file := by
  unfold expired Fresh
  rw [Bool.and_eq_false_iff, decide_eq_false_iff_not, decide_eq_false_iff_not]
  omega

/-- A file is as fresh as the ones that are older. -/
theorem Fresh.of_le {file file' : DirEntry} (h : Fresh now retention file)
    (hle : file.modified ≤ file'.modified) : Fresh now retention file' := by
  unfold Fresh at h ⊢
  omega

/-- What the loop keeps, if its total falls short of the sizes by so much. -/
def kept (now : Int) (retention : Nat) (bound : Nat) (files : List DirEntry) : Bool :=
  files.all (fun file => !expired now retention file) && decide (totalSize files ≤ bound)

theorem kept_iff (bound : Nat) (files : List DirEntry) :
    kept now retention bound files = true ↔
      (∀ file ∈ files, Fresh now retention file) ∧ totalSize files ≤ bound := by
  rw [kept, Bool.and_eq_true, List.all_eq_true, decide_eq_true_eq]
  simp only [Bool.not_eq_true', expired_eq_false_iff]

theorem removeFile_eq {directory : Directory} {file : DirEntry} (h : file ∈ directory.entries) :
    ∃ after, removeFile directory file.fileName = .ok after ∧
      after.entries = directory.entries.filter fun entry => decide (entry ≠ file) := by
  rw [removeFile, if_pos (List.mem_map_of_mem h)]
  refine ⟨_, rfl, ?_⟩
  apply List.filter_congr
  intro entry hentry
  rw [Bool.eq_iff_iff, bne_iff_ne, decide_eq_true_eq]
  exact not_congr ⟨List.inj_on_of_nodup_map directory.distinct hentry h, congrArg _⟩

/-- Once a fresh file is kept, nothing more is removed. -/
theorem pruneFiles_fresh {total : UInt64} (htotal : ¬ maxTotalBytes < total)
    {files : List DirEntry} (hfresh : ∀ file ∈ files, Fresh now retention file)
    (directory : Directory) :
    pruneFiles now retention maxTotalBytes total files directory = .ok directory := by
  induction files with
  | nil => rfl
  | cons file files ih =>
      have hfile := (expired_eq_false_iff file).mpr (hfresh file List.mem_cons_self)
      rw [pruneFiles, if_neg (by simp [hfile, htotal])]
      exact ih fun later hlater => hfresh later (List.mem_cons_of_mem _ hlater)

/-- The loop removes all files but the longest suffix within the limit, up to what its total falls
short of the sizes. -/
theorem pruneFiles_spec {short : Nat} {files : List DirEntry}
    (hsorted : files.Pairwise fun a b => a.modified ≤ b.modified) (hnodup : files.Nodup)
    {total : UInt64} (htotal : total.toNat = totalSize files - short) {directory : Directory}
    (hfiles : ∀ file ∈ files, file ∈ directory.entries) :
    ∃ after, pruneFiles now retention maxTotalBytes total files directory = .ok after ∧
      after.entries = directory.entries.filter fun entry => decide (entry ∈ files →
        entry ∈ longestSuffix (kept now retention (maxTotalBytes.toNat + short)) files) := by
  induction files generalizing total directory with
  | nil =>
      refine ⟨directory, rfl, ?_⟩
      exact (List.filter_eq_self.mpr fun entry _ => by simp).symm
  | cons file files ih =>
      obtain ⟨holder, hsorted⟩ := List.pairwise_cons.mp hsorted
      obtain ⟨hfile, hnodup⟩ := List.nodup_cons.mp hnodup
      rw [totalSize_cons] at htotal
      by_cases hremove : expired now retention file || decide (maxTotalBytes < total)
      · -- The whole list is not what is kept, so the file is dropped from it as well.
        have hnot : kept now retention (maxTotalBytes.toNat + short) (file :: files) = false := by
          rw [← Bool.not_eq_true, kept_iff, totalSize_cons]
          rintro ⟨hfresh, hle⟩
          have hfile := (expired_eq_false_iff file).mpr (hfresh file List.mem_cons_self)
          rw [hfile, Bool.false_or, decide_eq_true_eq, UInt64.lt_iff_toNat_lt] at hremove
          omega
        -- The oldest file goes, and the induction continues with the smaller total.
        obtain ⟨removed, hremoved, hentries⟩ := removeFile_eq (hfiles file List.mem_cons_self)
        have hrest : ∀ later ∈ files, later ∈ removed.entries := by
          intro later hlater
          rw [hentries]
          apply List.mem_filter.mpr
          refine ⟨hfiles later (List.mem_cons_of_mem _ hlater), decide_eq_true ?_⟩
          rintro rfl
          exact hfile hlater
        have hnext : (saturatingSub total file.len).toNat = totalSize files - short := by
          rw [toNat_saturatingSub]
          omega
        obtain ⟨after, hafter, hleft⟩ := ih hsorted hnodup hnext hrest
        refine ⟨after, ?_, ?_⟩
        · rw [pruneFiles, if_pos hremove, hremoved]
          exact hafter
        · rw [hleft, hentries, List.filter_filter, longestSuffix_cons_of_neg hnot]
          apply List.filter_congr
          intro entry _
          have hdropped : file ∉ longestSuffix (kept now retention (maxTotalBytes.toNat + short))
              files := fun hin => hfile ((longestSuffix_suffix _ _).subset hin)
          by_cases hentry : entry = file
          · subst hentry
            simp [hdropped]
          · simp [hentry]
      · rw [Bool.or_eq_true, decide_eq_true_eq, not_or, Bool.not_eq_true,
          expired_eq_false_iff] at hremove
        -- The first file stays, so do all later ones: they are newer, and the total fits.
        have hfresh : ∀ later ∈ file :: files, Fresh now retention later := by
          intro later hlater
          rcases List.mem_cons.mp hlater with rfl | hlater
          · exact hremove.1
          · exact hremove.1.of_le (holder later hlater)
        have hall : kept now retention (maxTotalBytes.toNat + short) (file :: files) = true := by
          rw [kept_iff, totalSize_cons]
          have hle := UInt64.le_iff_toNat_le.mp (UInt64.not_lt.mp hremove.2)
          exact ⟨hfresh, by omega⟩
        refine ⟨directory, pruneFiles_fresh hremove.2 hfresh directory, ?_⟩
        rw [longestSuffix_of_pos hall]
        exact (List.filter_eq_self.mpr fun entry _ => by simp).symm

/-! ## The directory after it -/

theorem nodup_logs (directory : Directory) : (logs directory).Nodup :=
  (perm_orderBy _ _).nodup_iff.mpr ((List.Nodup.of_map _ directory.distinct).filter _)

theorem mem_logs_iff (directory : Directory) (entry : DirEntry) :
    entry ∈ logs directory ↔ entry ∈ directory.entries ∧ isLog entry = true := by
  rw [logs, (perm_orderBy _ _).mem_iff, List.mem_filter]

theorem pruneLogs_spec (directory : Directory) :
    ∃ after, pruneLogs now retention maxTotalBytes directory = .ok after ∧
      logs after = longestSuffix (kept now retention
        (maxTotalBytes.toNat + lost (logs directory))) (logs directory) ∧
      after.entries.filter (fun entry => !isLog entry) =
        directory.entries.filter fun entry => !isLog entry := by
  obtain ⟨after, hafter, hentries⟩ := @pruneFiles_spec now retention maxTotalBytes _ _
    (pairwise_orderBy _ _) (nodup_logs directory) _ (toNat_sum (logs directory)) directory
    fun file hfile => ((mem_logs_iff directory file).mp hfile).1
  refine ⟨after, hafter, ?_, ?_⟩
  · rw [logs, hentries, List.filter_comm, orderBy_filter]
    refine (List.filter_congr fun entry hentry => ?_).trans
      (filter_mem_eq_of_sublist (longestSuffix_suffix _ _).sublist (nodup_logs directory))
    rw [decide_eq_decide]
    exact ⟨fun h => h hentry, fun h _ => h⟩
  · rw [hentries, List.filter_filter]
    apply List.filter_congr
    intro entry _
    cases hlog : isLog entry with
    | true => rfl
    | false =>
        rw [Bool.not_false, Bool.true_and]
        apply decide_eq_true
        intro hin
        have hmem := ((mem_logs_iff directory entry).mp hin).2
        rw [hlog] at hmem
        cases hmem

/-- What is kept is fresh, within the limit and the lost part of the total, and the longest such end
of the list. -/
theorem exists_kept (now : Int) (retention : Nat) (maxTotalBytes : UInt64)
    (directory : Directory) :
    ∃ after, pruneLogs now retention maxTotalBytes directory = .ok after ∧
      logs after <:+ logs directory ∧ (∀ file ∈ logs after, Fresh now retention file) ∧
      totalSize (logs after) ≤ maxTotalBytes.toNat + lost (logs directory) ∧
      (∀ files, files <:+ logs directory → (∀ file ∈ files, Fresh now retention file) →
        totalSize files ≤ maxTotalBytes.toNat + lost (logs directory) → files <:+ logs after) ∧
      after.entries.filter (fun entry => !isLog entry) =
        directory.entries.filter fun entry => !isLog entry := by
  obtain ⟨after, hafter, hlogs, hothers⟩ :=
    @pruneLogs_spec now retention maxTotalBytes directory
  have hnil : kept now retention (maxTotalBytes.toNat + lost (logs directory)) [] = true :=
    (kept_iff _ _).mpr ⟨fun _ h => absurd h List.not_mem_nil, Nat.zero_le _⟩
  obtain ⟨hfresh, hbound⟩ := (kept_iff _ _).mp (longestSuffix_spec hnil (logs directory))
  rw [← hlogs] at hfresh hbound
  refine ⟨after, hafter, hlogs ▸ longestSuffix_suffix _ _, hfresh, hbound, ?_, hothers⟩
  intro files hfiles hfilesFresh hle
  rw [hlogs]
  exact suffix_longestSuffix hfiles ((kept_iff _ _).mpr ⟨hfilesFresh, hle⟩)

/-- If the lost part of the total makes no difference, the logs are pruned as they should be. -/
theorem pruned_of_counted {directory : Directory}
    (hcounted : Counted now retention maxTotalBytes directory) :
    ∃ after, pruneLogs now retention maxTotalBytes directory = .ok after ∧
      Pruned now retention maxTotalBytes directory after := by
  obtain ⟨after, hafter, hsuffix, hfresh, hbound, hlongest, hothers⟩ :=
    exists_kept now retention maxTotalBytes directory
  refine ⟨after, hafter, hsuffix, hfresh, hcounted _ hsuffix hfresh hbound, ?_, hothers⟩
  intro files hfiles hfilesFresh hle
  exact hlongest files hfiles hfilesFresh (hle.trans (Nat.le_add_right _ _))

/-- The logs are pruned as they should be exactly where the lost part of the total makes no
difference. -/
theorem pruneLogs_iff (now : Int) (retention : Nat) (maxTotalBytes : UInt64)
    (directory : Directory) :
    (∃ after, pruneLogs now retention maxTotalBytes directory = .ok after ∧
      Pruned now retention maxTotalBytes directory after) ↔
        Counted now retention maxTotalBytes directory := by
  refine ⟨?_, pruned_of_counted⟩
  obtain ⟨after, hafter, -, -, -, hlongest, -⟩ :=
    exists_kept now retention maxTotalBytes directory
  rintro ⟨after', hafter', hpruned⟩ files hfiles hfilesFresh hle
  obtain rfl : after' = after := Except.ok.inj (hafter'.symm.trans hafter)
  exact (totalSize_le_of_suffix (hlongest files hfiles hfilesFresh hle)).trans hpruned.bounded

/-- Nothing is lost as long as the sizes fit into 64 bits. -/
theorem counted_of_lt {directory : Directory} (h : totalSize (logs directory) < 2 ^ 64) :
    Counted now retention maxTotalBytes directory := by
  intro files _ _ hle
  have hlost : lost (logs directory) = 0 := by
    rw [lost, Nat.div_eq_of_lt h, Nat.zero_mul]
  omega

/-- The logs are then pruned as they should be. -/
theorem pruneLogs_of_lt (now : Int) (retention : Nat) (maxTotalBytes : UInt64)
    {directory : Directory} (h : totalSize (logs directory) < 2 ^ 64) :
    ∃ after, pruneLogs now retention maxTotalBytes directory = .ok after ∧
      Pruned now retention maxTotalBytes directory after :=
  pruned_of_counted (counted_of_lt h)

end

/-! ## Sizes beyond 64 bits -/

/-- A file that is as long as one likes. -/
def sparseFile (fileName : String) (len : UInt64) (modified : Int) : DirEntry :=
  ⟨fileName, true, len, modified⟩

/-- Two sparse files of the greatest size, and two bytes. -/
def sparse : Directory where
  entries := [
    sparseFile "halquen.log.2026-08-23" 9223372036854775807 1,
    sparseFile "halquen.log.2026-08-24" 9223372036854775807 2,
    sparseFile "halquen.log.2026-08-25" 2 3]
  distinct := by decide

/-- The total is zero, and no file is removed. -/
theorem sparse_not_pruned : ¬ ∀ now retention maxTotalBytes before, ∃ after,
    pruneLogs now retention maxTotalBytes before = .ok after ∧
      Pruned now retention maxTotalBytes before after := by
  intro h
  obtain ⟨after, hafter, hpruned⟩ := h 4 604800000000000 33554432 sparse
  have hrun : (pruneLogs 4 604800000000000 33554432 sparse).map Directory.entries =
      .ok sparse.entries := by decide
  rw [hafter] at hrun
  have hentries : after.entries = sparse.entries := Except.ok.inj hrun
  have hbounded := hpruned.bounded
  rw [logs, hentries] at hbounded
  exact absurd hbounded (by decide)

end Halquen.Service.LogPruning
