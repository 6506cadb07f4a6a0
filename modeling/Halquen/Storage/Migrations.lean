import Halquen.Library.Action
import Halquen.Library.Listing
import Mathlib.Algebra.GroupWithZero.Nat
import Mathlib.Data.List.Basic

/-!
# Migrations of the schema

Opening a database applies the migrations that it does not have yet, each in a transaction of its
own together with the row that records it. A call may stop at any statement, because the statement
fails or because the process is gone; an open transaction is then rolled back. Whatever a call
leaves behind is the schema after some number of migrations, and the table of the applied ones names
just those (`applyMigrations_spec`), so that calls repeated until one succeeds apply every missing
migration once and in order (`migrations_recover`).

The schema is a type variable and a migration a list of partial functions on it, its statements: the
SQL of a migration neither controls the transaction nor touches the table of the applied ones.
-/

set_option autoImplicit false

namespace Halquen.Storage.Migrations

open Halquen.Library.Action Halquen.Library.Action.Act Halquen.Library.Listing

variable {σ : Type}

/-- A numbered change of the schema, statement by statement. -/
structure Migration (σ : Type) where
  version : Int
  description : String
  sql : List (σ → Option σ)

/-- A migration that was applied. -/
structure MigrationRow where
  version : Int
  description : String
  appliedAtMs : Int
  deriving DecidableEq

/-- A database: the table of the applied migrations, if it exists, and everything else. -/
structure MigratedDatabase (σ : Type) where
  schema : σ
  schemaMigrations : Option (List MigrationRow)

/-- Why the schema is not brought up to date. -/
inductive MigrationError where
  | database
  | migration (version : Int)
  /-- The process is gone; no one reads this error. -/
  | crashed
  deriving DecidableEq, Repr

/-- How a call is stopped. -/
inductive Fault where
  | statementFails | processCrashes
  deriving DecidableEq, Repr

/-- A connection during a call. Only `budget` statements complete; the next one meets the fault.
The versions committed by the call are kept for the statements of results. -/
structure Connection (σ : Type) where
  database : MigratedDatabase σ
  fault : Fault
  budget : Nat
  committed : List Int

/-- One statement. It fails by itself where `run` is undefined. -/
def statement {α : Type} (e : MigrationError)
    (run : MigratedDatabase σ → Option (α × MigratedDatabase σ)) :
    Act (Connection σ) MigrationError α := fun c =>
  match c.budget with
  | 0 =>
      match c.fault with
      | .statementFails => (.error e, c)
      | .processCrashes => (.error .crashed, c)
  | budget + 1 =>
      match run c.database with
      | none => (.error e, { c with budget := budget })
      | some (a, database) => (.ok a, { c with database := database, budget := budget })

/-- A statement that changes nothing, such as the beginning and the end of a transaction. -/
def control : Act (Connection σ) MigrationError Unit := statement .database fun db => some ((), db)

/-- The table of migrations is there afterwards. -/
def createSchemaMigrations : Act (Connection σ) MigrationError Unit :=
  statement .database fun db =>
    some ((), { db with schemaMigrations := some (db.schemaMigrations.getD []) })

/-- The migration is on record. -/
def isApplied (version : Int) : Act (Connection σ) MigrationError Bool :=
  statement .database fun db =>
    db.schemaMigrations.map fun rows => (rows.any fun row => row.version == version, db)

/-- The statements of a migration, one after another. -/
def executeBatch (version : Int) (sql : List (σ → Option σ)) :
    Act (Connection σ) MigrationError Unit :=
  forEach sql fun run => statement (.migration version) fun db =>
    (run db.schema).map fun schema => ((), { db with schema := schema })

/-- The migration goes on record. -/
def recordMigration (row : MigrationRow) : Act (Connection σ) MigrationError Unit :=
  statement .database fun db =>
    db.schemaMigrations.bind fun rows =>
      if rows.any fun old => old.version == row.version then none
      else some ((), { db with schemaMigrations := some (rows ++ [row]) })

/-- The transaction of one migration: its statements, the row that records it, and the commit. The
times at which migrations are recorded are given by `clock`. -/
def migrationBody (clock : Int → Int) (migration : Migration σ) :
    Act (Connection σ) MigrationError Unit := do
  executeBatch migration.version migration.sql
  recordMigration ⟨migration.version, migration.description, clock migration.version⟩
  control
  modify fun c => { c with committed := c.committed ++ [migration.version] }

/-- The body of the loop. -/
def applyMigration (clock : Int → Int) (migration : Migration σ) :
    Act (Connection σ) MigrationError Unit := do
  let applied ← isApplied migration.version
  if applied then
    pure ()
  else do
    control
    transaction (migrationBody clock migration)

/-- `apply_migrations`: the migrations that are not on record, in their order. -/
def applyMigrations (clock : Int → Int) (migrations : List (Migration σ)) :
    Act (Connection σ) MigrationError Unit := do
  createSchemaMigrations
  forEach migrations (applyMigration clock)

/-- `SELECT COALESCE(MAX(version), 0)`, which fails without the table. -/
def schemaVersion (db : MigratedDatabase σ) : Option Int :=
  db.schemaMigrations.map fun rows => ((rows.map MigrationRow.version).max?).getD 0

/-! ## Whole numbers of migrations -/

/-- What the statements of a migration make of a schema. -/
def Migration.run (migration : Migration σ) (schema : σ) : Option σ :=
  migration.sql.foldlM (fun schema run => run schema) schema

/-- The schema after these migrations. -/
def schemaAfter (base : σ) (migrations : List (Migration σ)) : Option σ :=
  migrations.foldlM (fun schema migration => migration.run schema) base

/-- The database has the first `k` migrations, and its table names just those. -/
structure AtPrefix (base : σ) (migrations : List (Migration σ)) (k : Nat)
    (db : MigratedDatabase σ) : Prop where
  le : k ≤ migrations.length
  schema : schemaAfter base (migrations.take k) = some db.schema
  names : (db.schemaMigrations.getD []).map (fun row => (row.version, row.description)) =
    (migrations.take k).map fun migration => (migration.version, migration.description)

/-- Versions of the migrations from number `j` up to number `k`. -/
def versionsBetween (migrations : List (Migration σ)) (j k : Nat) : List Int :=
  ((migrations.take k).drop j).map Migration.version

section Statements

variable {α : Type} {e : MigrationError}
  {run : MigratedDatabase σ → Option (α × MigratedDatabase σ)} {c : Connection σ}

/-- A statement that does not succeed leaves the database as it was. -/
theorem statement_spec :
    Post (statement e run) c fun r c' => c'.committed = c.committed ∧
      ((∃ e', r = .error e' ∧ c'.database = c.database) ∨
        ∃ a, r = .ok a ∧ run c.database = some (a, c'.database)) := by
  unfold Post statement
  cases c.budget with
  | zero =>
      cases c.fault with
      | statementFails => exact ⟨rfl, .inl ⟨_, rfl, rfl⟩⟩
      | processCrashes => exact ⟨rfl, .inl ⟨_, rfl, rfl⟩⟩
  | succ budget =>
      cases hrun : run c.database with
      | none => exact ⟨rfl, .inl ⟨_, rfl, rfl⟩⟩
      | some result => exact ⟨rfl, .inr ⟨result.1, rfl, rfl⟩⟩

theorem returns_statement {Q : α → Connection σ → Prop}
    (h : ∀ a c', c'.committed = c.committed → run c.database = some (a, c'.database) → Q a c') :
    Returns (statement e run) c Q := by
  apply Post.mono statement_spec
  rintro r c' ⟨hcommitted, hr⟩ a rfl
  rcases hr with ⟨e', he', -⟩ | ⟨a', ha', hrun⟩
  · cases he'
  · cases ha'
    exact h a c' hcommitted hrun

/-- A statement that the budget covers succeeds if it is defined. -/
theorem statement_eq {a : α} {db : MigratedDatabase σ} {budget : Nat}
    (hbudget : c.budget = budget + 1) (hrun : run c.database = some (a, db)) :
    statement e run c = (.ok a, { c with database := db, budget := budget }) := by
  unfold statement
  rw [hbudget]
  simp only [hrun]

end Statements

/-! ## One migration -/

section OneMigration

variable {base : σ} {migrations : List (Migration σ)}

/-- What a batch that succeeds has done. -/
theorem executeBatch_spec (version : Int) (sql : List (σ → Option σ)) (c : Connection σ) :
    Returns (executeBatch version sql) c fun _ c' =>
      sql.foldlM (fun schema run => run schema) c.database.schema = some c'.database.schema ∧
        c'.database.schemaMigrations = c.database.schemaMigrations ∧
        c'.committed = c.committed := by
  induction sql generalizing c with
  | nil =>
      intro u _
      exact ⟨rfl, rfl, rfl⟩
  | cons first sql ih =>
      have hbatch : executeBatch version (first :: sql) =
          (statement (.migration version) fun db =>
            (first db.schema).map fun schema => ((), { db with schema := schema })) >>=
          fun _ => executeBatch version sql := rfl
      rw [hbatch, returns_bind]
      apply returns_statement
      intro u c₁ hcommitted hrun
      obtain ⟨schema, hfirst, heq⟩ := Option.map_eq_some_iff.mp hrun
      refine (ih c₁).mono ?_
      rintro v c' ⟨hrest, hrows, hcommitted'⟩
      have hdatabase : c₁.database = { c.database with schema := schema } :=
        (Prod.mk.inj heq).2.symm
      rw [hdatabase] at hrest hrows
      refine ⟨?_, hrows, hcommitted'.trans hcommitted⟩
      rw [List.foldlM_cons, hfirst]
      exact hrest

/-- The database has another migration when its transaction is committed. -/
theorem AtPrefix.succ {k : Nat} {db db' : MigratedDatabase σ} (h : AtPrefix base migrations k db)
    {migration : Migration σ} (hmigration : migrations[k]? = some migration)
    (hrun : migration.run db.schema = some db'.schema) {appliedAtMs : Int}
    (hrows : db'.schemaMigrations.getD [] = db.schemaMigrations.getD [] ++
      [⟨migration.version, migration.description, appliedAtMs⟩]) :
    AtPrefix base migrations (k + 1) db' := by
  obtain ⟨hk, hget⟩ := List.getElem?_eq_some_iff.mp hmigration
  have htake : migrations.take (k + 1) = migrations.take k ++ [migration] := by
    rw [List.take_add_one, hmigration]
    rfl
  refine ⟨hk, ?_, ?_⟩
  · unfold schemaAfter
    rw [htake, List.foldlM_append]
    have hbefore : (migrations.take k).foldlM (fun schema migration => migration.run schema) base =
        some db.schema := h.schema
    rw [hbefore]
    simpa using hrun
  · rw [hrows, htake, List.map_append, List.map_append, h.names]
    rfl

/-- A migration is recorded exactly if it is one of the first. -/
theorem AtPrefix.any_version_iff {k i : Nat} {db : MigratedDatabase σ}
    (h : AtPrefix base migrations k db)
    (hnumbered : (migrations.map Migration.version).Pairwise (· < ·))
    {migration : Migration σ} (hmigration : migrations[i]? = some migration) :
    ((db.schemaMigrations.getD []).any fun row => row.version == migration.version) = true ↔
      i < k := by
  -- The table names the first migrations by their versions.
  have hversions : (db.schemaMigrations.getD []).map MigrationRow.version =
      (migrations.take k).map Migration.version := by
    have hfirst := congrArg (List.map Prod.fst) h.names
    simpa [List.map_map, Function.comp_def] using hfirst
  have hany : ((db.schemaMigrations.getD []).any fun row => row.version == migration.version) = true
      ↔ migration.version ∈ (migrations.take k).map Migration.version := by
    rw [← hversions]
    simp [List.any_eq_true, List.mem_map]
  rw [hany]
  obtain ⟨hi, hget⟩ := List.getElem?_eq_some_iff.mp hmigration
  have hincreasing := List.pairwise_iff_getElem.mp hnumbered
  simp only [List.length_map, List.getElem_map] at hincreasing
  constructor
  · intro hmem
    obtain ⟨other, hother, heq⟩ := List.mem_map.mp hmem
    obtain ⟨j, hj, hgetj⟩ := List.mem_take_iff_getElem.mp hother
    -- Versions increase, so that only the migration itself has its version.
    rcases lt_trichotomy j i with hlt | rfl | hgt
    · have hversion := hincreasing j i (by omega) hi hlt
      rw [hgetj, hget, heq] at hversion
      exact absurd hversion (lt_irrefl _)
    · omega
    · have hversion := hincreasing i j hi (by omega) hgt
      rw [hgetj, hget, heq] at hversion
      exact absurd hversion (lt_irrefl _)
  · intro hik
    rw [List.mem_map]
    refine ⟨migration, ?_, rfl⟩
    rw [List.mem_take_iff_getElem]
    exact ⟨i, by omega, hget⟩

/-- Versions from one number of migrations to the next. -/
theorem versionsBetween_succ {j : Nat} {migration : Migration σ}
    (hmigration : migrations[j]? = some migration) (k : Nat) (hjk : j + 1 ≤ k) :
    versionsBetween migrations j k =
      migration.version :: versionsBetween migrations (j + 1) k := by
  obtain ⟨hj, hget⟩ := List.getElem?_eq_some_iff.mp hmigration
  unfold versionsBetween
  have hlength : j < (migrations.take k).length := by
    rw [List.length_take]
    omega
  rw [List.drop_eq_getElem_cons hlength, List.map_cons, List.getElem_take, hget]

theorem versionsBetween_self (j : Nat) : versionsBetween migrations j j = [] := by
  unfold versionsBetween
  rw [List.drop_eq_nil_of_le (by simp), List.map_nil]

/-- A transaction that is committed adds the migration to the database and to the table. -/
theorem returns_migrationBody (clock : Int → Int) {j : Nat} {migration : Migration σ}
    (hmigration : migrations[j]? = some migration) {c : Connection σ}
    (h : AtPrefix base migrations j c.database) :
    Returns (migrationBody clock migration) c fun _ c' =>
      c'.committed = c.committed ++ [migration.version] ∧
        AtPrefix base migrations (j + 1) c'.database ∧
        c'.database.schemaMigrations.isSome = true := by
  unfold migrationBody
  rw [returns_bind]
  -- The batch, the row that records it and the commit.
  refine (executeBatch_spec migration.version migration.sql c).mono ?_
  rintro u c₁ ⟨hschema, hrows, hcommitted⟩
  rw [returns_bind]
  apply returns_statement
  intro v c₂ hcommitted₂ hrecord
  rw [returns_bind]
  apply returns_statement
  intro w c₃ hcommitted₃ hcontrol
  rw [returns_modify]
  have hdatabase₃ : c₃.database = c₂.database := (Prod.mk.inj (Option.some.inj hcontrol)).2.symm
  obtain ⟨rows, hsome, hinsert⟩ := Option.bind_eq_some_iff.mp hrecord
  -- The version was not recorded before, or the insertion would have failed.
  by_cases hduplicate : (rows.any fun old => old.version == migration.version) = true
  · rw [if_pos hduplicate] at hinsert
    cases hinsert
  rw [if_neg hduplicate] at hinsert
  have hdatabase₂ := (Prod.mk.inj (Option.some.inj hinsert)).2.symm
  refine ⟨?_, ?_, ?_⟩
  · dsimp only
    rw [hcommitted₃, hcommitted₂, hcommitted]
  · have hschema₂ : migration.run c.database.schema = some c₂.database.schema := by
      rw [hdatabase₂]
      exact hschema
    rw [hdatabase₃]
    apply h.succ hmigration hschema₂
    rw [hdatabase₂, ← hrows, hsome]
    rfl
  · dsimp only
    rw [hdatabase₃, hdatabase₂]
    rfl

/-- What the body of the loop does at migration number `i` of a database that has at least the
migrations before it. -/
theorem applyMigration_spec (clock : Int → Int)
    (hnumbered : (migrations.map Migration.version).Pairwise (· < ·)) {i j : Nat} (hij : i ≤ j)
    {migration : Migration σ} (hmigration : migrations[i]? = some migration)
    {c : Connection σ} (h : AtPrefix base migrations j c.database) :
    Post (applyMigration clock migration) c fun r c' =>
      (c'.committed = c.committed ∧ c'.database = c.database ∧ (r = .ok () → i < j)) ∨
        r = .ok () ∧ j = i ∧ c'.committed = c.committed ++ [migration.version] ∧
          AtPrefix base migrations (j + 1) c'.database ∧
          c'.database.schemaMigrations.isSome = true := by
  unfold applyMigration
  refine Post.bind statement_spec ?_ ?_
  · rintro applied c₁ ⟨hcommitted, hr⟩
    rcases hr with ⟨e, he, -⟩ | ⟨applied', heq, hrun⟩
    · cases he
    cases heq
    obtain ⟨rows, hrows, hfound⟩ := Option.map_eq_some_iff.mp hrun
    obtain ⟨happlied, hdatabase⟩ := Prod.mk.inj hfound
    have hrecorded := h.any_version_iff hnumbered hmigration
    rw [hrows, Option.getD_some, happlied] at hrecorded
    cases applied with
    -- The version is on record: nothing is done.
    | true => exact .inl ⟨hcommitted, hdatabase.symm, fun _ => hrecorded.mp rfl⟩
    | false =>
        -- The version is not on record, so the migration is the next one.
        have heqij : j = i := by
          have hnot : ¬ i < j := fun hlt => by simpa using hrecorded.mpr hlt
          omega
        refine Post.bind statement_spec ?_ ?_
        · rintro u c₂ ⟨hcommitted₂, hr⟩
          rcases hr with ⟨e, he, -⟩ | ⟨u', heq, hrun₂⟩
          · cases he
          have hdatabase₂ : c₂.database = c.database :=
            ((Prod.mk.inj (Option.some.inj hrun₂)).2.symm).trans hdatabase.symm
          have hprefix : AtPrefix base migrations j c₂.database := by
            rw [hdatabase₂]
            exact h
          -- Where the transaction fails, the database is what it was before.
          have hbody := returns_migrationBody clock (heqij ▸ hmigration) hprefix
          rw [post_transaction]
          refine Post.mono hbody ?_
          intro r c₃ hr₃
          cases r with
          | error e => exact .inl ⟨hcommitted₂.trans hcommitted, hdatabase₂, by simp⟩
          | ok w =>
              obtain ⟨hcommitted₃, hprefix₃⟩ := hr₃ w rfl
              refine .inr ⟨rfl, heqij, ?_, hprefix₃⟩
              rw [hcommitted₃, hcommitted₂, hcommitted]
        · rintro e c₂ ⟨hcommitted₂, hr⟩
          rcases hr with ⟨e', he, hdatabase₂⟩ | ⟨u, hu, -⟩
          · exact .inl ⟨hcommitted₂.trans hcommitted, hdatabase₂.trans hdatabase.symm, by simp⟩
          · cases hu
  · rintro e c₁ ⟨hcommitted, hr⟩
    rcases hr with ⟨e', he, hdatabase⟩ | ⟨a, ha, -⟩
    · exact .inl ⟨hcommitted, hdatabase, by simp⟩
    · cases ha

/-! ## A whole call -/

/-- What the loop does from migration number `pre.length` on. -/
theorem forEach_spec (clock : Int → Int)
    (hnumbered : (migrations.map Migration.version).Pairwise (· < ·)) :
    ∀ (rest pre : List (Migration σ)) (j : Nat) (c : Connection σ), migrations = pre ++ rest →
      pre.length ≤ j → AtPrefix base migrations j c.database →
      Post (forEach rest (applyMigration clock)) c fun r c' =>
        ∃ k, j ≤ k ∧ AtPrefix base migrations k c'.database ∧
          c'.committed = c.committed ++ versionsBetween migrations j k ∧
          (c.database.schemaMigrations.isSome = true →
            c'.database.schemaMigrations.isSome = true) ∧
          (r = .ok () → k = migrations.length) := by
  intro rest
  induction rest with
  | nil =>
      intro pre j c hsplit hpre h
      refine ⟨j, le_rfl, h, ?_, id, ?_⟩
      · rw [versionsBetween_self, List.append_nil]
        rfl
      · intro _
        have hle := h.le
        rw [hsplit, List.append_nil] at hle ⊢
        omega
  | cons migration rest ih =>
      intro pre j c hsplit hpre h
      have hmigration : migrations[pre.length]? = some migration := by
        rw [hsplit]
        simp
      have hsplit' : migrations = (pre ++ [migration]) ++ rest := by
        rw [hsplit, List.append_assoc]
        rfl
      refine Post.bind (applyMigration_spec clock hnumbered hpre hmigration h) ?_ ?_
      · rintro u c₁ (⟨hcommitted, hdatabase, hskipped⟩ | ⟨-, hj, hcommitted, hprefix, hsome⟩)
        · -- The migration had been applied.
          have hlt := hskipped rfl
          refine (ih (pre ++ [migration]) j c₁ hsplit' (by simp; omega) (hdatabase ▸ h)).mono ?_
          rintro r c₂ ⟨k, hjk, hk, hcommitted₂, hsome₂, hdone⟩
          rw [hcommitted] at hcommitted₂
          rw [hdatabase] at hsome₂
          exact ⟨k, hjk, hk, hcommitted₂, hsome₂, hdone⟩
        · -- The migration was applied just now.
          refine (ih (pre ++ [migration]) (j + 1) c₁ hsplit' (by simp; omega) hprefix).mono ?_
          rintro r c₂ ⟨k, hjk, hk, hcommitted₂, hsome₂, hdone⟩
          refine ⟨k, by omega, hk, ?_, fun _ => hsome₂ hsome, hdone⟩
          have hnext : migrations[j]? = some migration := hj ▸ hmigration
          rw [hcommitted₂, hcommitted, versionsBetween_succ hnext k hjk, List.append_assoc]
          rfl
      -- The call stops here, between two migrations.
      · rintro e c₁ (⟨hcommitted, hdatabase, -⟩ | ⟨he, -⟩)
        · refine ⟨j, le_rfl, hdatabase ▸ h, ?_, ?_, by simp⟩
          · rw [hcommitted, versionsBetween_self, List.append_nil]
          · intro hsome
            rw [hdatabase]
            exact hsome
        · cases he

/-- Whatever stops a call, it leaves a whole number of migrations behind, and it has committed just
those that are new. -/
theorem applyMigrations_spec (clock : Int → Int)
    (hnumbered : (migrations.map Migration.version).Pairwise (· < ·)) {j : Nat}
    {c : Connection σ} (h : AtPrefix base migrations j c.database) :
    Post (applyMigrations clock migrations) c fun r c' =>
      ∃ k, j ≤ k ∧ AtPrefix base migrations k c'.database ∧
        c'.committed = c.committed ++ versionsBetween migrations j k ∧
        (r = .ok () → k = migrations.length ∧ c'.database.schemaMigrations.isSome = true) := by
  unfold applyMigrations
  refine Post.bind statement_spec ?_ ?_
  · rintro u c₁ ⟨hcommitted, hr⟩
    rcases hr with ⟨e, he, -⟩ | ⟨u', heq, hrun⟩
    · cases he
    have hdatabase := (Prod.mk.inj (Option.some.inj hrun)).2.symm
    have hprefix : AtPrefix base migrations j c₁.database := by
      rw [hdatabase]
      exact ⟨h.le, h.schema, h.names⟩
    refine (forEach_spec clock hnumbered migrations [] j c₁ rfl (by simp) hprefix).mono ?_
    rintro r c₂ ⟨k, hjk, hk, hcommitted₂, hsome, hdone⟩
    rw [hcommitted] at hcommitted₂
    refine ⟨k, hjk, hk, hcommitted₂, fun hr => ⟨hdone hr, hsome ?_⟩⟩
    rw [hdatabase]
    rfl
  · rintro e c₁ ⟨hcommitted, hr⟩
    rcases hr with ⟨e', he, hdatabase⟩ | ⟨u, hu, -⟩
    · refine ⟨j, le_rfl, hdatabase ▸ h, ?_, by simp⟩
      rw [hcommitted, versionsBetween_self, List.append_nil]
    · cases hu

/-! ## Calls that are repeated -/

/-- A call: when it runs, and what stops it after how many statements. -/
structure Attempt where
  clock : Int → Int
  fault : Fault
  budget : Nat

/-- The call on a database, with its outcome and the connection at its end. -/
def call (migrations : List (Migration σ)) (attempt : Attempt) (db : MigratedDatabase σ) :
    Except MigrationError Unit × Connection σ :=
  applyMigrations attempt.clock migrations ⟨db, attempt.fault, attempt.budget, []⟩

/-- Calls that fail or crash, and then one that succeeds, with the versions that they commit. -/
inductive Reruns (migrations : List (Migration σ)) :
    MigratedDatabase σ → List Int → MigratedDatabase σ → Prop where
  | success (attempt : Attempt) (db : MigratedDatabase σ)
      (hok : (call migrations attempt db).1 = .ok ()) :
      Reruns migrations db (call migrations attempt db).2.committed
        (call migrations attempt db).2.database
  | again (attempt : Attempt) (db : MigratedDatabase σ) {committed : List Int}
      {db' : MigratedDatabase σ} (hstopped : (call migrations attempt db).1 ≠ .ok ())
      (rest : Reruns migrations (call migrations attempt db).2.database committed db') :
      Reruns migrations db ((call migrations attempt db).2.committed ++ committed) db'

theorem versionsBetween_append {j k n : Nat} (hjk : j ≤ k) (hkn : k ≤ n)
    (hn : n ≤ migrations.length) :
    versionsBetween migrations j k ++ versionsBetween migrations k n =
      versionsBetween migrations j n := by
  unfold versionsBetween
  rw [← List.map_append]
  congr 1
  have htake : (migrations.take n).take k = migrations.take k := by
    rw [List.take_take, Nat.min_eq_left hkn]
  conv_rhs => rw [← List.take_append_drop k (migrations.take n), htake]
  rw [List.drop_append_of_le_length (by simp; omega)]

/-- A call takes the database from one prefix of the migrations to a later one, or leaves it. -/
theorem call_spec (hnumbered : (migrations.map Migration.version).Pairwise (· < ·))
    (attempt : Attempt) {j : Nat} {db : MigratedDatabase σ}
    (h : AtPrefix base migrations j db) :
    ∃ k, j ≤ k ∧ AtPrefix base migrations k (call migrations attempt db).2.database ∧
      (call migrations attempt db).2.committed = versionsBetween migrations j k ∧
      ((call migrations attempt db).1 = .ok () → k = migrations.length ∧
        (call migrations attempt db).2.database.schemaMigrations.isSome = true) :=
  applyMigrations_spec attempt.clock hnumbered
    (c := ⟨db, attempt.fault, attempt.budget, []⟩) h

/-- Repeated calls commit every missing migration once, in order. -/
theorem reruns_spec (hnumbered : (migrations.map Migration.version).Pairwise (· < ·))
    {db db' : MigratedDatabase σ} {committed : List Int}
    (hreruns : Reruns migrations db committed db') {j : Nat}
    (h : AtPrefix base migrations j db) :
    AtPrefix base migrations migrations.length db' ∧
      committed = versionsBetween migrations j migrations.length ∧
      db'.schemaMigrations.isSome = true := by
  induction hreruns generalizing j with
  | success attempt db hok =>
      obtain ⟨k, -, hk, hcommitted, hdone⟩ := call_spec hnumbered attempt h
      obtain ⟨rfl, hsome⟩ := hdone hok
      exact ⟨hk, hcommitted, hsome⟩
  | again attempt db hstopped rest ih =>
      obtain ⟨k, hjk, hk, hcommitted, -⟩ := call_spec hnumbered attempt h
      obtain ⟨hdone, hrest, hsome⟩ := ih hk
      refine ⟨hdone, ?_, hsome⟩
      rw [hcommitted, hrest, versionsBetween_append hjk hk.le le_rfl]

/-- The greatest of increasing versions is the last one. -/
theorem max?_of_increasing {versions : List Int} (h : versions.Pairwise (· < ·)) :
    versions.max? = versions.getLast? := by
  cases hlast : versions.getLast? with
  | none =>
      rw [List.getLast?_eq_none_iff.mp hlast]
      rfl
  | some last =>
      obtain ⟨front, rfl⟩ := List.getLast?_eq_some_iff.mp hlast
      rw [List.max?_eq_some_iff]
      refine ⟨by simp, ?_⟩
      intro version hversion
      rcases List.mem_append.mp hversion with hfront | hself
      · exact le_of_lt ((List.pairwise_append.mp h).2.2 version hfront last (by simp))
      · exact le_of_eq (List.mem_singleton.mp hself)

/-- After all migrations the version is that of the last. -/
theorem schemaVersion_of_all (hnumbered : (migrations.map Migration.version).Pairwise (· < ·))
    {db : MigratedDatabase σ} (h : AtPrefix base migrations migrations.length db)
    (hsome : db.schemaMigrations.isSome = true) {last : Migration σ}
    (hlast : last ∈ migrations.getLast?) : schemaVersion db = some last.version := by
  obtain ⟨rows, hrows⟩ := Option.isSome_iff_exists.mp hsome
  have hversions : rows.map MigrationRow.version = migrations.map Migration.version := by
    have hnames := h.names
    rw [hrows, Option.getD_some, List.take_length] at hnames
    have hfirst := congrArg (List.map Prod.fst) hnames
    simpa [List.map_map, Function.comp_def] using hfirst
  have hmax := max?_of_increasing hnumbered
  rw [List.getLast?_map, hlast] at hmax
  simp [schemaVersion, hrows, hversions, hmax]

/-! ## Calls that succeed -/

section Progress

variable {α : Type} {e : MigrationError}
  {run : MigratedDatabase σ → Option (α × MigratedDatabase σ)} {c : Connection σ} {n : Nat}

/-- A statement succeeds if there is time for it and the schema permits it. -/
theorem statement_succeeds (hbudget : n + 1 ≤ c.budget)
    (hrun : ∃ a db, run c.database = some (a, db)) :
    Post (statement e run) c fun r c' =>
      n ≤ c'.budget ∧ ∃ a, r = .ok a ∧ run c.database = some (a, c'.database) := by
  obtain ⟨a, db, hrun⟩ := hrun
  obtain ⟨budget, hbudget'⟩ : ∃ budget, c.budget = budget + 1 := ⟨c.budget - 1, by omega⟩
  unfold Post
  rw [statement_eq hbudget' hrun]
  exact ⟨by simp only; omega, a, rfl, hrun⟩

/-- So does a batch, by induction on the statements. -/
theorem executeBatch_succeeds (version : Int) (sql : List (σ → Option σ)) (c : Connection σ)
    (hbudget : n + sql.length ≤ c.budget)
    (hrun : ∃ schema, sql.foldlM (fun schema run => run schema) c.database.schema = some schema) :
    Post (executeBatch version sql) c fun r c' => n ≤ c'.budget ∧ r = .ok () := by
  induction sql generalizing c with
  | nil => exact ⟨hbudget, rfl⟩
  | cons first sql ih =>
      obtain ⟨schema, hschema⟩ := hrun
      rw [List.foldlM_cons] at hschema
      obtain ⟨next, hfirst, hrest⟩ := Option.bind_eq_some_iff.mp hschema
      have hbatch : executeBatch version (first :: sql) =
          (statement (.migration version) fun db =>
            (first db.schema).map fun schema => ((), { db with schema := schema })) >>=
          fun _ => executeBatch version sql := rfl
      rw [hbatch]
      refine Post.bind (statement_succeeds (n := n + sql.length)
        (by rw [List.length_cons] at hbudget; omega) ⟨(), _, by rw [hfirst]; rfl⟩) ?_ ?_
      · rintro u c₁ ⟨hbudget₁, u', -, hrun₁⟩
        apply ih c₁ hbudget₁
        obtain ⟨schema', hfirst', heq⟩ := Option.map_eq_some_iff.mp hrun₁
        have hdatabase := (Prod.mk.inj heq).2.symm
        have hsame : schema' = next := Option.some.inj (hfirst'.symm.trans hfirst)
        rw [hdatabase, hsame]
        exact ⟨schema, hrest⟩
      · rintro e' c₁ ⟨-, u', hu, -⟩
        cases hu

/-- So does a migration that is not on record. -/
theorem migrationBody_succeeds (clock : Int → Int) {migration : Migration σ}
    {rows : List MigrationRow} (hbudget : n + migration.sql.length + 2 ≤ c.budget)
    (hrun : ∃ schema, migration.run c.database.schema = some schema)
    (hrows : c.database.schemaMigrations = some rows)
    (hnew : (rows.any fun row => row.version == migration.version) = false) :
    Post (migrationBody clock migration) c fun r c' => n ≤ c'.budget ∧ r = .ok () := by
  unfold migrationBody
  refine Post.bind (Post.and (executeBatch_succeeds (n := n + 2) migration.version migration.sql c
    (by omega) hrun) (executeBatch_spec migration.version migration.sql c)) ?_ ?_
  · rintro u c₁ ⟨⟨hbudget₁, -⟩, hspec⟩
    obtain ⟨-, hrows₁, -⟩ := hspec u rfl
    refine Post.bind (statement_succeeds (n := n + 1) hbudget₁ ?_) ?_ ?_
    · rw [hrows₁, hrows, Option.bind_some, hnew]
      exact ⟨(), _, rfl⟩
    · rintro v c₂ ⟨hbudget₂, -⟩
      refine Post.bind (statement_succeeds (n := n) hbudget₂ ⟨(), _, rfl⟩) ?_ ?_
      · rintro w c₃ ⟨hbudget₃, -⟩
        rw [post_modify]
        exact ⟨hbudget₃, rfl⟩
      · rintro e' c₃ ⟨-, w, hw, -⟩
        cases hw
    · rintro e' c₂ ⟨-, v, hv, -⟩
      cases hv
  · rintro e' c₁ ⟨⟨-, he⟩, -⟩
    cases he

/-- Statements that a migration takes at most. -/
def Migration.cost (migration : Migration σ) : Nat := migration.sql.length + 4

/-- So does a migration that may be on record. -/
theorem applyMigration_succeeds (clock : Int → Int) (migration : Migration σ)
    (hbudget : n + migration.cost ≤ c.budget)
    (hsome : c.database.schemaMigrations.isSome = true)
    (hrun : ((c.database.schemaMigrations.getD []).any fun row =>
        row.version == migration.version) = false →
      ∃ schema, migration.run c.database.schema = some schema) :
    Post (applyMigration clock migration) c fun r c' => n ≤ c'.budget ∧ r = .ok () := by
  obtain ⟨rows, hrows⟩ := Option.isSome_iff_exists.mp hsome
  rw [hrows, Option.getD_some] at hrun
  unfold Migration.cost at hbudget
  unfold applyMigration
  refine Post.bind (statement_succeeds (n := n + migration.sql.length + 3) (by omega) ?_) ?_ ?_
  · rw [hrows]
    exact ⟨_, _, rfl⟩
  · rintro applied c₁ ⟨hbudget₁, applied', heq, hrun₁⟩
    cases heq
    obtain ⟨rows', hrows', hfound⟩ := Option.map_eq_some_iff.mp hrun₁
    obtain ⟨happlied, hdatabase⟩ := Prod.mk.inj hfound
    have hsame : rows' = rows := Option.some.inj (hrows'.symm.trans hrows)
    rw [hsame] at happlied
    cases applied with
    -- Only the query for the version has been executed.
    | true =>
        have hkept : n ≤ c₁.budget := by omega
        exact ⟨hkept, rfl⟩
    | false =>
        refine Post.bind (statement_succeeds (n := n + migration.sql.length + 2) hbudget₁
          ⟨(), _, rfl⟩) ?_ ?_
        · rintro u c₂ ⟨hbudget₂, u', -, hrun₂⟩
          have hdatabase₂ : c₂.database = c.database :=
            ((Prod.mk.inj (Option.some.inj hrun₂)).2.symm).trans hdatabase.symm
          -- The statements of the migration and the last two fit in the budget.
          have hbody := migrationBody_succeeds clock (n := n) hbudget₂
            (by rw [hdatabase₂]; exact hrun happlied) (by rw [hdatabase₂, hrows]) happlied
          rw [post_transaction]
          refine hbody.mono ?_
          rintro r c₃ ⟨hbudget₃, rfl⟩
          exact ⟨hbudget₃, rfl⟩
        · rintro e' c₂ ⟨-, u, hu, -⟩
          cases hu
  · rintro e' c₁ ⟨-, a, ha, -⟩
    cases ha

end Progress

/-- The next migration runs where all of them do. -/
theorem run_next {final : σ} (hfinal : schemaAfter base migrations = some final) {j : Nat}
    {db : MigratedDatabase σ} (h : AtPrefix base migrations j db) {migration : Migration σ}
    (hmigration : migrations[j]? = some migration) :
    ∃ schema, migration.run db.schema = some schema := by
  obtain ⟨hj, hget⟩ := List.getElem?_eq_some_iff.mp hmigration
  have hsplit : migrations = migrations.take j ++ migration :: migrations.drop (j + 1) := by
    rw [← hget, ← List.drop_eq_getElem_cons hj, List.take_append_drop]
  have hbefore : (migrations.take j).foldlM (fun schema migration => migration.run schema) base =
      some db.schema := h.schema
  unfold schemaAfter at hfinal
  rw [hsplit, List.foldlM_append, hbefore] at hfinal
  obtain ⟨reached, hreached, hrest⟩ := Option.bind_eq_some_iff.mp hfinal
  cases hreached
  rw [List.foldlM_cons] at hrest
  obtain ⟨schema, hrun, -⟩ := Option.bind_eq_some_iff.mp hrest
  exact ⟨schema, hrun⟩

/-- So do all of them, by induction on those that are left. -/
theorem forEach_succeeds (clock : Int → Int) {final : σ}
    (hfinal : schemaAfter base migrations = some final)
    (hnumbered : (migrations.map Migration.version).Pairwise (· < ·)) :
    ∀ (rest pre : List (Migration σ)) (j : Nat) (c : Connection σ), migrations = pre ++ rest →
      pre.length ≤ j → AtPrefix base migrations j c.database →
      c.database.schemaMigrations.isSome = true → (rest.map Migration.cost).sum ≤ c.budget →
      Post (forEach rest (applyMigration clock)) c fun r _ => r = .ok () := by
  intro rest
  induction rest with
  | nil =>
      intro pre j c _ _ _ _ _
      rfl
  | cons migration rest ih =>
      intro pre j c hsplit hpre h hsome hbudget
      have hmigration : migrations[pre.length]? = some migration := by
        rw [hsplit]
        simp
      have hsplit' : migrations = (pre ++ [migration]) ++ rest := by
        rw [hsplit, List.append_assoc]
        rfl
      rw [List.map_cons, List.sum_cons] at hbudget
      have hrecorded := h.any_version_iff hnumbered hmigration
      -- Each migration leaves what the rest needs of the budget.
      have hsucceeds := applyMigration_succeeds clock migration (c := c)
        (n := (rest.map Migration.cost).sum) (by omega) hsome (by
          intro hnew
          have hj : j = pre.length := by
            have hnot : ¬ pre.length < j := fun hlt => by
              rw [hrecorded.mpr hlt] at hnew
              cases hnew
            omega
          exact run_next hfinal h (hj ▸ hmigration))
      refine Post.bind (hsucceeds.and (applyMigration_spec clock hnumbered hpre hmigration h))
        ?_ ?_
      · rintro u c₁ ⟨⟨hbudget₁, -⟩, hspec⟩
        rcases hspec with ⟨-, hdatabase, hskipped⟩ | ⟨-, hj, -, hprefix, hsome₁⟩
        · have hlt := hskipped rfl
          exact ih (pre ++ [migration]) j c₁ hsplit' (by simp; omega) (hdatabase ▸ h)
            (hdatabase ▸ hsome) hbudget₁
        · exact ih (pre ++ [migration]) (j + 1) c₁ hsplit' (by simp; omega) hprefix hsome₁
            hbudget₁
      · rintro e c₁ ⟨⟨-, he⟩, -⟩
        cases he

/-- A call that is not stopped early succeeds. -/
theorem call_succeeds {final : σ} (hfinal : schemaAfter base migrations = some final)
    (hnumbered : (migrations.map Migration.version).Pairwise (· < ·)) {j : Nat}
    {db : MigratedDatabase σ} (h : AtPrefix base migrations j db) (attempt : Attempt)
    (hbudget : (migrations.map Migration.cost).sum + 1 ≤ attempt.budget) :
    (call migrations attempt db).1 = .ok () := by
  have hpost : Post (applyMigrations attempt.clock migrations)
      ⟨db, attempt.fault, attempt.budget, []⟩ fun r _ => r = .ok () := by
    unfold applyMigrations
    refine Post.bind (statement_succeeds hbudget ⟨(), _, rfl⟩) ?_ ?_
    · rintro u c₁ ⟨hbudget₁, u', -, hrun⟩
      have hdatabase := (Prod.mk.inj (Option.some.inj hrun)).2.symm
      have hprefix : AtPrefix base migrations j c₁.database := by
        rw [hdatabase]
        exact ⟨h.le, h.schema, h.names⟩
      exact forEach_succeeds attempt.clock hfinal hnumbered migrations [] j c₁ rfl (by simp)
        hprefix (by rw [hdatabase]; rfl) hbudget₁
    · rintro e c₁ ⟨-, u, hu, -⟩
      cases hu
  exact hpost

end OneMigration

/-- From a database with the first `k` migrations, every call leaves a whole number of migrations
behind, named by its table, having committed just the new ones; calls repeated until one succeeds
commit every missing migration once and in order, and the schema has the last version; and where
the migrations can run at all, a call that is not stopped succeeds. -/
theorem migrations_recover (base : σ) (migrations : List (Migration σ))
    (hnumbered : (migrations.map Migration.version).Pairwise (· < ·)) (k : Nat)
    (db : MigratedDatabase σ) (h : AtPrefix base migrations k db) :
    (∀ attempt, ∃ k', k ≤ k' ∧
      AtPrefix base migrations k' (call migrations attempt db).2.database ∧
      (call migrations attempt db).2.committed =
        ((migrations.take k').drop k).map Migration.version) ∧
    (∀ committed db', Reruns migrations db committed db' →
      AtPrefix base migrations migrations.length db' ∧
      committed = (migrations.drop k).map Migration.version ∧
      ∀ last ∈ migrations.getLast?, schemaVersion db' = some last.version) ∧
    ((∃ final, schemaAfter base migrations = some final) → ∃ budget, ∀ attempt,
      budget ≤ attempt.budget → (call migrations attempt db).1 = .ok ()) := by
  refine ⟨?_, ?_, ?_⟩
  · intro attempt
    obtain ⟨k', hle, hprefix, hcommitted, -⟩ := call_spec hnumbered attempt h
    exact ⟨k', hle, hprefix, hcommitted⟩
  · intro committed db' hreruns
    obtain ⟨hall, hcommitted, hsome⟩ := reruns_spec hnumbered hreruns h
    refine ⟨hall, ?_, fun last hlast => schemaVersion_of_all hnumbered hall hsome hlast⟩
    rw [hcommitted, versionsBetween, List.take_length]
  · rintro ⟨final, hfinal⟩
    exact ⟨(migrations.map Migration.cost).sum + 1, call_succeeds hfinal hnumbered h⟩

/-! ## Two migrations, and a crash between them -/

/-- A schema given by its tables, and a statement that creates one. -/
def createTable (name : String) (tables : List String) : Option (List String) :=
  if name ∈ tables then none else some (tables ++ [name])

/-- The first two migrations, by what they create. -/
def twoMigrations : List (Migration (List String)) :=
  [⟨1, "initial deterministic core", [createTable "entities", createTable "audit_records"]⟩,
    ⟨2, "desktop interaction and AI control plane", [createTable "application_settings"]⟩]

/-- The process crashes in the second migration; the next call goes through. -/
theorem migrations_recover_crash :
    ∃ db', Reruns twoMigrations ⟨[], none⟩ [1, 2] db' ∧
      db'.schema = ["entities", "audit_records", "application_settings"] ∧
      schemaVersion db' = some 2 := by
  have hstart : AtPrefix [] twoMigrations 0 ⟨[], none⟩ := ⟨by decide, rfl, rfl⟩
  have hok : (call twoMigrations ⟨fun version => version, .processCrashes, 100⟩
      (call twoMigrations ⟨fun version => version, .processCrashes, 10⟩
        ⟨[], none⟩).2.database).1 = .ok () := by decide
  have hlast := Reruns.success _ _ hok
  have hreruns := Reruns.again ⟨fun version => version, .processCrashes, 10⟩ ⟨[], none⟩
    (by decide) hlast
  have hspec := (migrations_recover [] twoMigrations (by decide) 0 ⟨[], none⟩ hstart).2.1 _ _
    hreruns
  refine ⟨_, ?_, ?_, hspec.2.2 _ rfl⟩
  · have hcommitted := hspec.2.1
    rw [hcommitted] at hreruns
    exact hreruns
  · have hschema := hspec.1.schema
    exact (Option.some.inj hschema).symm

end Halquen.Storage.Migrations
