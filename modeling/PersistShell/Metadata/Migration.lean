import PersistShell.Core.Error
import PersistShell.Program.Crash

/-! The schema of the metadata database and its migration. A statement is committed on its own
unless a transaction is open; a process that dies leaves what was committed. -/

namespace PersistShell
open Program

inductive Value where
  | null
  | integer (n : Int)
  | text (s : String)
  deriving DecidableEq, Repr

structure Table where
  columns : List String
  rows : List (List Value) := []
  deriving DecidableEq, Repr

/-- The tables of the database; `none` is a table that is not there. -/
structure Tables where
  schemaVersion : Option (List Nat) := none
  sessions : Option Table := none
  sessionTags : Option (List (Nat × String)) := none
  deriving DecidableEq, Repr

namespace Migration

/-- What a connection sees, and what was there when the open transaction began. -/
structure Connection where
  tables : Tables
  before : Option Tables := none
  deriving DecidableEq, Repr

/-- What is on disk without the open transaction. -/
def Connection.committed (c : Connection) : Tables := c.before.getD c.tables

/-- The statements of `migrate`; a new table has no rows. -/
inductive Statement where
  | createSchemaVersion
  | insertFirstVersion
  | createSessions (columns : List String)
  | createSessionTags
  | selectVersion
  | addColumn (name : String) (default : Value)
  | insertVersion (version : Nat)
  | beginImmediate
  | commit
  deriving DecidableEq, Repr

def addColumn (name : String) (default : Value) (t : Table) : Table where
  columns := t.columns ++ [name]
  rows := t.rows.map (· ++ [default])

def Statement.exec (c : Connection) : Statement → Except String Connection
  | createSchemaVersion =>
    .ok { c with tables.schemaVersion := c.tables.schemaVersion <|> some [] }
  | insertFirstVersion =>
    match c.tables.schemaVersion with
    | none => .error "no such table: schema_version"
    | some [] => .ok { c with tables.schemaVersion := some [1] }
    | some _ => .ok c
  | createSessions columns =>
    .ok { c with tables.sessions := c.tables.sessions <|> some { columns } }
  | createSessionTags => .ok { c with tables.sessionTags := c.tables.sessionTags <|> some [] }
  | selectVersion => .ok c
  | addColumn name default =>
    match c.tables.sessions with
    | none => .error "no such table: sessions"
    | some t =>
      if name ∈ t.columns then .error ("duplicate column name: " ++ name)
      else .ok { c with tables.sessions := some (Migration.addColumn name default t) }
  | insertVersion version =>
    match c.tables.schemaVersion with
    | none => .error "no such table: schema_version"
    | some versions => .ok { c with tables.schemaVersion := some (versions ++ [version]) }
  | beginImmediate =>
    match c.before with
    | none => .ok { c with before := some c.tables }
    | some _ => .error "cannot start a transaction within a transaction"
  | commit =>
    match c.before with
    | none => .error "cannot commit - no transaction is active"
    | some _ => .ok { c with before := none }

abbrev Sql := Program (Mortal Connection) PersistError

def exec (s : String × Statement) (c : Connection) : Except PersistError Connection :=
  (s.2.exec c).mapError (.metadata s.1)

def executeBatch (operation : String) (batch : List Statement) : Sql Unit :=
  acts exec (batch.map (operation, ·))

/-- `SELECT COALESCE(MAX(version), 0) FROM schema_version`. -/
def maxVersion (t : Tables) : Nat := (t.schemaVersion.getD []).foldl max 0

def queryVersion : Sql Nat := do
  acts exec [("", .selectVersion)]
  read fun s => maxVersion s.state.tables

structure Step where
  version : Nat
  operation : String
  batch : List Statement

def baseColumns : List String :=
  ["session_id", "name", "status", "created_at", "updated_at", "closed_at", "cwd", "shell",
    "exit_code"]

def base : List Statement :=
  [.createSchemaVersion, .insertFirstVersion, .createSessions baseColumns]

def addNote : Step where
  version := 2
  operation := "migrate to schema version 2 (add note column)"
  batch := [.addColumn "note" .null, .insertVersion 2]

def addSessionTags : Step where
  version := 3
  operation := "migrate to schema version 3 (add session_tags table)"
  batch := [.createSessionTags, .insertVersion 3]

def addPinned : Step where
  version := 4
  operation := "migrate to schema version 4 (add pinned column)"
  batch := [.addColumn "pinned" (.integer 0), .insertVersion 4]

def addLocked : Step where
  version := 5
  operation := "migrate to schema version 5 (add locked column)"
  batch := [.addColumn "locked" (.integer 0), .insertVersion 5]

def addEnvSnapshot : Step where
  version := 6
  operation := "migrate to schema version 6 (add env snapshot column)"
  batch := [.addColumn "env_snapshot" .null, .insertVersion 6]

def addHolderFields : Step where
  version := 7
  operation := "migrate to schema version 7 (add holder reconciliation fields)"
  batch := [.beginImmediate, .addColumn "holder_instance" .null,
    .addColumn "holder_generation" .null, .insertVersion 7, .commit]

def steps : List Step :=
  [addNote, addSessionTags, addPinned, addLocked, addEnvSnapshot, addHolderFields]

def migrate : Sql Unit := do
  executeBatch "migrate metadata schema" base
  let version ← queryVersion
  forEach steps fun step =>
    if version < step.version then executeBatch step.operation step.batch else pure ()

/-- An open by a process that lives for `left` statements, and the tables it leaves behind. -/
def openStore (left : Option Nat) (t : Tables) : Outcome PersistError Unit × Tables :=
  let r := migrate ⟨{ tables := t }, left⟩
  (r.1, r.2.state.committed)

/-- Opens that die after the given numbers of statements, one after the other. -/
def interrupted (deaths : List Nat) (t : Tables) : Tables :=
  deaths.foldl (fun t n => (openStore (some n) t).2) t

/-- The columns that `list_sessions` selects. -/
def selectedColumns : List String :=
  ["session_id", "name", "status", "created_at", "updated_at", "closed_at", "cwd", "shell",
    "exit_code", "note", "pinned", "locked", "env_snapshot", "holder_instance",
    "holder_generation"]

/-- The version a database is migrated from: an empty one is as good as version 1. -/
def version (t : Tables) : Nat := max 1 (maxVersion t)

/-- The batches still to run at a version. -/
def pending (version : Nat) (steps : List Step) : List (String × Statement) :=
  (steps.filter (version < ·.version)).flatMap fun step => step.batch.map (step.operation, ·)

/-- What `migrate` executes at every version. -/
def baseScript : List (String × Statement) :=
  base.map ("migrate metadata schema", ·) ++ [("", .selectVersion)]

/-- All that `migrate` executes at a version, in order. -/
def script (version : Nat) : List (String × Statement) := baseScript ++ pending version steps

/-- A process that stops after `n` of the statements stops between an `ALTER TABLE` that is
committed at once and the version record that belongs to it. -/
def Midway (statements : List (String × Statement)) (n : Nat) : Prop :=
  (∃ operation name default,
    (statements.take n).getLast? = some (operation, .addColumn name default)) ∧
  ∀ s ∈ statements.take n, s.2 ≠ .beginImmediate

/-- The opens die, but none of them midway. -/
def NoneTorn : List Nat → Tables → Prop
  | [], _ => True
  | n :: deaths, t => ¬ Midway (script (version t)) n ∧ NoneTorn deaths (openStore (some n) t).2

def Step.columns (step : Step) : List String :=
  step.batch.filterMap fun
    | .addColumn name _ => some name
    | _ => none

def columnsAt (version : Nat) : List String :=
  baseColumns ++ (steps.filter (·.version ≤ version)).flatMap Step.columns

/-- A database at some version up to the current one, or one that was left while it was being
brought there. -/
structure Resumable (t : Tables) : Prop where
  known : version t ≤ 7
  columns : ∀ s, t.sessions = some s → s.columns = columnsAt (version t)
  sessions : 1 < version t → t.sessions ≠ none
  tags : 3 ≤ version t → t.sessionTags ≠ none

/-- The schema that this version of the code works with. -/
structure Current (t : Tables) : Prop where
  version : maxVersion t = 7
  columns : ∃ s, t.sessions = some s ∧ s.columns = selectedColumns
  tags : t.sessionTags ≠ none

def Tables.sessionRows (t : Tables) : List (List Value) := (t.sessions.map (·.rows)).getD []

def Tables.tagRows (t : Tables) : List (Nat × String) := t.sessionTags.getD []

/-- Every row is still there, with the same values and in the same place; new columns come
behind them. -/
def Kept (t d : Tables) : Prop :=
  (∃ extra, Tables.sessionRows d = (Tables.sessionRows t).map (· ++ extra)) ∧
    Tables.tagRows d = Tables.tagRows t

theorem Kept.refl (t : Tables) : Kept t t := ⟨⟨[], by simp⟩, rfl⟩

theorem Kept.trans {a b c : Tables} (hab : Kept a b) (hbc : Kept b c) : Kept a c := by
  obtain ⟨⟨e, he⟩, htags⟩ := hab
  obtain ⟨⟨e', he'⟩, htags'⟩ := hbc
  refine ⟨⟨e ++ e', ?_⟩, htags'.trans htags⟩
  rw [he', he, List.map_map]
  simp [Function.comp_def]

/-- The tables that the steps find once the first batch is through. -/
structure Ready (k : Nat) (t : Tables) : Prop where
  version_eq : version t = k
  versions : t.schemaVersion ≠ none
  columns : ∃ s, t.sessions = some s ∧ s.columns = columnsAt k
  tags : 3 ≤ k → t.sessionTags ≠ none

theorem Ready.resumable {k : Nat} {t : Tables} (h : Ready k t) (hk : k ≤ 7) : Resumable t where
  known := by rw [h.version_eq]; exact hk
  columns s hs := by
    obtain ⟨s', hs', hcolumns⟩ := h.columns
    rw [h.version_eq, ← hcolumns, Option.some.inj (hs.symm.trans hs')]
  sessions _ hnone := by
    obtain ⟨s, hs, _⟩ := h.columns
    rw [hs] at hnone
    cases hnone
  tags := by rw [h.version_eq]; exact h.tags

section base

/-- `INSERT … WHERE NOT EXISTS`. -/
def firstVersion : List Nat → List Nat
  | [] => [1]
  | versions => versions

/-- What the first batch makes of the tables. -/
def opened (t : Tables) : Tables where
  schemaVersion := some (firstVersion (t.schemaVersion.getD []))
  sessions := some (t.sessions.getD { columns := baseColumns })
  sessionTags := t.sessionTags

theorem exec_createSchemaVersion (op : String) (t : Tables) :
    exec (op, .createSchemaVersion) ⟨t, none⟩ =
      .ok ⟨{ t with schemaVersion := some (t.schemaVersion.getD []) }, none⟩ := by
  rcases t with ⟨_ | versions, _, _⟩ <;> rfl

theorem exec_insertFirstVersion (op : String) (t : Tables) {versions : List Nat}
    (h : t.schemaVersion = some versions) :
    exec (op, .insertFirstVersion) ⟨t, none⟩ =
      .ok ⟨{ t with schemaVersion := some (firstVersion versions) }, none⟩ := by
  rcases t with ⟨_, _, _⟩
  cases h
  cases versions <;> rfl

theorem exec_createSessions (op : String) (columns : List String) (t : Tables) :
    exec (op, .createSessions columns) ⟨t, none⟩ =
      .ok ⟨{ t with sessions := some (t.sessions.getD { columns }) }, none⟩ := by
  rcases t with ⟨_, _ | s, _⟩ <;> rfl

theorem version_firstVersion (t : Tables) :
    version { t with schemaVersion := some (firstVersion (t.schemaVersion.getD [])) } =
      version t := by
  rcases t with ⟨_ | _ | versions, _, _⟩ <;> rfl

theorem base_run (t : Tables) : perform exec baseScript ⟨t, none⟩ = .ok ⟨opened t, none⟩ := by
  refine (perform_cons_ok (exec_createSchemaVersion _ t)).trans ?_
  refine (perform_cons_ok (exec_insertFirstVersion _ _ rfl)).trans ?_
  exact perform_cons_ok (exec_createSessions _ _ _)

/-- However far the first batch gets, the version and the rows stay. -/
theorem base_take (t : Tables) (n : Nat) :
    ∃ d, perform exec (baseScript.take n) ⟨t, none⟩ = .ok ⟨d, none⟩ ∧ version d = version t ∧
      d.sessionTags = t.sessionTags ∧
      (d.sessions = t.sessions ∨
        d.sessions = some (t.sessions.getD { columns := baseColumns })) := by
  have hfirst := exec_createSchemaVersion "migrate metadata schema" t
  have hsecond := exec_insertFirstVersion "migrate metadata schema"
    { t with schemaVersion := some (t.schemaVersion.getD []) } rfl
  match n with
  | 0 => exact ⟨t, rfl, rfl, rfl, Or.inl rfl⟩
  | 1 =>
    refine ⟨_, perform_cons_ok hfirst, ?_, rfl, Or.inl rfl⟩
    rcases t with ⟨_ | versions, _, _⟩ <;> rfl
  | 2 =>
    exact ⟨_, (perform_cons_ok hfirst).trans (perform_cons_ok hsecond), version_firstVersion t,
      rfl, Or.inl rfl⟩
  | n + 3 =>
    refine ⟨opened t, ?_, version_firstVersion t, rfl, Or.inr rfl⟩
    cases n with
    | zero =>
      exact (perform_cons_ok hfirst).trans
        ((perform_cons_ok hsecond).trans (perform_cons_ok (exec_createSessions _ _ _)))
    | succ n =>
      rw [List.take_of_length_le (by simp [baseScript, base])]
      exact base_run t

variable {t d : Tables}

theorem kept_of_base (htags : d.sessionTags = t.sessionTags)
    (hsessions : d.sessions = t.sessions ∨
      d.sessions = some (t.sessions.getD { columns := baseColumns })) : Kept t d := by
  refine ⟨⟨[], ?_⟩, by rw [Tables.tagRows, htags]; rfl⟩
  rcases hsessions with h | h
  · simp [Tables.sessionRows, h]
  · cases hs : t.sessions <;> simp [Tables.sessionRows, h, hs]

theorem columns_of_base (h : Resumable t) {s : Table}
    (hs : t.sessions.getD { columns := baseColumns } = s) : s.columns = columnsAt (version t) := by
  cases hsessions : t.sessions with
  | some s' =>
    rw [hsessions] at hs
    rw [← hs]
    exact h.columns s' hsessions
  | none =>
    rw [hsessions] at hs
    have hversion : version t = 1 := by
      have hle := mt h.sessions (not_not_intro hsessions)
      have hpos : 1 ≤ version t := Nat.le_max_left _ _
      omega
    rw [← hs, hversion]
    rfl

theorem resumable_of_base (h : Resumable t) (hversion : version d = version t)
    (htags : d.sessionTags = t.sessionTags)
    (hsessions : d.sessions = t.sessions ∨
      d.sessions = some (t.sessions.getD { columns := baseColumns })) : Resumable d where
  known := hversion ▸ h.known
  columns s hs := by
    rw [hversion]
    rcases hsessions with hd | hd
    · exact h.columns s (hd.symm.trans hs)
    · exact columns_of_base h (Option.some.inj (hd.symm.trans hs))
  sessions hlt := by
    rcases hsessions with hd | hd
    · rw [hd]
      exact h.sessions (hversion ▸ hlt)
    · rw [hd]
      exact Option.some_ne_none _
  tags hle := by
    rw [htags]
    exact h.tags (hversion ▸ hle)

theorem version_opened (t : Tables) : version (opened t) = version t := version_firstVersion t

theorem opened_ready (h : Resumable t) : Ready (version t) (opened t) where
  version_eq := version_opened t
  versions := Option.some_ne_none _
  columns := ⟨_, rfl, columns_of_base h rfl⟩
  tags := h.tags

end base

section steps

def Step.script (step : Step) : List (String × Statement) := step.batch.map (step.operation, ·)

/-- A step takes tables at version `k` to version `k + 1`. Cut off midway it leaves a column that
its first statement will not add again; cut off elsewhere it leaves the tables resumable. -/
structure Step.Spec (step : Step) (k : Nat) : Prop where
  version_eq : step.version = k + 1
  done : ∀ t, Ready k t → ∃ d, perform exec step.script ⟨t, none⟩ = .ok ⟨d, none⟩ ∧
    Ready (k + 1) d ∧ Kept t d
  cut : ∀ t, Ready k t → ∀ n < step.batch.length, ∃ c,
    perform exec (step.script.take n) ⟨t, none⟩ = .ok c ∧
    (Midway step.script n → Migration.version c.committed = k ∧
      ∃ s name default rest, c.committed.sessions = some s ∧ name ∈ s.columns ∧
        step.batch = .addColumn name default :: rest) ∧
    (¬ Midway step.script n → Migration.version c.committed = k ∧ Resumable c.committed ∧
      Kept t c.committed)

theorem exec_addColumn (op : String) {name : String} {default : Value} {c : Connection} {s : Table}
    (hs : c.tables.sessions = some s) (hname : name ∉ s.columns) :
    exec (op, .addColumn name default) c =
      .ok { c with tables.sessions := some (addColumn name default s) } := by
  simp [exec, Statement.exec, hs, hname, Except.mapError]

theorem exec_addColumn_again (op : String) {name : String} {default : Value} {c : Connection}
    {s : Table} (hs : c.tables.sessions = some s) (hname : name ∈ s.columns) :
    exec (op, .addColumn name default) c =
      .error (.metadata op ("duplicate column name: " ++ name)) := by
  simp [exec, Statement.exec, hs, hname, Except.mapError]

theorem exec_insertVersion (op : String) {v : Nat} {c : Connection} {versions : List Nat}
    (h : c.tables.schemaVersion = some versions) :
    exec (op, .insertVersion v) c =
      .ok { c with tables.schemaVersion := some (versions ++ [v]) } := by
  simp [exec, Statement.exec, h, Except.mapError]

theorem exec_createSessionTags (op : String) (c : Connection) :
    exec (op, .createSessionTags) c =
      .ok { c with tables.sessionTags := some (c.tables.sessionTags.getD []) } := by
  rcases c with ⟨⟨_, _, _ | tags⟩, _⟩ <;> rfl

theorem version_insert {t : Tables} {versions : List Nat} {k : Nat}
    (h : t.schemaVersion = some versions) (hk : version t = k) :
    version { t with schemaVersion := some (versions ++ [k + 1]) } = k + 1 := by
  simp only [version, maxVersion, h, Option.getD_some, List.foldl_append, List.foldl_cons,
    List.foldl_nil] at hk ⊢
  omega

theorem kept_addColumn {t d : Tables} {s : Table} {name : String} {default : Value}
    (hs : t.sessions = some s) (hd : d.sessions = some (addColumn name default s))
    (htags : d.sessionTags = t.sessionTags) : Kept t d := by
  refine ⟨⟨[default], ?_⟩, by rw [Tables.tagRows, htags]; rfl⟩
  simp [Tables.sessionRows, hs, hd, addColumn]

theorem not_midway_zero (statements : List (String × Statement)) : ¬ Midway statements 0 := by
  rintro ⟨⟨_, _, _, h⟩, _⟩
  cases h

/-- A step that adds one column and is not in a transaction. -/
theorem column_spec {step : Step} {k : Nat} {name : String} {default : Value}
    (hversion : step.version = k + 1)
    (hbatch : step.batch = [.addColumn name default, .insertVersion (k + 1)])
    (hnew : name ∉ columnsAt k) (hcolumns : columnsAt (k + 1) = columnsAt k ++ [name])
    (htags : 3 ≤ k + 1 → 3 ≤ k) (hk : k ≤ 7) : step.Spec k where
  version_eq := hversion
  done t h := by
    obtain ⟨s, hs, hc⟩ := h.columns
    obtain ⟨versions, hversions⟩ := Option.ne_none_iff_exists'.mp h.versions
    have hadd := @exec_addColumn step.operation name default ⟨t, none⟩ s hs
      (by rw [hc]; exact hnew)
    have hinsert := exec_insertVersion step.operation (v := k + 1)
      (c := ⟨{ t with sessions := some (addColumn name default s) }, none⟩) hversions
    rw [Step.script, hbatch]
    refine ⟨_, (perform_cons_ok hadd).trans (perform_cons_ok hinsert), ?_,
      kept_addColumn hs rfl rfl⟩
    exact {
      version_eq := version_insert hversions h.version_eq
      versions := Option.some_ne_none _
      columns := ⟨_, rfl, by rw [hcolumns, ← hc]; rfl⟩
      tags := fun hle => h.tags (htags hle) }
  cut t h n hn := by
    obtain ⟨s, hs, hc⟩ := h.columns
    have hadd := @exec_addColumn step.operation name default ⟨t, none⟩ s hs
      (by rw [hc]; exact hnew)
    rw [hbatch] at hn
    match n, hn with
    | 0, _ =>
      exact ⟨_, rfl, fun hmid => absurd hmid (not_midway_zero _),
        fun _ => ⟨h.version_eq, h.resumable hk, Kept.refl t⟩⟩
    | 1, _ =>
      rw [Step.script, hbatch]
      refine ⟨_, perform_cons_ok hadd, fun _ => ⟨h.version_eq, ?_⟩,
        fun hmid => absurd ?_ hmid⟩
      · exact ⟨_, name, default, _, rfl, by simp [addColumn], rfl⟩
      · exact ⟨⟨_, _, _, rfl⟩, by simp⟩

theorem addNote_spec : addNote.Spec 1 :=
  column_spec rfl rfl (by decide) rfl (by decide) (by decide)

theorem addPinned_spec : addPinned.Spec 3 :=
  column_spec rfl rfl (by decide) rfl (by decide) (by decide)

theorem addLocked_spec : addLocked.Spec 4 :=
  column_spec rfl rfl (by decide) rfl (by decide) (by decide)

theorem addEnvSnapshot_spec : addEnvSnapshot.Spec 5 :=
  column_spec rfl rfl (by decide) rfl (by decide) (by decide)

theorem kept_createTags {t d : Tables} (hd : d.sessions = t.sessions)
    (htags : d.sessionTags = some (t.sessionTags.getD [])) : Kept t d :=
  ⟨⟨[], by simp [Tables.sessionRows, hd]⟩, by simp [Tables.tagRows, htags]⟩

theorem addSessionTags_spec : addSessionTags.Spec 2 where
  version_eq := rfl
  done t h := by
    obtain ⟨versions, hversions⟩ := Option.ne_none_iff_exists'.mp h.versions
    have htags := exec_createSessionTags addSessionTags.operation ⟨t, none⟩
    have hinsert := exec_insertVersion addSessionTags.operation (v := 3)
      (c := ⟨{ t with sessionTags := some (t.sessionTags.getD []) }, none⟩) hversions
    refine ⟨_, (perform_cons_ok htags).trans (perform_cons_ok hinsert), ?_,
      kept_createTags rfl rfl⟩
    exact {
      version_eq := version_insert hversions h.version_eq
      versions := Option.some_ne_none _
      columns := h.columns
      tags := fun _ => Option.some_ne_none _ }
  cut t h n hn := by
    have htags := exec_createSessionTags addSessionTags.operation ⟨t, none⟩
    match n, hn with
    | 0, _ =>
      exact ⟨_, rfl, fun hmid => absurd hmid (not_midway_zero _),
        fun _ => ⟨h.version_eq, h.resumable (by decide), Kept.refl t⟩⟩
    | 1, _ =>
      refine ⟨_, perform_cons_ok htags, ?_, fun _ => ⟨h.version_eq, ?_, kept_createTags rfl rfl⟩⟩
      · rintro ⟨⟨_, _, _, hlast⟩, _⟩
        cases hlast
      · refine Ready.resumable ?_ (k := 2) (by decide)
        exact ⟨h.version_eq, h.versions, h.columns, fun _ => Option.some_ne_none _⟩

section holder

def withInstance (s : Table) : Table := addColumn "holder_instance" .null s

def withHolder (s : Table) : Table := addColumn "holder_generation" .null (withInstance s)

variable {t : Tables} {s : Table}

theorem holder_instance_run (hs : t.sessions = some s) (hc : s.columns = columnsAt 6) :
    exec (addHolderFields.operation, .addColumn "holder_instance" .null) ⟨t, some t⟩ =
      .ok ⟨{ t with sessions := some (withInstance s) }, some t⟩ :=
  exec_addColumn _ (c := ⟨t, some t⟩) hs (by rw [hc]; decide)

theorem holder_generation_run (hc : s.columns = columnsAt 6) :
    exec (addHolderFields.operation, .addColumn "holder_generation" .null)
        ⟨{ t with sessions := some (withInstance s) }, some t⟩ =
      .ok ⟨{ t with sessions := some (withHolder s) }, some t⟩ :=
  exec_addColumn _ (c := ⟨{ t with sessions := some (withInstance s) }, some t⟩) rfl
    (by simp only [withInstance, addColumn, hc]; decide)

theorem holder_version_run {versions : List Nat} (hversions : t.schemaVersion = some versions) :
    exec (addHolderFields.operation, .insertVersion 7)
        ⟨{ t with sessions := some (withHolder s) }, some t⟩ =
      .ok ⟨{ t with sessions := some (withHolder s), schemaVersion := some (versions ++ [7]) },
        some t⟩ :=
  exec_insertVersion _ (c := ⟨{ t with sessions := some (withHolder s) }, some t⟩) hversions

/-- Between `BEGIN` and `COMMIT` the tables of before are kept. -/
theorem holder_take (h : Ready 6 t) (n : Nat) (hn : n < 4) :
    ∃ tables, perform exec (addHolderFields.script.take (n + 1)) ⟨t, none⟩ =
      .ok ⟨tables, some t⟩ := by
  obtain ⟨s, hs, hc⟩ := h.columns
  obtain ⟨versions, hversions⟩ := Option.ne_none_iff_exists'.mp h.versions
  have hbegin : exec (addHolderFields.operation, .beginImmediate) ⟨t, none⟩ = .ok ⟨t, some t⟩ :=
    rfl
  match n, hn with
  | 0, _ => exact ⟨_, perform_cons_ok hbegin⟩
  | 1, _ => exact ⟨_, (perform_cons_ok hbegin).trans (perform_cons_ok (holder_instance_run hs hc))⟩
  | 2, _ =>
    exact ⟨_, (perform_cons_ok hbegin).trans ((perform_cons_ok (holder_instance_run hs hc)).trans
      (perform_cons_ok (holder_generation_run hc)))⟩
  | 3, _ =>
    exact ⟨_, (perform_cons_ok hbegin).trans ((perform_cons_ok (holder_instance_run hs hc)).trans
      ((perform_cons_ok (holder_generation_run hc)).trans
        (perform_cons_ok (holder_version_run hversions))))⟩

theorem addHolderFields_spec : addHolderFields.Spec 6 where
  version_eq := rfl
  done t h := by
    obtain ⟨s, hs, hc⟩ := h.columns
    obtain ⟨versions, hversions⟩ := Option.ne_none_iff_exists'.mp h.versions
    have hbegin : exec (addHolderFields.operation, .beginImmediate) ⟨t, none⟩ = .ok ⟨t, some t⟩ :=
      rfl
    refine ⟨_, (perform_cons_ok hbegin).trans ((perform_cons_ok (holder_instance_run hs hc)).trans
      ((perform_cons_ok (holder_generation_run hc)).trans
        ((perform_cons_ok (holder_version_run hversions)).trans (perform_cons_ok rfl)))), ?_, ?_⟩
    · exact {
        version_eq := version_insert hversions h.version_eq
        versions := Option.some_ne_none _
        columns := ⟨_, rfl, by simp only [withHolder, withInstance, addColumn, hc]; rfl⟩
        tags := fun _ => h.tags (by decide) }
    · exact (kept_addColumn (d := { t with sessions := some (withInstance s) }) hs rfl rfl).trans
        (kept_addColumn rfl rfl rfl)
  cut t h n hn := by
    have hkept : version t = 6 ∧ Resumable t ∧ Kept t t :=
      ⟨h.version_eq, h.resumable (by decide), Kept.refl t⟩
    cases n with
    | zero => exact ⟨_, rfl, fun hmid => absurd hmid (not_midway_zero _), fun _ => hkept⟩
    | succ n =>
      obtain ⟨tables, hrun⟩ := holder_take h n (Nat.lt_of_succ_lt_succ hn)
      refine ⟨_, hrun, fun hmid => ?_, fun _ => hkept⟩
      exact absurd rfl (hmid.2 (addHolderFields.operation, .beginImmediate) (by
        exact List.mem_cons_self ..))

end holder

end steps

section midway

variable {as bs : List (String × Statement)} {n : Nat}

theorem midway_append_left (h : n ≤ as.length) : Midway (as ++ bs) n ↔ Midway as n := by
  rw [Midway, Midway, List.take_append_of_le_length h]

theorem midway_append_right (h : as.length ≤ n)
    (hlast : ∀ operation name default,
      as.getLast? ≠ some (operation, Statement.addColumn name default))
    (hbegin : ∀ s ∈ as, s.2 ≠ .beginImmediate) :
    Midway (as ++ bs) n ↔ Midway bs (n - as.length) := by
  have htake : (as ++ bs).take n = as ++ bs.take (n - as.length) := by
    rw [List.take_append, List.take_of_length_le h]
  have hfree : (∀ s ∈ as ++ bs.take (n - as.length), s.2 ≠ .beginImmediate) ↔
      ∀ s ∈ bs.take (n - as.length), s.2 ≠ .beginImmediate := by
    simp only [List.mem_append]
    exact ⟨fun hall s hs => hall s (Or.inr hs),
      fun hall s hs => hs.elim (hbegin s) (hall s)⟩
  rw [Midway, Midway, htake, hfree, List.getLast?_append]
  refine and_congr_left fun _ => ?_
  cases hrest : (bs.take (n - as.length)).getLast? with
  | none =>
    constructor
    · rintro ⟨_, _, _, h⟩
      exact absurd h (hlast _ _ _)
    · rintro ⟨_, _, _, h⟩
      cases h
  | some s => rfl

end midway

section chain

/-- Tables whose next step fails on its first statement. -/
def Stuck (t : Tables) : Prop :=
  ∃ s operation name default rest, t.sessions = some s ∧
    name ∈ s.columns ∧ pending (version t) steps = (operation, .addColumn name default) :: rest

/-- The steps that lead from version `k` to the current one. -/
inductive Chain : Nat → List Step → Prop
  | done : Chain 7 []
  | step {k : Nat} {step : Step} {rest : List Step} (spec : step.Spec k) (known : k < 7)
      (next : pending k steps = (step :: rest).flatMap Step.script)
      (last : ∀ operation name default,
        step.script.getLast? ≠ some (operation, Statement.addColumn name default))
      (auto : rest ≠ [] → ∀ s ∈ step.script, s.2 ≠ .beginImmediate)
      (chain : Chain (k + 1) rest) : Chain k (step :: rest)

theorem Chain.perform {k : Nat} {rest : List Step} (h : Chain k rest) {t : Tables}
    (ht : Ready k t) : ∃ d, perform exec (rest.flatMap Step.script) ⟨t, none⟩ = .ok ⟨d, none⟩ ∧
      Ready 7 d ∧ Kept t d := by
  induction h generalizing t with
  | done => exact ⟨t, rfl, ht, Kept.refl t⟩
  | step spec _ _ _ _ _ ih =>
    obtain ⟨u, hrun, hu, hkept⟩ := spec.done t ht
    obtain ⟨d, hrest, hd, hkept'⟩ := ih hu
    exact ⟨d, (perform_append_ok hrun).trans hrest, hd, hkept.trans hkept'⟩

/-- Cut off midway, the steps leave tables that are stuck; cut off elsewhere, tables that are
resumable and have all their rows. -/
theorem Chain.cut {k : Nat} {rest : List Step} (h : Chain k rest) {t : Tables} (ht : Ready k t)
    {n : Nat} (hn : n < (rest.flatMap Step.script).length) :
    ∃ c, Program.perform exec ((rest.flatMap Step.script).take n) ⟨t, none⟩ = .ok c ∧
      (Midway (rest.flatMap Step.script) n → Stuck c.committed) ∧
      (¬ Midway (rest.flatMap Step.script) n → Resumable c.committed ∧ Kept t c.committed) := by
  induction h generalizing t n with
  | done => exact absurd hn (Nat.not_lt_zero n)
  | @step k step rest spec known next last auto chain ih =>
    have hlen : step.script.length = step.batch.length := List.length_map _
    rw [List.flatMap_cons] at hn ⊢
    by_cases hin : n < step.script.length
    · obtain ⟨c, hrun, hmid, hnot⟩ := spec.cut t ht n (hlen ▸ hin)
      rw [List.take_append_of_le_length (Nat.le_of_lt hin),
        midway_append_left (Nat.le_of_lt hin)]
      refine ⟨c, hrun, fun h => ?_, fun h => (hnot h).2⟩
      obtain ⟨hversion, s, name, default, batch, hs, hname, hbatch⟩ := hmid h
      have hnext : pending (Migration.version c.committed) steps =
          (step.operation, .addColumn name default) ::
            (batch.map (step.operation, ·) ++ rest.flatMap Step.script) := by
        rw [hversion, next, List.flatMap_cons, Step.script, hbatch]
        rfl
      exact ⟨s, step.operation, name, default, _, hs, hname, hnext⟩
    · have hle : step.script.length ≤ n := Nat.le_of_not_lt hin
      have hmore : n - step.script.length < (rest.flatMap Step.script).length := by
        rw [List.length_append] at hn
        omega
      have hrest : rest ≠ [] := by
        rintro rfl
        exact absurd hmore (Nat.not_lt_zero _)
      obtain ⟨u, hrun, hu, hkept⟩ := spec.done t ht
      obtain ⟨c, hcut, hmid, hnot⟩ := ih hu hmore
      rw [midway_append_right hle last (auto hrest), List.take_append,
        List.take_of_length_le hle]
      exact ⟨c, (perform_append_ok hrun).trans hcut, hmid,
        fun h => ⟨(hnot h).1, hkept.trans (hnot h).2⟩⟩

/-- Once all statements are through, the process is not midway. -/
theorem Chain.midway_lt {k : Nat} {rest : List Step} (h : Chain k rest) {n : Nat}
    (hmid : Midway (rest.flatMap Step.script) n) : n < (rest.flatMap Step.script).length := by
  induction h generalizing n with
  | done =>
    obtain ⟨⟨_, _, _, hlast⟩, _⟩ := hmid
    rw [List.flatMap_nil, List.take_nil] at hlast
    cases hlast
  | @step k step rest spec known next last auto chain ih =>
    rw [List.flatMap_cons] at hmid ⊢
    refine Nat.lt_of_not_le fun hle => ?_
    have hfirst : step.script.length ≤ n := by
      rw [List.length_append] at hle
      omega
    by_cases hrest : rest = []
    · subst hrest
      obtain ⟨⟨_, _, _, hlast⟩, _⟩ := hmid
      rw [List.flatMap_nil, List.append_nil, List.take_of_length_le hfirst] at hlast
      exact last _ _ _ hlast
    · have hlater := ih ((midway_append_right hfirst last (auto hrest)).mp hmid)
      rw [List.length_append] at hle
      omega

theorem chain_last {step : Step} {v : Nat} {op : String}
    (h : step.script.getLast? = some (op, .insertVersion v)) (operation name : String)
    (default : Value) :
    step.script.getLast? ≠ some (operation, Statement.addColumn name default) := by
  rw [h]
  intro heq
  cases heq

theorem chain_from_six : Chain 6 [addHolderFields] := by
  refine .step addHolderFields_spec (by decide) rfl ?_ (fun h => absurd rfl h) .done
  intro operation name default h
  cases h

theorem chain_from_five : Chain 5 [addEnvSnapshot, addHolderFields] :=
  .step addEnvSnapshot_spec (by decide) rfl (chain_last rfl) (fun _ => by decide) chain_from_six

theorem chain_from_four : Chain 4 [addLocked, addEnvSnapshot, addHolderFields] :=
  .step addLocked_spec (by decide) rfl (chain_last rfl) (fun _ => by decide) chain_from_five

theorem chain_from_three : Chain 3 [addPinned, addLocked, addEnvSnapshot, addHolderFields] :=
  .step addPinned_spec (by decide) rfl (chain_last rfl) (fun _ => by decide) chain_from_four

theorem chain_from_two :
    Chain 2 [addSessionTags, addPinned, addLocked, addEnvSnapshot, addHolderFields] :=
  .step addSessionTags_spec (by decide) rfl (chain_last rfl) (fun _ => by decide) chain_from_three

theorem chain_from_one : Chain 1 steps :=
  .step addNote_spec (by decide) rfl (chain_last rfl) (fun _ => by decide) chain_from_two

theorem chain_from (v : Nat) (hpos : 1 ≤ v) (h : v ≤ 7) :
    ∃ rest, Chain v rest ∧ pending v steps = rest.flatMap Step.script := by
  match v, hpos, h with
  | 1, _, _ => exact ⟨_, chain_from_one, rfl⟩
  | 2, _, _ => exact ⟨_, chain_from_two, rfl⟩
  | 3, _, _ => exact ⟨_, chain_from_three, rfl⟩
  | 4, _, _ => exact ⟨_, chain_from_four, rfl⟩
  | 5, _, _ => exact ⟨_, chain_from_five, rfl⟩
  | 6, _, _ => exact ⟨_, chain_from_six, rfl⟩
  | 7, _, _ => exact ⟨_, .done, rfl⟩

end chain

section opens

variable {t : Tables}

theorem version_pos (t : Tables) : 1 ≤ version t := Nat.le_max_left _ _

theorem baseScript_last (operation name : String) (default : Value) :
    baseScript.getLast? ≠ some (operation, Statement.addColumn name default) :=
  fun h => by cases h

theorem baseScript_auto : ∀ s ∈ baseScript, s.2 ≠ .beginImmediate := by decide

theorem not_midway_base {n : Nat} : ¬ Midway baseScript n := by
  rintro ⟨⟨op, name, default, hadd⟩, _⟩
  have hmem : (op, Statement.addColumn name default) ∈ baseScript :=
    List.mem_of_mem_take (List.mem_of_getLast? hadd)
  simp [baseScript, base] at hmem

theorem script_midway_lt (h : Resumable t) {n : Nat} (hmid : Midway (script (version t)) n) :
    n < (script (version t)).length := by
  obtain ⟨rest, hchain, hpending⟩ := chain_from (version t) (version_pos t) h.known
  rw [script, hpending] at hmid ⊢
  by_cases hin : n ≤ baseScript.length
  · exact absurd ((midway_append_left hin).mp hmid) not_midway_base
  · have hle : baseScript.length ≤ n := Nat.le_of_not_le hin
    have hlater := hchain.midway_lt
      ((midway_append_right hle baseScript_last baseScript_auto).mp hmid)
    rw [List.length_append]
    omega

/-- Cut off in the first batch, an open leaves tables that are resumable. -/
theorem script_cut (h : Resumable t) {n : Nat} (hn : n < (script (version t)).length) :
    ∃ c, perform exec ((script (version t)).take n) ⟨t, none⟩ = .ok c ∧
      (Midway (script (version t)) n → Stuck c.committed) ∧
      (¬ Midway (script (version t)) n → Resumable c.committed ∧ Kept t c.committed) := by
  obtain ⟨rest, hchain, hpending⟩ := chain_from (version t) (version_pos t) h.known
  have hready := opened_ready h
  have hkept : Kept t (opened t) := kept_of_base rfl (Or.inr rfl)
  rw [script, hpending] at hn ⊢
  by_cases hin : n ≤ baseScript.length
  · obtain ⟨d, hrun, hversion, htags, hsessions⟩ := base_take t n
    rw [List.take_append_of_le_length hin, midway_append_left hin]
    exact ⟨_, hrun, fun hmid => absurd hmid not_midway_base,
      fun _ => ⟨resumable_of_base h hversion htags hsessions, kept_of_base htags hsessions⟩⟩
  · have hle : baseScript.length ≤ n := Nat.le_of_not_le hin
    have hmore : n - baseScript.length < (rest.flatMap Step.script).length := by
      rw [List.length_append] at hn
      omega
    obtain ⟨c, hcut, hmid, hnot⟩ := hchain.cut hready hmore
    rw [midway_append_right hle baseScript_last baseScript_auto, List.take_append,
      List.take_of_length_le hle]
    exact ⟨c, (perform_append_ok (base_run t)).trans hcut, hmid,
      fun h => ⟨(hnot h).1, hkept.trans (hnot h).2⟩⟩

theorem script_done (h : Resumable t) :
    ∃ d, perform exec (script (version t)) ⟨t, none⟩ = .ok ⟨d, none⟩ ∧ Ready 7 d ∧ Kept t d := by
  obtain ⟨rest, hchain, hpending⟩ := chain_from (version t) (version_pos t) h.known
  obtain ⟨d, hrun, hready, hkept⟩ := hchain.perform (opened_ready h)
  have hopened : Kept t (opened t) := kept_of_base rfl (Or.inr rfl)
  rw [script, hpending]
  exact ⟨d, (perform_append_ok (base_run t)).trans hrun, hready, hopened.trans hkept⟩

theorem pending_cons {v : Nat} {step : Step} (h : v < step.version) (steps : List Step) :
    pending v (step :: steps) = step.script ++ pending v steps := by
  rw [pending, List.filter_cons_of_pos (by simpa using h)]
  rfl

theorem pending_skip {v : Nat} {step : Step} (h : ¬ v < step.version) (steps : List Step) :
    pending v (step :: steps) = pending v steps := by
  rw [pending, List.filter_cons_of_neg (by simpa using h)]
  rfl

theorem forEach_steps (v : Nat) (steps : List Step) :
    (forEach steps fun step =>
      if v < step.version then executeBatch step.operation step.batch else pure ()) =
      acts exec (pending v steps) := by
  induction steps with
  | nil => rfl
  | cons step steps ih =>
    rw [forEach_cons, ih]
    by_cases hv : v < step.version
    · rw [if_pos hv, pending_cons hv, acts_append]
      rfl
    · rw [if_neg hv, pending_skip hv]
      rfl

/-- No step leads to version 1, so that an empty table of versions is as good as version 1. -/
theorem pending_version (t : Tables) :
    pending (maxVersion t) steps = pending (version t) steps := by
  have hfilter :
      steps.filter (maxVersion t < ·.version) = steps.filter (version t < ·.version) := by
    refine List.filter_congr fun step hstep => ?_
    have htwo : 2 ≤ step.version := by
      simp only [steps, List.mem_cons, List.not_mem_nil, or_false] at hstep
      rcases hstep with rfl | rfl | rfl | rfl | rfl | rfl <;> decide
    rw [version]
    exact decide_eq_decide.mpr (by omega)
  rw [pending, pending, hfilter]

/-- The migration executes the script of the version it finds. -/
theorem migrate_eq (t : Tables) (left : Option Nat) :
    migrate ⟨⟨t, none⟩, left⟩ = acts exec (script (version t)) ⟨⟨t, none⟩, left⟩ := by
  have hunfold : migrate = acts exec baseScript >>= fun _ =>
      (Program.read fun s => maxVersion s.state.tables) >>= fun version =>
        acts exec (pending version steps) := by
    have hsteps : migrate = executeBatch "migrate metadata schema" base >>= fun _ =>
        queryVersion >>= fun version => acts exec (pending version steps) := by
      simp only [migrate, forEach_steps]
    funext s
    simp only [hsteps, queryVersion, executeBatch, baseScript, acts_append, bind_apply]
    rcases acts exec (base.map ("migrate metadata schema", ·)) s with ⟨_ | _ | _, s'⟩
    · rcases h : acts exec [("", .selectVersion)] s' with ⟨_ | _ | _, s''⟩ <;> simp only [h]
    · rfl
    · rfl
  rw [hunfold, script, acts_append]
  by_cases hleft : Lives left baseScript.length
  · have hbase := acts_done hleft (base_run t)
    rw [bind_ok hbase, bind_ok hbase, bind_ok (read_apply _ _), pending_version,
      version_opened]
  · obtain ⟨n, rfl, hn⟩ : ∃ n, left = some n ∧ n < baseScript.length := by
      simpa [Lives] using hleft
    obtain ⟨d, hrun, _⟩ := base_take t n
    rw [bind_panic (acts_cut hn hrun), bind_panic (acts_cut hn hrun)]

/-- An open that lives to its end. -/
theorem openStore_done (h : Resumable t) {left : Option Nat}
    (hleft : Lives left (script (version t)).length) :
    (openStore left t).1 = .ok () ∧ Ready 7 (openStore left t).2 ∧ Kept t (openStore left t).2 := by
  obtain ⟨d, hrun, hready, hkept⟩ := script_done h
  have hopen : openStore left t = (.ok (), d) := by
    rw [openStore, migrate_eq, acts_done hleft hrun]
    rfl
  rw [hopen]
  exact ⟨rfl, hready, hkept⟩

/-- An open that dies. -/
theorem openStore_cut (h : Resumable t) {n : Nat} (hn : n < (script (version t)).length) :
    (Midway (script (version t)) n → Stuck (openStore (some n) t).2) ∧
    (¬ Midway (script (version t)) n →
      Resumable (openStore (some n) t).2 ∧ Kept t (openStore (some n) t).2) := by
  obtain ⟨c, hrun, hmid, hnot⟩ := script_cut h hn
  have hopen : (openStore (some n) t).2 = c.committed := by
    rw [openStore, migrate_eq, acts_cut hn hrun]
  rw [hopen]
  exact ⟨hmid, hnot⟩

theorem openStore_untorn (h : Resumable t) {n : Nat} (hnot : ¬ Midway (script (version t)) n) :
    Resumable (openStore (some n) t).2 ∧ Kept t (openStore (some n) t).2 := by
  by_cases hn : n < (script (version t)).length
  · exact (openStore_cut h hn).2 hnot
  · obtain ⟨_, hready, hkept⟩ := openStore_done h (lives_some.mpr (Nat.le_of_not_lt hn))
    exact ⟨hready.resumable (Nat.le_refl 7), hkept⟩

/-- What keeps the tables stuck is left alone by the first batch. -/
theorem stuck_of_base {d : Tables} (h : Stuck t) (hversion : version d = version t)
    (hsessions : d.sessions = t.sessions ∨
      d.sessions = some (t.sessions.getD { columns := baseColumns })) : Stuck d := by
  obtain ⟨s, op, name, default, rest, hs, hname, hnext⟩ := h
  refine ⟨s, op, name, default, rest, ?_, hname, hversion ▸ hnext⟩
  rcases hsessions with hd | hd
  · rw [hd, hs]
  · rw [hd, hs]
    rfl

/-- Every later open of stuck tables fails, and leaves them stuck. -/
theorem openStore_stuck (h : Stuck t) (left : Option Nat) :
    (openStore left t).1 ≠ .ok () ∧ Stuck (openStore left t).2 := by
  obtain ⟨s, op, name, default, rest, hs, hname, hnext⟩ := id h
  rw [openStore, migrate_eq, script, hnext]
  by_cases hleft : Lives left (baseScript.length + 1)
  · have hadd := @exec_addColumn_again op name default ⟨opened t, none⟩ s
      (by simp [opened, hs]) hname
    have hfail : ∃ left', acts exec (baseScript ++ (op, .addColumn name default) :: rest)
        ⟨⟨t, none⟩, left⟩ = (.err _, ⟨_, left'⟩) := acts_fail hleft (base_run t) hadd
    obtain ⟨left', hrun⟩ := hfail
    rw [hrun]
    exact ⟨fun hok => (by cases hok), stuck_of_base h (version_opened t) (Or.inr rfl)⟩
  · obtain ⟨n, rfl, hn⟩ : ∃ n, left = some n ∧ n ≤ baseScript.length := by
      simpa [Lives, Nat.lt_succ_iff] using hleft
    obtain ⟨d, hrun, hversion, _, hsessions⟩ := base_take t n
    have hlen : n < (baseScript ++ (op, .addColumn name default) :: rest).length := by
      rw [List.length_append, List.length_cons]
      omega
    have hcut := acts_cut hlen
      ((List.take_append_of_le_length hn).symm ▸ hrun)
    rw [hcut]
    exact ⟨fun hok => (by cases hok), stuck_of_base h hversion hsessions⟩

theorem interrupted_stuck (h : Stuck t) (deaths : List Nat) : Stuck (interrupted deaths t) := by
  induction deaths generalizing t with
  | nil => exact h
  | cons n deaths ih => exact ih (openStore_stuck h (some n)).2

theorem interrupted_untorn (h : Resumable t) (deaths : List Nat) (huntorn : NoneTorn deaths t) :
    Resumable (interrupted deaths t) ∧ Kept t (interrupted deaths t) := by
  induction deaths generalizing t with
  | nil => exact ⟨h, Kept.refl t⟩
  | cons n deaths ih =>
    obtain ⟨hnext, hkept⟩ := openStore_untorn h huntorn.1
    obtain ⟨hlast, hkept'⟩ := ih hnext huntorn.2
    exact ⟨hlast, hkept.trans hkept'⟩

theorem interrupted_torn (h : Resumable t) (deaths : List Nat) (htorn : ¬ NoneTorn deaths t) :
    Stuck (interrupted deaths t) := by
  induction deaths generalizing t with
  | nil => exact absurd trivial htorn
  | cons n deaths ih =>
    by_cases hmid : Midway (script (version t)) n
    · exact interrupted_stuck ((openStore_cut h (script_midway_lt h hmid)).1 hmid) deaths
    · exact ih (openStore_untorn h hmid).1 fun hrest => htorn ⟨hmid, hrest⟩

theorem Ready.current (h : Ready 7 t) : Current t where
  version := by
    have := h.version_eq
    rw [Migration.version] at this
    omega
  columns := h.columns
  tags := h.tags (by decide)

end opens

/-- Opens of the database die, each after some number of statements; the next one lives. It
succeeds, reaches the current schema and keeps all rows if and only if none of the others died
between an `ALTER TABLE` outside a transaction and the version record that follows it. -/
theorem migration_restarts (t : Tables) (h : Resumable t) (deaths : List Nat) :
    ((openStore none (interrupted deaths t)).1 = .ok () ∧
      Current (openStore none (interrupted deaths t)).2 ∧
      Kept t (openStore none (interrupted deaths t)).2) ↔ NoneTorn deaths t := by
  constructor
  · rintro ⟨hok, _, _⟩
    refine of_not_not fun htorn => ?_
    exact (openStore_stuck (interrupted_torn h deaths htorn) none).1 hok
  · intro huntorn
    obtain ⟨hresumable, hkept⟩ := interrupted_untorn h deaths huntorn
    obtain ⟨hok, hready, hkept'⟩ := openStore_done hresumable (lives_none _)
    exact ⟨hok, hready.current, hkept.trans hkept'⟩

/-- A database without tables. -/
theorem resumable_empty : Resumable {} where
  known := by decide
  columns s hs := by cases hs
  sessions h := absurd h (by decide)
  tags h := absurd h (by decide)

theorem migration_restarts_empty :
    (openStore none (interrupted [2, 6] {})).1 = .ok () ∧
      Current (openStore none (interrupted [2, 6] {})).2 ∧
      Kept {} (openStore none (interrupted [2, 6] {})).2 := by
  refine (migration_restarts {} resumable_empty [2, 6]).mpr ⟨?_, ?_, trivial⟩
  · rintro ⟨⟨_, _, _, hlast⟩, _⟩
    cases hlast
  · rintro ⟨⟨_, _, _, hlast⟩, _⟩
    cases hlast

/-- The first open of a new database dies right after it has added the `note` column: no later
open succeeds. -/
theorem migration_stuck : ¬ ∀ t n, Resumable t →
    (openStore none (interrupted [n] t)).1 = .ok () := by
  intro h
  have hok := h {} 5 resumable_empty
  have herr : (openStore none (interrupted [5] {})).1 =
      .err (.metadata "migrate to schema version 2 (add note column)"
        "duplicate column name: note") := by decide
  rw [herr] at hok
  cases hok

end Migration
end PersistShell
