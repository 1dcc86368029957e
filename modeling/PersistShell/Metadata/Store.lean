import Mathlib.Algebra.Group.Nat.Defs
import PersistShell.Core.Error
import PersistShell.Program.NatMap

/-! The metadata database: a row for each session, and the statements that read and change
rows. A statement is atomic; whether it fails and what the clock says is up to the answers
that the database still has to give. -/

namespace PersistShell
open Program

/-- The texts of the status column. -/
inductive SessionStatus where
  | created
  | running
  | attached
  | detached
  | closed
  | lost
  deriving DecidableEq, Repr

def SessionStatus.text : SessionStatus → String
  | created => "created"
  | running => "running"
  | attached => "attached"
  | detached => "detached"
  | closed => "closed"
  | lost => "lost"

structure SessionRecord where
  name : String
  status : SessionStatus
  createdAt : String
  updatedAt : String
  closedAt : Option String := none
  cwd : Option String := none
  shell : Option String := none
  exitCode : Option Int := none
  note : Option String := none
  pinned : Bool := false
  locked : Bool := false
  envSnapshot : Option String := none
  holderInstance : Option String := none
  holderGeneration : Option Nat := none
  deriving DecidableEq, Repr

namespace SessionRecord

/-- `SET status = 'running', closed_at = NULL, exit_code = NULL, …`. -/
def setRunning (holderInstance : String) (holderGeneration : Nat) (now : String)
    (record : SessionRecord) : SessionRecord :=
  { record with
    status := .running, closedAt := none, exitCode := none,
    holderInstance := some holderInstance, holderGeneration := some holderGeneration,
    updatedAt := now }

/-- `SET status = 'closed', closed_at = COALESCE(closed_at, ?), cwd = COALESCE(?, cwd), …`. -/
def setExited (code : Int) (cwd envSnapshot : Option String) (holderInstance : String)
    (holderGeneration : Nat) (now : String) (record : SessionRecord) : SessionRecord :=
  { record with
    status := .closed, closedAt := record.closedAt <|> some now, exitCode := some code,
    cwd := cwd <|> record.cwd, envSnapshot := envSnapshot <|> record.envSnapshot,
    holderInstance := some holderInstance, holderGeneration := some holderGeneration,
    updatedAt := now }

/-- `SET status = 'lost', holder_instance = ?, holder_generation = ?, updated_at = ?`. -/
def setLost (holderInstance : String) (holderGeneration : Nat) (now : String)
    (record : SessionRecord) : SessionRecord :=
  { record with
    status := .lost, holderInstance := some holderInstance,
    holderGeneration := some holderGeneration, updatedAt := now }

/-- `SET status = 'closed', closed_at = ?, exit_code = ?, cwd = COALESCE(?, cwd), …`. -/
def setClosed (code : Int) (cwd envSnapshot : Option String) (now : String)
    (record : SessionRecord) : SessionRecord :=
  { record with
    status := .closed, closedAt := some now, exitCode := some code,
    cwd := cwd <|> record.cwd, envSnapshot := envSnapshot <|> record.envSnapshot,
    updatedAt := now }

/-- `SET status = 'running', closed_at = NULL, exit_code = NULL, updated_at = ?`. -/
def setReopened (now : String) (record : SessionRecord) : SessionRecord :=
  { record with status := .running, closedAt := none, exitCode := none, updatedAt := now }

end SessionRecord

/-- The rows by their primary key. -/
abbrev Rows := Std.ExtTreeMap Nat SessionRecord

/-- How one statement goes: the time it is made at, and the message it fails with. -/
structure Answer where
  now : String := ""
  fault : Option String := none
  deriving DecidableEq, Repr

structure Database where
  rows : Rows := {}
  answers : List Answer := []

abbrev Metadata := Program Database PersistError

namespace MetadataStore

def answer : Metadata Answer := fun db =>
  match db.answers with
  | [] => (.ok {}, db)
  | a :: rest => (.ok a, { db with answers := rest })

/-- A statement that reads. -/
def query {α : Type} (operation : String) (f : Rows → α) : Metadata α := do
  match (← answer).fault with
  | some message => throw (.metadata operation message)
  | none => read fun db => f db.rows

/-- `UPDATE sessions SET … WHERE session_id = ? AND …`: the number of rows that changed. -/
def execute (operation : String) (id : Nat) (guard : SessionRecord → Bool)
    (set : String → SessionRecord → SessionRecord) : Metadata Nat := do
  let a ← answer
  match a.fault with
  | some message => throw (.metadata operation message)
  | none =>
    match (← read (·.rows))[id]?.filter guard with
    | none => return 0
    | some record =>
      update fun db => { db with rows := db.rows.insert id (set a.now record) }
      return 1

def requireSessionUpdated (affected : Nat) : Metadata Unit :=
  rejectIf (affected = 0) (.invalidArgument "session not found")

def isAsciiHexDigit (b : UInt8) : Bool :=
  isAsciiDigit b || (97 ≤ b && b ≤ 102) || (65 ≤ b && b ≤ 70)

def validateHolderState (instance_ : String) (generation : Nat) : Except PersistError Unit := do
  rejectIf ((utf8 instance_).length ≠ 32 ∨ ¬ (utf8 instance_).all isAsciiHexDigit)
    (.invalidArgument "holder instance must be 16-byte hexadecimal")
  rejectIf (generation > 2 ^ 63 - 1)
    (.invalidArgument "holder generation exceeds metadata integer range")

def createSession (id : Nat) (name : String) (cwd shell : Option String) : Metadata Unit := do
  let a ← answer
  match a.fault with
  | some message => throw (.metadata "create session metadata" message)
  | none =>
    rejectIf ((← read (·.rows)).contains id) (PersistError.metadata "create session metadata"
      "UNIQUE constraint failed: sessions.session_id")
    let record : SessionRecord :=
      { name, status := .running, createdAt := a.now, updatedAt := a.now, cwd, shell }
    update fun db => { db with rows := db.rows.insert id record }

def getSession (id : Nat) : Metadata (Option SessionRecord) :=
  query "query get session" fun rows => rows[id]?

def listSessions : Metadata Rows :=
  query "query list sessions" fun rows => rows

/-- `COALESCE(MAX(session_id), 0)`, and the id after it. -/
def nextSessionId : Metadata Nat := do
  let highest ← query "find next session id" fun rows => rows.keys.max?.getD 0
  rejectIf (highest ≥ 2 ^ 32) (.invalidArgument "session id is out of range")
  rejectIf (highest + 1 ≥ 2 ^ 32) (.invalidArgument "session id space exhausted")
  return highest + 1

def reconcileRunning (id : Nat) (holderInstance : String) (holderGeneration : Nat) :
    Metadata Unit := do
  lift (validateHolderState holderInstance holderGeneration)
  let affected ← execute "reconcile running holder session" id (fun _ => true)
    (SessionRecord.setRunning holderInstance holderGeneration)
  requireSessionUpdated affected

def reconcileExitedWithContext (id : Nat) (exitCode : Int) (cwd envSnapshot : Option String)
    (holderInstance : String) (holderGeneration : Nat) : Metadata Unit := do
  lift (validateHolderState holderInstance holderGeneration)
  let affected ← execute "reconcile exited holder session" id (fun _ => true)
    (SessionRecord.setExited exitCode cwd envSnapshot holderInstance holderGeneration)
  requireSessionUpdated affected

/-- The statuses that `mark_lost` changes. -/
def isActive : SessionStatus → Bool
  | .running | .attached | .detached => true
  | .created | .closed | .lost => false

def markLost (id : Nat) (holderInstance : String) (holderGeneration : Nat) : Metadata Unit := do
  lift (validateHolderState holderInstance holderGeneration)
  let _ ← execute "mark missing holder session lost" id (isActive ·.status)
    (SessionRecord.setLost holderInstance holderGeneration)

def closeSessionWithContext (id : Nat) (exitCode : Int) (cwd envSnapshot : Option String) :
    Metadata Unit := do
  let _ ← execute "close session with recovery context" id (fun _ => true)
    (SessionRecord.setClosed exitCode cwd envSnapshot)

def reopenSession (id : Nat) : Metadata Unit := do
  let affected ← execute "reopen closed session" id (fun _ => true) SessionRecord.setReopened
  requireSessionUpdated affected

/-- What the second condition of a triple over the database says: when `quiet`, no statement
is going to fail. -/
structure At (quiet : Prop) (P : Rows → Prop) (db : Database) : Prop where
  answers : quiet → ∀ a ∈ db.answers, a.fault = none
  rows : P db.rows

variable {quiet : Prop} {P Q : Rows → Prop} {E : PersistError → Rows → Prop}

theorem At.mono {db : Database} (h : At quiet P db) (hPQ : ∀ rows, P rows → Q rows) :
    At quiet Q db :=
  ⟨h.answers, hPQ _ h.rows⟩

/-- An answer is given: the rows stay, and it is no fault when the database is quiet. -/
theorem answer_spec : Triple (At quiet P) answer
    (fun a db => (quiet → a.fault = none) ∧ At quiet P db) (fun e => At quiet (E e)) := by
  rintro ⟨rows, answers⟩ h
  cases answers with
  | nil => exact ⟨fun _ => rfl, h⟩
  | cons a rest =>
    have hall : quiet → ∀ b ∈ a :: rest, b.fault = none := h.answers
    exact ⟨fun hq => hall hq a List.mem_cons_self,
      fun hq b hb => hall hq b (List.mem_cons_of_mem _ hb), h.rows⟩

/-- A query returns a view of the rows, or fails where statements may fail. -/
theorem query_spec {α : Type} {operation : String} {f : Rows → α} {Q : α → Rows → Prop}
    (hread : ∀ rows, P rows → Q (f rows) rows)
    (hfault : ¬ quiet → ∀ message rows, P rows → E (.metadata operation message) rows) :
    Triple (At quiet P) (query operation f) (fun a => At quiet (Q a)) (fun e => At quiet (E e)) := by
  apply Triple.bind answer_spec
  intro a
  cases hf : a.fault with
  | some message =>
    apply Triple.fail
    intro db h
    have hloud : ¬ quiet := fun hq => nomatch h.1 hq
    exact h.2.mono (hfault hloud message)
  | none =>
    apply Triple.read
    intro db h
    exact ⟨h.2.answers, hread db.rows h.2.rows⟩

/-- A statement changes the row that it names and that meets its guard, or none. -/
theorem execute_spec {operation : String} {id : Nat} {guard : SessionRecord → Bool}
    {set : String → SessionRecord → SessionRecord} {Q : Nat → Rows → Prop}
    (hnone : ∀ rows, P rows → rows[id]?.filter guard = none → Q 0 rows)
    (hsome : ∀ rows record now, P rows → rows[id]? = some record → guard record = true →
      Q 1 (rows.insert id (set now record)))
    (hfault : ¬ quiet → ∀ message rows, P rows → E (.metadata operation message) rows) :
    Triple (At quiet P) (execute operation id guard set) (fun n => At quiet (Q n))
      (fun e => At quiet (E e)) := by
  apply Triple.bind answer_spec
  intro a
  cases hf : a.fault with
  | some message =>
    apply Triple.fail
    intro db h
    have hloud : ¬ quiet := fun hq => nomatch h.1 hq
    exact h.2.mono (hfault hloud message)
  | none =>
    apply Triple.bind (Q := fun rows => At quiet fun rows' => rows = rows' ∧ P rows')
    · apply Triple.read
      intro db h
      exact ⟨h.2.answers, rfl, h.2.rows⟩
    · intro rows
      cases hrow : rows[id]?.filter guard with
      | none =>
        apply Triple.pure
        intro db h
        refine h.mono fun rows' hrows => ?_
        obtain ⟨rfl, hP⟩ := hrows
        exact hnone rows hP hrow
      | some record =>
        obtain ⟨hget, hguard⟩ := Option.filter_eq_some_iff.mp hrow
        apply Triple.bind (Q := fun _ => At quiet (Q 1))
        · apply Triple.update
          intro db h
          refine ⟨h.answers, ?_⟩
          obtain ⟨heq, hP⟩ := h.rows
          rw [← heq] at hP ⊢
          exact hsome rows record a.now hP hget hguard
        · exact fun _ => Triple.pure fun db h => h

/-- A statement that has to find its row. -/
theorem required_spec {operation : String} {id : Nat}
    {set : String → SessionRecord → SessionRecord} {Q : Rows → Prop}
    (hmissing : ∀ rows, P rows → rows[id]? = none → E (.invalidArgument "session not found") rows)
    (hsome : ∀ rows record now, P rows → rows[id]? = some record →
      Q (rows.insert id (set now record)))
    (hfault : ¬ quiet → ∀ message rows, P rows → E (.metadata operation message) rows) :
    Triple (At quiet P) (execute operation id (fun _ => true) set >>= requireSessionUpdated)
      (fun _ => At quiet Q) (fun e => At quiet (E e)) := by
  apply Triple.bind (execute_spec
    (Q := fun n rows => (n = 0 → P rows ∧ rows[id]? = none) ∧ (n ≠ 0 → Q rows)) ?_ ?_ hfault)
  · intro n
    unfold requireSessionUpdated rejectIf
    split
    · exact Triple.fail fun db h => h.mono fun rows hrows =>
        hmissing rows (hrows.1 ‹_›).1 (hrows.1 ‹_›).2
    · exact Triple.pure fun db h => h.mono fun rows hrows => hrows.2 ‹_›
  · intro rows hP hrow
    have hget : rows[id]? = none := by
      cases hrecord : rows[id]? with
      | none => rfl
      | some record =>
        rw [hrecord] at hrow
        cases hrow
    exact ⟨fun _ => ⟨hP, hget⟩, fun h => absurd rfl h⟩
  · exact fun rows record now hP hget _ => ⟨nofun, fun _ => hsome rows record now hP hget⟩

/-- Why a statement about the holder's state of a session fails on the rows `R`. -/
inductive Rejected (quiet : Prop) (R : Rows) (id : Nat) (holderInstance : String)
    (holderGeneration : Nat) : PersistError → Prop
  | invalid {e : PersistError} (h : validateHolderState holderInstance holderGeneration = .error e) :
      Rejected quiet R id holderInstance holderGeneration e
  | missing (h : R[id]? = none) : Rejected quiet R id holderInstance holderGeneration
      (.invalidArgument "session not found")
  | fault {operation message : String} (h : ¬ quiet) :
      Rejected quiet R id holderInstance holderGeneration (.metadata operation message)

section holderState

variable {R : Rows} {id : Nat} {holderInstance : String} {holderGeneration : Nat}

theorem validate_spec : Triple (At quiet (· = R))
    (lift (validateHolderState holderInstance holderGeneration))
    (fun _ => At quiet fun rows =>
      rows = R ∧ validateHolderState holderInstance holderGeneration = .ok ())
    (fun e => At quiet fun rows =>
      rows = R ∧ Rejected quiet R id holderInstance holderGeneration e) := by
  apply Triple.lift
  · intro _ h db hdb
    exact hdb.mono fun rows hrows => ⟨hrows, h⟩
  · intro e h db hdb
    exact hdb.mono fun rows hrows => ⟨hrows, .invalid h⟩

/-- The two statements that settle a session the holder has. -/
theorem settle_spec {operation : String} {set : String → SessionRecord → SessionRecord} :
    Triple (At quiet (· = R))
      (do
        lift (validateHolderState holderInstance holderGeneration)
        let affected ← execute operation id (fun _ => true) set
        requireSessionUpdated affected)
      (fun _ => At quiet fun rows => validateHolderState holderInstance holderGeneration = .ok () ∧
        ∃ record now, R[id]? = some record ∧ rows = R.insert id (set now record))
      (fun e => At quiet fun rows =>
        rows = R ∧ Rejected quiet R id holderInstance holderGeneration e) := by
  apply Triple.bind validate_spec
  intro _
  apply required_spec
  · rintro rows ⟨rfl, -⟩ hget
    exact ⟨rfl, .missing hget⟩
  · rintro rows record now ⟨rfl, hvalid⟩ hget
    exact ⟨hvalid, record, now, hget, rfl⟩
  · rintro hloud message rows ⟨rfl, -⟩
    exact ⟨rfl, .fault hloud⟩

theorem markLost_spec : Triple (At quiet (· = R)) (markLost id holderInstance holderGeneration)
    (fun _ => At quiet fun rows => validateHolderState holderInstance holderGeneration = .ok () ∧
      (rows = R ∧ (∀ record, R[id]? = some record → isActive record.status = false) ∨
        ∃ record now, R[id]? = some record ∧ isActive record.status = true ∧
          rows = R.insert id (SessionRecord.setLost holderInstance holderGeneration now record)))
    (fun e => At quiet fun rows =>
      rows = R ∧ Rejected quiet R id holderInstance holderGeneration e) := by
  apply Triple.bind validate_spec
  intro _
  refine Triple.bind (execute_spec (Q := fun _ rows => _ ∧ (_ ∨ _)) ?_ ?_ ?_)
    fun _ => Triple.pure fun db h => h
  · rintro rows ⟨rfl, hvalid⟩ hnone
    refine ⟨hvalid, .inl ⟨rfl, fun record hget => ?_⟩⟩
    rw [hget] at hnone
    simpa using hnone
  · rintro rows record now ⟨rfl, hvalid⟩ hget hactive
    exact ⟨hvalid, .inr ⟨record, now, hget, hactive, rfl⟩⟩
  · rintro hloud message rows ⟨rfl, -⟩
    exact ⟨rfl, .fault hloud⟩

theorem closeSession_spec {code : Int} {cwd envSnapshot : Option String} :
    Triple (At quiet (· = R)) (closeSessionWithContext id code cwd envSnapshot)
      (fun _ => At quiet fun rows => (R[id]? = none ∧ rows = R) ∨
        ∃ record now, R[id]? = some record ∧
          rows = R.insert id (SessionRecord.setClosed code cwd envSnapshot now record))
      (fun e => At quiet fun rows =>
        rows = R ∧ ∃ operation message, e = .metadata operation message ∧ ¬ quiet) := by
  refine Triple.bind (execute_spec (Q := fun _ rows => _ ∨ _) ?_ ?_ ?_)
    fun _ => Triple.pure fun db h => h
  · rintro rows rfl hnone
    refine .inl ⟨?_, rfl⟩
    cases hget : rows[id]? with
    | none => rfl
    | some record =>
      rw [hget] at hnone
      cases hnone
  · rintro rows record now rfl hget -
    exact .inr ⟨record, now, hget, rfl⟩
  · rintro hloud message rows rfl
    exact ⟨rfl, _, _, rfl, hloud⟩

end holderState

end MetadataStore

end PersistShell
