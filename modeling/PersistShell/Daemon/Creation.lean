import PersistShell.Core.Json
import PersistShell.Daemon.Finalize

/-! `NewSession`, and the `Attach` that reopens a closed session: the holder starts the session,
the inventory is read again, and the row is written. When the row cannot be written, the session
is closed again. -/

namespace PersistShell
open Program MetadataStore

/-- What becomes of a request for a session. -/
structure Creation where
  /-- The error of `holder_create_request`. -/
  unprepared : Option PersistError := none
  /-- The error that the holder answers with. -/
  refusal : Option PersistError := none
  /-- The session that the holder starts otherwise, and its terminal. -/
  session : Session
  pty : PtySession
  running : session.exitCode = none

/-- `HolderRuntime::create` at the holder. -/
def Runtime.start (r : Runtime) (s : SessionId) (c : Creation) :
    Except PersistError Unit × Runtime :=
  match c.refusal with
  | some error => (.error error, r)
  | none =>
    if r.sessions.contains s then
      (.error (.invalidArgument "holder operation failed: Conflict: exists"), r)
    else (.ok (), ({ r with
      sessions := r.sessions.insert s c.session
      ptyToSession := r.ptyToSession.insert c.pty.masterFd s }).bumpGeneration)

namespace Daemon

/-- The statements that put a session on record, with the instance that runs it. -/
def bindRow (s : SessionId) (record : Metadata Unit) (snapshot : HolderInventorySnapshot) :
    Metadata Unit := do
  record
  reconcileRunning s snapshot.instanceHex snapshot.generation

/-- `holder_create_request`, and `HolderRuntime::create`. -/
def create (s : SessionId) (c : Creation) : DaemonProgram Unit := do
  match c.unprepared with
  | some error => throw error
  | none =>
    request fun r => r.start s c
    refreshInventory

section

variable [SerdeJson]

def closeSession (s : SessionId) : DaemonProgram Unit := do
  match ← prepareClose s none with
  | none => return ()
  | some closed =>
    if closed.holderRetire then retireExited s
    finishClose s

/-- The session is put on record, or closed again. -/
def recordOrClose (s : SessionId) (record : Metadata Unit) : DaemonProgram Bool := do
  match ← attempt (metadata (bindRow s record (← read (·.cache)))) with
  | .ok () => return true
  | .error _ =>
    let _ ← attempt (closeSession s)
    return false

/-- `NewSession`, when `s` is the next id: the id of the reply. -/
def newSession (s : SessionId) (c : Creation) (name : String) (cwd shell : Option String) :
    DaemonProgram SessionId := do
  match ← attempt (create s c) with
  | .error _ => return 0
  | .ok () =>
    if ← recordOrClose s (createSession s name cwd shell) then return s
    else return 0

/-- `restore_closed_session`, and what comes before it. -/
def restoreClosedSession (s : SessionId) (record : SessionRecord) (c : Creation) :
    DaemonProgram Unit := do
  let policy ← lift (← manager_).recoveryEnvironment.policy
  let _ ← lift (decodeEnvironment record.envSnapshot policy)
  if (← holderEntry s).isSome then throw (.invalidArgument "session is already running")
  create s c

/-- `HolderRuntime::attach`. -/
def attachHolder (s : SessionId) : DaemonProgram Unit := do
  request fun r => (if r.isRunning s then .ok ()
    else .error (.invalidArgument "holder operation failed: NotFound: not found"), r)
  refreshInventory

/-- Whether the client is attached. -/
def grant (s : SessionId) (locked : Bool) : DaemonProgram Bool := do
  if !locked && (← holderEntry s).isSome then
    match ← attempt (attachHolder s) with
    | .ok () => return true
    | .error _ => return false
  else return false

/-- A closed session is restored, and its row reopened. -/
def reopen (s : SessionId) (c : Creation) : Option SessionRecord → DaemonProgram Unit
  | none => pure ()
  | some record => do
    match ← attempt (restoreClosedSession s record c) with
    | .error _ => pure ()
    | .ok () => let _ ← recordOrClose s (reopenSession s)

/-- The `Attach` of a client, up to the reply: whether it is granted. -/
def attach (s : SessionId) (c : Creation) : DaemonProgram Bool := do
  let record := ((← attempt (metadata (getSession s))).toOption).join
  let locked := record.any SessionRecord.locked
  let runtimeExists := (← holderEntry s).isSome
  reopen s c (record.filter fun record => !locked && !runtimeExists && record.status = .closed)
  grant s locked

end

/-- How the call after the next `n` goes. -/
def turnAt (d : Daemon) (n : Nat) : CallTurn := d.turns[n]?.getD {}

/-- When the next call is made. -/
def turned (d : Daemon) : Daemon :=
  { d with
    turns := d.turns.tail
    holder := (d.turnAt 0).collected.foldl Runtime.collect d.holder }

/-- How a call ends: with its answer, unless that is lost. -/
def ended {α : Type} (lost : Option PersistError) (r : Except PersistError α) :
    Outcome PersistError α :=
  match lost, r with
  | some error, _ => .err error
  | none, .error error => .err error
  | none, .ok a => .ok a

section calls

variable {d d' : Daemon}

theorem turn_cases {r : Outcome PersistError CallTurn} (hrun : turn d = (r, d'))
    (hreplies : r ≠ .panic) : r = .ok (d.turnAt 0) ∧ d' = d.turned := by
  unfold turn at hrun
  unfold turnAt turned turnAt
  cases hturns : d.turns with
  | nil =>
    rw [hturns] at hrun
    cases hrun
    refine ⟨rfl, ?_⟩
    cases d
    cases hturns
    rfl
  | cons t rest =>
    rw [hturns] at hrun
    dsimp only at hrun
    split at hrun
    · cases hrun
      exact absurd rfl hreplies
    · cases hrun
      exact ⟨rfl, rfl⟩

/-- A request is not served, or served and answered unless the answer is lost. -/
theorem request_cases {α : Type} {serve : Runtime → Except PersistError α × Runtime}
    {r : Outcome PersistError α} (hrun : request serve d = (r, d')) (hreplies : r ≠ .panic) :
    (∃ error, (d.turnAt 0).fault = some error ∧ r = .err error ∧ d' = d.turned) ∨
      (d.turnAt 0).fault = none ∧ r = ended (d.turnAt 0).lost (serve d.turned.holder).1 ∧
        d' = { d.turned with holder := (serve d.turned.holder).2 } := by
  unfold request at hrun
  rcases hturn : turn d with ⟨t | e | _, d₁⟩
  · obtain ⟨ht, rfl⟩ := turn_cases hturn nofun
    cases ht
    rw [bind_ok hturn] at hrun
    cases hfault : (d.turnAt 0).fault with
    | some error =>
      rw [hfault] at hrun
      cases hrun
      exact .inl ⟨error, rfl, rfl, rfl⟩
    | none =>
      right
      rw [hfault] at hrun
      cases hlost : (d.turnAt 0).lost with
      | some error =>
        simp only [hlost] at hrun
        cases hrun
        exact ⟨rfl, rfl, rfl⟩
      | none =>
        simp only [hlost] at hrun
        have hlift : lift (serve d.turned.holder).1
            { d.turned with holder := (serve d.turned.holder).2 } = (r, d') := hrun
        cases hserved : (serve d.turned.holder).1 with
        | ok a =>
          rw [hserved] at hlift
          cases hlift
          exact ⟨rfl, rfl, rfl⟩
        | error e =>
          rw [hserved] at hlift
          cases hlift
          exact ⟨rfl, rfl, rfl⟩
  · exact absurd (turn_cases hturn nofun).1 nofun
  · rw [bind_panic hturn] at hrun
    cases hrun
    exact absurd rfl hreplies

theorem refresh_cases {r : Outcome PersistError Unit} (hrun : refreshInventory d = (r, d'))
    (hreplies : r ≠ .panic) :
    (∃ error, (d.turnAt 0).fault = some error ∧ r = .err error ∧ d' = d.turned) ∨
      (d.turnAt 0).fault = none ∧ r = .ok () ∧
        d' = { d.turned with cache := d.turned.inventory } := by
  unfold refreshInventory at hrun
  rcases hturn : turn d with ⟨t | e | _, d₁⟩
  · obtain ⟨ht, rfl⟩ := turn_cases hturn nofun
    cases ht
    rw [bind_ok hturn] at hrun
    cases hfault : (d.turnAt 0).fault with
    | some error =>
      rw [hfault] at hrun
      cases hrun
      exact .inl ⟨error, rfl, rfl, rfl⟩
    | none =>
      rw [hfault] at hrun
      cases hrun
      exact .inr ⟨rfl, rfl, rfl⟩
  · exact absurd (turn_cases hturn nofun).1 nofun
  · rw [bind_panic hturn] at hrun
    cases hrun
    exact absurd rfl hreplies

theorem metadata_cases {α : Type} {statement : Metadata α} {r : Outcome PersistError α}
    (hrun : metadata statement d = (r, d')) (hreplies : r ≠ .panic) :
    r = (statement d.database).1 ∧
      d' = { d.turned with database := (statement d.database).2 } := by
  rcases hturn : turn d with ⟨t | e | _, d₁⟩
  · obtain ⟨ht, rfl⟩ := turn_cases hturn nofun
    cases ht
    obtain ⟨hr, hd⟩ := Prod.mk.inj ((bind_ok hturn).symm.trans hrun)
    exact ⟨hr.symm, hd.symm⟩
  · exact absurd (turn_cases hturn nofun).1 nofun
  · obtain ⟨hr, -⟩ := Prod.mk.inj ((bind_panic hturn).symm.trans hrun)
    exact absurd hr.symm hreplies

/-- What is attempted goes on when the program does. -/
theorem attempt_cases {α : Type} {m : DaemonProgram α} {r : Except PersistError α}
    (hrun : attempt m d = (.ok r, d')) :
    m d = (ended none r, d') := by
  rw [attempt_apply] at hrun
  rcases hm : m d with ⟨a | e | _, d₁⟩
  · rw [hm] at hrun
    cases hrun
    rfl
  · rw [hm] at hrun
    cases hrun
    rfl
  · rw [hm] at hrun
    cases hrun

/-- The state when the holder has started the session. -/
def started (d : Daemon) (s : SessionId) (c : Creation) : Daemon :=
  { d.turned with holder := (d.turned.holder.start s c).2 }

/-- The state when the inventory has been read again, too. -/
def created (d : Daemon) (s : SessionId) (c : Creation) : Daemon :=
  { (d.started s c).turned with cache := (d.started s c).turned.inventory }

/-- The holder starts the session. -/
def Serves (d : Daemon) (s : SessionId) (c : Creation) : Prop :=
  c.unprepared = none ∧ (d.turnAt 0).fault = none ∧ (d.turned.holder.start s c).1 = .ok ()

theorem start_error {r : Runtime} {s : SessionId} {c : Creation} {e : PersistError}
    (h : (r.start s c).1 = .error e) : (r.start s c).2 = r := by
  unfold Runtime.start at h ⊢
  split at h
  · rfl
  · split at h
    · rename_i hcontains
      rw [if_pos hcontains]
    · cases h

/-- A creation fails before the holder has started the session, or behind that, or not. -/
theorem create_cases {s : SessionId} {c : Creation} {r : Except PersistError Unit}
    (hrun : attempt (create s c) d = (.ok r, d')) :
    (∃ e, r = .error e) ∧ ¬ d.Serves s c ∧ (d' = d ∨ d' = d.turned) ∨
      (∃ e, r = .error e) ∧ d.Serves s c ∧
        ((d.turnAt 0).lost.isSome ∧ d' = d.started s c ∨
          (d.turnAt 0).lost = none ∧ (d.turnAt 1).fault.isSome ∧ d' = (d.started s c).turned) ∨
      r = .ok () ∧ d.Serves s c ∧ (d.turnAt 0).lost = none ∧ (d.turnAt 1).fault = none ∧
        d' = d.created s c := by
  have hnext : ∀ c, (d.started s c).turnAt 0 = d.turnAt 1 := by
    intro c
    unfold started turnAt turned
    dsimp only
    cases d.turns <;> rfl
  have hm := attempt_cases hrun
  unfold create at hm
  cases hunprepared : c.unprepared with
  | some error =>
    rw [hunprepared] at hm
    left
    cases r with
    | ok a => cases hm
    | error e =>
      cases hm
      refine ⟨⟨_, rfl⟩, fun hserves => ?_, .inl rfl⟩
      rw [hserves.1] at hunprepared
      cases hunprepared
  | none =>
    rw [hunprepared] at hm
    dsimp only at hm
    rcases hrequest : request (fun r => r.start s c) d with ⟨r₁, d₁⟩
    cases r₁ with
    | panic =>
      rw [bind_panic hrequest] at hm
      cases r <;> cases hm
    | err e =>
      rw [bind_err hrequest] at hm
      cases r with
      | ok a => cases hm
      | error e' =>
        cases hm
        rcases request_cases hrequest nofun with
          ⟨error, hfault, -, rfl⟩ | ⟨hfault, hended, rfl⟩
        · left
          refine ⟨⟨_, rfl⟩, fun hserves => ?_, .inr rfl⟩
          rw [hserves.2.1] at hfault
          cases hfault
        · cases hserved : (d.turned.holder.start s c).1 with
          | error refusal =>
            left
            refine ⟨⟨_, rfl⟩, fun hserves => ?_, .inr ?_⟩
            · rw [hserves.2.2] at hserved
              cases hserved
            · dsimp only
              rw [start_error hserved]
          | ok a =>
            right
            left
            refine ⟨⟨_, rfl⟩, ⟨hunprepared, hfault, hserved⟩, .inl ⟨?_, rfl⟩⟩
            cases hlost : (d.turnAt 0).lost with
            | some lost => rfl
            | none =>
              rw [hlost, hserved] at hended
              cases hended
    | ok a =>
      rw [bind_ok hrequest] at hm
      rcases request_cases hrequest nofun with
        ⟨error, hfault, hend, rfl⟩ | ⟨hfault, hended, rfl⟩
      · cases hend
      have hserves : d.Serves s c ∧ (d.turnAt 0).lost = none := by
        cases hlost : (d.turnAt 0).lost with
        | some lost =>
          rw [hlost] at hended
          cases hended
        | none =>
          rw [hlost] at hended
          cases hserved : (d.turned.holder.start s c).1 with
          | error refusal =>
            rw [hserved] at hended
            cases hended
          | ok a => exact ⟨⟨hunprepared, hfault, hserved⟩, rfl⟩
      change refreshInventory (d.started s c) = _ at hm
      right
      cases r with
      | error e =>
        rcases refresh_cases hm nofun with ⟨error, hfault, -, rfl⟩ | ⟨hfault, hend, rfl⟩
        · rw [hnext] at hfault
          exact .inl ⟨⟨_, rfl⟩, hserves.1, .inr ⟨hserves.2, by rw [hfault]; rfl, rfl⟩⟩
        · cases hend
      | ok a =>
        rcases refresh_cases hm nofun with ⟨error, hfault, hend, rfl⟩ | ⟨hfault, -, rfl⟩
        · cases hend
        · rw [hnext] at hfault
          exact .inr ⟨rfl, hserves.1, hserves.2, hfault, rfl⟩

end calls

end Daemon

/-- How the statement after the next `n` goes. -/
def Database.answerAt (db : Database) (n : Nat) : Answer := db.answers[n]?.getD {}

/-- The database when the next statement is made. -/
def Database.next (db : Database) : Database := { db with answers := db.answers.tail }

namespace MetadataStore

section statements

variable {db : Database} {s : SessionId} {record : SessionRecord}

theorem answer_run (db : Database) : answer db = (.ok (db.answerAt 0), db.next) := by
  unfold answer Database.answerAt Database.next
  cases h : db.answers with
  | nil =>
    cases db
    cases h
    rfl
  | cons a rest => rfl

theorem answerAt_next (db : Database) (n : Nat) : db.next.answerAt n = db.answerAt (n + 1) := by
  unfold Database.answerAt Database.next
  dsimp only
  cases db.answers <;> rfl

theorem execute_refused {operation message : String} {guard : SessionRecord → Bool}
    {set : String → SessionRecord → SessionRecord}
    (hfault : (db.answerAt 0).fault = some message) :
    execute operation s guard set db = (.err (.metadata operation message), db.next) := by
  unfold execute
  rw [bind_ok (answer_run db), hfault]
  rfl

theorem execute_changes {operation : String} {set : String → SessionRecord → SessionRecord}
    (hfault : (db.answerAt 0).fault = none) (hrow : db.rows[s]? = some record) :
    execute operation s (fun _ => true) set db = (.ok 1, { db.next with
      rows := db.rows.insert s (set (db.answerAt 0).now record) }) := by
  have hread : (read (·.rows) : Metadata Rows) db.next = (.ok db.rows, db.next) := rfl
  unfold execute
  rw [bind_ok (answer_run db), hfault]
  dsimp only
  rw [bind_ok hread, hrow]
  rfl

/-- A row that is there is bound, unless the binding is invalid or the statement fails. -/
theorem reconcileRunning_run (holderInstance : String) (holderGeneration : Nat)
    (hrow : db.rows[s]? = some record) :
    ∃ r db', reconcileRunning s holderInstance holderGeneration db = (r, db') ∧ r ≠ .panic ∧
      (r = .ok () ↔ validateHolderState holderInstance holderGeneration = .ok () ∧
        (db.answerAt 0).fault = none) ∧ ∃ record', db'.rows[s]? = some record' := by
  unfold reconcileRunning
  cases hvalid : validateHolderState holderInstance holderGeneration with
  | error e => exact ⟨.err e, db, rfl, nofun, ⟨nofun, fun h => nomatch h.1⟩, record, hrow⟩
  | ok a =>
    have hlift : (lift (.ok a : Except PersistError Unit) : Metadata Unit) db = (.ok a, db) := rfl
    rw [bind_ok hlift]
    cases hfault : (db.answerAt 0).fault with
    | some message =>
      rw [bind_err (execute_refused hfault)]
      exact ⟨_, _, rfl, nofun, ⟨nofun, fun h => nomatch h.2⟩, record, hrow⟩
    | none =>
      rw [bind_ok (execute_changes hfault hrow)]
      refine ⟨.ok (), _, rfl, nofun, ⟨fun _ => ⟨rfl, rfl⟩, fun _ => rfl⟩,
        SessionRecord.setRunning holderInstance holderGeneration (db.answerAt 0).now record, ?_⟩
      exact (NatMap.get_insert _ _ _ _).trans (if_pos rfl)

theorem createSession_run (name : String) (cwd shell : Option String)
    (hrow : db.rows[s]? = none) :
    match (db.answerAt 0).fault with
    | some message => createSession s name cwd shell db =
        (.err (.metadata "create session metadata" message), db.next)
    | none => ∃ record, createSession s name cwd shell db =
        (.ok (), { db.next with rows := db.rows.insert s record }) := by
  have hread : (read (·.rows) : Metadata Rows) db.next = (.ok db.rows, db.next) := rfl
  have hcontains : db.rows.contains s = false := by
    cases h : db.rows.contains s with
    | false => rfl
    | true =>
      obtain ⟨record, hrecord⟩ := (NatMap.contains_iff _ _).mp h
      rw [hrow] at hrecord
      cases hrecord
  cases hfault : (db.answerAt 0).fault with
  | some message =>
    apply (bind_ok (answer_run db)).trans
    rw [hfault]
    rfl
  | none =>
    let now := (db.answerAt 0).now
    refine ⟨{ name, status := .running, createdAt := now, updatedAt := now, cwd, shell }, ?_⟩
    apply (bind_ok (answer_run db)).trans
    rw [hfault]
    apply (bind_ok hread).trans
    rw [hcontains]
    rfl

theorem reopenSession_run (hrow : db.rows[s]? = some record) :
    match (db.answerAt 0).fault with
    | some message => reopenSession s db =
        (.err (.metadata "reopen closed session" message), db.next)
    | none => ∃ record', reopenSession s db =
        (.ok (), { db.next with rows := db.rows.insert s record' }) := by
  unfold reopenSession
  cases hfault : (db.answerAt 0).fault with
  | some message => exact bind_err (execute_refused hfault)
  | none => exact ⟨_, bind_ok (execute_changes hfault hrow)⟩

/-- A session is on record when the first statement is made, and bound when the second is. -/
theorem bindRow_run {statement : Metadata Unit} (snapshot : HolderInventorySnapshot)
    {operation : String}
    (hrun : match (db.answerAt 0).fault with
      | some message => statement db = (.err (.metadata operation message), db.next)
      | none => ∃ record, statement db =
          (.ok (), { db.next with rows := db.rows.insert s record })) :
    ∃ r db', Daemon.bindRow s statement snapshot db = (r, db') ∧ r ≠ .panic ∧
      match (db.answerAt 0).fault with
      | some _ => (∃ e, r = .err e) ∧ db' = db.next
      | none => (r = .ok () ↔ validateHolderState snapshot.instanceHex snapshot.generation = .ok () ∧
          (db.answerAt 1).fault = none) ∧ ∃ record, db'.rows[s]? = some record := by
  unfold Daemon.bindRow
  cases hfault : (db.answerAt 0).fault with
  | some message =>
    rw [hfault] at hrun
    rw [bind_err hrun]
    exact ⟨_, _, rfl, nofun, ⟨_, rfl⟩, rfl⟩
  | none =>
    rw [hfault] at hrun
    obtain ⟨record, hrun⟩ := hrun
    rw [bind_ok hrun]
    have hrow : ({ db.next with rows := db.rows.insert s record } : Database).rows[s]? =
        some record := (NatMap.get_insert _ _ _ _).trans (if_pos rfl)
    obtain ⟨r, db', hbind, hreplies, hok, hkept⟩ :=
      reconcileRunning_run snapshot.instanceHex snapshot.generation hrow
    refine ⟨r, db', hbind, hreplies, ?_, hkept⟩
    rw [hok]
    have hanswer : Database.answerAt { db.next with rows := db.rows.insert s record } 0 =
        db.answerAt 1 := answerAt_next db 0
    rw [hanswer]

end statements

end MetadataStore

namespace Daemon

section holder

variable {r : Runtime} {s : SessionId} {d d' : Daemon}

/-- The shells that end are not forgotten, and none begins. -/
theorem collect_sessions (r : Runtime) (collected : Collected) (s : SessionId) :
    ((r.collect collected).sessions[s]? = none ↔ r.sessions[s]? = none) ∧
      (r.isRunning s = false → (r.collect collected).isRunning s = false) := by
  unfold Runtime.collect
  split
  · exact ⟨Iff.rfl, id⟩
  · rename_i session hsession
    split
    · exact ⟨Iff.rfl, id⟩
    · rename_i pty hpty
      by_cases hid : collected.sessionId = s
      · subst hid
        have hsome := (NatMap.get_insert r.sessions collected.sessionId collected.sessionId
          { session.withExit pty collected.exitCode collected.state collected.now with
            pty := none }).trans (if_pos rfl)
        constructor
        · constructor
          · intro h
            exact absurd (hsome.symm.trans h) nofun
          · intro h
            rw [hsession] at h
            cases h
        · intro _
          change (Option.any _ ((r.sessions.insert collected.sessionId _)[collected.sessionId]?)) = _
          rw [hsome]
          unfold Session.withExit
          split <;> rfl
      · have hsame := (NatMap.get_insert r.sessions collected.sessionId s
          { session.withExit pty collected.exitCode collected.state collected.now with
            pty := none }).trans (if_neg hid)
        constructor
        · exact Iff.of_eq (congrArg (· = none) hsame)
        · intro hdead
          change (Option.any _ ((r.sessions.insert collected.sessionId _)[s]?)) = _
          rw [hsame]
          exact hdead

theorem collectAll_sessions (r : Runtime) (collected : List Collected) (s : SessionId) :
    ((collected.foldl Runtime.collect r).sessions[s]? = none ↔ r.sessions[s]? = none) ∧
      (r.isRunning s = false → (collected.foldl Runtime.collect r).isRunning s = false) := by
  induction collected generalizing r with
  | nil => exact ⟨Iff.rfl, id⟩
  | cons first rest ih =>
    obtain ⟨hnone, hdead⟩ := collect_sessions r first s
    obtain ⟨hlater, hdeadLater⟩ := ih (r.collect first)
    exact ⟨hlater.trans hnone, fun h => hdeadLater (hdead h)⟩

theorem turned_absent : d.turned.holder.sessions[s]? = none ↔ d.holder.sessions[s]? = none :=
  (collectAll_sessions _ _ _).1

theorem turned_dead (h : d.holder.isRunning s = false) : d.turned.holder.isRunning s = false :=
  (collectAll_sessions _ _ _).2 h

theorem dead_of_absent (h : r.sessions[s]? = none) : r.isRunning s = false := by
  rw [Runtime.isRunning, h]
  rfl

/-- A session that the holder has started is there. -/
theorem started_present {c : Creation} (h : (r.start s c).1 = .ok ()) :
    (r.start s c).2.sessions[s]? ≠ none := by
  unfold Runtime.start at h ⊢
  split at h
  · cases h
  · split at h
    · cases h
    · rename_i hcontains
      rw [if_neg hcontains]
      have hsome := (NatMap.get_insert r.sessions s s c.session).trans (if_pos rfl)
      exact fun hnone => absurd (hsome.symm.trans hnone) nofun

theorem markClosing_present (h : r.sessions[s]? ≠ none) :
    (r.markClosing s).sessions[s]? ≠ none := by
  unfold Runtime.markClosing
  split
  · exact h
  · split
    · exact h
    · intro hnone
      rw [NatMap.get_insert, if_pos rfl] at hnone
      cases hnone

/-- The holder has the session. -/
def Present (s : SessionId) (d : Daemon) : Prop := d.holder.sessions[s]? ≠ none

theorem created_present {c : Creation} (h : d.Serves s c) : Present s (d.created s c) :=
  fun hnone => started_present h.2.2 (turned_absent.mp hnone)

theorem present_turn : Leaves (Present s) turn := by
  intro d hd
  unfold turn
  split
  · exact hd
  · dsimp only
    have hkept : ∀ collected : List Collected,
        (collected.foldl Runtime.collect d.holder).sessions[s]? ≠ none :=
      fun collected h => hd ((collectAll_sessions _ _ _).1.mp h)
    split
    · exact hkept _
    · exact hkept _

theorem present_request {α : Type} {serve : Runtime → Except PersistError α × Runtime}
    (hserve : ∀ r : Runtime, r.sessions[s]? ≠ none → (serve r).2.sessions[s]? ≠ none) :
    Leaves (Present s) (request serve) := by
  refine Leaves.bind present_turn fun t => ?_
  cases t.fault with
  | some error => exact Leaves.fail error
  | none =>
    intro d hd
    have hserved : Present s { d with holder := (serve d.holder).2 } := hserve _ hd
    cases hlost : t.lost with
    | some error => exact hserved
    | none => exact (Leaves.lift (serve d.holder).1) _ hserved

theorem present_prepareClose [SerdeJson] : Leaves (Present s) (prepareClose s none) := by
  have hexit : Leaves (Present s) (exitContext s) :=
    Leaves.bind (Leaves.read _) fun _ => present_request fun _ h => h
  refine Leaves.bind ?_ fun _ => Leaves.pure _
  refine Leaves.bind (Leaves.read _) fun entry => ?_
  cases entry with
  | none => exact Leaves.pure _
  | some entry =>
    refine Leaves.bind (Leaves.read _) fun manager => ?_
    refine Leaves.bind (Leaves.lift _) fun policy => ?_
    refine Leaves.bind present_turn fun t => ?_
    refine Leaves.bind (Leaves.read _) fun manager => ?_
    refine Leaves.bind ?_ fun _ => Leaves.pure _
    unfold closingContext
    dsimp only
    split
    · split
      · exact hexit
      · cases entry.exitCode with
        | some exitCode => exact Leaves.pure _
        | none => exact Leaves.fail _
    · exact Leaves.bind (present_request fun _ h => markClosing_present h) fun _ => hexit

theorem retire_absent {r : Runtime} {session : Session} (h : r.sessions[s]? = some session) :
    (r.retire s).sessions[s]? = none ↔ session.exitCode.isSome = true := by
  unfold Runtime.retire
  rw [h]
  dsimp only
  cases hexit : session.exitCode with
  | none =>
    rw [if_pos (by rfl), h]
    exact ⟨nofun, nofun⟩
  | some code =>
    exact ⟨fun _ => rfl, fun _ => (NatMap.get_erase _ _ _).trans (if_pos rfl)⟩

theorem retireExited_absent_iff {r : Outcome PersistError Unit} (hpresent : Present s d)
    (hrun : retireExited s d = (r, d')) (hreplies : r ≠ .panic) :
    d'.holder.sessions[s]? = none ↔ (d.turnAt 0).fault = none ∧
      ∃ session, d.turned.holder.sessions[s]? = some session ∧
        session.exitCode.isSome = true := by
  have hthere : Present s d.turned := fun h => hpresent (turned_absent.mp h)
  obtain ⟨session, hsession⟩ := Option.ne_none_iff_exists'.mp hthere
  obtain ⟨serve, hserve, hretire⟩ : ∃ serve : Runtime → Except PersistError Unit × Runtime,
      (∀ r, (serve r).2 = r.retire s) ∧
        retireExited s = (request serve >>= fun _ => refreshInventory) :=
    ⟨_, fun _ => rfl, rfl⟩
  rw [hretire] at hrun
  rcases hrequest : request serve d with ⟨r₁, d₁⟩
  have hgoes : r₁ ≠ .panic := by
    rintro rfl
    rw [bind_panic hrequest] at hrun
    cases hrun
    exact hreplies rfl
  have hlater : d'.holder.sessions[s]? = none ↔ d₁.holder.sessions[s]? = none := by
    cases r₁ with
    | ok a =>
      rw [bind_ok hrequest] at hrun
      rcases refresh_cases hrun hreplies with ⟨error, -, -, rfl⟩ | ⟨-, -, rfl⟩
      · exact turned_absent
      · exact turned_absent
    | err e =>
      rw [bind_err hrequest] at hrun
      cases hrun
      exact Iff.rfl
    | panic => exact absurd rfl hgoes
  rw [hlater]
  rcases request_cases hrequest hgoes with ⟨error, hfault, -, rfl⟩ | ⟨hfault, -, rfl⟩
  · refine ⟨fun h => absurd h hthere, fun h => ?_⟩
    rw [hfault] at h
    cases h.1
  · rw [hfault, hserve]
    apply (retire_absent hsession).trans
    constructor
    · exact fun h => ⟨rfl, session, hsession, h⟩
    · rintro ⟨-, session', hsession', hexit⟩
      cases hsession.symm.trans hsession'
      exact hexit

end holder

section closing

variable [SerdeJson] {s : SessionId} {d d' : Daemon}

/-- `close_session` gets as far as this: the session is closed and has ended, and the request to
retire it reaches the holder. -/
def Retires (s : SessionId) (d : Daemon) : Prop :=
  ∃ closed d', prepareClose s none d = (.ok (some closed), d') ∧ (d'.turnAt 0).fault = none ∧
    ∃ session, d'.turned.holder.sessions[s]? = some session ∧ session.exitCode.isSome = true

theorem holderRetire_of_prepareClose {observed : Option ExitContext} {closed : ClosedSession}
    (h : prepareClose s observed d = (.ok (some closed), d')) : closed.holderRetire = true := by
  obtain ⟨closing, d₁, -, hclosed⟩ := bind_returns.mp h
  cases closing with
  | none => cases hclosed
  | some closing =>
    cases hclosed
    rfl

/-- The roll-back removes the session exactly when it gets that far. -/
theorem closeSession_absent_iff {r : Outcome PersistError Unit} (hpresent : Present s d)
    (hrun : closeSession s d = (r, d')) (hreplies : r ≠ .panic) :
    d'.holder.sessions[s]? = none ↔ Retires s d := by
  unfold closeSession at hrun
  rcases hprepare : prepareClose s none d with ⟨closed | e | _, d₁⟩
  · have hkept : Present s d₁ := present_prepareClose.run hprepare hpresent
    rw [bind_ok hprepare] at hrun
    cases closed with
    | none =>
      cases hrun
      refine ⟨fun h => absurd h hkept, fun ⟨closed, d₂, h, _⟩ => ?_⟩
      rw [hprepare] at h
      cases h
    | some closed =>
      have hretires : Retires s d ↔ (d₁.turnAt 0).fault = none ∧
          ∃ session, d₁.turned.holder.sessions[s]? = some session ∧
            session.exitCode.isSome = true := by
        constructor
        · rintro ⟨closed', d₂, h, hrest⟩
          rw [hprepare] at h
          cases h
          exact hrest
        · exact fun h => ⟨closed, d₁, hprepare, h⟩
      rw [hretires]
      dsimp only at hrun
      rw [if_pos (holderRetire_of_prepareClose hprepare)] at hrun
      rcases hretire : retireExited s d₁ with ⟨u | e | _, d₂⟩
      · have habsent := retireExited_absent_iff hkept hretire nofun
        rw [bind_ok hretire] at hrun
        cases hrun
        exact habsent
      · rw [bind_err hretire] at hrun
        cases hrun
        exact retireExited_absent_iff hkept hretire nofun
      · rw [bind_panic hretire] at hrun
        cases hrun
        exact absurd rfl hreplies
  · have hkept : Present s d₁ := present_prepareClose.run hprepare hpresent
    rw [bind_err hprepare] at hrun
    cases hrun
    refine ⟨fun h => absurd h hkept, fun ⟨closed, d₂, h, _⟩ => ?_⟩
    rw [hprepare] at h
    cases h
  · rw [bind_panic hprepare] at hrun
    cases hrun
    exact absurd rfl hreplies

end closing

section requests

variable [SerdeJson] {s : SessionId} {c : Creation} {d d' : Daemon}

/-- The row that is written can be bound to the holder that runs the session. -/
def Binds (d : Daemon) : Prop :=
  validateHolderState d.cache.instanceHex d.cache.generation = .ok () ∧
    (d.database.answerAt 1).fault = none

/-- The state when the first statement has failed. -/
def unrecorded (d : Daemon) : Daemon := { d.turned with database := d.database.next }

/-- Closing a session writes nothing. -/
theorem database_closeSession {db : Database} : Leaves (·.database = db) (closeSession s) := by
  have hJ : ∀ (d : Daemon) (holder : Runtime) (cache : HolderInventorySnapshot)
      (turns : List CallTurn), d.database = db → { d with holder, cache, turns }.database = db :=
    fun _ _ _ _ => id
  have hfinish : Leaves (·.database = db) (finishClose s) := Leaves.update fun _ => id
  refine Leaves.bind (Leaves.bind (leaves_gather hJ none) fun _ => Leaves.pure _) fun closed => ?_
  cases closed with
  | none => exact Leaves.pure _
  | some closed =>
    dsimp only
    split
    · exact Leaves.bind (leaves_retireExited hJ s) fun _ => hfinish
    · exact hfinish

/-- How the session is put on record, or closed again. -/
theorem recordOrClose_cases {statement : Metadata Unit} {operation : String} {recorded : Bool}
    (hstatement : match (d.database.answerAt 0).fault with
      | some message => statement d.database = (.err (.metadata operation message), d.database.next)
      | none => ∃ record, statement d.database =
          (.ok (), { d.database.next with rows := d.database.rows.insert s record }))
    (hrun : recordOrClose s statement d = (.ok recorded, d')) :
    (d.database.answerAt 0).fault.isSome = true ∧ recorded = false ∧
        (∃ r, attempt (closeSession s) d.unrecorded = (.ok r, d')) ∨
      (d.database.answerAt 0).fault = none ∧ (∃ record, d'.database.rows[s]? = some record) ∧
        (recorded = true ↔ d.Binds) ∧
        (recorded = true → ∃ database, d' = { d.turned with database }) := by
  obtain ⟨r, db', hbind, hreplies, hcases⟩ := bindRow_run d.cache hstatement
  obtain ⟨cache, d₁, hcache, hrun⟩ := bind_returns.mp hrun
  cases hcache
  obtain ⟨result, d₂, hwrite, hrun⟩ := bind_returns.mp hrun
  obtain ⟨hresult, rfl⟩ := metadata_cases (attempt_cases hwrite) (by cases result <;> exact nofun)
  rw [hbind] at hresult hrun
  dsimp only at hresult hrun
  cases hfault : (d.database.answerAt 0).fault with
  | some message =>
    left
    rw [hfault] at hcases
    obtain ⟨⟨e, rfl⟩, rfl⟩ := hcases
    cases result with
    | ok a => cases hresult
    | error e =>
      obtain ⟨r, d₂, hclose, hrun⟩ := bind_returns.mp hrun
      cases hrun
      exact ⟨rfl, rfl, r, hclose⟩
  | none =>
    right
    rw [hfault] at hcases
    obtain ⟨hok, record, hrow⟩ := hcases
    cases result with
    | ok a =>
      cases hrun
      refine ⟨rfl, ⟨record, hrow⟩, ?_, fun _ => ⟨_, rfl⟩⟩
      exact ⟨fun _ => hok.mp hresult.symm, fun _ => rfl⟩
    | error e =>
      obtain ⟨r', d₂, hclose, hrun⟩ := bind_returns.mp hrun
      cases hrun
      have hkept := database_closeSession.attempt.run hclose rfl
      refine ⟨rfl, ⟨record, ?_⟩, ?_, nofun⟩
      · rw [hkept]
        exact hrow
      · refine ⟨nofun, fun hbinds => ?_⟩
        rw [hok.mpr hbinds] at hresult
        cases hresult

/-- From the state in which the holder has the session: it is put on record, or its row cannot
be inserted and it is closed again. -/
def Records (s : SessionId) (d : Daemon) : Prop :=
  match (d.database.answerAt 0).fault with
  | none => d.Binds
  | some _ => d.unrecorded.Retires s

/-- A new session leaves nothing behind when it is refused, exactly when nothing fails once the
holder has started it, but for the insertion of its row, and then not the roll-back. -/
theorem newSession_clean_iff {name : String} {cwd shell : Option String} {reply : SessionId}
    (hid : s ≠ 0) (hholder : d.holder.sessions[s]? = none) (hrow : d.database.rows[s]? = none)
    (hrun : newSession s c name cwd shell d = (.ok reply, d')) :
    (reply = 0 → d'.holder.sessions[s]? = none ∧ d'.database.rows[s]? = none) ↔
      (d.Serves s c → (d.turnAt 0).lost = none ∧ (d.turnAt 1).fault = none ∧
        (d.created s c).Records s) := by
  obtain ⟨r, d₁, hcreate, hrun⟩ := bind_returns.mp hrun
  rcases create_cases hcreate with ⟨⟨e, rfl⟩, hserves, hd⟩ | ⟨⟨e, rfl⟩, hserves, hfails⟩ |
    ⟨rfl, hserves, hlost, hfault, rfl⟩
  · -- the holder has seen nothing
    cases hrun
    refine ⟨fun _ h => absurd h hserves, fun _ _ => ?_⟩
    rcases hd with rfl | rfl
    · exact ⟨hholder, hrow⟩
    · exact ⟨turned_absent.mpr hholder, hrow⟩
  · -- the session stays
    cases hrun
    constructor
    · intro hclean
      have habsent := (hclean rfl).1
      rcases hfails with ⟨-, rfl⟩ | ⟨-, -, rfl⟩
      · exact absurd habsent (started_present hserves.2.2)
      · exact absurd (turned_absent.mp habsent) (started_present hserves.2.2)
    · intro hsettles
      obtain ⟨hlost, hfault, -⟩ := hsettles hserves
      rcases hfails with ⟨hyes, -⟩ | ⟨-, hyes, -⟩
      · rw [hlost] at hyes
        cases hyes
      · rw [hfault] at hyes
        cases hyes
  · obtain ⟨recorded, d₂, hrecord, hrun⟩ := bind_returns.mp hrun
    have hsettles : (d.Serves s c → (d.turnAt 0).lost = none ∧ (d.turnAt 1).fault = none ∧
        (d.created s c).Records s) ↔ (d.created s c).Records s :=
      ⟨fun h => (h hserves).2.2, fun h _ => ⟨hlost, hfault, h⟩⟩
    rw [hsettles]
    have hnew : (d.created s c).database.rows[s]? = none := hrow
    have hstatement := createSession_run name cwd shell hnew
    unfold Records
    rcases recordOrClose_cases hstatement hrecord with ⟨hfails, rfl, r, hclose⟩ |
      ⟨hworks, ⟨record, hrecorded⟩, hbinds, -⟩
    · obtain ⟨message, hfails⟩ := Option.isSome_iff_exists.mp hfails
      rw [hfails]
      dsimp only
      have hpresent : Present s (d.created s c).unrecorded :=
        fun hnone => created_present hserves (turned_absent.mp hnone)
      have hdatabase := database_closeSession.attempt.run hclose rfl
      have hgone := closeSession_absent_iff hpresent (attempt_cases hclose)
        (by cases r <;> exact nofun)
      cases hrun
      rw [← hgone]
      refine ⟨fun h => (h rfl).1, fun h _ => ⟨h, ?_⟩⟩
      rw [hdatabase]
      exact hrow
    · rw [hworks]
      dsimp only
      rw [← hbinds]
      cases recorded with
      | true =>
        cases hrun
        exact ⟨fun _ => rfl, fun _ h => absurd h hid⟩
      | false =>
        cases hrun
        refine ⟨fun h => ?_, nofun⟩
        rw [(h rfl).2] at hrecorded
        cases hrecorded

end requests

section reopening

variable [SerdeJson] {s : SessionId} {c : Creation} {d d' : Daemon} {record : SessionRecord}

/-- Whether the manager knows a runtime of the session. -/
def hasRuntime (s : SessionId) (d : Daemon) : Bool :=
  s ∉ d.manager.orphanedSessions && (d.cache.entries.find? fun entry => entry.sessionId = s).isSome

/-- The holder attaches the client, and the inventory can be read again. -/
structure Attaches (s : SessionId) (d : Daemon) : Prop where
  owned : s ∉ d.manager.orphanedSessions
  served : (d.turnAt 0).fault = none ∧ (d.turnAt 0).lost = none
  running : d.turned.holder.isRunning s = true
  refreshed : (d.turnAt 1).fault = none

/-- From the state in which the holder has the session: it is put on record and the client is
attached, or its row cannot be reopened and it is closed again. -/
def Reopens (s : SessionId) (d : Daemon) : Prop :=
  match (d.database.answerAt 0).fault with
  | none => d.Binds ∧ d.turned.Attaches s
  | some _ => d.unrecorded.Retires s

/-- The session can be restored from its row. -/
def Restorable (record : SessionRecord) (d : Daemon) : Prop :=
  ∃ policy snapshot, d.manager.recoveryEnvironment.policy = .ok policy ∧
    decodeEnvironment record.envSnapshot policy = .ok snapshot

/-- Once the holder has started the session of a row that was read, nothing fails, but for the
statement that reopens the row, and then not the roll-back. -/
def ReopensOnce (s : SessionId) (c : Creation) (record : SessionRecord) (d : Daemon) : Prop :=
  d.Restorable record → (d.database.answerAt 0).fault = none → d.unrecorded.Serves s c →
    (d.unrecorded.turnAt 0).lost = none ∧ (d.unrecorded.turnAt 1).fault = none ∧
      (d.unrecorded.created s c).Reopens s

omit [SerdeJson] in
theorem holderEntry_run (s : SessionId) (d : Daemon) :
    ∃ entry, holderEntry s d = (.ok entry, d) ∧ entry.isSome = d.hasRuntime s := by
  refine ⟨_, rfl, ?_⟩
  unfold hasRuntime
  by_cases horphan : s ∈ d.manager.orphanedSessions
  · simp [horphan]
  · simp [horphan]

omit [SerdeJson] in
theorem grant_cases {locked granted : Bool} (hrun : grant s locked d = (.ok granted, d')) :
    (locked = true ∨ d.hasRuntime s = false) ∧ granted = false ∧ d' = d ∨
      locked = false ∧ d.hasRuntime s = true ∧
        ∃ r, attempt (attachHolder s) d = (.ok r, d') ∧ (granted = true ↔ r = .ok ()) := by
  obtain ⟨entry, hentry, hsome⟩ := holderEntry_run s d
  unfold grant at hrun
  rw [bind_ok hentry, hsome] at hrun
  by_cases hknown : (!locked && d.hasRuntime s) = true
  · right
    rw [if_pos hknown] at hrun
    rw [Bool.and_eq_true, Bool.not_eq_true'] at hknown
    refine ⟨hknown.1, hknown.2, ?_⟩
    obtain ⟨r, d₁, hattach, hrun⟩ := bind_returns.mp hrun
    cases r with
    | ok a =>
      cases hrun
      exact ⟨_, hattach, fun _ => rfl, fun _ => rfl⟩
    | error e =>
      cases hrun
      exact ⟨_, hattach, nofun, nofun⟩
  · left
    rw [if_neg hknown] at hrun
    cases hrun
    refine ⟨?_, rfl, rfl⟩
    cases locked with
    | true => exact .inl rfl
    | false =>
      right
      rw [Bool.not_false, Bool.true_and, Bool.not_eq_true] at hknown
      exact hknown

omit [SerdeJson] in
/-- Attaching writes nothing and starts nothing, and fails only when one of its calls does. -/
theorem attachHolder_cases {r : Except PersistError Unit}
    (hrun : attempt (attachHolder s) d = (.ok r, d')) :
    d'.database = d.database ∧ (d.holder.isRunning s = false → d'.holder.isRunning s = false) ∧
      (d.Attaches s → r = .ok ()) := by
  obtain ⟨serve, hsame, hanswer, hattach⟩ :
      ∃ serve : Runtime → Except PersistError Unit × Runtime, (∀ r, (serve r).2 = r) ∧
        (∀ r, r.isRunning s = true → (serve r).1 = .ok ()) ∧
        attachHolder s = (request serve >>= fun _ => refreshInventory) :=
    ⟨_, fun _ => rfl, fun _ h => if_pos h, rfl⟩
  have hm := attempt_cases hrun
  rw [hattach] at hm
  have hnext : ∀ holder, turnAt { d.turned with holder } 0 = d.turnAt 1 := by
    intro holder
    unfold turnAt turned
    dsimp only
    cases d.turns <;> rfl
  rcases hrequest : request serve d with ⟨r₁, d₁⟩
  have hgoes : r₁ ≠ .panic := by
    rintro rfl
    rw [bind_panic hrequest] at hm
    cases r <;> cases hm
  have hserved : d₁.database = d.database ∧
      (d.holder.isRunning s = false → d₁.holder.isRunning s = false) ∧
      (d.Attaches s → r₁ = .ok () ∧ (d₁.turnAt 0).fault = none) := by
    rcases request_cases hrequest hgoes with ⟨error, hfault, -, rfl⟩ | ⟨hfault, hended, rfl⟩
    · refine ⟨rfl, turned_dead, fun h => ?_⟩
      rw [h.served.1] at hfault
      cases hfault
    · refine ⟨rfl, fun h => ?_, fun h => ⟨?_, ?_⟩⟩
      · rw [hsame]
        exact turned_dead h
      · rw [hended, h.served.2, hanswer _ h.running]
        rfl
      · rw [hnext]
        exact h.refreshed
  obtain ⟨hdatabase, hdead, hworks⟩ := hserved
  cases r₁ with
  | panic => exact absurd rfl hgoes
  | err e =>
    rw [bind_err hrequest] at hm
    cases r with
    | ok a => cases hm
    | error e' =>
      cases hm
      exact ⟨hdatabase, hdead, fun h => absurd (hworks h).1 nofun⟩
  | ok a =>
    rw [bind_ok hrequest] at hm
    have hreplies : ended none r ≠ .panic := by
      cases r <;> exact nofun
    rcases refresh_cases hm hreplies with ⟨error, hfault, -, rfl⟩ | ⟨-, hend, rfl⟩
    · refine ⟨hdatabase, fun h => turned_dead (hdead h), fun h => ?_⟩
      rw [(hworks h).2] at hfault
      cases hfault
    · refine ⟨hdatabase, fun h => turned_dead (hdead h), fun _ => ?_⟩
      cases r with
      | ok a => rfl
      | error e => cases hend

omit [SerdeJson] in
/-- An attach that is refused has changed nothing. -/
theorem grant_keeps {locked granted : Bool} (hrun : grant s locked d = (.ok granted, d')) :
    d'.database = d.database ∧ (d.holder.isRunning s = false → d'.holder.isRunning s = false) := by
  rcases grant_cases hrun with ⟨-, -, rfl⟩ | ⟨-, -, r, hattach, -⟩
  · exact ⟨rfl, id⟩
  · obtain ⟨hdatabase, hdead, -⟩ := attachHolder_cases hattach
    exact ⟨hdatabase, hdead⟩

omit [SerdeJson] in
theorem grant_of_attaches {granted : Bool} (hattaches : d.Attaches s)
    (hknown : d.hasRuntime s = true) (hrun : grant s false d = (.ok granted, d')) :
    granted = true := by
  rcases grant_cases hrun with ⟨hunknown, -, -⟩ | ⟨-, -, r, hattach, hgranted⟩
  · rcases hunknown with h | h
    · cases h
    · rw [hknown] at h
      cases h
  · obtain ⟨-, -, hworks⟩ := attachHolder_cases hattach
    exact hgranted.mpr (hworks hattaches)

omit [SerdeJson] in
/-- The inventory that has been read again lists the session. -/
theorem hasRuntime_created (hserves : d.Serves s c) (howned : s ∉ d.manager.orphanedSessions) :
    (d.created s c).hasRuntime s = true := by
  have hpresent := created_present hserves
  have hmem : s ∈ (d.created s c).cache.entries.map HolderSessionEntry.sessionId := by
    change s ∈ (d.created s c).holder.entries.map HolderSessionEntry.sessionId
    rw [Runtime.entries_ids, Std.ExtTreeMap.mem_keys, ← Std.ExtTreeMap.contains_iff_mem,
      NatMap.contains_iff]
    exact Option.ne_none_iff_exists'.mp hpresent
  obtain ⟨entry, hentry, hid⟩ := List.mem_map.mp hmem
  have hfound : ((d.created s c).cache.entries.find? fun entry => entry.sessionId = s).isSome =
      true := by
    rw [List.find?_isSome]
    exact ⟨entry, hentry, decide_eq_true hid⟩
  have howned' : s ∉ (d.created s c).manager.orphanedSessions := howned
  rw [hasRuntime, hfound, decide_eq_true howned']
  rfl

/-- What restoring a session comes to. -/
theorem restore_cases {r : Except PersistError Unit} (hknown : d.hasRuntime s = false)
    (hrun : attempt (restoreClosedSession s record c) d = (.ok r, d')) :
    (∃ e, r = .error e) ∧ ¬ d.Restorable record ∧ d' = d ∨
      d.Restorable record ∧ attempt (create s c) d = (.ok r, d') := by
  have hm := attempt_cases hrun
  have hmanager : manager_ d = (.ok d.manager, d) := rfl
  unfold restoreClosedSession at hm
  rw [bind_ok hmanager] at hm
  cases hpolicy : d.manager.recoveryEnvironment.policy with
  | error e =>
    rw [hpolicy] at hm
    left
    cases r with
    | ok a => cases hm
    | error e' =>
      cases hm
      refine ⟨⟨_, rfl⟩, ?_, rfl⟩
      rintro ⟨policy, snapshot, h, -⟩
      rw [hpolicy] at h
      cases h
  | ok policy =>
    have hlift : (lift (.ok policy : Except PersistError EnvironmentPolicy) :
        DaemonProgram EnvironmentPolicy) d = (.ok policy, d) := rfl
    rw [hpolicy, bind_ok hlift] at hm
    cases hdecode : decodeEnvironment record.envSnapshot policy with
    | error e =>
      rw [hdecode] at hm
      left
      cases r with
      | ok a => cases hm
      | error e' =>
        cases hm
        refine ⟨⟨_, rfl⟩, ?_, rfl⟩
        rintro ⟨policy', snapshot, h, hsnapshot⟩
        rw [hpolicy] at h
        cases h
        rw [hdecode] at hsnapshot
        cases hsnapshot
    | ok snapshot =>
      right
      obtain ⟨entry, hentry, hsome⟩ := holderEntry_run s d
      have hlift : (lift (.ok snapshot : Except PersistError (Option EnvironmentSnapshot)) :
          DaemonProgram (Option EnvironmentSnapshot)) d = (.ok snapshot, d) := rfl
      rw [hdecode, bind_ok hlift, bind_ok hentry, hsome, hknown] at hm
      refine ⟨⟨policy, snapshot, hpolicy, hdecode⟩, ?_⟩
      change create s c d = _ at hm
      rw [attempt_apply, hm]
      cases r <;> rfl

omit [SerdeJson] in
theorem getSession_run (s : SessionId) (db : Database) :
    getSession s db = (match (db.answerAt 0).fault with
      | some message => .err (.metadata "query get session" message)
      | none => .ok db.rows[s]?, db.next) := by
  unfold getSession query
  rw [bind_ok (answer_run db)]
  cases (db.answerAt 0).fault <;> rfl

/-- A closed session whose attach is refused is as it was, when nothing fails once the holder has
started it, but for the statement that reopens the row, and then not the roll-back. -/
theorem attach_clean {granted : Bool} (hrow : d.database.rows[s]? = some record)
    (hclosed : record.status = .closed) (hunlocked : record.locked = false)
    (hknown : d.hasRuntime s = false) (hdead : d.holder.isRunning s = false)
    (hsettles : d.ReopensOnce s c record) (hrun : attach s c d = (.ok granted, d'))
    (hrefused : granted = false) :
    d'.database.rows[s]? = some record ∧ d'.holder.isRunning s = false := by
  subst hrefused
  obtain ⟨read, d₁, hread, hrun⟩ := bind_returns.mp hrun
  obtain ⟨hresult, rfl⟩ := metadata_cases (attempt_cases hread) (by cases read <;> exact nofun)
  rw [getSession_run] at hresult hrun
  obtain ⟨entry, hentry, hsome⟩ := holderEntry_run s d.unrecorded
  have hunknown : d.unrecorded.hasRuntime s = false := hknown
  have hstill : d.unrecorded.holder.isRunning s = false := turned_dead hdead
  change (holderEntry s >>= _) d.unrecorded = _ at hrun
  rw [bind_ok hentry, hsome, hunknown] at hrun
  obtain ⟨_, d₂, hreopen, hgrant⟩ := bind_returns.mp hrun
  cases hfault : (d.database.answerAt 0).fault with
  | some message =>
    rw [hfault] at hresult
    cases read with
    | ok a => cases hresult
    | error e =>
      cases hreopen
      obtain ⟨hdatabase, hkept⟩ := grant_keeps hgrant
      rw [hdatabase]
      exact ⟨hrow, hkept hstill⟩
  | none =>
    rw [hfault] at hresult
    cases read with
    | error e => cases hresult
    | ok found =>
      cases hresult
      change reopen s c (d.database.rows[s]?.filter fun record =>
        !d.database.rows[s]?.any SessionRecord.locked && !false && record.status = .closed) _ = _
        at hreopen
      change grant s (d.database.rows[s]?.any SessionRecord.locked) _ = _ at hgrant
      have hany : (some record).any SessionRecord.locked = false := hunlocked
      have hchosen : (some record).filter (fun record =>
          !false && !false && record.status = .closed) = some record := by
        rw [Option.filter_some, hclosed]
        rfl
      rw [hrow, hany, hchosen] at hreopen
      rw [hrow, hany] at hgrant
      obtain ⟨r, d₃, hrestore, hreopen⟩ := bind_returns.mp hreopen
      -- what is refused after all leaves the row, and no shell
      have hends : d₂.database.rows[s]? = some record → d₂.holder.isRunning s = false →
          d'.database.rows[s]? = some record ∧ d'.holder.isRunning s = false := by
        intro hrow hdead
        obtain ⟨hdatabase, hkept⟩ := grant_keeps hgrant
        rw [hdatabase]
        exact ⟨hrow, hkept hdead⟩
      rcases restore_cases hunknown hrestore with ⟨⟨e, rfl⟩, -, rfl⟩ | ⟨hrestorable, hcreate⟩
      · cases hreopen
        exact hends hrow hstill
      rcases create_cases hcreate with ⟨⟨e, rfl⟩, -, hd⟩ | ⟨⟨e, rfl⟩, hserves, hfails⟩ |
        ⟨rfl, hserves, hlost, hrefreshed, rfl⟩
      · cases hreopen
        rcases hd with rfl | rfl
        · exact hends hrow hstill
        · exact hends hrow (turned_dead hstill)
      · obtain ⟨hlost, hrefreshed, -⟩ := hsettles hrestorable hfault hserves
        rcases hfails with ⟨hyes, -⟩ | ⟨-, hyes, -⟩
        · rw [hlost] at hyes
          cases hyes
        · rw [hrefreshed] at hyes
          cases hyes
      obtain ⟨-, -, hreopens⟩ := hsettles hrestorable hfault hserves
      obtain ⟨recorded, d₄, hrecord, hreopen⟩ := bind_returns.mp hreopen
      cases hreopen
      have hthere : (d.unrecorded.created s c).database.rows[s]? = some record := hrow
      have hstatement := reopenSession_run hthere
      unfold Reopens at hreopens
      rcases recordOrClose_cases hstatement hrecord with ⟨hfails, -, r, hclose⟩ |
        ⟨hworks, -, hbinds, hbound⟩
      · obtain ⟨message, hfails⟩ := Option.isSome_iff_exists.mp hfails
        rw [hfails] at hreopens
        have hpresent : Present s (d.unrecorded.created s c).unrecorded :=
          fun hnone => created_present hserves (turned_absent.mp hnone)
        have hgone := (closeSession_absent_iff hpresent (attempt_cases hclose)
          (by cases r <;> exact nofun)).mpr hreopens
        have hdatabase := database_closeSession.attempt.run hclose rfl
        apply hends ?_ (dead_of_absent hgone)
        rw [hdatabase]
        exact hrow
      · rw [hworks] at hreopens
        obtain ⟨hbind, hattaches⟩ := hreopens
        obtain ⟨database, rfl⟩ := hbound (hbinds.mpr hbind)
        have hlisted := hasRuntime_created hserves hattaches.owned
        have hgranted := grant_of_attaches
          (d := { (d.unrecorded.created s c).turned with database })
          ⟨hattaches.owned, hattaches.served, hattaches.running, hattaches.refreshed⟩ hlisted hgrant
        cases hgranted

end reopening

/-- The id of a new session is of no session and of no row. -/
structure New (s : SessionId) (d : Daemon) : Prop where
  proper : s ≠ 0
  unknown : d.holder.sessions[s]? = none
  unwritten : d.database.rows[s]? = none

/-- Once the holder has started a new session, nothing fails, but for the statement that inserts
the row, and then not the roll-back. -/
def CreatesOnce [SerdeJson] (s : SessionId) (c : Creation) (d : Daemon) : Prop :=
  d.Serves s c → (d.turnAt 0).lost = none ∧ (d.turnAt 1).fault = none ∧
    (d.created s c).Records s

/-- The row is of a closed session that nothing runs. -/
structure Closed (s : SessionId) (record : SessionRecord) (d : Daemon) : Prop where
  row : d.database.rows[s]? = some record
  closed : record.status = .closed
  unlocked : record.locked = false
  unknown : d.hasRuntime s = false
  dead : d.holder.isRunning s = false

end Daemon

section main

variable [SerdeJson]

/-- A new session that is refused leaves nothing exactly when it is created at once, and a closed
session that is reopened at once, but refused, is as it was. -/
theorem creation_all_or_nothing {s : SessionId} {c : Creation} {d d' : Daemon} :
    (d.New s → ∀ name cwd shell reply,
      Daemon.newSession s c name cwd shell d = (.ok reply, d') →
        ((reply = 0 → d'.holder.sessions[s]? = none ∧ d'.database.rows[s]? = none) ↔
          d.CreatesOnce s c)) ∧
      ∀ record, d.Closed s record → d.ReopensOnce s c record →
        Daemon.attach s c d = (.ok false, d') →
          d'.database.rows[s]? = some record ∧ d'.holder.isRunning s = false := by
  constructor
  · intro hnew name cwd shell reply hrun
    exact Daemon.newSession_clean_iff hnew.proper hnew.unknown hnew.unwritten hrun
  · intro record hclosed hsettles hrun
    exact Daemon.attach_clean hclosed.row hclosed.closed hclosed.unlocked hclosed.unknown
      hclosed.dead hsettles hrun rfl

end main

section sample
attribute [local instance] Json.serdeJson

def liveSession : Session where
  pty := some { masterFd := 5, childPid := 9 }
  shellPid := 9
  ring := (RingBuffer.new 2).get (by decide)
  logPath := none
  logState := .disabled
  createdAtMs := 1
  lastActiveAtMs := 1

/-- A shell that the holder starts, or not. -/
def plainCreation (refusal : Option PersistError) : Creation where
  refusal
  session := liveSession
  pty := { masterFd := 5, childPid := 9 }
  running := rfl

def refusedCreation : Creation :=
  plainCreation (some (.invalidArgument "holder operation failed: Internal: no terminal"))

def endedRow : SessionRecord :=
  { name := "work", status := .closed, exitCode := some 0, createdAt := "", updatedAt := "" }

/-- A daemon with no runtimes: how its calls and its statements will go. -/
def freshDaemon (rows : Rows) (turns : List CallTurn) (answers : List Answer) : Daemon where
  database := { rows, answers }
  holder := { stateDir := "/run/session-state" }
  instanceId := ⟨List.replicate 16 2, rfl⟩
  cache := ⟨List.replicate 16 2, 1, [], rfl, .nil⟩
  turns

/-- The inventory cannot be read again once the holder has started the session. -/
def unrefreshed : Daemon :=
  freshDaemon {} [{}, { fault := some (.invalidArgument "holder is unavailable") }] []

/-- The reopened row cannot be bound to the holder. -/
def unbound : Daemon :=
  freshDaemon {(1, endedRow)}
    [{}, {}, {}, {}, {}, {}, { collected := [{ sessionId := 1, exitCode := 0 }] }]
    [{}, {}, { fault := some "database is locked" }]

theorem freshDaemon_new {turns : List CallTurn} {answers : List Answer} :
    (freshDaemon {} turns answers).New 1 where
  proper := nofun
  unknown := Std.ExtTreeMap.getElem?_empty
  unwritten := Std.ExtTreeMap.getElem?_empty

theorem freshDaemon_closed {turns : List CallTurn} {answers : List Answer} :
    (freshDaemon {(1, endedRow)} turns answers).Closed 1 endedRow where
  row := NatMap.get_singleton 1 endedRow
  closed := rfl
  unlocked := rfl
  unknown := Bool.and_false _
  dead := rfl

theorem replies_of_toOption {α : Type} [DecidableEq α] {r : Outcome PersistError α × Daemon}
    {a : α} (h : (match r.1 with
      | .ok b => some b
      | _ => none) = some a) : r = (.ok a, r.2) := by
  obtain ⟨b | e | _, d⟩ := r
  · cases h
    rfl
  · cases h
  · cases h

/-- A session whose inventory cannot be read is refused and stays, and a row that cannot be bound
stays reopened. -/
theorem creation_leaves_traces :
    (unrefreshed.New 1 ∧ ∃ d', Daemon.newSession 1 (plainCreation none) "work" none none
        unrefreshed = (.ok 0, d') ∧ d'.holder.sessions[1]? ≠ none) ∧
      unbound.Closed 1 endedRow ∧ ∃ d', Daemon.attach 1 (plainCreation none) unbound =
        (.ok false, d') ∧ d'.database.rows[1]? ≠ some endedRow := by
  refine ⟨⟨freshDaemon_new, _, replies_of_toOption (by decide +kernel), ?_⟩,
    freshDaemon_closed, _, replies_of_toOption (by decide +kernel), ?_⟩
  · have hkept : (Daemon.newSession 1 (plainCreation none) "work" none none
        unrefreshed).2.holder.sessions[1]?.isSome = true := by decide +kernel
    intro hnone
    rw [hnone] at hkept
    cases hkept
  · have hrow : (Daemon.attach 1 (plainCreation none) unbound).2.database.rows[1]?.map
        (·.exitCode) = some none := by decide +kernel
    intro hsame
    rw [hsame] at hrow
    cases hrow

/-- A holder that refuses leaves nothing, and the row closed. -/
theorem refused_creation_clean :
    ((Daemon.newSession 1 refusedCreation "work" none none
        (freshDaemon {} [] [])).2.holder.sessions[1]? = none ∧
      (Daemon.newSession 1 refusedCreation "work" none none
        (freshDaemon {} [] [])).2.database.rows[1]? = none) ∧
      (Daemon.attach 1 refusedCreation
        (freshDaemon {(1, endedRow)} [] [])).2.database.rows[1]? = some endedRow ∧
      (Daemon.attach 1 refusedCreation
        (freshDaemon {(1, endedRow)} [] [])).2.holder.isRunning 1 = false := by
  have hnever : ∀ d : Daemon, ¬ d.Serves 1 refusedCreation :=
    fun _ h => absurd h.2.2 nofun
  constructor
  · exact (creation_all_or_nothing.1 freshDaemon_new "work" none none 0
      (replies_of_toOption (by decide +kernel))).mpr (fun h => absurd h (hnever _)) rfl
  · exact creation_all_or_nothing.2 endedRow freshDaemon_closed
      (fun _ _ h => absurd h (hnever _)) (replies_of_toOption (by decide +kernel))

end sample

end PersistShell
