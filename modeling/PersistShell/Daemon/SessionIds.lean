import PersistShell.Daemon.Creation
import PersistShell.Daemon.Idempotence
import PersistShell.Program.Run

/-! The ids of sessions over the life of the daemon: where `run_foreground` starts to count, and
the two requests that move the counter. The counter is a `u32` of the release build, which does
not check `+= 1`. -/

namespace PersistShell
open Program MetadataStore

/-- The daemon, while a process of it runs or between two. -/
structure Server where
  daemon : Daemon
  nextId : Nat := 1
  running : Bool := false
  /-- The ids that the process has answered with. -/
  handedOut : List SessionId := []

abbrev ServerProgram := Program Server PersistError

/-- `u32::saturating_add`. -/
def saturatingAdd (a b : Nat) : Nat := min (a + b) (2 ^ 32 - 1)

/-- The request for a session under an id: `create_identity` refuses 0, where nothing has failed
before it. -/
def Creation.identified (c : Creation) (s : SessionId) : Creation :=
  { c with
    unprepared := c.unprepared.or (if s = 0 then
      some (.invalidArgument "shell state session id must be non-zero") else none) }

theorem Creation.identified_zero (c : Creation) :
    ∃ error, (c.identified 0).unprepared = some error := by
  unfold Creation.identified
  cases c.unprepared with
  | none => exact ⟨_, rfl⟩
  | some error => exact ⟨error, rfl⟩

/-- What `run_foreground` finds. -/
structure Boot where
  /-- The holder that is started when none has survived. -/
  holder : Option (Runtime × { id : Bytes // id.length = 16 }) := none
  recoveryEnvironment : RecoveryEnvironmentConfig := {}
  exitContexts : Std.ExtTreeMap Nat ExitContext := {}
  values : MapOrder
  /-- How its calls and its statements go. -/
  turns : List CallTurn := []
  answers : List Answer := []

/-- The id after the highest one of the inventory. -/
def nextHolderId (snapshot : HolderInventorySnapshot) : Except PersistError Nat :=
  match snapshot.ids.max? with
  | none => .ok 1
  | some id =>
    if id + 1 < 2 ^ 32 then .ok (id + 1)
    else .error (.invalidArgument "session id space exhausted")

/-- The daemon when the inventory of the holder has been read. -/
def Daemon.boot (d : Daemon) (boot : Boot) : Daemon :=
  let d := match boot.holder with
    | none => d
    | some (holder, instanceId) => { d with holder, instanceId }
  { d with
    cache := d.inventory, turns := boot.turns
    database := { d.database with answers := boot.answers } }

/-- A request that is not about ids, or a round of the main loop: no row is deleted. -/
structure Service where
  run : DaemonProgram Unit
  keeps : ∀ s : SessionId, Leaves (fun d => d.database.rows[s]? ≠ none) run

namespace Server

/-- A part of the server that has nothing to do with the counter. -/
def served {α : Type} (m : DaemonProgram α) : ServerProgram α :=
  zoom Server.daemon (fun daemon st => { st with daemon }) m

def takeId : ServerProgram SessionId := fun st =>
  (.ok st.nextId, { st with nextId := (st.nextId + 1) % 2 ^ 32 })

section

variable [SerdeJson]

/-- `run_foreground`, up to the counter. -/
def runForeground (boot : Boot) : ServerProgram Unit := do
  update fun st => { st with daemon := st.daemon.boot boot }
  let snapshot ← read (·.daemon.cache)
  let policy ← lift boot.recoveryEnvironment.policy
  let reconciliation : Reconciliation := { snapshot, exitContexts := boot.exitContexts, policy }
  let result ← served (Daemon.metadata (reconciliation.reconcileMetadata boot.values))
  served (forEach result.exitedSessions Daemon.retireExited)
  let _ ← served (Daemon.metadata listSessions)
  let metadataNext ← served (Daemon.metadata nextSessionId)
  let holderNext ← lift (nextHolderId snapshot)
  let manager : SessionManager :=
    { orphanedSessions := result.orphanedSessions, recoveryEnvironment := boot.recoveryEnvironment }
  update fun st => { st with
    daemon := { st.daemon with manager }
    nextId := max metadataNext holderNext, running := true, handedOut := [] }

/-- The id of a reply is kept in mind; 0 is no id. -/
def answered (reply : SessionId) (st : Server) : Server :=
  if reply = 0 then st else { st with handedOut := reply :: st.handedOut }

/-- `NewSession`: the id of the reply. -/
def newSession (c : Creation) (name : String) (cwd shell : Option String) :
    ServerProgram SessionId := do
  let s ← takeId
  let reply ← served (Daemon.newSession s (c.identified s) name cwd shell)
  update (answered reply)
  return reply

/-- A closed session is restored, the counter moved past it, and its row reopened. -/
def reopen (s : SessionId) (c : Creation) : Option SessionRecord → ServerProgram Unit
  | none => pure ()
  | some record => do
    match ← served (attempt (Daemon.restoreClosedSession s record (c.identified s))) with
    | .error _ => pure ()
    | .ok () =>
      update fun st => { st with nextId := max st.nextId (saturatingAdd s 1) }
      let _ ← served (Daemon.recordOrClose s (reopenSession s))

/-- `Attach`. -/
def attach (s : SessionId) (c : Creation) : ServerProgram Bool := do
  let record := ((← served (attempt (Daemon.metadata (getSession s)))).toOption).join
  let locked := record.any SessionRecord.locked
  let runtimeExists := (← served (Daemon.holderEntry s)).isSome
  reopen s c (record.filter fun record => !locked && !runtimeExists && record.status = .closed)
  served (Daemon.grant s locked)

inductive Action where
  | start (boot : Boot)
  | newSession (c : Creation) (name : String) (cwd shell : Option String)
  | attach (s : SessionId) (c : Creation)
  | serve (service : Service)
  | die

/-- The server after a program: a process that aborts is gone. -/
def after {α : Type} (m : ServerProgram α) (st : Server) : Server :=
  match m st with
  | (.panic, st') => { st' with running := false }
  | (_, st') => st'

/-- One request, one round of the main loop, a start of the daemon or its end. -/
def step (st : Server) : Action → Option Server
  | .start boot => if st.running then none else some (after (runForeground boot) st)
  | .newSession c name cwd shell =>
    if st.running then some (after (newSession c name cwd shell) st) else none
  | .attach s c => if st.running then some (after (attach s c) st) else none
  | .serve service => if st.running then some (after (served service.run) st) else none
  | .die => if st.running then some { st with running := false } else none

end

end Server

namespace MetadataStore

section kept

variable {s id : SessionId} {J : Database → Prop}

/-- The row of a session is there. -/
def Kept (s : SessionId) (db : Database) : Prop := db.rows[s]? ≠ none

theorem Kept.insert {db : Database} {record : SessionRecord} (h : Kept s db) :
    Kept s { db with rows := db.rows.insert id record } := by
  unfold Kept
  rw [NatMap.get_insert]
  split
  · exact Option.some_ne_none record
  · exact h

theorem kept_answer : Leaves (Kept s) answer := by
  intro db h
  rw [answer_run]
  exact h

theorem kept_query {α : Type} (operation : String) (f : Rows → α) :
    Leaves (Kept s) (query operation f) := by
  refine Leaves.bind kept_answer fun a => ?_
  cases a.fault with
  | some message => exact Leaves.fail _
  | none => exact Leaves.read _

theorem kept_execute (operation : String) (guard : SessionRecord → Bool)
    (set : String → SessionRecord → SessionRecord) :
    Leaves (Kept s) (execute operation id guard set) := by
  refine Leaves.bind kept_answer fun a => ?_
  cases a.fault with
  | some message => exact Leaves.fail _
  | none =>
    refine Leaves.bind (Leaves.read _) fun rows => ?_
    cases rows[id]?.filter guard with
    | none => exact Leaves.pure _
    | some record =>
      exact Leaves.bind (Leaves.update fun _ h => h.insert) fun _ => Leaves.pure _

theorem kept_createSession (name : String) (cwd shell : Option String) :
    Leaves (Kept s) (createSession id name cwd shell) := by
  refine Leaves.bind kept_answer fun a => ?_
  cases a.fault with
  | some message => exact Leaves.fail _
  | none =>
    refine Leaves.bind (Leaves.read _) fun rows => ?_
    exact Leaves.bind (Leaves.reject _ _) fun _ => Leaves.update fun _ h => h.insert

/-- The row that is inserted was not there. -/
theorem createSession_returns {name : String} {cwd shell : Option String} {db db' : Database}
    (h : createSession id name cwd shell db = (.ok (), db')) :
    db.rows[id]? = none ∧ Kept id db' := by
  obtain ⟨a, db₁, hanswer, h⟩ := bind_returns.mp h
  rw [answer_run] at hanswer
  cases hanswer
  cases hfault : (db.answerAt 0).fault with
  | some message =>
    rw [hfault] at h
    cases h
  | none =>
    rw [hfault] at h
    obtain ⟨rows, db₂, hread, h⟩ := bind_returns.mp h
    cases hread
    obtain ⟨_, db₃, hreject, h⟩ := bind_returns.mp h
    unfold rejectIf at hreject
    split at hreject
    · cases hreject
    · rename_i hcontains
      cases hreject
      cases h
      constructor
      · by_contra hrow
        exact hcontains ((NatMap.contains_iff _ _).mpr (Option.ne_none_iff_exists'.mp hrow))
      · unfold Kept
        rw [NatMap.get_insert, if_pos rfl]
        exact Option.some_ne_none _

/-- The statements that have to find their row. -/
theorem kept_required (operation : String) (set : String → SessionRecord → SessionRecord) :
    Leaves (Kept s) (do
      let affected ← execute operation id (fun _ => true) set
      requireSessionUpdated affected) :=
  Leaves.bind (kept_execute _ _ _) fun _ => Leaves.reject _ _

theorem kept_reconcileRunning (holderInstance : String) (holderGeneration : Nat) :
    Leaves (Kept s) (reconcileRunning id holderInstance holderGeneration) :=
  Leaves.bind (Leaves.lift _) fun _ => kept_required _ _

theorem kept_markLost (holderInstance : String) (holderGeneration : Nat) :
    Leaves (Kept s) (markLost id holderInstance holderGeneration) :=
  Leaves.bind (Leaves.lift _) fun _ => Leaves.bind (kept_execute _ _ _) fun _ => Leaves.pure _

theorem kept_bindRow {statement : Metadata Unit} (snapshot : HolderInventorySnapshot)
    (h : Leaves (Kept s) statement) : Leaves (Kept s) (Daemon.bindRow id statement snapshot) :=
  Leaves.bind h fun _ => kept_reconcileRunning _ _

variable [SerdeJson] (r : Reconciliation)

theorem kept_reconcileEntry (records : Rows) (result : ReconciliationResult)
    (entry : HolderSessionEntry) : Leaves (Kept s) (r.reconcileEntry records result entry) := by
  unfold Reconciliation.reconcileEntry
  cases records[entry.sessionId]? with
  | none => exact Leaves.pure _
  | some record =>
    dsimp only
    split
    · exact Leaves.bind (kept_markLost _ _) fun _ => Leaves.pure _
    · cases entry.state with
      | running => exact Leaves.bind (kept_reconcileRunning _ _) fun _ => Leaves.pure _
      | exited =>
        refine Leaves.bind (Leaves.lift _) fun columns => Leaves.bind ?_ fun _ => Leaves.pure _
        exact Leaves.bind (Leaves.lift _) fun _ => kept_required _ _

/-- A reconciliation deletes no row. -/
theorem kept_reconcileMetadata (values : MapOrder) :
    Leaves (Kept s) (r.reconcileMetadata values) := by
  refine Leaves.bind (kept_query _ _) fun records => Leaves.bind ?_ fun result =>
    Leaves.bind (Leaves.forEach (fun row => ?_) _) fun _ => Leaves.pure _
  · exact Leaves.foldlM (kept_reconcileEntry r records) _ _
  · unfold Reconciliation.markMissing
    split
    · exact kept_markLost _ _
    · exact Leaves.pure _

end kept

end MetadataStore

namespace Daemon

section recorded

variable [SerdeJson] {s id : SessionId} {c : Creation} {d d' : Daemon}

/-- The session is on record. -/
def Recorded (s : SessionId) (d : Daemon) : Prop := d.database.rows[s]? ≠ none

omit [SerdeJson] in
/-- What the holder does is nothing to the rows. -/
theorem recorded_frame (d : Daemon) (holder : Runtime) (cache : HolderInventorySnapshot)
    (turns : List CallTurn) (h : Recorded s d) : Recorded s { d with holder, cache, turns } := h

omit [SerdeJson] in
theorem recorded_metadata {α : Type} {statement : Metadata α} (h : Leaves (Kept s) statement) :
    Leaves (Recorded s) (metadata statement) :=
  Leaves.bind (leaves_turn recorded_frame) fun _ d hd => h d.database hd

omit [SerdeJson] in
theorem recorded_create : Leaves (Recorded s) (create id c) := by
  unfold create
  cases c.unprepared with
  | some error => exact Leaves.fail _
  | none =>
    exact Leaves.bind (leaves_request recorded_frame _) fun _ =>
      leaves_refreshInventory recorded_frame

theorem recorded_closeSession : Leaves (Recorded s) (closeSession id) := by
  intro d hd
  have hkept := database_closeSession (s := id) d rfl
  rw [Recorded, hkept]
  exact hd

theorem recorded_recordOrClose {statement : Metadata Unit} (h : Leaves (Kept s) statement) :
    Leaves (Recorded s) (recordOrClose id statement) := by
  refine Leaves.bind (Leaves.read _) fun cache => ?_
  refine Leaves.bind (recorded_metadata (kept_bindRow cache h)).attempt fun result => ?_
  cases result with
  | ok a => exact Leaves.pure _
  | error e => exact Leaves.bind recorded_closeSession.attempt fun _ => Leaves.pure _

theorem recorded_newSession (name : String) (cwd shell : Option String) :
    Leaves (Recorded s) (newSession id c name cwd shell) := by
  refine Leaves.bind recorded_create.attempt fun result => ?_
  cases result with
  | error e => exact Leaves.pure _
  | ok a =>
    refine Leaves.bind (recorded_recordOrClose (kept_createSession name cwd shell)) fun recorded =>
      ?_
    cases recorded with
    | true => exact Leaves.pure _
    | false => exact Leaves.pure _

theorem recorded_restore (record : SessionRecord) :
    Leaves (Recorded s) (restoreClosedSession id record c) := by
  refine Leaves.bind (Leaves.read _) fun manager => Leaves.bind (Leaves.lift _) fun policy => ?_
  refine Leaves.bind (Leaves.lift _) fun _ => Leaves.bind (Leaves.read _) fun entry => ?_
  split
  · exact Leaves.bind (Leaves.fail _) fun _ => recorded_create
  · exact recorded_create

omit [SerdeJson] in
theorem recorded_grant (locked : Bool) : Leaves (Recorded s) (grant id locked) := by
  refine Leaves.bind (Leaves.read _) fun entry => ?_
  split
  · refine Leaves.bind (Leaves.attempt ?_) fun result => ?_
    · exact Leaves.bind (leaves_request recorded_frame _) fun _ =>
        leaves_refreshInventory recorded_frame
    · cases result with
      | ok a => exact Leaves.pure _
      | error e => exact Leaves.pure _
  · exact Leaves.pure _

theorem recorded_finalize (observedExit : Option ExitContext) :
    Leaves (Recorded s) (finalizeRuntimeExit id observedExit) := by
  have hfinish : Leaves (Recorded s) (finishClose id) := Leaves.update fun _ h => h
  refine Leaves.bind (Leaves.bind (leaves_gather recorded_frame _) fun _ => Leaves.pure _)
    fun closed => ?_
  cases closed with
  | none => exact Leaves.fail _
  | some closed =>
    refine Leaves.bind (Leaves.read _) fun manager => Leaves.bind (recorded_metadata ?_) fun _ => ?_
    · exact Leaves.bind (kept_execute _ _ _) fun _ => Leaves.pure _
    · dsimp only
      split
      · exact Leaves.bind (leaves_retireExited recorded_frame _) fun _ => hfinish
      · exact hfinish

/-- A request that cannot be prepared goes no further. -/
theorem newSession_unprepared {error : PersistError} {name : String} {cwd shell : Option String}
    (h : c.unprepared = some error) : newSession s c name cwd shell d = (.ok 0, d) := by
  have hcreate : attempt (create s c) d = (.ok (.error error), d) := by
    unfold create
    rw [h]
    rfl
  unfold newSession
  rw [bind_ok hcreate]
  rfl

/-- A session is answered for when the holder had nothing under its id, and no row had it. -/
theorem newSession_answers {name : String} {cwd shell : Option String} {reply : SessionId}
    (hrun : newSession s c name cwd shell d = (.ok reply, d')) (hreply : reply ≠ 0) :
    reply = s ∧ c.unprepared = none ∧ d.holder.sessions[s]? = none ∧ ¬ Recorded s d ∧
      Recorded s d' := by
  obtain ⟨r, d₁, hcreate, hrun⟩ := bind_returns.mp hrun
  cases r with
  | error e =>
    cases hrun
    exact absurd rfl hreply
  | ok a =>
    obtain ⟨recorded, d₂, hrecord, hrun⟩ := bind_returns.mp hrun
    cases recorded with
    | false =>
      cases hrun
      exact absurd rfl hreply
    | true =>
      cases hrun
      rcases create_cases hcreate with ⟨⟨e, he⟩, -⟩ | ⟨⟨e, he⟩, -⟩ | ⟨-, hserves, -, -, rfl⟩
      · cases he
      · cases he
      obtain ⟨hprepared, -, hstarted⟩ := hserves
      have hholder : d.holder.sessions[s]? = none := by
        rw [← turned_absent]
        by_contra hthere
        unfold Runtime.start at hstarted
        split at hstarted
        · cases hstarted
        · rw [if_pos ((NatMap.contains_iff _ _).mpr (Option.ne_none_iff_exists'.mp hthere))]
            at hstarted
          cases hstarted
      obtain ⟨cache, d₂, hcache, hrecord⟩ := bind_returns.mp hrecord
      cases hcache
      obtain ⟨result, d₃, hwrite, hrecord⟩ := bind_returns.mp hrecord
      cases result with
      | error e =>
        obtain ⟨r, d₄, -, hrecord⟩ := bind_returns.mp hrecord
        cases hrecord
      | ok a =>
        cases hrecord
        obtain ⟨hbind, -⟩ := metadata_returns (attempt_cases hwrite)
        obtain ⟨_, db, hinsert, hbind⟩ := bind_returns.mp hbind
        obtain ⟨hrow, hkept⟩ := createSession_returns hinsert
        refine ⟨rfl, hprepared, hholder, fun h => h hrow, ?_⟩
        exact (kept_reconcileRunning _ _).run hbind hkept

end recorded

end Daemon

section services

variable [SerdeJson]

/-- The end of a session. -/
def Service.finalize (s : SessionId) (observedExit : Option ExitContext) : Service where
  run := Daemon.finalizeRuntimeExit s observedExit
  keeps _ := Daemon.recorded_finalize observedExit

/-- A session that has exited is retired, if the holder answers. -/
def Daemon.retire (s : SessionId) : DaemonProgram Unit := do
  match ← attempt (retireExited s) with
  | .ok () => finishClose s
  | .error _ => pure ()

omit [SerdeJson] in
theorem Daemon.recorded_retire {s id : SessionId} : Leaves (Recorded s) (retire id) := by
  refine Leaves.bind (leaves_retireExited recorded_frame _).attempt fun result => ?_
  cases result with
  | ok a => exact Leaves.update fun _ h => h
  | error e => exact Leaves.pure _

/-- A round of the main loop: the inventory is read again, and the rows reconciled with it. -/
def Service.round (exitContexts : Std.ExtTreeMap Nat ExitContext) (policy : EnvironmentPolicy)
    (values : MapOrder) : Service where
  run := do
    Daemon.refreshInventory
    let snapshot ← read (·.cache)
    let reconciliation : Reconciliation := { snapshot, exitContexts, policy }
    let result ← Daemon.metadata (reconciliation.reconcileMetadata values)
    update fun d => { d with
      manager := { d.manager with orphanedSessions := result.orphanedSessions } }
    forEach result.exitedSessions Daemon.retire
  keeps s := by
    refine Leaves.bind (Daemon.leaves_refreshInventory Daemon.recorded_frame) fun _ => ?_
    refine Leaves.bind (Leaves.read _) fun snapshot => Leaves.bind ?_ fun result => ?_
    · exact Daemon.recorded_metadata (kept_reconcileMetadata _ values)
    · refine Leaves.bind (Leaves.update fun _ h => h) fun _ => ?_
      exact Leaves.forEach (fun _ => Daemon.recorded_retire) _

end services

namespace Server

section runs

variable [SerdeJson] {st st' : Server} {c : Creation} {name : String} {cwd shell : Option String}
  {reply s : SessionId}

/-- The server when an id has been taken. -/
def taken (st : Server) : Server := { st with nextId := (st.nextId + 1) % 2 ^ 32 }

/-- `NewSession` takes the next id, whatever becomes of the session. -/
theorem newSession_run (c : Creation) (name : String) (cwd shell : Option String) (st : Server) :
    newSession c name cwd shell st =
      match Daemon.newSession st.nextId (c.identified st.nextId) name cwd shell st.daemon with
      | (.ok reply, daemon) => (.ok reply, answered reply { st.taken with daemon })
      | (.err e, daemon) => (.err e, { st.taken with daemon })
      | (.panic, daemon) => (.panic, { st.taken with daemon }) := by
  have htake : takeId st = (.ok st.nextId, st.taken) := rfl
  unfold newSession
  rw [bind_ok htake, bind_apply, served, zoom]
  dsimp only [taken]
  rcases Daemon.newSession st.nextId (c.identified st.nextId) name cwd shell st.daemon with
    ⟨reply | e | _, daemon⟩ <;> rfl

/-- A program answers as one without the counter does, and does the same to the daemon. -/
def Tracks {α : Type} (m : ServerProgram α) (n : DaemonProgram α) : Prop :=
  ∀ st, ∃ st', m st = ((n st.daemon).1, st') ∧ st'.daemon = (n st.daemon).2

omit [SerdeJson] in
theorem Tracks.served {α : Type} (m : DaemonProgram α) : Tracks (Server.served m) m :=
  fun _ => ⟨_, rfl, rfl⟩

omit [SerdeJson] in
theorem Tracks.pure {α : Type} (a : α) :
    Tracks (Pure.pure a : ServerProgram α) (Pure.pure a : DaemonProgram α) :=
  fun _ => ⟨_, rfl, rfl⟩

omit [SerdeJson] in
theorem Tracks.bind {α β : Type} {m : ServerProgram α} {n : DaemonProgram α}
    {f : α → ServerProgram β} {g : α → DaemonProgram β} (hm : Tracks m n)
    (hf : ∀ a, Tracks (f a) (g a)) : Tracks (m >>= f) (n >>= g) := by
  intro st
  obtain ⟨st', hrun, hdaemon⟩ := hm st
  rcases hn : n st.daemon with ⟨a | e | _, d⟩
  · rw [hn] at hrun hdaemon
    obtain rfl : st'.daemon = d := hdaemon
    rw [bind_ok hrun, bind_ok hn]
    exact hf a st'
  · rw [hn] at hrun hdaemon
    rw [bind_err hrun, bind_err hn]
    exact ⟨st', rfl, hdaemon⟩
  · rw [hn] at hrun hdaemon
    rw [bind_panic hrun, bind_panic hn]
    exact ⟨st', rfl, hdaemon⟩

omit [SerdeJson] in
/-- The counter is nothing to the daemon. -/
theorem Tracks.counted {α : Type} {f : Server → Nat} {m : ServerProgram α} {n : DaemonProgram α}
    (h : Tracks m n) : Tracks (update (fun st => { st with nextId := f st }) >>= fun _ => m) n :=
  fun st => h { st with nextId := f st }

/-- `Attach` does to the daemon what it does without the counter. -/
theorem attach_tracks (s : SessionId) (c : Creation) :
    Tracks (attach s c) (Daemon.attach s (c.identified s)) := by
  refine Tracks.bind (Tracks.served _) fun read => Tracks.bind (Tracks.served _) fun entry => ?_
  refine Tracks.bind ?_ fun _ => Tracks.served _
  cases (read.toOption.join.filter fun record =>
    !read.toOption.join.any SessionRecord.locked && !entry.isSome && record.status = .closed) with
  | none => exact Tracks.pure _
  | some record =>
    refine Tracks.bind (Tracks.served _) fun result => ?_
    cases result with
    | error e => exact Tracks.pure _
    | ok a => exact Tracks.counted (Tracks.bind (Tracks.served _) fun _ => Tracks.pure _)

/-- The counter is a `u32`, and what has been handed out is on record. -/
structure Counts (st : Server) : Prop where
  bounded : st.nextId < 2 ^ 32
  recorded : ∀ s ∈ st.handedOut, Daemon.Recorded s st.daemon

omit [SerdeJson] in
theorem Counts.served {α : Type} {m : DaemonProgram α}
    (h : ∀ s, Leaves (Daemon.Recorded s) m) : Leaves Counts (Server.served m) :=
  fun st hst => ⟨hst.bounded, fun s hs => h s st.daemon (hst.recorded s hs)⟩

theorem Counts.newSession : Leaves Counts (Server.newSession c name cwd shell) := by
  intro st hst
  have hkept : ∀ s ∈ st.handedOut, Daemon.Recorded s (Daemon.newSession st.nextId
      (c.identified st.nextId) name cwd shell st.daemon).2 :=
    fun s hs => Daemon.recorded_newSession name cwd shell st.daemon (hst.recorded s hs)
  have hnext : (st.nextId + 1) % 2 ^ 32 < 2 ^ 32 := Nat.mod_lt _ (by decide)
  rw [newSession_run]
  rcases hrun : Daemon.newSession st.nextId (c.identified st.nextId) name cwd shell st.daemon with
    ⟨reply | e | _, daemon⟩
  · rw [hrun] at hkept
    dsimp only
    unfold answered
    split
    · exact ⟨hnext, hkept⟩
    · rename_i hreply
      obtain ⟨rfl, -, -, -, hrecorded⟩ := Daemon.newSession_answers hrun hreply
      refine ⟨hnext, fun s hs => ?_⟩
      rcases List.mem_cons.mp hs with rfl | hs
      · exact hrecorded
      · exact hkept s hs
  · rw [hrun] at hkept
    exact ⟨hnext, hkept⟩
  · rw [hrun] at hkept
    exact ⟨hnext, hkept⟩

theorem Counts.reopen (record : Option SessionRecord) :
    Leaves Counts (Server.reopen s c record) := by
  cases record with
  | none => exact Leaves.pure _
  | some record =>
    refine Leaves.bind (Counts.served fun _ => (Daemon.recorded_restore record).attempt)
      fun result => ?_
    cases result with
    | error e => exact Leaves.pure _
    | ok a =>
      refine Leaves.bind (Leaves.update fun st hst => ⟨?_, hst.recorded⟩) fun _ =>
        Leaves.bind (Counts.served fun _ => Daemon.recorded_recordOrClose (kept_required _ _))
          fun _ => Leaves.pure _
      have hbounded := hst.bounded
      dsimp only [saturatingAdd]
      omega

theorem Counts.attach : Leaves Counts (Server.attach s c) := by
  refine Leaves.bind (Counts.served fun _ => ?_) fun read => ?_
  · exact (Daemon.recorded_metadata (kept_query _ _)).attempt
  refine Leaves.bind (Counts.served fun _ => Leaves.read _) fun entry => ?_
  exact Leaves.bind (Counts.reopen _) fun _ => Counts.served fun _ => Daemon.recorded_grant _

omit [SerdeJson] in
theorem nextSessionId_bound {db db' : Database} {id : Nat}
    (h : nextSessionId db = (.ok id, db')) : id < 2 ^ 32 := by
  obtain ⟨highest, db₁, -, h⟩ := bind_returns.mp h
  obtain ⟨_, db₂, -, h⟩ := bind_returns.mp h
  obtain ⟨_, db₃, hspace, h⟩ := bind_returns.mp h
  cases h
  unfold rejectIf at hspace
  split at hspace
  · cases hspace
  · rename_i hroom
    exact Nat.lt_of_not_le hroom

omit [SerdeJson] in
theorem nextHolderId_bound {snapshot : HolderInventorySnapshot} {id : Nat}
    (h : nextHolderId snapshot = .ok id) : id < 2 ^ 32 := by
  unfold nextHolderId at h
  split at h
  · cases h
    decide
  · split at h
    · cases h
      assumption
    · cases h

/-- A daemon that has started counts from a `u32`. -/
theorem Counts.runForeground (boot : Boot) :
    Within (fun st => st.running = false) (Server.runForeground boot) (fun _ => Counts)
      (fun st => st.running = false) := by
  have hserved : ∀ {α : Type} (m : DaemonProgram α), Within (fun st => st.running = false)
      (Server.served m) (fun _ st => st.running = false) (fun st => st.running = false) := by
    intro α m st hst
    unfold Server.served zoom
    dsimp only
    cases (m st.daemon).1 <;> exact hst
  refine Within.bind (Within.update (Q := fun _ st => st.running = false) fun _ => id) fun _ => ?_
  refine Within.bind (Within.read (Q := fun _ st => st.running = false) fun _ => id)
    fun snapshot => ?_
  refine Within.bind (Within.lift (Q := fun _ st => st.running = false) (fun _ _ _ => id)
    fun _ => id) fun policy => ?_
  refine Within.bind (hserved _) fun result => ?_
  refine Within.bind (hserved _) fun _ => Within.bind (hserved _) fun _ => ?_
  refine Within.bind (Q := fun next st => st.running = false ∧ next < 2 ^ 32) ?_ fun next => ?_
  · intro st hst
    unfold Server.served zoom
    dsimp only
    rcases hrun : Daemon.metadata nextSessionId st.daemon with ⟨next | e | _, d⟩
    · exact ⟨hst, nextSessionId_bound (Daemon.metadata_returns hrun).1⟩
    · exact hst
    · exact hst
  · refine Within.bind (Q := fun holderNext _ => next < 2 ^ 32 ∧ holderNext < 2 ^ 32)
      (Within.lift (fun _ h _ hst => ⟨hst.2, nextHolderId_bound h⟩) fun _ hst => hst.1)
      fun holderNext => ?_
    exact Within.update fun st hst => ⟨Nat.max_lt.mpr hst, fun s hs => absurd hs List.not_mem_nil⟩

/-- A running process counts. -/
def Sound (st : Server) : Prop := st.running = true → Counts st

omit [SerdeJson] in
theorem Sound.after {α : Type} {m : ServerProgram α} (h : Leaves Counts m)
    (hrunning : st.running = true) (hst : Sound st) : Sound (Server.after m st) := by
  have hcounts := h st (hst hrunning)
  unfold Server.after
  rcases hrun : m st with ⟨a | e | _, st'⟩
  · rw [hrun] at hcounts
    exact fun _ => hcounts
  · rw [hrun] at hcounts
    exact fun _ => hcounts
  · exact fun h => absurd h Bool.false_ne_true

theorem Sound.step {action : Action} (hst : Sound st) (hstep : step st action = some st') :
    Sound st' := by
  cases action with
  | start boot =>
    obtain ⟨hrunning, hstep⟩ := Option.ite_none_left_eq_some.mp hstep
    cases hstep
    have hstarted := Counts.runForeground boot st (Bool.eq_false_of_not_eq_true hrunning)
    unfold Server.after
    rcases hrun : Server.runForeground boot st with ⟨a | e | _, st'⟩
    · rw [hrun] at hstarted
      exact fun _ => hstarted
    · rw [hrun] at hstarted
      exact fun h => absurd h (by rw [hstarted]; exact Bool.false_ne_true)
    · exact fun h => absurd h Bool.false_ne_true
  | newSession c name cwd shell =>
    obtain ⟨hrunning, hstep⟩ := Option.ite_none_right_eq_some.mp hstep
    cases hstep
    exact hst.after Counts.newSession hrunning
  | attach s c =>
    obtain ⟨hrunning, hstep⟩ := Option.ite_none_right_eq_some.mp hstep
    cases hstep
    exact hst.after Counts.attach hrunning
  | serve service =>
    obtain ⟨hrunning, hstep⟩ := Option.ite_none_right_eq_some.mp hstep
    cases hstep
    exact hst.after (Counts.served service.keeps) hrunning
  | die =>
    obtain ⟨-, hstep⟩ := Option.ite_none_right_eq_some.mp hstep
    cases hstep
    exact fun h => absurd h Bool.false_ne_true

/-- Over every run, the process counts. -/
theorem Sound.of_reachable (h : Run.Reachable Server.step (fun st => st.running = false) st) :
    Sound st := by
  apply h.invariant
  · intro st hstopped hrunning
    exact absurd (hstopped.symm.trans hrunning) Bool.false_ne_true
  · exact fun _ _ _ hst _ hstep => hst.step hstep

/-- The id is of a row, of a session that the holder has, or of a reply of this process. -/
def InUse (s : SessionId) (st : Server) : Prop :=
  Daemon.Recorded s st.daemon ∨ st.daemon.holder.sessions[s]? ≠ none ∨ s ∈ st.handedOut

/-- No id is left. -/
def Exhausted (st : Server) : Prop := ∀ s, 0 < s → s < 2 ^ 32 → InUse s st

/-- What a creation does with an id. -/
structure Allocates (st : Server) (reply : SessionId) (st' : Server) : Prop where
  /-- The id of a reply was not in use. -/
  unused : reply ≠ 0 → ¬ InUse reply st
  /-- There is no session of id 0. -/
  nonzero : st.nextId = 0 → reply = 0 ∧ st'.daemon = st.daemon
  /-- When no id is left, the creation fails, and the counter does not start over. -/
  exhausted : Exhausted st → reply = 0 ∧ st.nextId ≤ st'.nextId

/-- In every run, a creation answers with an id that is not in use, or fails; it starts to count
again exactly when no id is left and the counter is at its end. -/
theorem newSession_allocates_iff
    (hreach : Run.Reachable Server.step (fun st => st.running = false) st)
    (hrunning : st.running = true)
    (hrun : newSession c name cwd shell st = (.ok reply, st')) :
    Allocates st reply st' ↔ ¬ (Exhausted st ∧ st.nextId = 2 ^ 32 - 1) := by
  have hcounts := Sound.of_reachable hreach hrunning
  rw [newSession_run] at hrun
  rcases hcreate : Daemon.newSession st.nextId (c.identified st.nextId) name cwd shell st.daemon
    with ⟨reply' | e | _, daemon⟩
  swap
  · rw [hcreate] at hrun
    cases hrun
  swap
  · rw [hcreate] at hrun
    cases hrun
  rw [hcreate] at hrun
  cases hrun
  have hunused : reply ≠ 0 → reply = st.nextId ∧ ¬ InUse reply st := by
    intro hreply
    obtain ⟨rfl, -, hholder, hrow, -⟩ := Daemon.newSession_answers hcreate hreply
    refine ⟨rfl, ?_⟩
    rintro (hrecorded | hheld | hhanded)
    · exact hrow hrecorded
    · exact hheld hholder
    · exact hrow (hcounts.recorded _ hhanded)
  have hnext : (answered reply { st.taken with daemon }).nextId = (st.nextId + 1) % 2 ^ 32 := by
    unfold answered
    split <;> rfl
  constructor
  · rintro hallocates ⟨hexhausted, hlast⟩
    have hwrapped := (hallocates.exhausted hexhausted).2
    rw [hnext, hlast] at hwrapped
    exact absurd hwrapped (by decide)
  · intro hroom
    refine ⟨fun hreply => (hunused hreply).2, fun hzero => ?_, fun hexhausted => ?_⟩
    · rw [hzero] at hcreate
      obtain ⟨error, herror⟩ := c.identified_zero
      rw [Daemon.newSession_unprepared herror] at hcreate
      cases hcreate
      exact ⟨rfl, rfl⟩
    · constructor
      · by_contra hreply
        obtain ⟨rfl, hfree⟩ := hunused hreply
        exact hfree (hexhausted _ (Nat.pos_of_ne_zero hreply) hcounts.bounded)
      · rw [hnext]
        have hbounded := hcounts.bounded
        have hbelow : st.nextId ≠ 2 ^ 32 - 1 := fun h => hroom ⟨hexhausted, h⟩
        rw [Nat.mod_eq_of_lt (by omega)]
        exact Nat.le_succ _

end runs

end Server

section sample
attribute [local instance] Json.serdeJson

/-- Rows of closed sessions, of ids up to `n`. -/
def closedRows : Nat → Rows
  | 0 => {}
  | n + 1 => (closedRows n).insert (n + 1) endedRow

theorem closedRows_get (n s : Nat) :
    (closedRows n)[s]? = if 0 < s ∧ s ≤ n then some endedRow else none := by
  induction n with
  | zero =>
    rw [if_neg (by omega)]
    exact Std.ExtTreeMap.getElem?_empty
  | succ n ih =>
    rw [closedRows, NatMap.get_insert, ih]
    split
    · rw [if_pos (by omega)]
    · refine if_congr ?_ rfl rfl
      omega

namespace Daemon

theorem length_twos : (List.replicate 16 (2 : UInt8)).length = 16 := List.length_replicate

/-- A daemon whose calls and statements do not fail. -/
def calm (rows : Rows) (holder : Runtime) (cache : HolderInventorySnapshot) : Daemon where
  database := { rows }
  holder
  instanceId := ⟨List.replicate 16 2, length_twos⟩
  cache

/-- The inventory of a holder. -/
def listed (holder : Runtime) : HolderInventorySnapshot :=
  inventory { freshDaemon {} [] [] with holder }

/-- The holder when it has started a shell. -/
def running (s : SessionId) (holder : Runtime) : Runtime :=
  (holder.start s (plainCreation none)).2

section quiet

variable {rows : Rows} {holder : Runtime} {cache : HolderInventorySnapshot} {s : SessionId}
  {record : SessionRecord} {name : String} {cwd shell : Option String}

theorem identified_plain (hs : s ≠ 0) : (plainCreation none).identified s = plainCreation none := by
  unfold Creation.identified
  rw [if_neg hs]
  rfl

theorem start_plain (hholder : holder.sessions[s]? = none) :
    holder.start s (plainCreation none) = (.ok (), running s holder) := by
  have habsent : holder.sessions.contains s = false := by
    rw [Std.ExtTreeMap.contains_eq_isSome_getElem?, hholder]
    rfl
  have hstarted : (holder.start s (plainCreation none)).1 = .ok () := by
    unfold Runtime.start plainCreation
    rw [habsent]
    rfl
  exact Prod.ext hstarted rfl

theorem generation_running (hholder : holder.sessions[s]? = none) :
    (running s holder).generation = max ((holder.generation + 1) % 2 ^ 64) 1 := by
  have hstarted : (running s holder) = (holder.start s (plainCreation none)).2 := rfl
  have habsent : holder.sessions.contains s = false := by
    rw [Std.ExtTreeMap.contains_eq_isSome_getElem?, hholder]
    rfl
  rw [hstarted]
  unfold Runtime.start plainCreation
  rw [habsent]
  rfl

theorem sessions_running (id : SessionId) (hholder : holder.sessions[s]? = none) :
    (running s holder).sessions[id]? =
      if s = id then some liveSession else holder.sessions[id]? := by
  have habsent : holder.sessions.contains s = false := by
    rw [Std.ExtTreeMap.contains_eq_isSome_getElem?, hholder]
    rfl
  unfold running Runtime.start plainCreation
  rw [habsent]
  exact NatMap.get_insert _ _ _ _

theorem metadata_calm {α : Type} {statement : Metadata α} {r : Outcome PersistError α}
    {rows' : Rows} (h : statement ⟨rows, []⟩ = (r, ⟨rows', []⟩)) :
    metadata statement (calm rows holder cache) = (r, calm rows' holder cache) := by
  have hrun : metadata statement (calm rows holder cache) = ((statement ⟨rows, []⟩).1,
      { calm rows holder cache with database := (statement ⟨rows, []⟩).2 }) := rfl
  rw [hrun, h]
  rfl

theorem request_calm (serve : Runtime → Except PersistError Unit × Runtime)
    {r : Except PersistError Unit} {holder' : Runtime} (hserve : serve holder = (r, holder')) :
    request serve (calm rows holder cache) =
      (lift r : DaemonProgram Unit) (calm rows holder' cache) := by
  have hrequest : request serve (calm rows holder cache) =
      (lift (serve holder).1 : DaemonProgram Unit) (calm rows (serve holder).2 cache) := rfl
  rw [hrequest, hserve]

theorem create_calm (hholder : holder.sessions[s]? = none) :
    create s (plainCreation none) (calm rows holder cache) =
      (.ok (), calm rows (running s holder) (listed (running s holder))) := by
  have hrequest : request (fun r => r.start s (plainCreation none)) (calm rows holder cache) =
      (.ok (), calm rows (running s holder) cache) :=
    (request_calm (fun r => r.start s (plainCreation none)) (start_plain hholder)).trans rfl
  exact (bind_ok hrequest).trans rfl

/-- The holder refuses an id that it has. -/
theorem create_conflict (hheld : holder.sessions[s]? ≠ none) :
    ∃ e, create s (plainCreation none) (calm rows holder cache) =
      (.err e, calm rows holder cache) := by
  have hpresent : holder.sessions.contains s = true :=
    (NatMap.contains_iff _ _).mpr (Option.ne_none_iff_exists'.mp hheld)
  have hstart : ∃ e, holder.start s (plainCreation none) = (.error e, holder) := by
    unfold Runtime.start plainCreation
    rw [hpresent]
    exact ⟨_, rfl⟩
  obtain ⟨e, hstart⟩ := hstart
  have hrequest : request (fun r => r.start s (plainCreation none)) (calm rows holder cache) =
      (.err e, calm rows holder cache) :=
    (request_calm (fun r => r.start s (plainCreation none)) hstart).trans rfl
  exact ⟨e, bind_err hrequest⟩

theorem validate_listed (hgeneration : holder.generation ≤ 2 ^ 63 - 1) :
    validateHolderState (listed holder).instanceHex (listed holder).generation = .ok () := by
  have hhex : ¬ ((utf8 (listed { stateDir := "" }).instanceHex).length ≠ 32 ∨
      ¬ (utf8 (listed { stateDir := "" }).instanceHex).all isAsciiHexDigit) := by decide +kernel
  have hinstance : (listed holder).instanceHex = (listed { stateDir := "" }).instanceHex := rfl
  have hsame : (listed holder).generation = holder.generation := rfl
  unfold validateHolderState rejectIf
  rw [hinstance, hsame, if_neg hhex]
  exact if_neg (Nat.not_lt.mpr hgeneration)

/-- The row of a session is written, and bound to the holder. -/
theorem recordOrClose_calm {statement : Metadata Unit}
    (hgeneration : holder.generation ≤ 2 ^ 63 - 1)
    (hstatement : statement ⟨rows, []⟩ = (.ok (), ⟨rows.insert s record, []⟩)) :
    ∃ rows', recordOrClose s statement (calm rows holder (listed holder)) =
        (.ok true, calm rows' holder (listed holder)) ∧
      ∀ id, id ≠ s → rows'[id]? = rows[id]? := by
  let snapshot := listed holder
  let rows' := (rows.insert s record).insert s
    (SessionRecord.setRunning snapshot.instanceHex snapshot.generation "" record)
  have hrow : (rows.insert s record)[s]? = some record :=
    (NatMap.get_insert _ _ _ _).trans (if_pos rfl)
  have hexecute : execute "reconcile running holder session" s (fun _ => true)
      (SessionRecord.setRunning snapshot.instanceHex snapshot.generation)
        ⟨rows.insert s record, []⟩ = (.ok 1, ⟨rows', []⟩) := execute_changes rfl hrow
  have hlift : (lift (validateHolderState snapshot.instanceHex snapshot.generation) :
      Metadata Unit) ⟨rows.insert s record, []⟩ = (.ok (), ⟨rows.insert s record, []⟩) := by
    rw [validate_listed hgeneration]
    rfl
  have hbind : bindRow s statement snapshot ⟨rows, []⟩ = (.ok (), ⟨rows', []⟩) :=
    (bind_ok hstatement).trans ((bind_ok hlift).trans ((bind_ok hexecute).trans rfl))
  have hrecorded : attempt (metadata (bindRow s statement snapshot)) (calm rows holder snapshot) =
      (.ok (.ok ()), calm rows' holder snapshot) := by
    rw [attempt_apply, metadata_calm hbind]
  refine ⟨rows', (bind_ok hrecorded).trans rfl, fun id hid => ?_⟩
  rw [NatMap.get_insert, if_neg (Ne.symm hid), NatMap.get_insert, if_neg (Ne.symm hid)]

/-- A new session is started and put on record. -/
theorem newSession_calm (name : String) (cwd shell : Option String)
    (hgeneration : (running s holder).generation ≤ 2 ^ 63 - 1)
    (hholder : holder.sessions[s]? = none) (hrow : rows[s]? = none) :
    ∃ rows', newSession s (plainCreation none) name cwd shell (calm rows holder cache) =
        (.ok s, calm rows' (running s holder) (listed (running s holder))) ∧
      ∀ id, id ≠ s → rows'[id]? = rows[id]? := by
  obtain ⟨record, hinsert⟩ := @createSession_run ⟨rows, []⟩ s name cwd shell hrow
  obtain ⟨rows', hrecord, hothers⟩ := recordOrClose_calm hgeneration hinsert
  have hcreate : attempt (create s (plainCreation none)) (calm rows holder cache) =
      (.ok (.ok ()), calm rows (running s holder) (listed (running s holder))) := by
    rw [attempt_apply, create_calm hholder]
  exact ⟨rows', (bind_ok hcreate).trans ((bind_ok hrecord).trans rfl), hothers⟩

/-- An id that the holder has is refused. -/
theorem newSession_conflict (name : String) (cwd shell : Option String)
    (hheld : holder.sessions[s]? ≠ none) :
    newSession s (plainCreation none) name cwd shell (calm rows holder cache) =
      (.ok 0, calm rows holder cache) := by
  obtain ⟨e, hcreate⟩ : ∃ e, create s (plainCreation none) (calm rows holder cache) =
      (.err e, calm rows holder cache) := create_conflict hheld
  have hattempt : attempt (create s (plainCreation none)) (calm rows holder cache) =
      (.ok (.error e), calm rows holder cache) := by
    rw [attempt_apply, hcreate]
  exact (bind_ok hattempt).trans rfl

theorem default_policy : ∃ policy, ({} : RecoveryEnvironmentConfig).policy = .ok policy := by
  have hvalid : ({} : RecoveryEnvironmentConfig).policy.toOption.isSome = true := by
    decide +kernel
  cases h : ({} : RecoveryEnvironmentConfig).policy with
  | error e =>
    rw [h] at hvalid
    cases hvalid
  | ok policy => exact ⟨policy, rfl⟩

/-- A session that the holder does not have is not listed. -/
theorem holderEntry_calm (hholder : holder.sessions[s]? = none) :
    holderEntry s (calm rows holder (listed holder)) =
      (.ok none, calm rows holder (listed holder)) := by
  obtain ⟨entry, hentry, hsome⟩ := holderEntry_run s (calm rows holder (listed holder))
  cases entry with
  | none => exact hentry
  | some entry =>
    have hfound : (holder.entries.find? fun entry => entry.sessionId = s).isSome = true :=
      ((Bool.and_eq_true _ _).mp hsome.symm).2
    obtain ⟨entry, hmem, hid⟩ := List.find?_isSome.mp hfound
    have hkey : s ∈ holder.entries.map HolderSessionEntry.sessionId :=
      List.mem_map.mpr ⟨entry, hmem, of_decide_eq_true hid⟩
    rw [Runtime.entries_ids, NatMap.mem_keys_iff, hholder] at hkey
    obtain ⟨_, hkey⟩ := hkey
    cases hkey

/-- A closed session is started again. -/
theorem restore_calm (hholder : holder.sessions[s]? = none) :
    attempt (restoreClosedSession s endedRow (plainCreation none))
        (calm rows holder (listed holder)) =
      (.ok (.ok ()), calm rows (running s holder) (listed (running s holder))) := by
  have hentry : holderEntry s (calm rows holder (listed holder)) =
      (.ok none, calm rows holder (listed holder)) := holderEntry_calm hholder
  obtain ⟨policy, hpolicy⟩ := default_policy
  have hlift : (lift ({} : RecoveryEnvironmentConfig).policy : DaemonProgram EnvironmentPolicy)
      (calm rows holder (listed holder)) = (.ok policy, calm rows holder (listed holder)) := by
    rw [hpolicy]
    rfl
  have hdecode : (lift (decodeEnvironment endedRow.envSnapshot policy) :
      DaemonProgram (Option EnvironmentSnapshot)) (calm rows holder (listed holder)) =
        (.ok none, calm rows holder (listed holder)) := rfl
  have hrestore : restoreClosedSession s endedRow (plainCreation none)
      (calm rows holder (listed holder)) =
        create s (plainCreation none) (calm rows holder (listed holder)) :=
    (bind_ok hlift).trans ((bind_ok hdecode).trans ((bind_ok hentry).trans rfl))
  rw [attempt_apply, hrestore, create_calm hholder]

/-- Attaching does not change what the daemon knows. -/
theorem grant_calm (s : SessionId) (locked : Bool) :
    ∃ granted, grant s locked (calm rows holder (listed holder)) =
      (.ok granted, calm rows holder (listed holder)) := by
  obtain ⟨entry, hentry, -⟩ := holderEntry_run s (calm rows holder (listed holder))
  unfold grant
  rw [bind_ok hentry]
  split
  · let serve : Runtime → Except PersistError Unit × Runtime := fun r =>
      (if r.isRunning s then .ok ()
        else .error (.invalidArgument "holder operation failed: NotFound: not found"), r)
    have hserve : ∃ r, serve holder = (r, holder) := ⟨_, rfl⟩
    obtain ⟨r, hserve⟩ := hserve
    have hrequest : request serve (calm rows holder (listed holder)) =
        (lift r : DaemonProgram Unit) (calm rows holder (listed holder)) :=
      request_calm serve hserve
    cases r with
    | ok a =>
      have hattach : attempt (attachHolder s) (calm rows holder (listed holder)) =
          (.ok (.ok ()), calm rows holder (listed holder)) := by
        rw [attempt_apply, attachHolder, bind_ok (hrequest.trans rfl)]
        rfl
      rw [bind_ok hattach]
      exact ⟨_, rfl⟩
    | error e =>
      have hattach : attempt (attachHolder s) (calm rows holder (listed holder)) =
          (.ok (.error e), calm rows holder (listed holder)) := by
        rw [attempt_apply, attachHolder, bind_err (hrequest.trans rfl)]
      rw [bind_ok hattach]
      exact ⟨_, rfl⟩
  · exact ⟨_, rfl⟩

end quiet

end Daemon

/-- Rows of closed sessions are left alone when the holder has nothing. -/
theorem reconcile_closed {r : Reconciliation} {rows : Rows} (values : MapOrder)
    (hentries : r.snapshot.entries = [])
    (hclosed : ∀ (id : Nat) record, rows[id]? = some record → isActive record.status = false) :
    r.reconcileMetadata values ⟨rows, []⟩ = (.ok {}, ⟨rows, []⟩) := by
  have hlist : listSessions ⟨rows, []⟩ = (.ok rows, ⟨rows, []⟩) := rfl
  have hsweep : ∀ l : List (Nat × SessionRecord), (∀ row ∈ l, isActive row.2.status = false) →
      forEach l r.markMissing ⟨rows, []⟩ = (.ok (), ⟨rows, []⟩) := by
    intro l hl
    induction l with
    | nil => rfl
    | cons row l ih =>
      have hskip : r.markMissing row ⟨rows, []⟩ = (.ok (), ⟨rows, []⟩) := by
        have hinactive := hl row List.mem_cons_self
        unfold Reconciliation.markMissing
        rw [if_neg fun h => absurd (hinactive.symm.trans h.1) Bool.false_ne_true]
        rfl
      exact (bind_ok hskip).trans (ih fun row hrow => hl row (List.mem_cons_of_mem _ hrow))
  have hrows := hsweep (values.order rows.toList) fun row hrow =>
    hclosed row.1 row.2 (Std.ExtTreeMap.mem_toList_iff_getElem?_eq_some.mp
      ((values.perm _).mem_iff.mp hrow))
  unfold Reconciliation.reconcileMetadata
  rw [bind_ok hlist, hentries]
  exact (bind_ok hrows).trans rfl

namespace Server

theorem served_run {α : Type} {m : DaemonProgram α} {r : Outcome PersistError α}
    {st : Server} {d : Daemon} (h : m st.daemon = (r, d)) :
    served m st = (r, { st with daemon := d }) := by
  rw [served, zoom, h]

def plainBoot : Boot where
  values := anyOrder

/-- A server that does not run, with the rows of its database. -/
def stopped (rows : Rows) : Server where
  daemon := freshDaemon rows [] []

def emptyHolder : Runtime := { stateDir := "/run/session-state" }

theorem nearlyFull_starts {rows : Rows} (hrows : ∀ s : Nat, rows[s]? =
      if 0 < s ∧ s ≤ 2 ^ 32 - 2 then some endedRow else none) :
    runForeground plainBoot (stopped rows) =
      (.ok (), { daemon := Daemon.calm rows emptyHolder (Daemon.listed emptyHolder)
                 nextId := 2 ^ 32 - 1, running := true, handedOut := [] }) := by
  have hhighest : rows.keys.max? = some (2 ^ 32 - 2) := by
    rw [List.max?_eq_some_iff]
    constructor
    · rw [NatMap.mem_keys_iff, hrows]
      exact ⟨_, rfl⟩
    · intro id hid
      obtain ⟨record, hrecord⟩ := (NatMap.mem_keys_iff _ _).mp hid
      rw [hrows] at hrecord
      split at hrecord
      · rename_i hbounds
        exact hbounds.2
      · cases hrecord
  have hnext : nextSessionId ⟨rows, []⟩ = (.ok (2 ^ 32 - 1), ⟨rows, []⟩) := by
    have hquery : query "find next session id" (fun rows => rows.keys.max?.getD 0) ⟨rows, []⟩ =
        (.ok (2 ^ 32 - 2), ⟨rows, []⟩) := by
      have hread : query "find next session id" (fun rows => rows.keys.max?.getD 0) ⟨rows, []⟩ =
        (.ok (rows.keys.max?.getD 0), ⟨rows, []⟩) := rfl
      rw [hread, hhighest]
      rfl
    exact (bind_ok hquery).trans rfl
  have hclosed : ∀ (id : Nat) record, rows[id]? = some record →
      isActive record.status = false := by
    intro id record hrecord
    rw [hrows] at hrecord
    split at hrecord
    · cases hrecord
      rfl
    · cases hrecord
  obtain ⟨policy, hpolicy⟩ := Daemon.default_policy
  let st : Server := { daemon := Daemon.calm rows emptyHolder (Daemon.listed emptyHolder) }
  let reconciliation : Reconciliation :=
    { snapshot := Daemon.listed emptyHolder, exitContexts := {}, policy }
  have hboot : (update fun st => { st with daemon := st.daemon.boot plainBoot } :
      ServerProgram Unit) (stopped rows) = (.ok (), st) := rfl
  have hsnapshot : (read (·.daemon.cache) : ServerProgram HolderInventorySnapshot) st =
      (.ok (Daemon.listed emptyHolder), st) := rfl
  have hlift : (lift plainBoot.recoveryEnvironment.policy : ServerProgram EnvironmentPolicy) st =
      (.ok policy, st) := by
    have hdefault : plainBoot.recoveryEnvironment = {} := rfl
    rw [hdefault, hpolicy]
    rfl
  have hreconcile : served (Daemon.metadata (reconciliation.reconcileMetadata plainBoot.values))
      st = (.ok {}, st) :=
    served_run (Daemon.metadata_calm (reconcile_closed plainBoot.values rfl hclosed))
  have hretire : served (forEach ({} : ReconciliationResult).exitedSessions Daemon.retireExited)
      st = (.ok (), st) := rfl
  have hlist : served (Daemon.metadata listSessions) st = (.ok rows, st) :=
    served_run (Daemon.metadata_calm rfl)
  have hcount : served (Daemon.metadata nextSessionId) st = (.ok (2 ^ 32 - 1), st) :=
    served_run (Daemon.metadata_calm hnext)
  unfold runForeground
  rw [bind_ok hboot, bind_ok hsnapshot, bind_ok hlift]
  exact (bind_ok hreconcile).trans ((bind_ok hretire).trans ((bind_ok hlist).trans
    ((bind_ok hcount).trans rfl)))

/-- A closed session is reopened, and the counter moved past it. -/
theorem attach_calm {st : Server} {rows : Rows} {holder : Runtime} {s : SessionId}
    (hdaemon : st.daemon = Daemon.calm rows holder (Daemon.listed holder)) (hs : s ≠ 0)
    (hrow : rows[s]? = some endedRow) (hholder : holder.sessions[s]? = none)
    (hgeneration : (Daemon.running s holder).generation ≤ 2 ^ 63 - 1) :
    ∃ granted rows', attach s (plainCreation none) st = (.ok granted, { st with
        daemon := Daemon.calm rows' (Daemon.running s holder)
          (Daemon.listed (Daemon.running s holder))
        nextId := max st.nextId (saturatingAdd s 1) }) ∧
      ∀ id, id ≠ s → rows'[id]? = rows[id]? := by
  obtain ⟨record', hreopen⟩ := @reopenSession_run ⟨rows, []⟩ s endedRow hrow
  obtain ⟨rows', hrecord, hothers⟩ := Daemon.recordOrClose_calm hgeneration hreopen
  let held := Daemon.running s holder
  obtain ⟨granted, hgrant⟩ : ∃ granted, Daemon.grant s false
      (Daemon.calm rows' held (Daemon.listed held)) =
        (.ok granted, Daemon.calm rows' held (Daemon.listed held)) := Daemon.grant_calm s false
  refine ⟨granted, rows', ?_, hothers⟩
  have hget : getSession s ⟨rows, []⟩ = (.ok (some endedRow), ⟨rows, []⟩) := by
    have hquery : getSession s ⟨rows, []⟩ = (.ok rows[s]?, ⟨rows, []⟩) := rfl
    rw [hquery, hrow]
  have hread : served (attempt (Daemon.metadata (getSession s))) st =
      (.ok (.ok (some endedRow)), st) := by
    have hrun : attempt (Daemon.metadata (getSession s)) st.daemon =
        (.ok (.ok (some endedRow)), st.daemon) := by
      rw [attempt_apply, hdaemon, Daemon.metadata_calm hget]
    exact served_run hrun
  have hentry : served (Daemon.holderEntry s) st = (.ok none, st) := by
    have hrun : Daemon.holderEntry s st.daemon = (.ok none, st.daemon) := by
      rw [hdaemon, Daemon.holderEntry_calm hholder]
    exact served_run hrun
  have hrestore : attempt (Daemon.restoreClosedSession s endedRow (plainCreation none))
      (Daemon.calm rows holder (Daemon.listed holder)) =
        (.ok (.ok ()), Daemon.calm rows held (Daemon.listed held)) := Daemon.restore_calm hholder
  rw [← hdaemon, ← Daemon.identified_plain hs] at hrestore
  have hreopened : reopen s (plainCreation none) (some endedRow) st = (.ok (), { st with
      daemon := Daemon.calm rows' (Daemon.running s holder)
        (Daemon.listed (Daemon.running s holder))
      nextId := max st.nextId (saturatingAdd s 1) }) :=
    (bind_ok (served_run hrestore)).trans ((bind_ok rfl).trans
      ((bind_ok (served_run hrecord)).trans rfl))
  exact (bind_ok hread).trans ((bind_ok hentry).trans ((bind_ok hreopened).trans
    (served_run hgrant)))

/-- The daemon starts, answers with the highest id, and reopens the session of the id before it.
No id is left, and the next creation fails and sets the counter back. -/
theorem counter_starts_over : ∃ st st', Run.Reachable step (fun st => st.running = false) st ∧
    st.running = true ∧ newSession (plainCreation none) "work" none none st = (.ok 0, st') ∧
    Exhausted st ∧ st'.nextId = 0 ∧ ¬ Allocates st 0 st' := by
  obtain ⟨rows, hrows⟩ : ∃ rows : Rows, ∀ s : Nat,
      rows[s]? = if 0 < s ∧ s ≤ 2 ^ 32 - 2 then some endedRow else none :=
    ⟨_, closedRows_get _⟩
  let top : SessionId := 2 ^ 32 - 1
  let last : SessionId := 2 ^ 32 - 2
  let held := Daemon.running top emptyHolder
  let held' := Daemon.running last held
  have htop : top ≠ 0 := by decide
  have hempty : ∀ s : SessionId, emptyHolder.sessions[s]? = none :=
    fun _ => Std.ExtTreeMap.getElem?_empty
  have hheld : held.sessions[last]? = none := by
    rw [Daemon.sessions_running last (hempty top), if_neg (by decide), hempty]
  have hgeneration : held.generation = 1 := Daemon.generation_running (hempty top)
  have hgeneration' : held'.generation = 2 := by
    rw [Daemon.generation_running hheld, hgeneration]
    rfl
  -- the start
  let st₁ : Server :=
    { daemon := Daemon.calm rows emptyHolder (Daemon.listed emptyHolder)
      nextId := top, running := true, handedOut := [] }
  have hstart : step (stopped rows) (.start plainBoot) = some st₁ := by
    change some (after (runForeground plainBoot) (stopped rows)) = _
    unfold after
    rw [nearlyFull_starts hrows]
  -- the highest id is answered with
  obtain ⟨rows₂, hcreate, hothers₂⟩ : ∃ rows₂, Daemon.newSession top (plainCreation none) "work"
        none none (Daemon.calm rows emptyHolder (Daemon.listed emptyHolder)) =
          (.ok top, Daemon.calm rows₂ held (Daemon.listed held)) ∧
      ∀ id, id ≠ top → rows₂[id]? = rows[id]? :=
    Daemon.newSession_calm "work" none none (by rw [hgeneration]; decide)
      (hempty top) ((hrows top).trans (if_neg (by decide)))
  let st₂ : Server :=
    { daemon := Daemon.calm rows₂ held (Daemon.listed held)
      nextId := 0, running := true, handedOut := [top] }
  have hcreated : step st₁ (.newSession (plainCreation none) "work" none none) = some st₂ := by
    change some (after (newSession (plainCreation none) "work" none none) st₁) = _
    have hplain : (plainCreation none).identified st₁.nextId = plainCreation none :=
      Daemon.identified_plain htop
    have hover : st₁.taken.nextId = 0 := by
      change (2 ^ 32 - 1 + 1) % 2 ^ 32 = 0
      decide
    have hanswered : ∀ st, answered top st = { st with handedOut := top :: st.handedOut } :=
      fun _ => if_neg htop
    unfold after
    rw [newSession_run, hplain, hcreate]
    dsimp only
    rw [hanswered]
    dsimp only
    rw [hover]
    rfl
  -- the session of the id before it is reopened
  have hrow : rows₂[last]? = some endedRow := by
    rw [hothers₂ last (by decide), hrows, if_pos (by decide)]
  have hdaemon : st₂.daemon = Daemon.calm rows₂ held (Daemon.listed held) := rfl
  obtain ⟨granted, rows₃, hattach, hothers₃⟩ := attach_calm hdaemon (by decide) hrow hheld
    (by rw [hgeneration']; decide)
  let st₃ : Server :=
    { daemon := Daemon.calm rows₃ held' (Daemon.listed held')
      nextId := top, running := true, handedOut := [top] }
  have hattached : step st₂ (.attach last (plainCreation none)) = some st₃ := by
    change some (after (attach last (plainCreation none)) st₂) = _
    unfold after
    rw [hattach]
    rfl
  have hexhausted : Exhausted st₃ := by
    intro s hpos hbound
    by_cases hhighest : s = top
    · exact .inr (.inr (hhighest ▸ List.mem_cons_self))
    by_cases hlast : s = last
    · refine .inr (.inl ?_)
      have hsession : held'.sessions[s]? = some liveSession := by
        rw [Daemon.sessions_running s hheld, if_pos hlast.symm]
      change held'.sessions[s]? ≠ none
      rw [hsession]
      exact Option.some_ne_none _
    · left
      change rows₃[s]? ≠ none
      have hbelow : s ≤ 2 ^ 32 - 2 :=
        Nat.le_sub_one_of_lt (Nat.lt_of_le_of_ne (Nat.le_sub_one_of_lt hbound) hhighest)
      rw [hothers₃ s hlast, hothers₂ s hhighest, hrows, if_pos ⟨hpos, hbelow⟩]
      exact Option.some_ne_none _
  -- the highest id is tried again
  have hheldTop : held'.sessions[top]? ≠ none := by
    rw [Daemon.sessions_running top hheld, if_neg (by decide),
      Daemon.sessions_running top (hempty top), if_pos rfl]
    exact Option.some_ne_none _
  have hplain : (plainCreation none).identified st₃.nextId = plainCreation none :=
    Daemon.identified_plain htop
  have hrefused : newSession (plainCreation none) "work" none none st₃ =
      (.ok 0, { st₃ with nextId := 0 }) := by
    have hover : st₃.taken.nextId = 0 := by
      change (2 ^ 32 - 1 + 1) % 2 ^ 32 = 0
      decide
    have hconflict : Daemon.newSession top (plainCreation none) "work" none none st₃.daemon =
        (.ok 0, st₃.daemon) := Daemon.newSession_conflict "work" none none hheldTop
    rw [newSession_run, hplain, hconflict]
    dsimp only
    rw [hover]
    rfl
  have hstopped : Run.Reachable step (fun st => st.running = false) (stopped rows) :=
    .start rfl
  have hreach := ((hstopped.step trivial hstart).step trivial hcreated).step trivial hattached
  refine ⟨st₃, { st₃ with nextId := 0 }, hreach, rfl, hrefused, hexhausted, rfl, fun h => ?_⟩
  have hwrapped : 2 ^ 32 - 1 ≤ 0 := (h.exhausted hexhausted).2
  exact absurd hwrapped (by decide)

/-- A daemon without sessions starts, and answers with id 1. -/
def started : Server := after (runForeground plainBoot) (stopped {})

theorem first_session_allocates :
    (newSession (plainCreation none) "work" none none started).1 = .ok 1 ∧
      Allocates started 1 (newSession (plainCreation none) "work" none none started).2 := by
  have hrunning : started.running = true := by decide +kernel
  have hreply : (newSession (plainCreation none) "work" none none started).1 = .ok 1 := by
    decide +kernel
  have hlow : started.nextId = 1 := by decide +kernel
  have hstopped : Run.Reachable step (fun st => st.running = false) (stopped {}) := .start rfl
  have hreach : Run.Reachable step (fun st => st.running = false) started :=
    hstopped.step (a := .start plainBoot) trivial rfl
  refine ⟨hreply, (newSession_allocates_iff hreach hrunning (Prod.ext hreply rfl)).mpr ?_⟩
  rintro ⟨-, hlast⟩
  rw [hlow] at hlast
  exact absurd hlast (by decide)

end Server

end sample

end PersistShell
