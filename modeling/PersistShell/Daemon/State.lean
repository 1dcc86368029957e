import PersistShell.Core.Config
import PersistShell.Daemon.Reconcile
import PersistShell.Holder.Runtime

/-! The daemon, one call after the other: the session manager, the database, the holder that
it talks to, and the inventory that it last read from it. A script says how the calls to come
go: the shells that end before them, what `/proc` shows, which calls fail, and where the
daemon dies. -/

namespace PersistShell
open Program

structure RecoveryContext where
  cwd : Option String := none
  environment : Option EnvironmentSnapshot := none
  deriving DecidableEq

def RecoveryContext.mergeWithFallback (context : RecoveryContext)
    (fallback : Option RecoveryContext) : RecoveryContext :=
  let fallback := fallback.getD {}
  { cwd := context.cwd.or fallback.cwd
    environment := context.environment.or fallback.environment }

structure SessionManager where
  orphanedSessions : Finset Nat := ∅
  recoveryContexts : Std.ExtTreeMap Nat RecoveryContext := {}
  recoveryEnvironment : RecoveryEnvironmentConfig := {}

/-- A shell that ended: what the holder records of it. -/
structure Collected where
  sessionId : SessionId
  exitCode : Int
  state : Option ShellState := none
  now : Nat := 0

namespace Runtime

/-- The end of a shell is recorded and its terminal dropped. -/
def collect (r : Runtime) (c : Collected) : Runtime :=
  match r.sessions[c.sessionId]? with
  | none => r
  | some session =>
    match session.pty with
    | none => r
    | some pty =>
      ({ r with
        ptyToSession := r.ptyToSession.erase pty.masterFd
        sessions := r.sessions.insert c.sessionId
          { session.withExit pty c.exitCode c.state c.now with pty := none } }).bumpGeneration

/-- What the holder tells of the exit of a session; the environment only where it was
negotiated. -/
def exitContext (r : Runtime) (environmentContext : Bool) (s : SessionId) : Option ExitContext :=
  r.sessions[s]?.bind fun session => session.exitCode.map fun exitCode =>
    { sessionId := s, exitCode, cwd := session.finalCwd
      environment := if environmentContext then session.finalEnvironment else none }

/-- `Runtime::close`, but for the signal. -/
def markClosing (r : Runtime) (s : SessionId) : Runtime :=
  match r.sessions[s]? with
  | none => r
  | some session =>
    if session.exitCode.isSome ∨ session.pty.isNone then r
    else { r with sessions := r.sessions.insert s { session with closing := true } }

/-- A session that has exited is removed. -/
def retire (r : Runtime) (s : SessionId) : Runtime :=
  match r.sessions[s]? with
  | none => r
  | some session =>
    if session.exitCode.isNone then r
    else ({ r with sessions := r.sessions.erase s }).bumpGeneration

/-- The whole inventory, in the order of the session ids. -/
def entries (r : Runtime) : List HolderSessionEntry :=
  r.sessions.toList.map fun session => session.2.entry session.1

theorem entries_ids (r : Runtime) :
    r.entries.map HolderSessionEntry.sessionId = r.sessions.keys := by
  rw [← Std.ExtTreeMap.map_fst_toList_eq_keys, entries, List.map_map]
  rfl

theorem entries_sorted (r : Runtime) :
    (r.entries.map HolderSessionEntry.sessionId).Pairwise (· < ·) := by
  rw [entries_ids]
  exact r.sessions.ordered_keys.imp Nat.compare_eq_lt.mp

end Runtime

/-- How one call goes. -/
structure CallTurn where
  /-- The shells that end before the call. -/
  collected : List Collected := []
  /-- The error that the call fails with before the holder has seen it. -/
  fault : Option PersistError := none
  /-- The error that the call fails with after the holder has served it. -/
  lost : Option PersistError := none
  /-- Whether the daemon dies before the call. -/
  dies : Bool := false
  /-- What `/proc` shows of a shell. -/
  cwd : Option String := none
  environ : Option Bytes := none

structure Daemon where
  manager : SessionManager := {}
  database : Database := {}
  holder : Runtime
  instanceId : { id : Bytes // id.length = 16 }
  environmentContext : Bool := true
  cache : HolderInventorySnapshot
  turns : List CallTurn := []

abbrev DaemonProgram := Program Daemon PersistError

namespace Daemon

/-- The inventory that the holder would give now. -/
def inventory (d : Daemon) : HolderInventorySnapshot where
  instanceId := d.instanceId.val
  generation := d.holder.generation
  entries := d.holder.entries
  instanceId_length := d.instanceId.property
  entries_sorted := d.holder.entries_sorted

/-- Time passes up to the next call. -/
def turn : DaemonProgram CallTurn := fun d =>
  match d.turns with
  | [] => (.ok {}, d)
  | t :: rest =>
    let d := { d with turns := rest, holder := t.collected.foldl Runtime.collect d.holder }
    if t.dies then (.panic, d) else (.ok t, d)

/-- A request to the holder and its answer. -/
def request {α : Type} (serve : Runtime → Except PersistError α × Runtime) : DaemonProgram α := do
  let t ← turn
  match t.fault with
  | some error => throw error
  | none =>
    let served ← read fun d => serve d.holder
    update fun d => { d with holder := served.2 }
    match t.lost with
    | some error => throw error
    | none => lift served.1

/-- `HolderRuntime::refresh_inventory`. -/
def refreshInventory : DaemonProgram Unit := do
  let t ← turn
  match t.fault with
  | some error => throw error
  | none => update fun d => { d with cache := d.inventory }

/-- `HolderRuntime::exit_context`. -/
def exitContext (s : SessionId) : DaemonProgram ExitContext := do
  let environmentContext ← read (·.environmentContext)
  request fun r => (match r.exitContext environmentContext s with
    | some context => .ok context
    | none => .error (.invalidArgument "missing holder exit code"), r)

/-- `HolderRuntime::close`: the session is asked to close, and its exit is waited for. -/
def close (s : SessionId) : DaemonProgram ExitContext := do
  request fun r => (if r.sessions.contains s then .ok ()
    else .error (.invalidArgument "holder operation failed: NotFound: not found"),
    r.markClosing s)
  exitContext s

/-- `HolderRuntime::retire_exited`. -/
def retireExited (s : SessionId) : DaemonProgram Unit := do
  request fun r => (match r.sessions[s]? with
    | none => .error (.invalidArgument "holder operation failed: NotFound: not found")
    | some session =>
      if session.exitCode.isNone then
        .error (.invalidArgument "holder operation failed: Conflict: session is running")
      else .ok (), r.retire s)
  refreshInventory

/-- A statement on the database; the daemon may die before it. -/
def metadata {α : Type} (statement : Metadata α) : DaemonProgram α := do
  let _ ← turn
  fun d =>
    let (outcome, database) := statement d.database
    (outcome, { d with database })

def manager_ : DaemonProgram SessionManager := read (·.manager)

section leaves

-- Calls on the holder change what the holder has, the inventory that was last read, and the
-- script.
variable {J : Daemon → Prop}
  (hJ : ∀ d holder cache turns, J d → J { d with holder, cache, turns })

include hJ

theorem leaves_turn : Leaves J turn := by
  intro d hd
  unfold turn
  split
  · exact hd
  · dsimp only
    split
    · exact hJ d _ d.cache _ hd
    · exact hJ d _ d.cache _ hd

theorem leaves_request {α : Type} (serve : Runtime → Except PersistError α × Runtime) :
    Leaves J (request serve) := by
  refine Leaves.bind (leaves_turn hJ) fun t => ?_
  cases t.fault with
  | some error => exact Leaves.fail error
  | none =>
    dsimp only
    refine Leaves.bind (Leaves.read _) fun served => ?_
    refine Leaves.bind (Leaves.update fun d hd => hJ d served.2 d.cache d.turns hd) fun _ => ?_
    cases t.lost with
    | some error => exact Leaves.fail error
    | none => exact Leaves.lift _

theorem leaves_refreshInventory : Leaves J refreshInventory := by
  refine Leaves.bind (leaves_turn hJ) fun t => ?_
  cases t.fault with
  | some error => exact Leaves.fail error
  | none => exact Leaves.update fun d hd => hJ d d.holder _ d.turns hd

theorem leaves_exitContext (s : SessionId) : Leaves J (exitContext s) :=
  Leaves.bind (Leaves.read _) fun _ => leaves_request hJ _

theorem leaves_close (s : SessionId) : Leaves J (close s) :=
  Leaves.bind (leaves_request hJ _) fun _ => leaves_exitContext hJ s

theorem leaves_retireExited (s : SessionId) : Leaves J (retireExited s) :=
  Leaves.bind (leaves_request hJ _) fun _ => leaves_refreshInventory hJ

end leaves

/-- A statement that returns has run on the database as it was. -/
theorem metadata_returns {α : Type} {statement : Metadata α} {d d' : Daemon} {a : α}
    (h : metadata statement d = (.ok a, d')) :
    statement d.database = (.ok a, d'.database) ∧ d'.manager = d.manager := by
  obtain ⟨t, d₁, hturn, h⟩ := bind_returns.mp h
  have hkept : d₁.database = d.database ∧ d₁.manager = d.manager :=
    (leaves_turn (J := fun e => e.database = d.database ∧ e.manager = d.manager)
      fun _ _ _ _ => id).run hturn ⟨rfl, rfl⟩
  rcases hrun : statement d₁.database with ⟨outcome, database⟩
  have hresult : (outcome, { d₁ with database }) = (.ok a, d') := by
    rw [← h]
    dsimp only
    rw [hrun]
  cases hresult
  rw [← hkept.1]
  exact ⟨hrun, hkept.2⟩

end Daemon

end PersistShell
