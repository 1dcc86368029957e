import PersistShell.Holder.World

/-! The runtime of the holder: its sessions, their terminals and ring buffers, and every
operation on them. -/

namespace PersistShell

def maxPendingInput : Nat := 1024 * 1024

structure OutputBatch where
  sessionId : SessionId
  chunks : List Bytes
  logDropped : Nat

structure ExitedSession where
  sessionId : SessionId
  exitCode : Int
  cwd : Option String
  environment : Option EnvironmentSnapshot
  ptyFd : Fd
  closing : Bool

def sessionResponse (s : SessionId) (status : OperationStatus) (message : String) :
    OperationResponse :=
  { sessionId := s, status, message }

def splitSlash : Bytes → List Bytes
  | [] => [[]]
  | b :: bs =>
    match splitSlash bs with
    | [] => [[b]]
    | component :: rest => if b = 47 then [] :: component :: rest else (b :: component) :: rest

/-- The normal components of a path; `.` and repeated slashes do not count. -/
def pathComponents (path : String) : List Bytes :=
  (splitSlash (utf8 path)).filter fun component => component ≠ [] ∧ component ≠ [46]

def identityFromParts (s : SessionId) (incarnation : Bytes) (stateFile : String) : Bool :=
  let expected := utf8 (toString s ++ "-" ++ encodeIncarnation incarnation ++ ".json")
  s ≠ 0 && incarnation ≠ zeroId && isAbsolute stateFile && !tooLong stateFile maxHolderPath &&
    (pathComponents stateFile).getLast? = some expected &&
    (pathComponents stateFile).dropLast.getLast? = some (utf8 "session-state")

/-- Whether the state file is the one the session must use inside the state directory. -/
def validatedIdentity (stateDir : String) (s : SessionId) (incarnation : Bytes)
    (stateFile : String) : Bool :=
  identityFromParts s incarnation stateFile && isAbsolute stateDir &&
    (pathComponents stateFile).dropLast = pathComponents stateDir

/-- The checks on a state file that is read back. -/
def ShellState.valid [SerdeJson] (state : ShellState) (minimumSequence : Nat) : Bool :=
  state.sequence ≠ 0 && minimumSequence ≤ state.sequence && isAbsolute state.cwd &&
    !tooLong state.cwd maxHolderPath &&
    state.environment.all fun environment => environment.validateHardLimits.isOk

namespace Session

def entry (session : Session) (s : SessionId) : HolderSessionEntry where
  sessionId := s
  shellPid := session.shellPid
  state := if session.exitCode.isSome then .exited else .running
  exitCode := session.exitCode
  createdAtMs := session.createdAtMs
  lastActiveAtMs := session.lastActiveAtMs
  ringBytes := session.ring.len
  writerActive := false
  logState := session.logState
  exitContextAvailable := session.exitCode.isSome

/-- What is recorded when the shell is collected: its last state, when that can be read, and
its exit code. -/
def withExit (session : Session) (pty : PtySession) (code : Int) (state : Option ShellState)
    (now : Nat) : Session :=
  let session : Session := match state with
    | some state => { session with
        lastStateSequence := state.sequence
        finalCwd := some state.cwd
        finalEnvironment := state.environment }
    | none => session
  { session with
    pty := some { pty with exitStatus := some code }
    exitCode := some code
    lastActiveAtMs := now }

end Session

namespace Runtime

def bumpGeneration (r : Runtime) : Runtime :=
  { r with generation := max ((r.generation + 1) % 2 ^ 64) 1 }

/-- One page: at most `limit` entries past the cursor, and the last of them when there are
more. -/
def inventory (r : Runtime) (request : InventoryRequest) : InventoryResponse :=
  let matching := r.sessions.toList.filter fun entry => request.cursor < entry.1
  let entries := (matching.take request.limit).map fun entry => entry.2.entry entry.1
  { entries
    nextCursor :=
      if matching.drop request.limit = [] then none
      else entries.getLast?.map fun entry => entry.sessionId }

def sessionForPty (r : Runtime) (fd : Fd) : Option SessionId := r.ptyToSession[fd]?

def ptyFds (r : Runtime) : List Fd := r.ptyToSession.keys

def ptyFd (r : Runtime) (s : SessionId) : Option Fd := do
  return (← (← r.sessions[s]?).pty).masterFd

def replay (r : Runtime) (s : SessionId) (maxBytes : Nat) : Option Bytes :=
  r.sessions[s]?.map fun session => session.ring.readReplay maxBytes

def isRunning (r : Runtime) (s : SessionId) : Bool :=
  r.sessions[s]?.any fun session => session.exitCode.isNone

def exitContextResponse (r : Runtime) (s : SessionId) : ExitContextResponse :=
  match r.sessions[s]? with
  | none => { sessionId := s, status := .notFound, exitCode := none, cwd := none }
  | some session =>
    match session.exitCode with
    | some code =>
      { sessionId := s, status := .ok, exitCode := some code, cwd := session.finalCwd }
    | none => { sessionId := s, status := .conflict, exitCode := none, cwd := none }

def exitContextResponseV2 (r : Runtime) (s : SessionId) : ExitContextResponseV2 :=
  { r.exitContextResponse s with
    environment := r.sessions[s]?.bind fun session => session.finalEnvironment }

/-- The log state of a session turns bad once, and that is a change of the inventory. -/
def degradeLog (r : Runtime) (s : SessionId) : Runtime :=
  match r.sessions[s]? with
  | none => r
  | some session =>
    let degraded :=
      { r with sessions := r.sessions.insert s { session with logState := .degraded } }
    if session.logState = .degraded then degraded else degraded.bumpGeneration

end Runtime

namespace Holder
open Program

/-- `open_session_with_launch_environment`: a terminal and the shell behind it. -/
def openSession (s : SessionId) : Holder PtySession := do
  let turn ← call
  match turn.fault with
  | some source => failIo (.openPty s) source
  | none => fun w =>
    let fd := w.freshFd turn.fd
    (.ok { masterFd := fd, childPid := turn.pid },
      { w with terminals := w.terminals.insert fd { pid := turn.pid } })

/-- `PtySession::read_output`, with a read that would block counted as empty. Output that is
not yet read stays readable. -/
def readOutput (fd : Fd) (len : Nat) : Holder (Except Errno Bytes) := do
  let turn ← call
  match (← read (·.terminals[fd]?)) with
  | none => return .error (.other 9)
  | some terminal =>
    if terminal.unread = [] then
      match turn.fault with
      | none | some .wouldBlock => return .ok []
      | some source => return .error source
    else
      let count := max 1 (min (turn.count.getD len) len)
      let chunk := terminal.unread.take count
      update fun w => { w with
        terminals := w.terminals.insert fd { terminal with taken := terminal.taken + chunk.length } }
      return .ok chunk

/-- `PtySession::write_input`: how much of the bytes the terminal took. -/
def writeInput (bytes : Bytes) : Holder (Except Errno Nat) := do
  let turn ← call
  match turn.fault with
  | some source => return .error source
  | none => return .ok (min (turn.count.getD bytes.length) bytes.length)

/-- `PtySession::poll_exit`. -/
def pollExit (pty : PtySession) : Holder (Option Int) := do
  match pty.exitStatus with
  | some status => return some status
  | none =>
    let turn ← call
    match turn.fault with
    | some source => fail (.io "waitpid nonblocking" source)
    | none =>
      match (← read (·.terminals[pty.masterFd]?)).bind Terminal.status with
      | none => return none
      | some (.exited code) => return some code
      | some (.signaled signal) => return some (128 + signal)
      | some (.unknown raw) =>
        fail (.internalError ("child process exited with unknown status: " ++ toString raw))

/-- `LogWorker::enqueue`: how many bytes were dropped. -/
def enqueue (data : Bytes) : Holder Nat := do
  return if (← call).dropped then data.length else 0

def ringBuffer (capacity : Nat) : Holder RingBuffer := unwrap (RingBuffer.new capacity)

def create (request : CreateSessionRequest) : Holder (OperationResponse × Option Fd) := do
  let runtime := (← server).runtime
  if runtime.sessions.contains request.sessionId then
    return (sessionResponse request.sessionId .conflict "exists", none)
  if !validatedIdentity runtime.stateDir request.sessionId request.stateIncarnation
      request.stateFile then
    return (sessionResponse request.sessionId .rejected "invalid state identity", none)
  let pty ← openSession request.sessionId
  let now ← nowMs
  let ring ← ringBuffer request.ringBufferSize
  let session : Session :=
    { pty := some pty
      shellPid := pty.childPid
      ring
      logPath := request.logPath
      logState := if request.logPath.isSome then .healthy else .disabled
      createdAtMs := now
      lastActiveAtMs := now }
  modifyRuntime fun r => ({ r with
    sessions := r.sessions.insert request.sessionId session
    ptyToSession := r.ptyToSession.insert pty.masterFd request.sessionId }).bumpGeneration
  note (.created request.sessionId pty.masterFd)
  return (sessionResponse request.sessionId .ok "", some pty.masterFd)

/-- What the drain loop does with one chunk: into the ring buffer and to the log worker. It
gives the bytes that the log worker dropped. -/
def storeChunk (s : SessionId) (chunk : Bytes) : Holder Nat := do
  modifySession s fun session => { session with ring := session.ring.write chunk }
  note (.drained s chunk)
  let now ← nowMs
  modifySession s fun session => { session with lastActiveAtMs := now }
  match ((← server).runtime.sessions[s]?).bind Session.logPath with
  | some _ => enqueue chunk
  | none => return 0

def noteDry (fd : Fd) : Holder Unit := do
  let terminal ← read (·.terminals[fd]?)
  note (.dry fd (terminal.elim 0 fun t => t.written.length))

/-- The drain loop of `drain_output`: chunks until a read finds nothing. -/
def drainLoop (s : SessionId) (fd : Fd) : Nat → Holder (List Bytes × Nat)
  | 0 => abort
  | fuel + 1 => do
    match ← readOutput fd maxHolderIoFrame with
    | .ok [] =>
      noteDry fd
      return ([], 0)
    | .ok chunk =>
      let dropped ← storeChunk s chunk
      let (chunks, rest) ← drainLoop s fd fuel
      return (chunk :: chunks, dropped + rest)
    | .error .io =>
      noteDry fd
      return ([], 0)
    | .error source => failIo (.readPty s) source

/-- Every pass of the drain loop but the last takes a byte, and the bytes are those there now
and those that the script lets the shells write. -/
def drainFuel (w : World) (fd : Fd) : Nat :=
  w.unread fd + (w.script.map Turn.bytes).sum + 1

def drainOutput (fd : Fd) : Holder OutputBatch := do
  match (← server).runtime.sessionForPty fd with
  | none => fail (.invalidArgument "unknown holder PTY")
  | some s =>
    let session ← unwrap (← server).runtime.sessions[s]?
    let (chunks, logDropped) ←
      if session.pty.isSome then do drainLoop s fd (drainFuel (← read id) fd)
      else Pure.pure ([], 0)
    if logDropped > 0 then modifyRuntime (·.degradeLog s)
    return { sessionId := s, chunks, logDropped }

/-- The write loop of `flush_input`. Every pass but the last writes a byte. -/
def flushInputLoop (s : SessionId) : Nat → Holder Unit
  | 0 => abort
  | fuel + 1 => do
    match (← server).runtime.sessions[s]? with
    | none => abort
    | some session =>
      match session.input.front, session.pty with
      | none, _ | _, none => return ()
      | some front, some _ =>
        match ← writeInput front with
        | .ok 0 => return ()
        | .ok count =>
          modifySession s fun session => { session with input := session.input.advance count }
          flushInputLoop s fuel
        | .error .wouldBlock => return ()
        | .error source => failIo (.writePty s) source

def flushInput (s : SessionId) : Holder Bool := do
  let session ← unwrap (← server).runtime.sessions[s]?
  flushInputLoop s (session.input.chunks.flatten.length + 1)
  return ((← server).runtime.sessions[s]?).any fun session => !session.input.isEmpty

def queueInput (s : SessionId) (data : Bytes) : Holder Bool := do
  match (← server).runtime.sessions[s]? with
  | none => fail (.invalidArgument "holder session not found")
  | some session =>
    rejectIf (session.exitCode.isSome ∨ data = [])
      (PersistError.invalidArgument "holder session is not writable")
    rejectIf (session.input.bytes + data.length > maxPendingInput)
      (PersistError.invalidArgument "holder input queue limit exceeded")
    let now ← nowMs
    modifySession s fun session =>
      { session with input := session.input.push data, lastActiveAtMs := now }
    flushInput s

def resize (s : SessionId) : Holder Unit := do
  match (← server).runtime.ptyFd s with
  | none => fail (.invalidArgument "holder session not running")
  | some _ => control "resize holder PTY"

def signal (s : SessionId) : Holder Unit := do
  match ((← server).runtime.sessions[s]?).bind Session.pty with
  | none => fail (.invalidArgument "holder session not running")
  | some _ => control "signal holder PTY"

/-- `PtySession::signal_child`. -/
def signalChild : Holder Bool := do
  return (← call).fault.isNone

def close (s : SessionId) : Holder OperationResponse := do
  match (← server).runtime.sessions[s]? with
  | none => return sessionResponse s .notFound "not found"
  | some session =>
    if session.exitCode.isSome then return sessionResponse s .ok ""
    if session.pty.isSome then
      let _ ← signalChild
      modifySession s fun session => { session with closing := true }
    return sessionResponse s .ok ""

def kill (s : SessionId) : Holder OperationResponse := do
  match (← server).runtime.sessions[s]? with
  | none => return sessionResponse s .notFound "not found"
  | some session =>
    if session.pty.isSome then
      if ← signalChild then return sessionResponse s .ok ""
      else return sessionResponse s .internal ""
    else return sessionResponse s .ok ""

def retireExited (s : SessionId) : Holder OperationResponse := do
  match (← server).runtime.sessions[s]? with
  | none => return sessionResponse s .notFound "not found"
  | some session =>
    if session.exitCode.isNone then return sessionResponse s .conflict "session is running"
    if (← call).fault.isSome then return sessionResponse s .internal "state cleanup failed"
    let connections := (← server).connections
    note (.retired s (connections.keys.filter fun fd =>
      connections[fd]?.any fun c => c.attachedSession = some s))
    modifyRuntime fun r => ({ r with sessions := r.sessions.erase s }).bumpGeneration
    return sessionResponse s .ok ""

variable [SerdeJson]

/-- `state::capture`. -/
def capture (minimumSequence : Nat) : Holder (Option ShellState) := do
  return (← call).state.filter fun state => state.valid minimumSequence

/-- The end of one shell, when there is one to collect. -/
def pollSession (s : SessionId) : Holder (Option ExitedSession) := do
  match (← server).runtime.sessions[s]? with
  | none => return none
  | some session =>
    match session.pty with
    | none => return none
    | some pty =>
      match ← pollExit pty with
      | none => return none
      | some code =>
        let state ← capture session.lastStateSequence
        let now ← nowMs
        let session := session.withExit pty code state now
        modifySession s fun _ => session
        return some
          { sessionId := s
            exitCode := code
            cwd := session.finalCwd
            environment := session.finalEnvironment
            ptyFd := pty.masterFd
            closing := session.closing }

def pollSessions : List SessionId → Holder (List ExitedSession)
  | [] => return []
  | s :: ids => do
    let exited ← pollSession s
    let rest ← pollSessions ids
    return exited.toList ++ rest

/-- The terminal of a session that exited is closed. -/
def dropPty (exited : ExitedSession) : Holder Unit := do
  let terminal ← read (·.terminals[exited.ptyFd]?)
  note (.exited exited.sessionId exited.ptyFd (terminal.elim [] Terminal.written))
  modifyRuntime fun r => ({ r with
    ptyToSession := r.ptyToSession.erase exited.ptyFd
    sessions := r.sessions.alter exited.sessionId
      (Option.map fun session : Session => { session with pty := none }) }).bumpGeneration
  update fun w => { w with terminals := w.terminals.erase exited.ptyFd }

def reapExited : Holder (List ExitedSession) := do
  let exited ← pollSessions (← server).runtime.sessions.keys
  forEach exited dropPty
  return exited

end Holder

end PersistShell
