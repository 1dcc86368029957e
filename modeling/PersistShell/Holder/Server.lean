import PersistShell.Holder.Handlers

/-! The event loop of the holder: what it does with each readiness event, and the loop itself
as a machine that takes one event, or one round of accepts, at a time. -/

namespace PersistShell

def sigInt : Nat := 2
def sigTerm : Nat := 15
def sigChld : Nat := 17

def epollIn : Nat := 0x1
def epollOut : Nat := 0x4
def epollErr : Nat := 0x8
def epollHup : Nat := 0x10
def epollRdHup : Nat := 0x2000

/-- `events & flags != 0`. -/
def hasAny (events flags : Nat) : Bool := events &&& flags ≠ 0

namespace Holder
open Program

/-- One chunk of output of `s` for each of its receivers. -/
def publishChunk (s : SessionId) (targets : List Fd) (chunk : Bytes) : Holder Unit := do
  let frame ← eventFrame .output chunk
  forEach targets fun fd => queueOrDisconnect fd frame (some (.output fd s chunk))

def publishOutput (batch : OutputBatch) : Holder Unit := do
  let targets := attachedTo (← server) batch.sessionId
  forEach batch.chunks (publishChunk batch.sessionId targets)
  if batch.logDropped > 0 then
    sendControl (← eventFrame .logDegraded (encodeLogDegraded
      { sessionId := batch.sessionId, droppedBytes := batch.logDropped }))

def handlePty (fd : Fd) (events : Nat) : Holder Unit := do
  if hasAny events (epollIn ||| epollHup ||| epollErr) then
    publishOutput (← drainOutput fd)
  if hasAny events epollOut then
    let s ← unwrap ((← server).runtime.sessionForPty fd)
    let pending ← flushInput s
    reactorModify fd pending

def handleLogFailures : Holder Unit := do
  forEach (← call).failures fun (s, dropped) => do
    modifyRuntime (·.degradeLog s)
    sendControl (← eventFrame .logDegraded (encodeLogDegraded
      { sessionId := s, droppedBytes := dropped }))

variable [SerdeJson]

/-- The end of an exit: the controller is told. -/
def announceToController (s : SessionId) (legacyPayload v2Payload : Bytes) : Holder Unit := do
  match (← server).controller with
  | none => return ()
  | some controller =>
    let payload :=
      if controller.protocolMinor = holderProtocolMinor then v2Payload else legacyPayload
    queueOrDisconnect controller.fd (← eventFrame .sessionExited payload)
      (some (.announced s controller.fd))

/-- The exit of one session, told to the connections attached to it and to the controller. -/
def announceExit (exited : ExitedSession) : Holder Unit := do
  let s := exited.sessionId
  reactorRemove exited.ptyFd
  releaseWriter s
  let event : SessionExitedEvent :=
    { sessionId := s, exitCode := exited.exitCode, cwd := exited.cwd }
  let legacyPayload ← protocol "SessionExited" (encodeSessionExitedEvent event)
  let v2Payload ← protocol "SessionExited v2" (encodeSessionExitedEventV2
    { event with environment := exited.environment })
  forEach (attachedTo (← server) s) fun target => do
    let c ← connection target
    let payload := if c.protocolMinor = holderProtocolMinor then v2Payload else legacyPayload
    queueOrDisconnect target (← eventFrame .sessionExited payload) (some (.announced s target))
  if exited.closing then detachSession s
  announceToController s legacyPayload v2Payload

def drainAndPublish (fd : Fd) : Holder Unit := do
  publishOutput (← drainOutput fd)

/-- A child changed state: every terminal is drained, then every shell that is gone is
collected. -/
def handleChild : Holder Unit := do
  forEach (← server).runtime.ptyFds drainAndPublish
  forEach (← reapExited) announceExit

/-- `SignalFd::consume`. -/
def consumeSignal : Holder Nat := do
  let turn ← call
  match turn.fault with
  | some source => fail (.io "read holder signalfd" source)
  | none => return turn.signal

/-- Whether the holder is to end. -/
def handleSignal : Holder Bool := do
  let signal ← consumeSignal
  if signal = sigInt ∨ signal = sigTerm then return true
  if signal = sigChld then handleChild
  return false

def processFrame (fd : Fd) (minor : Nat) (frame : HolderFrame) : Holder Unit := do
  let c ← connection fd
  match c.role with
  | .pending => handleHello fd minor frame
  | .control => handleControl fd minor frame
  | .data =>
    rejectIf (minor ≠ c.protocolMinor)
      (PersistError.invalidArgument "holder data protocol minor changed")
    handleData fd frame

/-- What the peer of `fd` sent, when there is something to read. -/
def receiveFrames (fd : Fd) (events : Nat) : Holder (List (Nat × HolderFrame) × Bool) := do
  if hasAny events epollIn then readFrames fd else return ([], false)

/-- The end of `handle_connection`: output for a peer that can take it. -/
def flushConnection (fd : Fd) (events : Nat) : Holder Unit := do
  if hasAny events epollOut then
    if !(← flush fd) then
      disconnect fd
      return ()
  match (← server).connections[fd]? with
  | none => return ()
  | some c => reactorModify fd c.wantsWrite

def handleConnection (fd : Fd) (events : Nat) : Holder Unit := do
  match ← attempt (receiveFrames fd events) with
  | .error _ => disconnect fd
  | .ok (frames, peerClosed) =>
    match ← attempt (forEach frames fun (minor, frame) => processFrame fd minor frame) with
    | .error _ => disconnect fd
    | .ok () =>
      if hasAny events (epollErr ||| epollHup ||| epollRdHup) || peerClosed then disconnect fd
      else flushConnection fd events

/-- One readiness event; `true` when the holder is to end. -/
def handleEvent (fd : Fd) (events : Nat) : Holder Bool := do
  let h ← server
  if fd = h.socket then return false
  if fd = h.signals then handleSignal
  else if fd = h.logs then
    handleLogFailures
    return false
  else if (h.runtime.sessionForPty fd).isSome then
    handlePty fd events
    return false
  else if h.connections.contains fd then
    handleConnection fd events
    return false
  else return false

/-- The descriptors behind the tokens that epoll reports; a token that is no longer known is
skipped. -/
def handleToken (token events : Nat) : Holder Bool := do
  match (← server).reactor.fds[token]? with
  | none => return false
  | some fd => handleEvent fd events

/-- Whether a requested shutdown is answered, so that the holder may end. -/
def shutdownDone (h : HolderServer) : Bool :=
  h.shutdownFd.any fun fd => !h.connections[fd]?.any Connection.wantsWrite

/-- The end of one batch of events. -/
def finishBatch (acceptReady : Bool) : Holder Bool := do
  if acceptReady then acceptConnections
  return shutdownDone (← server)

end Holder

inductive RunStatus where
  | running
  | returned (result : Except PersistError Unit)
  | panicked

/-- Where `run` stands: the events of the current batch still to handle and whether the
listener is among the batch, or nothing when it is about to wait. -/
structure HolderRun where
  world : World
  batch : Option (List (Nat × Nat) × Bool) := none
  status : RunStatus := .running

namespace HolderRun

/-- What is left of the run when a part of the loop is through with `outcome`; `true` ends it. -/
def proceed (batch : Option (List (Nat × Nat) × Bool)) :
    Program.Outcome PersistError Bool × World → HolderRun
  | (.ok false, world) => { world, batch }
  | (.ok true, world) => { world, batch, status := .returned (.ok ()) }
  | (.err error, world) => { world, batch, status := .returned (.error error) }
  | (.panic, world) => { world, batch, status := .panicked }

/-- The start of a batch: epoll reports which descriptors are ready. -/
def wait (w : World) : HolderRun :=
  match Holder.reactorWait w with
  | (.ok ready, world) =>
    { world
      batch := some (ready, ready.any fun event =>
        world.server.reactor.fds[event.1]? = some world.server.socket) }
  | (.err error, world) => { world, status := .returned (.error error) }
  | (.panic, world) => { world, status := .panicked }

/-- One part of the loop, with the answers to its system calls. -/
def step [SerdeJson] (r : HolderRun) (script : List Turn) : Option HolderRun :=
  let w := { r.world with script, failures := [] }
  match r.status with
  | .running =>
    match r.batch with
    | none => some (wait w)
    | some ((token, events) :: rest, acceptReady) =>
      some (proceed (some (rest, acceptReady)) (Holder.handleToken token events w))
    | some ([], acceptReady) => some (proceed none (Holder.finishBatch acceptReady w))
  | _ => none

end HolderRun

/-- What the holder is started with. -/
structure HolderConfig where
  socket : Fd
  signals : Fd
  logs : Fd
  uid : Nat
  pid : Nat
  instanceId : Bytes
  stateDir : String

namespace HolderConfig

/-- The state that `HolderServer::new` builds. -/
def server (config : HolderConfig) : HolderServer where
  socket := config.socket
  signals := config.signals
  logs := config.logs
  uid := config.uid
  pid := config.pid
  instanceId := config.instanceId
  runtime := { stateDir := config.stateDir }
  reactor :=
    { nextToken := 4
      tokens := ((({} : Std.ExtTreeMap Fd Nat).insert config.socket 1).insert
        config.signals 2).insert config.logs 3
      fds := ((({} : Std.ExtTreeMap Nat Fd).insert 1 config.socket).insert
        2 config.signals).insert 3 config.logs
      registrations := [(config.logs, true), (config.signals, true), (config.socket, true)] }

def start (config : HolderConfig) : HolderRun where
  world :=
    { server := config.server
      interest := ((({} : Std.ExtTreeMap Fd Bool).insert config.socket false).insert
        config.signals false).insert config.logs false }

end HolderConfig

end PersistShell
