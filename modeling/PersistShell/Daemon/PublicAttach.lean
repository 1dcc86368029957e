import PersistShell.Daemon.Reconcile
import PersistShell.Ipc.Streams
import PersistShell.Program.ByteQueue

/-! The proxy between an attached client and the data connection to the holder. One turn is
given for each pass of its poll loop: what the two peers have done by then, what `poll` reports,
and how the calls of the pass are answered. What arrives while a pass is under way is counted
at its poll; the flags and the counts say how much of it the pass gets to see. -/

namespace PersistShell
open Program

def publicFrameHeader : Nat := 12
def historyFramePayload : Nat := 64 * 1024
def maxProxyQueue : Nat := 1024 * 1024
def proxyReadBuffer : Nat := 64 * 1024

inductive ReadAnswer where
  | fault (source : Errno)
  | upTo (count : Nat)
  deriving DecidableEq, Repr

inductive WriteAnswer where
  | fault (source : Errno)
  | upTo (count : Nat)
  deriving DecidableEq, Repr

/-- What `poll` reports of a socket: the events that were asked for, and those that are always
reported (`POLLHUP`, `POLLERR`, `POLLNVAL`). -/
structure Readiness where
  readable : Bool := false
  writable : Bool := false
  failed : Bool := false
  deriving DecidableEq, Repr

inductive PollAnswer where
  | interrupted
  | fault (source : Errno)
  | ready (client holder : Readiness) (timer : Bool)
  deriving DecidableEq, Repr

/-- What a peer does before a poll. -/
structure Arrival where
  bytes : Bytes := []
  ends : Bool := false
  deriving DecidableEq, Repr

structure PassTurn where
  client : Arrival := {}
  holder : Arrival := {}
  poll : PollAnswer
  clientRead : ReadAnswer := .upTo proxyReadBuffer
  holderRead : ReadAnswer := .upTo proxyReadBuffer
  timer : Option Errno := none
  clientWrites : List WriteAnswer := []
  holderWrites : List WriteAnswer := []
  /-- The writes of the flush after the holder has ended the attach. -/
  lastWrites : List WriteAnswer := []
  deriving DecidableEq, Repr

/-- The receiving end of a socket: what has arrived and is not read, and whether the peer has
closed its end after that. All that has arrived is kept beside it; nothing reads that. -/
structure Inlet where
  unread : Bytes := []
  ended : Bool := false
  sent : Bytes := []
  deriving DecidableEq, Repr

namespace Inlet

def arrive (i : Inlet) (a : Arrival) : Inlet :=
  if i.ended then i
  else { unread := i.unread ++ a.bytes, ended := a.ends, sent := i.sent ++ a.bytes }

/-- `read` into a buffer of 64 KiB; no bytes at the end of the stream. -/
def read (i : Inlet) : ReadAnswer → Except Errno (Bytes × Inlet)
  | .fault source => .error source
  | .upTo count =>
    let bytes := i.unread.take (min count proxyReadBuffer)
    if bytes = [] ∧ ¬ (i.unread = [] ∧ i.ended) then .error .wouldBlock
    else .ok (bytes, { i with unread := i.unread.drop bytes.length })

theorem length_read {i i' : Inlet} {answer : ReadAnswer} {bytes : Bytes}
    (h : i.read answer = .ok (bytes, i')) : bytes.length ≤ proxyReadBuffer := by
  unfold read at h
  split at h
  · cases h
  · dsimp only at h
    split at h
    · cases h
    · cases h
      exact (List.length_take_le _ _).trans (Nat.min_le_right _ _)

/-- What is read is the front of what has arrived. -/
theorem read_front {i i' : Inlet} {answer : ReadAnswer} {bytes : Bytes}
    (h : i.read answer = .ok (bytes, i')) :
    i.unread = bytes ++ i'.unread ∧ i'.ended = i.ended ∧ i'.sent = i.sent := by
  unfold read at h
  split at h
  · cases h
  · dsimp only at h
    split at h
    · cases h
    · cases h
      exact ⟨(List.prefix_iff_eq_append.mp (List.take_prefix _ _)).symm, rfl, rfl⟩

/-- A read that brings nothing has met the end of the stream. -/
theorem read_end {i i' : Inlet} {answer : ReadAnswer} (h : i.read answer = .ok ([], i')) :
    i.unread = [] ∧ i.ended = true ∧ i' = i := by
  unfold read at h
  split at h
  · cases h
  · dsimp only at h
    split at h
    · cases h
    · rename_i hblock
      obtain ⟨hbytes, hinlet⟩ := Prod.mk.inj (Except.ok.inj h)
      have hend : i.unread = [] ∧ i.ended = true := by
        by_contra hmore
        exact hblock ⟨hbytes, hmore⟩
      refine ⟨hend.1, hend.2, ?_⟩
      rw [← hinlet, hbytes]
      rfl

end Inlet

/-- The sending end of a socket: what is queued for it, and what has been written. -/
structure PendingWrites where
  queue : ByteQueue := {}
  written : Bytes := []
  deriving DecidableEq, Repr

namespace PendingWrites

def push (w : PendingWrites) (bytes : Bytes) : Except PersistError PendingWrites :=
  if w.queue.bytes + bytes.length > maxProxyQueue then
    .error (.invalidArgument "public holder proxy queue limit exceeded")
  else .ok { w with queue := w.queue.push bytes }

def hasData (w : PendingWrites) : Bool := !w.queue.isEmpty

def remainingCapacity (w : PendingWrites) : Nat := maxProxyQueue - w.queue.bytes

/-- `count` bytes of `front` went out. -/
def write (w : PendingWrites) (front : Bytes) (count : Nat) : PendingWrites :=
  { queue := w.queue.advance count, written := w.written ++ front.take count }

def flush : List WriteAnswer → Program PendingWrites PersistError Unit
  | [] => do
    match (← read (·.queue)).front with
    | none => return ()
    | some _ => abort
  | answer :: answers => do
    match (← read (·.queue)).front with
    | none => return ()
    | some front =>
      match answer with
      | .fault .wouldBlock => return ()
      | .fault source => fail (.io "write public holder proxy" source)
      | .upTo count =>
        update fun w => w.write front (min count front.length)
        flush answers

end PendingWrites

/-- The output that the client is sent before anything else. -/
structure InitialOutput where
  bytes : Bytes
  offset : Nat := 0
  deriving DecidableEq, Repr

namespace InitialOutput

def isDone (h : InitialOutput) : Bool := h.offset = h.bytes.length

def remaining (h : InitialOutput) : Nat := h.bytes.length - h.offset

/-- The next `count` bytes. -/
def chunk (h : InitialOutput) (count : Nat) : Bytes := (h.bytes.drop h.offset).take count

def advance (h : InitialOutput) (count : Nat) : InitialOutput := { h with offset := h.offset + count }

end InitialOutput

structure ProxyOutcome where
  exitContext : Option ExitContext
  deriving DecidableEq

/-- What puts a frame into the queue for the client. -/
inductive PushSite where
  | history
  | holderRead
  | publicRead
  deriving DecidableEq, Repr

structure Proxy where
  sessionId : Nat
  holderMinor : Nat
  writer : Bool
  history : InitialOutput
  hasTimer : Bool
  publicFrames : FrameAccumulator := {}
  holderFrames : HolderFrameAccumulator := {}
  toPublic : PendingWrites := {}
  toHolder : PendingWrites := {}
  client : Inlet := {}
  holder : Inlet := {}
  -- what happened so far; no function of the proxy reads it
  /-- The frames put into the queue for the client. -/
  queued : List Frame := []
  /-- The frames put into the queue for the holder. -/
  relayed : List HolderFrame := []
  /-- The frames of the holder that were taken off the stream. -/
  received : List HolderFrame := []
  /-- The payloads of the `Stdin` frames taken off the stream while the client was the writer. -/
  accepted : List Bytes := []
  /-- Whether a `Detach` or `Close` frame was taken off the stream. -/
  detached : Bool := false
  /-- The pushes into the queue for the client that were turned down. -/
  refused : List PushSite := []

abbrev ProxyProgram := Program Proxy PersistError

namespace Proxy

def publicBytes (kind : MessageType) (payload : Bytes) : Bytes :=
  putU32 payload.length ++ putU16 kind.toU16 ++ putU16 0 ++ putU32 0 ++ payload

def protocolError (context : String) (error : HolderProtocolError) : PersistError :=
  .invalidArgument (context ++ ": " ++ error.debug)

def holderBytes (kind : HolderMessageType) (payload : Bytes) (minor : Nat) :
    Except PersistError Bytes :=
  (encodeFrameWithMinor { messageType := kind, payload } minor).mapError
    (protocolError "encode holder data")

def holderResizePayload (rows cols : Nat) : Option Bytes :=
  if rows > 0 ∧ cols > 0 then some (encodeResizeRequest { rows, cols }) else none

/-- `history_pending`: while it holds, neither socket is read. -/
def historyPending (p : Proxy) : Bool := !p.history.isDone || p.toPublic.hasData

def arrive (t : PassTurn) (p : Proxy) : Proxy :=
  { p with client := p.client.arrive t.client, holder := p.holder.arrive t.holder }

/-- Puts a frame into the queue for the client. -/
def pushPublic (site : PushSite) (kind : MessageType) (payload : Bytes) : ProxyProgram Unit := do
  match (← read (·.toPublic)).push (publicBytes kind payload) with
  | .ok toPublic =>
    update fun p =>
      { p with toPublic, queued := p.queued ++ [{ msgType := kind, payload }] }
  | .error error =>
    update fun p => { p with refused := site :: p.refused }
    fail error

/-- Puts a frame into the queue for the holder. -/
def pushHolder (kind : HolderMessageType) (payload : Bytes) : ProxyProgram Unit := do
  let bytes ← lift (holderBytes kind payload (← read (·.holderMinor)))
  let toHolder ← lift ((← read (·.toHolder)).push bytes)
  update fun p =>
    { p with toHolder, relayed := p.relayed ++ [{ messageType := kind, payload }] }

/-- The loop of `InitialOutput::fill`. Every pass but the last takes a byte at least. -/
def fillLoop : Nat → ProxyProgram Unit
  | 0 => return ()
  | fuel + 1 => do
    let history ← read (·.history)
    if history.isDone then return ()
    else
      let capacity := (← read (·.toPublic)).remainingCapacity
      if capacity ≤ publicFrameHeader then return ()
      else
        let count := min (min history.remaining historyFramePayload) (capacity - publicFrameHeader)
        pushPublic .history .stdout (history.chunk count)
        update fun p => { p with history := p.history.advance count }
        fillLoop fuel

def fill : ProxyProgram Unit := do
  fillLoop (← read (·.history)).remaining

def flushPublic (answers : List WriteAnswer) : ProxyProgram Unit :=
  zoom Proxy.toPublic (fun toPublic p => { p with toPublic }) (PendingWrites.flush answers)

def flushHolder (answers : List WriteAnswer) : ProxyProgram Unit :=
  zoom Proxy.toHolder (fun toHolder p => { p with toHolder }) (PendingWrites.flush answers)

def flushBestEffort (answers : List WriteAnswer) : ProxyProgram Unit := do
  let _ ← attempt (flushPublic answers)

/-- One frame of the client; `false` when it ends the attach. -/
def handlePublic (frame : Frame) : ProxyProgram Bool := do
  let writer ← read (·.writer)
  match frame.msgType, writer with
  | .stdin, true =>
    update fun p => { p with accepted := p.accepted ++ [frame.payload] }
    pushHolder .input frame.payload
    return true
  | .resize, true =>
    match decodeResize frame.payload with
    | none => return true
    | some size =>
      match holderResizePayload size.rows size.cols with
      | none => return true
      | some payload =>
        pushHolder .resize payload
        return true
  | .signal, true =>
    match decodeSignal frame.payload with
    | none => return true
    | some signal =>
      pushHolder .signal (encodeSignalRequest { signal := signal.signal })
      pushPublic .publicRead .signalResp (encodeOpResp { ok := true, errorMsg := "" })
      return true
  | .detach, _ | .close, _ =>
    update fun p => { p with detached := true }
    return false
  | .ping, _ =>
    pushPublic .publicRead .pong []
    return true
  | _, _ => return true

def handlePublicFrames : List Frame → ProxyProgram Bool
  | [] => return true
  | frame :: frames => do
    if ← handlePublic frame then handlePublicFrames frames else return false

/-- `read_public`. The frames of the stream are cut off it one after another; the error that
stops the reading comes after the frames before it. -/
def readPublic (answer : ReadAnswer) : ProxyProgram Bool := do
  match (← read (·.client)).read answer with
  | .error .wouldBlock => takePublic []
  | .error source => fail (.io "read public attach proxy" source)
  | .ok (bytes, client) =>
    update fun p => { p with client }
    if bytes = [] then return false else takePublic bytes
where
  takePublic (bytes : Bytes) : ProxyProgram Bool := do
    let cut := publicFraming.cut ((← read (·.publicFrames)).feed bytes).buf
    update fun p => { p with publicFrames := ⟨cut.rest⟩ }
    if ← handlePublicFrames cut.items then
      match cut.stopped with
      | none => return true
      | some error => fail error
    else return false

section holderSide

variable [SerdeJson]

/-- The exit that a `SessionExited` frame reports. -/
def decodeExit (minor : Nat) (payload : Bytes) : Except PersistError ExitContext :=
  if minor = holderProtocolMinor then do
    let event ← (decodeSessionExitedEventV2 payload).mapError (protocolError "SessionExited v2")
    return {
      sessionId := event.sessionId
      exitCode := event.exitCode
      cwd := event.cwd
      environment := event.environment }
  else do
    let event ← (decodeSessionExitedEvent payload).mapError (protocolError "SessionExited")
    return { sessionId := event.sessionId, exitCode := event.exitCode, cwd := event.cwd }

def handleWriterEvent (kind : HolderMessageType) (payload : Bytes) : ProxyProgram Unit := do
  let sessionId ← read (·.sessionId)
  let event ← lift ((decodeOperationRequest payload).mapError (protocolError "writer event"))
  rejectIf (event.sessionId ≠ sessionId)
    (PersistError.invalidArgument "holder writer event session mismatch")
  let writer : Bool := kind = .writeGranted
  update fun p => { p with writer }
  pushPublic .holderRead (if writer then .writeGranted else .writeRevoked)
    (encodeWriterControl { sessionId })

/-- One frame of the holder; what it returns ends the attach. -/
def handleHolder (frame : HolderFrame) : ProxyProgram (Option ProxyOutcome) := do
  update fun p => { p with received := p.received ++ [frame] }
  match frame.messageType with
  | .output =>
    pushPublic .holderRead .stdout frame.payload
    return none
  | .writeGranted | .writeRevoked =>
    handleWriterEvent frame.messageType frame.payload
    return none
  | .sessionExited =>
    let sessionId ← read (·.sessionId)
    let context ← lift (decodeExit (← read (·.holderMinor)) frame.payload)
    rejectIf (context.sessionId ≠ sessionId)
      (PersistError.invalidArgument "holder exit event session mismatch")
    pushPublic .holderRead .sessionExited
      (encodeSessionExited { sessionId, exitCode := context.exitCode })
    return some { exitContext := some { context with sessionId } }
  | _ => return none

def handleHolderFrames : List HolderFrame → ProxyProgram (Option ProxyOutcome)
  | [] => return none
  | frame :: frames => do
    match ← handleHolder frame with
    | some outcome => return some outcome
    | none => handleHolderFrames frames

def readHolder (answer : ReadAnswer) : ProxyProgram (Option ProxyOutcome) := do
  match (← read (·.holder)).read answer with
  | .error .wouldBlock => return none
  | .error source => fail (.io "read holder data proxy" source)
  | .ok (bytes, holder) =>
    update fun p => { p with holder }
    if bytes = [] then return some { exitContext := none }
    else
      let accumulator ← lift (((← read (·.holderFrames)).feed bytes).mapError
        (protocolError "accumulate holder data"))
      let cut := (holderFraming (← read (·.holderMinor))).cut accumulator.buffer
      update fun p => { p with holderFrames := ⟨cut.rest⟩ }
      match ← handleHolderFrames cut.items with
      | some outcome => return some outcome
      | none =>
        match cut.stopped with
        | none => return none
        | some error => fail (protocolError "decode holder data" error)

/-- What a poll with these interests reports. -/
def requested (reported : Readiness) (readable writable : Bool) : Readiness :=
  { reported with
    readable := reported.readable && readable
    writable := reported.writable && writable }

/-- The poll; `none` when a signal interrupted it. -/
def wait (t : PassTurn) : ProxyProgram (Option (Readiness × Readiness × Bool)) := do
  update (arrive t)
  let p ← read id
  match t.poll with
  | .interrupted => return none
  | .fault source => fail (.io "poll public holder proxy" source)
  | .ready client holder timer =>
    return some (requested client (!p.historyPending) p.toPublic.hasData,
      requested holder (!p.historyPending) p.toHolder.hasData, timer && p.hasTimer)

/-- The timer is read and the observer called, which looks at the shell and not at the proxy. -/
def observe (fault : Option Errno) : ProxyProgram Unit :=
  match fault with
  | none => return ()
  | some source => fail (.io "read attach context timer" source)

def timerStep (t : PassTurn) (timer : Bool) : ProxyProgram Unit :=
  if timer then observe t.timer else pure ()

def publicStep (t : PassTurn) (client : Readiness) : ProxyProgram Unit :=
  if client.writable then do
    flushPublic t.clientWrites
    fill
  else pure ()

def relayStep (t : PassTurn) (holder : Readiness) : ProxyProgram Unit :=
  if holder.writable then flushHolder t.holderWrites else pure ()

/-- The part of a pass after both sockets have been read. -/
def serve (t : PassTurn) (client holder : Readiness) (timer : Bool) : ProxyProgram Unit := do
  timerStep t timer
  publicStep t client
  relayStep t holder

def clientStep (t : PassTurn) (client : Readiness) : ProxyProgram Bool :=
  if client.readable then readPublic t.clientRead else pure true

def holderStep (t : PassTurn) (holder : Readiness) : ProxyProgram (Option ProxyOutcome) :=
  if holder.readable then readHolder t.holderRead else pure none

/-- One pass of the loop; what it returns ends the loop. -/
def pass (t : PassTurn) : ProxyProgram (Option ProxyOutcome) := do
  match ← wait t with
  | none => return none
  | some (client, holder, timer) =>
    if ← clientStep t client then
      match ← holderStep t holder with
      | some outcome =>
        flushBestEffort t.lastWrites
        return some outcome
      | none =>
        serve t client holder timer
        if client.failed || holder.failed then return some { exitContext := none }
        else return none
    else return some { exitContext := none }

def loop : List PassTurn → ProxyProgram ProxyOutcome
  | [] => abort
  | t :: turns => do
    match ← pass t with
    | some outcome => return outcome
    | none => loop turns

/-- `run`; the timer is started when there is an observer, which can fail. -/
def run (timerFault : Option (String × Errno)) (turns : List PassTurn) :
    ProxyProgram ProxyOutcome := do
  fill
  match timerFault with
  | some (operation, source) => fail (.io operation source)
  | none => loop turns

end holderSide

/-- The proxy as `run` sets it up. -/
def start (sessionId holderMinor : Nat) (initialOutput : Bytes) (readWrite hasTimer : Bool) :
    Proxy where
  sessionId
  holderMinor
  writer := readWrite
  history := { bytes := initialOutput }
  hasTimer

end Proxy

end PersistShell
