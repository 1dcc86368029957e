import PersistShell.Daemon.AttachEnds
import PersistShell.Daemon.ClientSockets

/-! The loop of an attached client: what arrives on the socket is shown on the terminal, and what
is typed goes out in `Stdin` frames. -/

namespace PersistShell
open Program

/-- What `poll` reports of a descriptor: `POLLIN`, `POLLHUP` or `POLLERR`, and `POLLNVAL`. -/
structure Revents where
  readable : Bool := false
  broken : Bool := false
  invalid : Bool := false
  deriving DecidableEq, Repr

/-- `input_is_closed`. -/
def Revents.inputIsClosed (r : Revents) : Bool := r.broken || r.invalid

inductive AttachPoll where
  | interrupted
  | fault (source : Errno)
  | ready (socket stdin : Revents)
  deriving DecidableEq, Repr

/-- The events of the socket and of stdin, unless the poll has failed. An interrupted poll leaves
them as they were set up. -/
def AttachPoll.events : AttachPoll → Option (Revents × Revents)
  | .interrupted => some ({}, {})
  | .fault _ => none
  | .ready socket stdin => some (socket, stdin)

/-- What happens in one pass of the loop. -/
structure AttachTurn where
  poll : AttachPoll
  /-- Whether a `SIGWINCH` has come since the last pass. -/
  resized : Bool := false
  /-- The size of the terminal, when it has one. -/
  winsize : Option ResizePayload := none
  socketRead : Except Errno Bytes := .error .wouldBlock
  stdinRead : Except Errno Bytes := .error .wouldBlock
  resizeWrites : List WriteAnswer := []
  stdinWrites : List WriteAnswer := []

def socketBuffer : Nat := 65536
def stdinBuffer : Nat := 4096

structure AttachClient where
  accumulator : FrameAccumulator := {}
  /-- How many bytes stdout takes until a write to it fails, when one does. -/
  stdoutTakes : Option Nat := none
  -- what happened so far; nothing but the next answer of stdout is decided by it
  /-- The bytes read from the socket, and those read from stdin. -/
  received : Bytes := []
  typed : Bytes := []
  /-- The bytes written to the socket, to stdout and to stderr. -/
  sent : Bytes := []
  shown : Bytes := []
  notices : Bytes := []

abbrev AttachProgram := Program AttachClient PersistError

def encodeResize (p : ResizePayload) : Bytes := putU16 p.rows ++ putU16 p.cols

def terminalResizePayload (size : ResizePayload) : Option Bytes :=
  if size.rows > 0 ∧ size.cols > 0 then some (encodeResize size) else none

structure DetachPayload where
  sessionId : Nat

def encodeDetach (p : DetachPayload) : Bytes := putU32 p.sessionId

/-- Whether `write_frame` returns `Ok`. -/
def Frame.isWritten (frame : Frame) (answers : List WriteAnswer) : Bool :=
  ((writeAll frame.header answers).2.bind fun answers => (writeAll frame.payload answers).2).isSome

namespace AttachClient

/-- What a writer that takes `takes` bytes makes of some bytes. -/
def front (takes : Option Nat) (bytes : Bytes) : Bytes := takes.elim bytes bytes.take

def hasRoom (takes : Option Nat) (bytes : Bytes) : Bool := takes.all (bytes.length ≤ ·)

/-- `emit_stdout`: whether all of it was taken. -/
def emitStdout (bytes : Bytes) : AttachProgram Bool := do
  let takes ← read (·.stdoutTakes)
  let shown ← read (·.shown)
  update fun c => { c with shown := front takes (shown ++ bytes) }
  return hasRoom takes (shown ++ bytes)

def emitStderr (text : String) : AttachProgram Unit :=
  update fun c => { c with notices := c.notices ++ utf8 text }

def writeFrame (frame : Frame) (answers : List WriteAnswer) : AttachProgram Bool := do
  update fun c => { c with sent := c.sent ++ frame.write answers }
  return frame.isWritten answers

def sendResize (t : AttachTurn) : AttachProgram Unit :=
  match t.winsize.bind terminalResizePayload with
  | none => pure ()
  | some payload => do
    let _ ← writeFrame { msgType := .resize, payload } t.resizeWrites

/-- Whether the loop goes on after the frame. -/
def handleFrame (frame : Frame) : AttachProgram Bool :=
  match frame.msgType with
  | .stdout => emitStdout frame.payload
  | .sessionExited => pure false
  | .writeRequest => do
    emitStderr "\r\n[another client requested write access]\n"
    return true
  | .writeGranted => do
    emitStderr "\r\n[write access granted]\n"
    return true
  | .writeRevoked => do
    emitStderr "\r\n[write access moved to another client]\n"
    return false
  | .detach | .close => pure false
  | _ => pure true

/-- The same in `io_loop_readonly`. -/
def handleFrameReadonly (frame : Frame) : AttachProgram Bool :=
  match frame.msgType with
  | .stdout => emitStdout frame.payload
  | .sessionExited => pure false
  | .detach | .close => pure false
  | _ => pure true

section passes

variable (handle : Frame → AttachProgram Bool)

/-- Takes the frames off what has arrived. A frame takes a byte at least, so that the loop ends
before `fuel` does. -/
def takeFrames : Nat → AttachProgram Bool
  | 0 => pure true
  | fuel + 1 => do
    match (← read (·.accumulator)).tryRead with
    | .error _ => return false
    | .ok none => return true
    | .ok (some (frame, accumulator)) =>
      update fun c => { c with accumulator }
      let goesOn ← handle frame
      if goesOn then takeFrames fuel else return false

def readSocket (t : AttachTurn) : AttachProgram Bool :=
  match t.socketRead with
  | .error source => pure (source = .wouldBlock)
  | .ok arrived => do
    let bytes := arrived.take socketBuffer
    if bytes = [] then return false
    update fun c =>
      { c with accumulator := c.accumulator.feed bytes, received := c.received ++ bytes }
    let buffered ← read (·.accumulator.buf.length)
    takeFrames handle (buffered + 1)

end passes

def readStdin (t : AttachTurn) : AttachProgram Bool :=
  match t.stdinRead with
  | .error source => pure (source = .wouldBlock)
  | .ok arrived => do
    let bytes := arrived.take stdinBuffer
    if bytes = [] then return false
    update fun c => { c with typed := c.typed ++ bytes }
    writeFrame { msgType := .stdin, payload := bytes } t.stdinWrites

def whenReadable (r : Revents) (m : AttachProgram Bool) : AttachProgram Bool :=
  if r.readable then m else pure true

def whenResized (t : AttachTurn) : AttachProgram Unit :=
  if t.resized then sendResize t else pure ()

/-- A pass of `io_loop`: whether the loop goes on. -/
def ioPass (t : AttachTurn) : AttachProgram Bool :=
  match t.poll.events with
  | none => pure false
  | some (socket, stdin) => do
    whenResized t
    let goesOn ← whenReadable socket (readSocket handleFrame t)
    if goesOn then do
      let typing ← whenReadable stdin (readStdin t)
      return typing && !stdin.inputIsClosed && !socket.broken
    else return false

/-- A pass of `io_loop_readonly`. -/
def ioPassReadonly (t : AttachTurn) : AttachProgram Bool :=
  match t.poll.events with
  | none => pure false
  | some (socket, _) => do
    let goesOn ← whenReadable socket (readSocket handleFrameReadonly t)
    return goesOn && !socket.broken

/-- The passes of a loop, as far as it gets; whether it is still going on. -/
def passes (pass : AttachTurn → AttachProgram Bool) : List AttachTurn → AttachProgram Bool
  | [] => pure true
  | t :: turns => do
    let goesOn ← pass t
    if goesOn then passes pass turns else return false

def ioLoop (turns : List AttachTurn) : AttachProgram Bool := passes ioPass turns

def ioLoopReadonly (turns : List AttachTurn) : AttachProgram Bool := passes ioPassReadonly turns

def loop (readonly : Bool) (turns : List AttachTurn) : AttachProgram Bool :=
  if readonly then ioLoopReadonly turns else ioLoop turns

/-- What `attach` does after the loop: `Detach`, and a word on how it ended. -/
def finish (sessionId : Nat) (answers : List WriteAnswer) : AttachProgram Unit := do
  let payload := encodeDetach { sessionId }
  let detached ← writeFrame { msgType := .detach, payload } answers
  if detached then
    let _ ← emitStdout (utf8 "\r\n[detached]\n")
  else emitStderr "\r\n[daemon disconnected - session preserved]\n"

end AttachClient

end PersistShell
