import PersistShell.Program.NatMap
import PersistShell.Ipc.Session
import PersistShell.Program.ByteQueue
import PersistShell.Program.Outcome

/-! The holder process and the system around it. The state is the server's own, the
terminals of its shells as the kernel keeps them, and a script: one turn for each system call
to come, saying what the shells do before it and how it is answered. The log is a history of
what happened; no function reads it. -/

namespace PersistShell

abbrev Fd := Nat
abbrev SessionId := Nat

/-- What `waitpid` reports of a shell that is gone. -/
inductive WaitStatus where
  | exited (code : Nat)
  | signaled (signal : Nat)
  | unknown (raw : Nat)
  deriving DecidableEq, Repr

/-- What a shell does on its own. -/
inductive Activity where
  | wrote (fd : Fd) (bytes : Bytes)
  | exited (fd : Fd) (status : WaitStatus)
  deriving DecidableEq, Repr

structure Peer where
  pid : Nat
  uid : Nat
  deriving DecidableEq, Repr

/-- The part of a shell state file that the holder uses. -/
structure ShellState where
  sequence : Nat
  cwd : String
  environment : Option EnvironmentSnapshot
  deriving DecidableEq

/-- The answer to one system call. A call reads the fields that concern it. -/
structure Turn where
  /-- What the shells do before the call. -/
  activity : List Activity := []
  /-- The error the call fails with. -/
  fault : Option Errno := none
  /-- How many bytes a read or a write moves; all there are, when not given. -/
  count : Option Nat := none
  /-- The bytes read from a peer, none of them when the peer has closed; not given when there
  is nothing to read. -/
  data : Option Bytes := none
  /-- The peer that `accept` returns. -/
  peer : Option Peer := none
  fd : Fd := 0
  pid : Nat := 1
  /-- Whether the peer of the controller closes its end. -/
  closed : Bool := false
  signal : Nat := 0
  /-- What `epoll_wait` reports: tokens and event flags. -/
  ready : List (Nat × Nat) := []
  now : Nat := 0
  /-- Whether the log worker has no room for a chunk. -/
  dropped : Bool := false
  failures : List (SessionId × Nat) := []
  /-- What the state file of a shell says. -/
  state : Option ShellState := none

/-- A terminal in the kernel: all that its shell wrote, how much of it the holder has read,
and how the shell ended. -/
structure Terminal where
  pid : Nat
  written : Bytes := []
  taken : Nat := 0
  status : Option WaitStatus := none
  deriving DecidableEq, Repr

def Terminal.unread (t : Terminal) : Bytes := t.written.drop t.taken

inductive DeliveryKind where
  | input (data : Bytes)
  | resize (request : ResizeRequest)
  | signal (request : SignalRequest)
  deriving DecidableEq, Repr

/-- An entry of the log. -/
inductive Note where
  | created (s : SessionId) (fd : Fd)
  /-- A chunk was read from the terminal of `s` and put into its ring buffer. -/
  | drained (s : SessionId) (chunk : Bytes)
  /-- A read found the terminal empty, `written` bytes after it was opened. -/
  | dry (fd : Fd) (written : Nat)
  /-- The exit of `s` is recorded and its terminal, with all that was written to it, dropped. -/
  | exited (s : SessionId) (fd : Fd) (written : Bytes)
  /-- `SessionExited` was queued to a connection. -/
  | announced (s : SessionId) (fd : Fd)
  /-- `s` was removed while the listed connections were attached to it. -/
  | retired (s : SessionId) (attached : List Fd)
  | attached (fd : Fd) (s : SessionId) (mode : HolderAttachMode)
  | detached (fd : Fd)
  | disconnected (fd : Fd)
  /-- The writer slot of `s` was taken back because `s` exited. -/
  | released (s : SessionId)
  /-- A frame that arrived on `fd` was handed to `s`. -/
  | delivered (fd : Fd) (s : SessionId) (kind : DeliveryKind)
  /-- A chunk of output of `s` was queued to `fd`. -/
  | output (fd : Fd) (s : SessionId) (chunk : Bytes)
  deriving DecidableEq, Repr

structure PtySession where
  masterFd : Fd
  childPid : Nat
  exitStatus : Option Int := none
  deriving DecidableEq, Repr

structure Session where
  pty : Option PtySession
  shellPid : Nat
  ring : RingBuffer
  logPath : Option String
  logState : HolderLogState
  createdAtMs : Nat
  lastActiveAtMs : Nat
  lastStateSequence : Nat := 0
  finalCwd : Option String := none
  finalEnvironment : Option EnvironmentSnapshot := none
  exitCode : Option Int := none
  input : ByteQueue := {}
  closing : Bool := false
  deriving DecidableEq

structure Runtime where
  sessions : Std.ExtTreeMap SessionId Session := {}
  ptyToSession : Std.ExtTreeMap Fd SessionId := {}
  stateDir : String
  generation : Nat := 0

inductive ConnectionRole where
  | pending
  | control
  | data
  deriving DecidableEq, Repr

structure Connection where
  peer : Peer
  role : ConnectionRole := .pending
  attachedSession : Option SessionId := none
  protocolMinor : Nat := holderProtocolBaselineMinor
  accumulator : HolderFrameAccumulator := {}
  output : ByteQueue := {}
  closeAfterFlush : Bool := false
  deriving DecidableEq, Repr

structure Controller where
  fd : Fd
  pid : Nat
  nonce : Bytes
  protocolMinor : Nat
  capabilities : Nat
  deriving DecidableEq, Repr

structure Reactor where
  nextToken : Nat := 1
  tokens : Std.ExtTreeMap Fd Nat := {}
  fds : Std.ExtTreeMap Nat Fd := {}
  /-- The registrations that were asked for, the newest first, and whether epoll took them.
  Like the log, no function reads it. -/
  registrations : List (Fd × Bool) := []

structure HolderServer where
  socket : Fd
  signals : Fd
  logs : Fd
  uid : Nat
  pid : Nat
  reactor : Reactor := {}
  runtime : Runtime
  connections : Std.ExtTreeMap Fd Connection := {}
  writers : Std.ExtTreeMap SessionId Fd := {}
  controller : Option Controller := none
  instanceId : Bytes
  shutdownFd : Option Fd := none

/-- A system call on a connection or on the terminal of a session. -/
inductive IoCall where
  | readPeer (fd : Fd)
  | writePeer (fd : Fd)
  | readPty (s : SessionId)
  | writePty (s : SessionId)
  | openPty (s : SessionId)
  deriving DecidableEq, Repr

def IoCall.operation : IoCall → String
  | .readPeer _ => "read holder peer"
  | .writePeer _ => "write holder peer"
  | .readPty _ => "drain holder PTY"
  | .writePty _ => "write holder PTY"
  | .openPty _ => "open holder PTY"

structure Failure where
  call : IoCall
  source : Errno
  deriving DecidableEq, Repr

def Failure.error (f : Failure) : PersistError := .io f.call.operation f.source

structure World where
  server : HolderServer
  terminals : Std.ExtTreeMap Fd Terminal := {}
  /-- The descriptors registered with epoll, and whether they wait for room to write. -/
  interest : Std.ExtTreeMap Fd Bool := {}
  script : List Turn := []
  log : List Note := []
  /-- The calls on connections and terminals that failed in the step under way, as reported
  by the system. Like the log, no function reads it. -/
  failures : List Failure := []

abbrev Holder := Program World PersistError

namespace Terminal

/-- A shell writes and exits only while it lives. -/
def act (t : Terminal) (a : Activity) : Terminal :=
  match t.status, a with
  | none, .wrote _ bytes => { t with written := t.written ++ bytes }
  | none, .exited _ status => { t with status := some status }
  | some _, _ => t

end Terminal

def Activity.fd : Activity → Fd
  | .wrote fd _ => fd
  | .exited fd _ => fd

def Activity.bytes : Activity → Nat
  | .wrote _ bytes => bytes.length
  | .exited _ _ => 0

def Turn.bytes (turn : Turn) : Nat := (turn.activity.map Activity.bytes).sum

namespace World

def act (w : World) (a : Activity) : World :=
  match w.terminals[a.fd]? with
  | none => w
  | some t => { w with terminals := w.terminals.insert a.fd (t.act a) }

/-- How many bytes of a terminal are still to be read. -/
def unread (w : World) (fd : Fd) : Nat := w.terminals[fd]?.elim 0 fun t => t.unread.length

/-- Descriptors that the process has open. -/
def isOpen (w : World) (fd : Fd) : Bool :=
  fd = w.server.socket || fd = w.server.signals || fd = w.server.logs ||
    w.server.connections.contains fd || w.terminals.contains fd

/-- A descriptor that is not open: the one the turn suggests, or one above all open ones. -/
def freshFd (w : World) (suggested : Fd) : Fd :=
  if w.isOpen suggested then
    (w.server.connections.keys ++ w.terminals.keys).foldl max
      (max w.server.socket (max w.server.signals w.server.logs)) + 1
  else suggested

end World

namespace Holder
open Program

/-- One system call: the shells act, then the turn answers. -/
def call : Holder Turn := fun w =>
  match w.script with
  | [] => (.ok {}, w)
  | turn :: script => (.ok turn, turn.activity.foldl World.act { w with script := script })

def note (n : Note) : Holder Unit := update fun w => { w with log := n :: w.log }

/-- A system call on a connection or a terminal failed. -/
def failIo {α : Type} (call : IoCall) (source : Errno) : Holder α := do
  let failure : Failure := { call, source }
  update fun w => { w with failures := failure :: w.failures }
  fail failure.error

def server : Holder HolderServer := read (·.server)

def modifyServer (f : HolderServer → HolderServer) : Holder Unit :=
  update fun w => { w with server := f w.server }

def modifyRuntime (f : Runtime → Runtime) : Holder Unit :=
  modifyServer fun h => { h with runtime := f h.runtime }

def modifyConnection (fd : Fd) (f : Connection → Connection) : Holder Unit :=
  modifyServer fun h => { h with connections := h.connections.alter fd (·.map f) }

def modifySession (s : SessionId) (f : Session → Session) : Holder Unit :=
  modifyRuntime fun r => { r with sessions := r.sessions.alter s (·.map f) }

/-- `connections[&fd]`, which aborts when there is no such connection. -/
def connection (fd : Fd) : Holder Connection := do
  unwrap (← server).connections[fd]?

def nowMs : Holder Nat := do
  return (← call).now

/-- A call that only succeeds or fails. -/
def control (operation : String) : Holder Unit := do
  match (← call).fault with
  | some source => fail (.io operation source)
  | none => return ()

end Holder

end PersistShell
