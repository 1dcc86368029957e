import PersistShell.Holder.Runtime

/-! Connections of the holder: reading frames, queueing and flushing output, and the epoll
registrations behind them. -/

namespace PersistShell

def maxPendingOutput : Nat := 1024 * 1024

namespace Connection

def wantsWrite (c : Connection) : Bool := !c.output.isEmpty

def frameError (error : HolderProtocolError) : PersistError :=
  .invalidArgument ("invalid holder frame: " ++ error.debug)

def queue (c : Connection) (frame : HolderFrame) : Except PersistError Connection := do
  let bytes ← (encodeFrameWithMinor frame c.protocolMinor).mapError frameError
  rejectIf (c.output.bytes + bytes.length > maxPendingOutput)
    (PersistError.invalidArgument "holder client output queue limit exceeded")
  return { c with output := c.output.push bytes }

/-- What the accumulator makes of bytes that were read. -/
def feed (c : Connection) (bytes : Bytes) :
    Except PersistError (Connection × List (Nat × HolderFrame)) := do
  let accumulator ← (c.accumulator.feed bytes).mapError frameError
  let (frames, accumulator) ← accumulator.frames.mapError frameError
  return ({ c with accumulator }, frames)

end Connection

def Reactor.forget (r : Reactor) (fd : Fd) : Reactor :=
  match r.tokens[fd]? with
  | none => r
  | some token => { r with tokens := r.tokens.erase fd, fds := r.fds.erase token }

namespace Holder
open Program

/-- The read loop of `read_frames`. Every pass but the last takes a turn of the script. -/
def readLoop (fd : Fd) : Nat → Holder (List (Nat × HolderFrame) × Bool)
  | 0 => abort
  | fuel + 1 => do
    let turn ← call
    match turn.fault with
    | some .wouldBlock => return ([], false)
    | some source => failIo (.readPeer fd) source
    | none =>
      match turn.data with
      | none => return ([], false)
      | some [] => return ([], true)
      | some bytes =>
        let (c, frames) ← lift ((← connection fd).feed (bytes.take (64 * 1024)))
        modifyConnection fd fun _ => c
        let (rest, closed) ← readLoop fd fuel
        return (frames ++ rest, closed)

def readFrames (fd : Fd) : Holder (List (Nat × HolderFrame) × Bool) := do
  let _ ← connection fd
  readLoop fd ((← read (·.script)).length + 1)

/-- The write loop of `flush`; `false` when the peer takes no more bytes. Every pass but the
last writes a byte. -/
def flushLoop (fd : Fd) : Nat → Holder Bool
  | 0 => abort
  | fuel + 1 => do
    match (← connection fd).output.front with
    | none => return true
    | some front =>
      let turn ← call
      match turn.fault with
      | some .wouldBlock => return true
      | some source => failIo (.writePeer fd) source
      | none =>
        match min (turn.count.getD front.length) front.length with
        | 0 => return false
        | count =>
          modifyConnection fd fun c => { c with output := c.output.advance count }
          flushLoop fd fuel

def flush (fd : Fd) : Holder Bool := do
  if ← flushLoop fd ((← connection fd).output.chunks.flatten.length + 1) then
    let c ← connection fd
    return !(c.closeAfterFlush && c.output.isEmpty)
  else return false

def epollControl (fd : Fd) (writable : Bool) : Holder Unit := do
  control "configure holder epoll fd"
  update fun w => { w with interest := w.interest.insert fd writable }

def modifyReactor (f : Reactor → Reactor) : Holder Unit :=
  modifyServer fun h => { h with reactor := f h.reactor }

def reactorAdd (fd : Fd) (writable : Bool) : Holder Unit := do
  let token := (← server).reactor.nextToken
  modifyReactor fun r => { r with
    nextToken := max ((token + 1) % 2 ^ 64) 1
    registrations := (fd, false) :: r.registrations }
  epollControl fd writable
  modifyReactor fun r => { r with
    tokens := r.tokens.insert fd token
    fds := r.fds.insert token fd
    registrations := (fd, true) :: r.registrations.tail }

def reactorModify (fd : Fd) (writable : Bool) : Holder Unit := do
  rejectIf ((← server).reactor.tokens[fd]? = none)
    (PersistError.invalidArgument "holder epoll fd is not registered")
  epollControl fd writable

def reactorRemove (fd : Fd) : Holder Unit := do
  modifyReactor (·.forget fd)
  let _ ← call
  update fun w => { w with interest := w.interest.erase fd }

/-- `Reactor::wait` starts again when a signal interrupts it. -/
def waitLoop : Nat → Holder (List (Nat × Nat))
  | 0 => abort
  | fuel + 1 => do
    let turn ← call
    match turn.fault with
    | none => return turn.ready.take 128
    | some (.other 4) => waitLoop fuel
    | some source => fail (.io "wait for holder epoll" source)

def reactorWait : Holder (List (Nat × Nat)) := do
  waitLoop ((← read (·.script)).length + 1)

/-- `Connection::new` after `HolderSocket::accept`, for one peer. -/
def acceptPeer : Holder (Option Fd) := do
  let turn ← call
  match turn.fault, turn.peer with
  | some .wouldBlock, _ | none, none => return none
  | some source, _ => fail (.io "accept holder connection" source)
  | none, some peer =>
    let uid := (← server).uid
    rejectIf (peer.uid ≠ uid) (PersistError.invalidArgument
      ("holder peer uid " ++ toString peer.uid ++ " does not match " ++ toString uid))
    control "set holder peer nonblocking"
    let fd ← read (·.freshFd turn.fd)
    reactorAdd fd false
    modifyServer fun h => { h with connections := h.connections.insert fd { peer } }
    return some fd

/-- Accepts until there is no peer. Every pass but the last takes a turn of the script. -/
def acceptLoop : Nat → Holder Unit
  | 0 => abort
  | fuel + 1 => do
    match ← acceptPeer with
    | none => return ()
    | some _ => acceptLoop fuel

def acceptConnections : Holder Unit := do
  acceptLoop ((← read (·.script)).length + 1)

end Holder

end PersistShell
