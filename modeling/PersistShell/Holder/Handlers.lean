import PersistShell.Holder.Connection

/-! The handlers of `HolderServer`: handshakes, control requests, data frames, and the
clean-up of connections and writer slots. -/

namespace PersistShell

def protocolError (context : String) (error : HolderProtocolError) : PersistError :=
  .invalidArgument ("invalid holder " ++ context ++ ": " ++ error.debug)

namespace Holder
open Program

/-- A decoder or an encoder whose error is reported for `context`. -/
def protocol {α : Type} (context : String) (result : Except HolderProtocolError α) : Holder α :=
  lift (result.mapError (protocolError context))

def queueFrame (fd : Fd) (frame : HolderFrame) : Holder Unit := do
  match (← server).connections[fd]? with
  | none => fail (.invalidArgument "holder connection disappeared")
  | some c =>
    let c ← lift (c.queue frame)
    modifyConnection fd fun _ => c
    reactorModify fd true

def generation : Holder Nat := do
  return (← server).runtime.generation

/-- A frame that answers no request. -/
def eventFrame (messageType : HolderMessageType) (payload : Bytes) : Holder HolderFrame := do
  return { messageType, generation := ← generation, payload }

def writerFrame (kind : HolderMessageType) (s : SessionId) : Holder HolderFrame :=
  eventFrame kind (encodeOperationRequest ⟨s⟩)

def detachConnection (fd : Fd) : Holder Unit := do
  let h ← server
  let session := h.connections[fd]?.bind Connection.attachedSession
  modifyConnection fd fun c => { c with attachedSession := none }
  note (.detached fd)
  match session with
  | none => return ()
  | some s =>
    if h.writers[s]? = some fd then
      modifyServer fun h => { h with writers := h.writers.erase s }

/-- The part of `disconnect` that concerns one connection. -/
def removeConnection (fd : Fd) : Holder Unit := do
  reactorRemove fd
  detachConnection fd
  modifyServer fun h => { h with connections := h.connections.erase fd }
  note (.disconnected fd)

/-- The recursive calls of the source are for data connections after the controller is
cleared, so none of them goes further. -/
def disconnect (fd : Fd) : Holder Unit := do
  removeConnection fd
  let h ← server
  if h.controller.any fun controller => controller.fd = fd then
    modifyServer fun h => { h with controller := none }
    forEach (h.connections.keys.filter fun fd =>
      h.connections[fd]?.any fun c => c.role = .data) removeConnection

/-- Queues a frame and logs `n`, or disconnects the receiver. -/
def queueOrDisconnect (fd : Fd) (frame : HolderFrame) (n : Option Note) : Holder Unit := do
  match ← attempt (queueFrame fd frame) with
  | .ok () => forEach n.toList note
  | .error _ => disconnect fd

def sendControl (frame : HolderFrame) : Holder Unit := do
  match (← server).controller with
  | none => return ()
  | some controller => queueOrDisconnect controller.fd frame none

def releaseWriter (s : SessionId) : Holder Unit := do
  match (← server).writers[s]? with
  | none => return ()
  | some fd =>
    modifyServer fun h => { h with writers := h.writers.erase s }
    note (.released s)
    queueOrDisconnect fd (← writerFrame .writeRevoked s) none

/-- The connections attached to a session. -/
def attachedTo (h : HolderServer) (s : SessionId) : List Fd :=
  h.connections.keys.filter fun fd => h.connections[fd]?.any fun c => c.attachedSession = some s

def detachSession (s : SessionId) : Holder Unit := do
  let targets := attachedTo (← server) s
  modifyServer fun h => { h with
    writers := h.writers.erase s
    connections := h.connections.map fun _ c =>
      if c.attachedSession = some s then { c with attachedSession := none } else c }
  forEach targets fun fd => note (.detached fd)

def respond (fd : Fd) (request : HolderFrame) (kind : HolderMessageType) (payload : Bytes) :
    Holder Unit := do
  queueFrame fd
    { messageType := kind, requestId := request.requestId, generation := ← generation, payload }

def operationResponse (fd : Fd) (request : HolderFrame) (kind : HolderMessageType)
    (response : OperationResponse) : Holder Unit := do
  respond fd request kind (← protocol "operation response" (encodeOperationResponse response))

/-- `connections.get_mut(&fd).unwrap()`. -/
def updateConnection (fd : Fd) (f : Connection → Connection) : Holder Unit := do
  let _ ← connection fd
  modifyConnection fd f

/-- An accepted controller that may have gone away unnoticed makes room for a new one. -/
def dropClosedController : Holder Unit := do
  let h ← server
  match h.controller with
  | none => return ()
  | some controller =>
    if h.connections.contains controller.fd then
      if (← call).closed then disconnect controller.fd

def helloStatus (h : HolderServer) (peer : Peer) (hello : ControlHello) : HelloStatus :=
  if hello.uid ≠ peer.uid ∨ hello.daemonPid ≠ peer.pid then .permissionDenied
  else if h.controller.isSome then .busy
  else .accepted

def handleControlHello (fd : Fd) (minor : Nat) (frame : HolderFrame) : Holder Unit := do
  rejectIf (minor ≠ holderProtocolBaselineMinor)
    (PersistError.invalidArgument "ControlHello must use baseline minor")
  dropClosedController
  let hello ← protocol "ControlHello" (decodeControlHello frame.payload)
  let peer := (← connection fd).peer
  let h ← server
  let status := helloStatus h peer hello
  queueFrame fd
    { messageType := .controlHelloAck
      requestId := frame.requestId
      generation := ← generation
      payload := encodeControlHelloAck
        { holderPid := h.pid, instanceId := h.instanceId, nonce := hello.nonce, status } }
  if status = .accepted then
    updateConnection fd fun c => { c with role := .control }
    modifyServer fun h => { h with
      controller := some
        { fd
          pid := hello.daemonPid
          nonce := hello.nonce
          protocolMinor := holderProtocolBaselineMinor
          capabilities := 0 } }
  else updateConnection fd fun c => { c with closeAfterFlush := true }

def dataHelloAccepted (h : HolderServer) (peer : Peer) (hello : DataHello) (minor : Nat) : Bool :=
  h.controller.any fun controller =>
    hello.daemonPid = peer.pid && hello.daemonPid = controller.pid &&
      hello.instanceId = h.instanceId && hello.nonce = controller.nonce &&
      minor = controller.protocolMinor

def handleDataHello (fd : Fd) (minor : Nat) (frame : HolderFrame) : Holder Unit := do
  let hello ← protocol "DataHello" (decodeDataHello frame.payload)
  let peer := (← connection fd).peer
  let h ← server
  let accepted := dataHelloAccepted h peer hello minor
  if accepted then updateConnection fd fun c => { c with protocolMinor := minor }
  queueFrame fd
    { messageType := .dataHelloAck
      requestId := frame.requestId
      generation := ← generation
      payload := encodeDataHelloAck
        { instanceId := h.instanceId
          nonce := hello.nonce
          status := if accepted then .accepted else .permissionDenied } }
  if accepted then updateConnection fd fun c => { c with role := .data }
  else updateConnection fd fun c => { c with closeAfterFlush := true }

def handleHello (fd : Fd) (minor : Nat) (frame : HolderFrame) : Holder Unit :=
  match frame.messageType with
  | .controlHello => handleControlHello fd minor frame
  | .dataHello => handleDataHello fd minor frame
  | _ => fail (.invalidArgument "expected holder hello")

def handleCapability (fd : Fd) (minor : Nat) (frame : HolderFrame) : Holder Unit := do
  let c ← connection fd
  rejectIf (minor ≠ holderProtocolMinor ∨ c.protocolMinor ≠ holderProtocolBaselineMinor)
    (PersistError.invalidArgument "invalid holder capability negotiation state")
  let request ← protocol "Capability" (decodeCapabilityRequest frame.payload)
  rejectIf (request.maxMinor ≠ holderProtocolMinor)
    (PersistError.invalidArgument "unsupported holder capability minor")
  let h ← server
  match h.controller.filter fun controller => controller.fd = fd with
  | none => fail (.invalidArgument "missing holder controller")
  | some controller =>
    rejectIf (request.instanceId ≠ h.instanceId ∨ request.nonce ≠ controller.nonce)
      (PersistError.invalidArgument "holder capability identity mismatch")
    modifyServer fun h => { h with
      controller := some { controller with
        protocolMinor := holderProtocolMinor
        capabilities := holderCapabilityEnvironmentContext } }
    updateConnection fd fun c => { c with protocolMinor := holderProtocolMinor }
    queueFrame fd
      { messageType := .capabilityResp
        requestId := frame.requestId
        generation := ← generation
        payload := encodeCapabilityResponse
          { instanceId := h.instanceId
            nonce := request.nonce
            selectedMinor := holderProtocolMinor
            capabilities := holderCapabilityEnvironmentContext } }

def handleInventory (fd : Fd) (frame : HolderFrame) : Holder Unit := do
  let request ← protocol "Inventory" (decodeInventoryRequest frame.payload)
  let h ← server
  let inventory := h.runtime.inventory request
  let inventory := { inventory with
    entries := inventory.entries.map fun entry =>
      { entry with writerActive := h.writers.contains entry.sessionId } }
  respond fd frame .inventoryResp (← protocol "InventoryResp" (encodeInventoryResponse inventory))

def handleCreate (fd : Fd) (minor : Nat) (frame : HolderFrame) : Holder Unit := do
  let request ← protocol "Create" (
    if minor = holderProtocolMinor then decodeCreateRequestV2 frame.payload
    else decodeCreateRequest frame.payload)
  let (response, ptyFd) ← create request
  match ptyFd with
  | none => pure ()
  | some ptyFd => reactorAdd ptyFd false
  operationResponse fd frame .createResp response

def handleClose (fd : Fd) (frame : HolderFrame) : Holder Unit := do
  let request ← protocol "operation" (decodeOperationRequest frame.payload)
  operationResponse fd frame .closeResp (← close request.sessionId)

def handleKill (fd : Fd) (frame : HolderFrame) : Holder Unit := do
  let request ← protocol "operation" (decodeOperationRequest frame.payload)
  operationResponse fd frame .killResp (← kill request.sessionId)

def handleRetireExited (fd : Fd) (frame : HolderFrame) : Holder Unit := do
  let request ← protocol "RetireExited" (decodeOperationRequest frame.payload)
  operationResponse fd frame .retireExitedResp (← retireExited request.sessionId)

def handleShutdownAll (fd : Fd) (frame : HolderFrame) : Holder Unit := do
  respond fd frame .shutdownAllResp []
  modifyServer fun h => { h with shutdownFd := some fd }

/-- `require_writer`. -/
def requireWriter (fd : Fd) : Holder SessionId := do
  match (← connection fd).attachedSession with
  | none => fail (.invalidArgument "holder data client not attached")
  | some s =>
    let h ← server
    rejectIf (h.writers[s]? ≠ some fd ∨ !h.runtime.isRunning s)
      (PersistError.invalidArgument "holder data client is not writer")
    return s

def handleInput (fd : Fd) (frame : HolderFrame) : Holder Unit := do
  let s ← requireWriter fd
  note (.delivered fd s (.input frame.payload))
  let pending ← queueInput s frame.payload
  match (← server).runtime.ptyFd s with
  | none => return ()
  | some ptyFd => reactorModify ptyFd pending

def handleResize (fd : Fd) (frame : HolderFrame) : Holder Unit := do
  let s ← requireWriter fd
  let request ← protocol "Resize" (decodeResizeRequest frame.payload)
  note (.delivered fd s (.resize request))
  resize s

def handleSignalFrame (fd : Fd) (frame : HolderFrame) : Holder Unit := do
  let s ← requireWriter fd
  let request ← protocol "Signal" (decodeSignalRequest frame.payload)
  note (.delivered fd s (.signal request))
  signal s

/-- The replay after an attach, cut into frames. -/
def chunksOf (len : Nat) : Nat → Bytes → List Bytes
  | 0, _ => []
  | _ + 1, [] => []
  | fuel + 1, bytes => bytes.take len :: chunksOf len fuel (bytes.drop len)

/-- `writers.insert`, for a connection that attaches to write. It gives the writer before. -/
def claimWriter (fd : Fd) (s : SessionId) (mode : HolderAttachMode) : Holder (Option Fd) := do
  let previous := (← server).writers[s]?
  note (.attached fd s mode)
  if mode = .readWrite then
    modifyServer fun h => { h with writers := h.writers.insert s fd }
    return previous
  else return none

def revokeWriter (previous : Option Fd) (s : SessionId) : Holder Unit := do
  match previous with
  | none => return ()
  | some previous => queueOrDisconnect previous (← writerFrame .writeRevoked s) none

def attach (fd : Fd) (frame : HolderFrame) : Holder Unit := do
  let request ← protocol "Attach" (decodeAttachRequest frame.payload)
  let s := request.sessionId
  if ((← server).runtime.replay s 0).isNone then
    operationResponse fd frame .attachResp (sessionResponse s .notFound "not found")
  else
    detachConnection fd
    let previous ← claimWriter fd s request.mode
    revokeWriter previous s
    updateConnection fd fun c => { c with attachedSession := some s }
    operationResponse fd frame .attachResp (sessionResponse s .ok "")
    let replay ← unwrap ((← server).runtime.replay s request.replayBytes)
    forEach (chunksOf maxHolderIoFrame replay.length replay) fun chunk => do
      queueFrame fd (← eventFrame .output chunk)
    if request.mode = .readWrite then queueFrame fd (← writerFrame .writeGranted s)

def handleData (fd : Fd) (frame : HolderFrame) : Holder Unit :=
  match frame.messageType with
  | .attach => attach fd frame
  | .detach =>
    if frame.payload = [] then detachConnection fd
    else fail (.invalidArgument "invalid holder data request")
  | .input => handleInput fd frame
  | .resize => handleResize fd frame
  | .signal => handleSignalFrame fd frame
  | _ => fail (.invalidArgument "invalid holder data request")

variable [SerdeJson]

def handleGetExitContext (fd : Fd) (minor : Nat) (frame : HolderFrame) : Holder Unit := do
  let request ← protocol "GetExitContext" (decodeOperationRequest frame.payload)
  let runtime := (← server).runtime
  let payload ← protocol "GetExitContextResp" (
    if minor = holderProtocolMinor then
      encodeExitContextResponseV2 (runtime.exitContextResponseV2 request.sessionId)
    else encodeExitContextResponse (runtime.exitContextResponse request.sessionId))
  respond fd frame .getExitContextResp payload

def handleControl (fd : Fd) (minor : Nat) (frame : HolderFrame) : Holder Unit := do
  if frame.messageType = .capability then handleCapability fd minor frame
  else
    let c ← connection fd
    rejectIf (minor ≠ c.protocolMinor)
      (PersistError.invalidArgument "holder control protocol minor changed")
    match frame.messageType with
    | .inventory => handleInventory fd frame
    | .create => handleCreate fd minor frame
    | .close => handleClose fd frame
    | .kill => handleKill fd frame
    | .getExitContext => handleGetExitContext fd minor frame
    | .retireExited => handleRetireExited fd frame
    | .shutdownAll =>
      if frame.payload = [] then handleShutdownAll fd frame
      else fail (.invalidArgument "invalid holder control request")
    | _ => fail (.invalidArgument "invalid holder control request")

end Holder

end PersistShell
