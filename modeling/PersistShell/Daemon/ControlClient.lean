import PersistShell.Ipc.Session
import PersistShell.Ipc.Operation
import PersistShell.Program.Outcome

/-! The daemon's end of the control connection to the holder: requests, the events that arrive
between them, and the inventory that is read page by page. The other end of the connection is
given as what arrives after each request that is written. -/

namespace PersistShell
open Program

def maxPendingEvents : Nat := 1024
def maxInventoryRetries : Nat := 8

structure ControlInventorySnapshot where
  instanceId : Bytes
  generation : Nat
  entries : List HolderSessionEntry
  deriving DecidableEq, Repr

/-- What one call of `read_frame` on the connection gives. -/
abbrev Incoming := Except PersistError HolderFrame

structure ControlClient where
  instanceId : Bytes
  nextRequestId : Nat := 2
  generation : Nat
  protocolMinor : Nat
  capabilities : Nat
  events : List HolderFrame := []
  /-- What has arrived and is not read. -/
  incoming : List Incoming := []
  /-- How many requests were written so far; no function of the client reads it. -/
  written : Nat := 0

/-- The other end: what arrives after the request with this number, or the error that writing
it fails with. -/
abbrev Answers := Nat → HolderFrame → Except Errno (List Incoming)

abbrev ClientProgram := Program ControlClient PersistError

namespace ControlClient

def protocolError (context : String) (error : HolderProtocolError) : PersistError :=
  .invalidArgument ("invalid holder " ++ context ++ ": " ++ error.debug)

def hasCapability (c : ControlClient) (capability : Nat) : Bool :=
  c.capabilities &&& capability ≠ 0

def isEvent : HolderMessageType → Bool
  | .sessionStarted | .sessionExited | .writerChanged | .logDegraded => true
  | _ => false

/-- `read_frame`; a read that finds nothing ends with the timeout of the socket. -/
def readFrame : ClientProgram HolderFrame := do
  match (← read (·.incoming)) with
  | [] => fail (.io "read holder control header" .wouldBlock)
  | first :: rest =>
    update fun c => { c with incoming := rest }
    lift first

def observeGeneration (generation : Nat) : ClientProgram Unit := do
  rejectIf (generation < (← read (·.generation)))
    (PersistError.invalidArgument "holder response generation moved backwards")
  update fun c => { c with generation }

def discardEventsThrough (generation : Nat) : ClientProgram Unit :=
  update fun c => { c with events := c.events.filter fun event => generation < event.generation }

section

variable [SerdeJson]

def validEvent (frame : HolderFrame) (environmentContext : Bool) : Bool :=
  match frame.messageType with
  | .sessionStarted | .writerChanged => (decodeOperationRequest frame.payload).isOk
  | .sessionExited =>
    if environmentContext then (decodeSessionExitedEventV2 frame.payload).isOk
    else (decodeSessionExitedEvent frame.payload).isOk
  | .logDegraded => (decodeLogDegraded frame.payload).isOk
  | _ => false

/-- `validate_event`. -/
def validateEvent (frame : HolderFrame) (environmentContext : Bool) : ClientProgram Unit :=
  rejectIf (!validEvent frame environmentContext ∨ frame.flags ≠ 0)
    (PersistError.invalidArgument "invalid holder control event")

/-- An event that came before the response. -/
def keepEvent (event : HolderFrame) : ClientProgram Unit := do
  rejectIf (event.requestId ≠ 0 ∨ !isEvent event.messageType)
    (PersistError.invalidArgument "holder response does not match request")
  validateEvent event ((← read id).hasCapability holderCapabilityEnvironmentContext)
  observeGeneration event.generation
  rejectIf ((← read (·.events)).length ≥ maxPendingEvents)
    (PersistError.invalidArgument "holder control event queue limit exceeded")
  update fun c => { c with events := c.events ++ [event] }

/-- The read loop of a request. Every pass takes something that has arrived, or is the last. -/
def receive (requestId : Nat) (responseType : HolderMessageType) : Nat → ClientProgram HolderFrame
  | 0 => abort
  | fuel + 1 => do
    let response ← readFrame
    if response.requestId = requestId ∧ response.messageType = responseType then
      observeGeneration response.generation
      return response
    else
      keepEvent response
      receive requestId responseType fuel

variable (answers : Answers)

/-- Writes the request; what the other end answers arrives. -/
def writeRequest (frame : HolderFrame) : ClientProgram Unit := do
  let c ← read id
  let _ ← lift ((encodeFrameWithMinor frame c.protocolMinor).mapError (protocolError "request"))
  match answers c.written frame with
  | .error source => fail (.io "write holder control frame" source)
  | .ok arrived =>
    update fun c => { c with incoming := c.incoming ++ arrived, written := c.written + 1 }

def request (requestType responseType : HolderMessageType) (payload : Bytes) :
    ClientProgram HolderFrame := do
  let c ← read id
  update fun c => { c with nextRequestId := (c.nextRequestId + 1) % 2 ^ 32 }
  rejectIf (c.nextRequestId = 0)
    (PersistError.internalError "holder request ID space exhausted")
  writeRequest answers
    { messageType := requestType
      requestId := c.nextRequestId
      generation := c.generation
      payload }
  receive c.nextRequestId responseType ((← read (·.incoming)).length + 1)

/-- The paging loop of `inventory_snapshot_once`. `generation` is that of the pages before;
the cursor grows from page to page, and that bounds the loop. -/
def pageLoop : Nat → Nat → List HolderSessionEntry → Option Nat →
    ClientProgram (Option ControlInventorySnapshot)
  | 0, _, _, _ => abort
  | fuel + 1, cursor, entries, generation => do
    let frame ← request answers .inventory .inventoryResp
      (encodeInventoryRequest { cursor, limit := maxInventoryEntries })
    let response ← lift ((decodeInventoryResponse frame.payload).mapError
      (protocolError "InventoryResp"))
    if generation.any (· ≠ frame.generation) then return none
    else
      match response.nextCursor with
      | none =>
        discardEventsThrough frame.generation
        return some
          { instanceId := (← read (·.instanceId))
            generation := frame.generation
            entries := entries ++ response.entries }
      | some next =>
        rejectIf (next ≤ cursor)
          (PersistError.invalidArgument "holder inventory cursor did not advance")
        pageLoop fuel next (entries ++ response.entries) (some frame.generation)

def inventorySnapshotOnce : ClientProgram (Option ControlInventorySnapshot) :=
  pageLoop answers (2 ^ 32) 0 [] none

def attempts : Nat → ClientProgram ControlInventorySnapshot
  | 0 => fail (.internalError "holder inventory generation did not stabilize")
  | count + 1 => do
    match ← inventorySnapshotOnce answers with
    | some snapshot => return snapshot
    | none => attempts count

def inventorySnapshot : ClientProgram ControlInventorySnapshot :=
  attempts answers maxInventoryRetries

end

end ControlClient

end PersistShell
