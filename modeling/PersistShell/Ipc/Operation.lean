import PersistShell.Ipc.Frame

/-! Payloads of the operations on one session and of the events about one. -/

namespace PersistShell

structure OperationRequest where
  sessionId : Nat
  deriving DecidableEq, Repr

inductive OperationStatus where
  | ok
  | notFound
  | conflict
  | rejected
  | internal
  deriving DecidableEq, Repr

structure OperationResponse where
  sessionId : Nat
  status : OperationStatus
  message : String
  deriving DecidableEq, Repr

structure SessionExitedEvent where
  sessionId : Nat
  exitCode : Int
  cwd : Option String
  deriving DecidableEq, Repr

structure SessionExitedEventV2 extends SessionExitedEvent where
  environment : Option EnvironmentSnapshot
  deriving DecidableEq

structure ExitContextResponse where
  sessionId : Nat
  status : OperationStatus
  exitCode : Option Int
  cwd : Option String
  deriving DecidableEq, Repr

structure ExitContextResponseV2 extends ExitContextResponse where
  environment : Option EnvironmentSnapshot
  deriving DecidableEq

structure ResizeRequest where
  rows : Nat
  cols : Nat
  deriving DecidableEq, Repr

structure SignalRequest where
  signal : Nat
  deriving DecidableEq, Repr

structure LogDegradedEvent where
  sessionId : Nat
  droppedBytes : Nat
  deriving DecidableEq, Repr

namespace OperationStatus

def encode : OperationStatus → Nat
  | ok => 0
  | notFound => 1
  | conflict => 2
  | rejected => 3
  | internal => 4

def decode : Nat → Except HolderProtocolError OperationStatus
  | 0 => .ok ok
  | 1 => .ok notFound
  | 2 => .ok conflict
  | 3 => .ok rejected
  | 4 => .ok internal
  | _ => .error .invalidField

end OperationStatus

def encodeOperationRequest (request : OperationRequest) : Bytes :=
  if request.sessionId = 0 then [] else putU32 request.sessionId

def readOperationRequest : Reader OperationRequest := do
  let request := ⟨← Reader.u32⟩
  Reader.finish
  rejectIf (request.sessionId = 0) .invalidField
  return request

def decodeOperationRequest : Bytes → Except HolderProtocolError OperationRequest :=
  Reader.decode readOperationRequest

def encodeOperationResponse (response : OperationResponse) :
    Except HolderProtocolError Bytes := do
  rejectIf (response.sessionId = 0 ∨ (utf8 response.message).length > maxHolderErrorMessage)
    (if (utf8 response.message).length > maxHolderErrorMessage then .payloadTooLarge
      else .invalidField)
  return putU32 response.sessionId ++ putU8 response.status.encode ++
    (← putStringAllowEmpty response.message maxHolderErrorMessage)

def readOperationResponse : Reader OperationResponse := do
  let sessionId ← Reader.u32
  let status ← OperationStatus.decode (← Reader.u8)
  let message ← Reader.string maxHolderErrorMessage
  Reader.finish
  rejectIf (sessionId = 0) .invalidField
  return { sessionId, status, message }

def decodeOperationResponse : Bytes → Except HolderProtocolError OperationResponse :=
  Reader.decode readOperationResponse

def validateCwd (cwd : Option String) : Except HolderProtocolError Unit :=
  match cwd with
  | none => .ok ()
  | some cwd =>
    if (utf8 cwd).length > maxHolderPath then .error .payloadTooLarge
    else if utf8 cwd = [] ∨ (utf8 cwd).contains 0 ∨ !isAbsolutePath (utf8 cwd) then
      .error .invalidField
    else .ok ()

def encodeSessionExitedEvent (event : SessionExitedEvent) :
    Except HolderProtocolError Bytes := do
  rejectIf (event.sessionId = 0) .invalidField
  validateCwd event.cwd
  return putU32 event.sessionId ++ putI32 event.exitCode ++
    (← putOptionalString event.cwd maxHolderPath)

def readSessionExitedFields : Reader SessionExitedEvent := do
  let sessionId ← Reader.u32
  let exitCode ← Reader.i32
  let cwd ← Reader.optionalString maxHolderPath
  return { sessionId, exitCode, cwd }

def checkSessionExited (event : SessionExitedEvent) : Except HolderProtocolError Unit := do
  rejectIf (event.sessionId = 0) .invalidField
  validateCwd event.cwd

def readSessionExitedEvent : Reader SessionExitedEvent := do
  let event ← readSessionExitedFields
  Reader.finish
  checkSessionExited event
  return event

def decodeSessionExitedEvent : Bytes → Except HolderProtocolError SessionExitedEvent :=
  Reader.decode readSessionExitedEvent

def validateExitContextResponse (response : ExitContextResponse) :
    Except HolderProtocolError Unit := do
  rejectIf (response.sessionId = 0) .invalidField
  let validCombination :=
    if response.status = .ok then response.exitCode.isSome
    else response.exitCode.isNone && response.cwd.isNone
  rejectIf (!validCombination) .invalidField
  validateCwd response.cwd

def encodeExitContextResponse (response : ExitContextResponse) :
    Except HolderProtocolError Bytes := do
  validateExitContextResponse response
  return putU32 response.sessionId ++ putU8 response.status.encode ++
    putBool response.exitCode.isSome ++ putI32 (response.exitCode.getD 0) ++
    (← putOptionalString response.cwd maxHolderPath)

def readExitContextFields : Reader ExitContextResponse := do
  let sessionId ← Reader.u32
  let status ← OperationStatus.decode (← Reader.u8)
  let hasExitCode ← Reader.bool
  let rawExitCode ← Reader.i32
  let cwd ← Reader.optionalString maxHolderPath
  return { sessionId, status, exitCode := if hasExitCode then some rawExitCode else none, cwd }

def readExitContextResponse : Reader ExitContextResponse := do
  let response ← readExitContextFields
  Reader.finish
  validateExitContextResponse response
  return response

def decodeExitContextResponse : Bytes → Except HolderProtocolError ExitContextResponse :=
  Reader.decode readExitContextResponse

section environment
variable [SerdeJson]

def encodeEnvironmentField (environment : Option EnvironmentSnapshot) :
    Except HolderProtocolError Bytes :=
  match environment with
  | none => putOptionalBytesU32 none maxShellEnvironmentBytes
  | some snapshot =>
    match encodeEnvironmentSnapshot snapshot with
    | .ok encoded => putOptionalBytesU32 (some encoded) maxShellEnvironmentBytes
    | .error _ => .error .invalidField

def readEnvironmentField : Reader (Option EnvironmentSnapshot) := do
  match ← Reader.optionalBytesU32 maxShellEnvironmentBytes with
  | none => return none
  | some encoded =>
    match decodeEnvironmentSnapshot encoded with
    | .ok snapshot => return some snapshot
    | .error _ => throw .invalidField

def encodeSessionExitedEventV2 (event : SessionExitedEventV2) :
    Except HolderProtocolError Bytes :=
  return (← encodeSessionExitedEvent event.toSessionExitedEvent) ++
    (← encodeEnvironmentField event.environment)

def readSessionExitedEventV2 : Reader SessionExitedEventV2 := do
  let event ← readSessionExitedFields
  let environment ← readEnvironmentField
  Reader.finish
  checkSessionExited event
  return { event with environment }

def decodeSessionExitedEventV2 : Bytes → Except HolderProtocolError SessionExitedEventV2 :=
  Reader.decode readSessionExitedEventV2

def validateExitContextResponseV2 (response : ExitContextResponseV2) :
    Except HolderProtocolError Unit := do
  validateExitContextResponse response.toExitContextResponse
  rejectIf (response.status ≠ .ok ∧ response.environment.isSome) .invalidField

def encodeExitContextResponseV2 (response : ExitContextResponseV2) :
    Except HolderProtocolError Bytes := do
  validateExitContextResponseV2 response
  return (← encodeExitContextResponse response.toExitContextResponse) ++
    (← encodeEnvironmentField response.environment)

def readExitContextResponseV2 : Reader ExitContextResponseV2 := do
  let response ← readExitContextFields
  let environment ← readEnvironmentField
  Reader.finish
  validateExitContextResponseV2 { response with environment }
  return { response with environment }

def decodeExitContextResponseV2 : Bytes → Except HolderProtocolError ExitContextResponseV2 :=
  Reader.decode readExitContextResponseV2

end environment

def encodeResizeRequest (request : ResizeRequest) : Bytes :=
  if request.rows = 0 ∨ request.cols = 0 then [] else putU16 request.rows ++ putU16 request.cols

def readResizeRequest : Reader ResizeRequest := do
  let rows ← Reader.u16
  let cols ← Reader.u16
  Reader.finish
  rejectIf (rows = 0 ∨ cols = 0) .invalidField
  return { rows, cols }

def decodeResizeRequest : Bytes → Except HolderProtocolError ResizeRequest :=
  Reader.decode readResizeRequest

def encodeSignalRequest (request : SignalRequest) : Bytes :=
  if request.signal = 0 ∨ request.signal > 64 then [] else putU32 request.signal

def readSignalRequest : Reader SignalRequest := do
  let request := ⟨← Reader.u32⟩
  Reader.finish
  rejectIf (request.signal = 0 ∨ request.signal > 64) .invalidField
  return request

def decodeSignalRequest : Bytes → Except HolderProtocolError SignalRequest :=
  Reader.decode readSignalRequest

def encodeLogDegraded (event : LogDegradedEvent) : Bytes :=
  if event.sessionId = 0 ∨ event.droppedBytes = 0 then []
  else putU32 event.sessionId ++ putU64 event.droppedBytes

def readLogDegraded : Reader LogDegradedEvent := do
  let sessionId ← Reader.u32
  let droppedBytes ← Reader.u64
  Reader.finish
  rejectIf (sessionId = 0 ∨ droppedBytes = 0) .invalidField
  return { sessionId, droppedBytes }

def decodeLogDegraded : Bytes → Except HolderProtocolError LogDegradedEvent :=
  Reader.decode readLogDegraded

end PersistShell
