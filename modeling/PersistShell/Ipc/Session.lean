import PersistShell.Ipc.Handshake

/-! Payloads of the inventory, of Create in its two forms and of Attach. -/

namespace PersistShell

structure InventoryRequest where
  cursor : Nat
  limit : Nat
  deriving DecidableEq, Repr

inductive HolderSessionState where
  | running
  | exited
  deriving DecidableEq, Repr

inductive HolderLogState where
  | healthy
  | degraded
  | disabled
  deriving DecidableEq, Repr

structure HolderSessionEntry where
  sessionId : Nat
  shellPid : Nat
  state : HolderSessionState
  exitCode : Option Int
  createdAtMs : Nat
  lastActiveAtMs : Nat
  ringBytes : Nat
  writerActive : Bool
  logState : HolderLogState
  exitContextAvailable : Bool
  deriving DecidableEq, Repr

structure InventoryResponse where
  entries : List HolderSessionEntry
  nextCursor : Option Nat
  deriving DecidableEq, Repr

structure CreateSessionRequest where
  sessionId : Nat
  shell : String
  arguments : List String
  cwd : Option String
  launchEnvironment : ShellLaunchEnvironment
  historyFile : Option String
  ringBufferSize : Nat
  logPath : Option String
  stateFile : String
  stateIncarnation : Bytes
  deriving DecidableEq, Repr

inductive HolderAttachMode where
  | readWrite
  | readOnly
  deriving DecidableEq, Repr

structure AttachRequest where
  sessionId : Nat
  mode : HolderAttachMode
  replayBytes : Nat
  deriving DecidableEq, Repr

def noCursor : Nat := 2 ^ 32 - 1

def validInventoryRequest (request : InventoryRequest) : Bool :=
  request.cursor ≠ noCursor && request.limit ≠ 0 && request.limit ≤ maxInventoryEntries

def encodeInventoryRequest (request : InventoryRequest) : Bytes :=
  if validInventoryRequest request then putU32 request.cursor ++ putU16 request.limit else []

def readInventoryRequest : Reader InventoryRequest := do
  let cursor ← Reader.u32
  let limit ← Reader.u16
  Reader.finish
  rejectIf (!validInventoryRequest { cursor, limit }) .invalidField
  return { cursor, limit }

def decodeInventoryRequest : Bytes → Except HolderProtocolError InventoryRequest :=
  Reader.decode readInventoryRequest

namespace HolderSessionState

def encode : HolderSessionState → Nat
  | running => 0
  | exited => 1

def decode : Nat → Except HolderProtocolError HolderSessionState
  | 0 => .ok running
  | 1 => .ok exited
  | _ => .error .invalidField

end HolderSessionState

namespace HolderLogState

def encode : HolderLogState → Nat
  | healthy => 0
  | degraded => 1
  | disabled => 2

def decode : Nat → Except HolderProtocolError HolderLogState
  | 0 => .ok healthy
  | 1 => .ok degraded
  | 2 => .ok disabled
  | _ => .error .invalidField

end HolderLogState

def validateEntryFields (entry : HolderSessionEntry) : Except HolderProtocolError Unit :=
  let exitMatchesState := match entry.state, entry.exitCode with
    | .running, none => true
    | .exited, some _ => true
    | _, _ => false
  if entry.sessionId = 0 ∨ entry.shellPid = 0 ∨ !exitMatchesState ∨
      (entry.state = .running ∧ entry.exitContextAvailable) ∨
      entry.lastActiveAtMs < entry.createdAtMs then
    .error .invalidField
  else .ok ()

def encodeEntry (entry : HolderSessionEntry) : Except HolderProtocolError Bytes := do
  validateEntryFields entry
  return putU32 entry.sessionId ++ putU32 entry.shellPid ++ putU8 entry.state.encode ++
    putBool entry.exitCode.isSome ++ putI32 (entry.exitCode.getD 0) ++
    putU64 entry.createdAtMs ++ putU64 entry.lastActiveAtMs ++ putU32 entry.ringBytes ++
    putBool entry.writerActive ++ putU8 entry.logState.encode ++
    putBool entry.exitContextAvailable

def decodeEntry : Reader HolderSessionEntry := do
  let sessionId ← Reader.u32
  let shellPid ← Reader.u32
  let state ← HolderSessionState.decode (← Reader.u8)
  let hasExit ← Reader.bool
  let rawExit ← Reader.i32
  let createdAtMs ← Reader.u64
  let lastActiveAtMs ← Reader.u64
  let ringBytes ← Reader.u32
  let writerActive ← Reader.bool
  let logState ← HolderLogState.decode (← Reader.u8)
  let exitContextAvailable ← Reader.bool
  let entry : HolderSessionEntry :=
    { sessionId, shellPid, state, exitCode := if hasExit then some rawExit else none,
      createdAtMs, lastActiveAtMs, ringBytes, writerActive, logState, exitContextAvailable }
  validateEntryFields entry
  return entry

def encodeInventoryResponse (response : InventoryResponse) :
    Except HolderProtocolError Bytes := do
  rejectIf (response.entries.length > maxInventoryEntries) .payloadTooLarge
  rejectIf (response.nextCursor = some 0 ∨ response.nextCursor = some noCursor) .invalidField
  return putU32 (response.nextCursor.getD noCursor) ++ putU16 response.entries.length ++
    (← response.entries.mapM encodeEntry).flatten

def readInventoryResponse : Reader InventoryResponse := do
  let cursor ← Reader.u32
  rejectIf (cursor = 0) .invalidField
  let count ← Reader.u16
  rejectIf (count > maxInventoryEntries) .payloadTooLarge
  let entries ← Reader.repeated decodeEntry count
  Reader.finish
  return { entries, nextCursor := if cursor = noCursor then none else some cursor }

def decodeInventoryResponse : Bytes → Except HolderProtocolError InventoryResponse :=
  Reader.decode readInventoryResponse

def isAbsolute (value : String) : Bool :=
  !(utf8 value).isEmpty && !(utf8 value).contains 0 && isAbsolutePath (utf8 value)

def optionalAbsolute (value : Option String) : Bool := value.all isAbsolute

def tooLong (value : String) (max : Nat) : Bool := decide ((utf8 value).length > max)

def validateCreate (request : CreateSessionRequest) : Except HolderProtocolError Unit := do
  rejectIf (tooLong request.shell maxHolderPath ||
      decide (request.arguments.length > maxHolderArguments) ||
      request.arguments.any (tooLong · maxHolderArgument) ||
      decide (request.launchEnvironment.entryCount > maxHolderEnvVars) ||
      request.cwd.any (tooLong · maxHolderPath) ||
      request.historyFile.any (tooLong · maxHolderPath) ||
      request.logPath.any (tooLong · maxHolderPath) ||
      tooLong request.stateFile maxHolderPath) .payloadTooLarge
  rejectIf (request.sessionId = 0 ∨ request.ringBufferSize = 0 ∨
      request.ringBufferSize > maxHolderRingBuffer ∨ !isAbsolute request.shell ∨
      !optionalAbsolute request.cwd ∨ !optionalAbsolute request.historyFile ∨
      !optionalAbsolute request.logPath ∨ !isAbsolute request.stateFile ∨
      request.stateIncarnation = zeroId) .invalidField
  rejectIf (request.arguments.any fun argument => (utf8 argument).contains 0) .invalidField

def putEnvironmentPairs (environment : List (String × String)) :
    Except HolderProtocolError Bytes := do
  let fields ← environment.mapM fun entry =>
    return (← putString entry.1 maxHolderEnvName) ++
      (← putStringAllowEmpty entry.2 maxHolderEnvValue)
  return putU16 environment.length ++ fields.flatten

def putEnvironmentNames (names : List String) : Except HolderProtocolError Bytes := do
  let fields ← names.mapM fun name => putString name maxHolderEnvName
  return putU16 names.length ++ fields.flatten

def putLaunchEnvironment (environment : ShellLaunchEnvironment) (structured : Bool) :
    Except HolderProtocolError Bytes := do
  if structured then
    return (← putEnvironmentPairs environment.savedSet) ++
      (← putEnvironmentNames environment.savedUnset) ++
      (← putEnvironmentPairs environment.connection) ++
      (← putEnvironmentPairs environment.private_)
  else putEnvironmentPairs environment.legacySetEnvironment

def encodeCreate (request : CreateSessionRequest) (structuredEnvironment : Bool) :
    Except HolderProtocolError Bytes := do
  validateCreate request
  let shell ← putString request.shell maxHolderPath
  let arguments ← request.arguments.mapM (putStringAllowEmpty · maxHolderArgument)
  let cwd ← putOptionalString request.cwd maxHolderPath
  let environment ← putLaunchEnvironment request.launchEnvironment structuredEnvironment
  let historyFile ← putOptionalString request.historyFile maxHolderPath
  let logPath ← putOptionalString request.logPath maxHolderPath
  let stateFile ← putString request.stateFile maxHolderPath
  return putU32 request.sessionId ++ putU32 request.ringBufferSize ++ shell ++
    putU16 request.arguments.length ++ arguments.flatten ++ cwd ++ environment ++ historyFile ++
    logPath ++ stateFile ++ request.stateIncarnation

def encodeCreateRequest (request : CreateSessionRequest) : Except HolderProtocolError Bytes :=
  encodeCreate request false

def encodeCreateRequestV2 (request : CreateSessionRequest) : Except HolderProtocolError Bytes :=
  encodeCreate request true

def readEnvironmentPairs : Reader (List (String × String)) := do
  let count ← Reader.u16
  rejectIf (count > maxHolderEnvVars) .payloadTooLarge
  let readPair : Reader (String × String) := do
    let name ← Reader.string maxHolderEnvName
    let value ← Reader.string maxHolderEnvValue
    return (name, value)
  Reader.repeated readPair count

def readEnvironmentNames : Reader (List String) := do
  let count ← Reader.u16
  rejectIf (count > maxHolderEnvVars) .payloadTooLarge
  Reader.repeated (Reader.string maxHolderEnvName) count

def launchOrInvalid (environment : Except PersistError ShellLaunchEnvironment) :
    Reader ShellLaunchEnvironment :=
  match environment with
  | .ok environment => return environment
  | .error _ => throw .invalidField

def readLaunchEnvironment (structured : Bool) : Reader ShellLaunchEnvironment := do
  if structured then
    let savedSet ← readEnvironmentPairs
    let savedUnset ← readEnvironmentNames
    let connection ← readEnvironmentPairs
    let private_ ← readEnvironmentPairs
    rejectIf (savedSet.length + savedUnset.length + connection.length + private_.length >
        maxHolderEnvVars) .payloadTooLarge
    launchOrInvalid (ShellLaunchEnvironment.new savedSet savedUnset connection private_)
  else launchOrInvalid (ShellLaunchEnvironment.legacy (← readEnvironmentPairs))

def readCreate (structuredEnvironment : Bool) : Reader CreateSessionRequest := do
  let sessionId ← Reader.u32
  let ringBufferSize ← Reader.u32
  let shell ← Reader.string maxHolderPath
  let argumentCount ← Reader.u16
  rejectIf (argumentCount > maxHolderArguments) .payloadTooLarge
  let arguments ← Reader.repeated (Reader.string maxHolderArgument) argumentCount
  let cwd ← Reader.optionalString maxHolderPath
  let launchEnvironment ← readLaunchEnvironment structuredEnvironment
  let historyFile ← Reader.optionalString maxHolderPath
  let logPath ← Reader.optionalString maxHolderPath
  let stateFile ← Reader.string maxHolderPath
  let stateIncarnation ← Reader.fixed 16
  let request : CreateSessionRequest :=
    { sessionId, shell, arguments, cwd, launchEnvironment, historyFile, ringBufferSize, logPath,
      stateFile, stateIncarnation }
  Reader.finish
  validateCreate request
  return request

def decodeCreateRequest : Bytes → Except HolderProtocolError CreateSessionRequest :=
  Reader.decode (readCreate false)

def decodeCreateRequestV2 : Bytes → Except HolderProtocolError CreateSessionRequest :=
  Reader.decode (readCreate true)

namespace HolderAttachMode

def encode : HolderAttachMode → Nat
  | readWrite => 0
  | readOnly => 1

def decode : Nat → Except HolderProtocolError HolderAttachMode
  | 0 => .ok readWrite
  | 1 => .ok readOnly
  | _ => .error .invalidField

end HolderAttachMode

def encodeAttachRequest (request : AttachRequest) : Bytes :=
  if request.sessionId = 0 ∨ request.replayBytes > maxHolderRingBuffer then []
  else putU32 request.sessionId ++ putU8 request.mode.encode ++ putU32 request.replayBytes

def readAttachRequest : Reader AttachRequest := do
  let sessionId ← Reader.u32
  let mode ← HolderAttachMode.decode (← Reader.u8)
  let replayBytes ← Reader.u32
  Reader.finish
  rejectIf (sessionId = 0 ∨ replayBytes > maxHolderRingBuffer) .invalidField
  return { sessionId, mode, replayBytes }

def decodeAttachRequest : Bytes → Except HolderProtocolError AttachRequest :=
  Reader.decode readAttachRequest

/-- The fields are values of their types. -/
structure HolderSessionEntry.Fits (entry : HolderSessionEntry) : Prop where
  sessionId : entry.sessionId < 2 ^ 32
  shellPid : entry.shellPid < 2 ^ 32
  exitCode : ∀ code, entry.exitCode = some code → -2 ^ 31 ≤ code ∧ code < 2 ^ 31
  createdAtMs : entry.createdAtMs < 2 ^ 64
  lastActiveAtMs : entry.lastActiveAtMs < 2 ^ 64
  ringBytes : entry.ringBytes < 2 ^ 32

section roundTrip
open Reader

theorem decode_encode_sessionState (state : HolderSessionState) :
    HolderSessionState.decode state.encode = .ok state := by
  cases state <;> rfl

theorem decode_encode_logState (state : HolderLogState) :
    HolderLogState.decode state.encode = .ok state := by
  cases state <;> rfl

theorem encode_sessionState_lt (state : HolderSessionState) : state.encode < 2 ^ 8 := by
  cases state <;> decide

theorem encode_logState_lt (state : HolderLogState) : state.encode < 2 ^ 8 := by
  cases state <;> decide

/-- An entry that is encoded is read back as it was. -/
theorem reads_entry {entry : HolderSessionEntry} (hfits : entry.Fits) {bytes : Bytes}
    (hencode : encodeEntry entry = .ok bytes) : decodeEntry.Reads bytes entry := by
  obtain ⟨_, hvalid, hencode⟩ := bind_eq_ok.mp hencode
  cases hencode
  have hexit : (if entry.exitCode.isSome then some (entry.exitCode.getD 0) else none) =
      entry.exitCode := by
    cases entry.exitCode <;> rfl
  have hcode : i32.Reads (putI32 (entry.exitCode.getD 0)) (entry.exitCode.getD 0) := by
    cases hsome : entry.exitCode with
    | none => exact reads_i32 (by decide) (by decide)
    | some code => exact reads_i32 (hfits.exitCode code hsome).1 (hfits.exitCode code hsome).2
  simp only [List.append_assoc]
  unfold decodeEntry
  refine (reads_u32 hfits.sessionId).bind ((reads_u32 hfits.shellPid).bind ?_)
  refine (reads_u8 (encode_sessionState_lt _)).bind ?_
  refine .convert (decode_encode_sessionState _) ((reads_bool _).bind (hcode.bind ?_))
  refine (reads_u64 hfits.createdAtMs).bind ((reads_u64 hfits.lastActiveAtMs).bind ?_)
  refine (reads_u32 hfits.ringBytes).bind ((reads_bool _).bind ?_)
  refine (reads_u8 (encode_logState_lt _)).bind ?_
  refine .convert (decode_encode_logState _) ((reads_bool _).andThen ?_)
  rw [hexit]
  exact .convert hvalid (.pure entry)

theorem decode_encodeInventoryRequest {request : InventoryRequest}
    (hvalid : validInventoryRequest request = true) (hcursor : request.cursor < 2 ^ 32) :
    decodeInventoryRequest (encodeInventoryRequest request) = .ok request := by
  have hlimit : request.limit < 2 ^ 16 := by
    have hmax : request.limit ≤ maxInventoryEntries := by
      simp only [validInventoryRequest, Bool.and_eq_true, decide_eq_true_eq] at hvalid
      exact hvalid.2
    exact hmax.trans_lt (by decide)
  rw [encodeInventoryRequest, if_pos hvalid, decodeInventoryRequest, readInventoryRequest,
    (reads_u32 hcursor).decode_bind, (reads_u16 hlimit).decode_last, decode_finish, hvalid]
  rfl

theorem nextCursor_of_decode {payload : Bytes} {response : InventoryResponse}
    (h : decodeInventoryResponse payload = .ok response) {cursor : Nat}
    (hcursor : response.nextCursor = some cursor) : cursor < 2 ^ 32 := by
  have hyields : readInventoryResponse.Yields fun response =>
      ∀ cursor, response.nextCursor = some cursor → cursor < 2 ^ 32 := by
    refine .known (yields_unsigned 4) fun cursor hlt => .bind fun _ => .bind fun count =>
      .bind fun _ => .bind fun entries => .bind fun _ => .pure ?_
    intro next hnext
    dsimp only at hnext
    split at hnext
    · cases hnext
    · cases hnext
      exact hlt
  exact hyields.decode h cursor hcursor

theorem decode_encodeInventoryResponse {response : InventoryResponse} {bytes : Bytes}
    (hfits : ∀ entry ∈ response.entries, entry.Fits)
    (hcursor : ∀ cursor, response.nextCursor = some cursor → cursor < 2 ^ 32)
    (hencode : encodeInventoryResponse response = .ok bytes) :
    decodeInventoryResponse bytes = .ok response := by
  obtain ⟨_, hcount, hencode⟩ := bind_eq_ok.mp hencode
  obtain ⟨_, hnext, hencode⟩ := bind_eq_ok.mp hencode
  obtain ⟨fields, hfields, hencode⟩ := bind_eq_ok.mp hencode
  cases hencode
  have hcount := rejectIf_eq_ok.mp hcount
  have hnext := rejectIf_eq_ok.mp hnext
  have hlength : response.entries.length < 2 ^ 16 := by
    have hmax : maxInventoryEntries < 2 ^ 16 := by decide
    omega
  have hentries : (repeated decodeEntry response.entries.length).Reads fields.flatten
      response.entries :=
    reads_repeated (fun entry hmem _ h => reads_entry (hfits entry hmem) h) hfields
  have hwire : response.nextCursor.getD noCursor < 2 ^ 32 := by
    cases hsome : response.nextCursor with
    | none => decide
    | some cursor => exact hcursor cursor hsome
  have hzero : response.nextCursor.getD noCursor ≠ 0 := by
    intro hzero
    cases hsome : response.nextCursor with
    | none => rw [hsome] at hzero; cases hzero
    | some cursor => rw [hsome] at hzero hnext; exact hnext (.inl (congrArg some hzero))
  have hback : (if response.nextCursor.getD noCursor = noCursor then none
      else some (response.nextCursor.getD noCursor)) = response.nextCursor := by
    cases hsome : response.nextCursor with
    | none => rfl
    | some cursor =>
      rw [hsome] at hnext
      exact if_neg fun heq => hnext (.inr (congrArg some heq))
  rw [List.append_assoc, decodeInventoryResponse, readInventoryResponse,
    (reads_u32 hwire).decode_bind, decode_reject hzero, (reads_u16 hlength).decode_bind,
    decode_reject hcount, hentries.decode_last, decode_finish, hback]
  rfl

end roundTrip

theorem ringBufferSize_pos_of_validateCreate {request : CreateSessionRequest}
    (h : validateCreate request = .ok ()) : 0 < request.ringBufferSize := by
  obtain ⟨_, -, h⟩ := bind_eq_ok.mp h
  obtain ⟨_, hfields, -⟩ := bind_eq_ok.mp h
  have := rejectIf_eq_ok.mp hfields
  omega

/-- Only a validated request comes out of the decoder. -/
theorem readCreate_yields (structured : Bool) :
    (readCreate structured).Yields fun request => validateCreate request = .ok () := by
  unfold readCreate
  refine .bind fun sessionId => .bind fun ringBufferSize => .bind fun shell =>
    .bind fun argumentCount => .bind fun _ => ?_
  refine .bind fun arguments => .bind fun cwd => .bind fun environment =>
    .bind fun historyFile => .bind fun logPath => .bind fun stateFile => .bind fun incarnation => ?_
  exact .bind fun _ => .checked _

end PersistShell
