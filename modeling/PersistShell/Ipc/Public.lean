import PersistShell.Ipc.Wire

/-! Frames of the public protocol, which clients and the daemon speak, and the payloads that an
attached client sends and is sent. -/

namespace PersistShell

def maxControlFrame : Nat := 1024 * 1024
def maxIoFrame : Nat := 64 * 1024
def headerSize : Nat := 12

inductive MessageType where
  | hello | helloAck | error | newSession | newSessionResp | listSessions | listSessionsResp
  | attach | attachResp | detach | rename | renameResp | detachSignal | detachSignalResp
  | signal | signalResp | noteSet | noteSetResp | noteGet | noteGetResp | tagAdd | tagAddResp
  | tagRemove | tagRemoveResp | tagList | tagListResp | listSessionsByTag | pinSet | pinSetResp
  | attachReadOnly | writeRequest | writeGranted | writeRevoked | lockSet | lockSetResp
  | processTree | processTreeResp | processStats | processStatsResp | sessionSnapshot
  | sessionSnapshotResp | metrics | metricsResp | dashboardSummary | dashboardSummaryResp
  | dashboardTrend | dashboardTrendResp | close | closeResp | kill | killResp | ping | pong
  | stdin | stdout | resize | sessionExited
  deriving DecidableEq, Repr

namespace MessageType

def toU16 : MessageType → Nat
  | hello => 0x0001
  | helloAck => 0x0002
  | error => 0x0003
  | newSession => 0x0010
  | newSessionResp => 0x0011
  | listSessions => 0x0012
  | listSessionsResp => 0x0013
  | attach => 0x0014
  | attachResp => 0x0015
  | detach => 0x0016
  | rename => 0x0017
  | renameResp => 0x0018
  | detachSignal => 0x0019
  | detachSignalResp => 0x001a
  | signal => 0x001b
  | signalResp => 0x001c
  | noteSet => 0x001d
  | noteSetResp => 0x001e
  | noteGet => 0x001f
  | noteGetResp => 0x0020
  | tagAdd => 0x0021
  | tagAddResp => 0x0022
  | tagRemove => 0x0023
  | tagRemoveResp => 0x0024
  | tagList => 0x0025
  | tagListResp => 0x0026
  | listSessionsByTag => 0x0027
  | pinSet => 0x0028
  | pinSetResp => 0x0029
  | attachReadOnly => 0x002a
  | writeRequest => 0x002b
  | writeGranted => 0x002c
  | writeRevoked => 0x002d
  | lockSet => 0x002e
  | lockSetResp => 0x002f
  | processTree => 0x0030
  | processTreeResp => 0x0031
  | processStats => 0x0032
  | processStatsResp => 0x0033
  | sessionSnapshot => 0x0034
  | sessionSnapshotResp => 0x0035
  | metrics => 0x0036
  | metricsResp => 0x0037
  | dashboardSummary => 0x0038
  | dashboardSummaryResp => 0x0039
  | dashboardTrend => 0x003a
  | dashboardTrendResp => 0x003b
  | close => 0x0302
  | closeResp => 0x0304
  | kill => 0x0303
  | killResp => 0x0305
  | ping => 0x0300
  | pong => 0x0301
  | stdin => 0x0100
  | stdout => 0x0101
  | resize => 0x0102
  | sessionExited => 0x0103

def all : List MessageType :=
  [hello, helloAck, error, newSession, newSessionResp, listSessions, listSessionsResp, attach,
    attachResp, detach, rename, renameResp, detachSignal, detachSignalResp, signal, signalResp,
    noteSet, noteSetResp, noteGet, noteGetResp, tagAdd, tagAddResp, tagRemove, tagRemoveResp,
    tagList, tagListResp, listSessionsByTag, pinSet, pinSetResp, attachReadOnly, writeRequest,
    writeGranted, writeRevoked, lockSet, lockSetResp, processTree, processTreeResp, processStats,
    processStatsResp, sessionSnapshot, sessionSnapshotResp, metrics, metricsResp,
    dashboardSummary, dashboardSummaryResp, dashboardTrend, dashboardTrendResp, close, closeResp,
    kill, killResp, ping, pong, stdin, stdout, resize, sessionExited]

def fromU16 (value : Nat) : Option MessageType := all.find? fun kind => kind.toU16 = value

theorem fromU16_toU16 (kind : MessageType) : fromU16 kind.toU16 = some kind := by
  cases kind <;> rfl

def isIoMessage : MessageType → Bool
  | stdin | stdout | resize => true
  | _ => false

def limit (kind : MessageType) : Nat := if kind.isIoMessage then maxIoFrame else maxControlFrame

end MessageType

structure Frame where
  msgType : MessageType
  flags : Nat := 0
  requestId : Nat := 0
  payload : Bytes := []
  deriving DecidableEq, Repr

/-- `write_frame`. -/
def Frame.bytes (frame : Frame) : Bytes :=
  putU32 frame.payload.length ++ putU16 frame.msgType.toU16 ++ putU16 frame.flags ++
    putU32 frame.requestId ++ frame.payload

theorem Frame.length_bytes (frame : Frame) :
    frame.bytes.length = headerSize + frame.payload.length := by
  simp only [Frame.bytes, List.length_append, putU32, putU16, length_toBeBytes, headerSize]

theorem Frame.bytes_ne_nil (frame : Frame) : frame.bytes ≠ [] := by
  apply List.ne_nil_of_length_pos
  rw [frame.length_bytes, headerSize]
  omega

/-- `format!("{value:04X}")`. -/
def upperHex4 (value : Nat) : String :=
  String.ofList ((hexString 4 value).map Char.toUpper)

/-- The bytes of a stream that are not yet part of a whole frame. -/
structure FrameAccumulator where
  buf : Bytes := []
  deriving DecidableEq, Repr

namespace FrameAccumulator

def feed (a : FrameAccumulator) (data : Bytes) : FrameAccumulator := ⟨a.buf ++ data⟩

def payloadLen (a : FrameAccumulator) : Nat := fromBeBytes (a.buf.take 4)

def rawType (a : FrameAccumulator) : Nat := fromBeBytes ((a.buf.drop 4).take 2)

def flags (a : FrameAccumulator) : Nat := fromBeBytes ((a.buf.drop 6).take 2)

def requestId (a : FrameAccumulator) : Nat := fromBeBytes ((a.buf.drop 8).take 4)

def total (a : FrameAccumulator) : Nat := headerSize + a.payloadLen

/-- The frame at the front, once all of it is there. -/
def front (a : FrameAccumulator) : Except PersistError Frame := do
  let some msgType := MessageType.fromU16 a.rawType
    | throw (.invalidArgument ("unknown message type: 0x" ++ upperHex4 a.rawType))
  rejectIf (a.payloadLen > msgType.limit)
    (PersistError.invalidArgument ("frame payload too large: " ++ toString a.payloadLen ++ " > " ++
      toString msgType.limit))
  let payload := (a.buf.drop headerSize).take a.payloadLen
  return { msgType, flags := a.flags, requestId := a.requestId, payload }

def tryRead (a : FrameAccumulator) : Except PersistError (Option (Frame × FrameAccumulator)) := do
  if a.buf.length < headerSize then return none
  if a.buf.length < a.total then return none
  let frame ← a.front
  return some (frame, ⟨a.buf.drop a.total⟩)

end FrameAccumulator

structure OpRespPayload where
  ok : Bool
  errorMsg : String

/-- The message is cut at the longest length the field can say. -/
def encodeOpResp (p : OpRespPayload) : Bytes :=
  let msgBytes := (utf8 p.errorMsg).take 65535
  putBool p.ok ++ putU16 msgBytes.length ++ msgBytes

structure ResizePayload where
  rows : Nat
  cols : Nat

def decodeResize (data : Bytes) : Option ResizePayload :=
  if data.length < 4 then none
  else some { rows := fromBeBytes (data.take 2), cols := fromBeBytes ((data.drop 2).take 2) }

structure SignalPayload where
  sessionId : Nat
  signal : Nat

def decodeSignal (data : Bytes) : Option SignalPayload :=
  if data.length < 8 then none
  else some
    { sessionId := fromBeBytes (data.take 4), signal := fromBeBytes ((data.drop 4).take 4) }

structure SessionExitedPayload where
  sessionId : Nat
  exitCode : Int

def encodeSessionExited (p : SessionExitedPayload) : Bytes :=
  putU32 p.sessionId ++ putI32 p.exitCode

structure WriterControlPayload where
  sessionId : Nat

def encodeWriterControl (p : WriterControlPayload) : Bytes := putU32 p.sessionId

end PersistShell
