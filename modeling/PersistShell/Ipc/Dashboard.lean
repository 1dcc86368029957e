import PersistShell.Dashboard.DiskTrend
import PersistShell.Dashboard.FieldLaws

/-! The requests and responses of the dashboard on the wire. An encoder that does not accept a
value leaves the payload empty; a decoder does not say what is wrong. -/

namespace PersistShell
open Dashboard Metric

structure DashboardSummaryRequest where
  cursor : UInt32
  limit : UInt16
  deriving DecidableEq, Repr

structure DashboardSummaryResponse where
  sampledAtMs : UInt64
  completeness : Completeness
  daemon : DaemonMetrics
  sessions : List SessionMetrics
  nextCursor : Option UInt32
  deriving DecidableEq, Repr

inductive TrendRange where
  | fifteenMinutes
  | hour
  | day
  deriving DecidableEq, Repr

structure DashboardTrendRequest where
  scope : TrendScope
  range : TrendRange
  maxPoints : UInt16
  deriving DecidableEq, Repr

def maxSummaryPage : Nat := 128
def maxTrendPoints : Nat := 240
def summaryRequestSize : Nat := 6
def trendRequestSize : Nat := 8

/-- `NO_VALUE`. -/
def noValue : UInt32 := 4294967295

section encode

def encodeBool (value : Bool) : Bytes := if value then [1] else [0]

def encodeCollectionStatus : CollectionStatus → Bytes
  | .complete => [0]
  | .partial_ => [1]
  | .unavailable => [2]

def encodeSummaryRequest (request : DashboardSummaryRequest) : Bytes :=
  if request.cursor = noValue ∨ request.limit = 0 ∨ request.limit.toNat > maxSummaryPage then []
  else Metric.putU32 request.cursor ++ Metric.putU16 request.limit.toNat

def encodeTrendScope : TrendScope → Bytes
  | .daemon => [0] ++ Metric.putU32 0
  | .session sessionId => [1] ++ Metric.putU32 sessionId

def encodeTrendRange : TrendRange → Bytes
  | .fifteenMinutes => [0]
  | .hour => [1]
  | .day => [2]

def encodeTrendRequest (request : DashboardTrendRequest) : Bytes :=
  if request.maxPoints = 0 ∨ request.maxPoints.toNat > maxTrendPoints then []
  else if request.scope = .session 0 then []
  else encodeTrendScope request.scope ++ encodeTrendRange request.range ++
    Metric.putU16 request.maxPoints.toNat

def encodeDaemon (daemon : DaemonMetrics) : Bytes :=
  Metric.putU32 daemon.pid ++ encodeBool daemon.ratesAvailable ++ Metric.putU32 daemon.cpuMilliPercent ++
    Metric.putU64 daemon.rssKib ++ Metric.putU64 daemon.readBytesPerSec ++ Metric.putU64 daemon.writeBytesPerSec ++
    Metric.putU32 daemon.sessionCount ++ Metric.putU32 daemon.runtimeCount ++
    Metric.putU32 daemon.activeWriterCount ++ Metric.putU32 daemon.readonlyClientCount

/-- `encode_session`. -/
def encodeSessionMetrics (session : SessionMetrics) : Bytes :=
  Metric.putU32 session.sessionId ++ Metric.putU32 session.processCount ++ encodeBool session.ratesAvailable ++
    Metric.putU32 session.cpuMilliPercent ++ Metric.putU64 session.rssKib ++ Metric.putU64 session.readBytesPerSec ++
    Metric.putU64 session.writeBytesPerSec ++ Metric.putU32 (session.foregroundPid.getD 0) ++
    encodeBool session.writerActive ++ encodeCollectionStatus session.collectionStatus

def encodeSummaryResponse (response : DashboardSummaryResponse) : Bytes :=
  if response.sessions.length > maxSummaryPage ∨ response.nextCursor = some noValue ∨
      response.sessions.any (fun session => session.sessionId = 0 ∨
        session.foregroundPid = some 0) then []
  else Metric.putU64 response.sampledAtMs ++ encodeCompleteness response.completeness ++
    Metric.putU32 (response.nextCursor.getD noValue) ++ encodeDaemon response.daemon ++
    Metric.putU16 response.sessions.length ++ response.sessions.flatMap encodeSessionMetrics

def encodeTrendResponse (response : DashboardTrendResponse) : Bytes :=
  if response.points.length > maxTrendPoints then []
  else Metric.putU64 response.sampledAtMs ++ encodeCompleteness response.completeness ++
    Metric.putU16 response.points.length ++ response.points.flatMap encodePoint

end encode

namespace DashboardReader
open Metric.FieldReader

/-- `decode_bool`, of the next byte. -/
def bool : FieldReader Bool := do
  match ← unsigned 1 with
  | 0 => return false
  | 1 => return true
  | _ => throw .invalid

def collectionStatus : FieldReader CollectionStatus := do
  match ← unsigned 1 with
  | 0 => return .complete
  | 1 => return .partial_
  | 2 => return .unavailable
  | _ => throw .invalid

def u16 : FieldReader UInt16 := do return UInt16.ofNat (← unsigned 2)

def scope : FieldReader TrendScope := do
  let kind ← unsigned 1
  let sessionId ← u32
  if kind = 0 ∧ sessionId = 0 then return .daemon
  else if kind = 1 ∧ sessionId > 0 then return .session sessionId
  else throw .invalid

def range : FieldReader TrendRange := do
  match ← unsigned 1 with
  | 0 => return .fifteenMinutes
  | 1 => return .hour
  | 2 => return .day
  | _ => throw .invalid

/-- `decode_daemon`. -/
def daemon : FieldReader DaemonMetrics := do
  return {
    pid := ← u32, ratesAvailable := ← bool, cpuMilliPercent := ← u32, rssKib := ← u64
    readBytesPerSec := ← u64, writeBytesPerSec := ← u64, sessionCount := ← u32
    runtimeCount := ← u32, activeWriterCount := ← u32, readonlyClientCount := ← u32 }

/-- A pid, of which 0 is none. -/
def foregroundPid : FieldReader (Option UInt32) := do
  let pid ← u32
  return if pid = 0 then none else some pid

/-- `decode_session`. -/
def session : FieldReader SessionMetrics := do
  let sessionId ← u32
  rejectIf (sessionId = 0) FormatError.invalid
  return {
    sessionId, processCount := ← u32, ratesAvailable := ← bool, cpuMilliPercent := ← u32
    rssKib := ← u64, readBytesPerSec := ← u64, writeBytesPerSec := ← u64
    foregroundPid := ← foregroundPid, writerActive := ← bool
    collectionStatus := ← collectionStatus }

/-- A cursor, of which the largest is none. -/
def nextCursor : FieldReader (Option UInt32) := do
  let cursor ← u32
  return if cursor = noValue then none else some cursor

def repeated {α : Type} (reader : FieldReader α) : Nat → FieldReader (List α)
  | 0 => return []
  | count + 1 => do
    let value ← reader
    return value :: (← repeated reader count)

def summaryRequest : FieldReader DashboardSummaryRequest := do
  return { cursor := ← u32, limit := ← u16 }

def trendRequest : FieldReader DashboardTrendRequest := do
  return { scope := ← scope, range := ← range, maxPoints := ← u16 }

def summaryResponse : FieldReader DashboardSummaryResponse := do
  let sampledAtMs ← u64
  let completeness ← completeness
  let nextCursor ← nextCursor
  let daemon ← daemon
  let count ← unsigned 2
  rejectIf (count > maxSummaryPage) FormatError.invalid
  return { sampledAtMs, completeness, daemon, sessions := ← repeated session count, nextCursor }

def trendResponse : FieldReader DashboardTrendResponse := do
  let sampledAtMs ← u64
  let completeness ← completeness
  let count ← unsigned 2
  rejectIf (count > maxTrendPoints) FormatError.invalid
  return { sampledAtMs, completeness, points := ← repeated point count }

end DashboardReader

section decode

/-- `finish().then_some(…)`: what is read, when that is the whole payload. -/
def decodeWhole {α : Type} (reader : FieldReader α) (payload : Bytes) : Option α :=
  match reader payload with
  | .ok (value, []) => some value
  | _ => none

def decodeSummaryRequest (payload : Bytes) : Option DashboardSummaryRequest :=
  if payload.length ≠ summaryRequestSize then none
  else (decodeWhole DashboardReader.summaryRequest payload).filter fun request =>
    request.cursor ≠ noValue ∧ request.limit > 0 ∧ request.limit.toNat ≤ maxSummaryPage

def decodeTrendRequest (payload : Bytes) : Option DashboardTrendRequest :=
  if payload.length ≠ trendRequestSize then none
  else (decodeWhole DashboardReader.trendRequest payload).filter fun request =>
    request.maxPoints > 0 ∧ request.maxPoints.toNat ≤ maxTrendPoints

def decodeSummaryResponse : Bytes → Option DashboardSummaryResponse :=
  decodeWhole DashboardReader.summaryResponse

def decodeTrendResponse : Bytes → Option DashboardTrendResponse :=
  decodeWhole DashboardReader.trendResponse

end decode

end PersistShell
