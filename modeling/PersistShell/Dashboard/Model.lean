import PersistShell.Dashboard.Format

/-! The samples of the dashboard: the counters as they are read, and the rates that follow from
two samples. -/

namespace PersistShell

inductive CollectionStatus where
  | complete
  | partial_
  | unavailable
  deriving DecidableEq, Repr

structure DaemonMetrics where
  pid : UInt32
  ratesAvailable : Bool
  cpuMilliPercent : UInt32
  rssKib : UInt64
  readBytesPerSec : UInt64
  writeBytesPerSec : UInt64
  sessionCount : UInt32
  runtimeCount : UInt32
  activeWriterCount : UInt32
  readonlyClientCount : UInt32
  deriving DecidableEq, Repr

structure SessionMetrics where
  sessionId : UInt32
  processCount : UInt32
  ratesAvailable : Bool
  cpuMilliPercent : UInt32
  rssKib : UInt64
  readBytesPerSec : UInt64
  writeBytesPerSec : UInt64
  foregroundPid : Option UInt32
  writerActive : Bool
  collectionStatus : CollectionStatus
  deriving DecidableEq, Repr

structure RawCounters where
  userTicks : UInt64 := 0
  systemTicks : UInt64 := 0
  rssKib : UInt64 := 0
  readBytes : UInt64 := 0
  writeBytes : UInt64 := 0
  processCount : UInt32 := 0
  deriving DecidableEq, Repr

structure RawDaemonSample where
  pid : UInt32
  counters : RawCounters
  sessionCount : UInt32
  runtimeCount : UInt32
  activeWriterCount : UInt32
  readonlyClientCount : UInt32
  deriving DecidableEq, Repr

structure RawSessionSample where
  sessionId : UInt32
  counters : RawCounters
  foregroundPid : Option UInt32
  writerActive : Bool
  collectionStatus : CollectionStatus
  deriving DecidableEq, Repr

structure RawSample where
  sampledAtMs : UInt64
  monotonicMs : UInt64
  clockTicksPerSecond : UInt64
  completeness : Completeness
  daemon : RawDaemonSample
  sessions : List RawSessionSample
  deriving DecidableEq, Repr

structure DerivedDaemon where
  metrics : DaemonMetrics
  processCount : UInt32
  readBytesDelta : UInt64
  writeBytesDelta : UInt64
  deriving DecidableEq, Repr

structure DerivedSession where
  metrics : SessionMetrics
  readBytesDelta : UInt64
  writeBytesDelta : UInt64
  deriving DecidableEq, Repr

structure DerivedSample where
  sampledAtMs : UInt64
  monotonicMs : UInt64
  completeness : Completeness
  daemon : DerivedDaemon
  sessions : List DerivedSession
  deriving DecidableEq, Repr

structure Rates where
  available : Bool := false
  cpuMilliPercent : UInt32 := 0
  readBytesPerSec : UInt64 := 0
  writeBytesPerSec : UInt64 := 0
  readBytesDelta : UInt64 := 0
  writeBytesDelta : UInt64 := 0
  deriving DecidableEq, Repr

namespace Dashboard

/-- `saturating_add`. -/
def saturatingAdd64 (a b : UInt64) : UInt64 := UInt64.ofNat (min (a.toNat + b.toNat) (2 ^ 64 - 1))

/-- `checked_sub`. -/
def checkedSub (a b : UInt64) : Option UInt64 := if b ≤ a then some (a - b) else none

/-- `+` and `*` of a `u128`, as long as it is compiled without checks. -/
def wrap128 (n : Nat) : Nat := n % 2 ^ 128

/-- `saturating_mul` of a `u128`. -/
def saturatingMul128 (a b : Nat) : Nat := min (a * b) (2 ^ 128 - 1)

def bytesPerSecond (bytes elapsedMs : UInt64) : UInt64 :=
  UInt64.ofNat (min (saturatingMul128 bytes.toNat 1000 / elapsedMs.toNat) (2 ^ 64 - 1))

def calculateRates (previous current : RawCounters) (elapsedMs ticksPerSecond : UInt64) :
    Option Rates :=
  if elapsedMs = 0 ∨ ticksPerSecond = 0 then none
  else do
    let userDelta ← checkedSub current.userTicks previous.userTicks
    let systemDelta ← checkedSub current.systemTicks previous.systemTicks
    let readDelta ← checkedSub current.readBytes previous.readBytes
    let writeDelta ← checkedSub current.writeBytes previous.writeBytes
    let tickDelta := wrap128 (userDelta.toNat + systemDelta.toNat)
    let cpuDenominator := wrap128 (ticksPerSecond.toNat * elapsedMs.toNat)
    let cpu := saturatingMul128 (saturatingMul128 tickDelta 100000) 1000 / cpuDenominator
    return {
      available := true
      cpuMilliPercent := UInt32.ofNat (min cpu (2 ^ 32 - 1))
      readBytesPerSec := bytesPerSecond readDelta elapsedMs
      writeBytesPerSec := bytesPerSecond writeDelta elapsedMs
      readBytesDelta := readDelta
      writeBytesDelta := writeDelta }

def derivedDaemon (raw : RawDaemonSample) (rates : Rates) : DerivedDaemon where
  metrics := {
    pid := raw.pid
    ratesAvailable := rates.available
    cpuMilliPercent := rates.cpuMilliPercent
    rssKib := raw.counters.rssKib
    readBytesPerSec := rates.readBytesPerSec
    writeBytesPerSec := rates.writeBytesPerSec
    sessionCount := raw.sessionCount
    runtimeCount := raw.runtimeCount
    activeWriterCount := raw.activeWriterCount
    readonlyClientCount := raw.readonlyClientCount }
  processCount := raw.counters.processCount
  readBytesDelta := rates.readBytesDelta
  writeBytesDelta := rates.writeBytesDelta

def derivedSession (raw : RawSessionSample) (rates : Rates) : DerivedSession where
  metrics := {
    sessionId := raw.sessionId
    processCount := raw.counters.processCount
    ratesAvailable := rates.available
    cpuMilliPercent := rates.cpuMilliPercent
    rssKib := raw.counters.rssKib
    readBytesPerSec := rates.readBytesPerSec
    writeBytesPerSec := rates.writeBytesPerSec
    foregroundPid := raw.foregroundPid
    writerActive := raw.writerActive
    collectionStatus := raw.collectionStatus }
  readBytesDelta := rates.readBytesDelta
  writeBytesDelta := rates.writeBytesDelta

/-- The counters that `previous_sessions` has of an id: the last ones that were put in. -/
def previousCounters (sessions : List RawSessionSample) (sessionId : UInt32) :
    Option RawCounters :=
  ((sessions.filter (·.sessionId = sessionId)).getLast?).map (·.counters)

/-- `elapsed_ms`. -/
def elapsedSince (previous : Option RawSample) (current : RawSample) : Option UInt64 :=
  (previous.bind fun sample => checkedSub current.monotonicMs sample.monotonicMs).filter (0 < ·)

/-- The rates of one series, which are not available where `calculate_rates` has none. -/
def ratesSince (prior : Option RawCounters) (now : RawCounters) (elapsedMs : Option UInt64)
    (ticksPerSecond : UInt64) : Rates :=
  (do calculateRates (← prior) now (← elapsedMs) ticksPerSecond).getD {}

def deriveSample (previous : Option RawSample) (current : RawSample) : DerivedSample :=
  let elapsedMs := elapsedSince previous current
  let previousSessions := (previous.map (·.sessions)).getD []
  { sampledAtMs := current.sampledAtMs
    monotonicMs := current.monotonicMs
    completeness := current.completeness
    daemon := derivedDaemon current.daemon (ratesSince (previous.map (·.daemon.counters))
      current.daemon.counters elapsedMs current.clockTicksPerSecond)
    sessions := current.sessions.map fun session =>
      derivedSession session (ratesSince (previousCounters previousSessions session.sessionId)
        session.counters elapsedMs current.clockTicksPerSecond) }

end Dashboard

end PersistShell
