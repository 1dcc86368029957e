import PersistShell.Cli.PolicyVariables
import PersistShell.Daemon.SessionList
import PersistShell.Dashboard.Model
import PersistShell.Program.Chains
import PersistShell.Program.Summary
import Mathlib.Algebra.BigOperators.Group.Finset.Basic
import Mathlib.Data.List.AList

/-! The processes of the sessions: what `/proc` has of each process is read, and its counters are
added to the session whose root is found on the way up through the parents. -/

namespace PersistShell
namespace Dashboard

/-- The files of `/proc` at the time of a collection. -/
structure ProcSource where
  /-- The pids, in some order, and whether there are more than the limit. -/
  listPids : Nat → Option (List UInt32 × Bool)
  readStat : UInt32 → Option String
  readIo : UInt32 → Option String

structure SessionRoot where
  sessionId : UInt32
  rootPid : UInt32
  foregroundPid : Option UInt32
  writerActive : Bool
  deriving DecidableEq, Repr

structure ProcSnapshot where
  completeness : Completeness
  daemon : Option RawCounters
  sessions : List RawSessionSample
  truncated : Bool
  deriving DecidableEq, Repr

structure ParsedProcess where
  pid : UInt32
  ppid : UInt32
  counters : RawCounters
  deriving DecidableEq, Repr

structure ProcessRecord where
  process : ParsedProcess
  ioComplete : Bool
  deriving DecidableEq, Repr

section parse

/-- `split_once`. -/
def splitOnceAt (separator : List Char) : List Char → Option (List Char × List Char)
  | [] => none
  | c :: cs =>
    if separator.isPrefixOf (c :: cs) then some ([], (c :: cs).drop separator.length)
    else (splitOnceAt separator cs).map fun p => (c :: p.1, p.2)

/-- `rsplit_once`. -/
def rsplitOnceAt (separator text : List Char) : Option (List Char × List Char) :=
  (splitOnceAt separator.reverse text.reverse).map fun p => (p.2.reverse, p.1.reverse)

/-- `split_whitespace`. -/
def splitWhitespace (text : List Char) : List (List Char) :=
  (text.splitOnP isWhitespace).filter (· ≠ [])

/-- `lines`. -/
def lines (text : List Char) : List (List Char) :=
  let parts := text.splitOn '\n'
  let whole := if parts.getLast? = some [] then parts.dropLast else parts
  whole.map fun line => if line.getLast? = some '\r' then line.dropLast else line

/-- `parse::<u64>`, which is that of a `usize`. -/
def parseU64 (text : List Char) : Option UInt64 :=
  (parseUsize (String.ofList text)).map UInt64.ofNat

/-- `parse::<u32>`. -/
def parsePid (text : List Char) : Option UInt32 :=
  ((parseUsize (String.ofList text)).filter (· < 2 ^ 32)).map UInt32.ofNat

def parseStat (value : String) (pageSize : UInt64) : Option ParsedProcess := do
  if pageSize = 0 then none
  let (pid, fields) ← splitOnceAt [' ', '('] value.toList
  let (_, fields) ← rsplitOnceAt [')', ' '] fields
  let values := splitWhitespace fields
  if values.length < 22 then none
  let field := fun i => values.getD i []
  let rssPages ← parseU64 (field 21)
  let rssKib := UInt64.ofNat (min (rssPages.toNat * pageSize.toNat / 1024) (2 ^ 64 - 1))
  return {
    pid := ← parsePid pid
    ppid := ← parsePid (field 1)
    counters := {
      userTicks := ← parseU64 (field 11)
      systemTicks := ← parseU64 (field 12)
      rssKib
      processCount := 1 } }

/-- The number of the first line with the name. -/
def ioField (value name : String) : Option UInt64 :=
  ((lines value.toList).findSome? (name.toList.isPrefixOf? ·)).bind fun number =>
    parseU64 (trim (String.ofList number)).toList

def parseIo (value : String) : Option (UInt64 × UInt64) := do
  return (← ioField value "read_bytes:", ← ioField value "write_bytes:")

-- the name of a process may have brackets and blanks in it
example : parseStat "10 (s (h) a) S 1 10 10 0 -1 0 0 0 0 0 5 3 0 0 20 0 1 0 100 4096 3" 4096 =
    some ⟨10, 1, { userTicks := 5, systemTicks := 3, rssKib := 12, processCount := 1 }⟩ := by
  decide +kernel

end parse

/-- `HashMap<u32, ProcessRecord>`. -/
abbrev Records := AList fun _ : UInt32 => ProcessRecord

/-- `HashMap<u32, usize>`, from the pid of a root to its place. -/
abbrev Owners := AList fun _ : UInt32 => Nat

section records

variable (source : ProcSource) (pageSize : UInt64)

/-- What can be read of a process; its counters of the input and output may be missing. -/
def readProcess (pid : UInt32) : Option ProcessRecord := do
  let process ← (parseStat (← source.readStat pid) pageSize).filter (·.pid = pid)
  return match (source.readIo pid).bind parseIo with
    | some (readBytes, writeBytes) =>
      { process := { process with counters := { process.counters with readBytes, writeBytes } }
        ioComplete := true }
    | none => { process, ioComplete := false }

/-- The records, and `stat_incomplete`. -/
def readRecords (pids : List UInt32) : Records × Bool :=
  pids.foldl (fun (records, statIncomplete) pid =>
    match readProcess source pageSize pid with
    | none => (records, true)
    | some record => (records.insert pid record, statIncomplete)) (∅, false)

end records

section owners

/-- `root_owners` and `duplicate_roots`. -/
def rootOwners (roots : List SessionRoot) : Owners × List Nat :=
  roots.zipIdx.foldl (fun (owners, duplicates) (root, index) =>
    if root.rootPid = 0 ∨ root.rootPid ∈ owners then (owners, index :: duplicates)
    else (owners.insert root.rootPid index, duplicates)) (∅, [])

/-- The loop ends, as there are only so many records that it has not been at. -/
def findOwner (records : Records) (owners : Owners) (visited : List UInt32)
    (current : UInt32) : Option Nat :=
  if _hseen : current = 0 ∨ current ∈ visited then none
  else
    match owners.lookup current with
    | some owner => some owner
    | none =>
      match _hrecord : records.lookup current with
      | none => none
      | some record =>
        if record.process.ppid = current then none
        else findOwner records owners (current :: visited) record.process.ppid
termination_by Chains.unseen records.keys visited
decreasing_by
  have hmem : current ∈ records.keys := AList.lookup_isSome.mp (by rw [_hrecord]; rfl)
  exact Chains.unseen_lt hmem fun hold => _hseen (Or.inr hold)

end owners

section collect

/-- The order in which the values of a `HashMap` come. -/
structure HashOrder where
  run : List ProcessRecord → List ProcessRecord
  perm : ∀ records, (run records).Perm records

def addCounters (total value : RawCounters) : RawCounters where
  userTicks := saturatingAdd64 total.userTicks value.userTicks
  systemTicks := saturatingAdd64 total.systemTicks value.systemTicks
  rssKib := saturatingAdd64 total.rssKib value.rssKib
  readBytes := saturatingAdd64 total.readBytes value.readBytes
  writeBytes := saturatingAdd64 total.writeBytes value.writeBytes
  processCount := UInt32.ofNat (min (total.processCount.toNat + 1) (2 ^ 32 - 1))

/-- A round of the loop over the records, on `aggregates` and `statuses`. -/
def attributeRecord (records : Records) (owners : Owners)
    (state : List RawCounters × List CollectionStatus) (record : ProcessRecord) :
    List RawCounters × List CollectionStatus :=
  match findOwner records owners [] record.process.pid with
  | none => state
  | some owner =>
    if state.2[owner]? = some .unavailable then state
    else
      (state.1.modify owner (addCounters · record.process.counters),
        if record.ioComplete then state.2 else state.2.set owner .partial_)

/-- The status of a session in the end. -/
def settle (records : Records) (globalPartial : Bool) (root : SessionRoot)
    (status : CollectionStatus) : CollectionStatus :=
  if (records.lookup root.rootPid).isNone then .unavailable
  else if globalPartial ∧ status = .complete then .partial_ else status

def rootSample (root : SessionRoot) (counters : RawCounters) (collectionStatus : CollectionStatus) :
    RawSessionSample where
  sessionId := root.sessionId
  counters
  foregroundPid := root.foregroundPid
  writerActive := root.writerActive
  collectionStatus

/-- The end of `collect_procfs_until`, from `daemon_record` on. -/
def procSnapshot (daemonRecord : Option ProcessRecord) (globalPartial truncated : Bool)
    (sessions : List RawSessionSample) : ProcSnapshot where
  completeness :=
    if daemonRecord.isNone ∧ sessions.all (·.collectionStatus = .unavailable) then .unavailable
    else if globalPartial ∨ !daemonRecord.any (·.ioComplete) ∨
      sessions.any (·.collectionStatus ≠ .complete) then .partial_
    else .complete
  daemon := daemonRecord.map (·.process.counters)
  sessions
  truncated

def unavailableSnapshot (roots : List SessionRoot) : ProcSnapshot where
  completeness := .unavailable
  daemon := none
  sessions := roots.map fun root => rootSample root {} .unavailable
  truncated := false

/-- `collect_procfs`: no deadline, so that it does not time out. -/
def collectProcfs (order : HashOrder) (source : ProcSource) (daemonPid : UInt32)
    (roots : List SessionRoot) (pageSize : UInt64) (maxEntries : Nat) : ProcSnapshot :=
  match source.listPids maxEntries with
  | none => unavailableSnapshot roots
  | some (pids, truncated) =>
    let (records, statIncomplete) := readRecords source pageSize pids
    let (owners, duplicateRoots) := rootOwners roots
    let aggregates := List.replicate roots.length {}
    let statuses := duplicateRoots.foldl (·.set · .unavailable)
      (List.replicate roots.length .complete)
    let (aggregates, statuses) := (order.run (records.entries.map Sigma.snd)).foldl
      (attributeRecord records owners) (aggregates, statuses)
    let globalPartial := statIncomplete || truncated
    let statuses := List.zipWith (settle records globalPartial) roots statuses
    let sessions := roots.zipIdx.map fun (root, index) =>
      rootSample root (aggregates.getD index {}) (statuses.getD index .unavailable)
    procSnapshot (records.lookup daemonPid) globalPartial truncated sessions

end collect

end Dashboard
end PersistShell
