import PersistShell.Dashboard.Format
import PersistShell.Program.NatMap
import PersistShell.Program.Outcome
import PersistShell.Program.Run

/-! The storage of the metrics: a directory of segments that records are appended to, read back
and evicted from. Any write may fail, or the process die in it, after some of the bytes. The
files are those that the storage creates, so that the checks of `storage_security` pass. -/

namespace PersistShell
open Program

namespace Metric

structure StorageLimits where
  maxSegments : Nat := 24
  maxTotalBytes : Nat := 128 * 1024 * 1024
  maxSegmentBytes : Nat := 128 * 1024 * 1024
  maxRecordBytes : Nat := 1024 * 1024
  maxDirectoryEntries : Nat := 32
  deriving DecidableEq, Repr

inductive IoError where
  | invalidData (message : String)
  | unexpectedEof
  | notFound
  | alreadyExists
  | writeFailed
  deriving DecidableEq, Repr

def validateLimits (limits : StorageLimits) : Except IoError Unit :=
  rejectIf (limits.maxSegments = 0 ∨ limits.maxTotalBytes < segmentHeaderSize ∨
    limits.maxSegmentBytes < segmentHeaderSize ∨ limits.maxRecordBytes = 0 ∨
    limits.maxDirectoryEntries < limits.maxSegments)
    (.invalidData "invalid metric storage limits")

/-- The start of the hour of a record. -/
def hourStart (timestampMs : UInt64) : UInt64 := timestampMs / 3600000 * 3600000

/-- `segment-{hour:020}-{sequence:010}.pmt` as a number: the paths sort as the numbers do. -/
def segmentName (hourStartMs : UInt64) (sequence : Nat) : Nat :=
  hourStartMs.toNat * 2 ^ 32 + sequence

/-- `parse_segment_name`. -/
def parseSegmentName (path : Nat) : Nat × Nat := (path / 2 ^ 32, path % 2 ^ 32)

section reader

variable (limits : StorageLimits) (hourStartMs : UInt64)

/-- One record of a segment, behind its length and its checksum. -/
def decodeRecord (framed : Bytes) : Except IoError MinuteRecord := do
  let payload := framed.drop recordHeaderSize
  let expectedCrc := UInt32.ofNat (fromBeBytes ((framed.drop 4).take 4))
  rejectIf (crc32 payload ≠ expectedCrc) (IoError.invalidData "metric record checksum mismatch")
  let record ← (decodeMinute payload).mapError fun _ => .invalidData "invalid metric record payload"
  rejectIf (hourStart record.timestampMs ≠ hourStartMs)
    (IoError.invalidData "metric record is in the wrong hour segment")
  return record

/-- How long a record is, by its header. -/
def recordLength (header : Bytes) : Except IoError Nat :=
  let payloadLen := fromBeBytes (header.take 4)
  if payloadLen > limits.maxRecordBytes then
    .error (.invalidData "metric record exceeds size limit")
  else .ok (recordHeaderSize + payloadLen)

theorem recordLength_eq_ok {header : Bytes} {n : Nat} :
    recordLength limits header = .ok n ↔
      fromBeBytes (header.take 4) ≤ limits.maxRecordBytes ∧
        n = recordHeaderSize + fromBeBytes (header.take 4) := by
  unfold recordLength
  dsimp only
  split
  · exact ⟨fun h => (by cases h), fun h => absurd h.1 (by omega)⟩
  · rename_i hfits
    constructor
    · intro h
      cases h
      exact ⟨Nat.le_of_not_lt hfits, rfl⟩
    · rintro ⟨-, rfl⟩
      rfl

theorem decodeRecord_eq_ok {framed : Bytes} {record : MinuteRecord} :
    decodeRecord hourStartMs framed = .ok record ↔
      crc32 (framed.drop recordHeaderSize) = UInt32.ofNat (fromBeBytes ((framed.drop 4).take 4)) ∧
        decodeMinute (framed.drop recordHeaderSize) = .ok record ∧
        hourStart record.timestampMs = hourStartMs := by
  unfold decodeRecord
  rw [bind_eq_ok]
  constructor
  · rintro ⟨_, hcrc, h⟩
    obtain ⟨decoded, hdecode, h⟩ := bind_eq_ok.mp h
    obtain ⟨_, hhour, h⟩ := bind_eq_ok.mp h
    cases h
    refine ⟨Decidable.not_not.mp (rejectIf_eq_ok.mp hcrc), ?_,
      Decidable.not_not.mp (rejectIf_eq_ok.mp hhour)⟩
    cases hdecoded : decodeMinute (framed.drop recordHeaderSize) with
    | error e =>
      rw [hdecoded] at hdecode
      cases hdecode
    | ok decoded' =>
      rw [hdecoded] at hdecode
      cases hdecode
      rfl
  · rintro ⟨hcrc, hdecode, hhour⟩
    refine ⟨(), rejectIf_eq_ok.mpr (not_not_intro hcrc), bind_eq_ok.mpr ⟨record, ?_, ?_⟩⟩
    · rw [hdecode]
      rfl
    · exact bind_eq_ok.mpr ⟨(), rejectIf_eq_ok.mpr (not_not_intro hhour), rfl⟩

/-- The loop of `read_segment`, one record after the other. -/
def recordFormat : HeaderFormat IoError MinuteRecord where
  header := recordHeaderSize
  length := recordLength limits
  header_le h := ((recordLength_eq_ok limits).mp h).2 ▸ Nat.le_add_right _ _
  decode := decodeRecord hourStartMs
  size record := 87 + sessionPointSize * record.sessions.length
  size_pos _ := Nat.lt_of_lt_of_le (by decide) (Nat.le_add_right 87 _)
  size_decode := by
    intro bytes record hlength hdecode
    have hle : recordHeaderSize ≤ bytes.length :=
      ((recordLength_eq_ok limits).mp hlength).2 ▸ Nat.le_add_right _ _
    have hpayload := length_of_decodeMinute ((decodeRecord_eq_ok _).mp hdecode).2.1
    rw [List.length_drop] at hpayload
    unfold recordHeaderSize at hle hpayload
    omega

/-- `read_segment`: the records, and how many bytes are torn off at the end. -/
def readSegment (content : Bytes) : Except IoError (List MinuteRecord × Nat) := do
  rejectIf (content.length > limits.maxSegmentBytes)
    (IoError.invalidData "metric segment exceeds size limit")
  rejectIf (content.length < segmentHeaderSize) IoError.unexpectedEof
  let segment ← (decodeSegmentHeader (content.take segmentHeaderSize)).mapError fun _ =>
    .invalidData "invalid metric segment header"
  let cut := (recordFormat limits segment.hourStartMs).framing.cut (content.drop segmentHeaderSize)
  match cut.stopped with
  | some error => throw error
  | none => return (cut.items, cut.rest.length)

end reader

structure CurrentSegment where
  hourStartMs : UInt64
  path : Nat
  bytes : Nat
  deriving DecidableEq, Repr

structure MetricStorage where
  current : Option CurrentSegment := none
  lastTimestampMs : Option UInt64 := none
  deriving DecidableEq, Repr

structure LoadReport where
  records : List MinuteRecord := []
  skippedSegments : Nat := 0
  repairedTails : Nat := 0
  deriving DecidableEq, Repr

/-- How a write ends. -/
inductive WriteEnd where
  | whole
  /-- It fails when this many bytes have been written; at least one has not. -/
  | fails (written : Nat)
  /-- The process dies when this many bytes have been written. -/
  | dies (written : Nat)
  deriving DecidableEq, Repr

/-- The directory, and the storage of the process that has it open. -/
structure MetricsState where
  segments : Std.ExtTreeMap Nat Bytes := {}
  /-- How many entries of the directory are no segments. -/
  others : Nat := 0
  storage : MetricStorage := {}
  /-- How the writes to come end. -/
  writes : List WriteEnd := []

abbrev MetricsProgram := Program MetricsState IoError

def segmentPaths : MetricsProgram (List Nat) := read (·.segments.keys)

/-- `read_dir(…).count()`. -/
def entryCount : MetricsProgram Nat := read fun m => m.segments.size + m.others

/-- `write_all` at the end of a file. A process that dies leaves no storage behind. -/
def writeAll (path : Nat) (bytes : Bytes) : MetricsProgram Unit := fun m =>
  let put (bytes : Bytes) : Std.ExtTreeMap Nat Bytes :=
    m.segments.alter path fun content => content.map (· ++ bytes)
  match m.writes.headD .whole with
  | .whole => (.ok (), { m with segments := put bytes, writes := m.writes.tail })
  | .fails written => (.err .writeFailed, { m with
      segments := put (bytes.take (min written (bytes.length - 1))), writes := m.writes.tail })
  | .dies written => (.panic, { m with
      segments := put (bytes.take written), writes := m.writes.tail, storage := {} })

/-- `set_len`, to a length that the file has already. -/
def setLen (path len : Nat) : MetricsProgram Unit :=
  update fun m => { m with
    segments := m.segments.alter path fun content => content.map (·.take len) }

section operations

variable (limits : StorageLimits)

/-- `read_segment` of a file: a torn tail is cut off. -/
def repairSegment (path : Nat) : MetricsProgram (List MinuteRecord × Bool) := do
  match (← read (·.segments))[path]? with
  | none => throw .notFound
  | some content =>
    let (records, torn) ← lift (readSegment limits content)
    setLen path (content.length - torn)
    return (records, torn ≠ 0)

/-- `next_sequence`. -/
def nextSequence (paths : List Nat) (hourStartMs : UInt64) : Nat :=
  match (((paths.map parseSegmentName).filter (·.1 = hourStartMs.toNat)).map Prod.snd).max? with
  | none => 0
  | some sequence => min (sequence + 1) (2 ^ 32 - 1)

def createSegment (hourStartMs : UInt64) : MetricsProgram CurrentSegment := do
  rejectIf ((← entryCount) ≥ limits.maxDirectoryEntries)
    (IoError.invalidData "metrics directory entry limit reached")
  let paths ← segmentPaths
  let sequence := nextSequence paths hourStartMs
  let path := segmentName hourStartMs sequence
  rejectIf (path ∈ paths) IoError.alreadyExists
  update fun m => { m with segments := m.segments.insert path [] }
  writeAll path (encodeSegmentHeader { hourStartMs, sequence := UInt32.ofNat sequence })
  return { hourStartMs, path, bytes := segmentHeaderSize }

/-- A segment of the hour that can be read, unless it cannot be gone on with. -/
def resumeFrom (hourStartMs timestampMs : UInt64) (appendBytes : Nat) :
    List Nat → MetricsProgram (Option (CurrentSegment × Option UInt64))
  | [] => return none
  | path :: older => do
    if (parseSegmentName path).1 ≠ hourStartMs.toNat then
      resumeFrom hourStartMs timestampMs appendBytes older
    else match ← attempt (repairSegment limits path) with
      | .error _ => resumeFrom hourStartMs timestampMs appendBytes older
      | .ok (records, _) =>
        let lastTimestamp := records.getLast?.map MinuteRecord.timestampMs
        let bytes ← read fun m => (m.segments[path]?.getD []).length
        if lastTimestamp.any (timestampMs < ·) ∨ bytes + appendBytes > limits.maxSegmentBytes then
          return none
        else return some ({ hourStartMs, path, bytes }, lastTimestamp)

def resumeSegment (hourStartMs timestampMs : UInt64) (appendBytes : Nat) :
    MetricsProgram (Option (CurrentSegment × Option UInt64)) := do
  resumeFrom limits hourStartMs timestampMs appendBytes (← segmentPaths).reverse

/-- Whether a record goes into a new segment. -/
def needsNew (storage : MetricStorage) (hourStartMs timestampMs : UInt64) (appendBytes : Nat) :
    Bool :=
  storage.current.all fun current =>
    current.hourStartMs ≠ hourStartMs || current.bytes + appendBytes > limits.maxSegmentBytes ||
      storage.lastTimestampMs.any (timestampMs < ·)

/-- `if self.current.is_none()`. -/
def resume (hourStartMs timestampMs : UInt64) (appendBytes : Nat) : MetricsProgram Unit := do
  match (← read (·.storage)).current with
  | some _ => pure ()
  | none =>
    match ← resumeSegment limits hourStartMs timestampMs appendBytes with
    | none => pure ()
    | some (current, lastTimestampMs) =>
      update fun m => { m with storage := { current := some current, lastTimestampMs } }

/-- `if needs_new`. -/
def renew (hourStartMs timestampMs : UInt64) (appendBytes : Nat) : MetricsProgram Unit := do
  if needsNew limits (← read (·.storage)) hourStartMs timestampMs appendBytes then
    let current ← createSegment limits hourStartMs
    update fun m => { m with storage := { m.storage with current := some current } }
  else pure ()

/-- The framed record is written, and counted. -/
def store (framed : Bytes) (timestampMs : UInt64) : MetricsProgram Unit := do
  let current ← unwrap (← read (·.storage)).current
  writeAll current.path framed
  update fun m => { m with storage :=
    { current := some { current with bytes := current.bytes + framed.length }
      lastTimestampMs := some timestampMs } }

/-- The loop of `rotate`: there is a round for each segment that may go, and a last one. -/
def rotateLoop : Nat → MetricsProgram Unit
  | 0 => pure ()
  | rounds + 1 => do
    let m ← read id
    let paths := m.segments.keys
    let total := (m.segments.toList.map fun segment => segment.2.length).sum
    if paths.length ≤ limits.maxSegments ∧ total ≤ limits.maxTotalBytes then pure ()
    else match paths.find? fun path => m.storage.current.map CurrentSegment.path ≠ some path with
      | none => throw (.invalidData "active metric segment exceeds total limit")
      | some oldest =>
        update fun m => { m with segments := m.segments.erase oldest }
        rotateLoop rounds

def rotate : MetricsProgram Unit := do rotateLoop limits ((← segmentPaths).length + 1)

def append (record : MinuteRecord) : MetricsProgram Unit := do
  let framed ← lift ((frameRecord record limits.maxRecordBytes).mapError fun _ =>
    IoError.invalidData "metric record exceeds format limits")
  rejectIf (framed.length + segmentHeaderSize > limits.maxSegmentBytes ∨
    framed.length + segmentHeaderSize > limits.maxTotalBytes)
    (IoError.invalidData "metric record exceeds storage limits")
  let hourStartMs := hourStart record.timestampMs
  resume limits hourStartMs record.timestampMs framed.length
  renew limits hourStartMs record.timestampMs framed.length
  store framed record.timestampMs
  rotate limits

/-- A segment is read for a report. -/
def loadSegment (report : LoadReport) (path : Nat) : MetricsProgram LoadReport := do
  match ← attempt (repairSegment limits path) with
  | .ok (records, repaired) =>
    return { report with
      records := report.records ++ records
      repairedTails := report.repairedTails + if repaired then 1 else 0 }
  | .error _ => return { report with skippedSegments := report.skippedSegments + 1 }

def load : MetricsProgram LoadReport := do
  let report ← (← segmentPaths).foldlM (loadSegment limits) {}
  return { report with
    records := report.records.mergeSort fun a b => a.timestampMs ≤ b.timestampMs }

/-- `open`: the storage begins without a segment. -/
def openStorage : MetricsProgram Unit := do
  lift (validateLimits limits)
  rejectIf ((← entryCount) > limits.maxDirectoryEntries)
    (IoError.invalidData "metrics directory has too many entries")
  update fun m => { m with storage := {} }

end operations

end Metric

end PersistShell
