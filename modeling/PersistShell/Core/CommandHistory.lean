import PersistShell.Ipc.Wire

/-! The command history of a session: a file with a header and records, to which commands are
appended in place until a limit is reached, and which is then written again without the oldest. -/

namespace PersistShell

def historyMagic : Bytes := utf8 "PSHIST01"
def historyHeaderLen : Nat := 24
def recordMetaLen : Nat := 20
def maxCommandBytes : Nat := 64 * 1024
def maxHistoryBytes : Nat := 4 * 1024 * 1024
def maxHistoryRecords : Nat := 10000

structure CommandRecord where
  sequence : Nat
  completedAtMs : Nat
  shell : String
  command : Bytes
  deriving DecidableEq, Repr

structure HistoryState where
  nextSequence : Nat
  records : List CommandRecord
  deriving DecidableEq, Repr

/-- `saturating_add(1)` of a `u64`. -/
def saturatingSucc (n : Nat) : Nat := min (n + 1) (2 ^ 64 - 1)

def validateRecord (shell : String) (command : Bytes) : Except PersistError Unit := do
  rejectIf (utf8 shell = [] ∨ (utf8 shell).length > 65535)
    (.invalidArgument "invalid history shell name")
  rejectIf (command = []) (.invalidArgument "empty history command")
  rejectIf (command.length > maxCommandBytes) (.invalidArgument "history command is too large")

/-- The bytes of a record, with the length of what follows in front. -/
def CommandRecord.bytes (record : CommandRecord) : Bytes :=
  toBeBytes 4 (recordMetaLen + (utf8 record.shell).length + record.command.length) ++
    toBeBytes 8 record.sequence ++ toBeBytes 8 record.completedAtMs ++
    toBeBytes 2 (utf8 record.shell).length ++ toBeBytes 2 0 ++ utf8 record.shell ++ record.command

def encodeRecord (record : CommandRecord) : Except PersistError Bytes := do
  validateRecord record.shell record.command
  return record.bytes

def CommandRecord.size (record : CommandRecord) : Nat :=
  4 + recordMetaLen + (utf8 record.shell).length + record.command.length

def estimatedSize (records : List CommandRecord) : Nat :=
  historyHeaderLen + (records.map CommandRecord.size).sum

def decodeRecord (bytes : Bytes) : Except PersistError (CommandRecord × Nat) := do
  rejectIf (bytes.length < 4) (.invalidArgument "truncated history record")
  let bodyLen := fromBeBytes (bytes.take 4)
  rejectIf (bodyLen < recordMetaLen ∨ bodyLen > recordMetaLen + 65535 + maxCommandBytes)
    (.invalidArgument "invalid history record size")
  rejectIf (bytes.length < 4 + bodyLen) (.invalidArgument "truncated history record")
  let body := (bytes.drop 4).take bodyLen
  let shellLen := fromBeBytes ((body.drop 16).take 2)
  rejectIf (recordMetaLen + shellLen > body.length) (.invalidArgument "invalid history shell size")
  match fromUtf8 ((body.drop recordMetaLen).take shellLen) with
  | none => .error (.invalidArgument "history shell is not UTF-8")
  | some shell =>
    let command := body.drop (recordMetaLen + shellLen)
    validateRecord shell command
    return ({ sequence := fromBeBytes (body.take 8)
              completedAtMs := fromBeBytes ((body.drop 8).take 8)
              shell, command }, 4 + bodyLen)

/-- The records of the bytes after the header. Every pass but the last consumes some. -/
def decodeRecords : Nat → Bytes → Except PersistError (List CommandRecord)
  | 0, _ => .ok []
  | fuel + 1, bytes =>
    if bytes = [] then .ok []
    else do
      let (record, consumed) ← decodeRecord bytes
      return record :: (← decodeRecords fuel (bytes.drop consumed))

def validateHeader (storedCount : Nat) (records : List CommandRecord) :
    Except PersistError Unit := do
  rejectIf (storedCount > records.length ∨ records.length - storedCount > 1)
    (.invalidArgument "command history record count does not match header")
  rejectIf ((records.zip records.tail).any fun pair => pair.1.sequence ≥ pair.2.sequence)
    (.invalidArgument "command history sequence is invalid")

def loadState (bytes : Bytes) : Except PersistError HistoryState := do
  rejectIf (bytes.length > maxHistoryBytes)
    (.invalidArgument "command history exceeds size limit")
  if bytes = [] then return { nextSequence := 1, records := [] }
  rejectIf (bytes.length < historyHeaderLen ∨ bytes.take 8 ≠ historyMagic)
    (.invalidArgument "invalid command history header")
  let storedNext := fromBeBytes ((bytes.drop 8).take 8)
  let storedCount := fromBeBytes ((bytes.drop 16).take 8)
  let records ← decodeRecords bytes.length (bytes.drop historyHeaderLen)
  validateHeader storedCount records
  let parsedNext := records.getLast?.elim 1 fun record => saturatingSucc record.sequence
  return { nextSequence := max storedNext parsedNext, records }

/-- A call that changes the file. -/
inductive FileWrite where
  /-- `set_len(0)`. -/
  | truncate
  | write (offset : Nat) (bytes : Bytes)
  deriving DecidableEq, Repr

def FileWrite.apply (content : Bytes) : FileWrite → Bytes
  | truncate => []
  | write offset bytes => content.take offset ++ bytes ++ content.drop (offset + bytes.length)

def HistoryState.header (state : HistoryState) : Bytes :=
  historyMagic ++ toBeBytes 8 state.nextSequence ++ toBeBytes 8 state.records.length

def HistoryState.bytes (state : HistoryState) : Bytes :=
  state.header ++ state.records.flatMap CommandRecord.bytes

/-- What `write_state` does to the file. -/
def stateWrites (state : HistoryState) : Except PersistError (List FileWrite) := do
  state.records.forM fun record => validateRecord record.shell record.command
  return [.truncate, .write 0 state.bytes]

/-- What `append_record` does to a file of this length. -/
def recordWrites (length : Nat) (record : CommandRecord) (count : Nat) :
    Except PersistError (List FileWrite) := do
  let encoded ← encodeRecord record
  return [.write length encoded, .write 8 (toBeBytes 8 (saturatingSucc record.sequence)),
    .write 16 (toBeBytes 8 (count + 1))]

def dropOversized : List CommandRecord → List CommandRecord
  | [] => []
  | record :: records =>
    if estimatedSize (record :: records) > maxHistoryBytes then dropOversized records
    else record :: records

def compact (records : List CommandRecord) : List CommandRecord :=
  dropOversized (records.drop (records.length - maxHistoryRecords))

/-- A command that has ended in a shell. -/
structure EndedCommand where
  shell : String
  command : Bytes
  completedAtMs : Nat
  deriving DecidableEq, Repr

/-- The record of a command, and how it gets into a file with this content. -/
def appendWrites (content : Bytes) (ended : EndedCommand) :
    Except PersistError (CommandRecord × List FileWrite) := do
  validateRecord ended.shell ended.command
  let state ← loadState content
  let record : CommandRecord :=
    { sequence := state.nextSequence, completedAtMs := ended.completedAtMs
      shell := ended.shell, command := ended.command }
  if content.length = 0 then
    let writes ← stateWrites
      { nextSequence := saturatingSucc record.sequence, records := state.records ++ [record] }
    return (record, writes)
  if state.records.length < maxHistoryRecords ∧
      estimatedSize state.records + record.size ≤ maxHistoryBytes then
    let writes ← recordWrites content.length record state.records.length
    return (record, writes)
  let writes ← stateWrites
    { nextSequence := saturatingSucc state.nextSequence
      records := compact (state.records ++ [record]) }
  return (record, writes)

/-- Where there is no file, an empty one is created. -/
def appendCommand (file : Option Bytes) (ended : EndedCommand) :
    Except PersistError (CommandRecord × Bytes) := do
  let (record, writes) ← appendWrites (file.getD []) ended
  return (record, writes.foldl FileWrite.apply (file.getD []))

def readCommandsDesc (file : Option Bytes) (offset limit : Nat) :
    Except PersistError (List CommandRecord) :=
  match file with
  | none => .ok []
  | some content =>
    if limit = 0 then .ok []
    else do
      let state ← loadState content
      return (state.records.reverse.drop offset).take limit

end PersistShell
