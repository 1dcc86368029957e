import PersistShell.Ipc.PublicChunks

/-! The listing of sessions in the public protocol: a count in a `u16`, and the entries behind
it. The strings of an entry are cut at the longest length that their fields can say. -/

namespace PersistShell

section lossy

def isContinuation (b : UInt8) : Bool := b &&& 0xc0 = 0x80

/-- Whether `next` may follow the first byte of a sequence of three or four bytes. -/
def isSecond (first next : UInt8) : Bool :=
  if first = 0xe0 then 0xa0 ≤ next && next ≤ 0xbf
  else if first = 0xed then 0x80 ≤ next && next ≤ 0x9f
  else if first = 0xf0 then 0x90 ≤ next && next ≤ 0xbf
  else if first = 0xf4 then 0x80 ≤ next && next ≤ 0x8f
  else isContinuation next

/-- What follows the first byte of a sequence: how many bytes may, and which ones. -/
def followers (first : UInt8) : List (UInt8 → Bool) :=
  if 0xc2 ≤ first && first ≤ 0xdf then [isContinuation]
  else if 0xe0 ≤ first && first ≤ 0xef then [isSecond first, isContinuation]
  else if 0xf0 ≤ first && first ≤ 0xf4 then [isSecond first, isContinuation, isContinuation]
  else []

/-- How many of the bytes are as they should be, up to the first that is not. -/
def matching : List (UInt8 → Bool) → Bytes → Nat
  | [], _ => 0
  | _ :: _, [] => 0
  | accepts :: later, b :: bytes => if accepts b then matching later bytes + 1 else 0

/-- The first character, or the replacement of bytes that are none, and what is behind it. -/
def firstLossy (first : UInt8) (bytes : Bytes) : String × Bytes :=
  let len := matching (followers first) bytes
  ((fromUtf8 (first :: bytes.take len)).getD "\uFFFD", bytes.drop len)

def fromUtf8LossyLoop : Nat → Bytes → String
  | 0, _ => ""
  | _ + 1, [] => ""
  | fuel + 1, first :: bytes =>
    (firstLossy first bytes).1 ++ fromUtf8LossyLoop fuel (firstLossy first bytes).2

/-- `String::from_utf8_lossy`: each character takes a byte at least. -/
def fromUtf8Lossy (bytes : Bytes) : String := fromUtf8LossyLoop bytes.length bytes

example : fromUtf8Lossy [0x61, 0xe2, 0x82, 0x62, 0xc3, 0xa9, 0xff] = "a\uFFFDbé\uFFFD" := by
  decide +kernel

end lossy

structure SessionEntry where
  sessionId : Nat
  name : String
  status : String
  exitCode : Option Int := none
  closedAt : Option String := none
  hasNote : Bool := false
  hasTags : Bool := false
  isPinned : Bool := false
  isLocked : Bool := false
  idle : String := ""
  foregroundPid : Option Nat := none
  foregroundName : String := ""
  foregroundCmd : String := ""
  deriving DecidableEq, Repr

structure ListSessionsRespPayload where
  sessions : List SessionEntry

def encodeStr16 (s : String) : Bytes :=
  let bytes := (utf8 s).take 65535
  putU16 bytes.length ++ bytes

/-- The bits of an entry say which of its fields follow. -/
def flagBits (exit closed note tags pinned locked idle foreground : Bool) : UInt8 :=
  (if exit then 0x01 else 0) ||| (if closed then 0x02 else 0) ||| (if note then 0x04 else 0) |||
    (if tags then 0x08 else 0) ||| (if pinned then 0x10 else 0) |||
    (if locked then 0x40 else 0) ||| (if idle then 0x20 else 0) |||
    (if foreground then 0x80 else 0)

def SessionEntry.flags (entry : SessionEntry) : UInt8 :=
  flagBits entry.exitCode.isSome entry.closedAt.isSome entry.hasNote entry.hasTags
    entry.isPinned entry.isLocked (entry.idle ≠ "") entry.foregroundPid.isSome

def SessionEntry.foreground (entry : SessionEntry) (pid : Nat) : Bytes :=
  putU32 pid ++ encodeStr16 entry.foregroundName ++ encodeStr16 entry.foregroundCmd

def SessionEntry.encode (entry : SessionEntry) : Bytes :=
  putU32 entry.sessionId ++ encodeStr16 entry.name ++ encodeStr16 entry.status ++
    [entry.flags] ++ (entry.exitCode.map putI32).getD [] ++
    (entry.closedAt.map encodeStr16).getD [] ++
    (if entry.idle ≠ "" then encodeStr16 entry.idle else []) ++
    (entry.foregroundPid.map entry.foreground).getD []

/-- The count stops at the largest `u16`; the entries do not. -/
def encodeListSessionsResp (p : ListSessionsRespPayload) : Bytes :=
  putU16 (min p.sessions.length 65535) ++ p.sessions.flatMap SessionEntry.encode

/-- A decoder takes its fields off the front of the data. -/
abbrev Fields := StateT Bytes Option

namespace Fields

def take (len : Nat) : Fields Bytes := fun data =>
  if data.length < len then none else some (data.take len, data.drop len)

def u16 : Fields Nat := do return fromBeBytes (← take 2)

def u32 : Fields Nat := do return fromBeBytes (← take 4)

def i32 : Fields Int := do return i32OfBits (← u32)

def byte : Fields UInt8
  | [] => none
  | b :: data => some (b, data)

/-- `decode_str16`. -/
def str16 : Fields String := do
  let len ← u16
  return fromUtf8Lossy (← take len)

/-- A field that is there only where a flag says so. -/
def given {α : Type} (c : Bool) (field : Fields α) : Fields (Option α) :=
  if c then do return some (← field) else return none

def foreground : Fields (Nat × String × String) := do
  let pid ← u32
  let name ← str16
  let cmd ← str16
  return (pid, name, cmd)

def sessionEntry : Fields SessionEntry := do
  let sessionId ← u32
  let name ← str16
  let status ← str16
  let flags ← byte
  let exitCode ← given (flags &&& 0x01 != 0) i32
  let closedAt ← given (flags &&& 0x02 != 0) str16
  let idle ← given (flags &&& 0x20 != 0) str16
  let foreground ← given (flags &&& 0x80 != 0) foreground
  return {
    sessionId, name, status, exitCode, closedAt
    hasNote := flags &&& 0x04 != 0
    hasTags := flags &&& 0x08 != 0
    isPinned := flags &&& 0x10 != 0
    isLocked := flags &&& 0x40 != 0
    idle := idle.getD ""
    foregroundPid := foreground.map (·.1)
    foregroundName := (foreground.map (·.2.1)).getD ""
    foregroundCmd := (foreground.map (·.2.2)).getD "" }

def sessionEntries : Nat → Fields (List SessionEntry)
  | 0 => return []
  | count + 1 => do
    let entry ← sessionEntry
    return entry :: (← sessionEntries count)

end Fields

/-- What is behind the last entry is not looked at. -/
def decodeListSessionsResp (data : Bytes) : Option ListSessionsRespPayload :=
  (do
    let count ← Fields.u16
    return { sessions := ← Fields.sessionEntries count } : Fields ListSessionsRespPayload).run' data

section sizes

def strSize (s : String) : Nat := 2 + min (utf8 s).length 65535

/-- What an entry takes of a payload. -/
def SessionEntry.size (entry : SessionEntry) : Nat :=
  4 + strSize entry.name + strSize entry.status + 1 + (entry.exitCode.map fun _ => 4).getD 0 +
    (entry.closedAt.map strSize).getD 0 +
    (if entry.idle ≠ "" then strSize entry.idle else 0) +
    (entry.foregroundPid.map fun _ =>
      4 + strSize entry.foregroundName + strSize entry.foregroundCmd).getD 0

theorem length_encodeStr16 (s : String) : (encodeStr16 s).length = strSize s := by
  rw [encodeStr16, List.length_append, putU16, length_toBeBytes, List.length_take, strSize,
    Nat.min_comm]

theorem length_getD_map {α : Type} (f : α → Bytes) (a? : Option α) :
    ((a?.map f).getD []).length = (a?.map fun a => (f a).length).getD 0 := by
  cases a? <;> rfl

theorem SessionEntry.length_encode (entry : SessionEntry) : entry.encode.length = entry.size := by
  have hidle : (if entry.idle ≠ "" then encodeStr16 entry.idle else []).length =
      if entry.idle ≠ "" then strSize entry.idle else 0 := by
    split
    · exact length_encodeStr16 _
    · rfl
  simp only [encode, size, List.length_append, length_getD_map, hidle, foreground, putI32,
    putU32, length_toBeBytes, length_encodeStr16, List.length_singleton]

theorem length_encodeListSessionsResp (p : ListSessionsRespPayload) :
    (encodeListSessionsResp p).length = 2 + (p.sessions.map SessionEntry.size).sum := by
  rw [encodeListSessionsResp, List.length_append, putU16, length_toBeBytes, List.length_flatMap]
  simp only [SessionEntry.length_encode]

end sizes

/-- An entry as its reader has it: the strings are cut, and what a process without a pid is
called is left out. -/
def SessionEntry.onWire (entry : SessionEntry) : SessionEntry :=
  let str := fun s => fromUtf8Lossy ((utf8 s).take 65535)
  { entry with
    sessionId := entry.sessionId % 2 ^ 32
    name := str entry.name
    status := str entry.status
    exitCode := entry.exitCode.map fun code => i32OfBits (i32ToBits code)
    closedAt := entry.closedAt.map str
    idle := if entry.idle ≠ "" then str entry.idle else ""
    foregroundPid := entry.foregroundPid.map (· % 2 ^ 32)
    foregroundName := (entry.foregroundPid.map fun _ => str entry.foregroundName).getD ""
    foregroundCmd := (entry.foregroundPid.map fun _ => str entry.foregroundCmd).getD "" }

/-- The field takes `bytes` off the front of the data and makes `a` of them. -/
def Fields.Reads {α : Type} (field : Fields α) (bytes : Bytes) (a : α) : Prop :=
  ∀ rest, field (bytes ++ rest) = some (a, rest)

namespace Fields

variable {α β : Type} {m : Fields α} {f : α → Fields β} {front back : Bytes} {a : α} {b : β}

theorem Reads.pure (a : α) : (Pure.pure a : Fields α).Reads [] a := fun _ => rfl

theorem Reads.bind (h : m.Reads front a) (h' : (f a).Reads back b) :
    (m >>= f).Reads (front ++ back) b := by
  intro rest
  rw [List.append_assoc]
  change (m (front ++ (back ++ rest))).bind (fun p => f p.1 p.2) = some (b, rest)
  rw [h]
  exact h' rest

theorem Reads.map {g : α → β} (h : m.Reads front a) :
    (do return g (← m) : Fields β).Reads front (g a) := by
  rw [← List.append_nil front]
  exact h.bind (Reads.pure _)

theorem reads_take (bytes : Bytes) : (take bytes.length).Reads bytes bytes := by
  intro rest
  rw [take, if_neg (by rw [List.length_append]; omega), List.take_left, List.drop_left]

theorem reads_toBeBytes (width value : Nat) :
    (do return fromBeBytes (← take width) : Fields Nat).Reads (toBeBytes width value)
      (value % 256 ^ width) := by
  have htake := reads_take (toBeBytes width value)
  rw [length_toBeBytes] at htake
  rw [← fromBeBytes_toBeBytes]
  exact htake.map

theorem reads_u32 (value : Nat) : u32.Reads (putU32 value) (value % 2 ^ 32) :=
  reads_toBeBytes 4 value

theorem reads_i32 (value : Int) : i32.Reads (putI32 value) (i32OfBits (i32ToBits value)) := by
  have hlt : i32ToBits value < 2 ^ 32 := by
    unfold i32ToBits
    omega
  have hread := reads_u32 (i32ToBits value)
  rw [Nat.mod_eq_of_lt hlt] at hread
  exact hread.map

theorem reads_byte (b : UInt8) : byte.Reads [b] b := fun _ => rfl

theorem reads_str16 (s : String) :
    str16.Reads (encodeStr16 s) (fromUtf8Lossy ((utf8 s).take 65535)) := by
  have hshort : ((utf8 s).take 65535).length < 256 ^ 2 := by
    rw [List.length_take]
    omega
  have hlength := reads_toBeBytes 2 ((utf8 s).take 65535).length
  rw [Nat.mod_eq_of_lt hshort] at hlength
  exact hlength.bind (reads_take _).map

theorem reads_given {field : Fields β} {put : α → Bytes} {back : α → β} (a? : Option α)
    (h : ∀ a, a? = some a → field.Reads (put a) (back a)) :
    (given a?.isSome field).Reads ((a?.map put).getD []) (a?.map back) := by
  cases a? with
  | none => exact Reads.pure none
  | some a => exact (h a rfl).map

/-- The flags are read back one by one. -/
theorem flagBits_read (exit closed note tags pinned locked idle foreground : Bool) :
    let flags := flagBits exit closed note tags pinned locked idle foreground
    (flags &&& 0x01 != 0) = exit ∧ (flags &&& 0x02 != 0) = closed ∧
      (flags &&& 0x04 != 0) = note ∧ (flags &&& 0x08 != 0) = tags ∧
      (flags &&& 0x10 != 0) = pinned ∧ (flags &&& 0x40 != 0) = locked ∧
      (flags &&& 0x20 != 0) = idle ∧ (flags &&& 0x80 != 0) = foreground := by
  revert exit closed note tags pinned locked idle foreground
  decide +kernel

theorem reads_foreground (entry : SessionEntry) (pid : Nat) :
    foreground.Reads (entry.foreground pid)
      (pid % 2 ^ 32, fromUtf8Lossy ((utf8 entry.foregroundName).take 65535),
        fromUtf8Lossy ((utf8 entry.foregroundCmd).take 65535)) := by
  rw [SessionEntry.foreground, List.append_assoc]
  exact (reads_u32 pid).bind ((reads_str16 _).bind (reads_str16 _).map)

/-- The idle text is there where it is not empty. -/
theorem reads_idle (idle : String) :
    (given (idle ≠ "") str16).Reads (if idle ≠ "" then encodeStr16 idle else [])
      (if idle ≠ "" then some (fromUtf8Lossy ((utf8 idle).take 65535)) else none) := by
  by_cases h : idle ≠ ""
  · rw [if_pos h, if_pos h, decide_eq_true h]
    exact (reads_str16 idle).map
  · rw [if_neg h, if_neg h, decide_eq_false h]
    exact Reads.pure none

end Fields

theorem SessionEntry.flags_read (entry : SessionEntry) :
    (entry.flags &&& 0x01 != 0) = entry.exitCode.isSome ∧
      (entry.flags &&& 0x02 != 0) = entry.closedAt.isSome ∧
      (entry.flags &&& 0x04 != 0) = entry.hasNote ∧ (entry.flags &&& 0x08 != 0) = entry.hasTags ∧
      (entry.flags &&& 0x10 != 0) = entry.isPinned ∧
      (entry.flags &&& 0x40 != 0) = entry.isLocked ∧
      (entry.flags &&& 0x20 != 0) = decide (entry.idle ≠ "") ∧
      (entry.flags &&& 0x80 != 0) = entry.foregroundPid.isSome :=
  Fields.flagBits_read _ _ _ _ _ _ _ _

open Fields in
/-- An entry is read back, but for what its fields have no room for. -/
theorem SessionEntry.reads_encode (entry : SessionEntry) :
    sessionEntry.Reads entry.encode entry.onWire := by
  obtain ⟨hexit, hclosed, hnote, htags, hpinned, hlocked, hidle, hforeground⟩ := entry.flags_read
  have hexitCode := reads_given entry.exitCode fun code _ => reads_i32 code
  have hclosedAt := reads_given entry.closedAt fun closed _ => reads_str16 closed
  have hprocess := reads_given entry.foregroundPid fun pid _ => reads_foreground entry pid
  simp only [encode, List.append_assoc]
  unfold sessionEntry
  refine (reads_u32 _).bind ((reads_str16 _).bind ((reads_str16 _).bind ((reads_byte _).bind ?_)))
  rw [hexit, hclosed, hidle, hforeground, hnote, htags, hpinned, hlocked]
  refine hexitCode.bind (hclosedAt.bind ((reads_idle _).bind ?_))
  convert hprocess.map using 1
  unfold onWire
  split
  · cases entry.foregroundPid <;> rfl
  · cases entry.foregroundPid <;> rfl

open Fields in
theorem reads_sessionEntries (sessions : List SessionEntry) :
    (sessionEntries sessions.length).Reads (sessions.flatMap SessionEntry.encode)
      (sessions.map SessionEntry.onWire) := by
  induction sessions with
  | nil => exact Reads.pure []
  | cons entry sessions ih => exact entry.reads_encode.bind ih.map

open Fields in
/-- The reader sees no more entries than the count can say. -/
theorem decode_encodeListSessionsResp (p : ListSessionsRespPayload) :
    decodeListSessionsResp (encodeListSessionsResp p) =
      some { sessions := (p.sessions.take 65535).map SessionEntry.onWire } := by
  have hcount : min p.sessions.length 65535 < 256 ^ 2 := by omega
  have hlength := reads_toBeBytes 2 (min p.sessions.length 65535)
  rw [Nat.mod_eq_of_lt hcount] at hlength
  have hentries := reads_sessionEntries (p.sessions.take 65535)
  rw [List.length_take, Nat.min_comm] at hentries
  have hread : (do
      let count ← u16
      return { sessions := ← sessionEntries count } : Fields ListSessionsRespPayload).Reads
      (putU16 (min p.sessions.length 65535) ++ (p.sessions.take 65535).flatMap SessionEntry.encode)
      { sessions := (p.sessions.take 65535).map SessionEntry.onWire } :=
    hlength.bind hentries.map
  have hall : encodeListSessionsResp p = putU16 (min p.sessions.length 65535) ++
      (p.sessions.take 65535).flatMap SessionEntry.encode ++
      (p.sessions.drop 65535).flatMap SessionEntry.encode := by
    rw [List.append_assoc, ← List.flatMap_append, List.take_append_drop]
    rfl
  rw [decodeListSessionsResp, hall, StateT.run', hread]
  rfl

end PersistShell
