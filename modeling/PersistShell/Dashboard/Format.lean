import PersistShell.Ipc.Wire
import PersistShell.Program.Framing

/-! The format of the metric segments: the header of a segment, the record of a minute, and the
frame around it. -/

namespace PersistShell

inductive FormatError where
  | truncated
  | trailing
  | magic
  | version
  | invalid
  | limit
  deriving DecidableEq, Repr

inductive Completeness where
  | complete
  | partial_
  | stale
  | unavailable
  deriving DecidableEq, Repr

structure TrendPoint where
  timestampMs : UInt64
  cpuAvgMilliPercent : UInt32
  cpuPeakMilliPercent : UInt32
  rssAvgKib : UInt64
  rssPeakKib : UInt64
  readBytes : UInt64
  writeBytes : UInt64
  processCountPeak : UInt32
  sessionCount : UInt32
  runtimeCount : UInt32
  activeWriterCount : UInt32
  readonlyClientCount : UInt32
  deriving DecidableEq, Repr

structure SessionMinuteRecord where
  sessionId : UInt32
  completeness : Completeness
  point : TrendPoint
  deriving DecidableEq, Repr

structure MinuteRecord where
  timestampMs : UInt64
  completeness : Completeness
  daemon : TrendPoint
  sessions : List SessionMinuteRecord
  deriving DecidableEq, Repr

structure SegmentHeader where
  hourStartMs : UInt64
  sequence : UInt32
  deriving DecidableEq, Repr

namespace Metric

def segmentHeaderSize : Nat := 24
def recordHeaderSize : Nat := 8
def sessionPointSize : Nat := 73

/-- `b"PSMETRIC"`. -/
def magic : Bytes := [80, 83, 77, 69, 84, 82, 73, 67]

def version : Nat := 1

def putU16 (value : Nat) : Bytes := toBeBytes 2 value
def putU32 (value : UInt32) : Bytes := toBeBytes 4 value.toNat
def putU64 (value : UInt64) : Bytes := toBeBytes 8 value.toNat

def encodeSegmentHeader (header : SegmentHeader) : Bytes :=
  magic ++ putU16 version ++ [0, 0] ++ putU64 header.hourStartMs ++ putU32 header.sequence

def decodeSegmentHeader (payload : Bytes) : Except FormatError SegmentHeader := do
  rejectIf (payload.length < segmentHeaderSize) FormatError.truncated
  rejectIf (payload.length > segmentHeaderSize) FormatError.trailing
  rejectIf (payload.take 8 ≠ magic) FormatError.magic
  rejectIf (fromBeBytes ((payload.drop 8).take 2) ≠ version) FormatError.version
  rejectIf ((payload.drop 10).take 2 ≠ [0, 0]) FormatError.invalid
  return { hourStartMs := UInt64.ofNat (fromBeBytes ((payload.drop 12).take 8))
           sequence := UInt32.ofNat (fromBeBytes ((payload.drop 20).take 4)) }

/-- One of the eight rounds over a byte; the mask is `0_u32.wrapping_sub(crc & 1)`. -/
def crcRound (crc : UInt32) : UInt32 := (crc >>> 1) ^^^ (0xEDB88320 &&& (0 - (crc &&& 1)))

def crc32 (payload : Bytes) : UInt32 :=
  ~~~(payload.foldl (fun crc byte => Nat.repeat crcRound 8 (crc ^^^ byte.toUInt32)) (~~~0))

def timestampsMatch (record : MinuteRecord) : Bool :=
  record.daemon.timestampMs = record.timestampMs &&
    record.sessions.all fun session => session.point.timestampMs = record.timestampMs

def encodeCompleteness : Completeness → Bytes
  | .complete => [0]
  | .partial_ => [1]
  | .stale => [2]
  | .unavailable => [3]

def encodePoint (point : TrendPoint) : Bytes :=
  putU64 point.timestampMs ++ putU32 point.cpuAvgMilliPercent ++
    putU32 point.cpuPeakMilliPercent ++ putU64 point.rssAvgKib ++ putU64 point.rssPeakKib ++
    putU64 point.readBytes ++ putU64 point.writeBytes ++ putU32 point.processCountPeak ++
    putU32 point.sessionCount ++ putU32 point.runtimeCount ++ putU32 point.activeWriterCount ++
    putU32 point.readonlyClientCount

def encodeSession (session : SessionMinuteRecord) : Bytes :=
  putU32 session.sessionId ++ encodeCompleteness session.completeness ++ encodePoint session.point

/-- The ids are not zero, and `seen` has none of them before it is inserted. -/
def properIds (ids : List UInt32) : Bool := ids.all (· ≠ 0) && ids.Nodup

def encodeMinute (record : MinuteRecord) : Except FormatError Bytes := do
  rejectIf (record.sessions.length > 65535) FormatError.limit
  rejectIf (timestampsMatch record = false) FormatError.invalid
  rejectIf (properIds (record.sessions.map SessionMinuteRecord.sessionId) = false)
    FormatError.invalid
  return putU64 record.timestampMs ++ encodeCompleteness record.completeness ++
    encodePoint record.daemon ++ putU16 record.sessions.length ++
    record.sessions.flatMap encodeSession

def frameRecord (record : MinuteRecord) (maxBytes : Nat) : Except FormatError Bytes := do
  let payload ← encodeMinute record
  rejectIf (payload.length > maxBytes ∨ payload.length > 2 ^ 32 - 1) FormatError.limit
  return toBeBytes 4 payload.length ++ putU32 (crc32 payload) ++ payload

/-- `Reader`: it takes fields off the front of the payload that is left. -/
abbrev FieldReader := StateT Bytes (Except FormatError)

namespace FieldReader

def take (len : Nat) : FieldReader Bytes := fun payload =>
  if payload.length < len then .error .truncated else .ok (payload.take len, payload.drop len)

def unsigned (width : Nat) : FieldReader Nat := do return fromBeBytes (← take width)

def u32 : FieldReader UInt32 := do return UInt32.ofNat (← unsigned 4)
def u64 : FieldReader UInt64 := do return UInt64.ofNat (← unsigned 8)

def completeness : FieldReader Completeness := do
  match ← unsigned 1 with
  | 0 => return .complete
  | 1 => return .partial_
  | 2 => return .stale
  | 3 => return .unavailable
  | _ => throw .invalid

/-- `decode_point`. -/
def point : FieldReader TrendPoint := do
  return {
    timestampMs := ← u64, cpuAvgMilliPercent := ← u32, cpuPeakMilliPercent := ← u32
    rssAvgKib := ← u64, rssPeakKib := ← u64, readBytes := ← u64, writeBytes := ← u64
    processCountPeak := ← u32, sessionCount := ← u32, runtimeCount := ← u32
    activeWriterCount := ← u32, readonlyClientCount := ← u32 }

/-- The sessions of a record; `seen` are the ids that came before. -/
def sessions : Nat → List UInt32 → FieldReader (List SessionMinuteRecord)
  | 0, _ => return []
  | count + 1, seen => do
    let sessionId ← u32
    rejectIf (sessionId = 0 ∨ sessionId ∈ seen) FormatError.invalid
    let session : SessionMinuteRecord :=
      { sessionId, completeness := ← completeness, point := ← point }
    return session :: (← sessions count (sessionId :: seen))

/-- `decode_minute`, up to the check that nothing is left. -/
def minute : FieldReader MinuteRecord := do
  let timestampMs ← u64
  let completeness ← completeness
  let daemon ← point
  let count ← unsigned 2
  rejectIf (count * sessionPointSize > (← get).length) FormatError.truncated
  return { timestampMs, completeness, daemon, sessions := ← sessions count [] }

end FieldReader

def decodeMinute (payload : Bytes) : Except FormatError MinuteRecord := do
  let (record, left) ← FieldReader.minute payload
  rejectIf (left ≠ []) FormatError.trailing
  rejectIf (timestampsMatch record = false) FormatError.invalid
  return record

namespace FieldReader

variable {α β : Type} {m : FieldReader α} {f : α → FieldReader β} {front back : Bytes} {a : α}
  {b : β}

theorem bind_eq_ok {bytes rest : Bytes} :
    (m >>= f) bytes = .ok (b, rest) ↔
      ∃ a left, m bytes = .ok (a, left) ∧ f a left = .ok (b, rest) := by
  change (m bytes >>= fun p => f p.1 p.2) = _ ↔ _
  cases m bytes with
  | error e => exact ⟨fun h => (by cases h), fun ⟨_, _, h, _⟩ => (by cases h)⟩
  | ok p =>
    constructor
    · exact fun h => ⟨p.1, p.2, rfl, h⟩
    · rintro ⟨a, left, hp, h⟩
      cases hp
      exact h

/-- The reader takes `bytes` off the front of a payload and makes `a` of them. -/
def Reads (m : FieldReader α) (bytes : Bytes) (a : α) : Prop :=
  ∀ rest, m (bytes ++ rest) = .ok (a, rest)

/-- What the reader makes of a payload says how many bytes it took. -/
def Consumes (m : FieldReader α) (size : α → Nat) : Prop :=
  ∀ bytes a rest, m bytes = .ok (a, rest) → bytes.length = size a + rest.length

theorem Reads.pure (a : α) : (Pure.pure a : FieldReader α).Reads [] a := fun _ => rfl

theorem Reads.bind (hm : m.Reads front a) (hf : (f a).Reads back b) :
    (m >>= f).Reads (front ++ back) b := by
  intro rest
  rw [List.append_assoc]
  exact bind_eq_ok.mpr ⟨a, back ++ rest, hm _, hf rest⟩

/-- The last field. -/
theorem Reads.last (hm : m.Reads front a) (hf : ∀ rest, f a rest = .ok (b, rest)) :
    (m >>= f).Reads front b :=
  fun rest => bind_eq_ok.mpr ⟨a, rest, hm rest, hf rest⟩

theorem Reads.reject {c : Prop} [Decidable c] {e : FormatError} {m : FieldReader α}
    (hc : ¬ c) (hm : m.Reads front a) :
    (rejectIf c e >>= fun _ => m : FieldReader α).Reads front a := by
  intro rest
  refine bind_eq_ok.mpr ⟨(), front ++ rest, ?_, hm rest⟩
  rw [rejectIf, if_neg hc]
  rfl

theorem Consumes.pure (a : α) : (Pure.pure a : FieldReader α).Consumes fun _ => 0 := by
  intro bytes a rest h
  cases h
  exact (Nat.zero_add _).symm

theorem Consumes.bind {n k : Nat} (hm : m.Consumes fun _ => n)
    (hf : ∀ a, (f a).Consumes fun _ => k) : (m >>= f).Consumes fun _ => n + k := by
  intro bytes b rest h
  obtain ⟨a, left, hfirst, hrest⟩ := bind_eq_ok.mp h
  rw [hm bytes a left hfirst, hf a left b rest hrest, Nat.add_assoc]

section fields

theorem reads_take (bytes : Bytes) : (take bytes.length).Reads bytes bytes := by
  intro rest
  rw [take, if_neg (by rw [List.length_append]; omega), List.take_left, List.drop_left]

theorem reads_unsigned (width value : Nat) (h : value < 256 ^ width) :
    (unsigned width).Reads (toBeBytes width value) value := by
  have htake := reads_take (toBeBytes width value)
  rw [length_toBeBytes] at htake
  refine htake.last fun rest => ?_
  rw [fromBeBytes_toBeBytes, Nat.mod_eq_of_lt h]
  rfl

theorem reads_u32 (value : UInt32) : u32.Reads (putU32 value) value := by
  refine (reads_unsigned 4 value.toNat value.toNat_lt).last fun rest => ?_
  rw [UInt32.ofNat_toNat]
  rfl

theorem reads_u64 (value : UInt64) : u64.Reads (putU64 value) value := by
  refine (reads_unsigned 8 value.toNat value.toNat_lt).last fun rest => ?_
  rw [UInt64.ofNat_toNat]
  rfl

theorem reads_completeness (value : Completeness) :
    completeness.Reads (encodeCompleteness value) value := by
  cases value <;> exact fun rest => rfl

theorem reads_point (value : TrendPoint) : point.Reads (encodePoint value) value := by
  unfold encodePoint
  simp only [List.append_assoc]
  refine (reads_u64 _).bind ((reads_u32 _).bind ((reads_u32 _).bind ((reads_u64 _).bind
    ((reads_u64 _).bind ((reads_u64 _).bind ((reads_u64 _).bind ((reads_u32 _).bind
    ((reads_u32 _).bind ((reads_u32 _).bind ((reads_u32 _).bind ((reads_u32 _).last ?_)))))))))))
  exact fun rest => rfl

theorem consumes_take (len : Nat) : (take len).Consumes fun _ => len := by
  intro bytes a rest h
  unfold take at h
  split at h
  · cases h
  · cases h
    change bytes.length = len + (bytes.drop len).length
    rw [List.length_drop]
    omega

theorem consumes_unsigned (width : Nat) : (unsigned width).Consumes fun _ => width :=
  (consumes_take width).bind fun _ => .pure _

theorem consumes_u32 : u32.Consumes fun _ => 4 := (consumes_unsigned 4).bind fun _ => .pure _

theorem consumes_u64 : u64.Consumes fun _ => 8 := (consumes_unsigned 8).bind fun _ => .pure _

theorem consumes_completeness : completeness.Consumes fun _ => 1 := by
  refine (consumes_unsigned 1).bind (k := 0) fun value => ?_
  split
  · exact .pure _
  · exact .pure _
  · exact .pure _
  · exact .pure _
  · exact fun bytes a rest h => by cases h

theorem consumes_point : point.Consumes fun _ => 68 :=
  consumes_u64.bind fun _ => consumes_u32.bind fun _ => consumes_u32.bind fun _ =>
    consumes_u64.bind fun _ => consumes_u64.bind fun _ => consumes_u64.bind fun _ =>
    consumes_u64.bind fun _ => consumes_u32.bind fun _ => consumes_u32.bind fun _ =>
    consumes_u32.bind fun _ => consumes_u32.bind fun _ => consumes_u32.bind fun _ => .pure _

theorem reads_session (session : SessionMinuteRecord) (count : Nat) (seen : List UInt32)
    {rest : Bytes} {later : List SessionMinuteRecord} (hid : session.sessionId ≠ 0)
    (hnew : session.sessionId ∉ seen)
    (hlater : (sessions count (session.sessionId :: seen)).Reads rest later) :
    (sessions (count + 1) seen).Reads (encodeSession session ++ rest) (session :: later) := by
  have hproper : ¬ (session.sessionId = 0 ∨ session.sessionId ∈ seen) := fun h => h.elim hid hnew
  unfold encodeSession
  simp only [List.append_assoc]
  refine (reads_u32 _).bind (.reject hproper ?_)
  exact (reads_completeness _).bind ((reads_point _).bind (hlater.last fun _ => rfl))

theorem reads_sessions (list : List SessionMinuteRecord) (seen : List UInt32)
    (hzero : ∀ session ∈ list, session.sessionId ≠ 0)
    (hnodup : (list.map SessionMinuteRecord.sessionId).Nodup)
    (hseen : ∀ session ∈ list, session.sessionId ∉ seen) :
    (sessions list.length seen).Reads (list.flatMap encodeSession) list := by
  induction list generalizing seen with
  | nil => exact .pure []
  | cons session list ih =>
    rw [List.map_cons, List.nodup_cons] at hnodup
    rw [List.flatMap_cons]
    refine reads_session session list.length seen (hzero _ List.mem_cons_self)
      (hseen _ List.mem_cons_self) (ih _ (fun other hother => ?_) hnodup.2 fun other hother => ?_)
    · exact hzero other (List.mem_cons_of_mem _ hother)
    · intro hmem
      rcases List.mem_cons.mp hmem with heq | hmem
      · exact hnodup.1 (List.mem_map.mpr ⟨other, hother, heq⟩)
      · exact hseen other (List.mem_cons_of_mem _ hother) hmem

theorem consumes_sessions {count : Nat} {seen : List UInt32} {bytes rest : Bytes}
    {list : List SessionMinuteRecord} (h : sessions count seen bytes = .ok (list, rest)) :
    list.length = count ∧ bytes.length = sessionPointSize * count + rest.length := by
  induction count generalizing seen bytes list with
  | zero =>
    cases h
    exact ⟨rfl, (Nat.zero_add _).symm⟩
  | succ count ih =>
    obtain ⟨sessionId, left₁, hid, h⟩ := bind_eq_ok.mp h
    obtain ⟨_, left₂, hreject, h⟩ := bind_eq_ok.mp h
    obtain ⟨value, left₃, hvalue, h⟩ := bind_eq_ok.mp h
    obtain ⟨pointValue, left₄, hpoint, h⟩ := bind_eq_ok.mp h
    obtain ⟨later, left₅, hlater, h⟩ := bind_eq_ok.mp h
    cases h
    obtain ⟨hlength, hbytes⟩ := ih hlater
    have hfirst : bytes.length = 4 + left₁.length := consumes_u32 _ _ _ hid
    have hsecond : left₂.length = 1 + left₃.length := consumes_completeness _ _ _ hvalue
    have hthird : left₃.length = 68 + left₄.length := consumes_point _ _ _ hpoint
    have hsame : left₁ = left₂ := by
      unfold rejectIf at hreject
      split at hreject
      · cases hreject
      · cases hreject
        rfl
    subst hsame
    refine ⟨by rw [List.length_cons, hlength], ?_⟩
    unfold sessionPointSize at hbytes ⊢
    omega

theorem length_encodePoint (value : TrendPoint) : (encodePoint value).length = 68 := by
  simp only [encodePoint, putU64, putU32, List.length_append, length_toBeBytes]

theorem length_encodeCompleteness (value : Completeness) :
    (encodeCompleteness value).length = 1 := by
  cases value <;> rfl

theorem length_encodeSessions (list : List SessionMinuteRecord) :
    (list.flatMap encodeSession).length = list.length * sessionPointSize := by
  induction list with
  | nil => rfl
  | cons session list ih =>
    rw [List.flatMap_cons, List.length_append, ih, encodeSession, List.length_append,
      List.length_append, length_encodePoint, length_encodeCompleteness, putU32, length_toBeBytes,
      List.length_cons, Nat.succ_mul, Nat.add_comm]
    rfl

end fields

end FieldReader

/-- What `encode_minute` accepts. -/
structure Encodable (record : MinuteRecord) : Prop where
  count : record.sessions.length ≤ 65535
  timestamps : timestampsMatch record = true
  ids : properIds (record.sessions.map SessionMinuteRecord.sessionId) = true

/-- The bytes of a record. -/
def minutePayload (record : MinuteRecord) : Bytes :=
  putU64 record.timestampMs ++ encodeCompleteness record.completeness ++
    encodePoint record.daemon ++ putU16 record.sessions.length ++
    record.sessions.flatMap encodeSession

theorem encodeMinute_eq_ok {record : MinuteRecord} {payload : Bytes} :
    encodeMinute record = .ok payload ↔ Encodable record ∧ payload = minutePayload record := by
  unfold encodeMinute rejectIf
  split
  · exact ⟨fun h => (by cases h), fun h => absurd h.1.count (by omega)⟩
  rename_i hcount
  split
  · rename_i htimestamps
    exact ⟨fun h => (by cases h),
      fun h => absurd (h.1.timestamps.symm.trans htimestamps) Bool.noConfusion⟩
  rename_i htimestamps
  split
  · rename_i hids
    exact ⟨fun h => (by cases h), fun h => absurd (h.1.ids.symm.trans hids) Bool.noConfusion⟩
  rename_i hids
  constructor
  · intro h
    cases h
    exact ⟨⟨by omega, Bool.eq_true_of_not_eq_false htimestamps,
      Bool.eq_true_of_not_eq_false hids⟩, rfl⟩
  · rintro ⟨-, rfl⟩
    rfl

theorem reads_minute {record : MinuteRecord} (h : Encodable record) :
    FieldReader.minute.Reads (minutePayload record) record := by
  have hids := h.ids
  rw [properIds, Bool.and_eq_true, List.all_map, List.all_eq_true, decide_eq_true_eq] at hids
  have hsessions := FieldReader.reads_sessions record.sessions []
    (fun session hsession => of_decide_eq_true (hids.1 session hsession)) hids.2
    fun _ _ => List.not_mem_nil
  have hcount := h.count
  unfold minutePayload
  simp only [List.append_assoc]
  refine (FieldReader.reads_u64 _).bind ((FieldReader.reads_completeness _).bind
    ((FieldReader.reads_point _).bind ((FieldReader.reads_unsigned 2 _ (by omega)).bind ?_)))
  intro rest
  refine FieldReader.bind_eq_ok.mpr ⟨_, _, rfl, FieldReader.bind_eq_ok.mpr
    ⟨(), record.sessions.flatMap encodeSession ++ rest, ?_, ?_⟩⟩
  · rw [rejectIf, if_neg]
    · rfl
    · rw [List.length_append, FieldReader.length_encodeSessions]
      omega
  · exact FieldReader.bind_eq_ok.mpr ⟨_, _, hsessions rest, rfl⟩

/-- What has been encoded is decoded as it was. -/
theorem decodeMinute_minutePayload {record : MinuteRecord} (h : Encodable record) :
    decodeMinute (minutePayload record) = .ok record := by
  have hread := reads_minute h []
  rw [List.append_nil] at hread
  unfold decodeMinute
  rw [hread]
  change (do
    rejectIf (([] : Bytes) ≠ []) FormatError.trailing
    rejectIf (timestampsMatch record = false) FormatError.invalid
    return record : Except FormatError MinuteRecord) = _
  rw [rejectIf, rejectIf, if_neg (fun hne => hne rfl), h.timestamps]
  rfl

/-- The length of the payload of a record that has been decoded. -/
theorem length_of_decodeMinute {payload : Bytes} {record : MinuteRecord}
    (h : decodeMinute payload = .ok record) :
    payload.length = 79 + sessionPointSize * record.sessions.length := by
  unfold decodeMinute at h
  cases hread : FieldReader.minute payload with
  | error e =>
    rw [hread] at h
    cases h
  | ok p =>
    obtain ⟨decoded, left⟩ := p
    rw [hread] at h
    change (do
      rejectIf (left ≠ []) FormatError.trailing
      rejectIf (timestampsMatch decoded = false) FormatError.invalid
      return decoded : Except FormatError MinuteRecord) = _ at h
    unfold rejectIf at h
    split at h
    · cases h
    rename_i hleft
    split at h
    · cases h
    cases h
    have hnil : left.length = 0 := by
      rw [Decidable.not_not.mp hleft]
      rfl
    obtain ⟨timestamp, left₁, htimestamp, hread⟩ := FieldReader.bind_eq_ok.mp hread
    obtain ⟨completeness, left₂, hcompleteness, hread⟩ := FieldReader.bind_eq_ok.mp hread
    obtain ⟨daemon, left₃, hdaemon, hread⟩ := FieldReader.bind_eq_ok.mp hread
    obtain ⟨count, left₄, hcount, hread⟩ := FieldReader.bind_eq_ok.mp hread
    obtain ⟨_, left₅, hget, hread⟩ := FieldReader.bind_eq_ok.mp hread
    cases hget
    obtain ⟨_, left₅, hreject, hread⟩ := FieldReader.bind_eq_ok.mp hread
    obtain ⟨list, left₆, hsessions, hread⟩ := FieldReader.bind_eq_ok.mp hread
    cases hread
    have hsame : left₄ = left₅ := by
      unfold rejectIf at hreject
      split at hreject
      · cases hreject
      · cases hreject
        rfl
    subst hsame
    have h₁ : payload.length = 8 + left₁.length := FieldReader.consumes_u64 _ _ _ htimestamp
    have h₂ : left₁.length = 1 + left₂.length :=
      FieldReader.consumes_completeness _ _ _ hcompleteness
    have h₃ : left₂.length = 68 + left₃.length := FieldReader.consumes_point _ _ _ hdaemon
    have h₄ : left₃.length = 2 + left₄.length := FieldReader.consumes_unsigned 2 _ _ _ hcount
    obtain ⟨hlength, h₅⟩ := FieldReader.consumes_sessions hsessions
    dsimp only
    rw [hlength]
    omega

end Metric

end PersistShell
